/-
  LinkedData.Proofs.AuditLogs — the log of a resource is what was done to it.

  A run of operations on one repository leaves its `activities`: what was committed, each with the
  blank node that was drawn for it. Whatever a commit does to the records of others, it leaves their
  logs alone (`Signed`), and it adds to the log of its target and takes nothing away (`call_log`). So
  after a run a log is what it was and the triples of the activities since (`log_after`), whether
  the record was deleted meanwhile and made anew, and whatever operations failed between.

  Blank nodes are drawn in one arena after another. An operation that fails may have drawn one too.
  As long as there were fewer than 2^64, no two activities have one node (`nodes_distinct`), and no
  two share a triple. From an empty store, then, every log is five triples for each activity on its
  resource (`Mutation.entry`), and no others (`audit_log_exact`). The store may fail at any time.
-/

import LinkedData.Proofs.Shadows
import Mathlib.Algebra.Group.Nat.Defs

namespace LinkedData

open Std SteadyStore Vocabulary

/-! ## Counting round -/

theorem toNat_sub_add {a b c : UInt64} (h : (a - b).toNat + (b - c).toNat < 2 ^ 64) :
    (a - c).toNat = (a - b).toNat + (b - c).toNat := by
  rw [UInt64.toNat_sub, UInt64.toNat_sub] at h ⊢
  rw [UInt64.toNat_sub]
  have ha := a.toNat_lt
  have hb := b.toNat_lt
  have hc := c.toNat_lt
  omega

theorem toNat_next_sub (a : UInt64) : (a + 1 - a).toNat = 1 := by
  have ha := a.toNat_lt
  rw [UInt64.toNat_sub, UInt64.toNat_add, UInt64.toNat_one]
  omega

/-! ## Logs as sets of triples -/

namespace Graph

@[simp] theorem extend_nil (g : Graph) : g.extend [] = g := rfl

theorem extend_append (g : Graph) (ts us : List Triple) : g.extend (ts ++ us) = (g.extend ts).extend us :=
  List.foldl_append

/-- A list without repetitions is the triples of its graph, in some order. -/
theorem perm_extend_empty {ts : List Triple} (h : ts.Nodup) : (Graph.extend ∅ ts).toList.Perm ts := by
  have hn : (Graph.extend ∅ ts).toList.Nodup := by
    refine (ExtTreeSet.distinct_toList (t := Graph.extend ∅ ts)).imp fun {a b} hab heq => hab ?_
    rw [heq]
    exact ReflCmp.compare_self
  refine (List.perm_ext_iff_of_nodup hn h).mpr fun t => ?_
  rw [ExtTreeSet.mem_toList, mem_extend]
  simp

end Graph

namespace Mutation

/-- Every triple of an activity shows its node. -/
theorem node_of_mem_entry {x : Iri} {b : BlankNode} {kind : ChangeKind} {agent : Iri} {time : Instant} {t : Triple}
    (h : t ∈ entry x b kind agent time) : t.subject = .blank b ∨ t.subject = .iri x ∧ t.object = .blank b := by
  simp only [entry, List.mem_cons, List.not_mem_nil, or_false] at h
  rcases h with rfl | rfl | rfl | rfl | rfl
  · exact .inr ⟨rfl, rfl⟩
  · exact .inl rfl
  · exact .inl rfl
  · exact .inl rfl
  · exact .inl rfl

theorem node_unique {x : Iri} {b b' : BlankNode} {kind kind' : ChangeKind} {agent agent' : Iri} {time time' : Instant}
    {t : Triple} (h : t ∈ entry x b kind agent time) (h' : t ∈ entry x b' kind' agent' time') : b = b' := by
  rcases node_of_mem_entry h with hs | ⟨hs, ho⟩
  · rcases node_of_mem_entry h' with hs' | ⟨hs', -⟩
    · rw [hs] at hs'
      exact Subject.blank.inj hs'
    · rw [hs] at hs'
      cases hs'
  · rcases node_of_mem_entry h' with hs' | ⟨-, ho'⟩
    · rw [hs] at hs'
      cases hs'
    · rw [ho] at ho'
      exact Term.blank.inj ho'

theorem nodup_entry (x : Iri) (b : BlankNode) (kind : ChangeKind) (agent : Iri) (time : Instant) :
    (entry x b kind agent time).Nodup := by
  have hcreate : Prov.activity ≠ Activity.create := by decide
  have hupdate : Prov.activity ≠ Activity.update := by decide
  have hdelete : Prov.activity ≠ Activity.delete := by decide
  have hassociated : Rdf.type ≠ Prov.wasAssociatedWith := by decide
  have htime : Rdf.type ≠ Prov.atTime := by decide
  have hlast : Prov.wasAssociatedWith ≠ Prov.atTime := by decide
  cases kind <;> simp [entry, hcreate, hupdate, hdelete, hassociated, htime, hlast]

end Mutation

/-! ## What a commit does to logs -/

/-- The target of an operation and the kind of its activity. -/
def Call.act (root : Iri) : Call → Option (Iri × ChangeKind)
  | .makeRoot => some (root, .created)
  | .create id _ _ | .createBinary id _ _ => some (id, .created)
  | .replace id _ | .replaceModel id _ _ => some (id, .updated)
  | .delete id => some (id, .deleted)
  | .get _ | .require _ => none

theorem Call.act_of_mutation {root id : Iri} {c : Call} {op : Operation} (h : c.mutation? root = some (id, op)) :
    c.act root = some (id, op.kind) := by
  cases c with
  | create | delete =>
    simp only [Call.mutation?, Option.ite_none_left_eq_some] at h
    obtain ⟨-, heq⟩ := h
    cases heq
    rfl
  | createBinary | replace | replaceModel =>
    cases h
    rfl
  | makeRoot | get | require => cases h

namespace Repository

open Mutation

section

variable {σ : Type} [RecordStore σ] [KeyedStore σ]

/-- The commit `c`, which took a repository from `r` to `r'`, is what `agent` did to `id`, and the logs of others
    are as they were. -/
structure Signed (r : Repository σ) (id : Iri) (kind : ChangeKind) (agent : Iri) (c : Commit) (r' : Repository σ) :
    Prop where
  target : c.resource.id = id
  kind : c.kind = kind
  agent : c.agent = agent
  ordered : (c.touched.map Resource.id).Pairwise fun x y => compare x y = .lt
  /-- One blank node was drawn. -/
  scopes : r'.scopes = r.scopes.arena.2
  spared : ∀ x, x ≠ id → logOf (find r'.store x) = logOf (find r.store x)

theorem Recorded.signed {r r' : Repository σ} {id agent : Iri} {kind : ChangeKind} {o : Outcome} {now : Instant}
    {c : Commit} (h : Recorded r id agent now c r') (ha : After id o r r') (hc : Reports c kind id r') :
    Signed r id kind agent c r' where
  target := h.resource
  kind := hc.1
  agent := h.agent
  ordered := h.ordered
  scopes := h.scopes
  spared x hx := by
    rw [logOf_congr (ha.content x), Outcome.applyTo_of_ne o _ (Ne.symm hx), logOf_edited]

theorem Ending.signed {r : Repository σ} {id : Iri} {op : Operation} {session : Session} {now : Instant}
    {out : Except Error Commit × Repository σ} (h : Ending r id op session now out) {c : Commit}
    (hc : out.1.toOption = some c) : Signed r id op.kind session.agent c out.2 := by
  cases h with
  | refused _ => cases hc
  | failed _ _ _ _ _ => cases hc
  | done _ _ _ hreports hw ha =>
    cases hc
    exact hw.signed ha hreports

theorem Founding.signed {r : Repository σ} {session : Session} {now : Instant}
    {out : Except Error (Option Commit) × Repository σ} (h : Founding r session now out) {c : Commit}
    (hc : out.1.toOption.join = some c) : Signed r r.root .created session.agent c out.2 := by
  cases h with
  | present _ => cases hc
  | made _ hreports hw ha =>
    cases hc
    exact hw.signed ha hreports

theorem call_signed {r : Repository σ} (hk : SelfKeyed r.store) (session : Session) (now : Instant) {call : Call}
    {c : Commit} (hc : r.commit? session now call = some c) :
    ∃ id kind, call.act r.root = some (id, kind) ∧ Signed r id kind session.agent c (r.call session now call).2 := by
  by_cases hroot : call = .makeRoot
  · subst hroot
    exact ⟨_, _, rfl, (createRoot_cases hk session now).signed hc⟩
  · cases hm : call.mutation? r.root with
    | none =>
      rw [(call_of_no_mutation hroot hm session now).1] at hc
      cases hc
    | some m =>
      obtain ⟨hcommit, hafter⟩ := call_of_mutation hm session now
      rw [hcommit] at hc
      rw [hafter]
      exact ⟨_, _, Call.act_of_mutation hm, (mutate_cases hk m.1 m.2 session now).signed hc⟩

end

/-! ## Activities -/

section

variable {σ : Type} [RecordStore σ] [HonestStore σ]

/-- What some operations commit, each with the blank node of its activity. -/
def activities (r : Repository σ) : List (Call × Session × Instant) → List (Commit × BlankNode)
  | [] => []
  | (c, session, now) :: cs =>
    ((r.commit? session now c).map fun commit => (commit, ⟨r.scopes.next, 0⟩)).toList ++
      (r.call session now c).2.activities cs

/-- How many arenas some operations draw, if each draws less than 2^64. -/
def arenas (r : Repository σ) : List (Call × Session × Instant) → Nat
  | [] => 0
  | (c, session, now) :: cs =>
    ((r.call session now c).2.scopes.next - r.scopes.next).toNat + (r.call session now c).2.arenas cs

/-- What activities leave in the log of `x`. -/
def logged (x : Iri) (as : List (Commit × BlankNode)) : List Triple :=
  (as.filter (·.1.resource.id = x)).flatMap fun a =>
    entry x a.2 a.1.kind a.1.agent a.1.resource.modified

theorem logged_append (x : Iri) (as bs : List (Commit × BlankNode)) :
    logged x (as ++ bs) = logged x as ++ logged x bs := by
  rw [logged, List.filter_append, List.flatMap_append]
  rfl

theorem logged_of_eq {x : Iri} {c : Commit} (h : c.resource.id = x) (b : BlankNode) :
    logged x [(c, b)] = entry x b c.kind c.agent c.resource.modified := by
  simp [logged, h]

theorem logged_of_ne {x : Iri} {c : Commit} (h : c.resource.id ≠ x) (b : BlankNode) : logged x [(c, b)] = [] := by
  simp [logged, h]

variable {r : Repository σ}

theorem signed_shadow (hk : SelfKeyed r.shadow.store) (session : Session) (now : Instant) {call : Call} {c : Commit}
    (hc : r.commit? session now call = some c) :
    ∃ id kind, call.act r.root = some (id, kind) ∧
      Signed r.shadow id kind session.agent c (r.call session now call).2.shadow := by
  rcases call_shadow hk session now call with ⟨hnone, -, -⟩ | ⟨hcommit, hshadow⟩
  · rw [hnone] at hc
    cases hc
  · rw [hshadow]
    exact call_signed hk session now (hcommit ▸ hc)

/-- A log after an operation. -/
theorem call_log (hr : Sound r.shadow) (session : Session) (now : Instant) (c : Call) (x : Iri) :
    logOf (held (r.call session now c).2.store x) = (logOf (held r.store x)).extend
      (logged x ((r.commit? session now c).map fun commit => (commit, ⟨r.scopes.next, 0⟩)).toList) := by
  have htold := (told_shadow hr session now c).2
  cases hc : r.commit? session now c with
  | none =>
    rw [hc] at htold
    exact congrArg (fun s : Contents => logOf (s.find x)) htold
  | some commit =>
    rw [hc] at htold
    have hd : Dated r.shadow now commit (r.call session now c).2.shadow := htold
    obtain ⟨id, kind, -, hs⟩ := signed_shadow hr.keyed session now hc
    by_cases hx : commit.resource.id = x
    · obtain ⟨old, hold, hlog⟩ := hd.log
      have htarget := hd.target
      rw [record_eq, Except.ok.injEq] at hold htarget
      subst hx
      have hafter : logOf (held (r.call session now c).2.store commit.resource.id) = commit.resource.auditGraph :=
        congrArg logOf htarget
      have hbefore : logOf (held r.store commit.resource.id) = logOf old := congrArg logOf hold
      rw [hafter, hbefore, hlog]
      exact congrArg (Graph.extend _) (logged_of_eq rfl _).symm
    · have hspared := hs.spared x fun heq => hx (hs.target.trans heq.symm)
      exact hspared.trans (congrArg (Graph.extend _) (logged_of_ne hx _).symm)

/-- A log after a run is what it was and the triples of what was done since. -/
theorem log_after (hr : Sound r.shadow) (calls : List (Call × Session × Instant)) (x : Iri) :
    logOf (held (r.after calls).store x) = (logOf (held r.store x)).extend (logged x (r.activities calls)) := by
  induction calls generalizing r with
  | nil => rfl
  | cons c calls ih =>
    obtain ⟨c, session, now⟩ := c
    show logOf (held ((r.call session now c).2.after calls).store x) = _
    rw [ih ((told_shadow hr session now c).sound hr), call_log hr, ← Graph.extend_append, ← logged_append]
    rfl

/-- No two activities have one node. The scopes of the nodes lie among those that were drawn. -/
theorem nodes_distinct (hr : Sound r.shadow) {calls : List (Call × Session × Instant)}
    (hd : r.arenas calls < 2 ^ 64) :
    ((r.activities calls).map (·.2)).Nodup ∧
      ∀ a ∈ r.activities calls, (a.2.scope - r.scopes.next).toNat < r.arenas calls := by
  induction calls generalizing r with
  | nil => exact ⟨.nil, nofun⟩
  | cons c calls ih =>
    obtain ⟨c, session, now⟩ := c
    rw [arenas] at hd ⊢
    rw [activities, List.map_append]
    obtain ⟨hnodup, hscopes⟩ := ih ((told_shadow hr session now c).sound hr) (by omega)
    generalize hr' : (r.call session now c).2 = r' at hd hnodup hscopes ⊢
    -- what is drawn later lies behind what this operation drew
    have hlater : ∀ a ∈ r'.activities calls, (a.2.scope - r.scopes.next).toNat =
        (a.2.scope - r'.scopes.next).toNat + (r'.scopes.next - r.scopes.next).toNat := by
      intro a ha
      have hin := hscopes a ha
      exact toNat_sub_add (by omega)
    cases hc : r.commit? session now c with
    | none =>
      refine ⟨hnodup, fun a ha => ?_⟩
      have hin := hscopes a ha
      rw [hlater a ha]
      omega
    | some commit =>
      obtain ⟨id, kind, -, hs⟩ := signed_shadow hr.keyed session now hc
      have hnext : r'.scopes.next = r.scopes.next + 1 := by
        rw [← hr']
        exact congrArg ScopeSource.next hs.scopes
      have hone : (r'.scopes.next - r.scopes.next).toNat = 1 := by
        rw [hnext]
        exact toNat_next_sub _
      refine ⟨List.nodup_cons.mpr ⟨fun hmem => ?_, hnodup⟩, fun a ha => ?_⟩
      · obtain ⟨a, ha, hnode⟩ := List.mem_map.mp hmem
        have hapart := hlater a ha
        rw [hnode, UInt64.sub_self, UInt64.toNat_zero] at hapart
        omega
      · rcases List.mem_cons.mp ha with rfl | ha
        · rw [UInt64.sub_self, UInt64.toNat_zero]
          omega
        · have hin := hscopes a ha
          rw [hlater a ha]
          omega

/-- Activities with nodes of their own leave no triple twice. -/
theorem nodup_logged {as : List (Commit × BlankNode)} (h : (as.map (·.2)).Nodup) (x : Iri) : (logged x as).Nodup := by
  rw [logged, List.nodup_flatMap]
  refine ⟨fun a _ => nodup_entry x a.2 _ _ _, ?_⟩
  refine ((List.pairwise_map.mp h).filter _).imp fun {a b} hne => ?_
  intro t hta htb
  exact hne (node_unique hta htb)

omit [HonestStore σ] in
theorem map_activities (r : Repository σ) (calls : List (Call × Session × Instant)) :
    (r.activities calls).map (·.1) = r.commits calls := by
  induction calls generalizing r with
  | nil => rfl
  | cons c calls ih =>
    obtain ⟨c, session, now⟩ := c
    rw [activities, commits, List.map_append, ih]
    cases r.commit? session now c <;> rfl

theorem sound_after (hr : Sound r.shadow) (calls : List (Call × Session × Instant)) :
    Sound (r.after calls).shadow ∧ (r.after calls).root = r.root := by
  induction calls generalizing r with
  | nil => exact ⟨hr, rfl⟩
  | cons c calls ih =>
    obtain ⟨c, session, now⟩ := c
    have htold := told_shadow hr session now c
    obtain ⟨hsound, hroot⟩ := ih (htold.sound hr)
    exact ⟨hsound, hroot.trans htold.1⟩

/-- From an empty store, after any operations that drew fewer than 2^64 arenas: the log of every record, live or
    not, is the five triples of each commit with that target, each commit's on a node of its own. Whatever is done
    next, what it commits is of its kind, on its target and by its agent; no log loses a triple, and no log but the
    target's changes. -/
theorem audit_log_exact (h : ∀ id, held r.store id = none) {past : List (Call × Session × Instant)}
    (hd : r.arenas past < 2 ^ 64) :
    ((r.activities past).map (·.1) = r.commits past ∧ ((r.activities past).map (·.2)).Nodup ∧
      ∀ x, (logOf (held (r.after past).store x)).toList.Perm (logged x (r.activities past))) ∧
    ∀ (c : Call) (session : Session) (now : Instant),
      (∀ commit, (r.after past).commit? session now c = some commit →
        c.act r.root = some (commit.resource.id, commit.kind) ∧ commit.agent = session.agent) ∧
      ∀ x,
        (∀ t ∈ logOf (held (r.after past).store x),
          t ∈ logOf (held ((r.after past).call session now c).2.store x)) ∧
        (logOf (held ((r.after past).call session now c).2.store x) = logOf (held (r.after past).store x) ∨
          ∃ commit, (r.after past).commit? session now c = some commit ∧ commit.resource.id = x) := by
  have hr : Sound r.shadow := .of_empty h
  have hnodes := (nodes_distinct hr hd).1
  refine ⟨⟨map_activities r past, hnodes, fun x => ?_⟩,
    fun c session now => ⟨fun commit hc => ?_, fun x => ⟨?_, ?_⟩⟩⟩
  · rw [log_after hr, h]
    exact Graph.perm_extend_empty (nodup_logged hnodes x)
  · obtain ⟨id, kind, hact, hs⟩ := signed_shadow (sound_after hr past).1.keyed session now hc
    rw [(sound_after hr past).2] at hact
    rw [hact, hs.target, hs.kind]
    exact ⟨rfl, hs.agent⟩
  · intro t ht
    rw [call_log (sound_after hr past).1]
    exact Graph.mem_extend.mpr (.inl ht)
  · rw [call_log (sound_after hr past).1]
    cases hc : (r.after past).commit? session now c with
    | none => exact .inl rfl
    | some commit =>
      by_cases hx : commit.resource.id = x
      · exact .inr ⟨commit, rfl, hx⟩
      · refine .inl ?_
        rw [Option.map_some, Option.toList_some, logged_of_ne hx, Graph.extend_nil]

end

end Repository

/-! ## A store that fails -/

/-- A table that refuses every batch with a record of one identifier. -/
structure Blemished where
  table : Table
  broken : Iri

instance : RecordStore Blemished where
  get s id := .ok (s.table.get? id)
  putBatch s rs :=
    if rs.any (·.id = s.broken) then .error (.backend "Failed to write")
    else .ok { s with table := rs.foldl Table.put s.table }

instance : HonestStore Blemished where
  held s := s.table.get?
  held_of_get h := Except.ok.inj h
  held_of_putBatch {s s' rs} h hn := by
    have hwritten : { s with table := rs.foldl Table.put s.table } = s' := by
      simp only [RecordStore.putBatch] at h
      split at h
      · cases h
      · exact Except.ok.inj h
    rw [← hwritten]
    funext x
    exact find_write_congr (s := s.table) hn (show find s.table x = find (⟨s.table.get?⟩ : Contents) x from rfl)

namespace Repository

open Mutation

/-- A resource is created, replaced, deleted and created again as a container. Between, another one is not
    written, though a node was drawn for it, and a replacement comes too late. -/
def relived : List (Call × Session × Instant) :=
  [(.makeRoot, .administrator ⟨9, 0⟩, ⟨9, 0⟩),
   (.create ⟨"trellis:data/a"⟩ .rdfSource .empty, ⟨⟨"urn:x"⟩, ⟨9, 0⟩⟩, ⟨9, 0⟩),
   (.create ⟨"trellis:data/b"⟩ .rdfSource .empty, .anonymous ⟨9, 0⟩, ⟨9, 0⟩),
   (.replace ⟨"trellis:data/a"⟩ .empty, .anonymous ⟨9, 0⟩, ⟨9, 0⟩),
   (.delete ⟨"trellis:data/a"⟩, .anonymous ⟨3, 0⟩, ⟨3, 0⟩),
   (.replace ⟨"trellis:data/a"⟩ .empty, .anonymous ⟨9, 0⟩, ⟨9, 0⟩),
   (.create ⟨"trellis:data/a"⟩ .basicContainer .empty, .anonymous ⟨9, 0⟩, ⟨9, 0⟩)]

/-- A repository over an empty table that does not write the other one. -/
def blemished : Repository Blemished := .open ⟨"trellis:data/"⟩ ⟨.empty, ⟨"trellis:data/b"⟩⟩ 0 ⟨0, 0⟩

/-- What is logged of the deletion. -/
def removal : List Triple :=
  [⟨.iri ⟨"trellis:data/a"⟩, Prov.wasGeneratedBy, .blank ⟨4, 0⟩⟩,
   ⟨.blank ⟨4, 0⟩, Rdf.type, .iri Prov.activity⟩,
   ⟨.blank ⟨4, 0⟩, Rdf.type, .iri Activity.delete⟩,
   ⟨.blank ⟨4, 0⟩, Prov.wasAssociatedWith, .iri Server.anonymousAgent⟩,
   ⟨.blank ⟨4, 0⟩, Prov.atTime, .literal (.typed "1970-01-01T00:00:09.000000002Z" Xsd.dateTime)⟩]

/-- The third of six arenas went to what was not written; the log has the four activities on its own, five
    triples each. -/
theorem relived_log_exact :
    (∀ id, held blemished.store id = none) ∧ blemished.arenas relived = 6 ∧
      ((blemished.activities relived).filter (·.1.resource.id = ⟨"trellis:data/a"⟩)).map
        (fun a => (a.1.kind, a.2.scope)) = [(.created, 1), (.updated, 3), (.deleted, 4), (.created, 5)] ∧
      (logOf (held (blemished.after relived).store ⟨"trellis:data/a"⟩)).toList.Perm
        (logged ⟨"trellis:data/a"⟩ (blemished.activities relived)) ∧
      (logOf (held (blemished.after relived).store ⟨"trellis:data/a"⟩)).toList.length = 20 ∧
      ∀ t ∈ removal, t ∈ logOf (held (blemished.after relived).store ⟨"trellis:data/a"⟩) := by
  have hempty : ∀ id, held blemished.store id = none := Table.get?_empty
  have harenas : blemished.arenas relived = 6 := by decide +kernel
  have hfew : blemished.arenas relived < 2 ^ 64 := by
    rw [harenas]
    decide
  have hlog : (logOf (held (blemished.after relived).store ⟨"trellis:data/a"⟩)).toList.Perm
      (logged ⟨"trellis:data/a"⟩ (blemished.activities relived)) :=
    (audit_log_exact hempty hfew).1.2.2 ⟨"trellis:data/a"⟩
  have hlength : (logged ⟨"trellis:data/a"⟩ (blemished.activities relived)).length = 20 := by decide +kernel
  have hremoval : ∀ t ∈ removal, t ∈ logged ⟨"trellis:data/a"⟩ (blemished.activities relived) := by decide +kernel
  refine ⟨hempty, harenas, by decide +kernel, hlog, hlog.length_eq.trans hlength, fun t ht => ?_⟩
  exact ExtTreeSet.mem_toList.mp (hlog.mem_iff.mpr (hremoval t ht))

end Repository

end LinkedData
