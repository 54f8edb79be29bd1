/-
  LinkedData.Proofs.Times — the times of committed states.

  A commit writes each of its records at a time that is not before the clock of its operation
  and after the time of the record that was there, live or not (`nextTimestamp`). The time in the
  record, in the commit and in the log of the target is the same one, and a tombstone has it
  twice (`Dated`). Every operation either dates what it commits or leaves all records as they
  were (`call_told`), so whatever the clock does, the states that a run commits under one
  identifier have ascending times, deletions and new creations included (`times_ascend`).
-/

import LinkedData.Proofs.AbstractMap
import LinkedData.Proofs.Instants

namespace LinkedData

open Std SteadyStore Vocabulary

/-! ## The next time -/

theorem lt_nextTimestamp (p now : Instant) : p < nextTimestamp (some p) now := by
  unfold nextTimestamp
  dsimp only
  split
  · exact p.lt_next
  · next h => exact Instant.lt_of_not_le h

theorem le_nextTimestamp (previous : Option Instant) (now : Instant) : now ≤ nextTimestamp previous now := by
  unfold nextTimestamp
  cases previous with
  | none => exact now.le_refl
  | some p =>
    dsimp only
    split
    · next h => exact Instant.le_trans h (Instant.le_of_lt p.lt_next)
    · exact now.le_refl

/-! ## Commits and their times -/

/-- What is changed by an operation, and how, if it is a mutation and not refused at once. -/
def Call.mutation? (root : Iri) : Call → Option (Iri × Operation)
  | .create id model dataset =>
    if model = .nonRdfSource then none else some (id, .create model dataset.userGraph none)
  | .createBinary id binary dataset => some (id, .create .nonRdfSource dataset.userGraph (some binary))
  | .replace id dataset => some (id, .replace dataset.userGraph none)
  | .replaceModel id expected dataset => some (id, .replace dataset.userGraph (some expected))
  | .delete id => if id = root then none else some (id, .delete)
  | .makeRoot | .get _ | .require _ => none

namespace Repository

section

variable {σ : Type} [RecordStore σ]

/-- What an operation commits, if it commits anything. -/
def commit? (r : Repository σ) (session : Session) (now : Instant) : Call → Option Commit
  | .makeRoot => (r.createRoot session now).1.toOption.join
  | .create id model dataset => (r.create id model dataset session now).1.toOption
  | .createBinary id binary dataset => (r.createBinary id binary dataset session now).1.toOption
  | .replace id dataset => (r.replace id dataset session now).1.toOption
  | .replaceModel id expected dataset => (r.replaceModel id expected dataset session now).1.toOption
  | .delete id => (r.delete id session now).1.toOption
  | .get _ | .require _ => none

theorem call_of_mutation {r : Repository σ} {c : Call} {id : Iri} {op : Operation}
    (h : c.mutation? r.root = some (id, op)) (session : Session) (now : Instant) :
    r.commit? session now c = (r.mutate id op session now).1.toOption ∧
      (r.call session now c).2 = (r.mutate id op session now).2 := by
  cases c with
  | create id model dataset =>
    simp only [Call.mutation?, Option.ite_none_left_eq_some] at h
    obtain ⟨hm, heq⟩ := h
    cases heq
    dsimp only [call, commit?, create, replied]
    rw [if_neg hm]
    exact ⟨rfl, rfl⟩
  | delete id =>
    simp only [Call.mutation?, Option.ite_none_left_eq_some] at h
    obtain ⟨hid, heq⟩ := h
    cases heq
    dsimp only [call, commit?, delete, replied]
    rw [if_neg hid]
    exact ⟨rfl, rfl⟩
  | createBinary | replace | replaceModel =>
    cases h
    exact ⟨rfl, rfl⟩
  | makeRoot | get | require => cases h

theorem call_of_no_mutation {r : Repository σ} {c : Call} (hc : c ≠ .makeRoot) (h : c.mutation? r.root = none)
    (session : Session) (now : Instant) : r.commit? session now c = none ∧ (r.call session now c).2 = r := by
  cases c with
  | create id model dataset =>
    simp only [Call.mutation?, ite_eq_left_iff, reduceCtorEq, imp_false, not_not] at h
    dsimp only [call, commit?, create, replied]
    rw [if_pos h]
    exact ⟨rfl, rfl⟩
  | delete id =>
    simp only [Call.mutation?, ite_eq_left_iff, reduceCtorEq, imp_false, not_not] at h
    dsimp only [call, commit?, delete, replied]
    rw [if_pos h]
    exact ⟨rfl, rfl⟩
  | createBinary | replace | replaceModel => cases h
  | makeRoot => exact absurd rfl hc
  | get | require => exact ⟨rfl, rfl⟩

/-- A repository after some operations. -/
def after (r : Repository σ) : List (Call × Session × Instant) → Repository σ
  | [] => r
  | (c, session, now) :: cs => (r.call session now c).2.after cs

/-- What some operations commit. -/
def commits (r : Repository σ) : List (Call × Session × Instant) → List Commit
  | [] => []
  | (c, session, now) :: cs => (r.commit? session now c).toList ++ (r.call session now c).2.commits cs

end

/-- The times of the states of `x` among what was committed. -/
def timesOf (x : Iri) (cs : List Commit) : List Instant :=
  ((cs.flatMap Commit.resources).filter (·.id = x)).map (·.modified)

variable {σ : Type} [RecordStore σ] [KeyedStore σ]

/-- The commit `c`, which took a repository from `r` to `r'` when the clock showed `now`, and its times. -/
structure Dated (r : Repository σ) (now : Instant) (c : Commit) (r' : Repository σ) : Prop where
  /-- The target is kept as reported; the tombstone of a deleted one has the time of its state. -/
  target : r'.record c.resource.id =
    .ok (some ⟨c.resource, if c.kind = .deleted then some c.resource.modified else none⟩)
  touched : ∀ y ∈ c.touched, r'.record y.id = .ok (some (.live y))
  once : (c.resources.map Resource.id).Nodup
  notBefore : ∀ y ∈ c.resources, now ≤ y.modified
  later : ∀ y ∈ c.resources, ∀ old, r.record y.id = .ok (some old) → old.resource.modified < y.modified
  /-- The log of the target goes on with the activity, on a blank node of the arena drawn for it. -/
  log : ∃ old, r.record c.resource.id = .ok old ∧ c.resource.auditGraph = (Mutation.logOf old).extend
    (Mutation.entry c.resource.id ⟨r.scopes.next, 0⟩ c.kind c.agent c.resource.modified)
  /-- So the activity that made the target what it is has the same time there. -/
  stamped : ⟨.iri c.resource.id, Prov.wasGeneratedBy, .blank ⟨r.scopes.next, 0⟩⟩ ∈ c.resource.auditGraph ∧
    ⟨.blank ⟨r.scopes.next, 0⟩, Prov.atTime, .literal (.typed (c.resource.modified.write .full) Xsd.dateTime)⟩ ∈
      c.resource.auditGraph
  others : ∀ x, x ∉ c.resources.map Resource.id → r'.record x = r.record x
  /-- The root is never deleted. -/
  kept : c.kind = .deleted → c.resource.id ≠ r.root

/-- `r'` is `r` after an operation that committed `c`, or nothing. -/
def Told (r : Repository σ) (now : Instant) (c : Option Commit) (r' : Repository σ) : Prop :=
  r'.root = r.root ∧
    match c with
    | some c => Dated r now c r'
    | none => r'.store = r.store

/-- Records are under their own identifiers, tombstones have the times of their states, and the root
    is live once it was made. -/
structure Sound (r : Repository σ) : Prop where
  keyed : SelfKeyed r.store
  buried : ∀ {x record}, find r.store x = some record →
    record.tombstonedAt = none ∨ record.tombstonedAt = some record.resource.modified
  rooted : ∀ {record}, find r.store r.root = some record → record.isLive = true

theorem Recorded.dated {r r' : Repository σ} {id agent : Iri} {o : Outcome} {now : Instant} {c : Commit}
    (h : Recorded r id agent now c r') (ha : After id o r r')
    (hl : o.target.resource.auditGraph = (Mutation.logOf (find r.store id)).extend
      (Mutation.entry id ⟨r.scopes.next, 0⟩ c.kind agent ((Transaction.begin r.store r.scopes now).due id)))
    (hk : c.kind = .deleted → id ≠ r.root) : Dated r now c r' := by
  have hdue : ∀ y ∈ c.resources,
      y.modified = nextTimestamp ((find r.store y.id).map (·.resource.modified)) now := h.due
  have hrecord : ∀ {r : Repository σ} {x : Iri} {old : Record}, r.record x = .ok (some old) →
      find r.store x = some old := by
    intro r x old hx
    rw [record_eq] at hx
    exact Except.ok.inj hx
  have hlog : c.resource.auditGraph = (Mutation.logOf (find r.store c.resource.id)).extend
      (Mutation.entry c.resource.id ⟨r.scopes.next, 0⟩ c.kind c.agent c.resource.modified) := by
    have hkept := Mutation.logOf_congr (ha.content id)
    rw [h.target, Outcome.applyTo_self] at hkept
    have hlog : c.resource.auditGraph = o.target.resource.auditGraph :=
      hkept.trans (Mutation.logOf_edited (some o.target) o.edits)
    rw [hlog, hl, h.resource, h.agent, h.due _ List.mem_cons_self, h.resource]
  refine ⟨?_, fun y hy => ?_, h.nodup, fun y hy => ?_, fun y hy old hold => ?_, ⟨_, record_eq _ _, hlog⟩, ?_,
    fun x hx => ?_, ?_⟩
  · rw [record_eq, h.resource, h.target]
  · rw [record_eq, h.touched y hy]
  · rw [hdue y hy]
    exact le_nextTimestamp _ _
  · rw [hdue y hy, hrecord hold]
    exact lt_nextTimestamp _ _
  · rw [hlog]
    exact ⟨Graph.mem_extend.mpr (.inr (by simp [Mutation.entry])),
      Graph.mem_extend.mpr (.inr (by simp [Mutation.entry]))⟩
  · rw [record_eq, record_eq, h.others x hx]
  · rw [h.resource]
    exact hk

theorem Ending.told {r : Repository σ} (hk : SelfKeyed r.store) {id : Iri} {op : Operation} {session : Session}
    {now : Instant} {out : Except Error Commit × Repository σ} (h : Ending r id op session now out) :
    Told r now out.1.toOption out.2 := by
  cases h with
  | refused _ => exact ⟨rfl, rfl⟩
  | failed _ _ _ hr hs => exact ⟨hr, hs⟩
  | done hrefusal _ ho hc hw ha =>
    refine ⟨ha.root, hw.dated ha ?_ fun _ => (refusal?_eq_none.mp hrefusal).2⟩
    rw [hc.1]
    unfold outcomeAt Mutation.outcomeFrom at ho
    rw [Transaction.look_begin] at ho
    refine (Mutation.comes_of_outcome ho).log fun {x} hx => ?_
    obtain ⟨a, hfind, hlive⟩ := Option.bind_eq_some_iff.mp hx
    obtain ⟨-, rfl⟩ := Record.live?_eq_some.mp hlive
    exact hk _ a hfind

theorem Founding.told {r : Repository σ} (hr : Sound r) {session : Session} {now : Instant}
    {out : Except Error (Option Commit) × Repository σ} (h : Founding r session now out) :
    Told r now out.1.toOption.join out.2 := by
  cases h with
  | present _ => exact ⟨rfl, rfl⟩
  | made hl hc hw ha =>
    refine ⟨ha.root, hw.dated ha ?_ fun hkind => ?_⟩
    · have hnone : find r.store r.root = none := by
        cases hf : find r.store r.root with
        | none => rfl
        | some record =>
          have hlive := hr.rooted hf
          simp [findLive, hf, Record.live?, hlive] at hl
      rw [hnone, hc.1]
      exact Mutation.auditGraph_founded _ _ _ _
    · rw [hc.1] at hkind
      cases hkind

/-- Every operation dates what it commits, or leaves all records as they were. -/
theorem call_told {r : Repository σ} (hr : Sound r) (session : Session) (now : Instant) (c : Call) :
    Told r now (r.commit? session now c) (r.call session now c).2 := by
  by_cases hc : c = .makeRoot
  · subst hc
    exact (createRoot_cases hr.keyed session now).told hr
  · cases hm : c.mutation? r.root with
    | none =>
      obtain ⟨hcommit, hafter⟩ := call_of_no_mutation hc hm session now
      rw [hcommit, hafter]
      exact ⟨rfl, rfl⟩
    | some m =>
      obtain ⟨hcommit, hafter⟩ := call_of_mutation hm session now
      rw [hcommit, hafter]
      exact (mutate_cases hr.keyed m.1 m.2 session now).told hr.keyed

/-- A record after a commit is one that was written, or is as it was. -/
theorem Dated.find_cases {r r' : Repository σ} {now : Instant} {c : Commit} (h : Dated r now c r') {x : Iri}
    {record : Record} (hx : find r'.store x = some record) :
    (∃ y ∈ c.resources, y.id = x ∧ (record = .live y ∨
        y = c.resource ∧ c.kind = .deleted ∧ record = ⟨y, some y.modified⟩)) ∨
      x ∉ c.resources.map Resource.id ∧ find r.store x = some record := by
  by_cases hin : x ∈ c.resources.map Resource.id
  · obtain ⟨y, hy, rfl⟩ := List.mem_map.mp hin
    refine .inl ⟨y, hy, rfl, ?_⟩
    rcases List.mem_cons.mp hy with rfl | hy
    · have ht := h.target
      rw [record_eq, hx, Except.ok.injEq, Option.some.injEq] at ht
      by_cases hk : c.kind = .deleted
      · rw [if_pos hk] at ht
        exact .inr ⟨rfl, hk, ht⟩
      · rw [if_neg hk] at ht
        exact .inl ht
    · have ht := h.touched y hy
      rw [record_eq, hx, Except.ok.injEq, Option.some.injEq] at ht
      exact .inl ht
  · have ho := h.others x hin
    rw [record_eq, record_eq, hx, Except.ok.injEq] at ho
    exact .inr ⟨hin, ho.symm⟩

/-- What a commit wrote is there. -/
theorem Dated.written {r r' : Repository σ} {now : Instant} {c : Commit} (h : Dated r now c r') {y : Resource}
    (hy : y ∈ c.resources) : ∃ record, find r'.store y.id = some record ∧ record.resource = y := by
  rcases List.mem_cons.mp hy with rfl | hy
  · exact ⟨_, Except.ok.inj ((record_eq _ _).symm.trans h.target), rfl⟩
  · exact ⟨_, Except.ok.inj ((record_eq _ _).symm.trans (h.touched y hy)), rfl⟩

/-- No commit takes a record, or takes one back to an earlier time. -/
theorem Dated.reaches {r r' : Repository σ} {now : Instant} {c : Commit} (h : Dated r now c r') {x : Iri}
    {old : Record} (hold : find r.store x = some old) :
    ∃ record, find r'.store x = some record ∧ old.resource.modified ≤ record.resource.modified := by
  by_cases hin : x ∈ c.resources.map Resource.id
  · obtain ⟨y, hy, rfl⟩ := List.mem_map.mp hin
    obtain ⟨record, hrecord, rfl⟩ := h.written hy
    exact ⟨record, hrecord, Instant.le_of_lt (h.later _ hy old (by rw [record_eq, hold]))⟩
  · have hother := h.others x hin
    rw [record_eq, record_eq, hold, Except.ok.injEq] at hother
    exact ⟨old, hother, Instant.le_refl _⟩

theorem Told.sound {r r' : Repository σ} {now : Instant} {c : Option Commit} (h : Told r now c r') (hr : Sound r) :
    Sound r' := by
  obtain ⟨hroot, h⟩ := h
  cases c with
  | none =>
    refine ⟨?_, ?_, ?_⟩
    · rw [h]
      exact hr.keyed
    · rw [h]
      exact hr.buried
    · rw [h, hroot]
      exact hr.rooted
  | some c =>
    have h : Dated r now c r' := h
    refine ⟨fun x record hx => ?_, fun {x record} hx => ?_, fun {record} hx => ?_⟩
    · rcases h.find_cases hx with ⟨y, -, hid, rfl | ⟨-, -, rfl⟩⟩ | ⟨-, hold⟩
      · exact hid
      · exact hid
      · exact hr.keyed x record hold
    · rcases h.find_cases hx with ⟨y, -, -, rfl | ⟨-, -, rfl⟩⟩ | ⟨-, hold⟩
      · exact .inl rfl
      · exact .inr rfl
      · exact hr.buried hold
    · rw [hroot] at hx
      rcases h.find_cases hx with ⟨y, -, hid, rfl | ⟨rfl, hk, -⟩⟩ | ⟨-, hold⟩
      · rfl
      · exact absurd hid (h.kept hk)
      · exact hr.rooted hold

/-! ## Runs -/

theorem Sound.of_empty {r : Repository σ} (h : ∀ id, find r.store id = none) : Sound r where
  keyed x record hx := by simp [h] at hx
  buried hx := by simp [h] at hx
  rooted hx := by simp [h] at hx

theorem sound_open (root : Iri) {s : σ} (h : ∀ id, find s id = none) (process : UInt32) (opened : Instant) :
    Sound (Repository.open root s process opened) := .of_empty h

theorem Sound.after {r : Repository σ} (h : Sound r) (calls : List (Call × Session × Instant)) :
    Sound (r.after calls) := by
  induction calls generalizing r with
  | nil => exact h
  | cons c calls ih =>
    obtain ⟨c, session, now⟩ := c
    exact ih ((call_told h session now c).sound h)

theorem timesOf_append (x : Iri) (cs ds : List Commit) : timesOf x (cs ++ ds) = timesOf x cs ++ timesOf x ds := by
  simp only [timesOf, List.flatMap_append, List.filter_append, List.map_append]

theorem mem_timesOf_singleton {x : Iri} {c : Commit} {t : Instant} :
    t ∈ timesOf x [c] ↔ ∃ y ∈ c.resources, y.id = x ∧ y.modified = t := by
  simp only [timesOf, List.flatMap_singleton, List.mem_map, List.mem_filter, decide_eq_true_eq, and_assoc]

omit [KeyedStore σ] in
/-- One commit writes an identifier once. -/
theorem Dated.pairwise_timesOf {r r' : Repository σ} {now : Instant} {c : Commit} (h : Dated r now c r') (x : Iri) :
    (timesOf x [c]).Pairwise (· < ·) := by
  have hn : c.resources.Pairwise (·.id ≠ ·.id) := List.pairwise_map.mp h.once
  rw [timesOf, List.flatMap_singleton, List.pairwise_map]
  refine (hn.filter _).imp_of_mem fun {y z} hy hz hne => ?_
  have hyx : y.id = x := by simpa using (List.mem_filter.mp hy).2
  have hzx : z.id = x := by simpa using (List.mem_filter.mp hz).2
  exact absurd (hyx.trans hzx.symm) hne

/-- The times of an identifier ascend, from the one that it has. -/
theorem Sound.times {r : Repository σ} (h : Sound r) (calls : List (Call × Session × Instant)) (x : Iri) :
    (timesOf x (r.commits calls)).Pairwise (· < ·) ∧
      ∀ t ∈ timesOf x (r.commits calls), ∀ old, find r.store x = some old → old.resource.modified < t := by
  induction calls generalizing r with
  | nil => exact ⟨.nil, fun t ht => by cases ht⟩
  | cons c calls ih =>
    obtain ⟨c, session, now⟩ := c
    have htold := call_told h session now c
    obtain ⟨hlater, habove⟩ := ih (htold.sound h)
    rw [show r.commits ((c, session, now) :: calls) =
      (r.commit? session now c).toList ++ (r.call session now c).2.commits calls from rfl, timesOf_append]
    cases hc : r.commit? session now c with
    | none =>
      have hs : (r.call session now c).2.store = r.store := by
        have ht := htold.2
        rwa [hc] at ht
      rw [hs] at habove
      exact ⟨hlater, habove⟩
    | some commit =>
      have hd : Dated r now commit (r.call session now c).2 := by
        have ht := htold.2
        rwa [hc] at ht
      refine ⟨List.pairwise_append.mpr ⟨hd.pairwise_timesOf x, hlater, fun t ht u hu => ?_⟩,
        fun t ht old hold => ?_⟩
      · obtain ⟨y, hy, rfl, rfl⟩ := mem_timesOf_singleton.mp ht
        obtain ⟨record, hrecord, rfl⟩ := hd.written hy
        exact habove u hu record hrecord
      · rcases List.mem_append.mp ht with ht | ht
        · obtain ⟨y, hy, rfl, rfl⟩ := mem_timesOf_singleton.mp ht
          exact hd.later y hy old ((record_eq _ _).trans (congrArg Except.ok hold))
        · by_cases hin : x ∈ commit.resources.map Resource.id
          · obtain ⟨y, hy, rfl⟩ := List.mem_map.mp hin
            obtain ⟨record, hrecord, rfl⟩ := hd.written hy
            have hnow := hd.later _ hy old ((record_eq _ _).trans (congrArg Except.ok hold))
            exact Instant.lt_trans hnow (habove t ht record hrecord)
          · have ho := hd.others x hin
            rw [record_eq, record_eq, hold, Except.ok.injEq] at ho
            exact habove t ht old ho

/-- After any operations from an empty store, whatever the clock showed at each: the next one dates
    what it commits, or commits nothing and leaves every record as it is; a record is a tombstone just
    if it has a time of deletion, which is then the time of its state; and the states committed so
    far under one identifier have ascending times. -/
theorem times_ascend (root : Iri) {s : σ} (h : ∀ id, find s id = none) (process : UInt32) (opened : Instant)
    (past : List (Call × Session × Instant)) (c : Call) (session : Session) (now : Instant) :
    Told ((Repository.open root s process opened).after past) now
        (((Repository.open root s process opened).after past).commit? session now c)
        (((Repository.open root s process opened).after past).call session now c).2 ∧
      (∀ x record, ((Repository.open root s process opened).after past).record x = .ok (some record) →
        (record.tombstonedAt = none ∧
          ((Repository.open root s process opened).after past).get x = .ok (some record.resource)) ∨
          (record.tombstonedAt = some record.resource.modified ∧
            ((Repository.open root s process opened).after past).get x = .ok none)) ∧
      ∀ x, (timesOf x ((Repository.open root s process opened).commits past)).Pairwise (· < ·) := by
  have hopen := sound_open root h process opened
  have hsound := hopen.after past
  generalize (Repository.open root s process opened).after past = r at hsound
  refine ⟨call_told hsound session now c, fun x record hx => ?_, fun x => (hopen.times past x).1⟩
  rw [record_eq, Except.ok.injEq] at hx
  rw [get_eq_findLive, findLive, hx]
  rcases hsound.buried hx with ht | ht
  · exact .inl ⟨ht, by simp [Record.live?, Record.isLive, ht]⟩
  · exact .inr ⟨ht, by simp [Record.live?, Record.isLive, ht]⟩

/-- A resource is created, deleted by a clock that went back, and created again in a leap second. -/
def unsteady : List (Call × Session × Instant) :=
  [(.makeRoot, .administrator ⟨9, 0⟩, ⟨9, 0⟩),
   (.create ⟨"trellis:data/a"⟩ .rdfSource .empty, .anonymous ⟨9, 0⟩, ⟨9, 0⟩),
   (.delete ⟨"trellis:data/a"⟩, .anonymous ⟨3, 0⟩, ⟨3, 0⟩),
   (.create ⟨"trellis:data/a"⟩ .rdfSource .empty, .anonymous ⟨59, 1999999999⟩, ⟨59, 1999999999⟩)]

/-- It is replaced before the leap second is over, and its time is the second after it. -/
theorem unsteady_times_ascend :
    (∀ id, find Table.empty id = none) ∧
      timesOf ⟨"trellis:data/a"⟩ ((Repository.open ⟨"trellis:data/"⟩ Table.empty 0 ⟨0, 0⟩).commits unsteady) =
        [⟨9, 0⟩, ⟨9, 1⟩, ⟨59, 1999999999⟩] ∧
      ∃ c r', ((Repository.open ⟨"trellis:data/"⟩ Table.empty 0 ⟨0, 0⟩).after unsteady).commit?
          (.anonymous ⟨59, 0⟩) ⟨59, 0⟩ (.replace ⟨"trellis:data/a"⟩ .empty) = some c ∧ c.resource.modified = ⟨60, 0⟩ ∧
        Dated ((Repository.open ⟨"trellis:data/"⟩ Table.empty 0 ⟨0, 0⟩).after unsteady) ⟨59, 0⟩ c r' ∧
        ⟨.blank ⟨4, 0⟩, Prov.atTime, .literal (.typed "1970-01-01T00:01:00.000000000Z" Xsd.dateTime)⟩ ∈
          c.resource.auditGraph := by
  have hempty : ∀ id, find Table.empty id = none := Table.get?_empty
  refine ⟨hempty, by decide +kernel, ?_⟩
  have hview : (((Repository.open ⟨"trellis:data/"⟩ Table.empty 0 ⟨0, 0⟩).after unsteady).commit?
      (.anonymous ⟨59, 0⟩) ⟨59, 0⟩ (.replace ⟨"trellis:data/a"⟩ .empty)).map (·.resource.modified) =
        some ⟨60, 0⟩ := by
    decide +kernel
  have hscope : ((Repository.open ⟨"trellis:data/"⟩ Table.empty 0 ⟨0, 0⟩).after unsteady).scopes.next = 4 := by
    decide +kernel
  have htext : Instant.write .full ⟨60, 0⟩ = "1970-01-01T00:01:00.000000000Z" := by decide +kernel
  obtain ⟨c, hc, hm⟩ := Option.map_eq_some_iff.mp hview
  have htold : Told _ _ _ _ := And.left (times_ascend ⟨"trellis:data/"⟩ hempty 0 ⟨0, 0⟩ unsteady
    (.replace ⟨"trellis:data/a"⟩ .empty) (.anonymous ⟨59, 0⟩) ⟨59, 0⟩)
  rw [hc] at htold
  have hdated : Dated _ _ _ _ := And.right htold
  have hstamped := hdated.stamped.2
  rw [hscope, hm, htext] at hstamped
  exact ⟨c, _, hc, hm, hdated, hstamped⟩

end Repository

end LinkedData
