/-
  LinkedData.Proofs.Frame — what a mutation does to others.

  A mutation of `id` is written to its parent and to those who keep member triples, and they may be
  one another, or the target. `Concerned` are the only ones besides the target whose records may be
  others afterwards, and the triples that come or go in their server graphs are `Due` to the
  operation; everything else of them is left alone (`Kept`), and so is every tombstone. All of it
  follows from the edits of the outcome: each is about a triple that is due (`due_of_comes`), and
  nobody is written who is not the target or the holder of an edit (`holder_of_run`).
-/

import LinkedData.Proofs.Coverage
import LinkedData.Proofs.Supply

namespace LinkedData

open Std SteadyStore

/-! ## What an operation concerns -/

/-- `m` is the membership that `op` takes from `id`, or the one that it gives to it instead. -/
structure Exchanged (before after : Iri → Option Record) (id : Iri) (op : Operation) (m : Membership) : Prop where
  replaced : op.kind = .updated
  changed : membershipIn before id ≠ membershipIn after id
  side : membershipIn before id = some m ∨ membershipIn after id = some m

/-- `x` is `y` before or after. -/
def Seen (before after : Iri → Option Record) (x : Iri) (y : Resource) : Prop :=
  liveIn before x = some y ∨ liveIn after x = some y

/-- The triples that come or go when `op` is carried out on `id`, a child of `p`. -/
inductive Due (before after : Iri → Option Record) (p id : Iri) (op : Operation) : MemberTriple → Prop
  | listing : Due before after p id op ⟨p, Resource.containment p id⟩
  | ofTarget {m : Membership} {y : Resource} {q : MemberTriple} (hm : membershipIn before p = some m)
      (hy : Seen before after id y) (hq : q ∈ m.triples y) : Due before after p id op q
  | ofChild {m : Membership} {c y : Resource} {x : Iri} {q : MemberTriple} (hm : Exchanged before after id op m)
      (hc : liveIn before id = some c) (hx : x ∈ c.children) (hy : Seen before after x y) (hq : q ∈ m.triples y) :
      Due before after p id op q

/-- Who may be written besides `id`. -/
inductive Concerned (before after : Iri → Option Record) (p id : Iri) (op : Operation) : Iri → Prop
  | parent : Concerned before after p id op p
  | holder {m : Membership} (hm : membershipIn before p = some m) : Concerned before after p id op m.target
  | ownHolder {m : Membership} (hm : Exchanged before after id op m) : Concerned before after p id op m.target
  | child {m : Membership} {c : Resource} {x : Iri} (hm : Exchanged before after id op m)
      (hr : ∃ k, m.relation = .isMemberOf k) (hc : liveIn before id = some c) (hx : x ∈ c.children) :
      Concerned before after p id op x

/-- All that `new` has of `old`: everything but triples of the server's graph that are in `changed`. -/
structure Kept (changed : Triple → Prop) (old new : Resource) : Prop where
  id : new.id = old.id
  model : new.model = old.model
  binary : new.binary = old.binary
  graphs : ∀ n : GraphName, n ≠ .server → new.dataset.graphs[n]? = old.dataset.graphs[n]?
  server : ∀ t, ¬ changed t → (t ∈ new.serverGraph ↔ t ∈ old.serverGraph)

/-- Whatever record besides that of `id` is another one afterwards, it is that of a live resource which was
    concerned, and only what was due has changed in it. -/
def Framed (before after : Iri → Option Record) (p id : Iri) (op : Operation) : Prop :=
  ∀ x, x ≠ id → after x = before x ∨ Concerned before after p id op x ∧ ∃ old new,
    before x = some (.live old) ∧ after x = some (.live new) ∧
      Kept (fun t => Due before after p id op ⟨x, t⟩) old new

theorem Kept.congr {changed : Triple → Prop} {old new new' : Resource} (h : Kept changed old new)
    (hid : new.id = new'.id) (hm : new.model = new'.model) (hb : new.binary = new'.binary)
    (hd : new.dataset = new'.dataset) :
    Kept changed old new' where
  id := hid.symm.trans h.id
  model := hm.symm.trans h.model
  binary := hb.symm.trans h.binary
  graphs n hn := by
    rw [← hd]
    exact h.graphs n hn
  server t ht := by
    rw [Resource.serverGraph, ← hd]
    exact h.server t ht

/-! ## Edits -/

theorem Edit.graphs_on (e : Edit) (r : Resource) {n : GraphName} (h : n ≠ .server) :
    (e.on r).dataset.graphs[n]? = r.dataset.graphs[n]? := by
  cases e <;> simp [on, Resource.updateServer, Dataset.update, ExtTreeMap.getElem?_insert,
    LawfulEqCmp.compare_eq_iff_eq, Ne.symm h]

theorem Resource.graphs_edited (r : Resource) (es : List Edit) {n : GraphName} (h : n ≠ .server) :
    (r.edited es).dataset.graphs[n]? = r.dataset.graphs[n]? := by
  induction es generalizing r with
  | nil => rfl
  | cons e es ih =>
    rw [Resource.edited_cons, ih]
    split
    · exact e.graphs_on r h
    · rfl

/-- Edits keep all but what they are about. -/
theorem Resource.kept_edited (r : Resource) {es : List Edit} {changed : Triple → Prop}
    (h : ∀ e ∈ es, ∀ t, e.member = ⟨r.id, t⟩ → changed t) : Kept changed r (r.edited es) where
  id := r.id_edited es
  model := r.model_edited es
  binary := r.binary_edited es
  graphs _ hn := r.graphs_edited es hn
  server t ht := Resource.mem_serverGraph_edited_of_not_mem fun e he hmem => ht (h e he t hmem)

theorem Record.eq_live {r : Record} (h : r.isLive = true) : r = .live r.resource := by
  obtain ⟨x, none | t⟩ := r
  · rfl
  · cases h

theorem SelfKeyed.id_of_liveIn {σ : Type} [RecordStore σ] [SteadyStore σ] {s : σ} (h : SelfKeyed s) (x : Iri)
    (y : Resource) (hy : liveIn (find s) x = some y) : y.id = x := by
  obtain ⟨r, hr, hl⟩ := Option.bind_eq_some_iff.mp hy
  obtain ⟨-, rfl⟩ := Record.live?_eq_some.mp hl
  exact h x r hr

/-! ## What is due -/

section

variable {before after : Iri → Option Record} {p id : Iri} {op : Operation}

/-- The holder of a triple that is due is the target, or is concerned. -/
theorem Due.concerned (hb : ∀ x y, liveIn before x = some y → y.id = x)
    (ha : ∀ x y, liveIn after x = some y → y.id = x) {q : MemberTriple} (h : Due before after p id op q) :
    q.holder = id ∨ Concerned before after p id op q.holder := by
  have hseen : ∀ {x y}, Seen before after x y → y.id = x := fun hy => hy.elim (hb _ _) (ha _ _)
  cases h with
  | listing => exact .inr .parent
  | ofTarget hm hy hq =>
    rcases Membership.holder_cases hq with hh | ⟨-, hh⟩
    · exact .inr (hh ▸ .holder hm)
    · exact .inl (hh.trans (hseen hy))
  | ofChild hm hc hx hy hq =>
    rcases Membership.holder_cases hq with hh | ⟨hr, hh⟩
    · exact .inr (hh ▸ .ownHolder hm)
    · exact .inr (hh.trans (hseen hy) ▸ .child hm hr hc hx)

/-- Times do not matter to what is due. -/
theorem Due.of_akin {after' : Iri → Option Record} (h : Akin after after') {q : MemberTriple}
    (hq : Due before after p id op q) : Due before after' p id op q := by
  have hseen : ∀ {m : Membership} {x y}, Seen before after x y → q ∈ m.triples y →
      ∃ y', Seen before after' x y' ∧ q ∈ m.triples y' := by
    intro m x y hy hq
    rcases hy with hy | hy
    · exact ⟨y, .inl hy, hq⟩
    · obtain ⟨y', hy', hid, -, hdat⟩ := h.symm.of_liveIn hy
      exact ⟨y', .inr hy', by rwa [m.triples_congr hid (by rw [Resource.userGraph, hdat]; rfl)]⟩
  cases hq with
  | listing => exact .listing
  | ofTarget hm hy hq =>
    obtain ⟨y', hy', hq'⟩ := hseen hy hq
    exact .ofTarget hm hy' hq'
  | ofChild hm hc hx hy hq =>
    obtain ⟨y', hy', hq'⟩ := hseen hy hq
    refine .ofChild ⟨hm.replaced, ?_, ?_⟩ hc hx hy' hq'
    · rw [h.membershipIn_eq]
      exact hm.changed
    · rw [h.membershipIn_eq]
      exact hm.side

theorem membershipIn_of_above {see : Iri → Option Record} {look : Iri → Option Resource}
    (hlook : look p = liveIn see p) {c : Resource} {m : Membership} (h : Upkeep.above look p = some (c, m)) :
    membershipIn see p = some m := by
  obtain ⟨hc, hm⟩ := Upkeep.above_eq_some.mp h
  exact membershipIn_eq_some.mpr ⟨c, hlook ▸ hc, hm⟩

end

/-! ## The edits of an outcome -/

namespace Mutation

variable {before : Iri → Option Record} {p id agent : Iri} {time : Instant} {b : BlankNode} {op : Operation}
  {o : Outcome}

/-- The target contributes as what it is made. -/
theorem exists_seen_target {x : Resource} (ht : o.target = .live x) {m : Membership} {q : MemberTriple}
    (hq : q ∈ m.triples x) : ∃ y, Seen before (o.applyTo id before) id y ∧ q ∈ m.triples y := by
  refine ⟨x.edited o.edits, .inr ?_, by rwa [m.triples_edited]⟩
  rw [Outcome.liveIn_applyTo_self, ht]
  rfl

theorem due_of_target {x : Resource} (ht : o.target = .live x) {m : Membership} (hm : membershipIn before p = some m)
    {q : MemberTriple} (hq : q ∈ m.triples x) : Due before (o.applyTo id before) p id op q := by
  obtain ⟨y, hy, hq⟩ := exists_seen_target ht hq
  exact .ofTarget hm hy hq

theorem due_of_rejoin (hne : p ≠ id) {current x : Resource} (hid : liveIn before id = some current)
    (ht : o.target = .live x) {e : Edit}
    (he : e ∈ (Upkeep.rejoin (renewed (liveIn before) id x) p id current x).edits) :
    Due before (o.applyTo id before) p id op e.member := by
  have hparent : renewed (liveIn before) id x p = liveIn before p := if_neg (Ne.symm hne)
  obtain ⟨ds, as, hes, hds, has⟩ := Upkeep.rejoin_edits (renewed (liveIn before) id x) p id current x
  rw [hes, List.mem_append, List.mem_map, List.mem_map] at he
  rcases he with ⟨q, hq, rfl⟩ | ⟨q, hq, rfl⟩
  · obtain ⟨c, m, ha, -, hq, -⟩ := (hds q).mp hq
    exact .ofTarget (membershipIn_of_above hparent ha) (.inl hid) hq
  · obtain ⟨c, m, ha, -, hq⟩ := (has q).mp hq
    exact due_of_target ht (membershipIn_of_above hparent ha) hq

theorem due_of_reconfigure (hop : op.kind = .updated) {current x : Resource} (hid : liveIn before id = some current)
    (ht : o.target = .live x) {e : Edit}
    (he : e ∈ (Upkeep.reconfigure (renewed (liveIn before) id x) current x).edits) :
    Due before (o.applyTo id before) p id op e.member := by
  have hold : membershipIn before id = Membership.ofContainer? current := by rw [membershipIn, hid]; rfl
  have hnew : membershipIn (o.applyTo id before) id = Membership.ofContainer? x := by
    rw [membershipIn_applyTo_self, ht]
    rfl
  have hchild : ∀ {m : Membership} {q}, Exchanged before (o.applyTo id before) id op m →
      Supplied (renewed (liveIn before) id x) m current.children q → Due before (o.applyTo id before) p id op q := by
    intro m q hm hq
    obtain ⟨y, hy, c, hc, hq⟩ := hq
    unfold renewed at hc
    by_cases hyid : id = y
    · rw [if_pos hyid] at hc
      cases hc
      obtain ⟨c, hc, hq⟩ := exists_seen_target ht hq
      exact .ofChild hm hid hy (hyid ▸ hc) hq
    · rw [if_neg hyid] at hc
      exact .ofChild hm hid hy (.inl hc) hq
  obtain ⟨ds, as, hes, hds, has⟩ := Upkeep.reconfigure_edits (renewed (liveIn before) id x) current x
  rw [hes, List.mem_append, List.mem_map, List.mem_map] at he
  rcases he with ⟨q, hq, rfl⟩ | ⟨q, hq, rfl⟩
  · obtain ⟨hd, m, hm, hq⟩ := (hds q).mp hq
    exact hchild ⟨hop, by rwa [hold, hnew], .inl (hold.trans hm)⟩ hq
  · obtain ⟨hd, m, hm, hq⟩ := (has q).mp hq
    exact hchild ⟨hop, by rwa [hold, hnew], .inr (hnew.trans hm)⟩ hq

/-- An edit of an outcome is about a triple that is due. -/
theorem due_of_comes (hne : p ≠ id) (h : Comes before p id agent time b op o) {e : Edit} (he : e ∈ o.edits) :
    Due before (o.applyTo id before) p id op e.member := by
  cases h with
  | @create model userGraph binary container x hid hp hc hx =>
    obtain ⟨as, has, hmem⟩ := Upkeep.join_edits p container id x
    dsimp only at he
    rw [has] at he
    obtain ⟨q, hq, rfl⟩ := List.mem_map.mp he
    rcases (hmem q).mp hq with rfl | ⟨m, hm, hq⟩
    · exact .listing
    · exact due_of_target rfl (membershipIn_eq_some.mpr ⟨container, hp, hm⟩) hq
  | @replace userGraph expected current x hid hm hx =>
    rcases List.mem_append.mp he with he | he
    · exact due_of_rejoin hne hid rfl he
    · exact due_of_reconfigure rfl hid rfl he
  | @delete current x es hid hes hx =>
    obtain ⟨ds, hds, hmem⟩ := Upkeep.leave_edits (liveIn before) p id current
    dsimp only at he
    rw [← hes, hds] at he
    obtain ⟨q, hq, rfl⟩ := List.mem_map.mp he
    rcases (hmem q).mp hq with rfl | ⟨c, m, ha, hq, -⟩
    · exact .listing
    · exact .ofTarget (membershipIn_of_above rfl ha) (.inl hid) hq

end Mutation

/-! ## Who is written -/

namespace Mutation

open Transaction

variable {σ : Type} [RecordStore σ] [SteadyStore σ] {tx : Transaction σ} {root id p agent : Iri} {op : Operation}
  {o : Outcome}

/-- What is reported as written was staged: it is the target, or holds an edit. -/
theorem holder_of_run (ht : tx.Tidy) (hnew : ∀ x, x ∉ tx.staged) (hp : Identifier.parent? root id = .ok (some p))
    (ho : outcomeFrom tx p id agent op = .ok o) {guard : Guard} {c : Commit}
    (h : (eval (run root id op agent guard) tx).1 = .ok c) {y : Resource} (hy : y ∈ c.resources) :
    y.id = id ∨ ∃ e ∈ o.edits, e.holder = y.id := by
  have happly := eval_apply ht hp agent op
  rw [ho] at happly
  obtain ⟨tx', he, hcame, honly⟩ := happly
  unfold run at h
  rw [eval_bind_ok he] at h
  rcases eval_checkCovered_cases guard tx' with hg | ⟨e, hg⟩
  · rw [eval_bind_ok hg, eval_conclude] at h
    obtain ⟨-, -, -, -, hmem⟩ := resources_of_conclusion hcame.tidy h
    obtain ⟨rec, hb, rfl⟩ := List.mem_map.mp ((hmem y).mp hy)
    obtain ⟨x, s, hs, rfl⟩ := mem_batch.mp hb
    have hid : s.id = x := hcame.tidy.id_staged hs
    have hstaged : x ∈ tx'.staged := ExtTreeMap.mem_iff_isSome_getElem?.mpr (by rw [hs]; rfl)
    rw [show (stamp (tx'.due x) s).resource.id = x from hid]
    exact (honly x hstaged).resolve_left (hnew x)
  · rw [eval_bind_error hg] at h
    cases h

end Mutation

namespace Repository

open Transaction Mutation

variable {σ : Type} [RecordStore σ]

/-- Whoever is touched holds an edit of the outcome. -/
theorem touched_holds [SteadyStore σ] {r : Repository σ} (hk : SelfKeyed r.store) {id p : Iri} {op : Operation}
    {session : Session} {now : Instant} {o : Outcome} (hp : Identifier.parent? r.root id = .ok (some p))
    (ho : outcomeFrom (begin r.store r.scopes now) p id session.agent op = .ok o) {c : Commit}
    (h : (r.mutate id op session now).1 = .ok c) :
    ∀ y ∈ c.touched, y.id = id ∨ ∃ e ∈ o.edits, e.holder = y.id := by
  intro y hy
  unfold mutate at h
  cases hr : r.refusal? id with
  | some e => rw [hr] at h; cases h
  | none =>
    rw [hr, affected_eq r hp op] at h
    exact holder_of_run (tidy_begin hk r.scopes now) (by simp [begin]) hp ho h (List.mem_cons_of_mem _ hy)

theorem framed_mutate [KeyedStore σ] {r : Repository σ} (hk : SelfKeyed r.store) {id : Iri} {op : Operation}
    {session : Session} {now : Instant} {c : Commit} (h : (r.mutate id op session now).1 = .ok c) :
    ∃ p, Identifier.parent? r.root id = .ok (some p) ∧
      Framed (find r.store) (find (r.mutate id op session now).2.store) p id op := by
  have hcases := mutate_cases hk id op session now
  have hholds := fun {p o} hp ho => touched_holds (p := p) (o := o) hk hp ho h
  generalize r.mutate id op session now = out at h hcases hholds
  cases hcases with
  | refused _ => cases h
  | failed _ _ _ _ _ => cases h
  | @done p o c' r' _ hp ho hc hw ha =>
    cases h
    refine ⟨p, hp, fun x hx => ?_⟩
    dsimp only
    by_cases hin : x ∈ c.resources.map Resource.id
    · right
      obtain ⟨new, hmem, rfl⟩ := List.mem_map.mp hin
      have htouched : new ∈ c.touched :=
        (List.mem_cons.mp hmem).resolve_left fun he => hx (by rw [he]; exact hw.resource)
      have hnew := hw.touched new htouched
      have hcomes := comes_of_outcome ho
      rw [look_begin] at hcomes
      have hdue : ∀ e ∈ o.edits, Due (find r.store) (find r'.store) p id op e.member := fun e he =>
        (due_of_comes (Identifier.parent?_ne hp) hcomes he).of_akin ha.content
      refine ⟨?_, ?_⟩
      · obtain ⟨e, he, hholder⟩ := (hholds hp ho new htouched).resolve_left hx
        have hconcerned := ((hdue e he).concerned hk.id_of_liveIn ha.selfKeyed.id_of_liveIn).resolve_left fun hid =>
          hx (hholder.symm.trans hid)
        rwa [show e.member.holder = new.id from hholder] at hconcerned
      · obtain ⟨edited, hedited, hcon⟩ := ha.content.eq_some hnew
        rw [Outcome.applyTo_of_ne o _ (Ne.symm hx)] at hedited
        obtain ⟨old, hold, rfl⟩ := Option.map_eq_some_iff.mp hedited
        have hid : old.id = new.id := hk _ _ hold
        have hlive : old.isLive = true := by
          rw [← Record.isLive_edited old o.edits]
          exact (Record.content_eq_iff.mp hcon).1
        rw [Record.eq_live hlive] at hcon hold
        obtain ⟨-, hi, hm, hd, hb⟩ := Record.content_eq_iff.mp hcon
        have hkept : Kept (fun t => Due (find r.store) (find r'.store) p id op ⟨new.id, t⟩) old.resource
            (old.resource.edited o.edits) := by
          refine old.resource.kept_edited fun e he t hmem => ?_
          rw [← hid]
          exact hmem ▸ hdue e he
        exact ⟨old.resource, new, hold, hnew, hkept.congr hi hm hb hd⟩
    · exact .inl (hw.others x hin)

/-- A mutation that was committed leaves the records of others alone, but for those of live resources that it
    concerns, and in these it leaves everything alone but the triples that are due to it. -/
theorem mutation_framed [HonestStore σ] {r : Repository σ} (hk : ∀ x y, held r.store x = some y → y.id = x)
    {id : Iri} {op : Operation} {session : Session} {now : Instant} {c : Commit}
    (h : (r.mutate id op session now).1 = .ok c) :
    ∃ p, Identifier.parent? r.root id = .ok (some p) ∧
      Framed (held r.store) (held (r.mutate id op session now).2.store) p id op := by
  rcases mirrors_mutate (r := r) id op session now with ⟨f, hf⟩ | ⟨hanswer, hshadow⟩
  · rw [hf] at h
    cases h
  · have hframed := framed_mutate (r := r.shadow) hk (hanswer.symm.trans h)
    rw [← hshadow] at hframed
    exact hframed

/-- When the relation of the band is turned round, that concerns its members and what they play in. -/
theorem band_framed :
    (∀ x y, held band.store x = some y → y.id = x) ∧
      ∃ c, (band.mutate ⟨"trellis:data/d"⟩ turn (.anonymous ⟨6, 0⟩) ⟨6, 0⟩).1 = .ok c ∧
        c.touched.map (·.id.text) = ["trellis:data/d/x", "trellis:data/d/y", "trellis:data/m"] ∧
        Framed (held band.store) (held (band.mutate ⟨"trellis:data/d"⟩ turn (.anonymous ⟨6, 0⟩) ⟨6, 0⟩).2.store)
          ⟨"trellis:data/"⟩ ⟨"trellis:data/d"⟩ turn := by
  have hk : ∀ x y, held band.store x = some y → y.id = x :=
    ((sound_open _ Table.get?_empty _ _).after forming).keyed
  have hview : ((band.mutate ⟨"trellis:data/d"⟩ turn (.anonymous ⟨6, 0⟩) ⟨6, 0⟩).1.toOption.map fun c =>
      c.touched.map (·.id.text)) = some ["trellis:data/d/x", "trellis:data/d/y", "trellis:data/m"] := by
    decide +kernel
  have hparent : Identifier.parent? band.root ⟨"trellis:data/d"⟩ = .ok (some ⟨"trellis:data/"⟩) := by decide +kernel
  obtain ⟨c, hc, htouched⟩ := Option.map_eq_some_iff.mp hview
  have hok : (band.mutate ⟨"trellis:data/d"⟩ turn (.anonymous ⟨6, 0⟩) ⟨6, 0⟩).1 = .ok c := by
    generalize (band.mutate ⟨"trellis:data/d"⟩ turn (.anonymous ⟨6, 0⟩) ⟨6, 0⟩).1 = answer at hc
    cases answer with
    | error e => cases hc
    | ok c' => exact congrArg Except.ok (Option.some.inj hc)
  obtain ⟨p, hp, hframed⟩ := mutation_framed hk hok
  cases hparent.symm.trans hp
  exact ⟨hk, c, hok, htouched, hframed⟩

end Repository

end LinkedData
