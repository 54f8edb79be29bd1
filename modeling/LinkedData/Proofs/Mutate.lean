/-
  LinkedData.Proofs.Mutate — mutations of a repository, by how they end.

  On a keyed store whose records are under their own identifiers a mutation is refused before
  anything is read, or fails and leaves every record as it was, or succeeds and leaves what
  its outcome says, times apart (`mutate_cases`). The root container is made when it is not
  live, and otherwise nothing happens (`createRoot_cases`).
-/

import LinkedData.Proofs.Outcome
import LinkedData.Proofs.Plan

namespace LinkedData

open Std SteadyStore

namespace Transaction

variable {σ : Type} [RecordStore σ] [SteadyStore σ]

theorem look_begin (s : σ) (scopes : ScopeSource) (now : Instant) : (begin s scopes now).look = find s := by
  funext x
  simp [look, begin]

theorem lookLive_begin (s : σ) (scopes : ScopeSource) (now : Instant) :
    (begin s scopes now).lookLive = findLive s := by
  rw [lookLive_eq_liveIn, look_begin]
  rfl

theorem tidy_begin {s : σ} (h : SelfKeyed s) (scopes : ScopeSource) (now : Instant) : (begin s scopes now).Tidy := by
  intro id r hr
  rw [look_begin] at hr
  exact h id r hr

theorem linked_begin {τ : Type} [RecordStore τ] [SteadyStore τ] {G : Iri → Prop} {s : σ} {t : τ}
    (h : SelfKeyed s) (ha : ∀ x, G x → find s x = find t x) (scopes : ScopeSource) (now : Instant) :
    Linked G (begin s scopes now) (begin t scopes now) where
  now := rfl
  scopes := rfl
  reads := rfl
  staged := rfl
  readsIn x hx := by simp [begin] at hx
  stagedIn x hx := by simp [begin] at hx
  agree := ha
  tidy := tidy_begin h scopes now

/-- A commit of a tidy transaction keeps records under their own identifiers. -/
theorem CameTo.selfKeyed_committed {σ : Type} [RecordStore σ] [KeyedStore σ] {id : Iri} {o : Outcome}
    {tx tx' : Transaction σ} (h : CameTo id o tx tx') : SelfKeyed tx'.committed.store := by
  intro x r hr
  have hc := content_committed h.tidy x
  rw [hr, Option.map_some, eq_comm, Option.map_eq_some_iff] at hc
  obtain ⟨r', hr', hcon⟩ := hc
  rw [← Record.id_content, ← hcon, Record.id_content]
  exact h.tidy x r' hr'

end Transaction

namespace Mutation

open Transaction

variable {σ : Type} [RecordStore σ] [SteadyStore σ] {root id p agent : Iri} {op : Operation}

theorem eval_run_of_error {tx : Transaction σ} (ht : tx.Tidy) (hp : Identifier.parent? root id = .ok (some p))
    {e : Error} (ho : outcomeFrom tx p id agent op = .error e) (g : Guard) :
    ∃ tx', eval (run root id op agent g) tx = (.error e, tx') ∧ tx'.store = tx.store := by
  have h := eval_apply ht hp agent op
  rw [ho] at h
  obtain ⟨tx', he, hs⟩ := h
  exact ⟨tx', eval_bind_error he, hs⟩

theorem eval_run_of_ok {σ : Type} [RecordStore σ] [KeyedStore σ] {tx tx' : Transaction σ} {o : Outcome}
    (he : eval (apply root id agent op) tx = (.ok (), tx')) (hc : CameTo id o tx tx') {g : Guard}
    (hg : ∀ x ∈ tx'.staged, g.covers x = true) :
    ∃ c, eval (run root id op agent g) tx = (.ok c, tx'.committed) ∧
      conclusion id op.kind agent tx'.batch = .ok c ∧ c.kind = op.kind ∧
      ∃ r, find tx'.committed.store id = some r ∧ r.resource = c.resource := by
  have hs : ∃ r, tx'.staged[id]? = some r :=
    Option.isSome_iff_exists.mp (ExtTreeMap.mem_iff_isSome_getElem?.mp hc.staged)
  obtain ⟨r, hr⟩ := hs
  obtain ⟨x, others, hcon, hx, -⟩ := conclusion_of_staged hc.tidy hr op.kind agent
  refine ⟨⟨op.kind, x, others, agent⟩, ?_, hcon, rfl, stamp (tx'.due id) r, ?_, hx.symm⟩
  · unfold run
    rw [eval_bind_ok he, eval_bind_ok (eval_checkCovered_of_covered hg), eval_conclude, hcon]
  · rw [find_committed hc.tidy, hr]

theorem eval_foundRoot (root agent : Iri) (tx : Transaction σ) :
    eval (foundRoot root agent) tx = eval (conclude root .created agent)
      ((tx.ask root).draw.put (.live (founded root agent (tx.due root) ⟨tx.scopes.next, 0⟩))) := by
  unfold foundRoot
  rw [eval_bind_ok (eval_timestamp root tx), eval_bind_ok (eval_audit _ _ _ _ _), eval_bind_ok (eval_stage _ _)]
  rfl

end Mutation

namespace Repository

open Transaction

variable {σ : Type} [RecordStore σ] [KeyedStore σ]

/-- `r'` is `r` after an outcome for `id`. -/
structure After (id : Iri) (o : Outcome) (r r' : Repository σ) : Prop where
  root : r'.root = r.root
  selfKeyed : SelfKeyed r'.store
  content : Akin (o.applyTo id (find r.store)) (find r'.store)

/-- What `op` on `id` comes to in a repository, at a time. -/
def outcomeAt (r : Repository σ) (p id agent : Iri) (now : Instant) (op : Operation) : Except Error Outcome :=
  Mutation.outcomeFrom (begin r.store r.scopes now) p id agent op

theorem After.of_cameTo {r : Repository σ} {id : Iri} {o : Outcome} {now : Instant} {tx : Transaction σ}
    (h : CameTo id o (begin r.store r.scopes now) tx) :
    After id o r { r with store := tx.committed.store, scopes := tx.committed.scopes } where
  root := rfl
  selfKeyed := h.selfKeyed_committed
  content x := by
    rw [content_committed h.tidy, h.look, look_begin]

omit [RecordStore σ] [KeyedStore σ] in
/-- What is refused at once is an invalid identifier, or the root. -/
theorem refusal?_eq_none {r : Repository σ} {id : Iri} :
    r.refusal? id = none ↔ Identifier.validate r.root id = .ok () ∧ id ≠ r.root := by
  unfold refusal?
  cases Identifier.validate r.root id with
  | error f => simp
  | ok u => simp

/-- A commit of `kind` whose target is kept under `id`. -/
def Reports (c : Commit) (kind : ChangeKind) (id : Iri) (r : Repository σ) : Prop :=
  c.kind = kind ∧ ∃ x, find r.store id = some x ∧ x.resource = c.resource

/-- The commit `c` on `id` by `agent` reports what was written, at the times that were due, and nothing
    else was written. -/
structure Recorded (r : Repository σ) (id agent : Iri) (now : Instant) (c : Commit) (r' : Repository σ) : Prop where
  resource : c.resource.id = id
  agent : c.agent = agent
  nodup : (c.resources.map Resource.id).Nodup
  ordered : (c.touched.map Resource.id).Pairwise fun x y => compare x y = .lt
  due : ∀ y ∈ c.resources, y.modified = (begin r.store r.scopes now).due y.id
  target : find r'.store id = some ⟨c.resource, if c.kind = .deleted then some c.resource.modified else none⟩
  touched : ∀ y ∈ c.touched, find r'.store y.id = some (.live y)
  others : ∀ x, x ∉ c.resources.map Resource.id → find r'.store x = find r.store x
  /-- One blank node was drawn. -/
  scopes : r'.scopes = r.scopes.arena.2

omit [KeyedStore σ] in
theorem sole_begin [SteadyStore σ] (s : σ) (scopes : ScopeSource) (now : Instant) (id : Iri) :
    (begin s scopes now).Sole id := by
  intro x r hx
  simp [begin] at hx

theorem Recorded.of_cameTo {r : Repository σ} {id agent : Iri} {o : Outcome} {now : Instant} {tx : Transaction σ}
    {kind : ChangeKind} {c : Commit} (h : CameTo id o (begin r.store r.scopes now) tx)
    (hl : o.target.isLive = decide (kind ≠ .deleted)) (hc : Mutation.conclusion id kind agent tx.batch = .ok c) :
    Recorded r id agent now c { r with store := tx.committed.store, scopes := tx.committed.scopes } := by
  obtain ⟨hkind, hagent, hid, hn, hmem⟩ := Mutation.resources_of_conclusion h.tidy hc
  have hstaged : ∀ y ∈ c.resources, ∃ s, tx.staged[y.id]? = some s ∧ y = (stamp (tx.due y.id) s).resource := by
    intro y hy
    obtain ⟨b, hb, rfl⟩ := List.mem_map.mp ((hmem y).mp hy)
    obtain ⟨x, s, hs, rfl⟩ := mem_batch.mp hb
    obtain rfl : s.resource.id = x := h.tidy.id_staged hs
    exact ⟨s, hs, rfl⟩
  have hfound : ∀ {x s}, tx.staged[x]? = some s → find tx.committed.store x = some (stamp (tx.due x) s) := by
    intro x s hs
    rw [find_committed h.tidy, hs]
  refine ⟨hid, hagent, hn, Mutation.ordered_of_conclusion h.tidy hc, fun y hy => ?_, ?_, fun y hy => ?_, fun x hx => ?_,
    (askAll_rest tx _).2.2.trans h.scopes⟩
  · obtain ⟨s, -, hy⟩ := hstaged y hy
    rw [← h.due]
    exact congrArg Resource.modified hy
  · obtain ⟨s, hs, hy⟩ := hstaged c.resource List.mem_cons_self
    rw [hid] at hs hy
    have hlive : s.isLive = decide (kind ≠ .deleted) := by
      have hlook : tx.look id = some s := by rw [look, hs]; rfl
      rw [h.look, Outcome.applyTo_self, Option.some.injEq] at hlook
      rw [← hlook, Record.isLive_edited, hl]
    show find tx.committed.store id = _
    rw [hfound hs, hkind, hy]
    obtain ⟨x, none | t⟩ := s
    · have hne : kind ≠ .deleted := by simpa [Record.isLive] using hlive
      rw [if_neg hne]
      rfl
    · have he : kind = .deleted := by simpa [Record.isLive] using hlive
      rw [if_pos he]
      rfl
  · obtain ⟨s, hs, he⟩ := hstaged y (List.mem_cons_of_mem _ hy)
    have hne : id ≠ y.id := by
      rw [← hid]
      exact fun he => (List.nodup_cons.mp hn).1 (he ▸ List.mem_map_of_mem hy)
    have hlive := h.sole (sole_begin _ _ _ _) _ _ hs hne
    show find tx.committed.store y.id = _
    rw [hfound hs]
    obtain ⟨x, none | t⟩ := s
    · exact congrArg (fun z => some (Record.live z)) he.symm
    · cases hlive
  · show find tx.committed.store x = _
    rw [find_committed h.tidy]
    cases hs : tx.staged[x]? with
    | none => exact congrFun (congrArg find h.store) x
    | some s =>
      have hid : s.id = x := h.tidy.id_staged hs
      have hin := (hmem _).mpr (List.mem_map_of_mem (mem_batch_of_staged hs))
      exact absurd (List.mem_map.mpr ⟨_, hin, hid⟩) hx

/-- How a mutation can end. -/
inductive Ending (r : Repository σ) (id : Iri) (op : Operation) (session : Session) (now : Instant) :
    Except Error Commit × Repository σ → Prop
  | refused {e : Error} (h : r.refusal? id = some e) : Ending r id op session now (.error e, r)
  | failed {p : Iri} {e : Error} {r' : Repository σ} (h : r.refusal? id = none)
      (hp : Identifier.parent? r.root id = .ok (some p)) (ho : r.outcomeAt p id session.agent now op = .error e)
      (hr : r'.root = r.root) (hs : r'.store = r.store) : Ending r id op session now (.error e, r')
  | done {p : Iri} {o : Outcome} {c : Commit} {r' : Repository σ} (h : r.refusal? id = none)
      (hp : Identifier.parent? r.root id = .ok (some p)) (ho : r.outcomeAt p id session.agent now op = .ok o)
      (hc : Reports c op.kind id r') (hw : Recorded r id session.agent now c r') (ha : After id o r r') :
      Ending r id op session now (.ok c, r')

theorem covers_ofList {plan : List Iri} {x : Iri} (h : x ∈ plan) :
    Guard.covers ⟨ExtTreeSet.ofList plan compare⟩ x = true := by
  unfold Guard.covers
  rw [ExtTreeSet.contains_iff_mem, ExtTreeSet.mem_ofList]
  simpa using h

theorem mutate_cases {r : Repository σ} (hk : SelfKeyed r.store) (id : Iri) (op : Operation) (session : Session)
    (now : Instant) : Ending r id op session now (r.mutate id op session now) := by
  unfold mutate
  cases hr : r.refusal? id with
  | some e => exact .refused hr
  | none =>
    obtain ⟨hv, hne⟩ := refusal?_eq_none.mp hr
    obtain ⟨p, hp⟩ := Identifier.exists_parent hv hne
    dsimp only
    rw [affected_eq r hp op]
    dsimp only
    unfold perform transact
    have hb : (begin r.store r.scopes now).Tidy := tidy_begin hk r.scopes now
    have happly := Mutation.eval_apply hb hp session.agent op
    cases ho : r.outcomeAt p id session.agent now op with
    | error e =>
      obtain ⟨tx, he, hs⟩ := Mutation.eval_run_of_error hb hp ho
        ⟨ExtTreeSet.ofList (Mutation.planned (findLive r.store) p id op) compare⟩
      unfold eval at he
      rw [he]
      exact .failed hr hp ho rfl hs
    | ok o =>
      rw [show Mutation.outcomeFrom _ _ _ _ _ = _ from ho] at happly
      obtain ⟨tx, he, hc, -⟩ := happly
      -- the transaction stays within its plan, so the guard covers what it staged
      have hcov := Mutation.covers_planned (findLive r.store) id p op
      rw [← lookLive_begin r.store r.scopes now] at hcov
      have hlinked := (Mutation.linked_apply hp hcov session.agent (linked_begin hk (fun _ _ => rfl) r.scopes now)).2
      rw [he] at hlinked
      obtain ⟨c, hrun, hcon, hreports⟩ := Mutation.eval_run_of_ok he hc fun x hx =>
        covers_ofList (hlinked.stagedIn x hx)
      unfold eval at hrun
      rw [← lookLive_begin r.store r.scopes now, hrun]
      exact .done hr hp ho hreports (.of_cameTo hc (Mutation.comes_of_outcome ho).isLive hcon) (.of_cameTo hc)

/-- What founding the root comes to. -/
def foundingAt (r : Repository σ) (agent : Iri) (now : Instant) : Outcome :=
  ⟨.live (Mutation.founded r.root agent ((begin r.store r.scopes now).due r.root) ⟨r.scopes.next, 0⟩), []⟩

/-- How the making of the root can end. -/
inductive Founding (r : Repository σ) (session : Session) (now : Instant) :
    Except Error (Option Commit) × Repository σ → Prop
  | present {x : Resource} (h : findLive r.store r.root = some x) : Founding r session now (.ok none, r)
  | made {c : Commit} {r' : Repository σ} (h : findLive r.store r.root = none)
      (hc : Reports c .created r.root r') (hw : Recorded r r.root session.agent now c r')
      (ha : After r.root (r.foundingAt session.agent now) r r') :
      Founding r session now (.ok (some c), r')

theorem createRoot_cases {r : Repository σ} (hk : SelfKeyed r.store) (session : Session) (now : Instant) :
    Founding r session now (r.createRoot session now) := by
  unfold createRoot
  rw [get_eq_findLive]
  cases hl : findLive r.store r.root with
  | some x => exact .present hl
  | none =>
    dsimp only
    generalize hx : Mutation.founded r.root session.agent ((begin r.store r.scopes now).due r.root)
      ⟨r.scopes.next, 0⟩ = x
    have hid : (Record.live x).id = r.root := by rw [← hx]; rfl
    have hb : (begin r.store r.scopes now).Tidy := tidy_begin hk r.scopes now
    have hput : (((begin r.store r.scopes now).ask r.root).draw.put (.live x)).Tidy := (hb.congr rfl).put _
    have hstaged : (((begin r.store r.scopes now).ask r.root).draw.put (.live x)).staged[r.root]? = some (.live x) := by
      unfold Transaction.put
      rw [hid, ExtTreeMap.getElem?_insert, if_pos ReflCmp.compare_self]
    obtain ⟨y, others, hcon, hy, -⟩ := Mutation.conclusion_of_staged hput hstaged .created session.agent
    have hcame : CameTo r.root (r.foundingAt session.agent now) (begin r.store r.scopes now)
        (((begin r.store r.scopes now).ask r.root).draw.put (.live x)) := by
      refine ⟨rfl, rfl, rfl, hput, mem_staged_put (.inl hid), fun hs => hs.put (.inl hid), fun z => ?_⟩
      rw [look_put, hid, Outcome.applyTo, foundingAt, hx]
      simp only [Record.edited_nil, Option.map_id']
      rfl
    have hfound := Mutation.eval_foundRoot r.root session.agent (begin r.store r.scopes now)
    rw [show (begin r.store r.scopes now).scopes = r.scopes from rfl, hx, Mutation.eval_conclude, hcon] at hfound
    unfold eval at hfound
    unfold transact
    rw [hfound]
    refine .made hl ⟨rfl, _, ?_, hy.symm⟩ (.of_cameTo hcame rfl hcon) (.of_cameTo hcame)
    exact (find_committed hput r.root).trans (by rw [hstaged])

end Repository

end LinkedData
