/-
  LinkedData.Proofs.Desk — a writer on a store that others write too.

  A writer reads a record once and goes by what it noted; its batch goes to the shared store
  (`Desk`). Two writers are paired when they answer alike and write the same records, if they
  write any, under identifiers of a given set (`Paired`). A mutation at a desk whose notes are
  right about its plan is paired with the mutation on any store that agrees with the notes
  there (`perform_paired`), however much more its guard covers; so is the making of the root
  (`foundRoot_paired`).
-/

import LinkedData.Proofs.Mutate

namespace LinkedData

open Std SteadyStore

/-- What a writer noted of a store, and the store that it writes to. -/
structure Desk (σ : Type) where
  notes : Iri → Option Record
  shared : σ

namespace Desk

variable {σ : Type} [RecordStore σ] [SteadyStore σ]

instance : RecordStore (Desk σ) :=
  ⟨fun d id => .ok (d.notes id), fun d rs => (RecordStore.putBatch d.shared rs).map fun shared => { d with shared }⟩

instance : SteadyStore (Desk σ) where
  find := notes
  write d rs := { d with shared := write d.shared rs }
  get_eq _ _ := rfl
  putBatch_eq d rs := by
    show (RecordStore.putBatch d.shared rs).map _ = _
    rw [putBatch_eq]
    rfl

end Desk

/-! ## Writers that do the same -/

/-- The same answer, and the same batch under identifiers in `G`, or none. -/
inductive Paired {σ τ α : Type} [RecordStore σ] [SteadyStore σ] [RecordStore τ] [SteadyStore τ]
    (G : Iri → Prop) (s : σ) (t : τ) :
    α × σ → α × τ → Prop
  | still (answer : α) : Paired G s t (answer, s) (answer, t)
  | wrote (answer : α) {rs : List Record} (hn : (rs.map Record.id).Nodup) (hG : ∀ r ∈ rs, G r.id) :
    Paired G s t (answer, write s rs) (answer, write t rs)

section

variable {σ τ α β : Type} [RecordStore σ] [SteadyStore σ] [RecordStore τ] [SteadyStore τ] {G : Iri → Prop}
  {s : σ} {t : τ}

theorem Paired.map {a : α × σ} {b : α × τ} (h : Paired G s t a b) (f : α → β) :
    Paired G s t (f a.1, a.2) (f b.1, b.2) := by
  cases h with
  | still answer => exact .still _
  | wrote answer hn hG => exact .wrote _ hn hG

theorem Paired.mono {G' : Iri → Prop} {a : α × σ} {b : α × τ} (h : Paired G s t a b)
    (hG : ∀ x, G x → G' x) :
    Paired G' s t a b := by
  cases h with
  | still answer => exact .still _
  | wrote answer hn hr => exact .wrote _ hn fun r hmem => hG _ (hr r hmem)

/-- What a writer at a desk and a writer on another store leave behind, when they do the same. -/
theorem Paired.leave {σ : Type} [RecordStore σ] [KeyedStore σ] {notes : Iri → Option Record} {shared own : σ}
    {a : α × Desk σ} {b : α × σ} (h : Paired G ⟨notes, shared⟩ own a b) (hs : SelfKeyed shared)
    (ho : SelfKeyed own) (ha : ∀ x, G x → find shared x = find own x) :
    b.1 = a.1 ∧ (SelfKeyed a.2.shared ∧ SelfKeyed b.2) ∧ (∀ x, G x → find b.2 x = find a.2.shared x) ∧
      ∀ x, ¬ G x → find a.2.shared x = find shared x ∧ find b.2 x = find own x := by
  cases h with
  | still answer => exact ⟨rfl, ⟨hs, ho⟩, fun x hx => (ha x hx).symm, fun x _ => ⟨rfl, rfl⟩⟩
  | @wrote answer rs hn hG =>
    refine ⟨rfl, ⟨hs.write hn, ho.write hn⟩, fun x hx => find_write_congr hn (ha x hx).symm, fun x hx => ?_⟩
    have hnot : x ∉ rs.map Record.id := by
      intro hmem
      obtain ⟨r, hr, rfl⟩ := List.mem_map.mp hmem
      exact hx (hG r hr)
    exact ⟨KeyedStore.find_write_of_not_mem shared hnot, KeyedStore.find_write_of_not_mem own hnot⟩

namespace Transaction

variable {tx₁ : Transaction σ} {tx₂ : Transaction τ}

theorem Linked.batch_eq (h : Linked G tx₁ tx₂) : tx₁.batch = tx₂.batch := by
  unfold batch
  rw [← h.staged]
  refine List.map_congr_left fun e he => ?_
  have hmem : e.1 ∈ tx₁.staged := ExtTreeMap.mem_iff_isSome_getElem?.mpr (by
    rw [ExtTreeMap.mem_toList_iff_getElem?_eq_some.mp he]
    rfl)
  rw [h.due (h.stagedIn e.1 hmem)]

theorem Linked.batchIn (h : Linked G tx₁ tx₂) : ∀ r ∈ tx₁.batch, G r.id := by
  intro r hr
  have hid : r.id ∈ tx₁.staged.keys := by
    rw [← map_id_batch h.tidy]
    exact List.mem_map_of_mem hr
  exact h.stagedIn r.id (ExtTreeMap.mem_keys.mp hid)

/-- Linked transactions that conclude write the same batch. -/
theorem Linked.paired_conclude (h : Linked G tx₁ tx₂) (id : Iri) (kind : ChangeKind) (agent : Iri) :
    Paired G tx₁.store tx₂.store
      ((eval (Mutation.conclude id kind agent) tx₁).1, (eval (Mutation.conclude id kind agent) tx₁).2.store)
      ((eval (Mutation.conclude id kind agent) tx₂).1, (eval (Mutation.conclude id kind agent) tx₂).2.store) := by
  rw [Mutation.eval_conclude, Mutation.eval_conclude, ← h.batch_eq]
  show Paired G tx₁.store tx₂.store (_, write tx₁.store tx₁.batch) (_, write tx₂.store tx₂.batch)
  rw [← h.batch_eq]
  exact .wrote _ (nodup_batch h.tidy) h.batchIn

end Transaction

end

namespace Repository

open Transaction

variable {σ τ : Type} [RecordStore σ] [SteadyStore σ] [RecordStore τ] [SteadyStore τ] {G : Iri → Prop}
  {root : Iri} {s : σ} {t : τ}

/-- A mutation depends on nothing but its plan, and writes nothing else. -/
theorem perform_paired (hs : SelfKeyed s) (ht : SelfKeyed t) {id p : Iri}
    (hp : Identifier.parent? root id = .ok (some p)) {op : Operation} (hc : Mutation.Covers (findLive s) id p op G)
    (ha : ∀ x, G x → find s x = find t x) {g g' : Guard} (hg : ∀ x, G x → g.covers x = true)
    (hg' : ∀ x, G x → g'.covers x = true) (scopes : ScopeSource) (session : Session) (now : Instant) :
    Paired G s t
      (((⟨root, s, scopes⟩ : Repository σ).perform id op session now g).1,
        ((⟨root, s, scopes⟩ : Repository σ).perform id op session now g).2.store)
      (((⟨root, t, scopes⟩ : Repository τ).perform id op session now g').1,
        ((⟨root, t, scopes⟩ : Repository τ).perform id op session now g').2.store) := by
  show Paired G s t ((eval (Mutation.run root id op session.agent g) (begin s scopes now)).1,
      (eval (Mutation.run root id op session.agent g) (begin s scopes now)).2.store)
    ((eval (Mutation.run root id op session.agent g') (begin t scopes now)).1,
      (eval (Mutation.run root id op session.agent g') (begin t scopes now)).2.store)
  rw [← lookLive_begin s scopes now] at hc
  have hlinked := linked_begin hs ha scopes now
  have hs₁ := Mutation.store_apply (tidy_begin hs scopes now) hp session.agent op
  have ht₁ := Mutation.store_apply (tidy_begin ht scopes now) hp session.agent op
  obtain ⟨hanswer, hl⟩ := Mutation.linked_apply hp hc session.agent hlinked
  cases h₁ : eval (Mutation.apply root id session.agent op) (begin s scopes now) with
  | mk a₁ tx₁ =>
    cases h₂ : eval (Mutation.apply root id session.agent op) (begin t scopes now) with
    | mk a₂ tx₂ =>
      rw [h₁] at hanswer hl hs₁
      rw [h₂] at hanswer hl ht₁
      dsimp only at hanswer hl hs₁ ht₁
      subst hanswer
      unfold Mutation.run
      cases a₁ with
      | error e =>
        rw [eval_bind_error h₁, eval_bind_error h₂]
        dsimp only
        rw [hs₁, ht₁]
        exact .still _
      | ok u =>
        have hcov₁ : ∀ x ∈ tx₁.staged, g.covers x = true := fun x hx => hg x (hl.stagedIn x hx)
        have hcov₂ : ∀ x ∈ tx₂.staged, g'.covers x = true := fun x hx => hg' x (hl.stagedIn x (hl.staged ▸ hx))
        rw [eval_bind_ok h₁, eval_bind_ok (eval_checkCovered_of_covered hcov₁), eval_bind_ok h₂,
          eval_bind_ok (eval_checkCovered_of_covered hcov₂)]
        have hpaired := hl.paired_conclude id op.kind session.agent
        rw [hs₁, ht₁] at hpaired
        exact hpaired

theorem foundRoot_paired (hs : SelfKeyed s) (hG : G root) (ha : ∀ x, G x → find s x = find t x)
    (scopes : ScopeSource) (agent : Iri) (now : Instant) :
    Paired G s t
      (((⟨root, s, scopes⟩ : Repository σ).transact now (Mutation.foundRoot root agent)).1,
        ((⟨root, s, scopes⟩ : Repository σ).transact now (Mutation.foundRoot root agent)).2.store)
      (((⟨root, t, scopes⟩ : Repository τ).transact now (Mutation.foundRoot root agent)).1,
        ((⟨root, t, scopes⟩ : Repository τ).transact now (Mutation.foundRoot root agent)).2.store) := by
  show Paired G s t ((eval (Mutation.foundRoot root agent) (begin s scopes now)).1,
      (eval (Mutation.foundRoot root agent) (begin s scopes now)).2.store)
    ((eval (Mutation.foundRoot root agent) (begin t scopes now)).1,
      (eval (Mutation.foundRoot root agent) (begin t scopes now)).2.store)
  have hlinked := linked_begin hs ha scopes now
  rw [Mutation.eval_foundRoot, Mutation.eval_foundRoot, ← hlinked.due hG]
  refine ((hlinked.ask hG).draw.put ?_).paired_conclude root .created agent
  exact hG

end Repository

end LinkedData
