/-
  LinkedData.Proofs.Atomicity — a mutation that fails has written nothing.

  Here a store may fail, in reading as in writing. All that is asked of it is that what it does
  read is under its own identifier (`WellFiled`). Every step of a transaction before the commit
  leaves the store alone (`Calm`), and the batch is taken as a whole or not at all. One refusal
  comes after the batch: that the target is not in it. It never happens, since a mutation that
  gets that far has staged its target under the identifier it was called for (`Files`). So a
  mutation that answers with an error leaves the store as it was (`store_of_mutate_error`).
-/

import LinkedData.Proofs.Evaluation

namespace LinkedData

open Std

/-- What is read in a store is under its own identifier. -/
def WellFiled {σ : Type} [RecordStore σ] (s : σ) : Prop :=
  ∀ id r, RecordStore.get s id = .ok (some r) → r.id = id

theorem wellFiled_iff {σ : Type} [RecordStore σ] [SteadyStore σ] {s : σ} : WellFiled s ↔ SelfKeyed s := by
  simp only [WellFiled, SelfKeyed, SteadyStore.get_eq, Except.ok.injEq]

namespace Transaction

variable {σ α β : Type} [RecordStore σ]

/-- Records are under their own identifiers, in the store and among those that are staged. -/
structure Ordered (tx : Transaction σ) : Prop where
  store : WellFiled tx.store
  staged : ∀ (id : Iri) (r : Record), tx.staged[id]? = some r → r.id = id

/-- The store is as it was, and what was staged still is. -/
structure Keeps (tx tx' : Transaction σ) : Prop where
  store : tx'.store = tx.store
  staged : ∀ id ∈ tx.staged, id ∈ tx'.staged
  ordered : tx'.Ordered

/-- `m` keeps what there is, and what it answers is `Q`. -/
def Calm (m : TransactionM σ α) (Q : α → Prop) : Prop :=
  ∀ tx : Transaction σ, tx.Ordered → Keeps tx (eval m tx).2 ∧ ∀ a, (eval m tx).1 = .ok a → Q a

/-- `m` keeps what there is, and when it does not fail, `id` is staged. -/
def Files (id : Iri) (m : TransactionM σ α) : Prop :=
  ∀ tx : Transaction σ, tx.Ordered →
    Keeps tx (eval m tx).2 ∧ ∀ a, (eval m tx).1 = .ok a → id ∈ (eval m tx).2.staged

/-- Anything. -/
abbrev any (_ : α) : Prop := True

/-! ## Sequences -/

theorem Keeps.refl {tx : Transaction σ} (h : tx.Ordered) : Keeps tx tx := ⟨rfl, fun _ => id, h⟩

theorem Keeps.trans {tx tx' tx'' : Transaction σ} (h : Keeps tx tx') (h' : Keeps tx' tx'') : Keeps tx tx'' :=
  ⟨h'.store.trans h.store, fun id hid => h'.staged id (h.staged id hid), h'.ordered⟩

theorem calm_pure {a : α} {Q : α → Prop} (h : Q a) : Calm (pure a : TransactionM σ α) Q :=
  fun _ ht => ⟨.refl ht, fun b hb => by cases hb; exact h⟩

theorem calm_throw (e : Error) {Q : α → Prop} : Calm (throw e : TransactionM σ α) Q :=
  fun _ ht => ⟨.refl ht, nofun⟩

theorem calm_lift (x : Except Error α) : Calm (liftM x : TransactionM σ α) any :=
  fun _ ht => ⟨.refl ht, fun _ _ => trivial⟩

theorem calm_get : Calm (get : TransactionM σ (Transaction σ)) any := fun _ ht => ⟨.refl ht, fun _ _ => trivial⟩

theorem Calm.bind {m : TransactionM σ α} {f : α → TransactionM σ β} {Q : α → Prop} {R : β → Prop}
    (h : Calm m Q) (hf : ∀ a, Q a → Calm (f a) R) : Calm (m >>= f) R := by
  intro tx ht
  obtain ⟨hkeeps, hQ⟩ := h tx ht
  rw [eval_bind]
  generalize eval m tx = out at hkeeps hQ
  obtain ⟨answer, tx'⟩ := out
  cases answer with
  | error e => exact ⟨hkeeps, nofun⟩
  | ok a =>
    obtain ⟨hkeeps', hR⟩ := hf a (hQ a rfl) tx' hkeeps.ordered
    exact ⟨hkeeps.trans hkeeps', hR⟩

theorem Files.bind {m : TransactionM σ α} {f : α → TransactionM σ β} {Q : α → Prop} {id : Iri} (h : Calm m Q)
    (hf : ∀ a, Q a → Files id (f a)) : Files id (m >>= f) := by
  intro tx ht
  obtain ⟨hkeeps, hQ⟩ := h tx ht
  rw [eval_bind]
  generalize eval m tx = out at hkeeps hQ
  obtain ⟨answer, tx'⟩ := out
  cases answer with
  | error e => exact ⟨hkeeps, nofun⟩
  | ok a =>
    obtain ⟨hkeeps', hstaged⟩ := hf a (hQ a rfl) tx' hkeeps.ordered
    exact ⟨hkeeps.trans hkeeps', hstaged⟩

theorem files_throw (e : Error) {id : Iri} : Files id (throw e : TransactionM σ α) :=
  fun _ ht => ⟨.refl ht, nofun⟩

/-- What would follow a refusal does not matter. -/
theorem files_throw_bind (e : Error) {id : Iri} (f : α → TransactionM σ β) : Files id (throw e >>= f) :=
  Files.bind (calm_throw e (Q := fun _ => False)) fun _ h => h.elim

theorem calm_forM {f : α → TransactionM σ PUnit} (h : ∀ a, Calm (f a) any) (as : List α) :
    Calm (as.forM f) any := by
  induction as with
  | nil => exact calm_pure trivial
  | cons a as ih =>
    rw [List.forM_eq_forM, List.forM_cons]
    exact (h a).bind fun _ _ => ih

/-! ## Steps -/

theorem calm_stored (id : Iri) : Calm (stored id : TransactionM σ _) fun r => ∀ x ∈ r, x.id = id := by
  intro tx ht
  unfold stored
  rw [eval_bind_ok (eval_get tx), eval_bind_ok (show eval (set _) tx = (.ok ⟨⟩, tx.ask id) from rfl)]
  have hkeeps : Keeps tx (tx.ask id) := ⟨rfl, fun _ h => h, ⟨ht.store, ht.staged⟩⟩
  cases hg : RecordStore.get tx.store id with
  | error f => exact ⟨hkeeps, nofun⟩
  | ok r =>
    refine ⟨hkeeps, fun a ha x hx => ?_⟩
    cases ha
    obtain rfl := hx
    exact ht.store id x hg

theorem calm_record (id : Iri) : Calm (record id : TransactionM σ _) fun r => ∀ x ∈ r, x.id = id := by
  intro tx ht
  unfold record
  rw [eval_bind_ok (eval_get tx)]
  cases hs : tx.staged[id]? with
  | some r =>
    refine ⟨.refl ht, fun a ha x hx => ?_⟩
    cases ha
    cases hx
    exact ht.staged id r hs
  | none => exact calm_stored id tx ht

theorem calm_live (id : Iri) : Calm (live id : TransactionM σ _) fun r => ∀ x ∈ r, x.id = id := by
  refine (calm_record id).bind fun r hr => calm_pure fun x hx => ?_
  obtain ⟨y, hy, hl⟩ := Option.bind_eq_some_iff.mp hx
  obtain ⟨-, rfl⟩ := Record.live?_eq_some.mp hl
  exact hr y hy

theorem calm_timestamp (id : Iri) : Calm (timestamp id : TransactionM σ _) any :=
  (calm_stored id).bind fun _ _ => calm_get.bind fun _ _ => calm_pure trivial

theorem keeps_put {tx : Transaction σ} (h : tx.Ordered) (r : Record) : Keeps tx (tx.put r) where
  store := rfl
  staged id hid := ExtTreeMap.mem_insert.mpr (.inr hid)
  ordered := by
    refine ⟨h.store, fun id r' hr => ?_⟩
    rw [put, ExtTreeMap.getElem?_insert] at hr
    split at hr
    · next he =>
      cases hr
      exact LawfulEqCmp.compare_eq_iff_eq.mp he
    · exact h.staged id r' hr

theorem calm_stage (r : Record) : Calm (stage r : TransactionM σ _) any :=
  fun _ ht => ⟨keeps_put ht r, fun _ _ => trivial⟩

omit [RecordStore σ] in
theorem mem_staged_put_self (tx : Transaction σ) (r : Record) : r.id ∈ (tx.put r).staged :=
  ExtTreeMap.mem_insert.mpr (.inl ReflCmp.compare_self)

theorem files_stage {r : Record} {id : Iri} (hr : r.id = id) : Files id (stage r : TransactionM σ _) :=
  fun tx ht => ⟨keeps_put ht r, fun _ _ => hr ▸ mem_staged_put_self tx r⟩

/-- What is staged stays so. -/
theorem Files.then {m : TransactionM σ α} {f : α → TransactionM σ β} {id : Iri} (h : Files id m)
    (hf : ∀ a, Calm (f a) any) : Files id (m >>= f) := by
  intro tx ht
  obtain ⟨hkeeps, hstaged⟩ := h tx ht
  rw [eval_bind]
  generalize eval m tx = out at hkeeps hstaged
  obtain ⟨answer, tx'⟩ := out
  cases answer with
  | error e => exact ⟨hkeeps, nofun⟩
  | ok a =>
    have hkeeps' := (hf a tx' hkeeps.ordered).1
    exact ⟨hkeeps.trans hkeeps', fun _ _ => hkeeps'.staged id (hstaged a rfl)⟩

theorem calm_updateLive (id : Iri) (f : Resource → Resource) : Calm (updateLive id f : TransactionM σ _) any := by
  refine (calm_live id).bind fun r _ => ?_
  cases r with
  | none => exact calm_pure trivial
  | some r => exact calm_stage _

theorem calm_freshNode : Calm (freshNode : TransactionM σ _) any :=
  fun _ ht => ⟨⟨rfl, fun _ => id, ⟨ht.store, ht.staged⟩⟩, fun _ _ => trivial⟩

theorem calm_checkCovered (g : Guard) : Calm (checkCovered g : TransactionM σ _) any := by
  refine calm_get.bind fun tx _ => ?_
  cases tx.staged.keys.find? fun id => !g.covers id with
  | some id => exact calm_throw _
  | none => exact calm_pure trivial

end Transaction

/-! ## Mutations -/

namespace Mutation

open Transaction

variable {σ : Type} [RecordStore σ]

theorem calm_audit (kind : ChangeKind) (agent : Iri) (time : Instant) (r : Resource) :
    Calm (audit kind agent time r : TransactionM σ _) (·.id = r.id) :=
  calm_freshNode.bind fun _ _ => calm_pure rfl

theorem calm_addMembers (ts : List MemberTriple) : Calm (addMembers ts : TransactionM σ _) any :=
  calm_forM (fun _ => calm_updateLive _ _) ts

theorem calm_removeMembers (ts : List MemberTriple) : Calm (removeMembers ts : TransactionM σ _) any :=
  calm_forM (fun _ => calm_updateLive _ _) ts

theorem calm_liveOnes (ids : List Iri) : Calm (liveOnes ids : TransactionM σ _) any := by
  induction ids with
  | nil => exact calm_pure trivial
  | cons id ids ih =>
    unfold liveOnes at ih ⊢
    rw [List.filterMapM_cons]
    refine (calm_live id).bind fun r _ => ?_
    cases r with
    | none => exact ih
    | some r => exact ih.bind fun _ _ => calm_pure trivial

theorem calm_retract (m : Membership) (container : Resource) (leaving : Iri) (ts : List MemberTriple) :
    Calm (retract m container leaving ts : TransactionM σ _) any := by
  unfold retract
  split
  · exact calm_pure trivial
  · exact (calm_liveOnes _).bind fun _ _ => calm_removeMembers _

theorem calm_target (id : Iri) : Calm (target id : TransactionM σ _) (·.id = id) := by
  refine (calm_record id).bind fun r hr => ?_
  cases r with
  | none => exact calm_throw _
  | some r =>
    dsimp only
    cases hl : r.live? with
    | none => exact calm_throw _
    | some x =>
      obtain ⟨-, rfl⟩ := Record.live?_eq_some.mp hl
      exact calm_pure (hr r rfl)

theorem calm_rejoin (root id : Iri) (current updated : Resource) :
    Calm (rejoin root id current updated : TransactionM σ _) any := by
  refine (calm_lift _).bind fun p _ => ?_
  cases p with
  | none => exact calm_pure trivial
  | some p =>
    refine (calm_live p).bind fun parent _ => ?_
    cases parent with
    | none => exact calm_pure trivial
    | some parent =>
      dsimp only
      cases Membership.ofContainer? parent with
      | none => exact calm_pure trivial
      | some m =>
        dsimp only
        split
        · exact calm_pure trivial
        · exact (calm_retract _ _ _ _).bind fun _ _ => calm_addMembers _

theorem calm_reconfigure (current updated : Resource) : Calm (reconfigure current updated : TransactionM σ _) any := by
  unfold reconfigure
  dsimp only
  split
  · exact calm_pure trivial
  · refine (calm_liveOnes _).bind fun children _ => ?_
    have hleave : ∀ m : Membership,
        Calm (children.forM fun child => removeMembers (m.triples child) : TransactionM σ _) any :=
      fun m => calm_forM (fun _ => calm_removeMembers _) children
    have hjoin : ∀ m : Membership,
        Calm (children.forM fun child => addMembers (m.triples child) : TransactionM σ _) any :=
      fun m => calm_forM (fun _ => calm_addMembers _) children
    cases Membership.ofContainer? current with
    | none =>
      cases Membership.ofContainer? updated with
      | none => exact calm_pure trivial
      | some m => exact hjoin m
    | some m =>
      refine (hleave m).bind fun _ _ => ?_
      cases Membership.ofContainer? updated with
      | none => exact calm_pure trivial
      | some m => exact hjoin m

theorem calm_leave (root id : Iri) (current : Resource) : Calm (leave root id current : TransactionM σ _) any := by
  refine (calm_lift _).bind fun p _ => ?_
  cases p with
  | none => exact calm_pure trivial
  | some p =>
    refine (calm_live p).bind fun parent _ => ?_
    cases parent with
    | none => exact calm_updateLive _ _
    | some parent =>
      dsimp only
      cases Membership.ofContainer? parent with
      | none => exact calm_updateLive _ _
      | some m => exact (calm_retract _ _ _ _).bind fun _ _ => calm_updateLive _ _

/-! ## Whole mutations -/

variable {root id agent : Iri}

theorem files_applyCreate (model : InteractionModel) (userGraph : Graph) (binary : Option Binary) :
    Files id (applyCreate root id model userGraph binary agent : TransactionM σ _) := by
  refine Files.bind (calm_record id) fun previous _ => ?_
  dsimp only
  split
  · exact files_throw_bind _ _
  · refine Files.bind (calm_lift _) fun p _ => ?_
    cases p with
    | none => exact files_throw _
    | some p =>
      refine Files.bind (calm_live p) fun found _ => ?_
      cases found.filter (·.isContainer) with
      | none => exact files_throw _
      | some parent =>
        refine Files.bind (calm_timestamp id) fun time _ => Files.bind (calm_audit _ _ _ _) fun new hnew => ?_
        refine (files_stage (r := .live new) hnew).then fun _ => (calm_updateLive _ _).bind fun _ _ => ?_
        cases Membership.ofContainer? parent with
        | none => exact calm_pure trivial
        | some m => exact calm_addMembers _

theorem files_applyReplace (userGraph : Graph) (expected : Option InteractionModel) :
    Files id (applyReplace root id userGraph expected agent : TransactionM σ _) := by
  refine Files.bind (calm_target id) fun current hcurrent => ?_
  have hrest : Files id (do
      let modified ← timestamp id
      let updated ← audit .updated agent modified
        { current with dataset := current.dataset.set .user userGraph, modified }
      stage (.live updated)
      rejoin root id current updated
      reconfigure current updated : TransactionM σ Unit) := by
    refine Files.bind (calm_timestamp id) fun time _ => Files.bind (calm_audit _ _ _ _) fun updated hupdated => ?_
    refine (files_stage (r := .live updated) (hupdated.trans hcurrent)).then fun _ => ?_
    exact (calm_rejoin _ _ _ _).bind fun _ _ => calm_reconfigure _ _
  cases expected with
  | none => exact hrest
  | some m =>
    dsimp only
    split
    · exact files_throw_bind _ _
    · exact hrest

theorem files_applyDelete : Files id (applyDelete root id agent : TransactionM σ _) := by
  refine Files.bind (calm_target id) fun current hcurrent => Files.bind (calm_leave _ _ _) fun _ _ => ?_
  refine Files.bind (calm_live id) fun left hleft => ?_
  have hid : (left.getD current).id = id := by
    cases left with
    | none => exact hcurrent
    | some x => exact hleft x rfl
  refine Files.bind (calm_timestamp id) fun time _ => Files.bind (calm_audit _ _ _ _) fun buried hburied => ?_
  exact files_stage (r := .tombstone buried) (hburied.trans hid)

theorem files_apply (op : Operation) : Files id (apply root id agent op : TransactionM σ _) := by
  cases op with
  | create model userGraph binary => exact files_applyCreate model userGraph binary
  | replace userGraph expected => exact files_applyReplace userGraph expected
  | delete => exact files_applyDelete

/-! ## The commit -/

theorem calm_stampAll (es : List (Iri × Record)) :
    Calm (es.mapM fun e => return stamp (← timestamp e.1) e.2 : TransactionM σ _)
      fun rs => rs.map Record.id = es.map (·.2.id) := by
  induction es with
  | nil => exact calm_pure rfl
  | cons e es ih =>
    rw [List.mapM_cons]
    have hstamp : Calm (do return stamp (← timestamp e.1) e.2 : TransactionM σ Record) fun r => r.id = e.2.id :=
      (calm_timestamp e.1).bind fun t _ => calm_pure rfl
    refine hstamp.bind fun r hr => ?_
    refine ih.bind fun rs hrs => calm_pure ?_
    rw [List.map_cons, List.map_cons, hr, hrs]

variable {tx : Transaction σ}

/-- A commit fails before the batch, or has written all that was staged. -/
theorem commit_cases (ht : tx.Ordered) :
    (∃ e, (eval commit tx).1 = .error e ∧ (eval commit tx).2.store = tx.store) ∨
      ∃ rs, (eval commit tx).1 = .ok rs ∧ ∀ id ∈ tx.staged, id ∈ rs.map Record.id := by
  unfold commit
  rw [eval_bind_ok (eval_get tx), eval_bind]
  obtain ⟨hkeeps, hids⟩ := calm_stampAll tx.staged.toList tx ht
  generalize hout : eval (tx.staged.toList.mapM _) tx = out
  rw [show eval (tx.staged.toList.mapM _) tx = out from hout] at hkeeps hids
  obtain ⟨answer, tx'⟩ := out
  cases answer with
  | error e => exact .inl ⟨e, rfl, hkeeps.store⟩
  | ok rs =>
    dsimp only
    rw [eval_bind_ok (eval_get tx')]
    cases RecordStore.putBatch tx'.store rs with
    | error f => exact .inl ⟨.storage f, rfl, hkeeps.store⟩
    | ok s =>
      refine .inr ⟨rs, rfl, fun id hid => ?_⟩
      rw [hids rs rfl]
      obtain ⟨r, hr⟩ := Option.isSome_iff_exists.mp (ExtTreeMap.mem_iff_isSome_getElem?.mp hid)
      exact List.mem_map.mpr ⟨(id, r), ExtTreeMap.mem_toList_iff_getElem?_eq_some.mpr hr, ht.staged id r hr⟩

theorem store_of_conclude_error (ht : tx.Ordered) (hid : id ∈ tx.staged) {kind : ChangeKind} {e : Error}
    (h : (eval (conclude id kind agent) tx).1 = .error e) : (eval (conclude id kind agent) tx).2.store = tx.store := by
  unfold conclude at h ⊢
  rw [eval_bind] at h ⊢
  have hcases := commit_cases ht
  generalize eval commit tx = out at h hcases ⊢
  obtain ⟨answer, tx'⟩ := out
  rcases hcases with ⟨f, rfl, hstore⟩ | ⟨rs, rfl, hids⟩
  · exact hstore
  · have hfound : ((rs.map (·.resource)).find? (·.id = id)).isSome := by
      obtain ⟨r, hr, hrid⟩ := List.mem_map.mp (hids id hid)
      rw [List.find?_isSome]
      exact ⟨r.resource, List.mem_map_of_mem hr, decide_eq_true hrid⟩
    obtain ⟨x, hx⟩ := Option.isSome_iff_exists.mp hfound
    dsimp only at h
    rw [hx] at h
    cases h

theorem store_of_files_error {α : Type} {m : TransactionM σ α} (hm : Files id m) (ht : tx.Ordered)
    (kind : ChangeKind) (agent : Iri) {e : Error} (h : (eval (m >>= fun _ => conclude id kind agent) tx).1 = .error e) :
    (eval (m >>= fun _ => conclude id kind agent) tx).2.store = tx.store := by
  obtain ⟨hkeeps, hstaged⟩ := hm tx ht
  rw [eval_bind] at h ⊢
  generalize eval m tx = out at h hkeeps hstaged ⊢
  obtain ⟨answer, tx'⟩ := out
  cases answer with
  | error f => exact hkeeps.store
  | ok a => exact (store_of_conclude_error hkeeps.ordered (hstaged a rfl) h).trans hkeeps.store

end Mutation

namespace Repository

open Transaction Mutation

variable {σ : Type} [RecordStore σ] {r : Repository σ}

theorem ordered_begin {s : σ} (hs : WellFiled s) (scopes : ScopeSource) (now : Instant) :
    (begin s scopes now).Ordered :=
  ⟨hs, fun id r hr => by simp [begin] at hr⟩

theorem store_of_perform_error (hs : WellFiled r.store) {id : Iri} {op : Operation} {session : Session} {now : Instant}
    {guard : Guard} {e : Error} (h : (r.perform id op session now guard).1 = .error e) :
    (r.perform id op session now guard).2.store = r.store := by
  have hfiles : Files id (do apply r.root id session.agent op; checkCovered guard : TransactionM σ Unit) :=
    (files_apply op).then fun _ => calm_checkCovered guard
  unfold perform transact run at h ⊢
  rw [← bind_assoc] at h ⊢
  exact store_of_files_error hfiles (ordered_begin hs r.scopes now) op.kind session.agent h

/-- A mutation that fails leaves every record as it was. -/
theorem store_of_mutate_error (hs : WellFiled r.store) {id : Iri} {op : Operation} {session : Session} {now : Instant}
    {e : Error} (h : (r.mutate id op session now).1 = .error e) : (r.mutate id op session now).2.store = r.store := by
  unfold mutate at h ⊢
  cases hr : r.refusal? id with
  | some f => rfl
  | none =>
    rw [hr] at h
    dsimp only at h ⊢
    cases hp : r.affected id op with
    | error f => rfl
    | ok plan =>
      rw [hp] at h
      exact store_of_perform_error hs h

theorem store_of_founding_error (hs : WellFiled r.store) (agent : Iri) (now : Instant) {e : Error}
    (h : (r.transact now (foundRoot r.root agent)).1 = .error e) :
    (r.transact now (foundRoot r.root agent)).2.store = r.store := by
  have hfiles : Files r.root (do
      let modified ← timestamp r.root
      let dataset := Dataset.empty.insert .server (Resource.typing r.root .basicContainer)
      let resource ← audit .created agent modified ⟨r.root, .basicContainer, dataset, modified, none⟩
      stage (.live resource) : TransactionM σ Unit) := by
    refine Files.bind (calm_timestamp _) fun time _ => Files.bind (calm_audit _ _ _ _) fun x hx => ?_
    exact files_stage (r := .live x) hx
  have hstore := store_of_files_error hfiles (ordered_begin hs r.scopes now) .created agent (e := e)
  simp only [bind_assoc] at hstore
  exact hstore h

theorem store_of_createRoot_error (hs : WellFiled r.store) {session : Session} {now : Instant} {e : Error}
    (h : (r.createRoot session now).1 = .error e) : (r.createRoot session now).2.store = r.store := by
  have hstore := store_of_founding_error hs session.agent now (e := e)
  unfold createRoot at h ⊢
  cases hg : r.get r.root with
  | error f => rfl
  | ok found =>
    rw [hg] at h
    cases found with
    | some x => cases h
    | none =>
      dsimp only at h ⊢
      generalize r.transact now (foundRoot r.root session.agent) = out at h hstore
      obtain ⟨answer, r'⟩ := out
      cases answer with
      | ok c => cases h
      | error f =>
        cases h
        exact hstore rfl

end Repository

end LinkedData
