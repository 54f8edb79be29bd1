/-
  LinkedData.Proofs.Evaluation — transactions on a steady store, step by step.

  On a store that never fails every step of a transaction is a function of its state: `look` is
  what a transaction sees, `touch` and `ask` are its reads, `put` and `edit` its writes. The
  lemmas `eval_…` rewrite a step to that function. Reads change nothing that is seen; an edit
  changes the record of its holder and no other (`look_edits`), as long as every record is seen
  under its own identifier (`Tidy`).
-/

import LinkedData.Repository
import LinkedData.Proofs.Edits
import LinkedData.Proofs.Stores

namespace LinkedData

open Std SteadyStore

namespace Transaction

variable {σ α β : Type}

/-- The answer of a computation, and the transaction after it. -/
def eval (m : TransactionM σ α) (tx : Transaction σ) : Except Error α × Transaction σ := (m.run).run tx

/-! ## Sequences -/

@[simp] theorem eval_pure (a : α) (tx : Transaction σ) : eval (pure a) tx = (.ok a, tx) := rfl

@[simp] theorem eval_throw (e : Error) (tx : Transaction σ) :
    eval (throw e : TransactionM σ α) tx = (.error e, tx) := rfl

theorem eval_bind (m : TransactionM σ α) (f : α → TransactionM σ β) (tx : Transaction σ) :
    eval (m >>= f) tx = match eval m tx with
      | (.ok a, tx) => eval (f a) tx
      | (.error e, tx) => (.error e, tx) := by
  unfold eval
  simp only [ExceptT.run_bind, StateT.run_bind]
  cases (m.run).run tx with
  | mk answer tx => cases answer <;> rfl

theorem eval_bind_ok {m : TransactionM σ α} {f : α → TransactionM σ β} {tx tx' : Transaction σ} {a : α}
    (h : eval m tx = (.ok a, tx')) : eval (m >>= f) tx = eval (f a) tx' := by
  rw [eval_bind, h]

theorem eval_bind_error {m : TransactionM σ α} {f : α → TransactionM σ β} {tx tx' : Transaction σ} {e : Error}
    (h : eval m tx = (.error e, tx')) : eval (m >>= f) tx = (.error e, tx') := by
  rw [eval_bind, h]

theorem eval_get (tx : Transaction σ) : eval (get : TransactionM σ (Transaction σ)) tx = (.ok tx, tx) := rfl

theorem eval_liftExcept (x : Except Error α) (tx : Transaction σ) :
    eval (liftM x : TransactionM σ α) tx = (x, tx) := rfl

/-! ## What a transaction sees, reads and writes -/

/-- Written by a transaction. -/
def put (tx : Transaction σ) (r : Record) : Transaction σ := { tx with staged := tx.staged.insert r.id r }

/-- After the store was asked for `id`. -/
def ask (tx : Transaction σ) (id : Iri) : Transaction σ := { tx with reads := tx.reads.insert id }

/-- After `id` was read, which asks the store only for what was not staged. -/
def touch (tx : Transaction σ) (id : Iri) : Transaction σ := if id ∈ tx.staged then tx else tx.ask id

def touchAll (tx : Transaction σ) (ids : List Iri) : Transaction σ := ids.foldl touch tx

/-- After a blank node was drawn. -/
def draw (tx : Transaction σ) : Transaction σ := { tx with scopes := tx.scopes.arena.2 }

variable [RecordStore σ] [SteadyStore σ]

/-- The record of an identifier as a transaction sees it. -/
def look (tx : Transaction σ) (id : Iri) : Option Record := (tx.staged[id]?).or (find tx.store id)

def lookLive (tx : Transaction σ) (id : Iri) : Option Resource := (tx.look id).bind Record.live?

/-- The time at which `id` will be written. -/
def due (tx : Transaction σ) (id : Iri) : Instant :=
  nextTimestamp ((find tx.store id).map (·.resource.modified)) tx.now

def edit (tx : Transaction σ) (e : Edit) : Transaction σ :=
  match tx.lookLive e.holder with
  | some r => (tx.touch e.holder).put (.live (e.on r))
  | none => tx.touch e.holder

def edits (tx : Transaction σ) (es : List Edit) : Transaction σ := es.foldl edit tx

/-! ## The steps -/

theorem eval_stored (id : Iri) (tx : Transaction σ) : eval (stored id) tx = (.ok (find tx.store id), tx.ask id) := by
  unfold stored
  rw [eval_bind_ok (eval_get tx)]
  rw [eval_bind_ok (show eval (set _) tx = (.ok ⟨⟩, tx.ask id) from rfl)]
  rw [get_eq]
  rfl

theorem eval_record (id : Iri) (tx : Transaction σ) : eval (record id) tx = (.ok (tx.look id), tx.touch id) := by
  unfold record
  rw [eval_bind_ok (eval_get tx)]
  unfold look touch
  cases h : tx.staged[id]? with
  | some r =>
    have hm : id ∈ tx.staged := ExtTreeMap.mem_iff_isSome_getElem?.mpr (by rw [h]; rfl)
    rw [if_pos hm]
    rfl
  | none =>
    have hm : id ∉ tx.staged := fun hm => by
      rw [ExtTreeMap.mem_iff_isSome_getElem?, h] at hm
      cases hm
    rw [if_neg hm]
    exact eval_stored id tx

theorem eval_live (id : Iri) (tx : Transaction σ) : eval (live id) tx = (.ok (tx.lookLive id), tx.touch id) := by
  unfold live
  rw [eval_bind_ok (eval_record id tx)]
  rfl

theorem eval_timestamp (id : Iri) (tx : Transaction σ) : eval (timestamp id) tx = (.ok (tx.due id), tx.ask id) := by
  unfold timestamp
  rw [eval_bind_ok (eval_stored id tx)]
  rfl

omit [RecordStore σ] [SteadyStore σ] in
theorem eval_stage (r : Record) (tx : Transaction σ) : eval (stage r) tx = (.ok (), tx.put r) := rfl

theorem eval_updateLive (e : Edit) (tx : Transaction σ) :
    eval (updateLive e.holder e.on) tx = (.ok (), tx.edit e) := by
  unfold updateLive
  rw [eval_bind_ok (eval_live _ tx)]
  unfold edit
  cases tx.lookLive e.holder with
  | some r => exact eval_stage _ _
  | none => rfl

/-! ## What is seen after a step -/

theorem look_ask (tx : Transaction σ) (id : Iri) : (tx.ask id).look = tx.look := rfl

theorem look_draw (tx : Transaction σ) : tx.draw.look = tx.look := rfl

theorem look_touch (tx : Transaction σ) (id : Iri) : (tx.touch id).look = tx.look := by
  unfold touch
  split <;> rfl

theorem look_touchAll (tx : Transaction σ) (ids : List Iri) : (tx.touchAll ids).look = tx.look := by
  induction ids generalizing tx with
  | nil => rfl
  | cons id ids ih =>
    show ((tx.touch id).touchAll ids).look = _
    rw [ih, look_touch]

theorem look_put (tx : Transaction σ) (r : Record) (id : Iri) :
    (tx.put r).look id = if r.id = id then some r else tx.look id := by
  unfold look put
  rw [ExtTreeMap.getElem?_insert]
  by_cases h : r.id = id
  · simp [h]
  · simp [h, LawfulEqCmp.compare_eq_iff_eq]

theorem lookLive_congr {tx tx' : Transaction σ} (h : tx'.look = tx.look) : tx'.lookLive = tx.lookLive := by
  funext id
  rw [lookLive, h]
  rfl

/-- Every record is seen under its own identifier. -/
def Tidy (tx : Transaction σ) : Prop := ∀ id r, tx.look id = some r → r.id = id

theorem Tidy.congr {tx tx' : Transaction σ} (h : tx.Tidy) (hl : tx'.look = tx.look) : tx'.Tidy := by
  intro id r hr
  rw [hl] at hr
  exact h id r hr

theorem Tidy.id_eq {tx : Transaction σ} (h : tx.Tidy) {id : Iri} {x : Resource} (hx : tx.lookLive id = some x) :
    x.id = id := by
  obtain ⟨r, hr, hx⟩ := Option.bind_eq_some_iff.mp hx
  obtain ⟨-, rfl⟩ := Record.live?_eq_some.mp hx
  exact h id r hr

theorem Tidy.put {tx : Transaction σ} (h : tx.Tidy) (r : Record) : (tx.put r).Tidy := by
  intro id r' hr
  rw [look_put] at hr
  by_cases hid : r.id = id
  · rw [if_pos hid] at hr
    cases hr
    exact hid
  · rw [if_neg hid] at hr
    exact h id r' hr

theorem lookLive_eq_some {tx : Transaction σ} {id : Iri} {x : Resource} :
    tx.lookLive id = some x ↔ ∃ r, tx.look id = some r ∧ r.live? = some x :=
  Option.bind_eq_some_iff

theorem look_edit {tx : Transaction σ} (h : tx.Tidy) (e : Edit) (id : Iri) :
    (tx.edit e).look id = (tx.look id).map (·.edited [e]) := by
  unfold edit
  cases hx : tx.lookLive e.holder with
  | some x =>
    obtain ⟨r, hr, hl⟩ := lookLive_eq_some.mp hx
    have hid : x.id = e.holder := h.id_eq hx
    show (((tx.touch e.holder).put (.live (e.on x))).look id) = _
    rw [look_put, look_touch, Record.id_live, Edit.id_on, hid]
    by_cases he : e.holder = id
    · rw [if_pos he, ← he, hr, Option.map_some, Record.edited_self hl hid.symm]
    · rw [if_neg he]
      cases ho : tx.look id with
      | none => rfl
      | some o => rw [Option.map_some, Record.edited_of_ne (by rwa [h id o ho])]
  | none =>
    show (tx.touch e.holder).look id = _
    rw [look_touch]
    cases ho : tx.look id with
    | none => rfl
    | some o =>
      rw [Option.map_some]
      by_cases he : e.holder = id
      · rw [he, lookLive, ho] at hx
        rw [Record.edited_of_not_live hx]
      · rw [Record.edited_of_ne (by rwa [h id o ho])]

theorem Tidy.edit {tx : Transaction σ} (h : tx.Tidy) (e : Edit) : (tx.edit e).Tidy := by
  intro id r hr
  rw [look_edit h, Option.map_eq_some_iff] at hr
  obtain ⟨o, ho, rfl⟩ := hr
  rw [Record.id_edited]
  exact h id o ho

theorem Tidy.edits {tx : Transaction σ} (h : tx.Tidy) (es : List Edit) : (tx.edits es).Tidy := by
  induction es generalizing tx with
  | nil => exact h
  | cons e es ih => exact ih (h.edit e)

/-- Edits change what is seen record by record. -/
theorem look_edits {tx : Transaction σ} (h : tx.Tidy) (es : List Edit) (id : Iri) :
    (tx.edits es).look id = (tx.look id).map (·.edited es) := by
  induction es generalizing tx with
  | nil => simp [Transaction.edits]
  | cons e es ih =>
    show ((tx.edit e).edits es).look id = _
    rw [ih (h.edit e), look_edit h, Option.map_map]
    congr 1
    funext r
    exact (Record.edited_append r [e] es).symm

theorem lookLive_edits {tx : Transaction σ} (h : tx.Tidy) (es : List Edit) (id : Iri) :
    (tx.edits es).lookLive id = (tx.lookLive id).map (·.edited es) := by
  unfold lookLive
  rw [look_edits h]
  cases tx.look id with
  | none => rfl
  | some r => simp

end Transaction

/-! ## Many steps -/

namespace Mutation

open Transaction

variable {σ : Type} [RecordStore σ] [SteadyStore σ]

theorem eval_addMembers (ts : List MemberTriple) (tx : Transaction σ) :
    eval (addMembers ts) tx = (.ok (), tx.edits (ts.map .add)) := by
  induction ts generalizing tx with
  | nil => rfl
  | cons m ts ih =>
    unfold addMembers at ih ⊢
    rw [List.forM_eq_forM, List.forM_cons]
    exact (eval_bind_ok (eval_updateLive (.add m) tx)).trans (ih _)

theorem eval_removeMembers (ts : List MemberTriple) (tx : Transaction σ) :
    eval (removeMembers ts) tx = (.ok (), tx.edits (ts.map .drop)) := by
  induction ts generalizing tx with
  | nil => rfl
  | cons m ts ih =>
    unfold removeMembers at ih ⊢
    rw [List.forM_eq_forM, List.forM_cons]
    exact (eval_bind_ok (eval_updateLive (.drop m) tx)).trans (ih _)

theorem eval_liveOnes (ids : List Iri) (tx : Transaction σ) :
    eval (liveOnes ids) tx = (.ok (ids.filterMap tx.lookLive), tx.touchAll ids) := by
  induction ids generalizing tx with
  | nil => rfl
  | cons id ids ih =>
    unfold liveOnes at ih ⊢
    rw [List.filterMapM_cons, eval_bind_ok (eval_live id tx), List.filterMap_cons]
    have hl : (tx.touch id).lookLive = tx.lookLive := lookLive_congr (look_touch tx id)
    cases tx.lookLive id with
    | none =>
      dsimp only
      rw [ih (tx.touch id), hl]
      rfl
    | some r =>
      dsimp only
      rw [eval_bind_ok (ih (tx.touch id)), hl]
      rfl

end Mutation

end LinkedData
