/-
  LinkedData.Proofs.Stores — stores that never fail.

  A steady store answers every read and takes every batch. A keyed store is a steady one that
  gives back what was last written under an identifier. A `Table` is keyed. What is proved of
  repositories is proved for any of them; a store whose reads do not see its writes is still
  steady, which is what a writer sees of a store that others write too.
-/

import LinkedData.Store

namespace LinkedData

open Std

/-- A store without faults: what it holds under an identifier, and what it is after a batch. -/
class SteadyStore (σ : Type) [RecordStore σ] where
  find : σ → Iri → Option Record
  write : σ → List Record → σ
  get_eq : ∀ (s : σ) (id : Iri), RecordStore.get s id = .ok (find s id)
  putBatch_eq : ∀ (s : σ) (rs : List Record), RecordStore.putBatch s rs = .ok (write s rs)

/-- A batch without repetitions is found again, and nothing else changes. -/
class KeyedStore (σ : Type) [RecordStore σ] extends SteadyStore σ where
  find_write_of_mem : ∀ (s : σ) {rs : List Record} {r : Record}, (rs.map Record.id).Nodup → r ∈ rs →
    find (write s rs) r.id = some r
  find_write_of_not_mem : ∀ (s : σ) {rs : List Record} {id : Iri}, id ∉ rs.map Record.id →
    find (write s rs) id = find s id

/-! ## Entries put one after another -/

section

variable {σ κ α β : Type} [DecidableEq κ] (lookup : σ → κ → Option α) {put : σ → β → σ}
  {key : β → κ} {value : β → α}
  (hput : ∀ s b k, lookup (put s b) k = if key b = k then some (value b) else lookup s k)

include hput

theorem lookup_foldl_of_not_mem (s : σ) {bs : List β} {k : κ} (h : k ∉ bs.map key) :
    lookup (bs.foldl put s) k = lookup s k := by
  induction bs generalizing s with
  | nil => rfl
  | cons b bs ih =>
    simp only [List.map_cons, List.mem_cons, not_or] at h
    rw [List.foldl_cons, ih _ h.2, hput, if_neg (Ne.symm h.1)]

theorem lookup_foldl_of_mem (s : σ) {bs : List β} {b : β} (hn : (bs.map key).Nodup) (h : b ∈ bs) :
    lookup (bs.foldl put s) (key b) = some (value b) := by
  induction bs generalizing s with
  | nil => cases h
  | cons a bs ih =>
    simp only [List.map_cons, List.nodup_cons] at hn
    rw [List.foldl_cons]
    rcases List.mem_cons.mp h with rfl | h
    · rw [lookup_foldl_of_not_mem lookup hput _ hn.1, hput, if_pos rfl]
    · exact ih _ hn.2 h

end

instance : KeyedStore Table where
  find := Table.get?
  write t rs := rs.foldl Table.put t
  get_eq := Table.get_eq
  putBatch_eq := Table.putBatch_eq
  find_write_of_mem := lookup_foldl_of_mem Table.get? Table.get?_put
  find_write_of_not_mem := lookup_foldl_of_not_mem Table.get? Table.get?_put

/-! ## Records under their own identifiers -/

open SteadyStore

variable {σ : Type} [RecordStore σ] [SteadyStore σ]

/-- Every record is kept under its own identifier. -/
def SelfKeyed (s : σ) : Prop := ∀ id r, find s id = some r → r.id = id

/-- The live resource under an identifier. -/
def findLive (s : σ) (id : Iri) : Option Resource := (find s id).bind Record.live?

theorem Record.live?_eq_some {r : Record} {x : Resource} : r.live? = some x ↔ r.isLive = true ∧ r.resource = x := by
  unfold live?
  split <;> simp_all

@[simp] theorem Record.live?_live (x : Resource) : (Record.live x).live? = some x := rfl

@[simp] theorem Record.live?_tombstone (x : Resource) : (Record.tombstone x).live? = none := rfl

@[simp] theorem Record.id_live (x : Resource) : (Record.live x).id = x.id := rfl

@[simp] theorem Record.id_tombstone (x : Resource) : (Record.tombstone x).id = x.id := rfl

/-! ## Batches -/

section

variable {σ : Type} [RecordStore σ] [KeyedStore σ] {s : σ} {rs : List Record} {x : Iri}

/-- Two stores that hold the same under an identifier do so after the same batch. -/
theorem find_write_congr {τ : Type} [RecordStore τ] [KeyedStore τ] {t : τ} (hn : (rs.map Record.id).Nodup)
    (h : find s x = find t x) : find (write s rs) x = find (write t rs) x := by
  by_cases hx : x ∈ rs.map Record.id
  · obtain ⟨r, hr, rfl⟩ := List.mem_map.mp hx
    rw [KeyedStore.find_write_of_mem s hn hr, KeyedStore.find_write_of_mem t hn hr]
  · rw [KeyedStore.find_write_of_not_mem s hx, KeyedStore.find_write_of_not_mem t hx, h]

theorem SelfKeyed.write (h : SelfKeyed s) (hn : (rs.map Record.id).Nodup) : SelfKeyed (write s rs) := by
  intro x r hr
  by_cases hx : x ∈ rs.map Record.id
  · obtain ⟨r', hr', rfl⟩ := List.mem_map.mp hx
    rw [KeyedStore.find_write_of_mem s hn hr'] at hr
    cases hr
    rfl
  · rw [KeyedStore.find_write_of_not_mem s hx] at hr
    exact h x r hr

end

end LinkedData
