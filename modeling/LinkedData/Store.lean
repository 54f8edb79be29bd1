/-
  LinkedData.Store — where records are kept.

  A store answers with the record of an identifier and takes batches of records: all of a
  batch or nothing of it. What is said of a repository is said of any store; here are two.
  A `Table` keeps records as they are and never fails. A `Disk` keeps their bytes, which may
  have been damaged.
-/

import LinkedData.Encoding.Record
import LinkedData.Error

namespace LinkedData

open Std

class RecordStore (σ : Type) where
  get : σ → Iri → Except StorageError (Option Record)
  putBatch : σ → List Record → Except StorageError σ

/-! ## A table -/

structure Table where
  records : ExtTreeMap Iri Record compare
  deriving DecidableEq

namespace Table

def empty : Table := ⟨∅⟩

def get? (t : Table) (id : Iri) : Option Record := t.records[id]?

def put (t : Table) (r : Record) : Table := ⟨t.records.insert r.id r⟩

instance : RecordStore Table := ⟨fun t id => .ok (t.get? id), fun t rs => .ok (rs.foldl put t)⟩

theorem get?_put (t : Table) (r : Record) (id : Iri) :
    (t.put r).get? id = if r.id = id then some r else t.get? id := by
  simp [get?, put, ExtTreeMap.getElem?_insert, LawfulEqCmp.compare_eq_iff_eq]

@[simp] theorem get?_empty (id : Iri) : empty.get? id = none := by simp [get?, empty]

theorem get_eq (t : Table) (id : Iri) : RecordStore.get t id = .ok (t.get? id) := rfl

theorem putBatch_eq (t : Table) (rs : List Record) : RecordStore.putBatch t rs = .ok (rs.foldl put t) := rfl

end Table

/-! ## A disk -/

structure Disk where
  cells : ExtTreeMap Iri Bytes compare
  deriving DecidableEq

namespace Disk

def empty : Disk := ⟨∅⟩

def get (d : Disk) (id : Iri) : Except StorageError (Option Record) :=
  match d.cells[id]? with
  | none => .ok none
  | some bytes =>
    match Encoding.decodeRecord bytes with
    | some (r, _) => .ok (some r)
    | none => .error (.undecodable "Failed to deserialize resource")

/-- Whatever `bytes` are, under `id`. -/
def putRaw (d : Disk) (id : Iri) (bytes : Bytes) : Disk := ⟨d.cells.insert id bytes⟩

def put (d : Disk) (r : Record) : Disk := d.putRaw r.id (Encoding.record r)

def putBatch (d : Disk) (rs : List Record) : Disk := rs.foldl put d

instance : RecordStore Disk := ⟨get, fun d rs => .ok (d.putBatch rs)⟩

end Disk

end LinkedData
