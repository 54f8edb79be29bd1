/-
  LinkedData.Memento — the history of resources: their states at the times they had them.

  A memento store keeps states by identifier and time. Asked for a time, it answers with the
  latest state that was recorded by then. A write can fail; the store it leaves is given back
  in any case.
-/

import LinkedData.Error
import LinkedData.Resource

namespace LinkedData

class MementoStore (μ : Type) where
  /-- Record a state; one recorded for the same time before is replaced. -/
  put : μ → Iri → Instant → Resource → Except StorageError Unit × μ
  /-- The times of the states recorded, ascending. -/
  list : μ → Iri → Except StorageError (List Instant)
  /-- The state as of a time. -/
  get : μ → Iri → Instant → Except StorageError (Option Resource)
  /-- Remove the state of exactly this time; says whether there was one. -/
  delete : μ → Iri → Instant → Except StorageError Bool × μ

namespace Memento

/-- The greatest of some ascending times that is not after `at_`. -/
def select (times : List Instant) (at_ : Instant) : Option Instant := (times.takeWhile (· ≤ at_)).getLast?

end Memento

end LinkedData
