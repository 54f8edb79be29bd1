/-
  LinkedData.Proofs.Edits — changes of server graphs.

  Everything that a mutation does to resources other than its target, and everything that
  membership does to the target itself, is a list of edits: a triple added to, or dropped from,
  the server graph of a holder. An edited resource keeps its identifier, model, time, binary and
  every graph but the server's (`edited_…`), so it is the same container with the same
  membership as before (`ofContainer?_edited`), and it contributes the same triples
  (`triples_edited`).
-/

import LinkedData.Membership

namespace LinkedData

open Std Vocabulary

/-- A triple comes into the server graph of its holder, or goes from it. -/
inductive Edit
  | add (m : MemberTriple)
  | drop (m : MemberTriple)
  deriving DecidableEq, Repr

namespace Edit

def member : Edit → MemberTriple
  | add m | drop m => m

def holder (e : Edit) : Iri := e.member.holder

def on : Edit → Resource → Resource
  | add m, r => r.updateServer (·.insert m.triple)
  | drop m, r => r.updateServer (·.erase m.triple)

end Edit

namespace Resource

theorem graph_updateServer (r : Resource) (f : Graph → Graph) (n : GraphName) :
    (r.updateServer f).dataset.graph n = if n = .server then f r.serverGraph else r.dataset.graph n := by
  by_cases h : n = .server
  · subst h
    simp [updateServer, serverGraph, Dataset.serverGraph]
  · rw [if_neg h]
    exact Dataset.graph_update_of_ne _ (Ne.symm h) f

/-- `r` after those of some edits that are its own. -/
def edited (r : Resource) : List Edit → Resource
  | [] => r
  | e :: es => (if e.holder = r.id then e.on r else r).edited es

@[simp] theorem edited_nil (r : Resource) : r.edited [] = r := rfl

theorem edited_cons (r : Resource) (e : Edit) (es : List Edit) :
    r.edited (e :: es) = (if e.holder = r.id then e.on r else r).edited es := rfl

end Resource

namespace Edit

@[simp] theorem id_on (e : Edit) (r : Resource) : (e.on r).id = r.id := by cases e <;> rfl

@[simp] theorem model_on (e : Edit) (r : Resource) : (e.on r).model = r.model := by cases e <;> rfl

@[simp] theorem modified_on (e : Edit) (r : Resource) : (e.on r).modified = r.modified := by cases e <;> rfl

@[simp] theorem binary_on (e : Edit) (r : Resource) : (e.on r).binary = r.binary := by cases e <;> rfl

theorem graph_on (e : Edit) (r : Resource) {n : GraphName} (h : n ≠ .server) :
    (e.on r).dataset.graph n = r.dataset.graph n := by
  cases e <;> simp [on, Resource.graph_updateServer, h]

theorem mem_serverGraph_on_add {m : MemberTriple} {r : Resource} {t : Triple} :
    t ∈ ((add m).on r).serverGraph ↔ t = m.triple ∨ t ∈ r.serverGraph := by
  show t ∈ (r.updateServer _).dataset.graph .server ↔ _
  rw [Resource.graph_updateServer, if_pos rfl, ExtTreeSet.mem_insert, LawfulEqCmp.compare_eq_iff_eq]
  simp only [eq_comm]

theorem mem_serverGraph_on_drop {m : MemberTriple} {r : Resource} {t : Triple} :
    t ∈ ((drop m).on r).serverGraph ↔ t ≠ m.triple ∧ t ∈ r.serverGraph := by
  show t ∈ (r.updateServer _).dataset.graph .server ↔ _
  rw [Resource.graph_updateServer, if_pos rfl, ExtTreeSet.mem_erase, ne_eq, LawfulEqCmp.compare_eq_iff_eq]
  simp only [eq_comm, ne_eq]

end Edit

namespace Resource

/-! ## What an edited resource keeps -/

@[simp] theorem id_edited (r : Resource) (es : List Edit) : (r.edited es).id = r.id := by
  induction es generalizing r with
  | nil => rfl
  | cons e es ih => rw [edited_cons, ih]; split <;> simp

@[simp] theorem model_edited (r : Resource) (es : List Edit) : (r.edited es).model = r.model := by
  induction es generalizing r with
  | nil => rfl
  | cons e es ih => rw [edited_cons, ih]; split <;> simp

@[simp] theorem modified_edited (r : Resource) (es : List Edit) : (r.edited es).modified = r.modified := by
  induction es generalizing r with
  | nil => rfl
  | cons e es ih => rw [edited_cons, ih]; split <;> simp

@[simp] theorem binary_edited (r : Resource) (es : List Edit) : (r.edited es).binary = r.binary := by
  induction es generalizing r with
  | nil => rfl
  | cons e es ih => rw [edited_cons, ih]; split <;> simp

theorem graph_edited (r : Resource) (es : List Edit) {n : GraphName} (h : n ≠ .server) :
    (r.edited es).dataset.graph n = r.dataset.graph n := by
  induction es generalizing r with
  | nil => rfl
  | cons e es ih => rw [edited_cons, ih]; split <;> simp [Edit.graph_on _ _ h]

@[simp] theorem userGraph_edited (r : Resource) (es : List Edit) : (r.edited es).userGraph = r.userGraph :=
  graph_edited r es (by decide)

@[simp] theorem auditGraph_edited (r : Resource) (es : List Edit) : (r.edited es).auditGraph = r.auditGraph :=
  graph_edited r es (by decide)

@[simp] theorem edited_append (r : Resource) (es fs : List Edit) : r.edited (es ++ fs) = (r.edited es).edited fs := by
  induction es generalizing r with
  | nil => rfl
  | cons e es ih => rw [List.cons_append, edited_cons, ih, edited_cons]

/-! ## The server graph of an edited resource -/

/-- A triple that no edit is about stays as it was. -/
theorem mem_serverGraph_edited_of_not_mem {r : Resource} {es : List Edit} {t : Triple}
    (h : ∀ e ∈ es, e.member ≠ ⟨r.id, t⟩) : t ∈ (r.edited es).serverGraph ↔ t ∈ r.serverGraph := by
  induction es generalizing r with
  | nil => rfl
  | cons e es ih =>
    rw [edited_cons]
    by_cases he : e.holder = r.id
    · have hne : t ≠ e.member.triple := fun ht => h e List.mem_cons_self (by rw [← he, ht]; rfl)
      rw [if_pos he, ih (by simpa using fun e' he' => h e' (List.mem_cons_of_mem _ he'))]
      cases e with
      | add m => rw [Edit.mem_serverGraph_on_add]; exact ⟨fun h' => h'.resolve_left hne, .inr⟩
      | drop m => rw [Edit.mem_serverGraph_on_drop]; exact ⟨And.right, fun h' => ⟨hne, h'⟩⟩
    · rw [if_neg he, ih fun e' he' => h e' (List.mem_cons_of_mem _ he')]

theorem mk_eq_iff {m : MemberTriple} {id : Iri} {t : Triple} (h : m.holder = id) :
    (⟨id, t⟩ : MemberTriple) = m ↔ t = m.triple := by
  subst h
  exact ⟨fun e => by rw [← e], fun e => by rw [e]⟩

theorem mem_serverGraph_adds {r : Resource} {ts : List MemberTriple} {t : Triple} :
    t ∈ (r.edited (ts.map .add)).serverGraph ↔ t ∈ r.serverGraph ∨ ⟨r.id, t⟩ ∈ ts := by
  induction ts generalizing r with
  | nil => simp
  | cons m ts ih =>
    rw [List.map_cons, edited_cons, List.mem_cons]
    by_cases he : m.holder = r.id
    · rw [if_pos (show (Edit.add m).holder = r.id from he), ih, Edit.mem_serverGraph_on_add, Edit.id_on, mk_eq_iff he]
      simp only [or_assoc, or_left_comm]
    · have hm : ⟨r.id, t⟩ ≠ m := fun e => he (by rw [← e])
      rw [if_neg (show ¬ (Edit.add m).holder = r.id from he), ih]
      simp [hm]

theorem mem_serverGraph_drops {r : Resource} {ts : List MemberTriple} {t : Triple} :
    t ∈ (r.edited (ts.map .drop)).serverGraph ↔ t ∈ r.serverGraph ∧ ⟨r.id, t⟩ ∉ ts := by
  induction ts generalizing r with
  | nil => simp
  | cons m ts ih =>
    rw [List.map_cons, edited_cons, List.mem_cons, not_or]
    by_cases he : m.holder = r.id
    · rw [if_pos (show (Edit.drop m).holder = r.id from he), ih, Edit.mem_serverGraph_on_drop, Edit.id_on, mk_eq_iff he]
      simp only [and_assoc, and_left_comm, ne_eq]
    · have hm : ⟨r.id, t⟩ ≠ m := fun e => he (by rw [← e])
      rw [if_neg (show ¬ (Edit.drop m).holder = r.id from he), ih]
      simp [hm]

end Resource

/-! ## Membership only looks at what edits leave alone -/

namespace Membership

/-- Two states of a resource that agree in identifier, model and user graph are one container. -/
theorem ofContainer?_congr {r r' : Resource} (hi : r'.id = r.id) (hm : r'.model = r.model)
    (hu : r'.userGraph = r.userGraph) : ofContainer? r' = ofContainer? r := by
  simp only [ofContainer?, relationOf, insertedContentOf, firstIri, hi, hm, hu]

theorem triples_congr (m : Membership) {r r' : Resource} (hi : r'.id = r.id) (hu : r'.userGraph = r.userGraph) :
    m.triples r' = m.triples r := by
  simp only [triples, members, hi, hu]

@[simp] theorem ofContainer?_edited (r : Resource) (es : List Edit) : ofContainer? (r.edited es) = ofContainer? r :=
  ofContainer?_congr (by simp) (by simp) (by simp)

@[simp] theorem triples_edited (m : Membership) (r : Resource) (es : List Edit) :
    m.triples (r.edited es) = m.triples r :=
  m.triples_congr (by simp) (by simp)

end Membership

/-! ## Edited records -/

/-- A live record after some edits; a tombstone is as it was. -/
def Record.edited (r : Record) (es : List Edit) : Record := if r.isLive then .live (r.resource.edited es) else r

namespace Record

@[simp] theorem edited_nil (r : Record) : r.edited [] = r := by
  unfold edited
  split
  · next h =>
    cases r
    simp_all [live, isLive]
  · rfl

@[simp] theorem live?_edited (r : Record) (es : List Edit) : (r.edited es).live? = r.live?.map (·.edited es) := by
  unfold edited live?
  split <;> simp_all [live, isLive]

@[simp] theorem id_edited (r : Record) (es : List Edit) : (r.edited es).id = r.id := by
  unfold edited
  split <;> simp [id, live]

@[simp] theorem isLive_edited (r : Record) (es : List Edit) : (r.edited es).isLive = r.isLive := by
  unfold edited
  split <;> simp_all [live, isLive]

/-- The edits of other holders leave a record alone. -/
theorem edited_of_ne {r : Record} {e : Edit} (h : e.holder ≠ r.id) : r.edited [e] = r := by
  have hr : r.resource.edited [e] = r.resource := by
    rw [Resource.edited_cons, if_neg (show ¬ e.holder = r.resource.id from h), Resource.edited_nil]
  rw [edited, hr]
  exact edited_nil r

theorem edited_of_not_live {r : Record} {es : List Edit} (h : r.live? = none) : r.edited es = r := by
  unfold live? at h
  unfold edited
  split <;> simp_all

theorem edited_self {r : Record} {x : Resource} {e : Edit} (h : r.live? = some x) (he : e.holder = x.id) :
    r.edited [e] = live (e.on x) := by
  unfold live? at h
  split at h
  · next hl =>
    cases h
    rw [edited, if_pos hl, Resource.edited_cons, if_pos he, Resource.edited_nil]
  · cases h

theorem edited_append (r : Record) (es fs : List Edit) : r.edited (es ++ fs) = (r.edited es).edited fs := by
  cases h : r.isLive with
  | true => simp only [edited, h, if_true, Resource.edited_append]; rfl
  | false => simp [edited, h]

end Record

end LinkedData
