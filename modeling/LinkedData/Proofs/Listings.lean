/-
  LinkedData.Proofs.Listings — which live resources their parents list.

  A resource that is created comes on the list of its parent, and stays on it as long as both
  are live; a container that is created lists nothing yet, whatever there is below it
  (`Listing`). Children outlive a container that is deleted, and one that is created again does
  not take them back. So a live parent lists a live resource just if it has been live in every
  state that the resource has been live in (`listed_iff_attended`): children are orphaned by the
  deletion of their container and by nothing else (`orphan_unlisted`).
-/

import LinkedData.Proofs.Containment

namespace LinkedData

open Std SteadyStore Vocabulary

/-- `p` is a live container that lists `x`. -/
def Listed (see : Iri → Option Record) (p x : Iri) : Prop :=
  ∃ d, liveIn see p = some d ∧ d.isContainer = true ∧ Resource.containment p x ∈ d.serverGraph

/-- What a step does to lists. -/
structure Listing (root : Iri) (before after : Iri → Option Record) : Prop where
  born : ∀ {p x c}, Identifier.parent? root x = .ok (some p) → liveIn before x = none → liveIn after x = some c →
    Listed after p x
  kept : ∀ {p x c c' d d'}, Identifier.parent? root x = .ok (some p) → liveIn before x = some c →
    liveIn after x = some c' → liveIn before p = some d → liveIn after p = some d' →
      (Listed after p x ↔ Listed before p x)
  bare : ∀ {p x}, liveIn before p = none → ¬ Listed after p x

theorem Akin.listed {see see' : Iri → Option Record} (h : Akin see see') {p x : Iri} (hl : Listed see p x) :
    Listed see' p x := by
  obtain ⟨d, hd, hcont, hmem⟩ := hl
  obtain ⟨d', hd', -, hmod, hdat⟩ := h.symm.of_liveIn hd
  refine ⟨d', hd', ?_, ?_⟩
  · rw [Resource.isContainer, hmod]
    exact hcont
  · rw [Resource.serverGraph, hdat]
    exact hmem

theorem Listing.of_akin {root : Iri} {before after after' : Iri → Option Record} (h : Listing root before after)
    (ha : Akin after after') : Listing root before after' where
  born hp hx hx' := by
    obtain ⟨c, hc, -⟩ := ha.of_liveIn hx'
    exact ha.listed (h.born hp hx hc)
  kept hp hx hx' hd hd' := by
    obtain ⟨c, hc, -⟩ := ha.of_liveIn hx'
    obtain ⟨e, he, -⟩ := ha.of_liveIn hd'
    exact Iff.trans ⟨ha.symm.listed, ha.listed⟩ (h.kept hp hx hc hd he)
  bare hd hl := h.bare hd (ha.symm.listed hl)

theorem Listing.refl (root : Iri) (see : Iri → Option Record) : Listing root see see where
  born _ hx hx' := by rw [hx] at hx'; cases hx'
  kept _ _ _ _ _ := Iff.rfl
  bare hd hl := by
    obtain ⟨d, hd', -⟩ := hl
    rw [hd] at hd'
    cases hd'

namespace Hierarchy

variable {root : Iri} {see : Iri → Option Record} {p id agent : Iri} {time : Instant} {b : BlankNode} {op : Operation}
  {o : Outcome}

/-- A created resource is listed. -/
theorem listed_created (h : Hierarchy root see) {model : InteractionModel} {userGraph : Graph}
    {binary : Option Binary} (hp : Identifier.parent? root id = .ok (some p))
    (ho : Mutation.Comes see p id agent time b (.create model userGraph binary) o) :
    Listed (o.applyTo id see) p id := by
  cases ho with
  | @create _ _ _ container x hid hpar hcont hx =>
    obtain ⟨as, has, hmem⟩ := Upkeep.join_edits p container id x
    refine ⟨container.edited (as.map .add), ?_, ?_, ?_⟩
    · rw [Outcome.liveIn_applyTo_of_ne _ see (Ne.symm (Identifier.parent?_ne hp)), hpar, has]
      rfl
    · rwa [Resource.isContainer, Resource.model_edited]
    · rw [Resource.mem_serverGraph_adds, h.id_eq hpar]
      exact .inr ((hmem _).mpr (.inl rfl))

/-- No list but that of the parent of the target is edited. -/
theorem containment_edited (hl : o.Lawful see p id) {d : Resource} {q x : Iri} (hne : d.id ≠ p ∨ x ≠ id) :
    Resource.containment q x ∈ (d.edited o.edits).serverGraph ↔ Resource.containment q x ∈ d.serverGraph := by
  refine Resource.mem_serverGraph_edited_of_not_mem fun e he hmem => ?_
  have hm := hl.edits e he (by rw [hmem]; rfl)
  rw [hmem] at hm
  cases hm
  rcases hne with hne | hne <;> exact hne rfl

/-- A target that was live and still is was replaced: the server's graph is as it was. -/
theorem own_graph (ho : Mutation.Comes see p id agent time b op o) {c y : Resource} (hc : liveIn see id = some c)
    (hy : o.target.live? = some y) : y.model = c.model ∧ y.serverGraph = c.serverGraph := by
  cases ho with
  | create hid => rw [hid] at hc; cases hc
  | replace hid _ hx =>
    rw [hid] at hc
    cases hc
    cases hy
    rw [← hx]
    exact ⟨rfl, Mutation.serverGraph_revised _ _ _ _ _⟩
  | delete => cases hy

theorem listing_applyTo (h : Hierarchy root see) (hp : Identifier.parent? root id = .ok (some p))
    (hc : op.Checked root.text) (ho : Mutation.Comes see p id agent time b op o) :
    Listing root see (o.applyTo id see) := by
  have hl := h.lawful hp hc ho
  refine ⟨fun {q x c} hq hx hx' => ?_, fun {q x c c' d d'} hq hx hx' hd hd' => ?_, fun {q x} hq hlisted => ?_⟩
  · rcases liveIn_applyTo hx' with ⟨rfl, y, hy, -⟩ | ⟨-, y, hy, -⟩
    · rw [hp] at hq
      cases hq
      cases op with
      | create model userGraph binary => exact h.listed_created hp ho
      | replace userGraph expected =>
        cases ho with
        | replace hid => rw [hid] at hx; cases hx
      | delete =>
        cases ho with
        | delete hid => rw [hid] at hx; cases hx
    · rw [hy] at hx
      cases hx
  · -- the entry itself is only edited when its resource comes or goes
    have hsame : ∀ e : Resource, Resource.containment q x ∈ (e.edited o.edits).serverGraph ↔
        Resource.containment q x ∈ e.serverGraph := by
      intro e
      by_cases hxid : x = id
      · subst hxid
        cases op with
        | create model userGraph binary =>
          cases ho with
          | create hid => rw [hid] at hx; cases hx
        | replace userGraph expected =>
          obtain ⟨m, -, hm⟩ := hc
          refine Resource.mem_serverGraph_edited_of_not_mem fun f hf hmem => ?_
          exact h.edits_replace hp hm ho f hf (by rw [hmem]; rfl)
        | delete =>
          cases ho with
          | delete => rw [Outcome.liveIn_applyTo_self] at hx'; cases hx'
      · exact containment_edited hl (.inr hxid)
    have hgraph : d'.model = d.model ∧
        (Resource.containment q x ∈ d'.serverGraph ↔ Resource.containment q x ∈ d.serverGraph) := by
      rcases liveIn_applyTo hd' with ⟨rfl, y, hy, rfl⟩ | ⟨-, y, hy, rfl⟩
      · obtain ⟨hmodel, hserver⟩ := own_graph ho hd hy
        rw [Resource.model_edited, hsame, hserver]
        exact ⟨hmodel, Iff.rfl⟩
      · rw [hd] at hy
        cases hy
        exact ⟨Resource.model_edited _ _, hsame d⟩
    simp only [Listed, hd, hd', Option.some.injEq, exists_eq_left', Resource.isContainer, hgraph.1, hgraph.2]
  · obtain ⟨d, hd, -, hmem⟩ := hlisted
    rcases liveIn_applyTo hd with ⟨rfl, y, hy, rfl⟩ | ⟨-, y, hy, -⟩
    · have hyid : y.id = id := by
        obtain ⟨-, rfl⟩ := Record.live?_eq_some.mp hy
        exact hl.target
      rw [containment_edited hl (.inl (by rw [hyid]; exact (Identifier.parent?_ne hp).symm))] at hmem
      obtain ⟨c, hc, -⟩ := hl.contains hy hmem rfl
      rw [hq] at hc
      cases hc
    · rw [hq] at hy
      cases hy

/-- The root is no child, and has no children when it is made. -/
theorem listing_founded (hl : liveIn see root = none) :
    Listing root see (Outcome.applyTo ⟨.live (Mutation.founded root agent time b), []⟩ root see) where
  born {q x c} hq hx hx' := by
    rcases liveIn_applyTo hx' with ⟨rfl, -⟩ | ⟨-, y, hy, -⟩
    · exact absurd rfl (Identifier.parent?_eq_some hq).1
    · rw [hy] at hx
      cases hx
  kept {q x c c' d d'} hq hx hx' hd hd' := by
    rcases liveIn_applyTo hd' with ⟨rfl, -⟩ | ⟨-, y, hy, rfl⟩
    · rw [hl] at hd
      cases hd
    · rw [hd] at hy
      cases hy
      simp only [Listed, hd, hd']
  bare {q x} hq hlisted := by
    obtain ⟨d, hd, -, hmem⟩ := hlisted
    rcases liveIn_applyTo hd with ⟨rfl, y, hy, rfl⟩ | ⟨-, y, hy, -⟩
    · cases hy
      have htype := Mutation.mem_serverGraph_founded.mp hmem
      exact absurd (congrArg Triple.predicate htype) (show Ldp.contains ≠ Rdf.type by decide)
    · rw [hq] at hy
      cases hy

end Hierarchy

/-! ## Runs -/

theorem Repository.Moved.listing {σ : Type} [RecordStore σ] [KeyedStore σ] {r r' : Repository σ} (hm : Moved r r')
    (h : Hierarchy r.root (find r.store)) : Listing r.root (find r.store) (find r'.store) := by
  cases hm with
  | still hr hs =>
    rw [hs]
    exact .refl _ _
  | founded hl ha => exact (Hierarchy.listing_founded hl).of_akin ha.content
  | mutated hr hp hc ho ha =>
    unfold outcomeAt Mutation.outcomeFrom at ho
    rw [Transaction.look_begin] at ho
    exact (h.listing_applyTo hp hc (Mutation.comes_of_outcome ho)).of_akin ha.content

namespace Service

open Repository

variable {σ α ε : Type} [RecordStore σ] [KeyedStore σ] [MementoStore α] [BlobStore α] [EventSink ε]
  {s : Service σ α ε} {past : List (Service σ α ε)}

theorem root_serve (hk : SelfKeyed s.repository.store) (now : Instant) (q : Request) : (s.serve now q).root = s.root :=
  (serve_moved hk now q).root

omit [KeyedStore σ] [MementoStore α] [BlobStore α] [EventSink ε] in
/-- `p` has been live in every state of the present life of `x`, this one apart. -/
def Attended (past : List (Service σ α ε)) (p x : Iri) : Prop :=
  ∀ e ∈ past.takeWhile (·.alive x), e.alive p = true

omit [KeyedStore σ] [MementoStore α] [BlobStore α] [EventSink ε] in
theorem attended_cons {p x : Iri} : Attended (s :: past) p x ↔
    (s.alive x = true → s.alive p = true ∧ Attended past p x) := by
  unfold Attended
  rw [List.takeWhile_cons]
  by_cases hx : s.alive x = true
  · simp [hx]
  · simp [hx]

/-- A live resource is listed just if its live parent has attended its whole life. -/
theorem Trace.listed_iff (h : Trace s past) {p x : Iri} (hp : Identifier.parent? s.root x = .ok (some p))
    (hx : s.alive x = true) (hd : s.alive p = true) :
    Listed (find s.repository.store) p x ↔ Attended past p x := by
  induction h with
  | empty hs => simp [alive_eq, liveIn, hs] at hx
  | @serve s past now q h ih =>
    have hk := h.reachable.selfKeyed
    have hl := (serve_moved hk now q).listing h.reachable.hierarchy
    rw [root_serve hk] at hp
    rw [alive_eq] at hx hd
    obtain ⟨c', hx'⟩ := Option.isSome_iff_exists.mp hx
    obtain ⟨d', hd'⟩ := Option.isSome_iff_exists.mp hd
    rw [attended_cons, alive_eq s x, alive_eq s p]
    cases hx₀ : liveIn (find s.repository.store) x with
    | none => simpa using hl.born hp hx₀ hx'
    | some c =>
      cases hd₀ : liveIn (find s.repository.store) p with
      | none => simpa using hl.bare hd₀
      | some d =>
        rw [hl.kept hp hx₀ hx' hd₀ hd', ih hp (by rw [alive_eq, hx₀]; rfl) (by rw [alive_eq, hd₀]; rfl)]
        simp

/-- A live resource whose parent is live is listed by it just if the parent has been live as long as
    the resource has. -/
theorem listed_iff_attended (h : Trace s past) {p x : Iri} {c d : Resource}
    (hp : Identifier.parent? s.root x = .ok (some p)) (hx : s.get x = .ok (some c)) (hd : s.get p = .ok (some d)) :
    (d.isContainer = true ∧ Resource.containment p x ∈ d.serverGraph) ↔
      ∀ e ∈ past.takeWhile (·.alive x), e.alive p = true := by
  rw [get_eq_ok] at hx hd
  have hlisted := h.listed_iff hp (by rw [alive_eq, hx]; rfl) (by rw [alive_eq, hd]; rfl)
  simp only [Listed, hd, Option.some.injEq, exists_eq_left'] at hlisted
  exact hlisted

/-! A container with a resource in it, which is deleted and made again before the resource is replaced. -/

def made : Service Table Archive Sink := blank.serve ⟨1, 0⟩ .makeRoot

def shelved : Service Table Archive Sink :=
  made.serve ⟨2, 0⟩ (.create ⟨"trellis:data/c"⟩ .basicContainer .empty (.anonymous ⟨2, 0⟩))

def filled : Service Table Archive Sink :=
  shelved.serve ⟨3, 0⟩ (.create ⟨"trellis:data/c/x"⟩ .rdfSource .empty (.anonymous ⟨3, 0⟩))

def reopened : Service Table Archive Sink :=
  (filled.serve ⟨4, 0⟩ (.delete ⟨"trellis:data/c"⟩ (.anonymous ⟨4, 0⟩))).serve ⟨5, 0⟩
    (.create ⟨"trellis:data/c"⟩ .basicContainer .empty (.anonymous ⟨5, 0⟩))

def orphaned : Service Table Archive Sink :=
  reopened.serve ⟨6, 0⟩ (.replace ⟨"trellis:data/c/x"⟩ .empty (.anonymous ⟨6, 0⟩))

theorem trace_filled : filled.Trace [shelved, made, blank] := by
  unfold filled shelved made
  exact .serve _ _ (.serve _ _ (.serve _ _ (.empty Table.get?_empty)))

/-- Before the container is deleted it lists the resource, and has been live as long. -/
theorem filled_listed : filled.Trace [shelved, made, blank] ∧
    Identifier.parent? filled.root ⟨"trellis:data/c/x"⟩ = .ok (some ⟨"trellis:data/c"⟩) ∧
    ∃ c d, filled.get ⟨"trellis:data/c/x"⟩ = .ok (some c) ∧ filled.get ⟨"trellis:data/c"⟩ = .ok (some d) ∧
      (d.isContainer = true ∧ Resource.containment ⟨"trellis:data/c"⟩ ⟨"trellis:data/c/x"⟩ ∈ d.serverGraph) ∧
      ∀ e ∈ [shelved, made, blank].takeWhile (·.alive ⟨"trellis:data/c/x"⟩),
        e.alive ⟨"trellis:data/c"⟩ = true := by
  have hparent : Identifier.parent? filled.root ⟨"trellis:data/c/x"⟩ =
      .ok (some ⟨"trellis:data/c"⟩) := by decide +kernel
  have hx : filled.alive ⟨"trellis:data/c/x"⟩ = true := by decide +kernel
  have hp : filled.alive ⟨"trellis:data/c"⟩ = true := by decide +kernel
  have hlater : ∀ e ∈ [shelved, made, blank].takeWhile (·.alive ⟨"trellis:data/c/x"⟩),
      e.alive ⟨"trellis:data/c"⟩ = true := by
    decide +kernel
  obtain ⟨c, hc⟩ := alive_iff.mp hx
  obtain ⟨d, hd⟩ := alive_iff.mp hp
  exact ⟨trace_filled, hparent, c, d, hc, hd, (listed_iff_attended trace_filled hparent hc hd).mpr hlater, hlater⟩

/-- The container that was made again does not list the resource, which is live below it. -/
theorem orphan_unlisted : orphaned.Reachable ∧
    Identifier.parent? orphaned.root ⟨"trellis:data/c/x"⟩ = .ok (some ⟨"trellis:data/c"⟩) ∧
      orphaned.alive ⟨"trellis:data/c/x"⟩ = true ∧
    (orphaned.get ⟨"trellis:data/c"⟩).map (·.map fun d => (d.isContainer, d.children)) = .ok (some (true, [])) := by
  refine ⟨?_, by decide +kernel, by decide +kernel, by decide +kernel⟩
  unfold orphaned reopened
  exact .serve _ _ (.serve _ _ (.serve _ _ trace_filled.reachable))

end Service

end LinkedData
