/-
  LinkedData.Proofs.TypeTriples — what becomes of the type triple.

  The server says in its graph of a resource what model the resource has, when the resource is
  created, and never again. In the same graph it keeps the member triples, and takes them out by
  their value. A client may choose `rdf:type` for the relation of a container, and a model for a
  member, so a member triple can be the type triple of its holder. A step takes the type triple
  of a resource away only if, before it, some child contributed that very triple to its parent's
  membership (`Labelling`). So a live resource has its type triple, unless some child contributed
  it in a state of the resource's present life (`typing_kept_or_offered`); and then it can be lost
  (`kind_lost`).
-/

import LinkedData.Proofs.SharedMembers

namespace LinkedData

open Std SteadyStore Vocabulary

/-- What a step does to type triples, where identifiers are below `root`. -/
structure Labelling (root : Iri) (before after : Iri → Option Record) : Prop where
  born : ∀ {x r}, liveIn before x = none → liveIn after x = some r → Resource.typing x r.model ∈ r.serverGraph
  model : ∀ {x c r}, liveIn before x = some c → liveIn after x = some r → r.model = c.model
  kept : ∀ {x c r}, liveIn before x = some c → liveIn after x = some r →
    Resource.typing x c.model ∈ c.serverGraph →
    Resource.typing x c.model ∈ r.serverGraph ∨
      ∃ p y, Identifier.parent? root y = .ok (some p) ∧ Gives before p y ⟨x, Resource.typing x c.model⟩

namespace Labelling

variable {root : Iri} {before after after' : Iri → Option Record}

theorem refl (root : Iri) (see : Iri → Option Record) : Labelling root see see where
  born hx hx' := by
    rw [hx] at hx'
    cases hx'
  model hx hx' := by
    rw [hx] at hx'
    cases hx'
    rfl
  kept hx hx' ht := by
    rw [hx] at hx'
    cases hx'
    exact .inl ht

theorem of_akin (h : Labelling root before after) (ha : Akin after after') : Labelling root before after' where
  born hx hx' := by
    obtain ⟨r, hr, -, hmodel, hdata⟩ := ha.of_liveIn hx'
    rw [Resource.serverGraph, ← hmodel, ← hdata]
    exact h.born hx hr
  model hx hx' := by
    obtain ⟨r, hr, -, hmodel, -⟩ := ha.of_liveIn hx'
    rw [← hmodel]
    exact h.model hx hr
  kept hx hx' ht := by
    obtain ⟨r, hr, -, -, hdata⟩ := ha.of_liveIn hx'
    rw [Resource.serverGraph, ← hdata]
    exact h.kept hx hr ht

end Labelling

/-! ## Mutations -/

namespace Hierarchy

variable {root : Iri} {see : Iri → Option Record} {p id agent : Iri} {time : Instant} {b : BlankNode} {op : Operation}
  {o : Outcome}

/-- What is contributed by the children of `id` is contributed by one of them. -/
theorem gives_of_asContainer (h : Hierarchy root see) {y : Resource} {q : MemberTriple} (hid : liveIn see id = some y)
    (hq : AsContainer see y q) : ∃ x, Identifier.parent? root x = .ok (some id) ∧ Gives see id x q := by
  obtain ⟨m, hm, x, hx, c, hc, hq⟩ := hq
  obtain ⟨-, hparent⟩ := h.child_live hid hx
  exact ⟨x, hparent, c, hc, y, m, hid, hm, hq⟩

theorem model_applyTo (ho : Mutation.Comes see p id agent time b op o) {x : Iri} {c r : Resource}
    (hx : liveIn see x = some c) (hx' : liveIn (o.applyTo id see) x = some r) : r.model = c.model := by
  rcases liveIn_applyTo hx' with ⟨rfl, y, hy, rfl⟩ | ⟨-, y, hy, rfl⟩
  · rw [Resource.model_edited]
    exact (own_graph ho hx hy).1
  · rw [hx] at hy
    cases hy
    exact Resource.model_edited _ _

/-- A creation only adds triples. -/
theorem labelling_created {model : InteractionModel} {userGraph : Graph} {binary : Option Binary}
    (ho : Mutation.Comes see p id agent time b (.create model userGraph binary) o) :
    Labelling root see (o.applyTo id see) where
  born {x r} hx hx' := by
    cases ho with
    | @create _ _ _ container new hid hpar hcont hnew =>
      obtain ⟨as, has, -⟩ := Upkeep.join_edits p container id new
      rcases liveIn_applyTo hx' with ⟨rfl, y, hy, rfl⟩ | ⟨-, y, hy, -⟩
      · rw [Record.live?_live] at hy
        cases hy
        have hmodel : new.model = model := by rw [← hnew]; rfl
        dsimp only
        rw [Resource.model_edited, hmodel, has, Resource.mem_serverGraph_adds, ← hnew, Mutation.mem_serverGraph_born]
        exact .inl rfl
      · rw [hx] at hy
        cases hy
  model hx hx' := model_applyTo ho hx hx'
  kept {x c r} hx hx' ht := by
    cases ho with
    | @create _ _ _ container new hid hpar hcont hnew =>
      obtain ⟨as, has, -⟩ := Upkeep.join_edits p container id new
      rcases liveIn_applyTo hx' with ⟨rfl, -⟩ | ⟨-, y, hy, rfl⟩
      · rw [hid] at hx
        cases hx
      · rw [hx] at hy
        cases hy
        dsimp only
        rw [has, Resource.mem_serverGraph_adds]
        exact .inl (.inl ht)

/-- What a replacement takes away was contributed by the target, or by its children. -/
theorem labelling_replaced (h : Hierarchy root see) (hp : Identifier.parent? root id = .ok (some p)) {userGraph : Graph}
    {expected : Option InteractionModel} (ho : Mutation.Comes see p id agent time b (.replace userGraph expected) o) :
    Labelling root see (o.applyTo id see) := by
  obtain ⟨current, new, hr⟩ := h.revision hp ho
  refine ⟨fun {x r} hx hx' => ?_, fun {x c r} hx hx' => model_applyTo ho hx hx', fun {x c r} hx hx' ht => ?_⟩
  · obtain ⟨y, hy, -⟩ := hr.graphs (t := Resource.typing x r.model) hx'
    rw [hx] at hy
    cases hy
  · obtain ⟨y, hy, hgraph⟩ := hr.graphs (t := Resource.typing x c.model) hx'
    rw [hx] at hy
    cases hy
    by_cases hchild : AsChild see p current ⟨x, Resource.typing x c.model⟩
    · exact .inr ⟨p, id, hp, current, hr.before, hchild⟩
    · by_cases hown : AsContainer see current ⟨x, Resource.typing x c.model⟩
      · exact .inr ⟨id, h.gives_of_asContainer hr.before hown⟩
      · exact .inl (hgraph.mpr (.inl ⟨.inl ⟨ht, fun hn => hchild hn.1⟩, fun hn => hown hn.2⟩))

/-- What a deletion takes away was contributed by the target. -/
theorem labelling_deleted (h : Hierarchy root see) (hp : Identifier.parent? root id = .ok (some p))
    (ho : Mutation.Comes see p id agent time b .delete o) : Labelling root see (o.applyTo id see) := by
  have hcon : Rdf.type ≠ Ldp.contains := by decide
  obtain ⟨current, hd⟩ := h.departure ho
  refine ⟨fun {x r} hx hx' => ?_, fun {x c r} hx hx' => model_applyTo ho hx hx', fun {x c r} hx hx' ht => ?_⟩
  · obtain ⟨y, hy, -⟩ := hd.graphs (t := Resource.typing x r.model) hx' hcon
    rw [hx] at hy
    cases hy
  · obtain ⟨y, hy, hgraph⟩ := hd.graphs (t := Resource.typing x c.model) hx' hcon
    rw [hx] at hy
    cases hy
    by_cases hchild : AsChild see p current ⟨x, Resource.typing x c.model⟩
    · exact .inr ⟨p, id, hp, current, hd.before, hchild⟩
    · exact .inl (hgraph.mpr ⟨ht, fun hn => hchild hn.1⟩)

theorem labelling_applyTo (h : Hierarchy root see) (hp : Identifier.parent? root id = .ok (some p))
    (ho : Mutation.Comes see p id agent time b op o) : Labelling root see (o.applyTo id see) := by
  cases op with
  | create model userGraph binary => exact labelling_created ho
  | replace userGraph expected => exact h.labelling_replaced hp ho
  | delete => exact h.labelling_deleted hp ho

theorem labelling_founded (hl : liveIn see root = none) :
    Labelling root see ((founding root agent time b).applyTo root see) where
  born {x r} hx hx' := by
    by_cases he : root = x
    · subst he
      rw [liveIn_founding_self] at hx'
      cases hx'
      exact Mutation.mem_serverGraph_founded.mpr rfl
    · rw [liveIn_founding_of_ne he, hx] at hx'
      cases hx'
  model {x c r} hx hx' := by
    have he : root ≠ x := fun he => by rw [← he, hl] at hx; cases hx
    rw [liveIn_founding_of_ne he, hx] at hx'
    cases hx'
    rfl
  kept {x c r} hx hx' ht := by
    have he : root ≠ x := fun he => by rw [← he, hl] at hx; cases hx
    rw [liveIn_founding_of_ne he, hx] at hx'
    cases hx'
    exact .inl ht

end Hierarchy

/-! ## Runs -/

theorem Repository.Moved.labelling {σ : Type} [RecordStore σ] [KeyedStore σ] {r r' : Repository σ} (hm : Moved r r')
    (h : Hierarchy r.root (find r.store)) : Labelling r.root (find r.store) (find r'.store) := by
  cases hm with
  | still hr hs =>
    rw [hs]
    exact .refl _ _
  | founded hl ha => exact (Hierarchy.labelling_founded hl).of_akin ha.content
  | mutated hr hp hc ho ha =>
    unfold outcomeAt Mutation.outcomeFrom at ho
    rw [Transaction.look_begin] at ho
    exact (h.labelling_applyTo hp (Mutation.comes_of_outcome ho)).of_akin ha.content

namespace Service

variable {σ α ε : Type} [RecordStore σ] [KeyedStore σ] [MementoStore α] [BlobStore α] [EventSink ε]
  {s : Service σ α ε} {past : List (Service σ α ε)}

/-- A live resource has its type triple, unless in a state of its present life some child contributed
    that triple to the membership of the container above the child. -/
theorem typing_kept_or_offered (h : Trace s past) {x : Iri} {r : Resource} (hx : s.get x = .ok (some r)) :
    Resource.typing x r.model ∈ r.serverGraph ∨
      ∃ e ∈ past.takeWhile (·.alive x), ∃ p y, Identifier.parent? e.root y = .ok (some p) ∧
        e.Offers p y ⟨x, Resource.typing x r.model⟩ := by
  rw [get_eq_ok] at hx
  induction h generalizing r with
  | empty hs => simp [liveIn, hs] at hx
  | @serve s past now q h ih =>
    have hlabels := (serve_moved h.reachable.selfKeyed now q).labelling h.reachable.hierarchy
    cases hx₀ : liveIn (find s.repository.store) x with
    | none => exact .inl (hlabels.born hx₀ hx)
    | some c =>
      have halive : s.alive x = true := by
        rw [alive_eq, hx₀]
        rfl
      rw [List.takeWhile_cons, if_pos halive, hlabels.model hx₀ hx]
      rcases ih hx₀ with ht | ⟨e, he, hoffers⟩
      · rcases hlabels.kept hx₀ hx ht with ht | ⟨p, y, hparent, hgives⟩
        · exact .inl ht
        · exact .inr ⟨s, List.mem_cons_self, p, y, hparent, offers_iff.mpr hgives⟩
      · exact .inr ⟨e, List.mem_cons_of_mem _ he, hoffers⟩

/-! A container whose children say of what kind the member is. A child that says what the server has
    said already comes and goes. -/

/-- A child that says the kind of the member. -/
def kindGraph (child kind : Iri) : Graph := .ofList [⟨.iri child, ⟨"urn:kind"⟩, .iri kind⟩]

def labelling : List (Instant × Request) :=
  [(⟨1, 0⟩, .makeRoot),
   (⟨2, 0⟩, .create ⟨"trellis:data/m"⟩ .rdfSource .empty (.anonymous ⟨2, 0⟩)),
   (⟨3, 0⟩, .create ⟨"trellis:data/i"⟩ .indirectContainer
     (.ofUserGraph (clubGraph ⟨"trellis:data/i"⟩ Rdf.type
       [⟨.iri ⟨"trellis:data/i"⟩, Ldp.insertedContentRelation, .iri ⟨"urn:kind"⟩⟩]))
     (.anonymous ⟨3, 0⟩)),
   (⟨4, 0⟩, .create ⟨"trellis:data/i/x"⟩ .rdfSource
     (.ofUserGraph (kindGraph ⟨"trellis:data/i/x"⟩ InteractionModel.rdfSource.iri)) (.anonymous ⟨4, 0⟩)),
   (⟨5, 0⟩, .delete ⟨"trellis:data/i/x"⟩ (.anonymous ⟨5, 0⟩))]

/-- After the child has gone. -/
def relabelled : Service Table Archive Sink := (blank.trail [] labelling).1

theorem trace_relabelled : relabelled.Trace (blank.trail [] labelling).2 :=
  (Trace.empty Table.get?_empty).trail labelling

theorem unlabelled_member : ∃ r ∈ liveIn (find relabelled.repository.store) ⟨"trellis:data/m"⟩,
    Resource.typing ⟨"trellis:data/m"⟩ r.model ∉ r.serverGraph := by
  decide +kernel

/-- The member is live and has lost its type triple. -/
theorem kind_lost : relabelled.Reachable ∧ ∃ r, relabelled.get ⟨"trellis:data/m"⟩ = .ok (some r) ∧
    Resource.typing ⟨"trellis:data/m"⟩ r.model ∉ r.serverGraph := by
  simp only [get_eq_ok]
  exact ⟨trace_relabelled.reachable, unlabelled_member⟩

/-- So some child had offered its type as a member, while it was live. -/
theorem relabelled_offered : relabelled.Trace (blank.trail [] labelling).2 ∧
    ∃ r, relabelled.get ⟨"trellis:data/m"⟩ = .ok (some r) ∧
      ∃ e ∈ (blank.trail [] labelling).2.takeWhile (·.alive ⟨"trellis:data/m"⟩),
        ∃ p y, Identifier.parent? e.root y = .ok (some p) ∧
          e.Offers p y ⟨⟨"trellis:data/m"⟩, Resource.typing ⟨"trellis:data/m"⟩ r.model⟩ := by
  obtain ⟨r, hr, ht⟩ := unlabelled_member
  rw [Option.mem_def, ← get_eq_ok] at hr
  exact ⟨trace_relabelled, r, hr, (typing_kept_or_offered trace_relabelled hr).resolve_left ht⟩

end Service

end LinkedData
