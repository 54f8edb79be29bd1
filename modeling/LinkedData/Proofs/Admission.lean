/-
  LinkedData.Proofs.Admission — no resource breaks the constraints on its model.

  A client checks a graph before it asks for the lock, so what it checked may be out of date when
  it commits: the resource may have been deleted by then, and created again under another model.
  The steps of clients come in any order. A replacement reads the model of its target, checks the
  graph for that model, and commits; a creation checks and commits; a deletion is one step. In
  every state that they come to from an empty store, the user graph of a live resource breaks no
  constraint on the model that the resource has (`admitted`).

  What a client has checked stays true, for it says nothing of the repository (`Draft.Checked`).
  What the model is at the time of the commit is compared under the lock; a replacement that skips
  this breaks a constraint in the race at the end (`unguarded_replacement_breaks`).
-/

import LinkedData.Proofs.Containment
import Mathlib.Logic.Function.Basic
import Mathlib.Logic.Function.Iterate

namespace LinkedData

open Std SteadyStore

/-! ## One at a time -/

/-- The user graph of a resource breaks no constraint on its model. -/
def Resource.Obeys (domain : String) (r : Resource) : Prop := Constraint.violations r.model domain r.userGraph = []

/-- So it is with every live resource. -/
def Obedient (domain : String) (see : Iri → Option Record) : Prop :=
  ∀ (x : Iri) (r : Resource), liveIn see x = some r → r.Obeys domain

theorem Resource.obeys_edited {domain : String} {r : Resource} {es : List Edit} (h : r.Obeys domain) :
    (r.edited es).Obeys domain := by
  rw [Obeys, model_edited, userGraph_edited]
  exact h

/-- The founded root has nothing to say. -/
theorem Mutation.obeys_founded (domain : String) (root agent : Iri) (time : Instant) (b : BlankNode) :
    (founded root agent time b).Obeys domain := by
  have hempty : Constraint.violations .basicContainer domain ∅ = [] := rfl
  unfold Resource.Obeys
  rw [userGraph_founded]
  exact hempty

namespace Obedient

variable {domain : String} {see see' : Iri → Option Record}

theorem of_akin (h : Obedient domain see) (ha : Akin see see') : Obedient domain see' := by
  intro x r hx
  obtain ⟨r₀, hr₀, -, hmodel, hdata⟩ := ha.of_liveIn hx
  have hobeys := h x r₀ hr₀
  rwa [Resource.Obeys, Resource.userGraph, hmodel, hdata] at hobeys

theorem applyTo (h : Obedient domain see) {id : Iri} {o : Outcome}
    (ht : ∀ y, o.target.live? = some y → y.Obeys domain) : Obedient domain (o.applyTo id see) := by
  intro x r hx
  rcases Hierarchy.liveIn_applyTo hx with ⟨-, y, hy, rfl⟩ | ⟨-, y, hy, rfl⟩
  · exact Resource.obeys_edited (ht y hy)
  · exact Resource.obeys_edited (h x y hy)

end Obedient

/-- A target obeys, if its new graph was checked. The model is the one given, or the one expected. -/
theorem Mutation.Comes.obeys {domain : String} {see : Iri → Option Record} {p id agent : Iri} {time : Instant}
    {b : BlankNode} {op : Operation} {o : Outcome} (h : Comes see p id agent time b op o) (hc : op.Checked domain)
    (y : Resource) (hy : o.target.live? = some y) : y.Obeys domain := by
  unfold Resource.Obeys
  cases h with
  | create hid hp hcont hx =>
    rw [Record.live?_live] at hy
    cases hy
    rw [← hx, userGraph_born]
    exact hc
  | @replace _ _ current x hid hm hx =>
    obtain ⟨m, hexpected, hc⟩ := hc
    have hmodel : x.model = m := by
      rw [← hx]
      exact hm m hexpected
    rw [Record.live?_live] at hy
    cases hy
    rw [hmodel, ← hx, userGraph_revised]
    exact hc
  | delete => cases hy

theorem Repository.Moved.obedient {σ : Type} [RecordStore σ] [KeyedStore σ] {r r' : Repository σ} (hm : Moved r r')
    (h : Obedient r.root.text (find r.store)) : Obedient r'.root.text (find r'.store) := by
  rw [hm.root]
  cases hm with
  | still hr hs => rwa [hs]
  | founded hl ha =>
    refine Obedient.of_akin (Obedient.applyTo h ?_) ha.content
    intro y hy
    cases hy
    exact Mutation.obeys_founded _ _ _ _ _
  | mutated hr hp hc ho ha =>
    unfold outcomeAt Mutation.outcomeFrom at ho
    rw [Transaction.look_begin] at ho
    exact Obedient.of_akin (Obedient.applyTo h ((Mutation.comes_of_outcome ho).obeys hc)) ha.content

/-! ## Clients -/

/-- A write that is ready to be committed. -/
inductive Draft
  | create (id : Iri) (model : InteractionModel) (dataset : Dataset)
  | createBinary (id : Iri) (binary : Binary) (dataset : Dataset)
  | replace (id : Iri) (model : InteractionModel) (dataset : Dataset)

namespace Draft

/-- Its graph breaks no constraint on the model that it was made for. -/
def Checked (domain : String) : Draft → Prop
  | create _ model dataset | replace _ model dataset => Constraint.violations model domain dataset.userGraph = []
  | createBinary _ _ dataset => Constraint.violations .nonRdfSource domain dataset.userGraph = []

/-- The part that is done under the lock. -/
def commit {σ : Type} [RecordStore σ] (r : Repository σ) (session : Session) (now : Instant) :
    Draft → Except Error Commit × Repository σ
  | create id model dataset => r.create id model dataset session now
  | createBinary id binary dataset => r.createBinary id binary dataset session now
  | replace id model dataset => r.replaceModel id model dataset session now

theorem commit_moved {σ : Type} [RecordStore σ] [KeyedStore σ] {r : Repository σ} (hk : SelfKeyed r.store)
    {d : Draft} (hc : d.Checked r.root.text) (session : Session) (now : Instant) :
    Repository.Moved r (d.commit r session now).2 := by
  cases d with
  | create id model dataset =>
    dsimp only [commit, Repository.create]
    by_cases hm : model = .nonRdfSource
    · rw [if_pos hm]
      exact .still rfl rfl
    · rw [if_neg hm]
      have hends := Repository.mutate_cases hk id (.create model dataset.userGraph none) session now
      exact (hends.carries hc).moved
  | createBinary id binary dataset =>
    have hends := Repository.mutate_cases hk id (.create .nonRdfSource dataset.userGraph (some binary)) session now
    exact (hends.carries hc).moved
  | replace id model dataset =>
    have hends := Repository.mutate_cases hk id (.replace dataset.userGraph (some model)) session now
    exact (hends.carries ⟨model, rfl, hc⟩).moved

end Draft

/-- How far a client has come with a request. -/
inductive Stage
  | idle
  | asked (q : Request)
  /-- The model that the resource to replace had when it was read. -/
  | read (id : Iri) (model : InteractionModel) (dataset : Dataset) (session : Session)
  | cleared (d : Draft) (session : Session)

namespace Service

variable {σ α ε : Type} [RecordStore σ] [MementoStore α] [BlobStore α] [EventSink ε]

/-- The next step of a client, and where it is then. -/
def advance (s : Service σ α ε) (now : Instant) : Stage → Service σ α ε × Stage
  | .idle => (s, .idle)
  | .asked .makeRoot => ((s.createRoot now).2, .idle)
  | .asked (.create id model dataset session) =>
    match s.checkConstraints model dataset with
    | .error _ => (s, .idle)
    | .ok () => (s, .cleared (.create id model dataset) session)
  | .asked (.createBinary id content mime digest dataset session) =>
    match s.vet content digest dataset with
    | .error _ => (s, .idle)
    | .ok () =>
      match BlobStore.store s.archive content mime with
      | (.error _, archive) => ({ s with archive }, .idle)
      | (.ok binary, archive) => ({ s with archive }, .cleared (.createBinary id binary dataset) session)
  | .asked (.replace id dataset session) =>
    match s.repository.require id with
    | .error _ => (s, .idle)
    | .ok current => (s, .read id current.model dataset session)
  | .asked (.delete id session) => ((s.delete id session now).2, .idle)
  | .read id model dataset session =>
    match s.checkConstraints model dataset with
    | .error _ => (s, .idle)
    | .ok () => (s, .cleared (.replace id model dataset) session)
  | .cleared d session => ((s.conclude now (d.commit s.repository session now)).2, .idle)

/-- A client that no one comes between is served. -/
theorem advance_to_end (s : Service σ α ε) (now : Instant) (q : Request) :
    (fun w : Service σ α ε × Stage => w.1.advance now w.2)^[3] (s, .asked q) = (s.serve now q, .idle) := by
  simp only [Function.iterate_succ, Function.iterate_zero, Function.comp_apply, id_eq]
  cases q with
  | makeRoot => rfl
  | create id model dataset session =>
    dsimp only [advance, serve, create]
    cases s.checkConstraints model dataset <;> rfl
  | createBinary id content mime digest dataset session =>
    dsimp only [advance, serve]
    rw [createBinary_eq]
    cases s.vet content digest dataset with
    | error e => rfl
    | ok u =>
      obtain ⟨stored, archive⟩ := BlobStore.store s.archive content mime
      cases stored <;> rfl
  | replace id dataset session =>
    dsimp only [advance, serve, replace]
    cases s.repository.require id with
    | error e => rfl
    | ok current =>
      dsimp only [advance]
      cases s.checkConstraints current.model dataset <;> rfl
  | delete id session => rfl

end Service

/-- A service and its clients. -/
structure Clients (σ α ε κ : Type) where
  service : Service σ α ε
  stage : κ → Stage

namespace Clients

section

variable {σ α ε κ : Type} [DecidableEq κ] [RecordStore σ] [MementoStore α] [BlobStore α] [EventSink ε]

/-- What a client does next: it takes up a request, if it is idle, or goes on with the one it has. -/
inductive Move
  | take (q : Request)
  | advance (now : Instant)

/-- Before anyone came. -/
def rest (s : Service σ α ε) : Clients σ α ε κ := ⟨s, fun _ => .idle⟩

/-- A move of the client `k`. -/
def step (c : Clients σ α ε κ) (k : κ) : Move → Clients σ α ε κ
  | .take q =>
    match c.stage k with
    | .idle => { c with stage := Function.update c.stage k (.asked q) }
    | _ => c
  | .advance now =>
    let (service, stage) := c.service.advance now (c.stage k)
    ⟨service, Function.update c.stage k stage⟩

def run (c : Clients σ α ε κ) (moves : List (κ × Move)) : Clients σ α ε κ :=
  moves.foldl (fun c m => c.step m.1 m.2) c

/-- What clients come to from a service, whatever the order of their moves. -/
inductive Reach (s : Service σ α ε) : Clients σ α ε κ → Prop
  | rest : Reach s (rest s)
  | step {c : Clients σ α ε κ} (k : κ) (m : Move) (h : Reach s c) : Reach s (c.step k m)

theorem Reach.run {s : Service σ α ε} {c : Clients σ α ε κ} (h : Reach s c) (moves : List (κ × Move)) :
    Reach s (c.run moves) := by
  induction moves generalizing c with
  | nil => exact h
  | cons m moves ih => exact ih (h.step m.1 m.2)

end

variable {σ α ε κ : Type} [RecordStore σ] [KeyedStore σ]

/-- What every move keeps to. -/
structure Inv (c : Clients σ α ε κ) : Prop where
  selfKeyed : SelfKeyed c.service.repository.store
  obedient : Obedient c.service.root.text (find c.service.repository.store)
  cleared : ∀ {k d session}, c.stage k = .cleared d session → d.Checked c.service.root.text

theorem Inv.rest {s : Service σ α ε} (h : ∀ id, find s.repository.store id = none) :
    (rest s : Clients σ α ε κ).Inv where
  selfKeyed id r hr := by simp [Clients.rest, h] at hr
  obedient x r hx := by simp [Clients.rest, liveIn, h] at hx
  cleared hk := by cases hk

variable [MementoStore α] [BlobStore α] [EventSink ε]

/-- A client moves the repository by checked operations alone, and is cleared when its graph was checked. -/
theorem advance_sound {s : Service σ α ε} (hk : SelfKeyed s.repository.store) (stage : Stage)
    (hc : ∀ {d session}, stage = .cleared d session → d.Checked s.root.text) (now : Instant) :
    Repository.Moved s.repository (s.advance now stage).1.repository ∧
      ∀ {d session}, (s.advance now stage).2 = .cleared d session → d.Checked s.root.text := by
  have hstill : ∀ {r : Repository σ}, Repository.Moved r r := .still rfl rfl
  cases stage with
  | idle => exact ⟨hstill, nofun⟩
  | asked q =>
    cases q with
    | makeRoot => exact ⟨Service.createRoot_moved hk now, nofun⟩
    | create id model dataset session =>
      dsimp only [Service.advance]
      cases hcheck : s.checkConstraints model dataset with
      | error e => exact ⟨hstill, nofun⟩
      | ok u =>
        refine ⟨hstill, fun he => ?_⟩
        cases he
        exact Service.violations_of_checkConstraints hcheck
    | createBinary id content mime digest dataset session =>
      dsimp only [Service.advance]
      cases hvet : s.vet content digest dataset with
      | error e => exact ⟨hstill, nofun⟩
      | ok u =>
        obtain ⟨stored, archive⟩ := BlobStore.store s.archive content mime
        cases stored with
        | error f => exact ⟨hstill, nofun⟩
        | ok binary =>
          refine ⟨hstill, fun he => ?_⟩
          cases he
          exact Service.violations_of_checkConstraints (Service.checkConstraints_of_vet hvet)
    | replace id dataset session =>
      dsimp only [Service.advance]
      cases s.repository.require id <;> exact ⟨hstill, nofun⟩
    | delete id session => exact ⟨(Service.delete_carries hk id session now).moved, nofun⟩
  | read id model dataset session =>
    dsimp only [Service.advance]
    cases hcheck : s.checkConstraints model dataset with
    | error e => exact ⟨hstill, nofun⟩
    | ok u =>
      refine ⟨hstill, fun he => ?_⟩
      cases he
      exact Service.violations_of_checkConstraints hcheck
  | cleared d session =>
    dsimp only [Service.advance]
    rw [Service.repository_conclude]
    exact ⟨Draft.commit_moved hk (hc rfl) session now, nofun⟩

variable [DecidableEq κ]

omit [RecordStore σ] [KeyedStore σ] [MementoStore α] [BlobStore α] [EventSink ε] in
theorem checked_update {domain : String} {stage : κ → Stage} {k : κ} {new : Stage}
    (h : ∀ {k d session}, stage k = .cleared d session → d.Checked domain)
    (hnew : ∀ {d session}, new = .cleared d session → d.Checked domain) {k' : κ} {d : Draft} {session : Session}
    (hk : Function.update stage k new k' = .cleared d session) : d.Checked domain := by
  rw [Function.update_apply] at hk
  split at hk
  · exact hnew hk
  · exact h hk

theorem Inv.step {c : Clients σ α ε κ} (h : c.Inv) (k : κ) (m : Move) : (c.step k m).Inv := by
  cases m with
  | take q =>
    unfold Clients.step
    dsimp only
    split
    · exact ⟨h.selfKeyed, h.obedient, checked_update h.cleared fun he => by cases he⟩
    · exact h
  | advance now =>
    obtain ⟨hmoved, hcleared⟩ := advance_sound h.selfKeyed (c.stage k) h.cleared now
    have hroot : (c.service.advance now (c.stage k)).1.root = c.service.root := hmoved.root
    refine ⟨hmoved.selfKeyed h.selfKeyed, hmoved.obedient h.obedient, fun {k' d session} hk' => ?_⟩
    show d.Checked (c.service.advance now (c.stage k)).1.root.text
    rw [hroot]
    exact checked_update h.cleared hcleared hk'

theorem Reach.inv {s : Service σ α ε} (hs : ∀ id, find s.repository.store id = none) {c : Clients σ α ε κ}
    (h : Reach s c) : c.Inv := by
  induction h with
  | rest => exact .rest hs
  | step k m _ ih => exact ih.step k m

/-- In whatever order clients move, the user graph of a live resource breaks no constraint on the
    model of the resource. -/
theorem admitted {s : Service σ α ε} (hs : ∀ id, find s.repository.store id = none) {c : Clients σ α ε κ}
    (h : Reach s c) {x : Iri} {r : Resource} (hx : c.service.get x = .ok (some r)) :
    Constraint.violations r.model c.service.root.text r.userGraph = [] :=
  (h.inv hs).obedient x r (Service.get_eq_ok.mp hx)

/-! A container is deleted, and a source created in its place, between the check of a replacement and
    its commit. -/

/-- The user graph of a container of its own members. -/
def boardGraph : Graph := .ofList
  [⟨.iri ⟨"trellis:data/a"⟩, Vocabulary.Ldp.membershipResource, .iri ⟨"trellis:data/a"⟩⟩,
   ⟨.iri ⟨"trellis:data/a"⟩, Vocabulary.Ldp.hasMemberRelation, .iri ⟨"urn:member"⟩⟩]

/-- The client `true` replaces the container, the client `false` does everything else. -/
def racing : List (Bool × Move) :=
  [(false, .take .makeRoot), (false, .advance ⟨1, 0⟩),
   (false, .take (.create ⟨"trellis:data/a"⟩ .directContainer (.ofUserGraph boardGraph) (.anonymous ⟨2, 0⟩))),
   (false, .advance ⟨2, 0⟩), (false, .advance ⟨3, 0⟩),
   (true, .take (.replace ⟨"trellis:data/a"⟩ (.ofUserGraph boardGraph) (.anonymous ⟨4, 0⟩))),
   (true, .advance ⟨4, 0⟩), (true, .advance ⟨5, 0⟩),
   (false, .take (.delete ⟨"trellis:data/a"⟩ (.anonymous ⟨6, 0⟩))), (false, .advance ⟨6, 0⟩),
   (false, .take (.create ⟨"trellis:data/a"⟩ .rdfSource .empty (.anonymous ⟨7, 0⟩))),
   (false, .advance ⟨7, 0⟩), (false, .advance ⟨8, 0⟩)]

/-- Before the commit of the replacement. -/
def race : Clients Table Archive Sink Bool := (rest Service.blank).run racing

theorem race_admitted : (∀ id, find (Service.blank.repository.store) id = none) ∧
    Reach Service.blank (race.step true (.advance ⟨9, 0⟩)) ∧
    ∃ r, (race.step true (.advance ⟨9, 0⟩)).service.get ⟨"trellis:data/a"⟩ = .ok (some r) ∧
      r.model = .rdfSource ∧
      Constraint.violations r.model (race.step true (.advance ⟨9, 0⟩)).service.root.text r.userGraph = [] := by
  have hreach : Reach Service.blank (race.step true (.advance ⟨9, 0⟩)) := (Reach.rest.run racing).step _ _
  have hlive : ∃ r ∈ liveIn (find (race.step true (.advance ⟨9, 0⟩)).service.repository.store)
      ⟨"trellis:data/a"⟩, r.model = .rdfSource := by
    decide +kernel
  obtain ⟨r, hr, hmodel⟩ := hlive
  rw [Option.mem_def, ← Service.get_eq_ok] at hr
  exact ⟨Table.get?_empty, hreach, r, hr, hmodel, admitted Table.get?_empty hreach hr⟩

/-- The replacement was cleared for a container. Committed whatever the model, it would stand. -/
theorem unguarded_replacement_breaks :
    ∃ r ∈ liveIn (find (race.service.repository.replace ⟨"trellis:data/a"⟩ (.ofUserGraph boardGraph)
        (.anonymous ⟨4, 0⟩) ⟨9, 0⟩).2.store) ⟨"trellis:data/a"⟩,
      Constraint.violations .directContainer race.service.root.text r.userGraph = [] ∧
      Constraint.violations r.model race.service.root.text r.userGraph ≠ [] := by
  decide +kernel

end Clients

end LinkedData
