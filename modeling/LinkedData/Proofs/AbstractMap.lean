/-
  LinkedData.Proofs.AbstractMap — the repository is a map.

  What clients know of an identifier is its `Face`: whether it is live or deleted, its model,
  its user graph and its binary. The abstract machine works on a map of faces alone: it knows
  nothing of server graphs, logs, times or transactions, and an operation changes the face of
  its target and of nothing else (`Abstract.step`). Whatever operations are run one after
  another, the repository answers as the machine does and shows the same faces after each
  (`play_eq`). So a mutation that rewrites its parent and the holders of member triples never
  writes back an old user graph, and never brings a deleted resource back.
-/

import LinkedData.Proofs.Mutate

namespace LinkedData

open Std SteadyStore

inductive ErrorKind
  | notFound
  | gone
  | alreadyExists
  | conflict
  | constraintViolations
  | invalidParent
  | malformedInput
  | storage
  | config
  | internal
  deriving DecidableEq, Repr

def Error.kind : Error → ErrorKind
  | notFound _ => .notFound
  | gone _ => .gone
  | alreadyExists _ => .alreadyExists
  | conflict _ => .conflict
  | constraintViolations _ => .constraintViolations
  | invalidParent _ => .invalidParent
  | malformedInput _ => .malformedInput
  | storage _ => .storage
  | config _ => .config
  | internal _ => .internal

/-- What clients know of an identifier that is in use, or was. -/
structure Face where
  live : Bool
  model : InteractionModel
  userGraph : Graph
  binary : Option Binary
  deriving DecidableEq

abbrev Faces := Iri → Option Face

def Faces.set (m : Faces) (id : Iri) (f : Face) : Faces := fun x => if id = x then some f else m x

def Record.face (r : Record) : Face := ⟨r.isLive, r.resource.model, r.resource.userGraph, r.resource.binary⟩

def Resource.face (r : Resource) : Face := (Record.live r).face

/-- An operation on a repository. -/
inductive Call
  | makeRoot
  | create (id : Iri) (model : InteractionModel) (dataset : Dataset)
  | createBinary (id : Iri) (binary : Binary) (dataset : Dataset)
  | replace (id : Iri) (dataset : Dataset)
  | replaceModel (id : Iri) (expected : InteractionModel) (dataset : Dataset)
  | delete (id : Iri)
  | get (id : Iri)
  | require (id : Iri)

/-- What an operation answers when it does not fail. -/
inductive Reply
  /-- Whether the root had to be made. -/
  | root (made : Bool)
  /-- The target as it is kept now. -/
  | committed (kind : ChangeKind) (face : Face)
  | found (face : Option Face)
  deriving DecidableEq

/-! ## The abstract machine -/

namespace Abstract

/-- The face of a live resource. -/
def liveFace (m : Faces) (id : Iri) : Option Face := (m id).filter (·.live)

def presence (m : Faces) (id : Iri) : Except ErrorKind Face :=
  match m id with
  | none => .error .notFound
  | some f => if f.live then .ok f else .error .gone

/-- The new face of the target, or why there is none. -/
def outcome (m : Faces) (p id : Iri) : Operation → Except ErrorKind Face
  | .create model userGraph binary =>
    if (liveFace m id).isSome then .error .alreadyExists
    else if (liveFace m p).any (·.model.isContainer) then .ok ⟨true, model, userGraph, binary⟩
    else .error .invalidParent
  | .replace userGraph expected =>
    (presence m id).bind fun f =>
      if expected.any (f.model ≠ ·) then .error .conflict else .ok { f with userGraph }
  | .delete => (presence m id).map fun f => { f with live := false }

/-- What is refused whatever there is: identifiers out of place, and the root. -/
def refusal? (root id : Iri) : Option ErrorKind :=
  if ¬ Identifier.Valid root id then some .malformedInput else if id = root then some .conflict else none

def mutate (root : Iri) (m : Faces) (id : Iri) (op : Operation) : Except ErrorKind Reply × Faces :=
  match refusal? root id, Identifier.parent? root id with
  | some e, _ => (.error e, m)
  | none, .ok (some p) =>
    match outcome m p id op with
    | .error e => (.error e, m)
    | .ok f => (.ok (.committed op.kind f), m.set id f)
  | none, _ => (.error .internal, m)

def step (root : Iri) (m : Faces) : Call → Except ErrorKind Reply × Faces
  | .makeRoot =>
    if (liveFace m root).isSome then (.ok (.root false), m)
    else (.ok (.root true), m.set root ⟨true, .basicContainer, ∅, none⟩)
  | .create id model dataset =>
    if model = .nonRdfSource then (.error .malformedInput, m)
    else mutate root m id (.create model dataset.userGraph none)
  | .createBinary id binary dataset => mutate root m id (.create .nonRdfSource dataset.userGraph (some binary))
  | .replace id dataset => mutate root m id (.replace dataset.userGraph none)
  | .replaceModel id expected dataset => mutate root m id (.replace dataset.userGraph (some expected))
  | .delete id => if id = root then (.error .conflict, m) else mutate root m id .delete
  | .get id => (.ok (.found (liveFace m id)), m)
  | .require id => ((presence m id).map fun f => .found (some f), m)

/-- The answers to some operations, each with the faces after it. -/
def play (root : Iri) (m : Faces) : List Call → List (Except ErrorKind Reply × Faces)
  | [] => []
  | c :: cs => step root m c :: play root (step root m c).2 cs

end Abstract

/-! ## The repository as a player -/

namespace Repository

section

variable {σ : Type} [RecordStore σ]

/-- A commit, by the target as it is kept from now on. -/
def reply (c : Commit) : Reply :=
  .committed c.kind ⟨c.kind ≠ .deleted, c.resource.model, c.resource.userGraph, c.resource.binary⟩

def replied (answer : Except Error Commit × Repository σ) : Except Error Reply × Repository σ :=
  (answer.1.map reply, answer.2)

def call (r : Repository σ) (session : Session) (now : Instant) : Call → Except Error Reply × Repository σ
  | .makeRoot => let (answer, r) := r.createRoot session now; (answer.map fun c => .root c.isSome, r)
  | .create id model dataset => replied (r.create id model dataset session now)
  | .createBinary id binary dataset => replied (r.createBinary id binary dataset session now)
  | .replace id dataset => replied (r.replace id dataset session now)
  | .replaceModel id expected dataset => replied (r.replaceModel id expected dataset session now)
  | .delete id => replied (r.delete id session now)
  | .get id => ((r.get id).map fun x => .found (x.map Resource.face), r)
  | .require id => ((r.require id).map fun x => .found (some x.face), r)

end

variable {σ : Type} [RecordStore σ] [KeyedStore σ]

def faces (r : Repository σ) : Faces := fun x => (find r.store x).map Record.face

/-- The answers to some operations, each with the faces after it; every operation has a session and
    a time. -/
def play (r : Repository σ) : List (Call × Session × Instant) → List (Except ErrorKind Reply × Faces)
  | [] => []
  | (c, session, now) :: cs =>
    let (answer, r) := r.call session now c
    (answer.mapError Error.kind, r.faces) :: r.play cs

end Repository

/-! ## Faces of outcomes -/

theorem Record.face_congr {r r' : Record} (h : r.content = r'.content) : r.face = r'.face := by
  obtain ⟨hl, -, hm, hd, hb⟩ := content_eq_iff.mp h
  simp only [face, Resource.userGraph, hl, hm, hd, hb]

@[simp] theorem Record.face_edited (r : Record) (es : List Edit) : (r.edited es).face = r.face := by
  unfold edited
  split
  · next h => simp [face, live, isLive] at h ⊢; exact h
  · rfl

@[simp] theorem Resource.face_edited (r : Resource) (es : List Edit) : (r.edited es).face = r.face :=
  Record.face_edited (.live r) es

theorem Record.face_eq_of_live? {r : Record} {x : Resource} (h : r.live? = some x) :
    r.face = x.face ∧ r.face.live = true := by
  obtain ⟨hl, rfl⟩ := live?_eq_some.mp h
  exact ⟨by simp only [Resource.face, face, hl]; rfl, hl⟩

theorem Record.face_live_of_live? {r : Record} (h : r.live? = none) : r.face.live = false := by
  unfold live? at h
  split at h
  · cases h
  · next hl => simpa [face] using hl

namespace Mutation

/-! The new states of a target, by their faces. -/

theorem face_born (id : Iri) (model : InteractionModel) (userGraph : Graph) (binary : Option Binary)
    (previous : Option Record) (agent : Iri) (time : Instant) (b : BlankNode) :
    (born id model userGraph binary previous agent time b).face = ⟨true, model, userGraph, binary⟩ :=
  congrArg (Face.mk true model · binary) (userGraph_born id model userGraph binary previous agent time b)

theorem face_revised (current : Resource) (userGraph : Graph) (agent : Iri) (time : Instant) (b : BlankNode) :
    (revised current userGraph agent time b).face = { current.face with userGraph } :=
  congrArg (Face.mk true current.model · current.binary) (userGraph_revised current userGraph agent time b)

theorem face_buried (deleted : Resource) (agent : Iri) (time : Instant) (b : BlankNode) :
    (Record.tombstone (buried deleted agent time b)).face = { deleted.face with live := false } :=
  congrArg (Face.mk false deleted.model · deleted.binary) (userGraph_buried deleted agent time b)

theorem face_founded (root agent : Iri) (time : Instant) (b : BlankNode) :
    (founded root agent time b).face = ⟨true, .basicContainer, ∅, none⟩ :=
  congrArg (Face.mk true .basicContainer · none) (userGraph_founded root agent time b)

variable {see : Iri → Option Record}

theorem liveFace_map (id : Iri) :
    Abstract.liveFace (fun x => (see x).map Record.face) id = (liveIn see id).map Resource.face := by
  unfold Abstract.liveFace liveIn
  dsimp only
  cases see id with
  | none => rfl
  | some r =>
    cases hl : r.live? with
    | none => simp [hl, Record.face_live_of_live? hl, Option.filter]
    | some x =>
      obtain ⟨hf, hlive⟩ := Record.face_eq_of_live? hl
      simp [hl, hlive, Option.filter, ← hf]

theorem presence_map (id : Iri) :
    Abstract.presence (fun x => (see x).map Record.face) id =
      ((presence id (see id)).mapError Error.kind).map Resource.face := by
  unfold Abstract.presence presence
  dsimp only
  cases see id with
  | none => rfl
  | some r =>
    cases hl : r.live? with
    | none =>
      simp only [Option.map_some, Record.face_live_of_live? hl, hl]
      rfl
    | some x =>
      obtain ⟨hf, hlive⟩ := Record.face_eq_of_live? hl
      simp only [Option.map_some, hlive, if_true, hl]
      exact congrArg Except.ok hf

/-- The abstract outcome is what an outcome makes of the target's face. -/
theorem outcome_map (p id agent : Iri) (time : Instant) (b : BlankNode) (op : Operation) :
    Abstract.outcome (fun x => (see x).map Record.face) p id op =
      ((outcome see p id agent time b op).mapError Error.kind).map (·.target.face) := by
  cases op with
  | create model userGraph binary =>
    unfold Abstract.outcome outcome
    rw [liveFace_map, liveFace_map]
    cases liveIn see id with
    | some x => rfl
    | none =>
      cases liveIn see p with
      | none => rfl
      | some c =>
        dsimp only [Option.map_some, Option.map_none, Option.any_some, Option.filter_some]
        by_cases hc : c.isContainer = true
        · have hm : c.face.model.isContainer = true := hc
          rw [if_pos hc, if_neg (by simp), if_pos hm]
          exact congrArg Except.ok (face_born id model userGraph binary (see id) agent time b).symm
        · have hm : ¬ c.face.model.isContainer = true := hc
          rw [if_neg hc, if_neg (by simp), if_neg hm]
          rfl
  | replace userGraph expected =>
    unfold Abstract.outcome outcome
    rw [presence_map]
    cases presence id (see id) with
    | error e => rfl
    | ok current =>
      have hok := congrArg (Except.ok (ε := ErrorKind)) (face_revised current userGraph agent time b).symm
      cases expected with
      | none => exact hok
      | some m =>
        have hm : current.face.model = current.model := rfl
        dsimp only [Except.mapError, Except.map, Except.bind, Option.any_some]
        rw [hm, Option.filter_some]
        by_cases he : current.model = m
        · rw [if_neg (by simp [he]), if_neg (by simp [he])]
          exact hok
        · rw [if_pos (by simpa using he), if_pos (by simpa using he)]
          rfl
  | delete =>
    unfold Abstract.outcome outcome
    rw [presence_map]
    cases presence id (see id) with
    | error e => rfl
    | ok current =>
      dsimp only [Except.mapError, Except.map]
      rw [face_buried, Resource.face_edited]

end Mutation

/-! ## The simulation -/

namespace Abstract

/-- Only a deletion leaves a target that is not live. -/
theorem live_of_outcome {m : Faces} {p id : Iri} {op : Operation} {f : Face} (h : outcome m p id op = .ok f) :
    f.live = decide (op.kind ≠ .deleted) := by
  cases op with
  | create model userGraph binary =>
    dsimp only [outcome] at h
    by_cases hid : (liveFace m id).isSome = true
    · rw [if_pos hid] at h
      cases h
    · rw [if_neg hid] at h
      split at h
      · cases h
        rfl
      · cases h
  | replace userGraph expected =>
    dsimp only [outcome, presence] at h
    cases hm : m id with
    | none => rw [hm] at h; cases h
    | some f' =>
      simp only [hm] at h
      by_cases hl : f'.live = true
      · rw [if_pos hl] at h
        dsimp only [Except.bind] at h
        split at h
        · cases h
        · cases h
          exact hl
      · rw [if_neg hl] at h
        cases h
  | delete =>
    dsimp only [outcome] at h
    cases hp : presence m id with
    | error e => rw [hp] at h; cases h
    | ok f' =>
      rw [hp] at h
      cases h
      rfl

end Abstract

namespace Repository

variable {σ : Type} [RecordStore σ] [KeyedStore σ]

theorem faces_after {r r' : Repository σ} {id : Iri} {o : Outcome} (h : After id o r r') :
    r'.faces = r.faces.set id o.target.face := by
  have hface : ∀ a b : Option Record, a.map Record.content = b.map Record.content →
      a.map Record.face = b.map Record.face :=
    fun a b hab => by
      cases a <;> cases b <;> simp_all
      exact Record.face_congr hab
  funext x
  rw [faces, hface _ _ (h.content x), Outcome.applyTo, Faces.set, faces]
  by_cases hx : id = x
  · simp [hx]
  · simp only [if_neg hx]
    cases find r.store x <;> simp

/-- An answer and a repository that are what the machine has. -/
structure Matches (r : Repository σ) (out : Except Error Reply × Repository σ)
    (abs : Except ErrorKind Reply × Faces) :
    Prop where
  answer : out.1.mapError Error.kind = abs.1
  faces : out.2.faces = abs.2
  selfKeyed : SelfKeyed out.2.store
  root : out.2.root = r.root

omit [RecordStore σ] [KeyedStore σ] in
theorem refusal?_map (r : Repository σ) (id : Iri) : Abstract.refusal? r.root id = (r.refusal? id).map Error.kind := by
  unfold Abstract.refusal? refusal?
  cases hv : Identifier.validate r.root id with
  | error f =>
    rw [if_pos (by rw [Identifier.Valid, hv]; simp)]
    rfl
  | ok u =>
    rw [if_neg (by rw [Identifier.Valid, hv]; simp)]
    by_cases h : id = r.root <;> simp [h, Error.kind]

theorem outcomeAt_map (r : Repository σ) (p id agent : Iri) (now : Instant) (op : Operation) :
    Abstract.outcome r.faces p id op = ((r.outcomeAt p id agent now op).mapError Error.kind).map (·.target.face) := by
  unfold outcomeAt Mutation.outcomeFrom
  rw [Transaction.look_begin]
  exact Mutation.outcome_map p id agent _ _ op

theorem mutate_matches {r : Repository σ} (hk : SelfKeyed r.store) (id : Iri) (op : Operation) (session : Session)
    (now : Instant) :
    r.Matches (replied (r.mutate id op session now)) (Abstract.mutate r.root r.faces id op) := by
  have hcases := mutate_cases hk id op session now
  generalize r.mutate id op session now = out at hcases
  have hrefusal := refusal?_map r id
  unfold Abstract.mutate
  cases hcases with
  | @refused e h =>
    rw [hrefusal, h]
    exact ⟨rfl, rfl, hk, rfl⟩
  | @failed p e r' h hp ho hr hs =>
    have hout := outcomeAt_map r p id session.agent now op
    rw [ho] at hout
    rw [hrefusal, h, hp]
    simp only [Option.map_none, hout, Except.mapError, Except.map]
    refine ⟨rfl, ?_, hs ▸ hk, hr⟩
    show r'.faces = r.faces
    unfold faces
    rw [hs]
  | @done p o c r' h hp ho hc _ ha =>
    have hout := outcomeAt_map r p id session.agent now op
    rw [ho] at hout
    rw [hrefusal, h, hp]
    simp only [Option.map_none, hout, Except.mapError, Except.map]
    refine ⟨?_, faces_after ha, ha.selfKeyed, ha.root⟩
    obtain ⟨hkind, x, hx, hres⟩ := hc
    have hface : x.face = o.target.face := by
      have hset := congrFun (faces_after ha) id
      simp only [faces, Faces.set, hx, Option.map_some, if_true, Option.some.injEq] at hset
      exact hset
    have hlive : o.target.face.live = decide (op.kind ≠ .deleted) := Abstract.live_of_outcome hout
    show Except.ok (Reply.committed c.kind ⟨c.kind ≠ .deleted, c.resource.model, c.resource.userGraph,
      c.resource.binary⟩) = Except.ok (.committed op.kind o.target.face)
    rw [hkind, ← hres, ← hlive, ← hface]
    rfl

theorem createRoot_matches {r : Repository σ} (hk : SelfKeyed r.store) (session : Session) (now : Instant) :
    r.Matches (r.call session now .makeRoot) (Abstract.step r.root r.faces .makeRoot) := by
  have hcases := createRoot_cases hk session now
  have hlive : Abstract.liveFace r.faces r.root = (findLive r.store r.root).map Resource.face :=
    Mutation.liveFace_map r.root
  unfold call Abstract.step
  generalize r.createRoot session now = out at hcases
  cases hcases with
  | present h =>
    rw [hlive, h]
    exact ⟨rfl, rfl, hk, rfl⟩
  | @made c r' h hc _ ha =>
    rw [hlive, h]
    refine ⟨rfl, ?_, ha.selfKeyed, ha.root⟩
    have hfaces := faces_after ha
    rw [show (r.foundingAt session.agent now).target.face = _ from Mutation.face_founded _ _ _ _] at hfaces
    exact hfaces

/-- One operation. -/
theorem call_matches {r : Repository σ} (hk : SelfKeyed r.store) (session : Session) (now : Instant) (c : Call) :
    r.Matches (r.call session now c) (Abstract.step r.root r.faces c) := by
  cases c with
  | makeRoot => exact createRoot_matches hk session now
  | create id model dataset =>
    dsimp only [call, Abstract.step, create]
    by_cases hm : model = .nonRdfSource
    · rw [if_pos hm, if_pos hm]
      exact ⟨rfl, rfl, hk, rfl⟩
    · rw [if_neg hm, if_neg hm]
      exact mutate_matches hk id _ session now
  | createBinary id binary dataset => exact mutate_matches hk id _ session now
  | replace id dataset => exact mutate_matches hk id _ session now
  | replaceModel id expected dataset => exact mutate_matches hk id _ session now
  | delete id =>
    dsimp only [call, Abstract.step, delete]
    by_cases hid : id = r.root
    · rw [if_pos hid, if_pos hid]
      exact ⟨rfl, rfl, hk, rfl⟩
    · rw [if_neg hid, if_neg hid]
      exact mutate_matches hk id .delete session now
  | get id =>
    refine ⟨?_, rfl, hk, rfl⟩
    have hlive : Abstract.liveFace r.faces id = (findLive r.store id).map Resource.face := Mutation.liveFace_map id
    show Except.mapError _ ((r.get id).map _) = Except.ok (Reply.found (Abstract.liveFace r.faces id))
    rw [get_eq_findLive, hlive]
    rfl
  | require id =>
    refine ⟨?_, rfl, hk, rfl⟩
    have hp : Abstract.presence r.faces id =
        ((Mutation.presence id (find r.store id)).mapError Error.kind).map Resource.face :=
      Mutation.presence_map id
    show Except.mapError _ ((r.require id).map _) = (Abstract.presence r.faces id).map _
    rw [hp, require_eq]
    cases Mutation.presence id (find r.store id) <;> rfl

/-- Whatever is run, the repository answers as the machine, and shows the same faces. -/
theorem play_eq {r : Repository σ} (hk : SelfKeyed r.store) (calls : List (Call × Session × Instant)) :
    r.play calls = Abstract.play r.root r.faces (calls.map (·.1)) := by
  induction calls generalizing r with
  | nil => rfl
  | cons c calls ih =>
    obtain ⟨c, session, now⟩ := c
    have h := call_matches hk session now c
    show ((r.call session now c).1.mapError Error.kind, (r.call session now c).2.faces) ::
      (r.call session now c).2.play calls = _
    rw [ih h.selfKeyed, h.answer, h.faces, h.root]
    rfl

/-- From an empty store on, a repository is the abstract map. -/
theorem open_refines_map (root : Iri) {s : σ} (h : ∀ id, find s id = none) (process : UInt32) (opened : Instant)
    (calls : List (Call × Session × Instant)) :
    (Repository.open root s process opened).play calls = Abstract.play root (fun _ => none) (calls.map (·.1)) := by
  have hk : SelfKeyed s := fun id r hr => by simp [h] at hr
  have hfaces : (Repository.open root s process opened).faces = fun _ => none := funext fun id => by
    show (find s id).map _ = none
    rw [h]
    rfl
  rw [play_eq (r := Repository.open root s process opened) hk, hfaces]
  rfl

/-- A resource that comes and goes in an empty table: it is gone, not unknown. -/
theorem table_refines_map :
    (∀ id, find Table.empty id = none) ∧
      ((Repository.open ⟨"trellis:data/"⟩ Table.empty 0 ⟨0, 0⟩).play
        [(.makeRoot, .administrator ⟨1, 0⟩, ⟨1, 0⟩),
         (.create ⟨"trellis:data/a"⟩ .rdfSource .empty, .anonymous ⟨2, 0⟩, ⟨2, 0⟩),
         (.delete ⟨"trellis:data/a"⟩, .anonymous ⟨3, 0⟩, ⟨3, 0⟩),
         (.require ⟨"trellis:data/a"⟩, .anonymous ⟨4, 0⟩, ⟨4, 0⟩)]).map (·.1) =
        [.ok (.root true), .ok (.committed .created ⟨true, .rdfSource, ∅, none⟩),
         .ok (.committed .deleted ⟨false, .rdfSource, ∅, none⟩), .error .gone] := by
  refine ⟨Table.get?_empty, ?_⟩
  rw [open_refines_map _ Table.get?_empty]
  decide

end Repository

end LinkedData
