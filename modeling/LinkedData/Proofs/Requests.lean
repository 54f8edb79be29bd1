/-
  LinkedData.Proofs.Requests — runs of a service.

  Whatever a client asks for, the repository of a service stays as it is, or its root is made,
  or one mutation is carried out whose user graph breaks no constraint (`serve_moved`).
  Archive, sink and notifications follow from commits and do not act back. So an invariant of
  those two moves, which looks at records but not at their times, holds in every state that
  requests lead to from an empty store (`Reachable`).
-/

import LinkedData.Proofs.Mutate
import LinkedData.Service

namespace LinkedData

open Std SteadyStore

/-- A write that a client asks for, or the making of the root. -/
inductive Request
  | makeRoot
  | create (id : Iri) (model : InteractionModel) (dataset : Dataset) (session : Session)
  | createBinary (id : Iri) (content : Bytes) (mime digest : Option String) (dataset : Dataset) (session : Session)
  | replace (id : Iri) (dataset : Dataset) (session : Session)
  | delete (id : Iri) (session : Session)

/-- The requests to replace or delete `id`. -/
inductive Request.Revises (id : Iri) : Request → Prop
  | replace (dataset : Dataset) (session : Session) : Revises id (.replace id dataset session)
  | delete (session : Session) : Revises id (.delete id session)

/-- The user graph that an operation brings breaks no constraint. -/
def Operation.Checked (domain : String) : Operation → Prop
  | .create model userGraph _ => Constraint.violations model domain userGraph = []
  | .replace userGraph expected => ∃ m ∈ expected, Constraint.violations m domain userGraph = []
  | .delete => True

namespace Repository

variable {σ : Type} [RecordStore σ] [KeyedStore σ]

/-- What a request can do to a repository. -/
inductive Moved (r r' : Repository σ) : Prop
  | still (hr : r'.root = r.root) (hs : r'.store = r.store)
  | founded {agent : Iri} {now : Instant} (h : findLive r.store r.root = none)
      (ha : After r.root (r.foundingAt agent now) r r')
  | mutated {id p agent : Iri} {op : Operation} {o : Outcome} {now : Instant} (h : r.refusal? id = none)
      (hp : Identifier.parent? r.root id = .ok (some p)) (hc : op.Checked r.root.text)
      (ho : r.outcomeAt p id agent now op = .ok o) (ha : After id o r r')

/-- What an operation on `id` can do to a repository. -/
inductive Carries (r : Repository σ) (id : Iri) (op : Operation) (r' : Repository σ) : Prop
  | still (hr : r'.root = r.root) (hs : r'.store = r.store)
  | done {p agent : Iri} {o : Outcome} {now : Instant} (h : r.refusal? id = none)
      (hp : Identifier.parent? r.root id = .ok (some p)) (hc : op.Checked r.root.text)
      (ho : r.outcomeAt p id agent now op = .ok o) (ha : After id o r r')

theorem Ending.carries {r : Repository σ} {id : Iri} {op : Operation} {session : Session} {now : Instant}
    {out : Except Error Commit × Repository σ} (h : Ending r id op session now out) (hc : op.Checked r.root.text) :
    Carries r id op out.2 := by
  cases h with
  | refused _ => exact .still rfl rfl
  | failed _ _ _ hr hs => exact .still hr hs
  | done h hp ho _ _ ha => exact .done h hp hc ho ha

theorem Carries.moved {r r' : Repository σ} {id : Iri} {op : Operation} (h : Carries r id op r') : Moved r r' := by
  cases h with
  | still hr hs => exact .still hr hs
  | done h hp hc ho ha => exact .mutated h hp hc ho ha

theorem Moved.root {r r' : Repository σ} (h : Moved r r') : r'.root = r.root := by
  cases h with
  | still hr _ => exact hr
  | founded _ ha => exact ha.root
  | mutated _ _ _ _ ha => exact ha.root

theorem Moved.selfKeyed {r r' : Repository σ} (h : Moved r r') (hk : SelfKeyed r.store) : SelfKeyed r'.store := by
  cases h with
  | still _ hs => exact hs ▸ hk
  | founded _ ha => exact ha.selfKeyed
  | mutated _ _ _ _ ha => exact ha.selfKeyed

end Repository

namespace Service

open Repository

/-- A service after a request. -/
def serve {σ α ε : Type} [RecordStore σ] [MementoStore α] [BlobStore α] [EventSink ε] (s : Service σ α ε)
    (now : Instant) :
    Request → Service σ α ε
  | .makeRoot => (s.createRoot now).2
  | .create id model dataset session => (s.create id model dataset session now).2
  | .createBinary id content mime digest dataset session =>
    (s.createBinary id content mime digest dataset session now).2
  | .replace id dataset session => (s.replace id dataset session now).2
  | .delete id session => (s.delete id session now).2

variable {σ α ε : Type} [MementoStore α] [EventSink ε]

theorem repository_conclude (s : Service σ α ε) (now : Instant) (answer : Except Error Commit × Repository σ) :
    (s.conclude now answer).2.repository = answer.2 := by
  unfold conclude
  dsimp only
  cases answer.1 <;> rfl

omit [MementoStore α] [EventSink ε] in
theorem violations_of_checkConstraints {s : Service σ α ε} {m : InteractionModel} {d : Dataset}
    (h : s.checkConstraints m d = .ok ()) : Constraint.violations m s.repository.root.text d.userGraph = [] := by
  unfold checkConstraints at h
  split at h
  · assumption
  · cases h

omit [MementoStore α] [EventSink ε] in
/-- What is checked before the content of a new resource is stored. -/
def vet (s : Service σ α ε) (content : Bytes) (digest : Option String) (d : Dataset) : Except Error Unit := do
  match digest with
  | some text => (Digest.verify content text).mapError fun f => .malformedInput f.message
  | none => pure ()
  s.checkConstraints .nonRdfSource d

omit [MementoStore α] [EventSink ε] in
theorem checkConstraints_of_vet {s : Service σ α ε} {content : Bytes} {digest : Option String} {d : Dataset}
    (h : s.vet content digest d = .ok ()) : s.checkConstraints .nonRdfSource d = .ok () := by
  unfold vet at h
  cases digest with
  | none => exact h
  | some text =>
    cases hd : Digest.verify content text with
    | error f => simp [hd, Except.mapError, bind, Except.bind] at h
    | ok u => simpa [hd, Except.mapError, bind, Except.bind] using h

variable [RecordStore σ] [KeyedStore σ] {s : Service σ α ε}

theorem createRoot_moved (hk : SelfKeyed s.repository.store) (now : Instant) :
    Moved s.repository (s.createRoot now).2.repository := by
  have hcases := createRoot_cases hk (Session.administrator now) now
  unfold createRoot
  generalize s.repository.createRoot (Session.administrator now) now = out at hcases
  cases hcases with
  | present h => exact .still rfl rfl
  | made h _ _ ha => exact .founded h ha

theorem create_moved (hk : SelfKeyed s.repository.store) (id : Iri) (m : InteractionModel) (d : Dataset)
    (session : Session) (now : Instant) : Moved s.repository (s.create id m d session now).2.repository := by
  unfold create
  cases hc : s.checkConstraints m d with
  | error e => exact .still rfl rfl
  | ok u =>
    dsimp only
    rw [repository_conclude, Repository.create]
    by_cases hm : m = .nonRdfSource
    · rw [if_pos hm]
      exact .still rfl rfl
    · rw [if_neg hm]
      have hends := mutate_cases hk id (.create m d.userGraph none) session now
      exact (hends.carries (violations_of_checkConstraints hc)).moved

theorem replace_carries (hk : SelfKeyed s.repository.store) (id : Iri) (d : Dataset) (session : Session)
    (now : Instant) :
    ∃ expected, Carries s.repository id (.replace d.userGraph expected) (s.replace id d session now).2.repository := by
  unfold replace
  cases s.repository.require id with
  | error e => exact ⟨none, .still rfl rfl⟩
  | ok current =>
    dsimp only
    cases hc : s.checkConstraints current.model d with
    | error e => exact ⟨none, .still rfl rfl⟩
    | ok u =>
      dsimp only
      rw [repository_conclude]
      exact ⟨_, (mutate_cases hk id _ session now).carries ⟨current.model, rfl, violations_of_checkConstraints hc⟩⟩

theorem delete_carries (hk : SelfKeyed s.repository.store) (id : Iri) (session : Session) (now : Instant) :
    Carries s.repository id .delete (s.delete id session now).2.repository := by
  unfold delete
  dsimp only
  rw [repository_conclude, Repository.delete]
  by_cases hid : id = s.repository.root
  · rw [if_pos hid]
    exact .still rfl rfl
  · rw [if_neg hid]
    exact (mutate_cases hk id _ session now).carries trivial

variable [BlobStore α]

omit [KeyedStore σ] in
theorem createBinary_eq (s : Service σ α ε) (id : Iri) (content : Bytes) (mime digest : Option String) (d : Dataset)
    (session : Session) (now : Instant) :
    s.createBinary id content mime digest d session now =
      match s.vet content digest d with
      | .error e => (.error e, s)
      | .ok () =>
        match BlobStore.store s.archive content mime with
        | (.error f, archive) => (.error (.storage f), { s with archive })
        | (.ok binary, archive) =>
          conclude { s with archive } now (s.repository.createBinary id binary d session now) := by
  show (match s.vet content digest d with | .error e => _ | .ok () => _) = _
  cases s.vet content digest d with
  | error e => rfl
  | ok u =>
    obtain ⟨stored, archive⟩ := BlobStore.store s.archive content mime
    cases stored <;> rfl

theorem createBinary_moved (hk : SelfKeyed s.repository.store) (id : Iri) (content : Bytes)
    (mime digest : Option String) (d : Dataset) (session : Session) (now : Instant) :
    Moved s.repository (s.createBinary id content mime digest d session now).2.repository := by
  rw [createBinary_eq]
  cases hc : s.vet content digest d with
  | error e => exact .still rfl rfl
  | ok u =>
    obtain ⟨stored, archive⟩ := BlobStore.store s.archive content mime
    cases stored with
    | error f => exact .still rfl rfl
    | ok binary =>
      dsimp only
      rw [repository_conclude]
      have hends := mutate_cases hk id (.create .nonRdfSource d.userGraph (some binary)) session now
      exact (hends.carries (violations_of_checkConstraints (checkConstraints_of_vet hc))).moved

theorem serve_moved (hk : SelfKeyed s.repository.store) (now : Instant) (q : Request) :
    Moved s.repository (s.serve now q).repository := by
  cases q with
  | makeRoot => exact createRoot_moved hk now
  | create id model dataset session => exact create_moved hk id model dataset session now
  | createBinary id content mime digest dataset session =>
    exact createBinary_moved hk id content mime digest dataset session now
  | replace id dataset session => exact (replace_carries hk id dataset session now).choose_spec.moved
  | delete id session => exact (delete_carries hk id session now).moved

theorem serve_carries (hk : SelfKeyed s.repository.store) (now : Instant) {q : Request} {id : Iri} (hq : q.Revises id) :
    ∃ op, op.isCreate = false ∧ Carries s.repository id op (s.serve now q).repository := by
  cases hq with
  | replace dataset session =>
    obtain ⟨expected, h⟩ := replace_carries hk id dataset session now
    exact ⟨_, rfl, h⟩
  | delete session => exact ⟨_, rfl, delete_carries hk id session now⟩

/-- The states that requests lead to from an empty store. -/
inductive Reachable : Service σ α ε → Prop
  | empty {s : Service σ α ε} (h : ∀ id, find s.repository.store id = none) : Reachable s
  | serve {s : Service σ α ε} (now : Instant) (q : Request) (h : Reachable s) : Reachable (s.serve now q)

theorem Reachable.selfKeyed (h : Reachable s) : SelfKeyed s.repository.store := by
  induction h with
  | empty h => exact fun id r hr => by simp [h] at hr
  | serve now q _ ih => exact (serve_moved ih now q).selfKeyed ih

/-- A run from an empty store: the state that it led to, and the states before it, the latest first. -/
inductive Trace : Service σ α ε → List (Service σ α ε) → Prop
  | empty {s : Service σ α ε} (h : ∀ id, find s.repository.store id = none) : Trace s []
  | serve {s : Service σ α ε} {past : List (Service σ α ε)} (now : Instant) (q : Request) (h : Trace s past) :
      Trace (s.serve now q) (s :: past)

theorem Trace.reachable {past : List (Service σ α ε)} (h : Trace s past) : Reachable s := by
  induction h with
  | empty h => exact .empty h
  | serve now q _ ih => exact .serve now q ih

omit [KeyedStore σ] in
/-- A service after some requests, and the states before it, on top of those that there were. -/
def trail (s : Service σ α ε) (past : List (Service σ α ε)) :
    List (Instant × Request) → Service σ α ε × List (Service σ α ε)
  | [] => (s, past)
  | (now, q) :: qs => trail (s.serve now q) (s :: past) qs

theorem Trace.trail {past : List (Service σ α ε)} (h : Trace s past) (qs : List (Instant × Request)) :
    Trace (s.trail past qs).1 (s.trail past qs).2 := by
  induction qs generalizing s past with
  | nil => exact h
  | cons q qs ih =>
    obtain ⟨now, q⟩ := q
    exact ih (.serve now q h)

omit [MementoStore α] [BlobStore α] [EventSink ε] in
theorem get_eq_ok {x : Iri} {r : Resource} :
    s.get x = .ok (some r) ↔ liveIn (find s.repository.store) x = some r := by
  rw [get, get_eq_findLive]
  simp [findLive, liveIn]

omit [KeyedStore σ] [MementoStore α] [BlobStore α] [EventSink ε] in
/-- Whether there is a live resource under an identifier. -/
def alive (s : Service σ α ε) (x : Iri) : Bool := (s.get x).toOption.join.isSome

omit [MementoStore α] [BlobStore α] [EventSink ε] in
theorem alive_eq (s : Service σ α ε) (x : Iri) : s.alive x = (liveIn (find s.repository.store) x).isSome := by
  rw [alive, get, get_eq_findLive]
  rfl

omit [MementoStore α] [BlobStore α] [EventSink ε] in
theorem alive_iff {x : Iri} : s.alive x = true ↔ ∃ r, s.get x = .ok (some r) := by
  simp only [alive_eq, get_eq_ok, Option.isSome_iff_exists]

end Service

end LinkedData
