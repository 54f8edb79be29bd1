/-
  LinkedData.Proofs.Writers — many writers on one store.

  A writer makes one call after another. It plans, which takes reading; it claims the whole of
  its plan at once when none of it is held; it reads again under the guard, and when that plan
  is not covered by the guard it gives the guard up and plans anew, 16 times at most. Then it
  reads what it needs, carries the call out with one batch, and releases. The making of the
  root takes the same way, with the root for its plan.

  The steps of different writers come in any order. In each phase a writer goes by its notes,
  which begin with the store as it is when the phase begins. At any time in it the writer may
  look at any record once more and note it as it then is, so every record it goes by may be from
  another moment. The clock and the scopes that a call draws are any.
-/

import LinkedData.Locks
import LinkedData.Proofs.Desk
import Mathlib.Logic.Function.Basic

namespace LinkedData

open Std SteadyStore

/-- What a writer is called for. -/
inductive Writing
  | makeRoot
  | create (id : Iri) (model : InteractionModel) (dataset : Dataset)
  | createBinary (id : Iri) (binary : Binary) (dataset : Dataset)
  | replace (id : Iri) (dataset : Dataset)
  | replaceModel (id : Iri) (expected : InteractionModel) (dataset : Dataset)
  | delete (id : Iri)

/-- What is to be done then. -/
inductive Task
  | makeRoot
  | mutate (id : Iri) (op : Operation)

def Writing.task : Writing → Task
  | .makeRoot => .makeRoot
  | .create id model dataset => .mutate id (.create model dataset.userGraph none)
  | .createBinary id binary dataset => .mutate id (.create .nonRdfSource dataset.userGraph (some binary))
  | .replace id dataset => .mutate id (.replace dataset.userGraph none)
  | .replaceModel id expected dataset => .mutate id (.replace dataset.userGraph (some expected))
  | .delete id => .mutate id .delete

structure Job where
  writing : Writing
  session : Session

def Job.task (j : Job) : Task := j.writing.task

/-- What is said of a commit; making a root that is there commits nothing. -/
abbrev Answer := Except Error (Option Commit)

/-- A job that was carried out: the time and the scopes that it drew, and its answer. -/
structure Turn extends Job where
  now : Instant
  scopes : ScopeSource
  answer : Answer

/-- What a second reading says of a guard. -/
inductive Verdict
  | go
  | again
  /-- There is nothing to write. -/
  | done (a : Answer)
  deriving DecidableEq

namespace Repository

variable {σ : Type}

def answered (out : Except Error Commit × Repository σ) : Answer × Repository σ := (out.1.map some, out.2)

/-- What is turned away before anything is read. -/
def barred? (r : Repository σ) : Writing → Option Error
  | .makeRoot => none
  | .create id model _ =>
    if model = .nonRdfSource then some (.malformedInput ("NonRDFSource " ++ id.text ++ " requires binary content"))
    else r.refusal? id
  | .delete id =>
    if id = r.root then some (.conflict ("The root container " ++ id.text ++ " cannot be deleted")) else r.refusal? id
  | .createBinary id _ _ | .replace id _ | .replaceModel id _ _ => r.refusal? id

variable [RecordStore σ] (r : Repository σ)

/-- A job carried out by its only writer. -/
def alone (j : Job) (now : Instant) : Answer × Repository σ :=
  match j.writing with
  | .makeRoot => r.createRoot j.session now
  | .create id model dataset => answered (r.create id model dataset j.session now)
  | .createBinary id binary dataset => answered (r.createBinary id binary dataset j.session now)
  | .replace id dataset => answered (r.replace id dataset j.session now)
  | .replaceModel id expected dataset => answered (r.replaceModel id expected dataset j.session now)
  | .delete id => answered (r.delete id j.session now)

def plan : Task → Except Error (List Iri)
  | .makeRoot => .ok [r.root]
  | .mutate id op => r.affected id op

def verdict (g : Guard) : Task → Verdict
  | .makeRoot =>
    match r.get r.root with
    | .error e => .done (.error e)
    | .ok (some _) => .done (.ok none)
    | .ok none => .go
  | .mutate id op =>
    match r.affected id op with
    | .error e => .done (.error e)
    | .ok ids => if g.coversAll ids then .go else .again

/-- The part that is done under a guard that covers it. -/
def carryOut (g : Guard) (j : Job) (now : Instant) : Answer × Repository σ :=
  match j.task with
  | .makeRoot => answered (r.transact now (Mutation.foundRoot r.root j.session.agent))
  | .mutate id op => answered (r.perform id op j.session now g)

/-- Who is turned away at once would be turned away alone. -/
theorem alone_of_barred? {j : Job} {e : Error} (h : r.barred? j.writing = some e) (now : Instant) :
    r.alone j now = (.error e, r) := by
  have hrefused : ∀ {id op}, r.refusal? id = some e → r.mutate id op j.session now = (.error e, r) := fun h => by
    unfold mutate
    rw [h]
  obtain ⟨wr, session⟩ := j
  cases wr with
  | makeRoot => cases h
  | create id model dataset =>
    dsimp only [barred?, alone, create] at h ⊢
    by_cases hm : model = .nonRdfSource
    · rw [if_pos hm] at h ⊢
      cases h
      rfl
    · rw [if_neg hm] at h ⊢
      rw [hrefused h]
      rfl
  | delete id =>
    dsimp only [barred?, alone, delete] at h ⊢
    by_cases hid : id = r.root
    · rw [if_pos hid] at h ⊢
      cases h
      rfl
    · rw [if_neg hid] at h ⊢
      rw [hrefused h]
      rfl
  | createBinary id binary dataset => exact congrArg answered (hrefused h)
  | replace id dataset => exact congrArg answered (hrefused h)
  | replaceModel id expected dataset => exact congrArg answered (hrefused h)

/-- Who is not has its task done. -/
theorem alone_of_not_barred {j : Job} (h : r.barred? j.writing = none) (now : Instant) :
    match j.task with
    | .makeRoot => r.alone j now = r.createRoot j.session now
    | .mutate id op => r.refusal? id = none ∧ r.alone j now = answered (r.mutate id op j.session now) := by
  obtain ⟨wr, session⟩ := j
  cases wr with
  | makeRoot => rfl
  | create id model dataset =>
    dsimp only [barred?] at h
    split at h
    · cases h
    · next hm => exact ⟨h, by dsimp only [alone, create]; rw [if_neg hm]⟩
  | delete id =>
    dsimp only [barred?] at h
    split at h
    · cases h
    · next hid => exact ⟨h, by dsimp only [alone, delete]; rw [if_neg hid]⟩
  | createBinary id binary dataset => exact ⟨h, rfl⟩
  | replace id dataset => exact ⟨h, rfl⟩
  | replaceModel id expected dataset => exact ⟨h, rfl⟩

end Repository

/-! ## Writers -/

abbrev Notes := Iri → Option Record

/-- How often a writer plans before it gives up. -/
def attempts : Nat := 16

/-- The error of a writer that gave up. -/
def crowded (id : Iri) : Error :=
  .conflict ("Resources related to " ++ id.text ++ " kept changing while acquiring locks")

/-- Where a writer is. `left` counts the attempts that remain after this one. -/
inductive Phase
  | idle
  | planning (j : Job) (left : Nat) (notes : Notes)
  | waiting (j : Job) (left : Nat) (ids : List Iri)
  | checking (j : Job) (left : Nat) (g : Guard) (notes : Notes)
  | working (j : Job) (g : Guard) (notes : Notes)
  | leaving (t : Turn) (g : Guard)

namespace Phase

def guard? : Phase → Option Guard
  | idle | planning .. | waiting .. => none
  | checking _ _ g _ | working _ g _ | leaving _ g => some g

/-- After the record of `x` was looked at. -/
def note (x : Iri) (r : Option Record) : Phase → Phase
  | planning j left notes => planning j left (Function.update notes x r)
  | checking j left g notes => checking j left g (Function.update notes x r)
  | working j g notes => working j g (Function.update notes x r)
  | p => p

@[simp] theorem guard?_note (p : Phase) (x : Iri) (r : Option Record) : (p.note x r).guard? = p.guard? := by
  cases p <;> rfl

end Phase

structure Writers (σ κ : Type) where
  store : σ
  locks : Locks
  phase : κ → Phase
  /-- What was carried out, in the order of the releases. -/
  log : List Turn
  /-- What was turned away, or given up. -/
  away : List (Job × Error)

namespace Writers

variable {σ κ : Type}

/-- Before anyone came. -/
def rest (s : σ) : Writers σ κ := ⟨s, .none, fun _ => .idle, [], []⟩

/-- The repository as a writer sees it. -/
def desk (w : Writers σ κ) (root : Iri) (notes : Notes) (scopes : ScopeSource) : Repository (Desk σ) :=
  ⟨root, ⟨notes, w.store⟩, scopes⟩

variable [DecidableEq κ]

/-- The writer `k` comes to `p`. -/
def place (w : Writers σ κ) (k : κ) (p : Phase) : Writers σ κ := { w with phase := Function.update w.phase k p }

variable [RecordStore σ] [SteadyStore σ]

/-- A step of the writer `k`. -/
inductive Step (root : Iri) (k : κ) : Writers σ κ → Writers σ κ → Prop
  | bar {w : Writers σ κ} {j : Job} {scopes : ScopeSource} {e : Error} (hk : w.phase k = .idle)
      (he : (⟨root, w.store, scopes⟩ : Repository σ).barred? j.writing = some e) :
      Step root k w { w with away := w.away ++ [(j, e)] }
  | start {w : Writers σ κ} {j : Job} {scopes : ScopeSource} (hk : w.phase k = .idle)
      (he : (⟨root, w.store, scopes⟩ : Repository σ).barred? j.writing = none) :
      Step root k w (w.place k (.planning j (attempts - 1) (find w.store)))
  | look {w : Writers σ κ} (x : Iri) : Step root k w (w.place k ((w.phase k).note x (find w.store x)))
  | plan {w : Writers σ κ} {j : Job} {left : Nat} {notes : Notes} {scopes : ScopeSource} {ids : List Iri}
      (hk : w.phase k = .planning j left notes) (hp : (w.desk root notes scopes).plan j.task = .ok ids) :
      Step root k w (w.place k (.waiting j left ids))
  | stop {w : Writers σ κ} {j : Job} {left : Nat} {notes : Notes} {scopes : ScopeSource} {e : Error}
      (hk : w.phase k = .planning j left notes) (hp : (w.desk root notes scopes).plan j.task = .error e) :
      Step root k w { w.place k .idle with away := w.away ++ [(j, e)] }
  | claim {w : Writers σ κ} {j : Job} {left : Nat} {ids : List Iri} {g : Guard} {locks : Locks}
      (hk : w.phase k = .waiting j left ids) (hc : w.locks.claim? ids = some (g, locks)) :
      Step root k w { w.place k (.checking j left g (find w.store)) with locks }
  | go {w : Writers σ κ} {j : Job} {left : Nat} {g : Guard} {notes : Notes} {scopes : ScopeSource}
      (hk : w.phase k = .checking j left g notes) (hv : (w.desk root notes scopes).verdict g j.task = .go) :
      Step root k w (w.place k (.working j g (find w.store)))
  | again {w : Writers σ κ} {j : Job} {left : Nat} {g : Guard} {notes : Notes} {scopes : ScopeSource}
      (hk : w.phase k = .checking j (left + 1) g notes)
      (hv : (w.desk root notes scopes).verdict g j.task = .again) :
      Step root k w { w.place k (.planning j left (find w.store)) with locks := w.locks.release g }
  | giveUp {w : Writers σ κ} {j : Job} {id : Iri} {op : Operation} {g : Guard} {notes : Notes} {scopes : ScopeSource}
      (hk : w.phase k = .checking j 0 g notes) (hj : j.task = .mutate id op)
      (hv : (w.desk root notes scopes).verdict g j.task = .again) :
      Step root k w { w.place k .idle with locks := w.locks.release g, away := w.away ++ [(j, crowded id)] }
  | settle {w : Writers σ κ} {j : Job} {left : Nat} {g : Guard} {notes : Notes} {scopes : ScopeSource} {a : Answer}
      (now : Instant) (hk : w.phase k = .checking j left g notes)
      (hv : (w.desk root notes scopes).verdict g j.task = .done a) :
      Step root k w (w.place k (.leaving ⟨j, now, scopes, a⟩ g))
  | work {w : Writers σ κ} {j : Job} {g : Guard} {notes : Notes} {a : Answer} {r : Repository (Desk σ)} (now : Instant)
      (scopes : ScopeSource) (hk : w.phase k = .working j g notes)
      (hr : (w.desk root notes scopes).carryOut g j now = (a, r)) :
      Step root k w { w.place k (.leaving ⟨j, now, scopes, a⟩ g) with store := r.store.shared }
  | release {w : Writers σ κ} {t : Turn} {g : Guard} (hk : w.phase k = .leaving t g) :
      Step root k w { w.place k .idle with locks := w.locks.release g, log := w.log ++ [t] }

/-- What writers come to from a store, whatever the order of their steps. -/
inductive Reach (root : Iri) (s : σ) : Writers σ κ → Prop
  | rest : Reach root s (rest s)
  | step {w w' : Writers σ κ} {k : κ} (h : Reach root s w) (hs : Step root k w w') : Reach root s w'

end Writers

/-! ## One at a time -/

/-- The answers to some turns taken one after another, whatever was answered then, and the store after them. -/
def replay {σ : Type} [RecordStore σ] (root : Iri) (s : σ) : List Turn → List Answer × σ
  | [] => ([], s)
  | t :: ts =>
    let (answer, r) := (⟨root, s, t.scopes⟩ : Repository σ).alone t.toJob t.now
    let (answers, s) := replay root r.store ts
    (answer :: answers, s)

theorem replay_append {σ : Type} [RecordStore σ] (root : Iri) (s : σ) (ts : List Turn) (t : Turn) :
    replay root s (ts ++ [t]) =
      ((replay root s ts).1 ++ [((⟨root, (replay root s ts).2, t.scopes⟩ : Repository σ).alone t.toJob t.now).1],
        ((⟨root, (replay root s ts).2, t.scopes⟩ : Repository σ).alone t.toJob t.now).2.store) := by
  induction ts generalizing s with
  | nil => rfl
  | cons a ts ih =>
    simp only [List.cons_append, replay, ih]

end LinkedData
