/-
  LinkedData.Proofs.Upkeep — what a mutation reads and writes, as data.

  A mutation puts a new record of its target and keeps the server graphs of others in step with
  it. The second part is an `Upkeep`: identifiers to read, and edits. `Upkeep.rejoin`,
  `Upkeep.reconfigure` and `Upkeep.leave` say which, from what the transaction sees; the
  lemmas `eval_…` say that the program does just that. With them each operation has one
  equation for every way in which it can end: what it answers, and the transaction it leaves.
-/

import LinkedData.Proofs.Evaluation

namespace LinkedData

open Std SteadyStore Vocabulary

/-- Identifiers that are read, then edits that are made. -/
structure Upkeep where
  reads : List Iri
  edits : List Edit

namespace Upkeep

/-- `ts` leave `container` with `leaving`: all of them that no other live child supplies. -/
def retract (see : Iri → Option Resource) (m : Membership) (container : Resource) (leaving : Iri)
    (ts : List MemberTriple) : Upkeep :=
  if ts = [] then ⟨[], []⟩
  else
    let siblings := container.children.filter (· ≠ leaving)
    let supplied := (siblings.filterMap see).flatMap m.triples
    ⟨siblings, (ts.filter fun t => ¬ supplied.contains t).map .drop⟩

/-- The container of an identifier and the membership that it maintains, if it maintains any. -/
def above (see : Iri → Option Resource) (parent : Iri) : Option (Resource × Membership) :=
  (see parent).bind fun c => (Membership.ofContainer? c).map (c, ·)

/-- A child changed from `current` to `updated`. -/
def rejoin (see : Iri → Option Resource) (parent id : Iri) (current updated : Resource) : Upkeep :=
  match above see parent with
  | none => ⟨[parent], []⟩
  | some (container, m) =>
    let before := m.triples current
    let after := m.triples updated
    if before = after then ⟨[parent], []⟩
    else
      let u := retract see m container id (before.filter fun t => ¬ after.contains t)
      ⟨parent :: u.reads, u.edits ++ after.map .add⟩

/-- What the membership `m`, if there is one, says of some children. -/
def contributions (m : Option Membership) (children : List Resource) : List MemberTriple :=
  match m with
  | some m => children.flatMap m.triples
  | none => []

/-- A container changed from `current` to `updated`. -/
def reconfigure (see : Iri → Option Resource) (current updated : Resource) : Upkeep :=
  let old := Membership.ofContainer? current
  let new := Membership.ofContainer? updated
  if old = new then ⟨[], []⟩
  else
    let children := current.children.filterMap see
    ⟨current.children, (contributions old children).map .drop ++ (contributions new children).map .add⟩

/-- A child goes. -/
def leave (see : Iri → Option Resource) (parent id : Iri) (current : Resource) : Upkeep :=
  let u : Upkeep := match above see parent with
    | none => ⟨[], []⟩
    | some (container, m) => retract see m container id (m.triples current)
  ⟨parent :: u.reads, u.edits ++ [.drop ⟨parent, Resource.containment parent id⟩]⟩

/-- A child comes. -/
def join (parent : Iri) (container : Resource) (id : Iri) (child : Resource) : Upkeep :=
  ⟨[], .add ⟨parent, Resource.containment parent id⟩ ::
    (contributions (Membership.ofContainer? container) [child]).map .add⟩

end Upkeep

namespace Transaction

variable {σ : Type} [RecordStore σ] [SteadyStore σ]

def keepUp (tx : Transaction σ) (u : Upkeep) : Transaction σ := (tx.touchAll u.reads).edits u.edits

/-- After `id` was read, a time and a node were drawn for it, and its new record was put. -/
def renew (tx : Transaction σ) (id : Iri) (r : Record) : Transaction σ := ((tx.touch id).ask id).draw.put r

theorem look_renew (tx : Transaction σ) (id : Iri) (r : Record) (x : Iri) :
    (tx.renew id r).look x = if r.id = x then some r else tx.look x := by
  unfold renew
  rw [look_put, look_draw, look_ask, look_touch]

theorem Tidy.renew {tx : Transaction σ} (h : tx.Tidy) (id : Iri) (r : Record) : (tx.renew id r).Tidy := by
  have hl : ((tx.touch id).ask id).draw.look = tx.look := by rw [look_draw, look_ask, look_touch]
  exact (h.congr hl).put r

theorem edits_append (tx : Transaction σ) (es fs : List Edit) : tx.edits (es ++ fs) = (tx.edits es).edits fs :=
  List.foldl_append

theorem lookLive_touch (tx : Transaction σ) (id : Iri) : (tx.touch id).lookLive = tx.lookLive :=
  lookLive_congr (look_touch tx id)

/-! A step keeps the store, the time and, unless it draws a node, the source of scopes. -/

omit [RecordStore σ] [SteadyStore σ] in
theorem touch_rest (tx : Transaction σ) (id : Iri) :
    (tx.touch id).store = tx.store ∧ (tx.touch id).now = tx.now ∧ (tx.touch id).scopes = tx.scopes := by
  unfold touch
  split <;> exact ⟨rfl, rfl, rfl⟩

omit [RecordStore σ] [SteadyStore σ] in
theorem touchAll_rest (tx : Transaction σ) (ids : List Iri) :
    (tx.touchAll ids).store = tx.store ∧ (tx.touchAll ids).now = tx.now ∧ (tx.touchAll ids).scopes = tx.scopes := by
  induction ids generalizing tx with
  | nil => exact ⟨rfl, rfl, rfl⟩
  | cons id ids ih =>
    obtain ⟨hs, hn, hc⟩ := ih (tx.touch id)
    obtain ⟨hs', hn', hc'⟩ := touch_rest tx id
    exact ⟨hs.trans hs', hn.trans hn', hc.trans hc'⟩

theorem edit_rest (tx : Transaction σ) (e : Edit) :
    (tx.edit e).store = tx.store ∧ (tx.edit e).now = tx.now ∧ (tx.edit e).scopes = tx.scopes := by
  unfold edit
  split <;> exact touch_rest tx e.holder

theorem edits_rest (tx : Transaction σ) (es : List Edit) :
    (tx.edits es).store = tx.store ∧ (tx.edits es).now = tx.now ∧ (tx.edits es).scopes = tx.scopes := by
  induction es generalizing tx with
  | nil => exact ⟨rfl, rfl, rfl⟩
  | cons e es ih =>
    obtain ⟨hs, hn, hc⟩ := ih (tx.edit e)
    obtain ⟨hs', hn', hc'⟩ := edit_rest tx e
    exact ⟨hs.trans hs', hn.trans hn', hc.trans hc'⟩

theorem keepUp_rest (tx : Transaction σ) (u : Upkeep) :
    (tx.keepUp u).store = tx.store ∧ (tx.keepUp u).now = tx.now ∧ (tx.keepUp u).scopes = tx.scopes := by
  obtain ⟨hs, hn, hc⟩ := edits_rest (tx.touchAll u.reads) u.edits
  obtain ⟨hs', hn', hc'⟩ := touchAll_rest tx u.reads
  exact ⟨hs.trans hs', hn.trans hn', hc.trans hc'⟩

@[simp] theorem due_touch (tx : Transaction σ) (id : Iri) : (tx.touch id).due = tx.due := by
  obtain ⟨hs, hn, -⟩ := touch_rest tx id
  funext x
  rw [due, hs, hn]
  rfl

@[simp] theorem due_keepUp (tx : Transaction σ) (u : Upkeep) : (tx.keepUp u).due = tx.due := by
  obtain ⟨hs, hn, -⟩ := keepUp_rest tx u
  funext x
  rw [due, hs, hn]
  rfl

theorem look_keepUp {tx : Transaction σ} (h : tx.Tidy) (u : Upkeep) (id : Iri) :
    (tx.keepUp u).look id = (tx.look id).map (·.edited u.edits) := by
  unfold keepUp
  rw [look_edits (h.congr (look_touchAll tx _)), look_touchAll]

theorem lookLive_keepUp {tx : Transaction σ} (h : tx.Tidy) (u : Upkeep) (id : Iri) :
    (tx.keepUp u).lookLive id = (tx.lookLive id).map (·.edited u.edits) := by
  unfold keepUp
  rw [lookLive_edits (h.congr (look_touchAll tx _)), lookLive_congr (look_touchAll tx _)]

theorem Tidy.keepUp {tx : Transaction σ} (h : tx.Tidy) (u : Upkeep) : (tx.keepUp u).Tidy :=
  (h.congr (look_touchAll tx _)).edits _

end Transaction

namespace Mutation

open Transaction

variable {σ : Type} [RecordStore σ] [SteadyStore σ]

/-! ## The parts of a mutation -/

omit [RecordStore σ] [SteadyStore σ] in
theorem eval_parentOf {root id p : Iri} (hp : Identifier.parent? root id = .ok (some p)) (tx : Transaction σ) :
    eval (liftM (parentOf root id) : TransactionM σ (Option Iri)) tx = (.ok (some p), tx) := by
  rw [eval_liftExcept, parentOf, hp]
  rfl

theorem eval_retract (m : Membership) (container : Resource) (leaving : Iri) (ts : List MemberTriple)
    (tx : Transaction σ) :
    eval (retract m container leaving ts) tx =
      (.ok (), tx.keepUp (Upkeep.retract tx.lookLive m container leaving ts)) := by
  unfold retract Upkeep.retract
  by_cases h : ts = []
  · rw [if_pos h, if_pos h]
    rfl
  · rw [if_neg h, if_neg h, eval_bind_ok (eval_liveOnes _ tx)]
    exact eval_removeMembers _ _

theorem eval_rejoin {root id p : Iri} (hp : Identifier.parent? root id = .ok (some p)) (current updated : Resource)
    (tx : Transaction σ) :
    eval (rejoin root id current updated) tx =
      (.ok (), tx.keepUp (Upkeep.rejoin tx.lookLive p id current updated)) := by
  unfold rejoin Upkeep.rejoin Upkeep.above
  rw [eval_bind_ok (eval_parentOf hp tx)]
  dsimp only
  rw [eval_bind_ok (eval_live p tx)]
  cases tx.lookLive p with
  | none => rfl
  | some parent =>
    dsimp only [Option.bind_some]
    cases Membership.ofContainer? parent with
    | none => rfl
    | some m =>
      dsimp only [Option.map_some]
      by_cases h : m.triples current = m.triples updated
      · rw [if_pos h, if_pos h]
        rfl
      · rw [if_neg h, if_neg h, eval_bind_ok (eval_retract _ _ _ _ _), eval_addMembers, lookLive_touch]
        simp only [keepUp, edits_append]
        rfl

theorem eval_forM_children {f : Resource → TransactionM σ Unit} {es : Resource → List Edit}
    (hf : ∀ c (tx : Transaction σ), eval (f c) tx = (.ok (), tx.edits (es c))) (children : List Resource)
    (tx : Transaction σ) : eval (children.forM f) tx = (.ok (), tx.edits (children.flatMap es)) := by
  induction children generalizing tx with
  | nil => rfl
  | cons c cs ih =>
    rw [List.forM_eq_forM, List.forM_cons, List.flatMap_cons, edits_append]
    exact (eval_bind_ok (hf c tx)).trans (ih _)

theorem eval_removeAll (m : Membership) (children : List Resource) (tx : Transaction σ) :
    eval (children.forM fun c => removeMembers (m.triples c)) tx =
      (.ok (), tx.edits ((children.flatMap m.triples).map .drop)) := by
  rw [List.map_flatMap]
  exact eval_forM_children (fun c tx => eval_removeMembers _ tx) children tx

theorem eval_addAll (m : Membership) (children : List Resource) (tx : Transaction σ) :
    eval (children.forM fun c => addMembers (m.triples c)) tx =
      (.ok (), tx.edits ((children.flatMap m.triples).map .add)) := by
  rw [List.map_flatMap]
  exact eval_forM_children (fun c tx => eval_addMembers _ tx) children tx

theorem eval_reconfigure (current updated : Resource) (tx : Transaction σ) :
    eval (reconfigure current updated) tx = (.ok (), tx.keepUp (Upkeep.reconfigure tx.lookLive current updated)) := by
  unfold reconfigure Upkeep.reconfigure
  dsimp only
  by_cases h : Membership.ofContainer? current = Membership.ofContainer? updated
  · rw [if_pos h, if_pos h]
    rfl
  · rw [if_neg h, if_neg h, eval_bind_ok (eval_liveOnes _ tx)]
    unfold keepUp
    rw [edits_append]
    cases Membership.ofContainer? current with
    | none =>
      cases Membership.ofContainer? updated with
      | none => rfl
      | some m' => exact eval_addAll m' _ _
    | some m =>
      dsimp only
      rw [eval_bind_ok (eval_removeAll m _ _)]
      cases Membership.ofContainer? updated with
      | none => rfl
      | some m' => exact eval_addAll m' _ _

theorem eval_leave {root id p : Iri} (hp : Identifier.parent? root id = .ok (some p)) (current : Resource)
    (tx : Transaction σ) :
    eval (leave root id current) tx = (.ok (), tx.keepUp (Upkeep.leave tx.lookLive p id current)) := by
  have hu : ∀ tx : Transaction σ, eval (updateLive p fun r => r.updateServer (·.erase (Resource.containment p id))) tx =
      (.ok (), tx.edits [.drop ⟨p, Resource.containment p id⟩]) := fun tx => eval_updateLive (.drop ⟨p, _⟩) tx
  unfold leave Upkeep.leave Upkeep.above
  rw [eval_bind_ok (eval_parentOf hp tx)]
  dsimp only
  rw [eval_bind_ok (eval_live p tx)]
  cases tx.lookLive p with
  | none => exact hu _
  | some parent =>
    dsimp only [Option.bind_some]
    cases Membership.ofContainer? parent with
    | none => exact hu _
    | some m =>
      dsimp only [Option.map_some]
      rw [eval_bind_ok (eval_retract _ _ _ _ _), hu, lookLive_touch]
      simp only [keepUp, edits_append]
      rfl

/-! ## The new states of the target -/

/-- `r` with an activity in its log. -/
def logged (kind : ChangeKind) (agent : Iri) (time : Instant) (activity : BlankNode) (r : Resource) : Resource :=
  { r with dataset := r.dataset.update .audit (·.extend (auditTriples r.id activity kind agent time)) }

omit [RecordStore σ] [SteadyStore σ] in
theorem eval_audit (kind : ChangeKind) (agent : Iri) (time : Instant) (r : Resource) (tx : Transaction σ) :
    eval (audit kind agent time r) tx = (.ok (logged kind agent time ⟨tx.scopes.next, 0⟩ r), tx.draw) := rfl

/-- A created resource; the log of an earlier one of its name goes on. -/
def born (id : Iri) (model : InteractionModel) (userGraph : Graph) (binary : Option Binary) (previous : Option Record)
    (agent : Iri) (time : Instant) (activity : BlankNode) : Resource :=
  logged .created agent time activity
    ⟨id, model, ((Dataset.ofUserGraph userGraph).insert .server (Resource.typing id model)).set .audit
      ((previous.map (·.resource.auditGraph)).getD ∅), time, binary⟩

def revised (current : Resource) (userGraph : Graph) (agent : Iri) (time : Instant) (activity : BlankNode) : Resource :=
  logged .updated agent time activity { current with dataset := current.dataset.set .user userGraph, modified := time }

def buried (deleted : Resource) (agent : Iri) (time : Instant) (activity : BlankNode) : Resource :=
  logged .deleted agent time activity { deleted with modified := time }

/-- The root container as it is made. -/
def founded (root agent : Iri) (time : Instant) (activity : BlankNode) : Resource :=
  logged .created agent time activity
    ⟨root, .basicContainer, Dataset.empty.insert .server (Resource.typing root .basicContainer), time, none⟩

/-- The live resource under an identifier, or why there is none. -/
def presence (id : Iri) : Option Record → Except Error Resource
  | none => .error (.notFound id)
  | some r =>
    match r.live? with
    | none => .error (.gone id)
    | some resource => .ok resource

theorem eval_target (id : Iri) (tx : Transaction σ) :
    eval (target id) tx = (presence id (tx.look id), tx.touch id) := by
  unfold target presence
  rw [eval_bind_ok (eval_record id tx)]
  cases tx.look id with
  | none => rfl
  | some r =>
    dsimp only
    cases r.live? with
    | none => rfl
    | some x => rfl

/-! ## The operations, by how they end -/

theorem eval_applyCreate_of_live {root id : Iri} {tx : Transaction σ} {x : Resource} (h : tx.lookLive id = some x)
    (model : InteractionModel) (userGraph : Graph) (binary : Option Binary) (agent : Iri) :
    eval (applyCreate root id model userGraph binary agent) tx = (.error (.alreadyExists id), tx.touch id) := by
  unfold applyCreate
  rw [eval_bind_ok (eval_record id tx)]
  dsimp only
  have hs : ((tx.look id).bind Record.live?).isSome = true := by
    rw [show (tx.look id).bind Record.live? = some x from h]
    rfl
  rw [if_pos hs]
  exact eval_bind_error (eval_throw _ _)

theorem eval_applyCreate_of_not_container {root id p : Iri} {tx : Transaction σ} (h : tx.lookLive id = none)
    (hp : Identifier.parent? root id = .ok (some p)) (hc : (tx.lookLive p).filter (·.isContainer) = none)
    (model : InteractionModel) (userGraph : Graph) (binary : Option Binary) (agent : Iri) :
    eval (applyCreate root id model userGraph binary agent) tx =
      (.error (.invalidParent p), (tx.touch id).touch p) := by
  unfold applyCreate
  rw [eval_bind_ok (eval_record id tx)]
  dsimp only
  rw [show (tx.look id).bind Record.live? = none from h, if_neg (by simp), eval_bind_ok (eval_parentOf hp _)]
  dsimp only
  rw [eval_bind_ok (eval_live p _), lookLive_touch, hc]
  rfl

theorem eval_applyCreate {root id p : Iri} {tx : Transaction σ} (h : tx.lookLive id = none)
    (hp : Identifier.parent? root id = .ok (some p)) {container : Resource} (hl : tx.lookLive p = some container)
    (hc : container.isContainer = true) (model : InteractionModel) (userGraph : Graph) (binary : Option Binary)
    (agent : Iri) :
    eval (applyCreate root id model userGraph binary agent) tx =
      (.ok (),
        let x := born id model userGraph binary (tx.look id) agent (tx.due id) ⟨tx.scopes.next, 0⟩
        ((((tx.touch id).touch p).ask id).draw.put (.live x)).keepUp (Upkeep.join p container id x)) := by
  unfold applyCreate
  rw [eval_bind_ok (eval_record id tx)]
  dsimp only
  rw [show (tx.look id).bind Record.live? = none from h, if_neg (by simp), eval_bind_ok (eval_parentOf hp _)]
  dsimp only
  rw [eval_bind_ok (eval_live p _), lookLive_touch, hl, Option.filter_some_pos hc]
  dsimp only
  rw [eval_bind_ok (eval_timestamp id _), due_touch, due_touch, eval_bind_ok (eval_audit _ _ _ _ _),
    eval_bind_ok (eval_stage _ _)]
  have hsc : (((tx.touch id).touch p).ask id).scopes = tx.scopes :=
    ((touch_rest (tx.touch id) p).2.2).trans (touch_rest tx id).2.2
  rw [hsc]
  refine (eval_bind_ok (eval_updateLive (.add ⟨p, Resource.containment p id⟩) _)).trans ?_
  unfold Upkeep.join Upkeep.contributions
  cases Membership.ofContainer? container with
  | none => rfl
  | some m =>
    dsimp only
    rw [eval_addMembers, List.flatMap_singleton]
    rfl

theorem eval_applyReplace_of_absent {id : Iri} {tx : Transaction σ} {e : Error}
    (h : presence id (tx.look id) = .error e) (root : Iri) (userGraph : Graph) (expected : Option InteractionModel)
    (agent : Iri) :
    eval (applyReplace root id userGraph expected agent) tx = (.error e, tx.touch id) := by
  unfold applyReplace
  have ht := eval_target id tx
  rw [h] at ht
  exact eval_bind_error ht

/-- The error of a graph that was checked for another model than the resource has. -/
def outdated (id : Iri) (current expected : InteractionModel) : Error :=
  .conflict (id.text ++ " is now a " ++ current.display ++ ", not the " ++ expected.display ++
    " its graph was checked against")

theorem eval_applyReplace_of_outdated {id : Iri} {tx : Transaction σ} {current : Resource}
    (h : presence id (tx.look id) = .ok current) {m : InteractionModel} (hm : current.model ≠ m) (root : Iri)
    (userGraph : Graph) (agent : Iri) :
    eval (applyReplace root id userGraph (some m) agent) tx = (.error (outdated id current.model m), tx.touch id) := by
  unfold applyReplace
  have ht := eval_target id tx
  rw [h] at ht
  rw [eval_bind_ok ht]
  dsimp only
  rw [if_pos hm]
  exact eval_bind_error (eval_throw _ _)

/-- What a replacement does once nothing can refuse it. -/
theorem eval_revise {root id p : Iri} (hp : Identifier.parent? root id = .ok (some p)) (current : Resource)
    (userGraph : Graph) (agent : Iri) (tx : Transaction σ) :
    eval (do
      let modified ← timestamp id
      let updated ← audit .updated agent modified
        { current with dataset := current.dataset.set .user userGraph, modified }
      stage (.live updated)
      rejoin root id current updated
      reconfigure current updated) tx =
      (.ok (),
        let x := revised current userGraph agent (tx.due id) ⟨tx.scopes.next, 0⟩
        let tx := (tx.ask id).draw.put (.live x)
        let tx := tx.keepUp (Upkeep.rejoin tx.lookLive p id current x)
        tx.keepUp (Upkeep.reconfigure tx.lookLive current x)) := by
  rw [eval_bind_ok (eval_timestamp id _), eval_bind_ok (eval_audit _ _ _ _ _), eval_bind_ok (eval_stage _ _),
    eval_bind_ok (eval_rejoin hp _ _ _), eval_reconfigure]
  rfl

theorem eval_applyReplace {root id p : Iri} {tx : Transaction σ} {current : Resource}
    (h : presence id (tx.look id) = .ok current) (hp : Identifier.parent? root id = .ok (some p))
    {expected : Option InteractionModel} (he : ∀ m ∈ expected, current.model = m) (userGraph : Graph)
    (agent : Iri) :
    eval (applyReplace root id userGraph expected agent) tx =
      (.ok (),
        let x := revised current userGraph agent (tx.due id) ⟨tx.scopes.next, 0⟩
        let tx := tx.renew id (.live x)
        let tx := tx.keepUp (Upkeep.rejoin tx.lookLive p id current x)
        tx.keepUp (Upkeep.reconfigure tx.lookLive current x)) := by
  unfold applyReplace
  have ht := eval_target id tx
  rw [h] at ht
  rw [eval_bind_ok ht]
  have hr := eval_revise hp current userGraph agent (tx.touch id)
  rw [due_touch, (touch_rest tx id).2.2] at hr
  cases expected with
  | none => exact hr
  | some m =>
    dsimp only
    rw [if_neg (fun hne => hne (he m rfl))]
    exact hr

theorem eval_applyDelete_of_absent {id : Iri} {tx : Transaction σ} {e : Error}
    (h : presence id (tx.look id) = .error e) (root agent : Iri) :
    eval (applyDelete root id agent) tx = (.error e, tx.touch id) := by
  unfold applyDelete
  have ht := eval_target id tx
  rw [h] at ht
  exact eval_bind_error ht

theorem eval_applyDelete {root id p : Iri} {tx : Transaction σ} {current : Resource}
    (h : presence id (tx.look id) = .ok current) (hp : Identifier.parent? root id = .ok (some p)) (agent : Iri) :
    eval (applyDelete root id agent) tx =
      (.ok (),
        let left := (tx.touch id).keepUp (Upkeep.leave tx.lookLive p id current)
        left.renew id
          (.tombstone (buried ((left.lookLive id).getD current) agent (tx.due id) ⟨tx.scopes.next, 0⟩))) := by
  unfold applyDelete
  have ht := eval_target id tx
  rw [h] at ht
  rw [eval_bind_ok ht]
  dsimp only
  rw [eval_bind_ok (eval_leave hp _ _), eval_bind_ok (eval_live _ _), eval_bind_ok (eval_timestamp _ _),
    eval_bind_ok (eval_audit _ _ _ _ _), lookLive_touch, due_touch, due_keepUp, due_touch]
  have hsc : ∀ u, ((((tx.touch id).keepUp u).touch id).ask id).scopes = tx.scopes := fun u =>
    (touch_rest _ id).2.2.trans ((keepUp_rest _ u).2.2.trans (touch_rest tx id).2.2)
  rw [hsc, eval_stage]
  rfl

end Mutation

end LinkedData
