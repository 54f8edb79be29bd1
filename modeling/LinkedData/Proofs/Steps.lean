/-
  LinkedData.Proofs.Steps — one mutation on two kinds of store.

  A mutation is written once, for any store: it asks for records, stages others, and lets the
  answers decide how to go on. `SameSteps` says of two computations, on two kinds of store, that
  they are such a program twice. Everything before the commit is (`sameSteps_apply`). What holds
  of a sequence because it holds of every step is then proved of the steps, by induction; how the
  operations are composed of them is gone through here, and nowhere again.
-/

import LinkedData.Proofs.Evaluation

namespace LinkedData

open Std

namespace Transaction

variable {σ τ : Type} [RecordStore σ] [RecordStore τ]

/-- The same steps, as long as the answers are the same. None of them writes to the store. -/
inductive SameSteps : {α : Type} → TransactionM σ α → TransactionM τ α → Prop
  | pure {α : Type} (a : α) : SameSteps (pure a : TransactionM σ α) (pure a)
  | throw {α : Type} (e : Error) : SameSteps (throw e : TransactionM σ α) (throw e)
  | stored (id : Iri) : SameSteps (stored id) (stored id)
  | record (id : Iri) : SameSteps (record id) (record id)
  | timestamp (id : Iri) : SameSteps (timestamp id) (timestamp id)
  | freshNode : SameSteps freshNode freshNode
  | stage (r : Record) : SameSteps (stage r) (stage r)
  | bind {α β : Type} {m : TransactionM σ α} {n : TransactionM τ α} {f : α → TransactionM σ β}
      {g : α → TransactionM τ β} (h : SameSteps m n) (hf : ∀ a, SameSteps (f a) (g a)) :
      SameSteps (m >>= f) (n >>= g)

variable {α β : Type}

theorem sameSteps_lift (x : Except Error α) :
    SameSteps (liftM x : TransactionM σ α) (liftM x : TransactionM τ α) := by
  cases x with
  | error e => exact .throw e
  | ok a => exact .pure a

/-- What would follow a refusal does not matter. -/
theorem sameSteps_throw_bind (e : Error) (f : α → TransactionM σ β) (g : α → TransactionM τ β) :
    SameSteps (throw e >>= f) (throw e >>= g) :=
  SameSteps.throw e

theorem sameSteps_forM {f : α → TransactionM σ PUnit} {g : α → TransactionM τ PUnit}
    (h : ∀ a, SameSteps (f a) (g a)) (as : List α) : SameSteps (as.forM f) (as.forM g) := by
  induction as with
  | nil => exact .pure _
  | cons a as ih =>
    rw [List.forM_eq_forM, List.forM_cons, List.forM_eq_forM, List.forM_cons]
    exact (h a).bind fun _ => ih

theorem sameSteps_live (id : Iri) : SameSteps (live id : TransactionM σ _) (live id : TransactionM τ _) :=
  (SameSteps.record id).bind fun r => .pure (r.bind Record.live?)

theorem sameSteps_updateLive (id : Iri) (f : Resource → Resource) :
    SameSteps (updateLive id f : TransactionM σ _) (updateLive id f : TransactionM τ _) := by
  refine (sameSteps_live id).bind fun r => ?_
  cases r with
  | none => exact .pure ()
  | some r => exact .stage _

theorem sameSteps_stampAll (es : List (Iri × Record)) :
    SameSteps (es.mapM fun e => return stamp (← timestamp e.1) e.2 : TransactionM σ _)
      (es.mapM fun e => return stamp (← timestamp e.1) e.2 : TransactionM τ _) := by
  induction es with
  | nil => exact .pure _
  | cons e es ih =>
    rw [List.mapM_cons, List.mapM_cons]
    refine SameSteps.bind ?_ fun r => ih.bind fun rs => .pure (r :: rs)
    exact (SameSteps.timestamp e.1).bind fun t => .pure (stamp t e.2)

end Transaction

/-! ## Mutations -/

namespace Mutation

open Transaction

variable {σ τ : Type} [RecordStore σ] [RecordStore τ]

theorem sameSteps_audit (kind : ChangeKind) (agent : Iri) (time : Instant) (r : Resource) :
    SameSteps (audit kind agent time r : TransactionM σ _) (audit kind agent time r : TransactionM τ _) :=
  SameSteps.freshNode.bind fun _ => .pure _

theorem sameSteps_addMembers (ts : List MemberTriple) :
    SameSteps (addMembers ts : TransactionM σ _) (addMembers ts : TransactionM τ _) :=
  sameSteps_forM (fun _ => sameSteps_updateLive _ _) ts

theorem sameSteps_removeMembers (ts : List MemberTriple) :
    SameSteps (removeMembers ts : TransactionM σ _) (removeMembers ts : TransactionM τ _) :=
  sameSteps_forM (fun _ => sameSteps_updateLive _ _) ts

theorem sameSteps_liveOnes (ids : List Iri) :
    SameSteps (liveOnes ids : TransactionM σ _) (liveOnes ids : TransactionM τ _) := by
  induction ids with
  | nil => exact .pure _
  | cons id ids ih =>
    unfold liveOnes at ih ⊢
    rw [List.filterMapM_cons, List.filterMapM_cons]
    refine (sameSteps_live id).bind fun r => ?_
    cases r with
    | none => exact ih
    | some r => exact ih.bind fun rs => .pure (r :: rs)

theorem sameSteps_retract (m : Membership) (container : Resource) (leaving : Iri) (ts : List MemberTriple) :
    SameSteps (retract m container leaving ts : TransactionM σ _)
      (retract m container leaving ts : TransactionM τ _) := by
  unfold retract
  split
  · exact .pure ()
  · exact (sameSteps_liveOnes _).bind fun _ => sameSteps_removeMembers _

theorem sameSteps_target (id : Iri) : SameSteps (target id : TransactionM σ _) (target id : TransactionM τ _) := by
  refine (SameSteps.record id).bind fun r => ?_
  cases r with
  | none => exact .throw _
  | some r =>
    dsimp only
    cases r.live? with
    | none => exact .throw _
    | some x => exact .pure x

theorem sameSteps_rejoin (root id : Iri) (current updated : Resource) :
    SameSteps (rejoin root id current updated : TransactionM σ _)
      (rejoin root id current updated : TransactionM τ _) := by
  refine (sameSteps_lift _).bind fun p => ?_
  cases p with
  | none => exact .pure ()
  | some p =>
    refine (sameSteps_live p).bind fun parent => ?_
    cases parent with
    | none => exact .pure ()
    | some parent =>
      dsimp only
      cases Membership.ofContainer? parent with
      | none => exact .pure ()
      | some m =>
        dsimp only
        split
        · exact .pure ()
        · exact (sameSteps_retract _ _ _ _).bind fun _ => sameSteps_addMembers _

theorem sameSteps_reconfigure (current updated : Resource) :
    SameSteps (reconfigure current updated : TransactionM σ _) (reconfigure current updated : TransactionM τ _) := by
  unfold reconfigure
  dsimp only
  split
  · exact .pure ()
  · refine (sameSteps_liveOnes _).bind fun children => ?_
    have hjoin : ∀ m : Membership,
        SameSteps (children.forM fun child => addMembers (m.triples child) : TransactionM σ _)
        (children.forM fun child => addMembers (m.triples child) : TransactionM τ _) :=
      fun m => sameSteps_forM (fun _ => sameSteps_addMembers _) children
    cases Membership.ofContainer? current with
    | none =>
      cases Membership.ofContainer? updated with
      | none => exact .pure ()
      | some m => exact hjoin m
    | some m =>
      refine (sameSteps_forM (fun _ => sameSteps_removeMembers _) children).bind fun _ => ?_
      cases Membership.ofContainer? updated with
      | none => exact .pure ()
      | some m => exact hjoin m

theorem sameSteps_leave (root id : Iri) (current : Resource) :
    SameSteps (leave root id current : TransactionM σ _) (leave root id current : TransactionM τ _) := by
  refine (sameSteps_lift _).bind fun p => ?_
  cases p with
  | none => exact .pure ()
  | some p =>
    refine (sameSteps_live p).bind fun parent => ?_
    cases parent with
    | none => exact sameSteps_updateLive _ _
    | some parent =>
      dsimp only
      cases Membership.ofContainer? parent with
      | none => exact sameSteps_updateLive _ _
      | some m => exact (sameSteps_retract _ _ _ _).bind fun _ => sameSteps_updateLive _ _

variable {root id agent : Iri}

theorem sameSteps_applyCreate (model : InteractionModel) (userGraph : Graph) (binary : Option Binary) :
    SameSteps (applyCreate root id model userGraph binary agent : TransactionM σ _)
      (applyCreate root id model userGraph binary agent : TransactionM τ _) := by
  refine (SameSteps.record id).bind fun previous => ?_
  dsimp only
  split
  · exact sameSteps_throw_bind _ _ _
  · refine (sameSteps_lift _).bind fun p => ?_
    cases p with
    | none => exact .throw _
    | some p =>
      refine (sameSteps_live p).bind fun found => ?_
      cases found.filter (·.isContainer) with
      | none => exact .throw _
      | some parent =>
        refine (SameSteps.timestamp id).bind fun time => (sameSteps_audit _ _ _ _).bind fun new => ?_
        refine (SameSteps.stage _).bind fun _ => (sameSteps_updateLive _ _).bind fun _ => ?_
        cases Membership.ofContainer? parent with
        | none => exact .pure ()
        | some m => exact sameSteps_addMembers _

theorem sameSteps_applyReplace (userGraph : Graph) (expected : Option InteractionModel) :
    SameSteps (applyReplace root id userGraph expected agent : TransactionM σ _)
      (applyReplace root id userGraph expected agent : TransactionM τ _) := by
  refine (sameSteps_target id).bind fun current => ?_
  have hrest : SameSteps (do
      let modified ← timestamp id
      let updated ← audit .updated agent modified
        { current with dataset := current.dataset.set .user userGraph, modified }
      stage (.live updated)
      rejoin root id current updated
      reconfigure current updated : TransactionM σ Unit) (do
      let modified ← timestamp id
      let updated ← audit .updated agent modified
        { current with dataset := current.dataset.set .user userGraph, modified }
      stage (.live updated)
      rejoin root id current updated
      reconfigure current updated : TransactionM τ Unit) := by
    refine (SameSteps.timestamp id).bind fun time => (sameSteps_audit _ _ _ _).bind fun updated => ?_
    exact (SameSteps.stage _).bind fun _ => (sameSteps_rejoin _ _ _ _).bind fun _ => sameSteps_reconfigure _ _
  cases expected with
  | none => exact hrest
  | some m =>
    dsimp only
    split
    · exact sameSteps_throw_bind _ _ _
    · exact hrest

theorem sameSteps_applyDelete :
    SameSteps (applyDelete root id agent : TransactionM σ _) (applyDelete root id agent : TransactionM τ _) := by
  refine (sameSteps_target id).bind fun current => (sameSteps_leave _ _ _).bind fun _ => ?_
  refine (sameSteps_live id).bind fun left => (SameSteps.timestamp id).bind fun time => ?_
  exact (sameSteps_audit _ _ _ _).bind fun _ => .stage _

theorem sameSteps_apply (op : Operation) :
    SameSteps (apply root id agent op : TransactionM σ _) (apply root id agent op : TransactionM τ _) := by
  cases op with
  | create model userGraph binary => exact sameSteps_applyCreate model userGraph binary
  | replace userGraph expected => exact sameSteps_applyReplace userGraph expected
  | delete => exact sameSteps_applyDelete

end Mutation

end LinkedData
