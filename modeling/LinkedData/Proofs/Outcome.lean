/-
  LinkedData.Proofs.Outcome — what a mutation comes to.

  `Mutation.outcome` says it without a transaction: from the records as they stand it is an
  error, or a new record of the target and edits of every server graph. `eval_apply` says that
  a transaction comes to just that, having staged nobody besides those that the outcome is
  about, and `Repository.mutate` follows: when nothing is refused, either the store is left as
  it was, or it holds what the outcome makes of it, times apart.
  The plan that a mutation takes locks for always covers it, so the check before the commit
  never fails.
-/

import LinkedData.Proofs.Commit
import LinkedData.Proofs.Footprint

namespace LinkedData

open Std SteadyStore

/-- The live resource that `see` shows under an identifier. -/
def liveIn (see : Iri → Option Record) (x : Iri) : Option Resource := (see x).bind Record.live?

/-- The same records, times apart. -/
def Akin (see see' : Iri → Option Record) : Prop := ∀ x, (see' x).map Record.content = (see x).map Record.content

namespace Akin

variable {see see' : Iri → Option Record} {x : Iri}

theorem symm (h : Akin see see') : Akin see' see := fun x => (h x).symm

theorem eq_some (h : Akin see see') {r' : Record} (hr : see' x = some r') :
    ∃ r, see x = some r ∧ r.content = r'.content := by
  have hx := h x
  rw [hr, Option.map_some, eq_comm, Option.map_eq_some_iff] at hx
  exact hx

theorem of_liveIn (h : Akin see see') {r' : Resource} (hr : liveIn see' x = some r') :
    ∃ r, liveIn see x = some r ∧ r.id = r'.id ∧ r.model = r'.model ∧ r.dataset = r'.dataset := by
  obtain ⟨a', ha', hl⟩ := Option.bind_eq_some_iff.mp hr
  obtain ⟨hlive', rfl⟩ := Record.live?_eq_some.mp hl
  obtain ⟨a, ha, hc⟩ := h.eq_some ha'
  obtain ⟨hlive, hid, hm, hd, -⟩ := Record.content_eq_iff.mp hc
  refine ⟨a.resource, ?_, hid, hm, hd⟩
  exact Option.bind_eq_some_iff.mpr ⟨a, ha, Record.live?_eq_some.mpr ⟨hlive.trans hlive', rfl⟩⟩

theorem liveIn_isSome (h : Akin see see') (x : Iri) : (liveIn see' x).isSome = (liveIn see x).isSome := by
  have hle : ∀ {see see' : Iri → Option Record}, Akin see see' → (liveIn see' x).isSome →
      (liveIn see x).isSome := by
    intro see see' h hx
    obtain ⟨c', hc'⟩ := Option.isSome_iff_exists.mp hx
    obtain ⟨c, hc, -⟩ := h.of_liveIn hc'
    rw [hc]
    rfl
  exact Bool.eq_iff_iff.mpr ⟨hle h, hle h.symm⟩

end Akin

/-- A new record of the target, and edits of everything that is live. -/
structure Outcome where
  target : Record
  edits : List Edit

/-- The records after an outcome for `id`. -/
def Outcome.applyTo (o : Outcome) (id : Iri) (see : Iri → Option Record) (x : Iri) : Option Record :=
  (if id = x then some o.target else see x).map (·.edited o.edits)

namespace Outcome

variable (o : Outcome) {id x : Iri} (see : Iri → Option Record)

theorem applyTo_of_ne (h : id ≠ x) : o.applyTo id see x = (see x).map (·.edited o.edits) := by
  rw [applyTo, if_neg h]

theorem applyTo_self : o.applyTo id see id = some (o.target.edited o.edits) := by
  rw [applyTo, if_pos rfl]
  rfl

theorem liveIn_applyTo_of_ne (h : id ≠ x) : liveIn (o.applyTo id see) x = (liveIn see x).map (·.edited o.edits) := by
  unfold liveIn
  rw [applyTo_of_ne o see h]
  cases see x with
  | none => rfl
  | some r => simp

theorem liveIn_applyTo_self : liveIn (o.applyTo id see) id = o.target.live?.map (·.edited o.edits) := by
  unfold liveIn
  rw [applyTo_self]
  simp

theorem isSome_applyTo (h : (see x).isSome) : (o.applyTo id see x).isSome := by
  by_cases hx : id = x
  · rw [← hx, applyTo_self]
    rfl
  · rw [applyTo_of_ne o see hx]
    simpa using h

end Outcome

namespace Mutation

/-- The target in its new state, and everyone else. -/
def renewed (see : Iri → Option Resource) (id : Iri) (updated : Resource) (x : Iri) : Option Resource :=
  if id = x then some updated else see x

/-- What `op` on `id`, a child of `p`, comes to at a time, with a node for its activity. -/
def outcome (see : Iri → Option Record) (p id agent : Iri) (time : Instant) (activity : BlankNode) :
    Operation → Except Error Outcome
  | .create model userGraph binary =>
    match liveIn see id with
    | some _ => .error (.alreadyExists id)
    | none =>
      match (liveIn see p).filter (·.isContainer) with
      | none => .error (.invalidParent p)
      | some container =>
        let x := born id model userGraph binary (see id) agent time activity
        .ok ⟨.live x, (Upkeep.join p container id x).edits⟩
  | .replace userGraph expected =>
    match presence id (see id) with
    | .error e => .error e
    | .ok current =>
      match expected.filter (current.model ≠ ·) with
      | some m => .error (outdated id current.model m)
      | none =>
        let x := revised current userGraph agent time activity
        let now := renewed (liveIn see) id x
        .ok ⟨.live x, (Upkeep.rejoin now p id current x).edits ++ (Upkeep.reconfigure now current x).edits⟩
  | .delete =>
    match presence id (see id) with
    | .error e => .error e
    | .ok current =>
      let gone := (Upkeep.leave (liveIn see) p id current).edits
      .ok ⟨.tombstone (buried (current.edited gone) agent time activity), gone⟩

end Mutation

namespace Mutation

variable {see : Iri → Option Record} {p id agent : Iri} {time : Instant} {activity : BlankNode}

theorem presence_eq_ok {x : Resource} : presence id (see id) = .ok x ↔ liveIn see id = some x := by
  unfold presence liveIn
  cases see id with
  | none => simp
  | some r => cases hl : r.live? <;> simp [hl]

/-- What the outcomes are, when there is one. -/
inductive Comes (see : Iri → Option Record) (p id agent : Iri) (time : Instant) (activity : BlankNode) :
    Operation → Outcome → Prop
  | create {model : InteractionModel} {userGraph : Graph} {binary : Option Binary} {container x : Resource}
      (hid : liveIn see id = none) (hp : liveIn see p = some container) (hc : container.isContainer = true)
      (hx : born id model userGraph binary (see id) agent time activity = x) :
      Comes see p id agent time activity (.create model userGraph binary)
        ⟨.live x, (Upkeep.join p container id x).edits⟩
  | replace {userGraph : Graph} {expected : Option InteractionModel} {current x : Resource}
      (hid : liveIn see id = some current) (hm : ∀ m ∈ expected, current.model = m)
      (hx : revised current userGraph agent time activity = x) :
      Comes see p id agent time activity (.replace userGraph expected)
        ⟨.live x, (Upkeep.rejoin (renewed (liveIn see) id x) p id current x).edits ++
          (Upkeep.reconfigure (renewed (liveIn see) id x) current x).edits⟩
  | delete {current x : Resource} {es : List Edit} (hid : liveIn see id = some current)
      (he : (Upkeep.leave (liveIn see) p id current).edits = es)
      (hx : buried (current.edited es) agent time activity = x) :
      Comes see p id agent time activity .delete ⟨.tombstone x, es⟩

theorem comes_of_outcome {op : Operation} {o : Outcome} (h : outcome see p id agent time activity op = .ok o) :
    Comes see p id agent time activity op o := by
  cases op with
  | create model userGraph binary =>
    dsimp only [outcome] at h
    cases hid : liveIn see id with
    | some x => rw [hid] at h; cases h
    | none =>
      rw [hid] at h
      dsimp only at h
      cases hp : (liveIn see p).filter (·.isContainer) with
      | none => rw [hp] at h; cases h
      | some container =>
        rw [hp] at h
        cases h
        obtain ⟨hl, hc⟩ := Option.filter_eq_some_iff.mp hp
        exact .create hid hl hc rfl
  | replace userGraph expected =>
    dsimp only [outcome] at h
    cases hpr : presence id (see id) with
    | error e => rw [hpr] at h; cases h
    | ok current =>
      rw [hpr] at h
      dsimp only at h
      cases he : expected.filter (current.model ≠ ·) with
      | some m => rw [he] at h; cases h
      | none =>
        rw [he] at h
        cases h
        refine .replace (presence_eq_ok.mp hpr) ?_ rfl
        simpa [Option.filter_eq_none_iff] using he
  | delete =>
    dsimp only [outcome] at h
    cases hpr : presence id (see id) with
    | error e => rw [hpr] at h; cases h
    | ok current =>
      rw [hpr] at h
      cases h
      exact .delete (presence_eq_ok.mp hpr) rfl rfl

end Mutation

namespace Mutation

/-- Only a deletion leaves a target that is not live. -/
theorem Comes.isLive {see : Iri → Option Record} {p id agent : Iri} {time : Instant} {b : BlankNode} {op : Operation}
    {o : Outcome} (h : Comes see p id agent time b op o) : o.target.isLive = decide (op.kind ≠ .deleted) := by
  cases h <;> rfl

theorem logOf_of_liveIn {see : Iri → Option Record} {x : Iri} {r : Resource} (h : liveIn see x = some r) :
    logOf (see x) = r.auditGraph := by
  obtain ⟨a, ha, hl⟩ := Option.bind_eq_some_iff.mp h
  obtain ⟨-, rfl⟩ := Record.live?_eq_some.mp hl
  rw [ha]
  rfl

theorem logOf_edited (o : Option Record) (es : List Edit) : logOf (o.map (·.edited es)) = logOf o := by
  cases o with
  | none => rfl
  | some r =>
    show (r.edited es).resource.auditGraph = r.resource.auditGraph
    unfold Record.edited
    split
    · exact Resource.auditGraph_edited _ _
    · rfl

theorem logOf_congr {o o' : Option Record} (h : o'.map Record.content = o.map Record.content) : logOf o' = logOf o := by
  have hlog : ∀ o : Option Record, logOf o = logOf (o.map Record.content) := by
    intro o
    cases o <;> rfl
  rw [hlog o', h, ← hlog o]

/-- The log of the target goes on with one activity, whatever the operation. -/
theorem Comes.log {see : Iri → Option Record} {p id agent : Iri} {time : Instant} {b : BlankNode} {op : Operation}
    {o : Outcome} (h : Comes see p id agent time b op o) (hid : ∀ {x}, liveIn see id = some x → x.id = id) :
    o.target.resource.auditGraph = (logOf (see id)).extend (entry id b op.kind agent time) := by
  cases h with
  | create _ _ _ hx =>
    rw [← hx]
    exact auditGraph_born _ _ _ _ _ _ _ _
  | replace hlive _ hx =>
    rw [← hx, logOf_of_liveIn hlive]
    refine (auditGraph_revised _ _ _ _ _).trans ?_
    rw [hid hlive]
    rfl
  | delete hlive _ hx =>
    rw [← hx, logOf_of_liveIn hlive]
    refine (auditGraph_buried _ _ _ _).trans ?_
    rw [Resource.auditGraph_edited, Resource.id_edited, hid hlive]
    rfl

end Mutation

/-! ## Edits do not change what children contribute -/

namespace Upkeep

theorem contributions_edited (m : Option Membership) (see : Iri → Option Resource) (ids : List Iri) (es : List Edit) :
    contributions m (ids.filterMap fun x => (see x).map (·.edited es)) = contributions m (ids.filterMap see) := by
  cases m with
  | none => rfl
  | some m =>
    unfold contributions
    induction ids with
    | nil => rfl
    | cons x ids ih =>
      dsimp only at ih ⊢
      rw [List.filterMap_cons, List.filterMap_cons]
      cases see x with
      | none => exact ih
      | some c => simp [ih]

theorem reconfigure_edited (see : Iri → Option Resource) (current updated : Resource) (es : List Edit) :
    reconfigure (fun x => (see x).map (·.edited es)) current updated = reconfigure see current updated := by
  simp only [reconfigure, contributions_edited]

end Upkeep

namespace Transaction

variable {σ : Type} [RecordStore σ] [SteadyStore σ]

/-- Whatever is staged besides `id` is live. -/
def Sole (tx : Transaction σ) (id : Iri) : Prop := ∀ x r, tx.staged[x]? = some r → id ≠ x → r.isLive = true

/-- `tx'` is `tx` after an outcome for `id`, with nothing written to the store. -/
structure CameTo (id : Iri) (o : Outcome) (tx tx' : Transaction σ) : Prop where
  store : tx'.store = tx.store
  now : tx'.now = tx.now
  /-- One blank node was drawn. -/
  scopes : tx'.scopes = tx.scopes.arena.2
  tidy : tx'.Tidy
  staged : id ∈ tx'.staged
  sole : tx.Sole id → tx'.Sole id
  look : ∀ x, tx'.look x = o.applyTo id tx.look x

/-- Nobody was staged from `tx` to `tx'` but `id` and the holders of edits. -/
def StagesOnly (id : Iri) (es : List Edit) (tx tx' : Transaction σ) : Prop :=
  ∀ x ∈ tx'.staged, x ∈ tx.staged ∨ x = id ∨ ∃ e ∈ es, e.holder = x

/-! What is staged after a step. -/

omit [RecordStore σ] [SteadyStore σ] in
theorem staged_touch (tx : Transaction σ) (id : Iri) : (tx.touch id).staged = tx.staged := by
  unfold touch
  split <;> rfl

omit [RecordStore σ] [SteadyStore σ] in
theorem staged_touchAll (tx : Transaction σ) (ids : List Iri) : (tx.touchAll ids).staged = tx.staged := by
  induction ids generalizing tx with
  | nil => rfl
  | cons id ids ih => exact (ih (tx.touch id)).trans (staged_touch tx id)

omit [RecordStore σ] [SteadyStore σ] in
theorem mem_staged_put {tx : Transaction σ} {x : Iri} {r : Record} (h : r.id = x ∨ x ∈ tx.staged) :
    x ∈ (tx.put r).staged := by
  refine ExtTreeMap.mem_insert.mpr (h.imp (fun h => ?_) id)
  rw [h]
  exact ReflCmp.compare_self

theorem mem_staged_edits {tx : Transaction σ} {x : Iri} (h : x ∈ tx.staged) (es : List Edit) :
    x ∈ (tx.edits es).staged := by
  induction es generalizing tx with
  | nil => exact h
  | cons e es ih =>
    refine ih ?_
    have ht : x ∈ (tx.touch e.holder).staged := by rwa [staged_touch]
    unfold edit
    split
    · exact mem_staged_put (.inr ht)
    · exact ht

theorem mem_staged_keepUp {tx : Transaction σ} {x : Iri} (h : x ∈ tx.staged) (u : Upkeep) :
    x ∈ (tx.keepUp u).staged :=
  mem_staged_edits (by rwa [staged_touchAll]) u.edits

omit [RecordStore σ] [SteadyStore σ] in
theorem mem_staged_renew (tx : Transaction σ) (id : Iri) {r : Record} {x : Iri} (h : r.id = x) :
    x ∈ (tx.renew id r).staged :=
  mem_staged_put (.inl h)

omit [RecordStore σ] [SteadyStore σ] in
theorem of_mem_staged_put {tx : Transaction σ} {x : Iri} {r : Record} (h : x ∈ (tx.put r).staged) :
    x ∈ tx.staged ∨ x = r.id :=
  (ExtTreeMap.mem_insert.mp h).symm.imp_right fun h => (LawfulEqCmp.eq_of_compare h).symm

omit [RecordStore σ] [SteadyStore σ] in
theorem of_mem_staged_renew {tx : Transaction σ} {id x : Iri} {r : Record} (h : x ∈ (tx.renew id r).staged) :
    x ∈ tx.staged ∨ x = r.id :=
  (of_mem_staged_put h).imp_left fun h => staged_touch tx id ▸ h

theorem of_mem_staged_edits {tx : Transaction σ} (ht : tx.Tidy) {x : Iri} {es : List Edit}
    (h : x ∈ (tx.edits es).staged) :
    x ∈ tx.staged ∨ ∃ e ∈ es, e.holder = x := by
  induction es generalizing tx with
  | nil => exact .inl h
  | cons e es ih =>
    rcases ih (ht.edit e) h with h | ⟨e', he', hx⟩
    · unfold edit at h
      cases hl : tx.lookLive e.holder with
      | none =>
        rw [hl] at h
        exact .inl (by rwa [← staged_touch tx e.holder])
      | some r =>
        rw [hl] at h
        rcases of_mem_staged_put h with h | h
        · exact .inl (by rwa [← staged_touch tx e.holder])
        · rw [Record.id_live, Edit.id_on, ht.id_eq hl] at h
          exact .inr ⟨e, List.mem_cons_self, h.symm⟩
    · exact .inr ⟨e', List.mem_cons_of_mem _ he', hx⟩

theorem of_mem_staged_keepUp {tx : Transaction σ} (ht : tx.Tidy) {x : Iri} {u : Upkeep}
    (h : x ∈ (tx.keepUp u).staged) :
    x ∈ tx.staged ∨ ∃ e ∈ u.edits, e.holder = x := by
  have hedits := of_mem_staged_edits (ht.congr (look_touchAll tx u.reads)) h
  rwa [staged_touchAll] at hedits

omit [RecordStore σ] [SteadyStore σ] in
theorem Sole.put {tx : Transaction σ} {id : Iri} (h : tx.Sole id) {r : Record} (hr : r.id = id ∨ r.isLive = true) :
    (tx.put r).Sole id := by
  intro x r' hx hne
  unfold Transaction.put at hx
  rw [ExtTreeMap.getElem?_insert] at hx
  split at hx
  · next he =>
    cases hx
    exact hr.resolve_left fun hid => hne (hid.symm.trans (LawfulEqCmp.eq_of_compare he))
  · exact h x r' hx hne

omit [RecordStore σ] [SteadyStore σ] in
theorem Sole.congr {tx tx' : Transaction σ} {id : Iri} (h : tx.Sole id) (hs : tx'.staged = tx.staged) :
    tx'.Sole id := by
  intro x r hx hne
  rw [hs] at hx
  exact h x r hx hne

/-- An edit stages nothing but live records. -/
theorem Sole.edits {tx : Transaction σ} {id : Iri} (h : tx.Sole id) (es : List Edit) : (tx.edits es).Sole id := by
  induction es generalizing tx with
  | nil => exact h
  | cons e es ih =>
    refine ih ?_
    have ht : (tx.touch e.holder).Sole id := h.congr (staged_touch tx e.holder)
    unfold edit
    split
    · exact ht.put (.inr rfl)
    · exact ht

theorem Sole.keepUp {tx : Transaction σ} {id : Iri} (h : tx.Sole id) (u : Upkeep) : (tx.keepUp u).Sole id :=
  (h.congr (staged_touchAll tx u.reads)).edits u.edits

omit [RecordStore σ] [SteadyStore σ] in
theorem Sole.renew {tx : Transaction σ} {id : Iri} (h : tx.Sole id) {r : Record} (hr : r.id = id) :
    (tx.renew id r).Sole id :=
  (h.congr (staged_touch tx id : ((tx.touch id).ask id).draw.staged = _)).put (.inl hr)

theorem CameTo.due {id : Iri} {o : Outcome} {tx tx' : Transaction σ} (h : CameTo id o tx tx') : tx'.due = tx.due := by
  funext x
  unfold Transaction.due
  rw [h.store, h.now]

omit [RecordStore σ] [SteadyStore σ] in
theorem now_renew (tx : Transaction σ) (id : Iri) (r : Record) : (tx.renew id r).now = tx.now :=
  (touch_rest tx id).2.1

omit [RecordStore σ] [SteadyStore σ] in
theorem store_renew (tx : Transaction σ) (id : Iri) (r : Record) : (tx.renew id r).store = tx.store :=
  (touch_rest tx id).1

omit [RecordStore σ] [SteadyStore σ] in
theorem scopes_renew (tx : Transaction σ) (id : Iri) (r : Record) : (tx.renew id r).scopes = tx.scopes.arena.2 :=
  congrArg (·.arena.2) (touch_rest tx id).2.2

theorem lookLive_eq_liveIn (tx : Transaction σ) : tx.lookLive = liveIn tx.look := rfl

theorem lookLive_renew_live (tx : Transaction σ) {id : Iri} {x : Resource} (h : x.id = id) :
    (tx.renew id (.live x)).lookLive = Mutation.renewed tx.lookLive id x := by
  funext y
  unfold lookLive Mutation.renewed
  rw [look_renew, Record.id_live, h]
  split <;> rfl

end Transaction

/-! ## Transactions come to outcomes -/

namespace Mutation

open Transaction

variable {σ : Type} [RecordStore σ] [SteadyStore σ] {tx : Transaction σ} {root id p : Iri}

/-- The outcome of an operation from where a transaction stands. -/
def outcomeFrom (tx : Transaction σ) (p id agent : Iri) (op : Operation) : Except Error Outcome :=
  outcome tx.look p id agent (tx.due id) ⟨tx.scopes.next, 0⟩ op

theorem eval_applyCreate_outcome (ht : tx.Tidy) (hp : Identifier.parent? root id = .ok (some p))
    (model : InteractionModel) (userGraph : Graph) (binary : Option Binary) (agent : Iri) :
    match outcomeFrom tx p id agent (.create model userGraph binary) with
    | .error e => ∃ tx', eval (applyCreate root id model userGraph binary agent) tx = (.error e, tx') ∧
        tx'.store = tx.store
    | .ok o => ∃ tx', eval (applyCreate root id model userGraph binary agent) tx = (.ok (), tx') ∧
        CameTo id o tx tx' ∧ StagesOnly id o.edits tx tx' := by
  unfold outcomeFrom outcome
  dsimp only
  cases hl : liveIn tx.look id with
  | some x => exact ⟨_, eval_applyCreate_of_live hl _ _ _ _, (touch_rest tx id).1⟩
  | none =>
    dsimp only
    cases hc : (liveIn tx.look p).filter (·.isContainer) with
    | none =>
      exact ⟨_, eval_applyCreate_of_not_container hl hp hc _ _ _ _, (touch_rest _ p).1.trans (touch_rest tx id).1⟩
    | some container =>
      obtain ⟨hlp, hcont⟩ := Option.filter_eq_some_iff.mp hc
      refine ⟨_, eval_applyCreate hl hp hlp hcont _ _ _ _, ?_⟩
      dsimp only
      generalize hx : born id model userGraph binary (tx.look id) agent (tx.due id) ⟨tx.scopes.next, 0⟩ = x
      have hid : (Record.live x).id = id := by rw [← hx]; rfl
      have hlook : ∀ y, ((((tx.touch id).touch p).ask id).draw.put (.live x)).look y =
          if id = y then some (.live x) else tx.look y := fun y => by
        rw [look_put, look_draw, look_ask, look_touch, look_touch, hid]
      have htidy : ((((tx.touch id).touch p).ask id).draw.put (.live x)).Tidy := by
        refine Tidy.put (ht.congr ?_) _
        rw [look_draw, look_ask, look_touch, look_touch]
      have hstaged : (((tx.touch id).touch p).ask id).draw.staged = tx.staged :=
        (staged_touch (tx.touch id) p).trans (staged_touch tx id)
      refine ⟨⟨?_, ?_, ?_, htidy.keepUp _, mem_staged_keepUp (mem_staged_put (.inl hid)) _,
        fun hs => ((hs.congr hstaged).put (.inl hid)).keepUp _, fun y => ?_⟩, fun y hy => ?_⟩
      · rw [(keepUp_rest _ _).1]
        exact (touch_rest _ p).1.trans (touch_rest tx id).1
      · rw [(keepUp_rest _ _).2.1]
        exact (touch_rest _ p).2.1.trans (touch_rest tx id).2.1
      · rw [(keepUp_rest _ _).2.2]
        exact congrArg (·.arena.2) ((touch_rest _ p).2.2.trans (touch_rest tx id).2.2)
      · rw [look_keepUp htidy, hlook]
        rfl
      · rcases of_mem_staged_keepUp htidy hy with hy | hy
        · exact (of_mem_staged_put hy).imp (fun hy => hstaged ▸ hy) fun hy => .inl (hy.trans hid)
        · exact .inr (.inr hy)

theorem eval_applyReplace_outcome (ht : tx.Tidy) (hp : Identifier.parent? root id = .ok (some p)) (userGraph : Graph)
    (expected : Option InteractionModel) (agent : Iri) :
    match outcomeFrom tx p id agent (.replace userGraph expected) with
    | .error e => ∃ tx', eval (applyReplace root id userGraph expected agent) tx = (.error e, tx') ∧
        tx'.store = tx.store
    | .ok o => ∃ tx', eval (applyReplace root id userGraph expected agent) tx = (.ok (), tx') ∧
        CameTo id o tx tx' ∧ StagesOnly id o.edits tx tx' := by
  unfold outcomeFrom outcome
  dsimp only
  cases hpr : presence id (tx.look id) with
  | error e => exact ⟨_, eval_applyReplace_of_absent hpr _ _ _ _, (touch_rest tx id).1⟩
  | ok current =>
    dsimp only
    cases he : expected.filter (current.model ≠ ·) with
    | some m =>
      obtain ⟨rfl, hm⟩ := Option.filter_eq_some_iff.mp he
      exact ⟨_, eval_applyReplace_of_outdated hpr (by simpa using hm) _ _ _, (touch_rest tx id).1⟩
    | none =>
      have hmodel : ∀ m ∈ expected, current.model = m := by
        simpa [Option.filter_eq_none_iff] using he
      refine ⟨_, eval_applyReplace hpr hp hmodel _ _, ?_⟩
      dsimp only
      generalize hx : revised current userGraph agent (tx.due id) ⟨tx.scopes.next, 0⟩ = x
      have hcur : tx.lookLive id = some current := presence_ok hpr
      have hcid : current.id = id := ht.id_eq hcur
      have hid : (Record.live x).id = id := by rw [← hx]; exact hcid
      have hb : (tx.renew id (.live x)).Tidy := ht.renew id _
      rw [← lookLive_eq_liveIn, ← lookLive_renew_live tx (show x.id = id from hid)]
      generalize Upkeep.rejoin (tx.renew id (.live x)).lookLive p id current x = first
      have hr : ((tx.renew id (.live x)).keepUp first).lookLive =
          fun y => ((tx.renew id (.live x)).lookLive y).map (·.edited first.edits) :=
        funext fun y => lookLive_keepUp hb first y
      rw [hr, Upkeep.reconfigure_edited]
      refine ⟨⟨?_, ?_, ?_, (hb.keepUp _).keepUp _,
        mem_staged_keepUp (mem_staged_keepUp (mem_staged_renew tx id hid) _) _,
        fun hs => ((hs.renew hid).keepUp _).keepUp _, fun y => ?_⟩, fun y hy => ?_⟩
      · rw [(keepUp_rest _ _).1, (keepUp_rest _ _).1, store_renew]
      · rw [(keepUp_rest _ _).2.1, (keepUp_rest _ _).2.1, now_renew]
      · rw [(keepUp_rest _ _).2.2, (keepUp_rest _ _).2.2, scopes_renew]
      · rw [look_keepUp (hb.keepUp _), look_keepUp hb, look_renew, hid, Option.map_map, Outcome.applyTo]
        congr 1
        funext r
        exact (Record.edited_append r _ _).symm
      · simp only [List.mem_append, or_and_right, exists_or]
        rcases of_mem_staged_keepUp (hb.keepUp _) hy with hy | hy
        · rcases of_mem_staged_keepUp hb hy with hy | hy
          · exact (of_mem_staged_renew hy).imp_right fun hy => .inl (hy.trans hid)
          · exact .inr (.inr (.inl hy))
        · exact .inr (.inr (.inr hy))

theorem eval_applyDelete_outcome (ht : tx.Tidy) (hp : Identifier.parent? root id = .ok (some p)) (agent : Iri) :
    match outcomeFrom tx p id agent .delete with
    | .error e => ∃ tx', eval (applyDelete root id agent) tx = (.error e, tx') ∧ tx'.store = tx.store
    | .ok o => ∃ tx', eval (applyDelete root id agent) tx = (.ok (), tx') ∧
        CameTo id o tx tx' ∧ StagesOnly id o.edits tx tx' := by
  unfold outcomeFrom outcome
  dsimp only
  cases hpr : presence id (tx.look id) with
  | error e => exact ⟨_, eval_applyDelete_of_absent hpr _ _, (touch_rest tx id).1⟩
  | ok current =>
    refine ⟨_, eval_applyDelete hpr hp _, ?_⟩
    dsimp only
    rw [← lookLive_eq_liveIn]
    have hcur : tx.lookLive id = some current := presence_ok hpr
    have hid : current.id = id := ht.id_eq hcur
    generalize Upkeep.leave tx.lookLive p id current = left
    have htt : (tx.touch id).Tidy := ht.congr (look_touch tx id)
    have hleft : ((tx.touch id).keepUp left).lookLive id = some (current.edited left.edits) := by
      rw [lookLive_keepUp htt, lookLive_touch, hcur, Option.map_some]
    rw [hleft, Option.getD_some]
    have hbid :
        (Record.tombstone (buried (current.edited left.edits) agent (tx.due id) ⟨tx.scopes.next, 0⟩)).id = id := by
      rw [Record.id_tombstone]
      exact (Resource.id_edited _ _).trans hid
    refine ⟨⟨?_, ?_, ?_, (htt.keepUp _).renew id _, mem_staged_renew _ id hbid,
      fun hs => ((hs.congr (staged_touch tx id)).keepUp _).renew hbid, fun y => ?_⟩, fun y hy => ?_⟩
    · rw [store_renew, (keepUp_rest _ _).1, (touch_rest tx id).1]
    · rw [now_renew, (keepUp_rest _ _).2.1, (touch_rest tx id).2.1]
    · rw [scopes_renew, (keepUp_rest _ _).2.2, (touch_rest tx id).2.2]
    · rw [look_renew, hbid, look_keepUp htt, look_touch, Outcome.applyTo]
      by_cases hy : id = y
      · rw [if_pos hy, if_pos hy, Option.map_some, Record.edited_of_not_live (Record.live?_tombstone _)]
      · rw [if_neg hy, if_neg hy]
    · rcases of_mem_staged_renew hy with hy | hy
      · exact (of_mem_staged_keepUp htt hy).imp (fun hy => staged_touch tx id ▸ hy) .inr
      · exact .inr (.inl (hy.trans hbid))

/-- A mutation is refused and leaves the store alone, or comes to its outcome and stages nobody else. -/
theorem eval_apply (ht : tx.Tidy) (hp : Identifier.parent? root id = .ok (some p)) (agent : Iri) (op : Operation) :
    match outcomeFrom tx p id agent op with
    | .error e => ∃ tx', eval (apply root id agent op) tx = (.error e, tx') ∧ tx'.store = tx.store
    | .ok o => ∃ tx', eval (apply root id agent op) tx = (.ok (), tx') ∧
        CameTo id o tx tx' ∧ StagesOnly id o.edits tx tx' := by
  cases op with
  | create model userGraph binary => exact eval_applyCreate_outcome ht hp model userGraph binary agent
  | replace userGraph expected => exact eval_applyReplace_outcome ht hp userGraph expected agent
  | delete => exact eval_applyDelete_outcome ht hp agent

/-- Nothing is written before the commit. -/
theorem store_apply (ht : tx.Tidy) (hp : Identifier.parent? root id = .ok (some p)) (agent : Iri) (op : Operation) :
    (eval (apply root id agent op) tx).2.store = tx.store := by
  have h := eval_apply ht hp agent op
  cases ho : outcomeFrom tx p id agent op with
  | error e =>
    rw [ho] at h
    obtain ⟨tx', he, hs⟩ := h
    rw [he]
    exact hs
  | ok o =>
    rw [ho] at h
    obtain ⟨tx', he, hc, -⟩ := h
    rw [he]
    exact hc.store

end Mutation

end LinkedData
