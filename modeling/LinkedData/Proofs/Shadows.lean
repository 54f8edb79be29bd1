/-
  LinkedData.Proofs.Shadows — a store that may fail, and what it holds.

  Any read and any batch may be refused here. All that is asked of an `HonestStore` is that what it
  does answer is what it holds, and that a batch it takes is found again. What it holds is a store
  of its own, one that never fails (`Contents`): the shadow. A transaction on an honest store either
  fails because the store did, or does just what the same transaction does on the shadow
  (`Follows`): every step does, so every mutation does (`follows_run`, `follows_foundRoot`). With
  what is known of failures, an operation of a repository then either commits nothing and leaves
  every record as it is, or is the operation on the shadow (`call_shadow`), and what is proved of
  keyed stores holds of stores that fail (`told_shadow`).
-/

import LinkedData.Proofs.Atomicity
import LinkedData.Proofs.Steps
import LinkedData.Proofs.Times

namespace LinkedData

open Std SteadyStore

/-! ## What a store holds -/

/-- Records by identifier. -/
structure Contents where
  find : Iri → Option Record

namespace Contents

def put (c : Contents) (r : Record) : Contents := ⟨fun id => if r.id = id then some r else c.find id⟩

instance : RecordStore Contents := ⟨fun c id => .ok (c.find id), fun c rs => .ok (rs.foldl put c)⟩

instance : KeyedStore Contents where
  find := find
  write c rs := rs.foldl put c
  get_eq _ _ := rfl
  putBatch_eq _ _ := rfl
  find_write_of_mem := lookup_foldl_of_mem find fun _ _ _ => rfl
  find_write_of_not_mem := lookup_foldl_of_not_mem find fun _ _ _ => rfl

end Contents

/-- A store that answers by what it holds, if it answers, and holds what was in the last batch that it took. -/
class HonestStore (σ : Type) [RecordStore σ] where
  held : σ → Iri → Option Record
  held_of_get : ∀ {s : σ} {id : Iri} {o : Option Record}, RecordStore.get s id = .ok o → held s id = o
  held_of_putBatch : ∀ {s s' : σ} {rs : List Record}, RecordStore.putBatch s rs = .ok s' →
    (rs.map Record.id).Nodup → held s' = (rs.foldl Contents.put ⟨held s⟩).find

export HonestStore (held)

/-- A store that never fails is honest. -/
instance (priority := low) {σ : Type} [RecordStore σ] [KeyedStore σ] : HonestStore σ where
  held := find
  held_of_get {s id o} h := by
    rw [get_eq] at h
    exact Except.ok.inj h
  held_of_putBatch {s s' rs} h hn := by
    rw [putBatch_eq] at h
    cases h
    funext x
    exact find_write_congr hn (show find s x = find (⟨find s⟩ : Contents) x from rfl)

namespace Transaction

section

variable {σ : Type} [RecordStore σ] [HonestStore σ]

/-- The same transaction on what the store holds. -/
def shadow (tx : Transaction σ) : Transaction Contents :=
  ⟨⟨held tx.store⟩, tx.now, tx.scopes, tx.reads, tx.staged⟩

/-- What is staged is under its own identifier. -/
def Filed (tx : Transaction σ) : Prop := ∀ (id : Iri) (r : Record), tx.staged[id]? = some r → r.id = id

/-- `m` fails with its store, or does what `n` does on the shadow. -/
def Follows {α : Type} (m : TransactionM σ α) (n : TransactionM Contents α) : Prop :=
  ∀ tx : Transaction σ, tx.Filed → (∃ f, (eval m tx).1 = .error (.storage f)) ∨
    ((eval m tx).1 = (eval n tx.shadow).1 ∧ (eval m tx).2.shadow = (eval n tx.shadow).2 ∧ (eval m tx).2.Filed)

end

variable {σ α β : Type} [RecordStore σ] [HonestStore σ]

/-! ## Sequences -/

theorem follows_pure (a : α) : Follows (pure a : TransactionM σ α) (pure a) :=
  fun _ ht => .inr ⟨rfl, rfl, ht⟩

theorem follows_throw (e : Error) : Follows (throw e : TransactionM σ α) (throw e) :=
  fun _ ht => .inr ⟨rfl, rfl, ht⟩

theorem Follows.bind {m : TransactionM σ α} {n : TransactionM Contents α} {f : α → TransactionM σ β}
    {g : α → TransactionM Contents β} (h : Follows m n) (hf : ∀ a, Follows (f a) (g a)) :
    Follows (m >>= f) (n >>= g) := by
  intro tx ht
  rw [eval_bind, eval_bind]
  rcases h tx ht with ⟨e, he⟩ | ⟨hanswer, hshadow, hfiled⟩
  · generalize eval m tx = out at he
    obtain ⟨answer, tx'⟩ := out
    subst he
    exact .inl ⟨e, rfl⟩
  · generalize eval m tx = out at hanswer hshadow hfiled
    generalize eval n tx.shadow = out' at hanswer hshadow
    obtain ⟨answer, tx'⟩ := out
    obtain ⟨answer', ty⟩ := out'
    subst hanswer hshadow
    cases answer with
    | error e => exact .inr ⟨rfl, rfl, hfiled⟩
    | ok a => exact hf a tx' hfiled

/-! ## Steps -/

theorem follows_stored (id : Iri) : Follows (stored id : TransactionM σ _) (stored id) := by
  intro tx ht
  have hshadow : eval (stored id) tx.shadow = (.ok (held tx.store id), tx.shadow.ask id) := eval_stored id tx.shadow
  rw [hshadow]
  unfold stored
  rw [eval_bind_ok (eval_get tx), eval_bind_ok (show eval (set _) tx = (.ok ⟨⟩, tx.ask id) from rfl)]
  cases hg : RecordStore.get tx.store id with
  | error f => exact .inl ⟨f, rfl⟩
  | ok o =>
    rw [HonestStore.held_of_get hg]
    exact .inr ⟨rfl, rfl, ht⟩

theorem follows_record (id : Iri) : Follows (record id : TransactionM σ _) (record id) := by
  intro tx ht
  unfold record
  rw [eval_bind_ok (eval_get tx), eval_bind_ok (eval_get tx.shadow), show tx.shadow.staged = tx.staged from rfl]
  cases tx.staged[id]? with
  | some r => exact .inr ⟨rfl, rfl, ht⟩
  | none => exact follows_stored id tx ht

theorem follows_timestamp (id : Iri) : Follows (timestamp id : TransactionM σ _) (timestamp id) :=
  (follows_stored id).bind fun _ _ ht => .inr ⟨rfl, rfl, ht⟩

theorem follows_stage (r : Record) : Follows (stage r : TransactionM σ _) (stage r) := by
  intro tx ht
  refine .inr ⟨rfl, rfl, ?_⟩
  intro id r' hr
  rw [eval_stage, put, ExtTreeMap.getElem?_insert] at hr
  split at hr
  · next he =>
    cases hr
    exact LawfulEqCmp.compare_eq_iff_eq.mp he
  · exact ht id r' hr

theorem follows_freshNode : Follows (freshNode : TransactionM σ _) freshNode :=
  fun _ ht => .inr ⟨rfl, rfl, ht⟩

/-- Before the commit a transaction goes the way of the shadow, step by step. -/
theorem SameSteps.follows {m : TransactionM σ α} {n : TransactionM Contents α} (h : SameSteps m n) :
    Follows m n := by
  induction h with
  | pure a => exact follows_pure a
  | throw e => exact follows_throw e
  | stored id => exact follows_stored id
  | record id => exact follows_record id
  | timestamp id => exact follows_timestamp id
  | freshNode => exact follows_freshNode
  | stage r => exact follows_stage r
  | bind _ _ h hf => exact h.bind hf

theorem follows_checkCovered (g : Guard) : Follows (checkCovered g : TransactionM σ _) (checkCovered g) := by
  intro tx ht
  unfold checkCovered
  rw [eval_bind_ok (eval_get tx), eval_bind_ok (eval_get tx.shadow), show tx.shadow.staged = tx.staged from rfl]
  cases tx.staged.keys.find? fun id => !g.covers id with
  | some id => exact .inr ⟨rfl, rfl, ht⟩
  | none => exact .inr ⟨rfl, rfl, ht⟩

end Transaction

/-! ## Mutations -/

namespace Mutation

open Transaction

variable {σ : Type} [RecordStore σ] [HonestStore σ] {root id agent : Iri}

theorem follows_commit : Follows (commit : TransactionM σ _) commit := by
  intro tx ht
  have hstamp := (sameSteps_stampAll tx.staged.toList).follows tx ht
  unfold commit
  rw [eval_bind_ok (eval_get tx), eval_bind_ok (eval_get tx.shadow), show tx.shadow.staged = tx.staged from rfl,
    eval_bind]
  rw [eval_bind_ok (eval_stampAll tx.staged.toList tx.shadow)]
  rw [eval_stampAll tx.staged.toList tx.shadow] at hstamp
  rcases hstamp with ⟨f, hf⟩ | ⟨hanswer, hshadow, hfiled⟩
  · generalize eval (tx.staged.toList.mapM _) tx = out at hf
    obtain ⟨answer, tx'⟩ := out
    subst hf
    exact .inl ⟨f, rfl⟩
  · have hids : (tx.staged.toList.map fun e => stamp (tx.shadow.due e.1) e.2).map Record.id = tx.staged.keys := by
      rw [List.map_map, ← ExtTreeMap.map_fst_toList_eq_keys]
      exact List.map_congr_left fun e he => ht e.1 e.2 (ExtTreeMap.mem_toList_iff_getElem?_eq_some.mp he)
    generalize (tx.staged.toList.map fun e => stamp (tx.shadow.due e.1) e.2) = rs at hanswer hids
    generalize eval (tx.staged.toList.mapM _) tx = out at hanswer hshadow hfiled
    obtain ⟨answer, tx'⟩ := out
    subst hanswer
    dsimp only at hshadow hfiled ⊢
    rw [← hshadow, eval_bind_ok (eval_get tx'), eval_bind_ok (eval_get tx'.shadow)]
    cases hput : RecordStore.putBatch tx'.store rs with
    | error f => exact .inl ⟨f, rfl⟩
    | ok s =>
      have hheld := HonestStore.held_of_putBatch hput (by rw [hids]; exact ExtTreeMap.nodup_keys)
      refine .inr ⟨rfl, ?_, hfiled⟩
      show (⟨⟨held s⟩, tx'.now, tx'.scopes, tx'.reads, tx'.staged⟩ : Transaction Contents) = _
      rw [hheld]
      rfl

theorem follows_conclude (kind : ChangeKind) :
    Follows (conclude id kind agent : TransactionM σ _) (conclude id kind agent) := by
  refine follows_commit.bind fun rs => ?_
  dsimp only
  cases (rs.map (·.resource)).find? (·.id = id) with
  | none => exact follows_throw _
  | some x => exact follows_pure _

theorem follows_run (op : Operation) (guard : Guard) :
    Follows (run root id op agent guard : TransactionM σ _) (run root id op agent guard) :=
  (sameSteps_apply op).follows.bind fun _ => (follows_checkCovered guard).bind fun _ => follows_conclude op.kind

theorem follows_foundRoot : Follows (foundRoot root agent : TransactionM σ _) (foundRoot root agent) :=
  (follows_timestamp root).bind fun _ => (sameSteps_audit _ _ _ _).follows.bind fun _ => (follows_stage _).bind fun _ =>
    follows_conclude .created

end Mutation

/-! ## Operations -/

namespace Repository

open Transaction Mutation

/-! What is read before a transaction, in two repositories of which one may fail. -/

section

/-- A failure of the store, or the same answer. -/
def Agrees {α : Type} (x y : Except Error α) : Prop := (∃ f, x = .error (.storage f)) ∨ x = y

theorem agrees_refl {α : Type} (x : Except Error α) : Agrees x x := .inr rfl

theorem Agrees.bind {α β : Type} {x y : Except Error α} {f g : α → Except Error β} (h : Agrees x y)
    (hf : ∀ a, Agrees (f a) (g a)) : Agrees (x >>= f) (y >>= g) := by
  rcases h with ⟨e, rfl⟩ | rfl
  · exact .inl ⟨e, rfl⟩
  · cases x with
    | error e => exact .inr rfl
    | ok a => exact hf a

variable {σ τ : Type} [RecordStore σ] [RecordStore τ] {r : Repository σ} {r' : Repository τ}

theorem agrees_get (h : ∀ id, Agrees (r.record id) (r'.record id)) (id : Iri) : Agrees (r.get id) (r'.get id) :=
  (h id).bind fun _ => agrees_refl _

theorem agrees_affected (h : ∀ id, Agrees (r.record id) (r'.record id)) (hroot : r'.root = r.root) (id : Iri)
    (op : Operation) : Agrees (r.affected id op) (r'.affected id op) := by
  have hread : ∀ {f : Option Resource → Except Error (List Iri)} (p : Iri), Agrees (r.get p >>= f) (r'.get p >>= f) :=
    fun p => (agrees_get h p).bind fun _ => agrees_refl _
  unfold affected
  rw [hroot]
  refine (agrees_refl (parentOf r.root id)).bind fun p => ?_
  cases op with
  | create model userGraph binary =>
    cases p with
    | none => exact agrees_refl _
    | some p => exact hread p
  | delete =>
    cases p with
    | none => exact agrees_refl _
    | some p => exact hread p
  | replace userGraph expected =>
    -- whatever is read of the parent, the target is read after it
    cases p with
    | none => exact hread id
    | some p =>
      refine (agrees_get h p).bind fun parent => ?_
      cases parent with
      | none => exact hread id
      | some parent =>
        dsimp only
        cases Membership.ofContainer? parent with
        | none => exact hread id
        | some m => exact hread id

end

variable {σ : Type} [RecordStore σ] [HonestStore σ] {r : Repository σ}

/-- The repository on what its store holds. -/
def shadow (r : Repository σ) : Repository Contents := ⟨r.root, ⟨held r.store⟩, r.scopes⟩

/-- The store failed, or the answer is the shadow's, and so is what is held afterwards. -/
def Mirrors {α : Type} (out : Except Error α × Repository σ) (out' : Except Error α × Repository Contents) :
    Prop :=
  (∃ f, out.1 = .error (.storage f)) ∨ (out.1 = out'.1 ∧ out.2.shadow = out'.2)

theorem mirrors_transact {α : Type} {m : TransactionM σ α} {n : TransactionM Contents α} (h : Follows m n)
    (now : Instant) :
    Mirrors (r.transact now m) (r.shadow.transact now n) := by
  have hbegin : (begin r.store r.scopes now).shadow = begin r.shadow.store r.shadow.scopes now := rfl
  have hfollows := h (begin r.store r.scopes now) fun id x hx => by simp [begin] at hx
  rw [hbegin] at hfollows
  rcases hfollows with ⟨f, hf⟩ | ⟨hanswer, hshadow, -⟩
  · exact .inl ⟨f, hf⟩
  · refine .inr ⟨hanswer, ?_⟩
    show (⟨r.root, ⟨held _⟩, _⟩ : Repository Contents) = ⟨r.root, _, _⟩
    exact congrArg (fun tx : Transaction Contents => (⟨r.root, tx.store, tx.scopes⟩ : Repository Contents)) hshadow

theorem agrees_shadow (r : Repository σ) (id : Iri) : Agrees (r.record id) (r.shadow.record id) := by
  unfold record
  cases hg : RecordStore.get r.store id with
  | error f => exact .inl ⟨f, rfl⟩
  | ok o =>
    rw [← HonestStore.held_of_get hg]
    exact .inr rfl

theorem mirrors_mutate (id : Iri) (op : Operation) (session : Session) (now : Instant) :
    Mirrors (r.mutate id op session now) (r.shadow.mutate id op session now) := by
  unfold mutate
  rw [show r.shadow.refusal? id = r.refusal? id from rfl]
  cases r.refusal? id with
  | some e => exact .inr ⟨rfl, rfl⟩
  | none =>
    dsimp only
    rcases agrees_affected r.agrees_shadow rfl id op with ⟨f, hf⟩ | heq
    · rw [hf]
      exact .inl ⟨f, rfl⟩
    · rw [← heq]
      cases r.affected id op with
      | error e => exact .inr ⟨rfl, rfl⟩
      | ok plan => exact mirrors_transact (follows_run op _) now

theorem mirrors_createRoot (session : Session) (now : Instant) :
    Mirrors (r.createRoot session now) (r.shadow.createRoot session now) := by
  unfold createRoot
  rw [show r.shadow.root = r.root from rfl]
  rcases agrees_get r.agrees_shadow r.root with ⟨f, hf⟩ | heq
  · rw [hf]
    exact .inl ⟨f, rfl⟩
  · rw [← heq]
    cases r.get r.root with
    | error e => exact .inr ⟨rfl, rfl⟩
    | ok o =>
      cases o with
      | some x => exact .inr ⟨rfl, rfl⟩
      | none =>
        dsimp only
        have hfollows : Follows (foundRoot r.root session.agent : TransactionM σ Commit)
            (foundRoot r.root session.agent) :=
          follows_foundRoot
        rcases mirrors_transact hfollows now with ⟨f, hf⟩ | ⟨hanswer, hshadow⟩
        · exact .inl ⟨f, by rw [hf]; rfl⟩
        · exact .inr ⟨by rw [hanswer], hshadow⟩

/-- Where there is nothing to do to make the root, there is a root. -/
theorem live_of_createRoot_none (hk : SelfKeyed r.shadow.store) {session : Session} {now : Instant}
    (h : (r.createRoot session now).1 = .ok none) : ∃ x, held r.store r.root = some (.live x) := by
  rcases mirrors_createRoot (r := r) session now with ⟨f, hf⟩ | ⟨hanswer, -⟩
  · rw [hf] at h
    cases h
  · rw [h] at hanswer
    have hcases := createRoot_cases hk session now
    generalize r.shadow.createRoot session now = out at hanswer hcases
    cases hcases with
    | present hlive =>
      obtain ⟨record, hfind, hsome⟩ := Option.bind_eq_some_iff.mp hlive
      obtain ⟨x, none | t⟩ := record
      · exact ⟨x, hfind⟩
      · cases hsome
    | made => cases hanswer

/-- Nothing was committed and every record is as it was, or it went as on the shadow. -/
def Echoes (r : Repository σ) (c : Option Commit) (r' : Repository σ) (c' : Option Commit)
    (r'' : Repository Contents) :
    Prop :=
  c = none ∧ r'.root = r.root ∧ r'.store = r.store ∨ c = c' ∧ r'.shadow = r''

theorem wellFiled_of_shadow (hk : SelfKeyed r.shadow.store) : WellFiled r.store :=
  fun id x hx => hk id x (HonestStore.held_of_get hx)

theorem echoes_mutate (hk : SelfKeyed r.shadow.store) (id : Iri) (op : Operation) (session : Session) (now : Instant) :
    Echoes r (r.mutate id op session now).1.toOption (r.mutate id op session now).2
      (r.shadow.mutate id op session now).1.toOption (r.shadow.mutate id op session now).2 := by
  rcases mirrors_mutate (r := r) id op session now with ⟨f, hf⟩ | ⟨hanswer, hshadow⟩
  · refine .inl ⟨by rw [hf]; rfl, ?_, store_of_mutate_error (wellFiled_of_shadow hk) hf⟩
    unfold mutate
    cases r.refusal? id with
    | some e => rfl
    | none => cases r.affected id op <;> rfl
  · exact .inr ⟨congrArg Except.toOption hanswer, hshadow⟩

theorem echoes_createRoot (hk : SelfKeyed r.shadow.store) (session : Session) (now : Instant) :
    Echoes r (r.createRoot session now).1.toOption.join (r.createRoot session now).2
      (r.shadow.createRoot session now).1.toOption.join (r.shadow.createRoot session now).2 := by
  rcases mirrors_createRoot (r := r) session now with ⟨f, hf⟩ | ⟨hanswer, hshadow⟩
  · refine .inl ⟨by rw [hf]; rfl, ?_, store_of_createRoot_error (wellFiled_of_shadow hk) hf⟩
    unfold createRoot
    cases r.get r.root with
    | error e => rfl
    | ok o => cases o <;> rfl
  · exact .inr ⟨congrArg (Option.join ∘ Except.toOption) hanswer, hshadow⟩

/-- An operation commits nothing and leaves every record as it is, or is the operation on the shadow. -/
theorem call_shadow (hk : SelfKeyed r.shadow.store) (session : Session) (now : Instant) (c : Call) :
    Echoes r (r.commit? session now c) (r.call session now c).2
      (r.shadow.commit? session now c) (r.shadow.call session now c).2 := by
  by_cases hc : c = .makeRoot
  · subst hc
    exact echoes_createRoot hk session now
  · cases hm : c.mutation? r.root with
    | none =>
      obtain ⟨hcommit, hafter⟩ := call_of_no_mutation hc hm session now
      rw [hcommit, hafter]
      exact .inl ⟨rfl, rfl, rfl⟩
    | some m =>
      obtain ⟨hcommit, hafter⟩ := call_of_mutation hm session now
      obtain ⟨hcommit', hafter'⟩ := call_of_mutation (r := r.shadow) hm session now
      rw [hcommit, hafter, hcommit', hafter']
      exact echoes_mutate hk m.1 m.2 session now

/-- Every operation dates what it commits in the shadow, or leaves the shadow as it was. -/
theorem told_shadow (hr : Sound r.shadow) (session : Session) (now : Instant) (c : Call) :
    Told r.shadow now (r.commit? session now c) (r.call session now c).2.shadow := by
  rcases call_shadow hr.keyed session now c with ⟨hnone, hroot, hstore⟩ | ⟨hcommit, hshadow⟩
  · rw [hnone]
    refine ⟨hroot, ?_⟩
    show (⟨held (r.call session now c).2.store⟩ : Contents) = ⟨held r.store⟩
    rw [hstore]
  · rw [hcommit, hshadow]
    exact call_told hr session now c

end Repository

end LinkedData
