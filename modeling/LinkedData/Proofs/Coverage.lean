/-
  LinkedData.Proofs.Coverage — a mutation reads and stages what is in its plan.

  The plan of a mutation is worked out apart from it, and the locks of the plan are all that keeps
  other writers off what it reads and writes. Any store will do here, also one that fails at some
  reads, as long as what it answers is under its own identifier (`WellFiled`). As far as it gets, a
  transaction goes the way of the same transaction on a store that has what this one answers and
  never fails (`SameSteps.trails`), and of that one it is known that it stays within its plan. So a
  guard that covers the plan covers all that is read and staged, and nothing is ever written that
  is not locked (`plan_covers`).
-/

import LinkedData.Proofs.Mutate
import LinkedData.Proofs.Shadows

namespace LinkedData

open Std SteadyStore

namespace Transaction

/-! ## Reads and staged records -/

section

variable {σ τ υ : Type} {G : Iri → Prop}

/-- Only what is in `G` was read or staged. -/
structure StaysIn (tx : Transaction σ) (G : Iri → Prop) : Prop where
  reads : ∀ x ∈ tx.reads, G x
  staged : ∀ x ∈ tx.staged, G x

/-- What `tx` read, or staged, so did `ty`. -/
structure Behind (tx : Transaction σ) (ty : Transaction τ) : Prop where
  reads : ∀ x ∈ tx.reads, x ∈ ty.reads
  staged : ∀ x ∈ tx.staged, x ∈ ty.staged

theorem Behind.refl (tx : Transaction σ) : Behind tx tx := ⟨fun _ => id, fun _ => id⟩

theorem Behind.trans {tx : Transaction σ} {ty : Transaction τ} {tz : Transaction υ} (h : Behind tx ty)
    (h' : Behind ty tz) : Behind tx tz :=
  ⟨fun x hx => h'.reads x (h.reads x hx), fun x hx => h'.staged x (h.staged x hx)⟩

theorem StaysIn.of_behind {tx : Transaction σ} {ty : Transaction τ} (hy : ty.StaysIn G) (h : Behind tx ty) :
    tx.StaysIn G :=
  ⟨fun x hx => hy.reads x (h.reads x hx), fun x hx => hy.staged x (h.staged x hx)⟩

theorem behind_ask (tx : Transaction σ) (id : Iri) : Behind tx (tx.ask id) :=
  ⟨fun _ hx => ExtTreeSet.mem_insert.mpr (.inr hx), fun _ hx => hx⟩

theorem StaysIn.ask {tx : Transaction σ} (h : tx.StaysIn G) {id : Iri} (hid : G id) : (tx.ask id).StaysIn G where
  reads x hx := by
    rcases ExtTreeSet.mem_insert.mp hx with he | hx
    · exact LawfulEqCmp.eq_of_compare he ▸ hid
    · exact h.reads x hx
  staged := h.staged

theorem StaysIn.askAll {tx : Transaction σ} (h : tx.StaysIn G) {ids : List Iri} (hids : ∀ x ∈ ids, G x) :
    (tx.askAll ids).StaysIn G := by
  induction ids generalizing tx with
  | nil => exact h
  | cons id ids ih =>
    exact ih (h.ask (hids id List.mem_cons_self)) fun x hx => hids x (List.mem_cons_of_mem _ hx)

end

/-! ## Going on -/

section

variable {σ τ α : Type} [RecordStore σ] [RecordStore τ]

theorem tx_stored (id : Iri) (tx : Transaction τ) : (eval (stored id) tx).2 = tx.ask id := by
  unfold stored
  rw [eval_bind_ok (eval_get tx), eval_bind_ok (show eval (set _) tx = (.ok ⟨⟩, tx.ask id) from rfl)]
  cases RecordStore.get tx.store id <;> rfl

/-- Nothing that was read or staged is forgotten. -/
theorem SameSteps.behind {m : TransactionM σ α} {n : TransactionM τ α} (h : SameSteps m n) (ty : Transaction τ) :
    Behind ty (eval n ty).2 := by
  have hstored (id : Iri) (ty : Transaction τ) : Behind ty (eval (Transaction.stored id) ty).2 := by
    rw [tx_stored]
    exact behind_ask ty id
  induction h generalizing ty with
  | pure a => exact .refl ty
  | throw e => exact .refl ty
  | stored id => exact hstored id ty
  | record id =>
    unfold Transaction.record
    rw [eval_bind_ok (eval_get ty)]
    cases ty.staged[id]? with
    | some r => exact .refl ty
    | none => exact hstored id ty
  | timestamp id =>
    have hid := hstored id ty
    unfold Transaction.timestamp
    rw [eval_bind]
    generalize eval (Transaction.stored id) ty = out at hid
    obtain ⟨answer, ty'⟩ := out
    cases answer <;> exact hid
  | freshNode => exact ⟨fun _ => id, fun _ => id⟩
  | stage r => exact ⟨fun _ => id, fun _ hx => ExtTreeMap.mem_insert.mpr (.inr hx)⟩
  | bind _ _ ih ihf =>
    rw [eval_bind]
    have hn := ih ty
    generalize eval _ ty = out at hn
    obtain ⟨answer, ty'⟩ := out
    cases answer with
    | error e => exact hn
    | ok a => exact hn.trans (ihf a ty')

end

/-! ## A store without its failures -/

section

variable {σ α : Type} [RecordStore σ]

/-- What a store answers; nothing where it fails. -/
def answered (s : σ) : Contents := ⟨fun id => (RecordStore.get s id).toOption.join⟩

/-- The same transaction on what its store answers. -/
def unfailing (tx : Transaction σ) : Transaction Contents :=
  ⟨answered tx.store, tx.now, tx.scopes, tx.reads, tx.staged⟩

/-- `m` does what `n` does on what is answered, or fails with its store, having done no more. -/
def Trails (m : TransactionM σ α) (n : TransactionM Contents α) (tx : Transaction σ) : Prop :=
  ((eval m tx).1 = (eval n tx.unfailing).1 ∧ (eval m tx).2.unfailing = (eval n tx.unfailing).2) ∨
    ((∃ f, (eval m tx).1 = .error (.storage f)) ∧ Behind (eval m tx).2 (eval n tx.unfailing).2)

theorem trails_stored (id : Iri) (tx : Transaction σ) : Trails (stored id) (stored id) tx := by
  have hunfailing : eval (stored id) tx.unfailing =
      (.ok (RecordStore.get tx.store id).toOption.join, tx.unfailing.ask id) := eval_stored id tx.unfailing
  unfold Trails
  rw [hunfailing, tx_stored]
  unfold stored
  rw [eval_bind_ok (eval_get tx), eval_bind_ok (show eval (set _) tx = (.ok ⟨⟩, tx.ask id) from rfl)]
  cases RecordStore.get tx.store id with
  | error f => exact .inr ⟨⟨f, rfl⟩, fun _ hx => hx, fun _ hx => hx⟩
  | ok o => exact .inl ⟨rfl, rfl⟩

theorem trails_record (id : Iri) (tx : Transaction σ) : Trails (record id) (record id) tx := by
  unfold record Trails
  rw [eval_bind_ok (eval_get tx), eval_bind_ok (eval_get tx.unfailing), show tx.unfailing.staged = tx.staged from rfl]
  cases tx.staged[id]? with
  | some r => exact .inl ⟨rfl, rfl⟩
  | none => exact trails_stored id tx

/-- After a failure the one transaction is over and the other may go on. -/
theorem Trails.bind {β : Type} {m : TransactionM σ α} {n : TransactionM Contents α} {f : α → TransactionM σ β}
    {g : α → TransactionM Contents β} {tx : Transaction σ} (h : Trails m n tx)
    (hg : ∀ a ty, Behind ty (eval (g a) ty).2) (hf : ∀ a tx, Trails (f a) (g a) tx) :
    Trails (m >>= f) (n >>= g) tx := by
  unfold Trails
  rw [eval_bind, eval_bind]
  unfold Trails at h
  generalize eval m tx = out at h
  generalize eval n tx.unfailing = out' at h
  obtain ⟨answer, tx'⟩ := out
  obtain ⟨answer', ty⟩ := out'
  rcases h with ⟨hanswer, hty⟩ | ⟨⟨e, he⟩, hbehind⟩
  · subst hanswer hty
    cases answer with
    | error e => exact .inl ⟨rfl, rfl⟩
    | ok a => exact hf a tx'
  · subst he
    refine .inr ⟨⟨e, rfl⟩, ?_⟩
    cases answer' with
    | error e => exact hbehind
    | ok a => exact hbehind.trans (hg a ty)

theorem SameSteps.trails {m : TransactionM σ α} {n : TransactionM Contents α} (h : SameSteps m n)
    (tx : Transaction σ) :
    Trails m n tx := by
  induction h generalizing tx with
  | pure a => exact .inl ⟨rfl, rfl⟩
  | throw e => exact .inl ⟨rfl, rfl⟩
  | stored id => exact trails_stored id tx
  | record id => exact trails_record id tx
  | timestamp id => exact (trails_stored id tx).bind (fun _ ty => .refl ty) fun _ _ => .inl ⟨rfl, rfl⟩
  | freshNode => exact .inl ⟨rfl, rfl⟩
  | stage r => exact .inl ⟨rfl, rfl⟩
  | bind _ hf ih ihf => exact (ih tx).bind (fun a => (hf a).behind) ihf

/-- Where the transaction on the answers stays, the one that may fail does. -/
theorem Trails.staysIn {m : TransactionM σ α} {n : TransactionM Contents α} {tx : Transaction σ} {G : Iri → Prop}
    (h : Trails m n tx) (hn : (eval n tx.unfailing).2.StaysIn G) : (eval m tx).2.StaysIn G := by
  rcases h with ⟨-, htx⟩ | ⟨-, hbehind⟩
  · rw [← htx] at hn
    exact ⟨hn.reads, hn.staged⟩
  · exact hn.of_behind hbehind

/-- A commit asks for nothing but what was staged. It takes its batch, or the store fails. -/
theorem commit_trails {G : Iri → Prop} {tx : Transaction σ} (h : tx.StaysIn G) :
    (eval commit tx).2.StaysIn G ∧
      ((eval commit tx).1 = .ok tx.unfailing.batch ∨ ∃ f, (eval commit tx).1 = .error (.storage f)) := by
  have hstamp := (sameSteps_stampAll tx.staged.toList).trails tx
  have hunfailing := eval_stampAll tx.staged.toList tx.unfailing
  have hkeys : ∀ x ∈ tx.staged.toList.map (·.1), G x := fun x hx => by
    rw [ExtTreeMap.map_fst_toList_eq_keys] at hx
    exact h.staged x (ExtTreeMap.mem_keys.mp hx)
  have hin : tx.unfailing.StaysIn G := ⟨h.reads, h.staged⟩
  have hstay := hstamp.staysIn (G := G) (by
    rw [hunfailing]
    exact hin.askAll hkeys)
  unfold commit
  rw [eval_bind_ok (eval_get tx), eval_bind]
  unfold Trails at hstamp
  rw [hunfailing] at hstamp
  generalize eval (tx.staged.toList.mapM _) tx = out at hstamp hstay
  obtain ⟨answer, tx'⟩ := out
  rcases hstamp with ⟨hanswer, -⟩ | ⟨⟨f, hf⟩, -⟩
  · subst hanswer
    dsimp only
    rw [eval_bind_ok (eval_get tx')]
    cases RecordStore.putBatch tx'.store _ with
    | error f => exact ⟨hstay, .inr ⟨f, rfl⟩⟩
    | ok s => exact ⟨⟨hstay.reads, hstay.staged⟩, .inl rfl⟩
  · subst hf
    exact ⟨hstay, .inr ⟨f, rfl⟩⟩

end

end Transaction

namespace Mutation

open Transaction

/-- What an operation is refused for is never the platform's own fault. -/
theorem outcome_ne_internal {see : Iri → Option Record} {p id agent : Iri} {time : Instant} {b : BlankNode}
    {op : Operation} {e : Error} (h : outcome see p id agent time b op = .error e) (why : String) :
    e ≠ .internal why := by
  have hpresence : ∀ e, presence id (see id) = .error e → e ≠ .internal why := by
    intro e he
    unfold presence at he
    split at he
    · cases he
      simp
    · split at he
      · cases he
        simp
      · cases he
  cases op with
  | create model userGraph binary =>
    dsimp only [outcome] at h
    split at h
    · cases h
      simp
    · split at h
      · cases h
        simp
      · cases h
  | replace userGraph expected =>
    dsimp only [outcome] at h
    split at h
    · next hp =>
      cases h
      exact hpresence _ hp
    · split at h
      · cases h
        simp [outdated]
      · cases h
  | delete =>
    dsimp only [outcome] at h
    split at h
    · next hp =>
      cases h
      exact hpresence _ hp
    · cases h

variable {σ : Type} [RecordStore σ] {tx : Transaction σ} {root id p : Iri} {op : Operation} {G : Iri → Prop}

/-- A mutation stays within its plan, however it ends. -/
theorem staysIn_apply (ht : tx.unfailing.Tidy) (hin : tx.StaysIn G) (hp : Identifier.parent? root id = .ok (some p))
    (hc : Covers tx.unfailing.lookLive id p op G) (agent : Iri) : (eval (apply root id agent op) tx).2.StaysIn G := by
  have hself : Linked G tx.unfailing tx.unfailing :=
    ⟨rfl, rfl, rfl, rfl, hin.reads, hin.staged, fun _ _ => rfl, ht⟩
  have hend := (linked_apply hp hc agent hself).2
  exact ((sameSteps_apply op).trails tx).staysIn ⟨hend.readsIn, hend.stagedIn⟩

/-- A mutation that is not refused has staged its target. -/
theorem apply_cases (ht : tx.unfailing.Tidy) (hp : Identifier.parent? root id = .ok (some p)) (agent : Iri)
    (op : Operation) :
    (∃ e, (eval (apply root id agent op) tx).1 = .error e ∧ ∀ why, e ≠ .internal why) ∨
      ((eval (apply root id agent op) tx).1 = .ok () ∧ (eval (apply root id agent op) tx).2.unfailing.Tidy ∧
        id ∈ (eval (apply root id agent op) tx).2.staged) := by
  have happly := eval_apply ht hp agent op
  have htrails : Trails (apply root id agent op) (apply root id agent op) tx := (sameSteps_apply op).trails tx
  rcases htrails with ⟨hanswer, htx⟩ | ⟨⟨f, hf⟩, -⟩
  · cases ho : outcomeFrom tx.unfailing p id agent op with
    | error e =>
      rw [ho] at happly
      obtain ⟨ty, he, -⟩ := happly
      rw [he] at hanswer
      exact .inl ⟨e, hanswer, outcome_ne_internal ho⟩
    | ok o =>
      rw [ho] at happly
      obtain ⟨ty, he, hcame, -⟩ := happly
      rw [he] at hanswer htx
      refine .inr ⟨hanswer, htx ▸ hcame.tidy, ?_⟩
      exact (show (eval (apply root id agent op) tx).2.unfailing.staged = ty.staged by rw [htx]) ▸ hcame.staged
  · exact .inl ⟨_, hf, fun _ => nofun⟩

/-- The end of a mutation asks for nothing new, and the target is in its batch. -/
theorem conclude_trails (ht : tx.unfailing.Tidy) (hin : tx.StaysIn G) (hid : id ∈ tx.staged) (kind : ChangeKind)
    (agent : Iri) : (eval (conclude id kind agent) tx).2.StaysIn G ∧
      ∀ why, (eval (conclude id kind agent) tx).1 ≠ .error (.internal why) := by
  obtain ⟨r, hr⟩ : ∃ r, tx.unfailing.staged[id]? = some r :=
    Option.isSome_iff_exists.mp (ExtTreeMap.mem_iff_isSome_getElem?.mp hid)
  obtain ⟨x, others, hcon, -, -⟩ := conclusion_of_staged ht hr kind agent
  obtain ⟨hstay, hanswer⟩ := commit_trails hin
  unfold conclude
  rw [eval_bind]
  generalize eval commit tx = out at hstay hanswer
  obtain ⟨answer, tx'⟩ := out
  rcases hanswer with hbatch | ⟨f, hf⟩
  · subst hbatch
    dsimp only
    unfold conclusion at hcon
    cases hfind : (tx.unfailing.batch.map (·.resource)).find? (·.id = id) with
    | none => rw [hfind] at hcon; cases hcon
    | some y => exact ⟨hstay, fun _ => nofun⟩
  · subst hf
    exact ⟨hstay, fun _ => nofun⟩

theorem run_trails (ht : tx.unfailing.Tidy) (hin : tx.StaysIn G) (hp : Identifier.parent? root id = .ok (some p))
    (hc : Covers tx.unfailing.lookLive id p op G) (agent : Iri) {guard : Guard}
    (hg : ∀ x, G x → guard.covers x = true) :
    (eval (run root id op agent guard) tx).2.StaysIn G ∧
      ∀ why, (eval (run root id op agent guard) tx).1 ≠ .error (.internal why) := by
  have hstay := staysIn_apply ht hin hp hc agent
  have hcases := apply_cases ht hp agent op
  unfold run
  rw [eval_bind]
  generalize eval (apply root id agent op) tx = out at hstay hcases
  obtain ⟨answer, tx'⟩ := out
  rcases hcases with ⟨e, he, hne⟩ | ⟨hok, htidy, hid⟩
  · subst he
    exact ⟨hstay, fun why h => hne why (Except.error.inj h)⟩
  · subst hok
    dsimp only
    rw [eval_bind_ok (eval_checkCovered_of_covered fun x hx => hg x (hstay.staged x hx))]
    exact conclude_trails htidy hstay hid op.kind agent

end Mutation

namespace Repository

open Transaction Mutation

variable {σ : Type} [RecordStore σ] {r : Repository σ}

/-- The repository on what its store answers. -/
def unfailing (r : Repository σ) : Repository Contents := ⟨r.root, answered r.store, r.scopes⟩

theorem find_unfailing (r : Repository σ) (id : Iri) :
    find r.unfailing.store id = (RecordStore.get r.store id).toOption.join :=
  rfl

theorem agrees_unfailing (r : Repository σ) (id : Iri) : Agrees (r.record id) (r.unfailing.record id) := by
  rw [record_eq r.unfailing, find_unfailing]
  unfold record
  cases RecordStore.get r.store id with
  | error f => exact .inl ⟨f, rfl⟩
  | ok o => exact .inr rfl

theorem selfKeyed_unfailing (hs : WellFiled r.store) : SelfKeyed r.unfailing.store := by
  intro id x hx
  rw [find_unfailing] at hx
  cases hg : RecordStore.get r.store id with
  | error f => rw [hg] at hx; cases hx
  | ok o =>
    rw [hg] at hx
    exact hs id x (hg.trans (congrArg Except.ok hx))

/-- The plan of a mutation has everything in it that the mutation reads or stages, and a writer with the locks
    of the plan has those of all that it reads and writes: it is never told that something went wrong inside. -/
theorem plan_covers (hs : WellFiled r.store) {id : Iri} (hv : Identifier.validate r.root id = .ok ())
    (hne : id ≠ r.root) (op : Operation) (session : Session) (now : Instant) :
    (∀ e, r.affected id op = .error e → ∃ f, e = .storage f) ∧ ∀ plan, r.affected id op = .ok plan →
      (eval (apply r.root id session.agent op) (begin r.store r.scopes now)).2.StaysIn (· ∈ plan) ∧
        ∀ guard : Guard, guard.coversAll plan = true →
          (eval (run r.root id op session.agent guard) (begin r.store r.scopes now)).2.StaysIn (guard.covers · = true) ∧
            ∀ why, (r.perform id op session now guard).1 ≠ .error (.internal why) := by
  obtain ⟨p, hp⟩ := Identifier.exists_parent hv hne
  have hplan := agrees_affected r.agrees_unfailing rfl id op
  rw [affected_eq r.unfailing hp op] at hplan
  have hkeyed := selfKeyed_unfailing hs
  have ht : (begin r.store r.scopes now).unfailing.Tidy := tidy_begin hkeyed r.scopes now
  have hc : Covers (begin r.store r.scopes now).unfailing.lookLive id p op
      (· ∈ planned (findLive r.unfailing.store) p id op) := by
    rw [show (begin r.store r.scopes now).unfailing.lookLive = findLive r.unfailing.store from
      lookLive_begin r.unfailing.store r.scopes now]
    exact covers_planned _ id p op
  have hin : ∀ G : Iri → Prop, (begin r.store r.scopes now).StaysIn G := fun G =>
    ⟨fun x hx => by simp [begin] at hx, fun x hx => by simp [begin] at hx⟩
  refine ⟨fun e he => ?_, fun plan hok => ?_⟩
  · rcases hplan with ⟨f, hf⟩ | hok
    · exact ⟨f, Except.error.inj (he.symm.trans hf)⟩
    · cases he.symm.trans hok
  · obtain rfl : plan = planned (findLive r.unfailing.store) p id op := by
      rcases hplan with ⟨f, hf⟩ | hok'
      · cases hok.symm.trans hf
      · exact Except.ok.inj (hok.symm.trans hok')
    refine ⟨staysIn_apply ht (hin _) hp hc session.agent, fun guard hg => ?_⟩
    have hguard : ∀ x ∈ planned (findLive r.unfailing.store) p id op, guard.covers x = true := List.all_eq_true.mp hg
    obtain ⟨hstay, hanswer⟩ := run_trails ht (hin _) hp hc session.agent hguard
    exact ⟨⟨fun x hx => hguard x (hstay.reads x hx), fun x hx => hguard x (hstay.staged x hx)⟩, hanswer⟩

/-! A band: those who are in the container `trellis:data/d` play in `trellis:data/m`. -/

/-- The user graph of the container, with the relation in one direction or the other. -/
def bandGraph (direction : Iri) : Graph := .ofList
  [⟨.iri ⟨"trellis:data/d"⟩, Vocabulary.Ldp.membershipResource, .iri ⟨"trellis:data/m"⟩⟩,
   ⟨.iri ⟨"trellis:data/d"⟩, direction, .iri ⟨"urn:plays"⟩⟩]

def forming : List (Call × Session × Instant) :=
  [(.makeRoot, .administrator ⟨1, 0⟩, ⟨1, 0⟩),
   (.create ⟨"trellis:data/m"⟩ .rdfSource .empty, .anonymous ⟨2, 0⟩, ⟨2, 0⟩),
   (.create ⟨"trellis:data/d"⟩ .directContainer (.ofUserGraph (bandGraph Vocabulary.Ldp.hasMemberRelation)),
     .anonymous ⟨3, 0⟩, ⟨3, 0⟩),
   (.create ⟨"trellis:data/d/x"⟩ .rdfSource .empty, .anonymous ⟨4, 0⟩, ⟨4, 0⟩),
   (.create ⟨"trellis:data/d/y"⟩ .rdfSource .empty, .anonymous ⟨5, 0⟩, ⟨5, 0⟩)]

def band : Repository Table := (Repository.open ⟨"trellis:data/"⟩ Table.empty 0 ⟨0, 0⟩).after forming

/-- The relation is turned round, so that the members say it themselves. -/
def turn : Operation := .replace (bandGraph Vocabulary.Ldp.isMemberOfRelation) none

/-- That takes the locks of the members too. -/
theorem band_covered :
    WellFiled band.store ∧ Identifier.validate band.root ⟨"trellis:data/d"⟩ = .ok () ∧
      ⟨"trellis:data/d"⟩ ≠ band.root ∧
      ∃ plan, band.affected ⟨"trellis:data/d"⟩ turn = .ok plan ∧
        plan.map (·.text) = ["trellis:data/d", "trellis:data/", "trellis:data/m", "trellis:data/m",
          "trellis:data/d/x", "trellis:data/d/y"] ∧
        (eval (apply band.root ⟨"trellis:data/d"⟩ (Session.anonymous ⟨6, 0⟩).agent turn)
          (begin band.store band.scopes ⟨6, 0⟩)).2.StaysIn (· ∈ plan) := by
  have hs : WellFiled band.store := wellFiled_iff.mpr ((sound_open _ Table.get?_empty _ _).after forming).keyed
  have hv : Identifier.validate band.root ⟨"trellis:data/d"⟩ = .ok () := by decide +kernel
  have hne : (⟨"trellis:data/d"⟩ : Iri) ≠ band.root := by decide +kernel
  have hplan : band.affected ⟨"trellis:data/d"⟩ turn =
      .ok [⟨"trellis:data/d"⟩, ⟨"trellis:data/"⟩, ⟨"trellis:data/m"⟩, ⟨"trellis:data/m"⟩,
        ⟨"trellis:data/d/x"⟩, ⟨"trellis:data/d/y"⟩] := by decide +kernel
  exact ⟨hs, hv, hne, _, hplan, rfl, ((plan_covers hs hv hne turn (.anonymous ⟨6, 0⟩) ⟨6, 0⟩).2 _ hplan).1⟩

end Repository

end LinkedData
