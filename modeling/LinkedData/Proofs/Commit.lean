/-
  LinkedData.Proofs.Commit — the end of a mutation: its batch, and what a store holds after it.

  The batch of a transaction is every record that it staged, with the time that is due to it
  (`batch`). On a keyed store a record of the batch is found under its identifier afterwards,
  and every other identifier is as it was (`find_committed`). Times apart, what is found is
  what the transaction saw in the end (`content_committed`). `conclude` fails only for a
  transaction that did not stage its target, and `checkCovered` only for one that staged
  something outside its guard.
-/

import LinkedData.Proofs.Upkeep
import Mathlib.Data.List.Nodup

namespace LinkedData

open Std SteadyStore

/-! ## Records without their times -/

namespace Record

open Transaction

@[simp] theorem id_stamp (t : Instant) (r : Record) : (stamp t r).id = r.id := rfl

@[simp] theorem isLive_stamp (t : Instant) (r : Record) : (stamp t r).isLive = r.isLive := by
  unfold stamp isLive
  cases r.tombstonedAt <;> rfl

/-- A record as it would be had it been written at the epoch. -/
def content (r : Record) : Record := stamp ⟨0, 0⟩ r

@[simp] theorem content_stamp (t : Instant) (r : Record) : (stamp t r).content = r.content := by
  unfold content stamp
  cases r.tombstonedAt <;> rfl

@[simp] theorem id_content (r : Record) : r.content.id = r.id := rfl

@[simp] theorem isLive_content (r : Record) : r.content.isLive = r.isLive := isLive_stamp _ r

theorem content_eq_iff {r r' : Record} : r.content = r'.content ↔
    r.isLive = r'.isLive ∧ r.resource.id = r'.resource.id ∧ r.resource.model = r'.resource.model ∧
      r.resource.dataset = r'.resource.dataset ∧ r.resource.binary = r'.resource.binary := by
  obtain ⟨⟨i, m, d, t, b⟩, s⟩ := r
  obtain ⟨⟨i', m', d', t', b'⟩, s'⟩ := r'
  cases s <;> cases s' <;> simp [content, stamp, isLive]

end Record

namespace Transaction

variable {σ : Type}

def askAll (tx : Transaction σ) (ids : List Iri) : Transaction σ := ids.foldl ask tx

theorem askAll_rest (tx : Transaction σ) (ids : List Iri) :
    (tx.askAll ids).store = tx.store ∧ (tx.askAll ids).now = tx.now ∧ (tx.askAll ids).scopes = tx.scopes := by
  induction ids generalizing tx with
  | nil => exact ⟨rfl, rfl, rfl⟩
  | cons id ids ih => exact ih (tx.ask id)

variable [RecordStore σ] [SteadyStore σ]

/-! ## The batch -/

/-- The records that a commit writes. -/
def batch (tx : Transaction σ) : List Record := tx.staged.toList.map fun e => stamp (tx.due e.1) e.2

/-- After its batch was written. -/
def committed (tx : Transaction σ) : Transaction σ :=
  { tx.askAll (tx.staged.toList.map (·.1)) with store := write tx.store tx.batch }

theorem due_ask (tx : Transaction σ) (id : Iri) : (tx.ask id).due = tx.due := rfl

theorem eval_stampAll (es : List (Iri × Record)) (tx : Transaction σ) :
    eval (es.mapM fun e => return stamp (← timestamp e.1) e.2) tx =
      (.ok (es.map fun e => stamp (tx.due e.1) e.2), tx.askAll (es.map (·.1))) := by
  induction es generalizing tx with
  | nil => rfl
  | cons e es ih =>
    rw [List.mapM_cons, bind_assoc, eval_bind_ok (eval_timestamp e.1 tx)]
    rw [eval_bind_ok (eval_pure _ _), eval_bind_ok (ih (tx.ask e.1)), due_ask]
    rfl

theorem eval_commit (tx : Transaction σ) : eval commit tx = (.ok tx.batch, tx.committed) := by
  unfold commit
  rw [eval_bind_ok (eval_get tx)]
  refine (eval_bind_ok (eval_stampAll tx.staged.toList tx)).trans ?_
  rw [eval_bind_ok (eval_get _), putBatch_eq, (askAll_rest tx _).1]
  rfl

omit [RecordStore σ] [SteadyStore σ] in
theorem eval_checkCovered_of_covered {tx : Transaction σ} {g : Guard} (h : ∀ x ∈ tx.staged, g.covers x = true) :
    eval (checkCovered g) tx = (.ok (), tx) := by
  unfold checkCovered
  rw [eval_bind_ok (eval_get tx)]
  have hf : (tx.staged.keys.find? fun id => !g.covers id) = none := by
    rw [List.find?_eq_none]
    intro x hx
    simp [h x (ExtTreeMap.mem_keys.mp hx)]
  rw [hf]
  rfl

omit [RecordStore σ] [SteadyStore σ] in
/-- The check changes nothing, however it ends. -/
theorem eval_checkCovered_cases (g : Guard) (tx : Transaction σ) :
    eval (checkCovered g) tx = (.ok (), tx) ∨ ∃ e, eval (checkCovered g) tx = (.error e, tx) := by
  unfold checkCovered
  rw [eval_bind_ok (eval_get tx)]
  cases tx.staged.keys.find? fun id => !g.covers id with
  | some id => exact .inr ⟨_, rfl⟩
  | none => exact .inl rfl

/-! ## What is found afterwards -/

theorem Tidy.id_staged {tx : Transaction σ} (h : tx.Tidy) {x : Iri} {r : Record} (hr : tx.staged[x]? = some r) :
    r.id = x :=
  h x r (by rw [look, hr]; rfl)

theorem map_id_batch {tx : Transaction σ} (h : tx.Tidy) : tx.batch.map Record.id = tx.staged.keys := by
  unfold batch
  rw [List.map_map, ← ExtTreeMap.map_fst_toList_eq_keys]
  refine List.map_congr_left fun e he => ?_
  have hid : e.2.id = e.1 := h.id_staged (ExtTreeMap.mem_toList_iff_getElem?_eq_some.mp he)
  exact hid

theorem nodup_batch {tx : Transaction σ} (h : tx.Tidy) : (tx.batch.map Record.id).Nodup := by
  rw [map_id_batch h]
  exact ExtTreeMap.nodup_keys

theorem mem_batch {tx : Transaction σ} {b : Record} :
    b ∈ tx.batch ↔ ∃ x r, tx.staged[x]? = some r ∧ stamp (tx.due x) r = b := by
  simp only [batch, List.mem_map, Prod.exists, ExtTreeMap.mem_toList_iff_getElem?_eq_some]

theorem mem_batch_of_staged {tx : Transaction σ} {x : Iri} {r : Record} (h : tx.staged[x]? = some r) :
    stamp (tx.due x) r ∈ tx.batch :=
  mem_batch.mpr ⟨x, r, h, rfl⟩

end Transaction

namespace Transaction

/-- A store after a batch: what was staged with its time, and the rest as it was. The batch may come
    from a transaction on another store. -/
theorem find_write_batch {τ σ : Type} [RecordStore τ] [SteadyStore τ] [RecordStore σ] [KeyedStore σ]
    {tx : Transaction τ} (h : tx.Tidy) (s : σ) (x : Iri) :
    find (write s tx.batch) x = match tx.staged[x]? with
      | some r => some (stamp (tx.due x) r)
      | none => find s x := by
  cases hs : tx.staged[x]? with
  | some r =>
    have hf := KeyedStore.find_write_of_mem s (nodup_batch h) (mem_batch_of_staged hs)
    rwa [Record.id_stamp, h.id_staged hs] at hf
  | none =>
    refine KeyedStore.find_write_of_not_mem s ?_
    rw [map_id_batch h, ExtTreeMap.mem_keys, ExtTreeMap.mem_iff_isSome_getElem?, hs]
    simp

variable {σ : Type} [RecordStore σ] [KeyedStore σ]

/-- The store of a transaction after its commit. -/
theorem find_committed {tx : Transaction σ} (h : tx.Tidy) (x : Iri) :
    find tx.committed.store x = match tx.staged[x]? with
      | some r => some (stamp (tx.due x) r)
      | none => find tx.store x :=
  find_write_batch h tx.store x

/-- Times apart, a store holds what the transaction saw in the end. -/
theorem content_committed {tx : Transaction σ} (h : tx.Tidy) (x : Iri) :
    (find tx.committed.store x).map Record.content = (tx.look x).map Record.content := by
  rw [find_committed h, look]
  cases tx.staged[x]? with
  | some r => simp
  | none => rfl

end Transaction

/-! ## The answer -/

namespace Mutation

open Transaction

variable {σ : Type} [RecordStore σ] [SteadyStore σ]

/-- What a writer of `records` says was done. -/
def conclusion (id : Iri) (kind : ChangeKind) (agent : Iri) (records : List Record) : Except Error Commit :=
  match (records.map (·.resource)).find? (·.id = id) with
  | some x => .ok ⟨kind, x, (records.map (·.resource)).filter (·.id ≠ id), agent⟩
  | none => .error (.internal ("Commit for " ++ id.text ++ " did not write the target"))

theorem eval_conclude (id : Iri) (kind : ChangeKind) (agent : Iri) (tx : Transaction σ) :
    eval (conclude id kind agent) tx = (conclusion id kind agent tx.batch, tx.committed) := by
  unfold conclude conclusion
  rw [eval_bind_ok (eval_commit tx)]
  dsimp only
  cases (tx.batch.map (·.resource)).find? (·.id = id) <;> rfl

theorem conclusion_of_staged {tx : Transaction σ} (h : tx.Tidy) {id : Iri} {r : Record} (hr : tx.staged[id]? = some r)
    (kind : ChangeKind) (agent : Iri) :
    ∃ x others, conclusion id kind agent tx.batch = .ok ⟨kind, x, others, agent⟩ ∧
      x = (stamp (tx.due id) r).resource ∧ ∀ y ∈ others, y.id ≠ id := by
  have hb := mem_batch_of_staged hr
  have hid : r.id = id := h.id_staged hr
  unfold conclusion
  cases hf : (tx.batch.map (·.resource)).find? (·.id = id) with
  | none =>
    have hne := List.find?_eq_none.mp hf _ (List.mem_map_of_mem hb)
    simp only [decide_eq_true_eq] at hne
    exact absurd hid hne
  | some x =>
    refine ⟨x, _, rfl, ?_, fun y hy => by simpa using (List.mem_filter.mp hy).2⟩
    obtain ⟨b, hbm, hx⟩ := List.mem_map.mp (List.mem_of_find?_eq_some hf)
    have hxid : x.id = id := by simpa using List.find?_some hf
    have hbr : b = stamp (tx.due id) r := by
      refine List.inj_on_of_nodup_map (nodup_batch h) hbm hb ?_
      exact (show b.resource.id = id by rw [hx]; exact hxid).trans hid.symm
    rw [← hx, hbr]

/-- A commit reports the resources of its batch, the target first and each of them once. -/
theorem resources_of_conclusion {tx : Transaction σ} (h : tx.Tidy) {id agent : Iri} {kind : ChangeKind} {c : Commit}
    (hc : conclusion id kind agent tx.batch = .ok c) :
    c.kind = kind ∧ c.agent = agent ∧ c.resource.id = id ∧ (c.resources.map Resource.id).Nodup ∧
      ∀ y, y ∈ c.resources ↔ y ∈ tx.batch.map (·.resource) := by
  have hn : ((tx.batch.map (·.resource)).map Resource.id).Nodup := by
    rw [List.map_map]
    exact nodup_batch h
  unfold conclusion at hc
  cases hf : (tx.batch.map (·.resource)).find? (·.id = id) with
  | none => rw [hf] at hc; cases hc
  | some x =>
    rw [hf] at hc
    cases hc
    have hx : x ∈ tx.batch.map (·.resource) := List.mem_of_find?_eq_some hf
    have hid : x.id = id := by simpa using List.find?_some hf
    refine ⟨rfl, rfl, hid, ?_, fun y => ?_⟩
    · refine List.nodup_cons.mpr ⟨fun hin => ?_, hn.sublist ((List.filter_sublist).map _)⟩
      obtain ⟨y, hy, he⟩ := List.mem_map.mp hin
      have hne : y.id ≠ id := by simpa using (List.mem_filter.mp hy).2
      exact hne (he.trans hid)
    · rw [Commit.resources, List.mem_cons, List.mem_filter]
      constructor
      · rintro (rfl | ⟨hy, -⟩)
        · exact hx
        · exact hy
      · intro hy
        by_cases he : y.id = id
        · exact .inl (List.inj_on_of_nodup_map hn hy hx (he.trans hid.symm))
        · exact .inr ⟨hy, by simpa using he⟩

/-- Everyone else is reported in the order of the identifiers. -/
theorem ordered_of_conclusion {tx : Transaction σ} (h : tx.Tidy) {id agent : Iri} {kind : ChangeKind} {c : Commit}
    (hc : conclusion id kind agent tx.batch = .ok c) :
    (c.touched.map Resource.id).Pairwise fun x y => compare x y = .lt := by
  have hkeys : ((tx.batch.map (·.resource)).map Resource.id).Pairwise fun x y => compare x y = .lt := by
    have hids : (tx.batch.map (·.resource)).map Resource.id = tx.staged.keys := by
      rw [List.map_map]
      exact map_id_batch h
    rw [hids]
    exact ExtTreeMap.ordered_keys
  unfold conclusion at hc
  cases hf : (tx.batch.map (·.resource)).find? (·.id = id) with
  | none => rw [hf] at hc; cases hc
  | some x =>
    rw [hf] at hc
    cases hc
    exact hkeys.sublist (List.filter_sublist.map _)

end Mutation

end LinkedData
