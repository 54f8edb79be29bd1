/-
  LinkedData.Proofs.RecentUse — a cache answers as a list of what was used last.

  The list is what a cache is meant to be: keys with their values in the order of their last
  use, no more than there is room for. A program calls either of them, each call chosen by the
  answers before it. What it does when a value is missing is a program too, which may call the
  same cache in the middle of a call and may fail.

  - `Represents` relates a cache to the list, and `Represents.coherent` is what it makes of the
    order of keys beside the map.
  - `Represents.insert`, `get`, `invalidate`: one call on both. Where there is one key too many
    the loop that evicts stops after the oldest (`evict_oldest`).
  - `program_sees_list`: every program has the same answers and asks for the same values, as
    often, from the cache and from the list, and after every call the cache is the list.
-/

import LinkedData.Cache
import Mathlib.Data.List.Basic
import Mathlib.Data.List.Nodup

namespace LinkedData

open Std

/-! ## The list -/

/-- Keys with their values in the order of their last use, least recent first. There is always room for
    one. -/
structure Lru (capacity : Nat) (κ ν : Type) where
  items : List (κ × ν)
  distinct : (items.map Prod.fst).Nodup
  fits : items.length ≤ max capacity 1

namespace Lru

variable {capacity : Nat} {κ ν : Type} [DecidableEq κ]

def new (capacity : Nat) : Lru capacity κ ν := ⟨[], List.nodup_nil, Nat.zero_le _⟩

def keys (l : Lru capacity κ ν) : List κ := l.items.map Prod.fst

def lookup (l : Lru capacity κ ν) (k : κ) : Option ν := (l.items.find? (·.1 = k)).map Prod.snd

/-- What is left of the items when `k` is taken out. -/
def others (l : Lru capacity κ ν) (k : κ) : List (κ × ν) := l.items.filter (·.1 ≠ k)

/-- What is kept when `k` is used: all but `k` itself, or, where a new key finds no room, all but the
    least recent. -/
def kept (l : Lru capacity κ ν) (k : κ) : List (κ × ν) :=
  if k ∈ l.keys then l.others k else if l.items.length < max capacity 1 then l.items else l.items.tail

omit [DecidableEq κ] in
theorem nodup_keys (l : Lru capacity κ ν) : l.keys.Nodup := l.distinct

theorem mem_others {l : Lru capacity κ ν} {k : κ} {e : κ × ν} :
    e ∈ l.others k ↔ e ∈ l.items ∧ e.1 ≠ k := by
  simp [others]

theorem map_fst_others (l : Lru capacity κ ν) (k : κ) : (l.others k).map Prod.fst = l.keys.filter (· ≠ k) := by
  rw [others, keys, List.filter_map]
  rfl

theorem kept_sublist (l : Lru capacity κ ν) (k : κ) : (l.kept k).Sublist l.items := by
  unfold kept
  split
  · exact List.filter_sublist
  · split
    · exact List.Sublist.refl _
    · exact List.tail_sublist _

theorem not_mem_kept (l : Lru capacity κ ν) (k : κ) : k ∉ (l.kept k).map Prod.fst := by
  unfold kept
  split
  · rw [map_fst_others]
    simp
  · next h =>
    split
    · exact h
    · exact fun hk => h ((List.Sublist.map Prod.fst (List.tail_sublist _)).mem hk)

theorem length_kept_lt (l : Lru capacity κ ν) (k : κ) : (l.kept k).length < max capacity 1 := by
  have hfits := l.fits
  unfold kept
  split
  · next h =>
    obtain ⟨e, he, rfl⟩ := List.mem_map.mp h
    have hlt : (l.others e.1).length < l.items.length :=
      List.length_filter_lt_length_iff_exists.mpr ⟨e, he, by simp⟩
    omega
  · split
    · assumption
    · rw [List.length_tail]
      omega

/-- A use of `k` makes it the most recent key, with the value `v`. -/
def use (l : Lru capacity κ ν) (k : κ) (v : ν) : Lru capacity κ ν where
  items := l.kept k ++ [(k, v)]
  distinct := by
    rw [List.map_append, List.map_singleton, List.nodup_append]
    refine ⟨(l.kept_sublist k).map Prod.fst |>.nodup l.distinct, List.nodup_singleton _, ?_⟩
    rintro a ha b hb rfl
    rw [List.mem_singleton.mp hb] at ha
    exact l.not_mem_kept k ha
  fits := by
    rw [List.length_append, List.length_singleton]
    exact l.length_kept_lt k

theorem keys_use (l : Lru capacity κ ν) (k : κ) (v : ν) : (l.use k v).keys = (l.kept k).map Prod.fst ++ [k] := by
  simp [keys, use]

theorem mem_use {l : Lru capacity κ ν} {k a : κ} {v w : ν} :
    (a, w) ∈ (l.use k v).items ↔ if k = a then v = w else (a, w) ∈ l.kept k := by
  rw [use, List.mem_append, List.mem_singleton, Prod.mk.injEq]
  split
  · next h =>
    subst h
    have hnot : (k, w) ∉ l.kept k := fun hm => l.not_mem_kept k (List.mem_map.mpr ⟨_, hm, rfl⟩)
    simp [hnot, eq_comm]
  · next h => simp [Ne.symm h]

def drop (l : Lru capacity κ ν) (k : κ) : Lru capacity κ ν where
  items := l.others k
  distinct := (List.filter_sublist.map Prod.fst).nodup l.distinct
  fits := Nat.le_trans (List.length_filter_le ..) l.fits

theorem keys_drop (l : Lru capacity κ ν) (k : κ) : (l.drop k).keys = l.keys.filter (· ≠ k) := l.map_fst_others k

theorem mem_drop {l : Lru capacity κ ν} {k : κ} {e : κ × ν} :
    e ∈ (l.drop k).items ↔ e ∈ l.items ∧ e.1 ≠ k := mem_others

/-- A hit is a use; a miss is none. -/
def get (l : Lru capacity κ ν) (k : κ) : Option ν × Lru capacity κ ν :=
  match l.lookup k with
  | some v => (some v, l.use k v)
  | none => (none, l)

/-- A missing key is asked for once, and what is told is used if it is a value. -/
def obtain {ε : Type} {m : Type → Type} [Monad m] (k : κ)
    (populate : κ → StateT (Lru capacity κ ν) m (Except ε ν)) :
    StateT (Lru capacity κ ν) m (Except ε ν) := do
  match ← modifyGet fun l => l.get k with
  | some v => return .ok v
  | none =>
    match ← populate k with
    | .error e => return .error e
    | .ok v =>
      modify fun l => l.use k v
      return .ok v

def size (l : Lru capacity κ ν) : Nat := l.items.length

theorem lookup_eq_some_iff {l : Lru capacity κ ν} {k : κ} {v : ν} : l.lookup k = some v ↔ (k, v) ∈ l.items := by
  have hdistinct := l.distinct
  unfold lookup
  generalize l.items = items at hdistinct
  induction items with
  | nil => simp
  | cons e items ih =>
    rw [List.map_cons, List.nodup_cons] at hdistinct
    rw [List.find?_cons]
    by_cases he : e.1 = k
    · subst he
      have hnot : (e.1, v) ∉ items := fun hm => hdistinct.1 (List.mem_map.mpr ⟨_, hm, rfl⟩)
      simp [hnot, Prod.ext_iff, eq_comm]
    · have hne : (k, v) ≠ e := fun h => he (by rw [← h])
      simp [he, hne, ih hdistinct.2]

end Lru

/-! ## The cache is the list -/

namespace Cache

variable {capacity : Nat} {κ ν : Type} [Ord κ] [TransOrd κ]

/-- The order of the cache is that of the list, and its values are the list's. -/
structure Represents (c : Cache κ ν) (l : Lru capacity κ ν) : Prop where
  room : c.capacity = max capacity 1
  recency : c.recency = l.keys
  entries : ∀ k v, c.entries[k]? = some v ↔ (k, v) ∈ l.items

theorem represents_new (capacity : Nat) : Represents (new (κ := κ) (ν := ν) capacity) (.new capacity) :=
  ⟨rfl, rfl, by simp [new, Lru.new]⟩

namespace Represents

variable {c : Cache κ ν} {l : Lru capacity κ ν}

theorem lookup_eq [DecidableEq κ] (h : Represents c l) (k : κ) : l.lookup k = c.entries[k]? :=
  Option.ext fun v => by rw [h.entries, Lru.lookup_eq_some_iff]

theorem mem_iff (h : Represents c l) {k : κ} : k ∈ c.entries ↔ k ∈ l.keys := by
  rw [ExtTreeMap.mem_iff_isSome_getElem?, Option.isSome_iff_exists, Lru.keys, List.mem_map]
  constructor
  · rintro ⟨v, hv⟩
    exact ⟨(k, v), (h.entries k v).mp hv, rfl⟩
  · rintro ⟨⟨k, v⟩, he, rfl⟩
    exact ⟨v, (h.entries k v).mpr he⟩

variable [LawfulEqOrd κ]

theorem size_eq (h : Represents c l) : c.entries.size = l.items.length := by
  have hperm : c.entries.keys.Perm l.keys := by
    refine (List.perm_ext_iff_of_nodup c.entries.nodup_keys l.distinct).mpr fun k => ?_
    rw [ExtTreeMap.mem_keys, h.mem_iff, Lru.keys]
  rw [← ExtTreeMap.length_keys, hperm.length_eq, Lru.keys, List.length_map]

theorem coherent (h : Represents c l) : c.Coherent := by
  refine ⟨h.recency ▸ l.distinct, fun k => ?_, ?_⟩
  · rw [h.recency, h.mem_iff]
  · rw [h.size_eq, h.room]
    exact l.fits

end Represents

theorem evict_of_le {entries : ExtTreeMap κ ν compare} (h : entries.size ≤ capacity) (order : List κ) :
    evict capacity entries order = (entries, order) := by
  cases order with
  | nil => rfl
  | cons k order => rw [evict, if_neg (Nat.not_lt.mpr h)]

/-- One key too many is put right by forgetting the oldest. -/
theorem evict_oldest {entries : ExtTreeMap κ ν compare} {oldest : κ} (h : entries.size = capacity + 1)
    (hk : oldest ∈ entries) (order : List κ) :
    evict capacity entries (oldest :: order) = (entries.erase oldest, order) := by
  have hsize : (entries.erase oldest).size ≤ capacity := by
    rw [ExtTreeMap.size_erase, if_pos (ExtTreeMap.contains_iff_mem.mpr hk)]
    omega
  rw [evict, if_pos (by omega), evict_of_le hsize]

omit [Ord κ] [TransOrd κ] in
theorem touch_eq [DecidableEq κ] {l : Lru capacity κ ν} {k : κ} (h : k ∈ l.keys) :
    touch l.keys k = l.keys.filter (· ≠ k) ++ [k] := by
  rw [touch, if_pos h, l.nodup_keys.erase_eq_filter]
  congr 2
  funext a
  rw [bne_eq, decide_not, beq_eq_decide]

theorem size_insert_of_not_mem {m : ExtTreeMap κ ν compare} {k : κ} (h : k ∉ m) (v : ν) :
    (m.insert k v).size = m.size + 1 := by
  rw [ExtTreeMap.size_insert, if_neg fun hc => h (ExtTreeMap.contains_iff_mem.mp hc)]

variable [LawfulEqOrd κ] [DecidableEq κ]

theorem getElem?_insert (m : ExtTreeMap κ ν compare) (k a : κ) (v : ν) :
    (m.insert k v)[a]? = if k = a then some v else m[a]? := by
  simp [ExtTreeMap.getElem?_insert, LawfulEqCmp.compare_eq_iff_eq]

theorem getElem?_erase (m : ExtTreeMap κ ν compare) (k a : κ) :
    (m.erase k)[a]? = if k = a then none else m[a]? := by
  simp [ExtTreeMap.getElem?_erase, LawfulEqCmp.compare_eq_iff_eq]

/-- A hit moves the key as if its value were put there again. -/
theorem get_of_hit {c : Cache κ ν} {k : κ} {v : ν} (h : c.entries[k]? = some v) :
    c.get k = (some v, c.insert k v) := by
  have hk : k ∈ c.entries := ExtTreeMap.mem_iff_isSome_getElem?.mpr (by rw [h]; rfl)
  have hsame : c.entries.insert k v = c.entries := by
    refine ExtTreeMap.ext_getElem? fun a => ?_
    rw [getElem?_insert]
    split
    · next ha => rw [← ha, h]
    · rfl
  rw [Cache.get, h, Cache.insert, if_pos hk, hsame]

namespace Represents

variable {c : Cache κ ν} {l : Lru capacity κ ν}

/-- An overwritten key goes to the end with its new value. -/
theorem insert_of_mem (h : Represents c l) {k : κ} (hk : k ∈ l.keys) (v : ν) :
    Represents (c.insert k v) (l.use k v) := by
  have hkept : l.kept k = l.others k := if_pos hk
  rw [Cache.insert, if_pos (h.mem_iff.mpr hk)]
  refine ⟨h.room, ?_, fun a w => ?_⟩
  · rw [h.recency, touch_eq hk, Lru.keys_use, hkept, Lru.map_fst_others]
  · rw [Lru.mem_use, hkept, Lru.mem_others, getElem?_insert]
    split
    · rw [Option.some.injEq]
    · next ha => simp [h.entries, Ne.symm ha]

/-- A new key that finds room is put at the end. -/
theorem insert_of_room (h : Represents c l) {k : κ} (hk : k ∉ l.keys) (hroom : l.items.length < max capacity 1)
    (v : ν) :
    Represents (c.insert k v) (l.use k v) := by
  have hkept : l.kept k = l.items := by rw [Lru.kept, if_neg hk, if_pos hroom]
  have hnew : k ∉ c.entries := fun hm => hk (h.mem_iff.mp hm)
  have hsize : (c.entries.insert k v).size ≤ c.capacity := by
    rw [size_insert_of_not_mem hnew, h.size_eq, h.room]
    exact hroom
  rw [Cache.insert, if_neg hnew, evict_of_le hsize]
  refine ⟨h.room, ?_, fun a w => ?_⟩
  · rw [Lru.keys_use, hkept, h.recency, Lru.keys]
  · rw [Lru.mem_use, hkept, getElem?_insert]
    split
    · rw [Option.some.injEq]
    · exact h.entries a w

/-- A new key that finds no room takes that of the oldest. -/
theorem insert_of_full (h : Represents c l) {k : κ} (hk : k ∉ l.keys) (hfull : l.items.length = max capacity 1)
    (v : ν) :
    Represents (c.insert k v) (l.use k v) := by
  have hkept : l.kept k = l.items.tail := by rw [Lru.kept, if_neg hk, if_neg (by omega)]
  have hnew : k ∉ c.entries := fun hm => hk (h.mem_iff.mp hm)
  have hsize : (c.entries.insert k v).size = c.capacity + 1 := by
    rw [size_insert_of_not_mem hnew, h.size_eq, h.room, hfull]
  obtain ⟨⟨oldest, u⟩, more, hitems⟩ : ∃ e more, l.items = e :: more :=
    List.exists_cons_of_length_pos (by omega)
  have hkeys : l.keys = oldest :: more.map Prod.fst := by rw [Lru.keys, hitems, List.map_cons]
  have hold : oldest ∈ c.entries.insert k v := by
    rw [ExtTreeMap.mem_insert, h.mem_iff, hkeys]
    exact .inr List.mem_cons_self
  rw [Cache.insert, if_neg hnew, h.recency, hkeys, List.cons_append, evict_oldest hsize hold]
  refine ⟨h.room, ?_, fun a w => ?_⟩
  · rw [Lru.keys_use, hkept, hitems, List.tail_cons]
  · rw [Lru.mem_use, hkept, hitems, List.tail_cons, getElem?_erase, getElem?_insert]
    have honce : oldest ∉ more.map Prod.fst := (List.nodup_cons.mp (hkeys ▸ l.nodup_keys)).1
    by_cases hold : oldest = a
    · subst hold
      have hother : k ≠ oldest := by
        rintro rfl
        exact hk (hkeys ▸ List.mem_cons_self)
      have hgone : (oldest, w) ∉ more := fun hm => honce (List.mem_map.mpr ⟨_, hm, rfl⟩)
      simp [hother, hgone]
    · rw [if_neg hold]
      split
      · rw [Option.some.injEq]
      · rw [h.entries, hitems, List.mem_cons, Prod.mk.injEq]
        simp [Ne.symm hold]

theorem insert (h : Represents c l) (k : κ) (v : ν) : Represents (c.insert k v) (l.use k v) := by
  by_cases hk : k ∈ l.keys
  · exact h.insert_of_mem hk v
  · rcases Nat.lt_or_eq_of_le l.fits with hroom | hfull
    · exact h.insert_of_room hk hroom v
    · exact h.insert_of_full hk hfull v

theorem get (h : Represents c l) (k : κ) : (c.get k).1 = (l.get k).1 ∧ Represents (c.get k).2 (l.get k).2 := by
  rw [Lru.get, h.lookup_eq]
  cases hv : c.entries[k]? with
  | none =>
    rw [Cache.get, hv]
    exact ⟨rfl, h⟩
  | some v =>
    rw [get_of_hit hv]
    exact ⟨rfl, h.insert k v⟩

theorem invalidate (h : Represents c l) (k : κ) :
    (c.invalidate k).1 = l.lookup k ∧ Represents (c.invalidate k).2 (l.drop k) := by
  rw [h.lookup_eq]
  unfold Cache.invalidate
  cases hv : c.entries[k]? with
  | none =>
    have hk : k ∉ l.keys := by
      intro hm
      rw [← h.mem_iff, ExtTreeMap.mem_iff_isSome_getElem?, hv] at hm
      cases hm
    refine ⟨rfl, h.room, ?_, fun a w => ?_⟩
    · rw [Lru.keys_drop, h.recency, List.filter_eq_self.mpr]
      exact fun a ha => decide_eq_true fun he => hk (he ▸ ha)
    · rw [Lru.mem_drop, h.entries, iff_self_and]
      rintro hm rfl
      exact hk (List.mem_map.mpr ⟨_, hm, rfl⟩)
  | some v =>
    refine ⟨rfl, h.room, ?_, fun a w => ?_⟩
    · rw [Lru.keys_drop, h.recency]
    · rw [Lru.mem_drop, getElem?_erase, ← h.entries]
      by_cases ha : k = a
      · simp [ha]
      · simp [ha, Ne.symm ha]

end Represents

end Cache

/-! ## Programs -/

/-- What somebody does with a cache: a call, and then whatever its answer makes them do, to an end that is
    a value or a failure. What is asked when a key is missing is such a program too, and runs in the middle
    of a call. -/
inductive Program (κ ν ε : Type)
  | done (answer : Except ε ν)
  | insert (k : κ) (v : ν) (next : Program κ ν ε)
  | get (k : κ) (next : Option ν → Program κ ν ε)
  | obtain (k : κ) (populate : κ → Program κ ν ε) (next : Except ε ν → Program κ ν ε)
  | invalidate (k : κ) (next : Option ν → Program κ ν ε)
  | size (next : Nat → Program κ ν ε)

/-- What happens in the course of a program: its calls with their answers, as they return, and every time
    that `populate` is asked for a value. -/
inductive Happening (κ ν ε : Type)
  | inserted (k : κ) (v : ν)
  | got (k : κ) (answer : Option ν)
  | asked (k : κ)
  | obtained (k : κ) (answer : Except ε ν)
  | invalidated (k : κ) (answer : Option ν)
  | counted (n : Nat)

/-- Computations that change a state and log what happens, each time with the state it leaves. -/
abbrev Logged (κ ν ε σ : Type) := StateT σ (StateM (List (Happening κ ν ε × σ)))

namespace Logged

variable {κ ν ε σ : Type}

def log (e : Happening κ ν ε) : Logged κ ν ε σ Unit := fun s past => (((), s), past ++ [(e, s)])

def call {α : Type} (f : σ → α × σ) (e : α → Happening κ ν ε) : Logged κ ν ε σ α := do
  let answer ← modifyGet f
  log (e answer)
  return answer

end Logged

namespace Program

open Logged

variable {κ ν ε : Type} [DecidableEq κ]

def onCache [Ord κ] [TransOrd κ] [LawfulEqOrd κ] : Program κ ν ε → Logged κ ν ε (Cache κ ν) (Except ε ν)
  | done answer => return answer
  | insert k v next => do
    call (fun c => ((), c.insert k v)) fun _ => .inserted k v
    next.onCache
  | get k next => do
    let answer ← call (fun c => c.get k) (.got k)
    (next answer).onCache
  | obtain k populate next => do
    let answer ← Cache.obtain k fun k => do
      log (.asked k)
      (populate k).onCache
    log (.obtained k answer)
    (next answer).onCache
  | invalidate k next => do
    let answer ← call (fun c => c.invalidate k) (.invalidated k)
    (next answer).onCache
  | size next => do
    let n ← call (fun c => (c.size, c)) .counted
    (next n).onCache

def onList : Program κ ν ε → Logged κ ν ε (Lru capacity κ ν) (Except ε ν)
  | done answer => return answer
  | insert k v next => do
    call (fun l => ((), l.use k v)) fun _ => .inserted k v
    next.onList
  | get k next => do
    let answer ← call (fun l => l.get k) (.got k)
    (next answer).onList
  | obtain k populate next => do
    let answer ← Lru.obtain k fun k => do
      log (.asked k)
      (populate k).onList
    log (.obtained k answer)
    (next answer).onList
  | invalidate k next => do
    let answer ← call (fun l => (l.lookup k, l.drop k)) (.invalidated k)
    (next answer).onList
  | size next => do
    let n ← call (fun l => (l.size, l)) .counted
    (next n).onList

end Program

/-! ## Every program sees the same -/

namespace Logged

variable {capacity : Nat} {κ ν ε : Type} [Ord κ] [TransOrd κ]

/-- The same happened, and what it left in the cache is what it left in the list. -/
def Agrees (x : Happening κ ν ε × Cache κ ν) (y : Happening κ ν ε × Lru capacity κ ν) : Prop :=
  x.1 = y.1 ∧ x.2.Represents y.2

/-- From a cache that is the list, both come to the same answer, with logs that agree, and the cache is
    still the list. -/
def Same {α : Type} (x : Logged κ ν ε (Cache κ ν) α) (y : Logged κ ν ε (Lru capacity κ ν) α) : Prop :=
  ∀ c l past past', c.Represents l → List.Forall₂ Agrees past past' →
    (x c past).1.1 = (y l past').1.1 ∧ (x c past).1.2.Represents (y l past').1.2 ∧
      List.Forall₂ Agrees (x c past).2 (y l past').2

variable {α β : Type} {x : Logged κ ν ε (Cache κ ν) α} {y : Logged κ ν ε (Lru capacity κ ν) α}

theorem same_pure (a : α) :
    Same (pure a : Logged κ ν ε (Cache κ ν) α) (pure a : Logged κ ν ε (Lru capacity κ ν) α) :=
  fun _ _ _ _ hc hp => ⟨rfl, hc, hp⟩

theorem Same.bind (h : Same x y) {f : α → Logged κ ν ε (Cache κ ν) β}
    {g : α → Logged κ ν ε (Lru capacity κ ν) β} (hfg : ∀ a, Same (f a) (g a)) :
    Same (x >>= f) (y >>= g) := by
  intro c l past past' hc hp
  obtain ⟨ha, hc', hp'⟩ := h c l past past' hc hp
  have hnext := hfg (x c past).1.1 _ _ _ _ hc' hp'
  have hright : (y >>= g) l past' = g (x c past).1.1 (y l past').1.2 (y l past').2 := by rw [ha]; rfl
  rw [hright]
  exact hnext

theorem same_log (e : Happening κ ν ε) :
    Same (log e : Logged κ ν ε (Cache κ ν) Unit) (log e : Logged κ ν ε (Lru capacity κ ν) Unit) :=
  fun _ _ _ _ hc hp => ⟨rfl, hc, List.rel_append hp (.cons ⟨rfl, hc⟩ .nil)⟩

theorem same_modifyGet {f : Cache κ ν → α × Cache κ ν} {g : Lru capacity κ ν → α × Lru capacity κ ν}
    (h : ∀ {c l}, c.Represents l → (f c).1 = (g l).1 ∧ (f c).2.Represents (g l).2) :
    Same (modifyGet f : Logged κ ν ε (Cache κ ν) α) (modifyGet g) :=
  fun _ _ _ _ hc hp => ⟨(h hc).1, (h hc).2, hp⟩

theorem same_call {f : Cache κ ν → α × Cache κ ν} {g : Lru capacity κ ν → α × Lru capacity κ ν}
    (h : ∀ {c l}, c.Represents l → (f c).1 = (g l).1 ∧ (f c).2.Represents (g l).2)
    (e : α → Happening κ ν ε) :
    Same (call f e) (call g e) :=
  (same_modifyGet h).bind fun a => (same_log (e a)).bind fun _ => same_pure a

variable [LawfulEqOrd κ] [DecidableEq κ]

theorem same_obtain {k : κ} {populate : κ → Logged κ ν ε (Cache κ ν) (Except ε ν)}
    {populate' : κ → Logged κ ν ε (Lru capacity κ ν) (Except ε ν)}
    (h : ∀ k, Same (populate k) (populate' k)) :
    Same (Cache.obtain k populate) (Lru.obtain k populate') := by
  refine (same_modifyGet fun hc => hc.get k).bind fun answer => ?_
  cases answer with
  | some v => exact same_pure _
  | none =>
    refine (h k).bind fun told => ?_
    cases told with
    | error e => exact same_pure _
    | ok v => exact (same_modifyGet fun hc => ⟨rfl, hc.insert k v⟩).bind fun _ => same_pure _

end Logged

namespace Program

open Logged

variable {κ ν ε : Type} [Ord κ] [TransOrd κ] [LawfulEqOrd κ] [DecidableEq κ]

/-- One rule for each kind of call. What `populate` does is related before what follows the call. -/
theorem same (capacity : Nat) (p : Program κ ν ε) :
    Same p.onCache (p.onList : Logged κ ν ε (Lru capacity κ ν) (Except ε ν)) := by
  induction p with
  | done answer => exact same_pure answer
  | insert k v next ih => exact (same_call (fun hc => ⟨rfl, hc.insert k v⟩) _).bind fun _ => ih
  | get k next ih => exact (same_call (fun hc => hc.get k) _).bind ih
  | obtain k populate next ihpopulate ihnext =>
    have hpopulate := fun k => (same_log (.asked k)).bind fun _ => ihpopulate k
    exact (same_obtain hpopulate).bind fun answer => (same_log (.obtained k answer)).bind fun _ => ihnext answer
  | invalidate k next ih => exact (same_call (fun hc => hc.invalidate k) _).bind ih
  | size next ih => exact (same_call (fun hc => ⟨hc.size_eq, hc⟩) _).bind ih

/-- A `populate` that leaves the cache alone: the program is the function. -/
theorem obtain_done (c : Cache κ ν) (past : List (Happening κ ν ε × Cache κ ν)) (k : κ)
    (populate : κ → Except ε ν) :
    ((obtain k (fun k => done (populate k)) done).onCache c past).1 = c.getOrPopulate k populate := by
  unfold Cache.getOrPopulate
  simp only [onCache, Cache.obtain, bind, StateT.bind, StateT.run, modifyGet, MonadStateOf.modifyGet, StateT.modifyGet]
  rcases c.get k with ⟨_ | v, found⟩
  · cases populate k <;> rfl
  · rfl

end Program

/-- Programs cannot tell a new cache from an empty list of the same capacity. What they are answered and
    asked is the same, in the same order; each time the cache is the list, so its order of keys has every key
    of the map, once, and there is room for all. -/
theorem program_sees_list {κ ν ε : Type} [Ord κ] [TransOrd κ] [LawfulEqOrd κ] [DecidableEq κ] (capacity : Nat)
    (p : Program κ ν ε) :
    let cached := p.onCache (Cache.new capacity) []
    let listed := p.onList (Lru.new capacity) []
    cached.1.1 = listed.1.1 ∧ cached.2.map Prod.fst = listed.2.map Prod.fst ∧
      cached.1.2.Represents listed.1.2 ∧ List.Forall₂ Logged.Agrees cached.2 listed.2 ∧
        cached.1.2.Coherent ∧ ∀ e ∈ cached.2, e.2.Coherent := by
  intro cached listed
  obtain ⟨hanswer, hfinal, hlogs⟩ : cached.1.1 = listed.1.1 ∧ cached.1.2.Represents listed.1.2 ∧
      List.Forall₂ Logged.Agrees cached.2 listed.2 :=
    p.same capacity (.new capacity) (.new capacity) [] [] (Cache.represents_new capacity) .nil
  have hhappened : List.Forall₂ Eq (cached.2.map Prod.fst) (listed.2.map Prod.fst) := by
    rw [List.forall₂_map_left_iff, List.forall₂_map_right_iff]
    exact hlogs.imp fun _ _ h => h.1
  have hcoherent := (List.forall₂_and_left _ _).mp (hlogs.imp fun _ _ h => ⟨h.2.coherent, h⟩)
  exact ⟨hanswer, List.forall₂_eq_eq_eq ▸ hhappened, hfinal, hlogs, hfinal.coherent, hcoherent.1⟩

/-- Two keys find room; the first is used again, and the second, while a third is asked for. The third
    then takes the place of the first. -/
def errand : Program Nat Nat String :=
  .insert 1 10 <| .insert 2 20 <| .get 1 fun _ =>
    .obtain 3 (fun k => .get 2 fun _ => .done (.ok (10 * k))) fun _ =>
      .get 1 fun _ => .obtain 1 (fun _ => .done (.error "unreachable")) fun _ =>
        .invalidate 2 fun _ => .size fun n => .done (.ok n)

theorem errand_sees_list :
    let cached := errand.onCache (Cache.new 2) []
    cached.1.1 = .ok 1 ∧ cached.1.2.recency = [3] ∧ cached.1.2.Coherent ∧
      cached.2.map Prod.fst =
        [.inserted 1 10, .inserted 2 20, .got 1 (some 10), .asked 3, .got 2 (some 20), .obtained 3 (.ok 30),
         .got 1 none,
          .asked 1, .obtained 1 (.error "unreachable"), .invalidated 2 (some 20), .counted 1] := by
  intro cached
  obtain ⟨hanswer, hhappened, hfinal, -, hcoherent, -⟩ := program_sees_list 2 errand
  exact ⟨hanswer, hfinal.recency, hcoherent, hhappened⟩

end LinkedData
