/-
  LinkedData.Proofs.BlankNodes — two calls have one node just if they were for one label of one arena.

  Arenas are drawn from one source, by whoever wants one and at any time: a draw is one step. Each arena is
  called for nodes, without a label or by one, and the calls on all of them come in any order. A mint is
  the source with its arenas, and with every node that was handed out and the call it was for.

  - `Arena.answer_cases`: an arena answers with the node it remembers for a label, or with its next index.
  - `Arena.Accounts` is what an arena knows of its own answers, and holds after one more
    (`Accounts.answer`) unless the indices run out. That depends on nothing but the calls: each without a
    label takes a node, and each label one (`Call.demand`).
  - `Mint.Inv`: the scopes of the arenas follow one another, modulo 2^64, so no two have the same before
    there are more than 2^64 of them (`scopes_apart`).
  - `Mint.nodes_never_alias`: the above for every run, and the size of an arena is how many different
    nodes it handed out.
-/

import LinkedData.Rdf.Arena
import Mathlib.Algebra.Group.Nat.Defs
import Mathlib.Data.Finset.Card
import Mathlib.Data.List.Pairwise

namespace LinkedData

open Std

theorem card_toFinset_concat {α : Type} [DecidableEq α] (xs : List α) (x : α) :
    (xs ++ [x]).toFinset.card = xs.toFinset.card + if x ∈ xs then 0 else 1 := by
  have hinsert : (xs ++ [x]).toFinset = insert x xs.toFinset := by
    ext y
    simp
  rw [hinsert, Finset.card_insert_eq_ite]
  simp only [List.mem_toFinset]
  split <;> rfl

/-! ## Calls and their nodes -/

namespace Arena

inductive Call
  | fresh
  | labeled (label : String)
  deriving DecidableEq

namespace Call

def label? : Call → Option String
  | fresh => none
  | labeled l => some l

/-- How many nodes some calls take: one for each without a label, and one for each label. -/
def demand (calls : List Call) : Nat := calls.count fresh + (calls.filterMap label?).toFinset.card

theorem label?_eq_some_iff {c : Call} {l : String} : c.label? = some l ↔ c = labeled l := by
  cases c <;> simp [label?]

/-- Only a label that was called for before takes no node. -/
theorem demand_concat (calls : List Call) (c : Call) :
    demand (calls ++ [c]) = demand calls + if c ∈ calls ∧ c ≠ fresh then 0 else 1 := by
  rw [demand, demand, List.count_append, List.filterMap_append]
  cases c with
  | fresh =>
    rw [show [fresh].filterMap label? = [] from rfl, List.append_nil, List.count_singleton_self,
      if_neg fun h => h.2 rfl]
    omega
  | labeled l =>
    have hknown : l ∈ calls.filterMap label? ↔ labeled l ∈ calls ∧ labeled l ≠ fresh := by
      simp [List.mem_filterMap, label?_eq_some_iff]
    rw [show [labeled l].filterMap label? = [l] from rfl, card_toFinset_concat, if_congr hknown rfl rfl,
      show [labeled l].count fresh = 0 from rfl]
    omega

end Call

def answer (a : Arena) : Call → BlankNode × Arena
  | .fresh => a.fresh
  | .labeled l => a.labeled l

/-- An arena answers with the node it remembers, or else with a new one, which it then remembers if there is
    a label to it. -/
theorem answer_cases (a : Arena) (c : Call) :
    (∃ l b, c = .labeled l ∧ a.labels[l]? = some b ∧ a.answer c = (b, a)) ∨
      (∀ l, c = .labeled l → a.labels[l]? = none) ∧
        ∃ labels, a.answer c = (⟨a.scope, a.next⟩, ⟨a.scope, a.next + 1, labels⟩) ∧
          ∀ l, labels[l]? = if c = .labeled l then some ⟨a.scope, a.next⟩ else a.labels[l]? := by
  cases c with
  | fresh => exact .inr ⟨nofun, a.labels, rfl, fun l => rfl⟩
  | labeled l =>
    cases h : a.labels[l]? with
    | some b =>
      refine .inl ⟨l, b, rfl, h, ?_⟩
      rw [answer, Arena.labeled, h]
    | none =>
      refine .inr ⟨?_, a.labels.insert l ⟨a.scope, a.next⟩, ?_, fun l' => ?_⟩
      · rintro _ ⟨⟩
        exact h
      · rw [answer, Arena.labeled, h]
        rfl
      · simp [ExtTreeMap.getElem?_insert, LawfulEqCmp.compare_eq_iff_eq]

theorem scope_answer (a : Arena) (c : Call) : (a.answer c).2.scope = a.scope := by
  rcases a.answer_cases c with ⟨l, b, -, -, h⟩ | ⟨-, labels, h, -⟩ <;> rw [h]

end Arena

/-- A node that was handed out: by which arena, counted in the order in which they were drawn, and for
    which call. -/
structure Handout where
  arena : Nat
  call : Arena.Call
  node : BlankNode

namespace Handout

/-- Both calls were for one label. -/
def SameLabel (x y : Handout) : Prop := ∃ l, x.call = .labeled l ∧ y.call = .labeled l

theorem SameLabel.symm {x y : Handout} (h : x.SameLabel y) : y.SameLabel x :=
  let ⟨l, hx, hy⟩ := h
  ⟨l, hy, hx⟩

theorem exists_sameLabel_iff {hs : List Handout} {x : Handout} :
    (∃ y ∈ hs, y.SameLabel x) ↔ x.call ∈ hs.map call ∧ x.call ≠ .fresh := by
  rw [List.mem_map]
  constructor
  · rintro ⟨y, hy, l, hyl, hxl⟩
    exact ⟨⟨y, hy, hyl.trans hxl.symm⟩, by rw [hxl]; nofun⟩
  · rintro ⟨⟨y, hy, hyx⟩, hlabel⟩
    cases hx : x.call with
    | fresh => exact absurd hx hlabel
    | labeled l => exact ⟨y, hy, l, hyx.trans hx, hx⟩

end Handout

/-! ## One arena -/

namespace Arena

/-- What an arena knows of its answers, when these are `hs`. -/
structure Accounts (a : Arena) (hs : List Handout) : Prop where
  scope : ∀ x ∈ hs, x.node.scope = a.scope
  index : ∀ x ∈ hs, x.node.index.toNat < a.size
  labels : ∀ {l b}, a.labels[l]? = some b ↔ ∃ x ∈ hs, x.call = .labeled l ∧ x.node = b
  apart : hs.Pairwise fun x y => x.node = y.node ↔ x.SameLabel y
  size : a.size = (hs.map Handout.node).toFinset.card
  demand : a.size = Call.demand (hs.map Handout.call)

theorem accounts_new (scope : UInt64) : Accounts (.new scope) [] where
  scope := nofun
  index := nofun
  labels := by simp [new]
  apart := .nil
  size := rfl
  demand := rfl

namespace Accounts

variable {a : Arena} {hs : List Handout}

/-- The node of a label is that of all calls for it, and of no others. -/
theorem node_eq_iff (h : Accounts a hs) {x y : Handout} {l : String} (hx : x ∈ hs) (hy : y ∈ hs)
    (hyl : y.call = .labeled l) : x.node = y.node ↔ x.call = .labeled l := by
  have : Std.Symm fun x y : Handout => x.node = y.node ↔ x.SameLabel y :=
    ⟨fun x y hxy => eq_comm.trans (hxy.trans ⟨.symm, .symm⟩)⟩
  by_cases hne : x = y
  · exact iff_of_true (congrArg _ hne) (hne ▸ hyl)
  · rw [h.apart.forall hx hy hne]
    simp [Handout.SameLabel, hyl]

/-- A label that is not remembered was not called for. -/
theorem not_sameLabel (h : Accounts a hs) {x : Handout} (hnew : ∀ l, x.call = .labeled l → a.labels[l]? = none) :
    ¬ ∃ y ∈ hs, y.SameLabel x := by
  rintro ⟨y, hy, l, hyl, hxl⟩
  have hfound := h.labels.mpr ⟨y, hy, hyl, rfl⟩
  rw [hnew l hxl] at hfound
  cases hfound

theorem next_not_mem (h : Accounts a hs) : (⟨a.scope, a.next⟩ : BlankNode) ∉ hs.map Handout.node := by
  intro hm
  obtain ⟨x, hx, hnode⟩ := List.mem_map.mp hm
  have hlt := h.index x hx
  rw [hnode] at hlt
  exact Nat.lt_irrefl _ hlt

/-- One more answer `x`, that leaves the arena as `a'`. It is a node from before just if it has the label of
    one from before; what the arena counts and remembers follows from that. -/
theorem concat (h : Accounts a hs) {a' : Arena} {x : Handout} (hscope : a'.scope = a.scope)
    (hsize : a'.size = a.size + if x.node ∈ hs.map Handout.node then 0 else 1)
    (hnode : x.node.scope = a.scope ∧ x.node.index.toNat < a'.size)
    (hlabels : ∀ l, a'.labels[l]? = if x.call = .labeled l then some x.node else a.labels[l]?)
    (happart : ∀ y ∈ hs, y.node = x.node ↔ y.SameLabel x) : Accounts a' (hs ++ [x]) where
  scope := by
    rw [List.forall_mem_append, List.forall_mem_singleton, hscope]
    exact ⟨h.scope, hnode.1⟩
  index := by
    rw [List.forall_mem_append, List.forall_mem_singleton]
    exact ⟨fun y hy => by have := h.index y hy; omega, hnode.2⟩
  labels {l b} := by
    simp only [List.mem_append, List.mem_singleton, or_and_right, exists_or, exists_eq_left, hlabels]
    by_cases hl : x.call = .labeled l
    · rw [if_pos hl, Option.some.injEq]
      constructor
      · exact fun hb => .inr ⟨hl, hb⟩
      · rintro (⟨y, hy, hyl, rfl⟩ | ⟨-, hb⟩)
        · exact ((happart y hy).mpr ⟨l, hyl, hl⟩).symm
        · exact hb
    · simp [hl, h.labels]
  apart := by
    refine List.pairwise_append.mpr ⟨h.apart, List.pairwise_singleton _ _, fun y hy z hz => ?_⟩
    rw [List.mem_singleton.mp hz]
    exact happart y hy
  size := by
    rw [List.map_append, List.map_singleton, card_toFinset_concat, ← h.size]
    exact hsize
  demand := by
    have hknown : x.node ∈ hs.map Handout.node ↔ x.call ∈ hs.map Handout.call ∧ x.call ≠ .fresh := by
      rw [← Handout.exists_sameLabel_iff, List.mem_map]
      exact exists_congr fun y => and_congr_right (happart y)
    rw [List.map_append, List.map_singleton, Call.demand_concat, ← h.demand, hsize, if_congr hknown rfl rfl]

theorem answer (h : Accounts a hs) {x : Handout} (hx : x.node = (a.answer x.call).1)
    (hroom : Call.demand ((hs ++ [x]).map Handout.call) < 2 ^ 32) : Accounts (a.answer x.call).2 (hs ++ [x]) := by
  rcases a.answer_cases x.call with ⟨l, b, hl, hb, hanswer⟩ | ⟨hnew, labels, hanswer, hlabels⟩
  · obtain ⟨y, hy, hyl, rfl⟩ := h.labels.mp hb
    rw [hanswer] at hx ⊢
    have hmem : x.node ∈ hs.map Handout.node := hx ▸ List.mem_map_of_mem hy
    refine h.concat rfl ?_ ?_ (fun l' => ?_) fun z hz => ?_
    · rw [if_pos hmem, Nat.add_zero]
    · rw [hx]
      exact ⟨h.scope y hy, h.index y hy⟩
    · split
      · next hl' => rw [← Call.labeled.inj (hl.symm.trans hl'), hb, hx]
      · rfl
    · rw [hx, h.node_eq_iff hz hy hyl]
      simp [Handout.SameLabel, hl]
  · rw [hanswer] at hx ⊢
    have hmem : x.node ∉ hs.map Handout.node := hx ▸ h.next_not_mem
    have hother := h.not_sameLabel hnew
    have hunknown : ¬ (x.call ∈ hs.map Handout.call ∧ x.call ≠ .fresh) := Handout.exists_sameLabel_iff.not.mp hother
    rw [List.map_append, List.map_singleton, Call.demand_concat, if_neg hunknown, ← h.demand] at hroom
    have hnext : (a.next + 1).toNat = a.size + 1 := by
      rw [UInt32.toNat_add]
      exact Nat.mod_eq_of_lt hroom
    refine h.concat rfl ?_ ?_ (fun l => ?_) fun y hy => ?_
    · rw [if_neg hmem]
      exact hnext
    · rw [hx]
      refine ⟨rfl, ?_⟩
      show a.size < (a.next + 1).toNat
      omega
    · rw [hlabels, hx]
    · exact iff_of_false (fun heq => hmem (heq ▸ List.mem_map_of_mem hy)) fun hyx => hother ⟨y, hy, hyx⟩

end Accounts

end Arena

/-! ## All arenas of a source -/

/-- A source with the arenas drawn from it, and all that these handed out, in the order of the calls. -/
structure Mint where
  source : ScopeSource
  arenas : List Arena
  handed : List Handout

namespace Mint

def new (source : ScopeSource) : Mint := ⟨source, [], []⟩

def draw (m : Mint) : Mint := { m with source := m.source.arena.2, arenas := m.arenas ++ [m.source.arena.1] }

/-- A call on the arena `k`. There is none before that many were drawn. -/
def call (m : Mint) (k : Nat) (c : Arena.Call) : Mint :=
  match m.arenas[k]? with
  | some a => { m with arenas := m.arenas.set k (a.answer c).2, handed := m.handed ++ [⟨k, c, (a.answer c).1⟩] }
  | none => m

inductive Event
  | draw
  | call (k : Nat) (c : Arena.Call)

def step (m : Mint) : Event → Mint
  | .draw => m.draw
  | .call k c => m.call k c

def after (m : Mint) (events : List Event) : Mint := events.foldl step m

/-- What the arena `k` handed out. -/
def handedBy (m : Mint) (k : Nat) : List Handout := m.handed.filter (·.arena = k)

/-- How many nodes the arena `k` had to allocate. -/
def allocations (m : Mint) (k : Nat) : Nat := Arena.Call.demand ((m.handedBy k).map Handout.call)

variable {m : Mint}

theorem handedBy_call_self {k : Nat} {a : Arena} (hk : m.arenas[k]? = some a) (c : Arena.Call) :
    (m.call k c).handedBy k = m.handedBy k ++ [⟨k, c, (a.answer c).1⟩] := by
  rw [call, hk]
  simp [handedBy]

theorem handedBy_call_of_ne {j k : Nat} (h : j ≠ k) (c : Arena.Call) : (m.call k c).handedBy j = m.handedBy j := by
  unfold call
  split
  · simp [handedBy, Ne.symm h]
  · rfl

theorem allocations_le_step (m : Mint) (e : Event) (k : Nat) : m.allocations k ≤ (m.step e).allocations k := by
  cases e with
  | draw => exact Nat.le_refl _
  | call j c =>
    by_cases hj : k = j
    · subst hj
      cases hk : m.arenas[k]? with
      | none =>
        rw [step, call, hk]
      | some a =>
        rw [step, allocations, allocations, handedBy_call_self hk, List.map_append, List.map_singleton,
          Arena.Call.demand_concat]
        exact Nat.le_add_right _ _
    · rw [step, allocations, allocations, handedBy_call_of_ne hj]

theorem getElem?_draw {k : Nat} {a : Arena} :
    m.draw.arenas[k]? = some a ↔ m.arenas[k]? = some a ∨ k = m.arenas.length ∧ a = .new m.source.next := by
  rw [draw, List.getElem?_append]
  split
  · next hlt => simp [Nat.ne_of_lt hlt]
  · next hge =>
    rw [List.getElem?_eq_none (Nat.not_lt.mp hge), List.getElem?_singleton]
    split
    · next h => simp [ScopeSource.arena, eq_comm, show k = m.arenas.length by omega]
    · next h => simp [show k ≠ m.arenas.length by omega]

theorem getElem?_call {j k : Nat} {a : Arena} (hk : m.arenas[k]? = some a) (c : Arena.Call) :
    (m.call k c).arenas[j]? = if j = k then some (a.answer c).2 else m.arenas[j]? := by
  obtain ⟨hlt, -⟩ := List.getElem?_eq_some_iff.mp hk
  rw [call, hk, List.getElem?_set, if_pos hlt]
  simp only [eq_comm]

/-- Scopes are counted from the first that the source had, and each arena knows its answers. -/
structure Inv (first : UInt64) (m : Mint) : Prop where
  next : m.source.next = first + UInt64.ofNat m.arenas.length
  scope : ∀ {k a}, m.arenas[k]? = some a → a.scope = first + UInt64.ofNat k
  accounts : ∀ {k} {a : Arena}, m.arenas[k]? = some a → a.Accounts (m.handedBy k)
  drawn : ∀ x ∈ m.handed, x.arena < m.arenas.length

theorem inv_new (source : ScopeSource) : Inv source.next (new source) where
  next := (UInt64.add_zero _).symm
  scope := nofun
  accounts := nofun
  drawn := nofun

variable {first : UInt64}

theorem Inv.draw (h : Inv first m) : Inv first m.draw where
  next := by
    show m.source.next + 1 = first + UInt64.ofNat (m.arenas ++ _).length
    rw [h.next, List.length_append, List.length_singleton, UInt64.ofNat_add, UInt64.add_assoc]
    rfl
  scope {k a} hk := by
    rcases getElem?_draw.mp hk with hk | ⟨rfl, rfl⟩
    · exact h.scope hk
    · exact h.next
  accounts {k a} hk := by
    rcases getElem?_draw.mp hk with hk | ⟨rfl, rfl⟩
    · exact h.accounts hk
    · have hnone : m.draw.handedBy m.arenas.length = [] :=
        List.filter_eq_nil_iff.mpr fun x hx => by simp [Nat.ne_of_lt (h.drawn x hx)]
      rw [hnone]
      exact Arena.accounts_new _
  drawn x hx := by
    have hlt := h.drawn x hx
    show x.arena < (m.arenas ++ _).length
    rw [List.length_append]
    omega

theorem Inv.call (h : Inv first m) {k : Nat} {c : Arena.Call} (hroom : (m.call k c).allocations k < 2 ^ 32) :
    Inv first (m.call k c) := by
  cases hk : m.arenas[k]? with
  | none =>
    have hsame : m.call k c = m := by rw [Mint.call, hk]
    rw [hsame]
    exact h
  | some a =>
    have hlength : (m.call k c).arenas.length = m.arenas.length := by
      rw [Mint.call, hk]
      exact List.length_set
    refine ⟨?_, fun {j b} hj => ?_, fun {j b} hj => ?_, fun x hx => ?_⟩
    · rw [hlength, ← h.next, Mint.call, hk]
    · rw [getElem?_call hk] at hj
      split at hj
      · next hjk =>
        cases hj
        rw [hjk, Arena.scope_answer]
        exact h.scope hk
      · exact h.scope hj
    · rw [getElem?_call hk] at hj
      split at hj
      · next hjk =>
        cases hj
        subst hjk
        rw [allocations] at hroom
        rw [handedBy_call_self hk] at hroom ⊢
        exact (h.accounts hk).answer rfl hroom
      · next hjk =>
        rw [handedBy_call_of_ne hjk]
        exact h.accounts hj
    · rw [hlength]
      rw [Mint.call, hk] at hx
      rcases List.mem_append.mp hx with hx | hx
      · exact h.drawn x hx
      · rw [List.mem_singleton.mp hx]
        exact (List.getElem?_eq_some_iff.mp hk).1

/-- The invariant holds after every run in which no arena runs out of indices. -/
theorem inv_after (source : ScopeSource) (events : List Event)
    (hroom : ∀ k, ((new source).after events).allocations k < 2 ^ 32) :
    Inv source.next ((new source).after events) := by
  induction events using List.reverseRecOn with
  | nil => exact inv_new source
  | append_singleton events e ih =>
    rw [after, List.foldl_append] at hroom ⊢
    -- an arena that has room at the end had it before
    have h := ih fun k => Nat.lt_of_le_of_lt (allocations_le_step _ e k) (hroom k)
    cases e with
    | draw => exact h.draw
    | call k c => exact h.call (hroom k)

theorem scopes_apart (first : UInt64) {j k : Nat} (hj : j < 2 ^ 64) (hk : k < 2 ^ 64)
    (h : first + UInt64.ofNat j = first + UInt64.ofNat k) : j = k := by
  have heq := congrArg UInt64.toNat ((UInt64.add_right_inj first).mp h)
  rwa [UInt64.toNat_ofNat_of_lt' hj, UInt64.toNat_ofNat_of_lt' hk] at heq

theorem Inv.node_scope (h : Inv first m) {x : Handout} (hx : x ∈ m.handed) :
    x.node.scope = first + UInt64.ofNat x.arena := by
  have hk := List.getElem?_eq_getElem (h.drawn x hx)
  rw [(h.accounts hk).scope x (List.mem_filter.mpr ⟨hx, decide_eq_true rfl⟩), h.scope hk]

theorem Inv.apart (h : Inv first m) (hdrawn : m.arenas.length ≤ 2 ^ 64) :
    m.handed.Pairwise fun x y => x.node = y.node ↔ x.arena = y.arena ∧ x.SameLabel y := by
  refine List.pairwise_iff_getElem.mpr fun i j hi hj hij => ?_
  have hx := h.drawn _ (List.getElem_mem hi)
  have hy := h.drawn _ (List.getElem_mem hj)
  by_cases harena : m.handed[i].arena = m.handed[j].arena
  · have hpairwise := List.pairwise_filter.mp (h.accounts (List.getElem?_eq_getElem hx)).apart
    rw [and_iff_right harena]
    exact List.pairwise_iff_getElem.mp hpairwise i j hi hj hij (decide_eq_true rfl) (decide_eq_true harena.symm)
  · refine iff_of_false (fun hnode => harena ?_) fun hboth => harena hboth.1
    have hscope := congrArg BlankNode.scope hnode
    rw [h.node_scope (List.getElem_mem hi), h.node_scope (List.getElem_mem hj)] at hscope
    exact scopes_apart first (by omega) (by omega) hscope

/-- From any source, after any draws and calls, in any order, with no more arenas than there are scopes and
    fewer nodes to each than there are indices: two calls were answered with one node just if both were for
    one label of one arena, and the size of an arena is the number of nodes it handed out. The scopes go on
    from that of the source, past 2^64 from zero. -/
theorem nodes_never_alias {source : ScopeSource} {events : List Event}
    (hdrawn : ((new source).after events).arenas.length ≤ 2 ^ 64)
    (hroom : ∀ k, ((new source).after events).allocations k < 2 ^ 32) :
    let m := (new source).after events
    m.handed.Pairwise (fun x y => x.node = y.node ↔ x.arena = y.arena ∧ x.SameLabel y) ∧
      ∀ k a, m.arenas[k]? = some a → a.scope = source.next + UInt64.ofNat k ∧
        a.size = ((m.handedBy k).map Handout.node).toFinset.card := by
  intro m
  have h := inv_after source events hroom
  exact ⟨h.apart hdrawn, fun k a hk => ⟨h.scope hk, (h.accounts hk).size⟩⟩

/-- Two arenas with the last scope and the first. Both are called for one label, the first of them twice. -/
def straddling : List Event :=
  [.draw, .call 0 (.labeled "b"), .draw, .call 1 (.labeled "b"), .call 0 .fresh, .call 1 .fresh, .call 0 (.labeled "c"),
    .call 0 (.labeled "b")]

theorem straddling_nodes_never_alias :
    let m := (new ⟨18446744073709551615⟩).after straddling
    m.arenas.length ≤ 2 ^ 64 ∧ (∀ k, m.allocations k < 2 ^ 32) ∧
      m.handed.map Handout.node = [⟨18446744073709551615, 0⟩, ⟨0, 0⟩, ⟨18446744073709551615, 1⟩, ⟨0, 1⟩,
        ⟨18446744073709551615, 2⟩, ⟨18446744073709551615, 0⟩] ∧
      m.handed.Pairwise (fun x y => x.node = y.node ↔ x.arena = y.arena ∧ x.SameLabel y) ∧
      ∀ k a, m.arenas[k]? = some a → a.scope = 18446744073709551615 + UInt64.ofNat k ∧
        a.size = ((m.handedBy k).map Handout.node).toFinset.card := by
  intro m
  have hdrawn : m.arenas.length ≤ 2 ^ 64 := by decide +kernel
  have hroom : ∀ k, m.allocations k < 2 ^ 32
    | 0 | 1 => by decide +kernel
    | k + 2 => by
      have hnone : m.handedBy (k + 2) = [] := rfl
      rw [allocations, hnone]
      decide
  exact ⟨hdrawn, hroom, by decide +kernel, nodes_never_alias hdrawn hroom⟩

end Mint

end LinkedData
