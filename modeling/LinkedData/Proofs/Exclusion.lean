/-
  LinkedData.Proofs.Exclusion — no two callers hold one lock, and nobody waits for nobody.

  Callers. A caller asks for some identifiers and looks whether all of them are free: then it has
  its guard at once, and else it goes to sleep without any of them. A guard is given back in two
  steps. First its identifiers are freed, then everyone who is asleep at that moment is woken, and
  looks again. In between others may come, look, and be granted what was freed. A sleeper may also
  wake up for no reason. A thread that has several guards is several callers here.

  Proved, for any number of callers and every order of their steps (`locks_exclude`):
  (1) What is held is the disjoint union of what the guards cover (`Orderly.held`, `Orderly.apart`),
      and a caller that waits holds nothing (`Orderly.waiting`).
  (2) A step gives a guard only for all that was asked for, none of it held, takes one only by freeing
      what it covers and nothing else, and leaves the guards of all others alone (`Exchange`).
  (3) No call is lost (`Orderly.grantable`): when no guard covers anything that a caller waits for, the
      caller can be granted it, at once or as soon as one who has given a guard back wakes the
      sleepers. What carries this is that someone who sleeps though all is free is about to be woken
      (`Inv.awaited`).
-/

import LinkedData.Proofs.Guards

namespace LinkedData

open Std

/-- Where a call for locks has come to. -/
inductive Caller
  | away
  /-- About to look whether all of these are free. -/
  | looking (ids : List Iri)
  | asleep (ids : List Iri)
  | holding (g : Guard)
  /-- Has freed what its guard covered, and is to wake the sleepers. -/
  | leaving

namespace Caller

def guard? : Caller → Option Guard
  | holding g => some g
  | away | looking _ | asleep _ | leaving => none

/-- What is waited for. -/
def wanted? : Caller → Option (List Iri)
  | looking ids | asleep ids => some ids
  | away | holding _ | leaving => none

def roused : Caller → Caller
  | asleep ids => looking ids
  | c => c

@[simp] theorem guard?_roused (c : Caller) : c.roused.guard? = c.guard? := by
  cases c <;> rfl

theorem guard?_of_wanted? {c : Caller} {ids : List Iri} (h : c.wanted? = some ids) : c.guard? = none := by
  cases c <;> first | rfl | cases h

theorem roused_ne_asleep (c : Caller) (ids : List Iri) : c.roused ≠ .asleep ids := by
  cases c <;> nofun

end Caller

/-- The locks, and those who call for them. -/
structure Lobby (κ : Type) where
  locks : Locks
  caller : κ → Caller

namespace Lobby

variable {κ : Type}

def empty : Lobby κ := ⟨.none, fun _ => .away⟩

variable [DecidableEq κ]

/-- The caller `k` comes to `c`. -/
def place (w : Lobby κ) (k : κ) (c : Caller) : Lobby κ := { w with caller := Function.update w.caller k c }

/-- The caller `k` goes, and wakes everyone who is asleep. -/
def rouse (w : Lobby κ) (k : κ) : Lobby κ :=
  { w with caller := Function.update (fun j => (w.caller j).roused) k .away }

theorem caller_place_self (w : Lobby κ) (k : κ) (c : Caller) : (w.place k c).caller k = c := Function.update_self ..

theorem caller_place_of_ne {w : Lobby κ} {j k : κ} {c : Caller} (h : j ≠ k) : (w.place k c).caller j = w.caller j :=
  Function.update_of_ne h ..

theorem caller_rouse_self (w : Lobby κ) (k : κ) : (w.rouse k).caller k = .away := by
  simp only [rouse, Function.update_self]

theorem caller_rouse_of_ne {w : Lobby κ} {j k : κ} (h : j ≠ k) : (w.rouse k).caller j = (w.caller j).roused := by
  simp only [rouse, Function.update_of_ne h]

/-- A step of the caller `k`. -/
inductive Step (k : κ) : Lobby κ → Lobby κ → Prop
  | call {w : Lobby κ} (ids : List Iri) (hk : w.caller k = .away) : Step k w (w.place k (.looking ids))
  | claim {w : Lobby κ} {ids : List Iri} {g : Guard} {locks : Locks} (hk : w.caller k = .looking ids)
      (hc : w.locks.claim? ids = some (g, locks)) : Step k w { w.place k (.holding g) with locks }
  | sleep {w : Lobby κ} {ids : List Iri} (hk : w.caller k = .looking ids) (hc : w.locks.claim? ids = none) :
      Step k w (w.place k (.asleep ids))
  | stir {w : Lobby κ} {ids : List Iri} (hk : w.caller k = .asleep ids) : Step k w (w.place k (.looking ids))
  | drop {w : Lobby κ} {g : Guard} (hk : w.caller k = .holding g) :
      Step k w { w.place k .leaving with locks := w.locks.release g }
  | rouse {w : Lobby κ} (hk : w.caller k = .leaving) : Step k w (w.rouse k)

/-- What callers come to, whatever the order of their steps. -/
inductive Reach : Lobby κ → Prop
  | empty : Reach empty
  | step {w w' : Lobby κ} {k : κ} (h : Reach w) (hs : Step k w w') : Reach w'

/-! ## The guards that are out -/

/-- The guards that are out, by their callers. -/
def guards (w : Lobby κ) : κ → Option Guard := fun k => (w.caller k).guard?

theorem guards_place (w : Lobby κ) (k : κ) (c : Caller) :
    (w.place k c).guards = Function.update w.guards k c.guard? := by
  funext j
  exact Function.apply_update (fun _ => Caller.guard?) w.caller k c j

theorem guards_place_of_eq {w : Lobby κ} {k : κ} {c : Caller} (h : c.guard? = (w.caller k).guard?) :
    (w.place k c).guards = w.guards := by
  rw [guards_place, h]
  exact Function.update_eq_self k w.guards

theorem guards_rouse {w : Lobby κ} {k : κ} (hk : w.caller k = .leaving) : (w.rouse k).guards = w.guards := by
  funext j
  by_cases hj : j = k
  · subst hj
    simp [guards, rouse, hk, Caller.guard?]
  · simp [guards, rouse, Function.update_of_ne hj]

/-- What a step of `k` does to the guards and to what is held. -/
structure Exchange (k : κ) (w w' : Lobby κ) : Prop where
  others : ∀ j, j ≠ k → w'.guards j = w.guards j
  /-- A guard is given for all that was asked for, when none of it is held. -/
  granted : ∀ {g}, w.guards k ≠ some g → w'.guards k = some g → ∃ ids, w.caller k = .looking ids ∧
    (∀ x, g.covers x = true ↔ x ∈ ids) ∧ (∀ x ∈ ids, x ∉ w.locks.held) ∧
      ∀ x, x ∈ w'.locks.held ↔ x ∈ w.locks.held ∨ x ∈ ids
  /-- One that is given back frees what it covers, and nothing else. -/
  dropped : ∀ {g}, w.guards k = some g → w'.guards k ≠ some g →
    (∀ x, g.covers x = true → x ∈ w.locks.held) ∧
      ∀ x, x ∈ w'.locks.held ↔ x ∈ w.locks.held ∧ ¬ g.covers x = true
  kept : w'.guards k = w.guards k → w'.locks = w.locks

omit [DecidableEq κ] in
theorem Exchange.of_kept {k : κ} {w w' : Lobby κ} (hg : w'.guards = w.guards) (hl : w'.locks = w.locks) :
    Exchange k w w' where
  others _ _ := by rw [hg]
  granted hnot hg' := absurd (hg ▸ hg') hnot
  dropped hg' hnot := absurd (hg ▸ hg') hnot
  kept _ := hl

/-! ## The invariant -/

structure Inv (w : Lobby κ) : Prop where
  guarded : w.locks.Guarded w.guards
  /-- Who is asleep waits for something that is held, or is about to be woken. -/
  awaited : ∀ {k ids}, w.caller k = .asleep ids → (∃ x ∈ ids, x ∈ w.locks.held) ∨ ∃ j, w.caller j = .leaving

variable {w w' : Lobby κ} {k : κ}

omit [DecidableEq κ] in
theorem inv_empty : Inv (empty : Lobby κ) where
  guarded := .none
  awaited hk := by cases hk

/-- A caller that is not leaving comes to a place where it is not asleep; nothing is freed meanwhile. -/
theorem Inv.awaited_place (h : Inv w) (hk : w.caller k ≠ .leaving) {c : Caller} {l : Locks}
    (hl : ∀ x, x ∈ w.locks.held → x ∈ l.held) {j : κ} {ids : List Iri}
    (hj : (w.place k c).caller j = .asleep ids) (hc : c ≠ .asleep ids) :
    (∃ x ∈ ids, x ∈ l.held) ∨ ∃ i, (w.place k c).caller i = .leaving := by
  have hne : j ≠ k := by
    rintro rfl
    rw [caller_place_self] at hj
    exact hc hj
  rw [caller_place_of_ne hne] at hj
  rcases h.awaited hj with ⟨x, hx, hheld⟩ | ⟨i, hi⟩
  · exact .inl ⟨x, hx, hl x hheld⟩
  · refine .inr ⟨i, ?_⟩
    rwa [caller_place_of_ne]
    rintro rfl
    exact hk hi

theorem Inv.step (h : Inv w) (hs : Step k w w') : Inv w' := by
  cases hs with
  | call ids hk =>
    refine ⟨?_, fun hj => h.awaited_place (by rw [hk]; nofun) (fun _ hx => hx) hj nofun⟩
    rw [guards_place_of_eq (by rw [hk]; rfl)]
    exact h.guarded
  | @claim ids g locks hk hc =>
    have hheld := (Locks.of_claim? hc).2.2
    refine ⟨?_, fun hj => h.awaited_place (by rw [hk]; nofun) (fun x hx => (hheld x).mpr (.inl hx)) hj nofun⟩
    show locks.Guarded (w.place k (.holding g)).guards
    rw [guards_place]
    exact h.guarded.claim (by rw [guards, hk]; rfl) hc
  | @sleep ids hk hc =>
    refine ⟨?_, fun {j ids'} hj => ?_⟩
    · rw [guards_place_of_eq (by rw [hk]; rfl)]
      exact h.guarded
    · by_cases hne : j = k
      · subst hne
        rw [caller_place_self] at hj
        cases hj
        exact .inl (Locks.of_claim?_eq_none hc)
      · rw [caller_place_of_ne hne] at hj
        refine (h.awaited hj).imp_right fun ⟨i, hi⟩ => ⟨i, ?_⟩
        rwa [caller_place_of_ne]
        rintro rfl
        rw [hk] at hi
        cases hi
  | stir hk =>
    refine ⟨?_, fun hj => h.awaited_place (by rw [hk]; nofun) (fun _ hx => hx) hj nofun⟩
    rw [guards_place_of_eq (by rw [hk]; rfl)]
    exact h.guarded
  | @drop g hk =>
    refine ⟨?_, fun _ => .inr ⟨k, caller_place_self ..⟩⟩
    show (w.locks.release g).Guarded (w.place k .leaving).guards
    rw [guards_place]
    exact h.guarded.release (by rw [guards, hk]; rfl)
  | rouse hk =>
    refine ⟨?_, fun {j ids} hj => ?_⟩
    · rw [guards_rouse hk]
      exact h.guarded
    · by_cases hne : j = k
      · subst hne
        rw [caller_rouse_self] at hj
        cases hj
      · rw [caller_rouse_of_ne hne] at hj
        exact absurd hj (Caller.roused_ne_asleep _ _)

theorem Reach.inv (h : Reach w) : Inv w := by
  induction h with
  | empty => exact inv_empty
  | step _ hs ih => exact ih.step hs

theorem Step.exchange (h : Inv w) (hs : Step k w w') : Exchange k w w' := by
  have hothers : ∀ c j, j ≠ k → (w.place k c).guards j = w.guards j := fun c j hj => by
    rw [guards_place, Function.update_of_ne hj]
  cases hs with
  | call ids hk => exact .of_kept (guards_place_of_eq (by rw [hk]; rfl)) rfl
  | sleep hk hc => exact .of_kept (guards_place_of_eq (by rw [hk]; rfl)) rfl
  | stir hk => exact .of_kept (guards_place_of_eq (by rw [hk]; rfl)) rfl
  | rouse hk => exact .of_kept (guards_rouse hk) rfl
  | @claim ids g locks hk hc =>
    obtain ⟨hcovers, hfree, hheld⟩ := Locks.of_claim? hc
    have hbefore : w.guards k = none := by rw [guards, hk]; rfl
    have hafter : (w.place k (.holding g)).guards k = some g := by
      rw [guards_place, Function.update_self]
      rfl
    refine ⟨hothers _, fun {g'} _ hg' => ?_, fun hg' => ?_, fun heq => ?_⟩
    · obtain rfl : g = g' := Option.some.inj (hafter.symm.trans hg')
      refine ⟨ids, hk, hcovers, fun x hx => hfree x ((hcovers x).mpr hx), fun x => ?_⟩
      rw [← hcovers]
      exact hheld x
    · rw [hbefore] at hg'
      cases hg'
    · exact absurd (hafter.symm.trans (heq.trans hbefore)) nofun
  | @drop g hk =>
    have hbefore : w.guards k = some g := by rw [guards, hk]; rfl
    have hafter : (w.place k .leaving).guards k = none := by
      rw [guards_place, Function.update_self]
      rfl
    refine ⟨hothers _, fun {g'} _ hg' => ?_, fun {g'} hg' _ => ?_, fun heq => ?_⟩
    · exact absurd (hafter.symm.trans hg') nofun
    · obtain rfl : g = g' := Option.some.inj (hbefore.symm.trans hg')
      exact ⟨fun x hx => (h.guarded.held x).mpr ⟨k, g, hbefore, hx⟩, fun x => Locks.mem_release⟩
    · exact absurd (hafter.symm.trans (heq.trans hbefore)) nofun

/-! ## What holds whenever -/

/-- The caller `k` can be granted `ids` now, or as soon as someone who is leaving has woken the sleepers. -/
def Grantable (w : Lobby κ) (k : κ) (ids : List Iri) : Prop :=
  ∃ w', (w' = w ∨ ∃ j, w.caller j = .leaving ∧ Step j w w') ∧
    ∃ w'' g, Step k w' w'' ∧ w''.guards k = some g ∧ ∀ x, g.covers x = true ↔ x ∈ ids

/-- Who looks for what is free is granted it. -/
theorem exists_claim {ids : List Iri} (hk : w.caller k = .looking ids) (hfree : ∀ x ∈ ids, x ∉ w.locks.held) :
    ∃ w' g, Step k w w' ∧ w'.guards k = some g ∧ ∀ x, g.covers x = true ↔ x ∈ ids := by
  have hc := Locks.claim?_of_isFree (Locks.isFree_iff.mpr hfree)
  refine ⟨_, _, .claim hk hc, ?_, (Locks.of_claim? hc).1⟩
  show (w.place k _).guards k = _
  rw [guards_place, Function.update_self]
  rfl

structure Orderly (w : Lobby κ) : Prop where
  /-- What is held is what the guards cover. -/
  held : ∀ x, x ∈ w.locks.held ↔ ∃ k g, w.guards k = some g ∧ g.covers x = true
  /-- No two guards cover the same. -/
  apart : ∀ {j k g g' x}, w.guards j = some g → w.guards k = some g' →
    g.covers x = true → g'.covers x = true → j = k
  /-- Who waits has no guard: what is held is held by others. -/
  waiting : ∀ {k ids}, (w.caller k).wanted? = some ids → w.guards k = none ∧
    ∀ x ∈ w.locks.held, ∃ j g, j ≠ k ∧ w.guards j = some g ∧ g.covers x = true
  /-- Nobody waits in vain for what no guard covers. -/
  grantable : ∀ {k ids}, (w.caller k).wanted? = some ids →
    (∀ j g, w.guards j = some g → ∀ x ∈ ids, ¬ g.covers x = true) →
    w.Grantable k ids

theorem Inv.orderly (h : Inv w) : Orderly w where
  held := h.guarded.held
  apart := h.guarded.apart
  waiting {k ids} hk := by
    have hnone : w.guards k = none := Caller.guard?_of_wanted? hk
    refine ⟨hnone, fun x hx => ?_⟩
    obtain ⟨j, g, hj, hcovers⟩ := (h.guarded.held x).mp hx
    refine ⟨j, g, ?_, hj, hcovers⟩
    rintro rfl
    rw [hnone] at hj
    cases hj
  grantable {k ids} hk hnobody := by
    have hfree : ∀ x ∈ ids, x ∉ w.locks.held := fun x hx hheld => by
      obtain ⟨j, g, hj, hcovers⟩ := (h.guarded.held x).mp hheld
      exact hnobody j g hj x hx hcovers
    cases hcaller : w.caller k with
    | looking ids' =>
      rw [hcaller] at hk
      cases hk
      exact ⟨w, .inl rfl, exists_claim hcaller hfree⟩
    | asleep ids' =>
      rw [hcaller] at hk
      cases hk
      obtain ⟨j, hj⟩ := (h.awaited hcaller).resolve_left fun ⟨x, hx, hheld⟩ => hfree x hx hheld
      have hne : k ≠ j := by
        rintro rfl
        rw [hcaller] at hj
        cases hj
      refine ⟨w.rouse j, .inr ⟨j, hj, .rouse hj⟩, exists_claim ?_ hfree⟩
      rw [caller_rouse_of_ne hne, hcaller]
      rfl
    | away | holding _ | leaving =>
      rw [hcaller] at hk
      cases hk

/-- Whatever calls there are and whatever the order of their steps: what is held is the disjoint union of the
    guards, who waits holds nothing and can be granted its call when no guard covers any of it, and a step gives
    a guard only for a whole call and frees only what a guard covered that is given back. -/
theorem locks_exclude {w : Lobby κ} (h : Reach w) : Orderly w ∧ ∀ k w', Step k w w' → Exchange k w w' :=
  ⟨h.inv.orderly, fun _ _ hs => hs.exchange h.inv⟩

/-! Two callers that want one thing both. -/

/-- The second is asleep, the first has given its guard back and woke nobody yet. -/
theorem sleeper_excluded : ∃ w : Lobby Bool, Reach w ∧ w.caller true = .leaving ∧
    w.caller false = .asleep [⟨"trellis:data/b"⟩, ⟨"trellis:data/c"⟩, ⟨"trellis:data/b"⟩] ∧
      w.Grantable false [⟨"trellis:data/b"⟩, ⟨"trellis:data/c"⟩, ⟨"trellis:data/b"⟩] ∧
    Orderly w ∧ ∀ k w', Step k w w' → Exchange k w w' := by
  have h₀ : Reach (empty : Lobby Bool) := .empty
  have h₁ := h₀.step (.call (k := true) [⟨"trellis:data/a"⟩, ⟨"trellis:data/b"⟩] rfl)
  have h₂ := h₁.step (@Step.claim _ _ true _ [⟨"trellis:data/a"⟩, ⟨"trellis:data/b"⟩] _ _ rfl
    (Locks.claim?_of_isFree (by decide +kernel)))
  have h₃ := h₂.step (.call (k := false) [⟨"trellis:data/b"⟩, ⟨"trellis:data/c"⟩, ⟨"trellis:data/b"⟩] rfl)
  have h₄ := h₃.step (@Step.sleep _ _ false _ [⟨"trellis:data/b"⟩, ⟨"trellis:data/c"⟩, ⟨"trellis:data/b"⟩] rfl
    (by decide +kernel))
  have h₅ := h₄.step (@Step.drop _ _ true _ _ rfl)
  obtain ⟨horderly, hexchange⟩ := locks_exclude h₅
  refine ⟨_, h₅, rfl, rfl, horderly.grantable rfl fun j g hj => ?_, horderly, hexchange⟩
  cases j <;> cases hj

end Lobby

end LinkedData
