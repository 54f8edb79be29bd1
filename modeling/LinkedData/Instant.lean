/-
  LinkedData.Instant — points of time in UTC, to the nanosecond, leap seconds included.

  An instant is a count of seconds from 1970 and a count of nanoseconds into that second.
  A leap second has no number of its own: it is the second before it with nanoseconds from
  10^9 on, so only the last second of a minute can have one. Instants are ordered by second,
  then by nanosecond, which puts a leap second between its neighbours.
-/

import LinkedData.Instant.Calendar
import Std.Data.ExtTreeMap

namespace LinkedData

open Std

structure Instant where
  second : Int
  nano : Nat
  deriving DecidableEq, Repr

namespace Instant

/-- The years of the calendar. -/
def firstYear : Int := -262143

def lastYear : Int := 262142

/-- The first second of the calendar. -/
def firstSecond : Int := (Calendar.yearStart firstYear - Calendar.epoch) * 86400

/-- The last second of the calendar. -/
def lastSecond : Int := (Calendar.yearStart (lastYear + 1) - Calendar.epoch) * 86400 - 1

/-- Within the calendar, and past 10^9 nanoseconds only in the last second of a minute. -/
def Valid (t : Instant) : Prop :=
  firstSecond ≤ t.second ∧ t.second ≤ lastSecond ∧
    (t.nano < 1000000000 ∨ t.nano < 2000000000 ∧ t.second % 60 = 59)

instance (t : Instant) : Decidable t.Valid :=
  inferInstanceAs (Decidable (_ ∧ _ ∧ _))

instance : LT Instant := ⟨fun a b => a.second < b.second ∨ a.second = b.second ∧ a.nano < b.nano⟩

instance : LE Instant := ⟨fun a b => a.second < b.second ∨ a.second = b.second ∧ a.nano ≤ b.nano⟩

instance (a b : Instant) : Decidable (a < b) :=
  inferInstanceAs (Decidable (_ ∨ _))

instance (a b : Instant) : Decidable (a ≤ b) :=
  inferInstanceAs (Decidable (_ ∨ _))

theorem lt_def {a b : Instant} : a < b ↔ a.second < b.second ∨ a.second = b.second ∧ a.nano < b.nano := Iff.rfl

theorem le_def {a b : Instant} : a ≤ b ↔ a.second < b.second ∨ a.second = b.second ∧ a.nano ≤ b.nano :=
  Iff.rfl

def order : Instant → Instant → Ordering := compareLex (compareOn second) (compareOn nano)

instance : Ord Instant := ⟨order⟩

instance : TransOrd Instant := inferInstanceAs (TransCmp (compareLex (compareOn second) (compareOn nano)))

instance : LawfulEqOrd Instant where
  eq_of_compare {a b} h := by
    obtain ⟨hs, hn⟩ := compareLex_eq_eq.mp h
    have hs : a.second = b.second := LawfulEqCmp.eq_of_compare (α := Int) hs
    have hn : a.nano = b.nano := LawfulEqCmp.eq_of_compare (α := Nat) hn
    cases a; cases b; simp_all

/-- The instant one nanosecond later. A leap second is left only at its own end: an ordinary
    second is never followed by one. -/
def next (t : Instant) : Instant :=
  if t.nano = 999999999 ∨ t.nano = 1999999999 then ⟨t.second + 1, 0⟩ else ⟨t.second, t.nano + 1⟩

theorem lt_next (t : Instant) : t < t.next := by
  unfold next
  split
  · exact .inl (Int.lt_succ t.second)
  · exact .inr ⟨rfl, Nat.lt_succ_self t.nano⟩

/-- The instant `k` whole seconds later, with the same nanoseconds. -/
def addSeconds (t : Instant) (k : Int) : Instant := ⟨t.second + k, t.nano⟩

/-- Whole milliseconds since 1970; a leap second counts on into the second after it. -/
def milliseconds (t : Instant) : Int := t.second * 1000 + t.nano / 1000000

/-- Nanoseconds since 1970. -/
def nanoseconds (t : Instant) : Int := t.second * 1000000000 + t.nano

end Instant

end LinkedData
