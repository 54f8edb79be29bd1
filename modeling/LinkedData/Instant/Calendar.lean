/-
  LinkedData.Instant.Calendar — the proleptic Gregorian calendar: day numbers and dates.

  Day 0 is the first of January of year 0, which is a leap year; years before it are
  negative. A date is found from its day number by its year (`yearOf`: an estimate from
  the mean length of a year, off by at most one) and then by walking the months.
  `yearStart_yearOf`: the year found is the one whose days hold the day asked for.
-/

namespace LinkedData.Calendar

structure Date where
  year : Int
  month : Nat
  day : Nat
  deriving DecidableEq, Repr

def isLeap (y : Int) : Bool := y % 4 == 0 && (y % 100 != 0 || y % 400 == 0)

def monthLengths (y : Int) : List Nat :=
  [31, if isLeap y then 29 else 28, 31, 30, 31, 30, 31, 31, 30, 31, 30, 31]

/-- Days from day 0 to the first of January of `y`. -/
def yearStart (y : Int) : Int := 365 * y + (y + 3) / 4 - (y + 99) / 100 + (y + 399) / 400

/-- The year of day `d`: 400 years are 146097 days. -/
def yearOf (d : Int) : Int :=
  let guess := d * 400 / 146097
  if d < yearStart guess then guess - 1 else if yearStart (guess + 1) ≤ d then guess + 1 else guess

theorem yearStart_yearOf (d : Int) : yearStart (yearOf d) ≤ d ∧ d < yearStart (yearOf d + 1) := by
  unfold yearOf
  simp only []
  split
  · next h =>
    refine ⟨?_, by rwa [Int.sub_add_cancel]⟩
    simp only [yearStart] at *; omega
  · split
    · simp only [yearStart] at *; omega
    · simp only [yearStart] at *; omega

/-- The month and the day of the month of the day `rest` days after the start of month `m`. -/
def monthOf : List Nat → Nat → Nat → Nat × Nat
  | [], m, rest => (m, rest + 1)
  | length :: more, m, rest => if rest < length then (m, rest + 1) else monthOf more (m + 1) (rest - length)

namespace Date

def ofDays (d : Int) : Date :=
  let y := yearOf d
  let (m, day) := monthOf (monthLengths y) 1 (d - yearStart y).toNat
  ⟨y, m, day⟩

/-- Days of the year before the month of the date. -/
def daysBefore (date : Date) : Nat := ((monthLengths date.year).take (date.month - 1)).foldl (· + ·) 0

def toDays (date : Date) : Int := yearStart date.year + date.daysBefore + date.day - 1

/-- A month from 1 to 12 and a day that this month has. -/
def Exists (date : Date) : Prop :=
  ∃ length ∈ (monthLengths date.year)[date.month - 1]?, 1 ≤ date.month ∧ 1 ≤ date.day ∧ date.day ≤ length

instance (date : Date) : Decidable date.Exists :=
  match h : (monthLengths date.year)[date.month - 1]? with
  | none => isFalse fun ⟨_, hl, _⟩ => by simp [h] at hl
  | some length =>
    if hd : 1 ≤ date.month ∧ 1 ≤ date.day ∧ date.day ≤ length then isTrue ⟨length, by simp [h], hd⟩
    else isFalse fun ⟨_, hl, hr⟩ => by
      rw [h] at hl
      cases hl
      exact hd hr

end Date

/-- The day number of 1970-01-01. -/
def epoch : Int := 719528

end LinkedData.Calendar
