/-
Srrdb.Lib.Calendar — the Gregorian calendar and points in time.

A `Date` is a year, a month and a day that exist; a `Timestamp` is a date with
a time of day. Days and seconds are counted from the start of year 0, so the
distance of two points is a difference of counts. Later points have larger
fields, read from the year down (`seconds_lt_iff`), and for numbers written
with a fixed count of digits that is the order of the texts (`append_lt_iff`).
-/
import Mathlib.Algebra.BigOperators.Intervals
import Mathlib.Algebra.Order.BigOperators.Group.Finset
import Mathlib.Data.List.Lex
import Mathlib.Order.Interval.Finset.Nat

namespace Srrdb.Lib.Calendar

/-! ## Digits -/

/-- The last `width` decimal digits of a number. -/
def fixedDigits : Nat → Nat → List Char
  | 0, _ => []
  | width + 1, n => fixedDigits width (n / 10) ++ [Nat.digitChar (n % 10)]

@[simp] theorem length_fixedDigits (width n : Nat) : (fixedDigits width n).length = width := by
  induction width generalizing n with
  | zero => rfl
  | succ width ih => rw [fixedDigits, List.length_append, ih, List.length_singleton]

/-- A number with enough room, zero padded. -/
theorem fixedDigits_eq {width n : Nat} (hwidth : 0 < width) (h : n < 10 ^ width) :
    List.replicate (width - (Nat.toDigits 10 n).length) '0' ++ Nat.toDigits 10 n =
      fixedDigits width n := by
  induction width generalizing n with
  | zero => cases hwidth
  | succ width ih =>
    rw [fixedDigits]
    by_cases hn : n < 10
    · have hzeros : ∀ k, fixedDigits k 0 = List.replicate k '0' := by
        intro k
        induction k with
        | zero => rfl
        | succ k ihk => rw [fixedDigits, Nat.zero_div, ihk, List.replicate_succ']
                        rfl
      rw [Nat.toDigits_of_lt_base hn, Nat.div_eq_of_lt hn, Nat.mod_eq_of_lt hn, hzeros]
      rfl
    · have hpos : 0 < width := by
        rcases Nat.eq_zero_or_pos width with rfl | hpos
        · omega
        · exact hpos
      rw [Nat.toDigits_of_base_le (by decide) (Nat.le_of_not_lt hn), List.length_append,
        List.length_singleton, Nat.add_sub_add_right, ← List.append_assoc, ih hpos (by omega)]

theorem digitChar_lt_iff {a b : Nat} (ha : a < 10) (hb : b < 10) :
    Nat.digitChar a < Nat.digitChar b ↔ a < b := by
  have hall : ∀ a < 10, ∀ b < 10, (Nat.digitChar a < Nat.digitChar b ↔ a < b) := by decide
  exact hall a ha b hb

/-- Texts that begin with as many characters are ordered by these first. -/
theorem append_lt_append_iff {x y : List Char} (h : x.length = y.length) (s t : List Char) :
    x ++ s < y ++ t ↔ x < y ∨ x = y ∧ s < t := by
  induction x generalizing y with
  | nil =>
    obtain rfl : y = [] := List.eq_nil_of_length_eq_zero h.symm
    simp
  | cons a x ih =>
    cases y with
    | nil => cases h
    | cons b y =>
      rw [List.cons_append, List.cons_append, List.cons_lt_cons_iff, List.cons_lt_cons_iff,
        ih (Nat.succ.inj h), List.cons.injEq]
      tauto

theorem fixedDigits_injective {width a b : Nat} (ha : a < 10 ^ width) (hb : b < 10 ^ width)
    (h : fixedDigits width a = fixedDigits width b) : a = b := by
  induction width generalizing a b with
  | zero => omega
  | succ width ih =>
    obtain ⟨hinit, hlast⟩ := List.append_inj' h rfl
    have hdiv : a / 10 = b / 10 := ih (by omega) (by omega) hinit
    have hmod : a % 10 = b % 10 := by
      have hchar := congrArg Char.toNat (List.singleton_inj.mp hlast)
      rw [Nat.toNat_digitChar_of_lt_ten (Nat.mod_lt a (by decide)),
        Nat.toNat_digitChar_of_lt_ten (Nat.mod_lt b (by decide))] at hchar
      omega
    omega

/-- Numbers with as many digits are ordered as their digits are. -/
theorem fixedDigits_lt_iff {width a b : Nat} (ha : a < 10 ^ width) (hb : b < 10 ^ width) :
    fixedDigits width a < fixedDigits width b ↔ a < b := by
  induction width generalizing a b with
  | zero =>
    have hsame : a = b := by omega
    simp [fixedDigits, hsame]
  | succ width ih =>
    have ha' : a / 10 < 10 ^ width := by omega
    have hb' : b / 10 < 10 ^ width := by omega
    have hlen : (fixedDigits width (a / 10)).length = (fixedDigits width (b / 10)).length := by
      rw [length_fixedDigits, length_fixedDigits]
    have hsame : fixedDigits width (a / 10) = fixedDigits width (b / 10) ↔ a / 10 = b / 10 :=
      ⟨fixedDigits_injective ha' hb', congrArg _⟩
    have hlast : [Nat.digitChar (a % 10)] < [Nat.digitChar (b % 10)] ↔ a % 10 < b % 10 := by
      rw [List.cons_lt_cons_iff, digitChar_lt_iff (Nat.mod_lt a (by decide))
        (Nat.mod_lt b (by decide))]
      simp
    rw [fixedDigits, fixedDigits, append_lt_append_iff hlen, ih ha' hb', hsame, hlast]
    omega

/-- A text that begins with a number of a fixed count of digits. -/
theorem append_lt_iff {width a b : Nat} (ha : a < 10 ^ width) (hb : b < 10 ^ width)
    (s t : List Char) :
    fixedDigits width a ++ s < fixedDigits width b ++ t ↔ a < b ∨ a = b ∧ s < t := by
  rw [append_lt_append_iff (by rw [length_fixedDigits, length_fixedDigits]),
    fixedDigits_lt_iff ha hb]
  exact or_congr_right (and_congr_left' ⟨fixedDigits_injective ha hb, congrArg _⟩)

/-! ## Dates -/

/-- Every fourth year is a leap year, of the centuries only every fourth. -/
def IsLeap (year : Nat) : Prop := year % 4 = 0 ∧ (year % 100 = 0 → year % 400 = 0)

instance (year : Nat) : Decidable (IsLeap year) := inferInstanceAs (Decidable (_ ∧ _))

/-- The days of a month, numbered from 1. -/
def daysInMonth (year : Nat) : Nat → Nat
  | 2 => if IsLeap year then 29 else 28
  | 4 | 6 | 9 | 11 => 30
  | _ => 31

/-- The days of a year. -/
def daysInYear (year : Nat) : Nat := if IsLeap year then 366 else 365

/-- A day of the calendar. -/
structure Date where
  year : Nat
  month : Nat
  day : Nat
  month_pos : 1 ≤ month
  month_le : month ≤ 12
  day_pos : 1 ≤ day
  day_le : day ≤ daysInMonth year month

theorem Date.day_lt (d : Date) : d.day < 32 := by
  have hle := d.day_le
  have hmax : daysInMonth d.year d.month ≤ 31 := by
    unfold daysInMonth
    split
    · split <;> decide
    all_goals decide
  omega

/-- The days of the years before a year. -/
def daysBefore (year : Nat) : Nat := ∑ y ∈ Finset.range year, daysInYear y

/-- The days of the year before a month. -/
def daysBeforeMonth (year month : Nat) : Nat := ∑ m ∈ Finset.Ico 1 month, daysInMonth year m

/-- The days before a date. -/
def Date.dayNumber (d : Date) : Nat :=
  daysBefore d.year + daysBeforeMonth d.year d.month + (d.day - 1)

theorem daysBefore_succ (year : Nat) : daysBefore (year + 1) = daysBefore year + daysInYear year :=
  Finset.sum_range_succ _ _

theorem daysBeforeMonth_succ {month : Nat} (h : 1 ≤ month) (year : Nat) :
    daysBeforeMonth year (month + 1) = daysBeforeMonth year month + daysInMonth year month :=
  Finset.sum_Ico_succ_top h _

theorem daysBefore_mono {a b : Nat} (h : a ≤ b) : daysBefore a ≤ daysBefore b :=
  Finset.sum_le_sum_of_subset (Finset.range_mono h)

theorem daysBeforeMonth_mono {a b : Nat} (h : a ≤ b) (year : Nat) :
    daysBeforeMonth year a ≤ daysBeforeMonth year b :=
  Finset.sum_le_sum_of_subset (Finset.Ico_subset_Ico_right h)

/-- The twelve months are the year. -/
theorem daysBeforeMonth_thirteen (year : Nat) : daysBeforeMonth year 13 = daysInYear year := by
  have hmonths : Finset.Ico 1 13 = {1, 2, 3, 4, 5, 6, 7, 8, 9, 10, 11, 12} := by decide
  rw [daysBeforeMonth, hmonths, daysInYear]
  by_cases h : IsLeap year
  · simp [daysInMonth, h]
  · simp [daysInMonth, h]

/-- A date lies in its month and its year. -/
theorem Date.dayNumber_lt (d : Date) :
    d.dayNumber < daysBefore d.year + daysBeforeMonth d.year (d.month + 1) ∧
      d.dayNumber < daysBefore (d.year + 1) := by
  have hday := d.day_le
  have hpos := d.day_pos
  have hmonth := daysBeforeMonth_succ d.month_pos d.year
  have hyear : daysBeforeMonth d.year (d.month + 1) ≤ daysBeforeMonth d.year 13 :=
    daysBeforeMonth_mono (Nat.succ_le_succ d.month_le) d.year
  rw [daysBeforeMonth_thirteen] at hyear
  rw [daysBefore_succ, Date.dayNumber]
  constructor <;> omega

/-! ## Points in time -/

/-- A date and a time of day. -/
structure Timestamp where
  date : Date
  hour : Nat
  minute : Nat
  second : Nat
  hour_lt : hour < 24
  minute_lt : minute < 60
  second_lt : second < 60

namespace Timestamp

/-- The seconds before it. -/
def seconds (t : Timestamp) : Nat :=
  86400 * t.date.dayNumber + 3600 * t.hour + 60 * t.minute + t.second

/-- Its fields, the largest unit first. -/
def fields (t : Timestamp) : List Nat :=
  [t.date.year, t.date.month, t.date.day, t.hour, t.minute, t.second]

/-- Larger fields are a later time. -/
theorem seconds_lt_of_fields {a b : Timestamp} (h : a.fields < b.fields) :
    a.seconds < b.seconds := by
  have ha := a.date.dayNumber_lt
  have hah := a.hour_lt
  have ham := a.minute_lt
  have has := a.second_lt
  have hbday := b.date.day_pos
  have haday := a.date.day_pos
  -- a later day is later whatever the time
  have hdays : a.date.dayNumber < b.date.dayNumber → a.seconds < b.seconds := by
    intro hlt
    unfold seconds
    omega
  simp only [fields, List.cons_lt_cons_iff, List.not_lt_nil, and_false, or_false] at h
  rcases h with hyear | ⟨hyear, hmonth | ⟨hmonth, hday | ⟨hday, htime⟩⟩⟩
  · have hmono : daysBefore (a.date.year + 1) ≤ daysBefore b.date.year := daysBefore_mono hyear
    apply hdays
    unfold Date.dayNumber at *
    omega
  · have hmono : daysBeforeMonth b.date.year (a.date.month + 1) ≤
        daysBeforeMonth b.date.year b.date.month := daysBeforeMonth_mono hmonth _
    apply hdays
    rw [hyear] at ha
    unfold Date.dayNumber at *
    rw [hyear] at ha ⊢
    omega
  · apply hdays
    unfold Date.dayNumber
    rw [hyear, hmonth]
    omega
  · have hdate : a.date.dayNumber = b.date.dayNumber := by
      unfold Date.dayNumber
      rw [hyear, hmonth, hday]
    unfold seconds
    omega

theorem seconds_lt_iff {a b : Timestamp} : a.seconds < b.seconds ↔ a.fields < b.fields := by
  refine ⟨fun h => ?_, seconds_lt_of_fields⟩
  rcases lt_trichotomy a.fields b.fields with hlt | heq | hgt
  · exact hlt
  · simp only [fields, List.cons.injEq, and_true] at heq
    obtain ⟨hyear, hmonth, hday, hhour, hminute, hsecond⟩ := heq
    have hsame : a.seconds = b.seconds := by
      unfold seconds Date.dayNumber
      rw [hyear, hmonth, hday, hhour, hminute, hsecond]
    omega
  · exact absurd (seconds_lt_of_fields hgt) (Nat.lt_asymm h)

end Timestamp

end Srrdb.Lib.Calendar
