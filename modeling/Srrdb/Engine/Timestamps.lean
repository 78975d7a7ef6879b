/-
Srrdb.Engine.Timestamps — what `format_timestamp` writes.

The year loop takes whole years off the days since 1970 and the month loop
whole months off what is left (`yearLoop_spec`, `monthLoop_spec`), so the date
they stop at has as many days before it as the epoch and the input together.
The text is that date and the time of day (`exists_stamps`), and while the
year has four digits a later time is a larger text (`text_lt_iff`).
-/
import Srrdb.Engine.Predicate
import Srrdb.Lib.Calendar

namespace Srrdb.Engine

open Srrdb.Lib Srrdb.Lib.Calendar

/-! ## The loops -/

theorem isLeap_iff (y : Nat) : isLeap y = true ↔ IsLeap y := by
  simp only [isLeap, IsLeap, Bool.or_eq_true, Bool.and_eq_true, decide_eq_true_eq]
  omega

theorem yearDays_eq (y : Nat) : (if isLeap y then 366 else 365) = daysInYear y := by
  unfold daysInYear
  simp only [isLeap_iff]

theorem monthDays_eq (y : Nat) : monthDays y = (List.range' 1 12).map (daysInMonth y) := by
  unfold monthDays
  simp only [isLeap_iff]
  rfl

/-- The year loop ends after as many rounds as it needs, in the year that
contains the day. -/
theorem yearLoop_spec (y d : Nat) : ∃ y' d',
    (∀ rounds, d ≤ rounds → yearLoop rounds y d = (y', d')) ∧ d' < daysInYear y' ∧
      y' ≤ y + d ∧ daysBefore y' + d' = daysBefore y + d := by
  induction d using Nat.strong_induction_on generalizing y with
  | _ d ih =>
    by_cases hd : d < daysInYear y
    · refine ⟨y, d, fun rounds _ => ?_, hd, Nat.le_add_right _ _, rfl⟩
      cases rounds with
      | zero => rfl
      | succ rounds =>
        unfold yearLoop
        simp only [yearDays_eq, hd, if_true]
    · have hpos : 0 < daysInYear y := by
        unfold daysInYear
        split <;> decide
      obtain ⟨y', d', hloop, hd', hy', hdays⟩ := ih (d - daysInYear y) (by omega) (y + 1)
      rw [daysBefore_succ] at hdays
      refine ⟨y', d', fun rounds hrounds => ?_, hd', by omega, by omega⟩
      cases rounds with
      | zero => omega
      | succ rounds =>
        unfold yearLoop
        simp only [yearDays_eq, hd, if_false]
        exact hloop rounds (by omega)

/-- The month loop stops in the month that contains the day. -/
theorem monthLoop_spec (y : Nat) {months m d : Nat} (hm : 1 ≤ m)
    (hd : daysBeforeMonth y m + d < daysBeforeMonth y (m + months)) :
    ∃ m' d', monthLoop ((List.range' m months).map (daysInMonth y)) m d = (m', d') ∧
      m ≤ m' ∧ m' < m + months ∧ d' < daysInMonth y m' ∧
        daysBeforeMonth y m' + d' = daysBeforeMonth y m + d := by
  induction months generalizing m d with
  | zero =>
    rw [Nat.add_zero] at hd
    omega
  | succ months ih =>
    rw [List.range'_succ, List.map_cons, monthLoop]
    by_cases hlt : d < daysInMonth y m
    · rw [if_pos hlt]
      exact ⟨m, d, rfl, le_rfl, by omega, hlt, rfl⟩
    · have hsucc := daysBeforeMonth_succ hm y
      have hnext : daysBeforeMonth y (m + 1) + (d - daysInMonth y m) <
          daysBeforeMonth y (m + 1 + months) := by
        rw [Nat.add_right_comm m 1 months, Nat.add_assoc]
        omega
      obtain ⟨m', d', hloop, hle, hlt', hd', hdays⟩ := ih (by omega) hnext
      rw [if_neg hlt]
      exact ⟨m', d', hloop, by omega, by omega, hd', by omega⟩

/-! ## The text -/

/-- 1970-01-01 00:00:00. -/
def epoch : Timestamp where
  date := ⟨1970, 1, 1, by decide, by decide, by decide, by decide⟩
  hour := 0
  minute := 0
  second := 0
  hour_lt := by decide
  minute_lt := by decide
  second_lt := by decide

/-- `{y:04}-{m:02}-{day:02} {h:02}:{mi:02}:{s:02}`. -/
def timestampText (t : Timestamp) : String :=
  padded 4 t.date.year ++ "-" ++ padded 2 t.date.month ++ "-" ++ padded 2 t.date.day ++ " " ++
    padded 2 t.hour ++ ":" ++ padded 2 t.minute ++ ":" ++ padded 2 t.second

/-- The seconds are written as this point in time, and it is that far from the
epoch. -/
def Stamps (secs : Nat) (t : Timestamp) : Prop :=
  formatTimestamp secs = .text (timestampText t) ∧ t.seconds = epoch.seconds + secs

/-- Every number of seconds is written as the point in time it stands for, in
the year in which the year loop ends. -/
theorem exists_stamps (secs : Nat) :
    ∃ t, Stamps secs t ∧ t.date.year ≤ 1970 + secs / 86400 ∧ ∀ rounds, secs / 86400 ≤ rounds →
      (yearLoop rounds 1970 (secs / 86400)).1 = t.date.year := by
  obtain ⟨y, d, hyears, hd, hy, hdays⟩ := yearLoop_spec 1970 (secs / 86400)
  have hloop := hyears (secs / 86400) le_rfl
  have hstart : daysBeforeMonth y 1 + d < daysBeforeMonth y (1 + 12) := by
    rw [daysBeforeMonth_thirteen]
    simpa [daysBeforeMonth] using hd
  obtain ⟨m, dayIndex, hmonths, hm, hm', hday, hsame⟩ := monthLoop_spec y le_rfl hstart
  rw [← monthDays_eq] at hmonths
  let t : Timestamp :=
    { date := ⟨y, m, dayIndex + 1, hm, Nat.le_of_lt_succ hm', Nat.succ_pos _, hday⟩
      hour := secs % 86400 / 3600
      minute := secs % 86400 % 3600 / 60
      second := secs % 86400 % 60
      hour_lt := by omega
      minute_lt := by omega
      second_lt := by omega }
  have hnumber : t.date.dayNumber = daysBefore 1970 + secs / 86400 := by
    have hone : daysBeforeMonth y 1 = 0 := rfl
    show daysBefore y + daysBeforeMonth y m + (dayIndex + 1 - 1) = _
    omega
  have hepoch : epoch.seconds = 86400 * daysBefore 1970 := by
    simp [Timestamp.seconds, Date.dayNumber, daysBeforeMonth, epoch]
  refine ⟨t, ⟨?_, ?_⟩, hy, fun rounds h => congrArg Prod.fst (hyears rounds h)⟩
  · simp only [formatTimestamp, hloop, hmonths]
    rfl
  · show 86400 * t.date.dayNumber + 3600 * (secs % 86400 / 3600) +
      60 * (secs % 86400 % 3600 / 60) + secs % 86400 % 60 = _
    rw [hnumber, hepoch]
    omega

/-! ## The order of texts -/

theorem toList_padded {width n : Nat} (hwidth : 0 < width) (h : n < 10 ^ width) :
    (padded width n).toList = fixedDigits width n := by
  rw [← fixedDigits_eq hwidth h]
  simp [padded, Nat.toList_repr, ← String.length_toList]

/-- The characters of a point in time with a year of four digits. -/
theorem toList_timestampText {t : Timestamp} (h : t.date.year ≤ 9999) :
    (timestampText t).toList = fixedDigits 4 t.date.year ++ '-' :: (fixedDigits 2 t.date.month ++
      '-' :: (fixedDigits 2 t.date.day ++ ' ' :: (fixedDigits 2 t.hour ++
        ':' :: (fixedDigits 2 t.minute ++ ':' :: (fixedDigits 2 t.second ++ []))))) := by
  have hday := t.date.day_lt
  have hmonth := t.date.month_le
  have hhour := t.hour_lt
  have hminute := t.minute_lt
  have hsecond := t.second_lt
  simp only [timestampText, String.toList_append, toList_padded (by decide : 0 < 4)
    (by omega : t.date.year < 10 ^ 4),
    toList_padded (by decide : 0 < 2) (by omega : t.date.day < 10 ^ 2),
    toList_padded (by decide : 0 < 2) (by omega : t.date.month < 10 ^ 2),
    toList_padded (by decide : 0 < 2) (by omega : t.hour < 10 ^ 2),
    toList_padded (by decide : 0 < 2) (by omega : t.minute < 10 ^ 2),
    toList_padded (by decide : 0 < 2) (by omega : t.second < 10 ^ 2), List.append_assoc]
  rfl

/-- Up to the year 9999 texts are ordered as the times are. -/
theorem timestampText_lt_iff {a b : Timestamp} (ha : a.date.year ≤ 9999)
    (hb : b.date.year ≤ 9999) : timestampText a < timestampText b ↔ a.fields < b.fields := by
  have hfields : ∀ t : Timestamp, t.date.month < 10 ^ 2 ∧ t.date.day < 10 ^ 2 ∧
      t.hour < 10 ^ 2 ∧ t.minute < 10 ^ 2 ∧ t.second < 10 ^ 2 := by
    intro t
    have hmonth := t.date.month_le
    have hday := t.date.day_lt
    have hhour := t.hour_lt
    have hminute := t.minute_lt
    have hsecond := t.second_lt
    omega
  obtain ⟨hamonth, haday, hahour, haminute, hasecond⟩ := hfields a
  obtain ⟨hbmonth, hbday, hbhour, hbminute, hbsecond⟩ := hfields b
  have hsep : ∀ (c : Char) (s t : List Char), c :: s < c :: t ↔ s < t := by
    intro c s t
    rw [List.cons_lt_cons_iff]
    simp
  rw [String.lt_iff, toList_timestampText ha, toList_timestampText hb,
    append_lt_iff (by omega : a.date.year < 10 ^ 4) (by omega), hsep, append_lt_iff hamonth hbmonth,
    hsep, append_lt_iff haday hbday, hsep, append_lt_iff hahour hbhour, hsep,
    append_lt_iff haminute hbminute, hsep, append_lt_iff hasecond hbsecond]
  simp only [Timestamp.fields, List.cons_lt_cons_iff, List.not_lt_nil]

/-- For every number of seconds the loops of `format_timestamp` end, with a year
that fits its type, and what it writes is a date and a time of day that exist,
as far from 1970-01-01 00:00:00 as the number says; up to the year 9999 the
text of a larger number is larger. -/
theorem formatTimestamp_correct (secs : UInt64) :
    ∃ t, Stamps secs.toNat t ∧ t.date.year < 2 ^ 63 ∧
      (∀ rounds, secs.toNat / 86400 ≤ rounds →
        (yearLoop rounds 1970 (secs.toNat / 86400)).1 = t.date.year) ∧
      ∀ (later : UInt64) (t' : Timestamp), Stamps later.toNat t' → t'.date.year ≤ 9999 →
        secs < later → timestampText t < timestampText t' := by
  obtain ⟨t, ht, hyear, hloop⟩ := exists_stamps secs.toNat
  have hsecs := secs.toNat_lt
  refine ⟨t, ht, by omega, hloop, fun later t' ht' hyear' hlt => ?_⟩
  have hlt' : secs.toNat < later.toNat := hlt
  have hfields : t.fields < t'.fields := by
    rw [← Timestamp.seconds_lt_iff, ht.2, ht'.2]
    omega
  refine (timestampText_lt_iff ?_ hyear').mpr hfields
  rw [Timestamp.fields, Timestamp.fields, List.cons_lt_cons_iff] at hfields
  omega

/-- The last second of a leap day. -/
example : formatTimestamp 951868799 = .text "2000-02-29 23:59:59" := by decide +kernel

end Srrdb.Engine
