/-
Srrdb.Lib.RecordLog — logs of records in a string of bytes.

A `RecordReader` says what stands at the front of some bytes: a record with
its size, the end of what can be read, or bytes on which the reader breaks.
`records` reads one record after the other and keeps the offset of each;
`Reaches` is the same walk as a relation. A writer's encoding is `Written`
when the reader gives the record back whatever follows, and stops at every
part of the encoding that is cut off; `records_take` is then the law of a log
that was cut at any byte.
-/
import Mathlib.Data.List.Basic
import Mathlib.Data.List.TakeDrop

namespace Srrdb.Lib

/-- What stands at the front of some bytes. -/
inductive Front (α : Type) where
  | stop
  | broken
  | record (a : α) (size : Nat)
  deriving DecidableEq, Repr

/-- A reader of the record at the front; a record takes some of the bytes, and
there is none in no bytes. -/
structure RecordReader (α : Type) where
  front : List UInt8 → Front α
  front_nil : front [] = .stop
  size_pos : ∀ {bytes a size}, front bytes = .record a size → 0 < size
  size_le : ∀ {bytes a size}, front bytes = .record a size → size ≤ bytes.length

namespace RecordReader

variable {α β : Type} (R : RecordReader α)

/-! ## Reading a log -/

/-- At most `fuel` records, each with its offset; `none` when the reader breaks. -/
def recordsLoop : Nat → Nat → List UInt8 → Option (List (Nat × α))
  | 0, _, _ => some []
  | fuel + 1, offset, bytes =>
    match R.front bytes with
    | .stop => some []
    | .broken => none
    | .record a size =>
      (recordsLoop fuel (offset + size) (bytes.drop size)).map ((offset, a) :: ·)

/-- The records of a log that starts at an offset; each takes a byte at least. -/
def records (offset : Nat) (bytes : List UInt8) : Option (List (Nat × α)) :=
  R.recordsLoop bytes.length offset bytes

variable {R} in
theorem length_drop_lt {bytes : List UInt8} {a : α} {size : Nat}
    (h : R.front bytes = .record a size) : (bytes.drop size).length < bytes.length := by
  have hpos := R.size_pos h
  have hle := R.size_le h
  rw [List.length_drop]
  omega

/-- More rounds than bytes change nothing. -/
theorem recordsLoop_fuel {fuel fuel' : Nat} {bytes : List UInt8} (h : bytes.length ≤ fuel)
    (h' : bytes.length ≤ fuel') (offset : Nat) :
    R.recordsLoop fuel offset bytes = R.recordsLoop fuel' offset bytes := by
  induction fuel generalizing fuel' offset bytes with
  | zero =>
    obtain rfl : bytes = [] := List.length_eq_zero_iff.mp (by omega)
    cases fuel' with
    | zero => rfl
    | succ fuel' => rw [recordsLoop, recordsLoop, R.front_nil]
  | succ fuel ih =>
    cases fuel' with
    | zero =>
      obtain rfl : bytes = [] := List.length_eq_zero_iff.mp (by omega)
      rw [recordsLoop, recordsLoop, R.front_nil]
    | succ fuel' =>
      simp only [recordsLoop]
      cases hfront : R.front bytes with
      | stop => rfl
      | broken => rfl
      | record a size =>
        have hlt := length_drop_lt hfront
        have hfuel : (bytes.drop size).length ≤ fuel := by omega
        have hfuel' : (bytes.drop size).length ≤ fuel' := by omega
        simp only [ih hfuel hfuel' (offset + size)]

/-- The walk, one record at a time. -/
theorem records_eq (offset : Nat) (bytes : List UInt8) :
    R.records offset bytes = match R.front bytes with
      | .stop => some []
      | .broken => none
      | .record a size =>
        (R.records (offset + size) (bytes.drop size)).map ((offset, a) :: ·) := by
  rw [records, R.recordsLoop_fuel (Nat.le_refl _) (Nat.le_succ _), recordsLoop]
  cases hfront : R.front bytes with
  | stop => rfl
  | broken => rfl
  | record a size =>
    have hle : (bytes.drop size).length ≤ bytes.length := Nat.le_of_lt (length_drop_lt hfront)
    simp only [records, R.recordsLoop_fuel hle (Nat.le_refl _) (offset + size)]

variable {R}

theorem records_stop {bytes : List UInt8} (h : R.front bytes = .stop) (offset : Nat) :
    R.records offset bytes = some [] := by
  rw [records_eq, h]

theorem records_record {bytes : List UInt8} {a : α} {size : Nat}
    (h : R.front bytes = .record a size) (offset : Nat) :
    R.records offset bytes =
      (R.records (offset + size) (bytes.drop size)).map ((offset, a) :: ·) := by
  rw [records_eq, h]

/-- The first record of a log stands at its start. -/
theorem head_records {offset : Nat} {bytes : List UInt8} {r : Nat × α} {rs : List (Nat × α)}
    (h : R.records offset bytes = some (r :: rs)) : r.1 = offset := by
  rw [records_eq] at h
  cases hfront : R.front bytes with
  | stop => rw [hfront] at h; cases h
  | broken => rw [hfront] at h; cases h
  | record a size =>
    rw [hfront] at h
    obtain ⟨rs', -, heq⟩ := Option.map_eq_some_iff.mp h
    cases heq
    rfl

/-! ## The walk as a relation -/

variable (R) in
/-- Reading records from the front leads to the rest. -/
inductive Reaches : List UInt8 → List UInt8 → Prop
  | refl (bytes : List UInt8) : Reaches bytes bytes
  | step {bytes rest : List UInt8} {a : α} {size : Nat} (h : R.front bytes = .record a size)
      (hrest : Reaches (bytes.drop size) rest) : Reaches bytes rest

/-- Reading breaks exactly when the walk leads to bytes on which it breaks. -/
theorem records_eq_none_iff {offset : Nat} {bytes : List UInt8} :
    R.records offset bytes = none ↔ ∃ rest, R.Reaches bytes rest ∧ R.front rest = .broken := by
  constructor
  · intro h
    rw [records] at h
    generalize bytes.length = fuel at h
    induction fuel generalizing offset bytes with
    | zero => cases h
    | succ fuel ih =>
      rw [recordsLoop] at h
      cases hfront : R.front bytes with
      | stop => rw [hfront] at h; cases h
      | broken => exact ⟨bytes, .refl _, hfront⟩
      | record a size =>
        rw [hfront] at h
        obtain ⟨rest, hreach, hbroken⟩ := ih (Option.map_eq_none_iff.mp h)
        exact ⟨rest, .step hfront hreach, hbroken⟩
  · rintro ⟨rest, hreach, hbroken⟩
    induction hreach generalizing offset with
    | refl bytes => rw [records_eq, hbroken]
    | step hfront _ ih => rw [records_record hfront, ih hbroken, Option.map_none]

/-! ## Written records -/

variable (R) in
/-- An encoding: the reader gives the record back whatever follows, and stops
at a proper prefix. -/
structure Written (bytes : List UInt8) (a : α) : Prop where
  read : ∀ rest, R.front (bytes ++ rest) = .record a bytes.length
  cut : ∀ k < bytes.length, R.front (bytes.take k) = .stop

/-- Where the records of a list are when they are written one after the other. -/
def placed (enc : β → List UInt8) (val : β → α) : Nat → List β → List (Nat × α)
  | _, [] => []
  | offset, b :: bs => (offset, val b) :: placed enc val (offset + (enc b).length) bs

theorem map_snd_placed (enc : β → List UInt8) (val : β → α) (offset : Nat) (bs : List β) :
    (placed enc val offset bs).map Prod.snd = bs.map val := by
  induction bs generalizing offset with
  | nil => rfl
  | cons b bs ih => simp [placed, ih]

variable {enc : β → List UInt8} {val : β → α} {bs : List β}

/-- Complete records are read, wherever the log goes on. -/
theorem records_append (h : ∀ b ∈ bs, R.Written (enc b) (val b)) (offset : Nat)
    (rest : List UInt8) :
    R.records offset (bs.flatMap enc ++ rest) =
      (R.records (offset + (bs.flatMap enc).length) rest).map (placed enc val offset bs ++ ·) := by
  induction bs generalizing offset with
  | nil => simp [placed]
  | cons b bs ih =>
    have hb := h b List.mem_cons_self
    have hbs := ih fun b hb => h b (List.mem_cons_of_mem _ hb)
    rw [List.flatMap_cons, List.append_assoc, records_record (hb.read _), List.drop_left, hbs,
      Option.map_map, List.length_append, Nat.add_assoc]
    rfl

/-- A log cut at any byte has the records that lie wholly before the cut. -/
theorem records_take (h : ∀ b ∈ bs, R.Written (enc b) (val b)) (offset cut : Nat) :
    ∃ n ≤ bs.length, (∀ i < bs.length, i < n ↔ ((bs.take (i + 1)).flatMap enc).length ≤ cut) ∧
      R.records offset ((bs.flatMap enc).take cut) = some (placed enc val offset (bs.take n)) := by
  induction bs generalizing offset cut with
  | nil =>
    refine ⟨0, Nat.le_refl 0, fun i hi => absurd hi (Nat.not_lt_zero i), ?_⟩
    rw [List.flatMap_nil, List.take_nil]
    exact records_stop R.front_nil offset
  | cons b bs ih =>
    have hb := h b List.mem_cons_self
    by_cases hcut : cut < (enc b).length
    · -- the cut is inside the first record
      refine ⟨0, Nat.zero_le _, fun i _ => ?_, ?_⟩
      · rw [List.take_succ_cons, List.flatMap_cons, List.length_append]
        omega
      · rw [List.flatMap_cons, List.take_append_of_le_length (Nat.le_of_lt hcut)]
        exact records_stop (hb.cut cut hcut) offset
    · obtain ⟨n, hn, hcomplete, hrecords⟩ := ih (fun b hb => h b (List.mem_cons_of_mem _ hb))
        (offset + (enc b).length) (cut - (enc b).length)
      refine ⟨n + 1, Nat.succ_le_succ hn, fun i hi => ?_, ?_⟩
      · rw [List.take_succ_cons, List.flatMap_cons, List.length_append]
        cases i with
        | zero => simp; omega
        | succ i =>
          rw [Nat.succ_lt_succ_iff, hcomplete i (Nat.lt_of_succ_lt_succ hi)]
          omega
      · have htake : (enc b ++ bs.flatMap enc).take cut =
            enc b ++ (bs.flatMap enc).take (cut - (enc b).length) := by
          rw [List.take_append, List.take_of_length_le (by omega)]
        rw [List.flatMap_cons, htake, records_record (hb.read _), List.drop_left, hrecords]
        rfl

end RecordReader

end Srrdb.Lib
