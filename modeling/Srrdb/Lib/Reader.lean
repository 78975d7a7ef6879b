/-
Srrdb.Lib.Reader — reading from a stream of bytes.

A reader gets the bytes that have arrived and were not read yet. It waits
(`none`) while they are not enough, and otherwise ends with a value or an
error and leaves the rest on the stream. `Reads r bytes a` says that `r` reads
exactly `bytes`, whatever follows them, and that its value is `a`; it composes
like the readers do.
-/
import Srrdb.Lib.Codec
import Mathlib.Data.List.Forall2

namespace Srrdb.Lib

/-- A reader with errors `ε` and values `α`. -/
def Reader (ε α : Type) : Type := List UInt8 → Option (Except ε α × List UInt8)

namespace Reader

variable {ε α β : Type}

/-- Run the second reader on what the first has left, unless that failed. -/
def andThen (r : Reader ε α) (f : α → Reader ε β) : Reader ε β := fun stream =>
  match r stream with
  | none => none
  | some (.error e, rest) => some (.error e, rest)
  | some (.ok a, rest) => f a rest

instance : Monad (Reader ε) where
  pure a := fun stream => some (.ok a, stream)
  bind := andThen

/-- A result that needs no bytes. -/
def lift (result : Except ε α) : Reader ε α := fun stream => some (result, stream)

/-- The same reader so many times. -/
def replicate (r : Reader ε α) : Nat → Reader ε (List α)
  | 0 => pure []
  | n + 1 => do
    let a ← r
    let as ← replicate r n
    pure (a :: as)

/-! ## Exact reads -/

/-- The reader reads these bytes, and no others, as this value. -/
def Reads (r : Reader ε α) (bytes : List UInt8) (a : α) : Prop :=
  ∀ rest, r (bytes ++ rest) = some (.ok a, rest)

theorem reads_pure (a : α) : Reads (pure a : Reader ε α) [] a := fun _ => rfl

theorem reads_lift {result : Except ε α} {a : α} (h : result = .ok a) :
    Reads (lift result) [] a := by
  intro rest
  rw [h]
  rfl

/-- One read after the other reads the bytes of the one and then of the other. -/
theorem Reads.bind {r : Reader ε α} {f : α → Reader ε β} {bytes bytes' : List UInt8} {a : α}
    {b : β} (hr : Reads r bytes a) (hf : Reads (f a) bytes' b) :
    Reads (r >>= f) (bytes ++ bytes') b := by
  intro rest
  have h := hr (bytes' ++ rest)
  rw [← List.append_assoc] at h
  show andThen r f _ = _
  rw [andThen, h]
  exact hf rest

/-- What needs no bytes may come first. -/
theorem Reads.bind_lift {result : Except ε α} {f : α → Reader ε β} {bytes : List UInt8} {a : α}
    {b : β} (h : result = .ok a) (hf : Reads (f a) bytes b) :
    Reads (lift result >>= f) bytes b := (reads_lift h).bind hf

/-- A value may be changed at the end. -/
theorem Reads.map {r : Reader ε α} {bytes : List UInt8} {a : α} (h : Reads r bytes a)
    (g : α → β) : Reads (r >>= fun a => pure (g a)) bytes (g a) := by
  have hmap : Reads (r >>= fun a => pure (g a)) (bytes ++ []) (g a) :=
    h.bind (f := fun a => pure (g a)) (reads_pure (g a))
  rwa [List.append_nil] at hmap

/-- So many writings, one after the other, are read one after the other. -/
theorem reads_replicate {r : Reader ε α} {writings : List (List UInt8)} {values : List α}
    (h : List.Forall₂ (Reads r) writings values) :
    Reads (replicate r values.length) writings.flatten values := by
  induction h with
  | nil => exact reads_pure []
  | @cons w a writings values hw _ ih =>
    rw [List.flatten_cons]
    exact hw.bind (ih.map fun as => a :: as)

end Reader

end Srrdb.Lib
