/-
Srrdb.Lib.Codec — prefix codecs and their combinators.

A codec writes a value as bytes and reads it back from the front of any byte
string that starts with them. The law is a field, so a codec without it cannot
be built, and every combinator carries it: pairs, options, lists behind a
count, tagged unions, and a change of representation (`map`, `filterMap`).
Numbers are little endian at a fixed width. A number too large for the width
is written behind the all-ones escape, which keeps the law unconditional for
`Nat` and for lists of any length.
-/
import Mathlib.Data.List.Basic
import Mathlib.Tactic.Ring

namespace Srrdb.Lib

/-- A writer, a reader of prefixes, and their round trip. -/
structure Codec (α : Type) where
  enc : α → List UInt8
  dec : List UInt8 → Option (α × List UInt8)
  dec_enc : ∀ a rest, dec (enc a ++ rest) = some (a, rest)

namespace Codec

variable {α β : Type}

attribute [simp] dec_enc

@[simp] theorem dec_enc_self (c : Codec α) (a : α) : c.dec (c.enc a) = some (a, []) := by
  have h := c.dec_enc a []
  rwa [List.append_nil] at h

/-- No encoding is a proper prefix of another one's. -/
theorem enc_injective (c : Codec α) {a b : α} {r s : List UInt8}
    (h : c.enc a ++ r = c.enc b ++ s) : a = b ∧ r = s := by
  have ha := c.dec_enc a r
  rw [h, c.dec_enc] at ha
  cases ha
  exact ⟨rfl, rfl⟩

/-- A type of two values has no empty encoding. -/
theorem enc_ne_nil (c : Codec α) {a b : α} (h : a ≠ b) (x : α) : c.enc x ≠ [] := by
  intro hx
  have hall : ∀ y, x = y := by
    intro y
    have heq : c.enc x ++ c.enc y = c.enc y ++ [] := by rw [hx, List.nil_append, List.append_nil]
    exact (c.enc_injective heq).1
  exact h ((hall a).symm.trans (hall b))

/-! ## Combinators -/

def unit : Codec Unit where
  enc _ := []
  dec bytes := some ((), bytes)
  dec_enc _ _ := rfl

def byte : Codec UInt8 where
  enc b := [b]
  dec
    | [] => none
    | b :: rest => some (b, rest)
  dec_enc _ _ := rfl

/-- A value of `β` written as the `α` it comes from; not every `α` is one. -/
def filterMap (c : Codec α) (f : α → Option β) (g : β → α) (h : ∀ b, f (g b) = some b) :
    Codec β where
  enc b := c.enc (g b)
  dec bytes := (c.dec bytes).bind fun p => (f p.1).map fun b => (b, p.2)
  dec_enc b rest := by simp [h]

/-- Another representation of the same values. -/
def map (c : Codec α) (f : α → β) (g : β → α) (h : ∀ b, f (g b) = b) : Codec β :=
  c.filterMap (fun a => some (f a)) g (fun b => congrArg some (h b))

/-- A tag, and a payload whose codec the tag chooses. -/
def sigma {P : α → Type} (c : Codec α) (payload : ∀ a, Codec (P a)) : Codec (Sigma P) where
  enc x := c.enc x.1 ++ (payload x.1).enc x.2
  dec bytes := (c.dec bytes).bind fun p =>
    ((payload p.1).dec p.2).map fun q => (⟨p.1, q.1⟩, q.2)
  dec_enc x rest := by simp [List.append_assoc]

def prod (c : Codec α) (d : Codec β) : Codec (α × β) :=
  (c.sigma fun _ => d).map (fun x => (x.1, x.2)) (fun p => ⟨p.1, p.2⟩) fun _ => rfl

/-! ## Numbers -/

/-- The `w` low bytes of a number, lowest first. -/
def leBytes : Nat → Nat → List UInt8
  | 0, _ => []
  | w + 1, n => UInt8.ofNat n :: leBytes w (n / 256)

/-- The number little-endian bytes stand for. -/
def leValue : List UInt8 → Nat
  | [] => 0
  | b :: bs => b.toNat + 256 * leValue bs

@[simp] theorem length_leBytes (w n : Nat) : (leBytes w n).length = w := by
  induction w generalizing n with
  | zero => rfl
  | succ w ih => simp [leBytes, ih]

/-- A fixed width keeps a number modulo its range. -/
theorem leValue_leBytes (w n : Nat) : leValue (leBytes w n) = n % 256 ^ w := by
  induction w generalizing n with
  | zero => simp [leBytes, leValue, Nat.mod_one]
  | succ w ih =>
    rw [leBytes, leValue, ih, pow_succ', Nat.mod_mul, UInt8.toNat_ofNat']

theorem leValue_leBytes_of_lt {w n : Nat} (h : n < 256 ^ w) : leValue (leBytes w n) = n := by
  rw [leValue_leBytes, Nat.mod_eq_of_lt h]

theorem leBytes_inj {w n m : Nat} (hn : n < 256 ^ w) (hm : m < 256 ^ w)
    (h : leBytes w n = leBytes w m) : n = m := by
  rw [← leValue_leBytes_of_lt hn, h, leValue_leBytes_of_lt hm]

/-- The bytes of a number are the only ones of their length that stand for it. -/
theorem leBytes_leValue {w : Nat} {bs : List UInt8} (h : bs.length = w) :
    leBytes w (leValue bs) = bs := by
  induction bs generalizing w with
  | nil =>
    subst h
    rfl
  | cons b bs ih =>
    subst h
    have hlow : UInt8.ofNat (b.toNat + 256 * leValue bs) = b := by
      rw [← UInt8.toNat_inj, UInt8.toNat_ofNat']
      have := b.toNat_lt
      omega
    have hhigh : (b.toNat + 256 * leValue bs) / 256 = leValue bs := by
      have := b.toNat_lt
      omega
    rw [List.length_cons, leValue, leBytes, hlow, hhigh, ih rfl]

theorem leValue_lt (bs : List UInt8) : leValue bs < 256 ^ bs.length := by
  induction bs with
  | nil => simp [leValue]
  | cons b bs ih =>
    have := b.toNat_lt
    rw [leValue, List.length_cons, pow_succ]
    omega

/-- Split off `w` bytes. -/
def takeBytes (w : Nat) (bytes : List UInt8) : Option (List UInt8 × List UInt8) :=
  if w ≤ bytes.length then some (bytes.take w, bytes.drop w) else none

theorem takeBytes_append {w : Nat} {bs : List UInt8} (h : bs.length = w) (rest : List UInt8) :
    takeBytes w (bs ++ rest) = some (bs, rest) := by
  simp [takeBytes, h, List.take_left' h, List.drop_left' h]

/-- A number below `256 ^ w` in `w` bytes. -/
def fixed (w : Nat) : Codec (Fin (256 ^ w)) where
  enc n := leBytes w n
  dec bytes := (takeBytes w bytes).map fun p =>
    (⟨leValue p.1 % 256 ^ w, Nat.mod_lt _ (Nat.pow_pos (by decide))⟩, p.2)
  dec_enc n rest := by
    rw [takeBytes_append (length_leBytes w n) rest]
    simp only [Option.map_some, leValue_leBytes, Nat.mod_eq_of_lt n.isLt]

/-- A run of ones closed by a zero. -/
def unary : Codec Nat where
  enc n := List.replicate n 1 ++ [0]
  dec bytes :=
    match bytes.dropWhile (· = 1) with
    | [] => none
    | _ :: rest => some ((bytes.takeWhile (· = 1)).length, rest)
  dec_enc n rest := by
    rw [List.append_assoc, List.dropWhile_append_of_pos (by simp),
      List.takeWhile_append_of_pos (by simp)]
    simp

/-- A number in eight bytes; the all-ones pattern escapes to `unary`. -/
def nat : Codec Nat where
  enc n :=
    if n < 256 ^ 8 - 1 then leBytes 8 n else leBytes 8 (256 ^ 8 - 1) ++ unary.enc n
  dec bytes := (takeBytes 8 bytes).bind fun p =>
    if leValue p.1 < 256 ^ 8 - 1 then some (leValue p.1, p.2) else unary.dec p.2
  dec_enc n rest := by
    split
    · next h =>
      rw [takeBytes_append (length_leBytes 8 n) rest, Option.bind_some,
        leValue_leBytes_of_lt (by omega), if_pos h]
    · rw [List.append_assoc, takeBytes_append (length_leBytes 8 _), Option.bind_some,
        leValue_leBytes_of_lt (by decide), if_neg (by decide), unary.dec_enc]

/-! ## Options, lists, enumerations -/

/-- The items one after the other, as many as the caller knows there are. -/
def decItems (c : Codec α) : Nat → List UInt8 → Option (List α × List UInt8)
  | 0, bytes => some ([], bytes)
  | n + 1, bytes => (c.dec bytes).bind fun p =>
    (decItems c n p.2).map fun q => (p.1 :: q.1, q.2)

theorem decItems_enc (c : Codec α) (xs : List α) (rest : List UInt8) :
    decItems c xs.length (xs.flatMap c.enc ++ rest) = some (xs, rest) := by
  induction xs with
  | nil => rfl
  | cons x xs ih => simp [decItems, List.append_assoc, ih]

/-- A count and the items. -/
def list (c : Codec α) : Codec (List α) where
  enc xs := nat.enc xs.length ++ xs.flatMap c.enc
  dec bytes := (nat.dec bytes).bind fun p => decItems c p.1 p.2
  dec_enc xs rest := by simp [List.append_assoc, decItems_enc]

/-- One byte for the presence of a value. -/
def option (c : Codec α) : Codec (Option α) where
  enc
    | none => [0]
    | some a => 1 :: c.enc a
  dec
    | 0 :: rest => some (none, rest)
    | 1 :: rest => (c.dec rest).map fun p => (some p.1, p.2)
    | _ => none
  dec_enc o rest := by cases o <;> simp

/-- One of listed values by its position, in four bytes. -/
def enumOf (xs : List α) [DecidableEq α] (hlen : xs.length < 256 ^ 4) (hall : ∀ a, a ∈ xs) :
    Codec α :=
  (fixed 4).filterMap (fun i => xs[i.val]?)
    (fun a => ⟨xs.idxOf a, (List.idxOf_lt_length_of_mem (hall a)).trans hlen⟩)
    fun a => by simp [List.getElem?_idxOf (hall a)]

end Codec

end Srrdb.Lib
