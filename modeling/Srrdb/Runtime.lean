/-
Srrdb.Runtime — what the model takes from Rust and its standard library.

  * `Stop` / `Outcome` — a computation that returns `Err` with its text, or
    panics. A panic is an outcome of its own because it poisons the mutexes
    the thread holds (`Srrdb.Engine.Executor`).
  * `Host` — the Unicode case mappings. They are a table of the Rust release
    and not of this repository, so they are a parameter with the two
    documented facts the engine relies on; `asciiHost` is the instance that
    agrees with every release on ASCII text.
  * `eqIgnoreAsciiCase`, `startsWith`, `fromUtf8Lossy`, `parseI64`,
    `parseUsize`, `parseF64` — the string functions, as documented.
-/
import Srrdb.Lib.Ieee
import Mathlib.Data.List.Forall2
import Mathlib.Data.String.Basic

namespace Srrdb

open Srrdb.Lib

/-! ## Outcomes -/

/-- Why a Rust computation stopped without a value. -/
inductive Stop where
  | err (msg : String)
  | panic
  deriving DecidableEq, Repr

/-- A `Result<α, String>` that may also panic. -/
abbrev Outcome (α : Type) := Except Stop α

/-- `Result<α, String>` without panics, as an outcome. -/
def Outcome.ofExcept {α : Type} : Except String α → Outcome α
  | .ok a => .ok a
  | .error msg => .error (.err msg)

@[simp] theorem Outcome.ofExcept_ok {α : Type} (a : α) :
    Outcome.ofExcept (.ok a : Except String α) = .ok a := rfl

@[simp] theorem Outcome.ofExcept_error {α : Type} (msg : String) :
    Outcome.ofExcept (.error msg : Except String α) = .error (.err msg) := rfl

/-- A list of computations that all succeeded. -/
theorem mapM_eq_ok_iff {ε α β : Type} {f : α → Except ε β} {as : List α} {bs : List β} :
    as.mapM f = .ok bs ↔ List.Forall₂ (fun a b => f a = .ok b) as bs := by
  induction as generalizing bs with
  | nil =>
    rw [List.mapM_nil, List.forall₂_nil_left_iff]
    exact ⟨fun h => (Except.ok.inj h).symm, fun h => congrArg _ h.symm⟩
  | cons a as ih =>
    rw [List.mapM_cons, List.forall₂_cons_left_iff]
    cases ha : f a with
    | error x => exact iff_of_false nofun fun ⟨_, _, hb, _⟩ => by cases hb
    | ok b =>
      cases has : as.mapM f with
      | error x =>
        refine iff_of_false nofun fun ⟨_, bs', _, hbs, _⟩ => ?_
        rw [ih.mpr hbs] at has
        cases has
      | ok bs' =>
        constructor
        · rintro ⟨⟩
          exact ⟨b, bs', rfl, ih.mp has, rfl⟩
        · rintro ⟨_, bs'', ⟨⟩, hbs, rfl⟩
          rw [ih.mpr hbs] at has
          cases has
          rfl

theorem exists_of_mem_mapM {ε α β : Type} {f : α → Except ε β} {as : List α} {bs : List β}
    (h : as.mapM f = .ok bs) {b : β} (hb : b ∈ bs) : ∃ a ∈ as, f a = .ok b := by
  obtain ⟨hlen, hget⟩ := List.forall₂_iff_get.mp (mapM_eq_ok_iff.mp h)
  obtain ⟨i, hi, rfl⟩ := List.mem_iff_getElem.mp hb
  exact ⟨as[i], List.getElem_mem _, hget i (hlen ▸ hi) hi⟩

theorem exists_mapM_iff {ε α β : Type} {f : α → Except ε β} {as : List α} :
    (∃ bs, as.mapM f = .ok bs) ↔ ∀ a ∈ as, ∃ b, f a = .ok b := by
  simp only [mapM_eq_ok_iff]
  induction as with
  | nil => simp
  | cons a as ih => simp [List.forall₂_cons_left_iff, ← ih]

/-! ## Case mapping -/

/-- `to_ascii_lowercase`. -/
def asciiLowercase (s : String) : String := String.ofList (s.toList.map Char.toLower)

/-- `to_ascii_uppercase`. -/
def asciiUppercase (s : String) : String := String.ofList (s.toList.map Char.toUpper)

def isAscii (s : String) : Bool := s.toList.all fun c => c.toNat < 128

/-- `str::to_lowercase` and `str::to_uppercase` of the Rust release. -/
class Host where
  toLowercase : String → String
  toUppercase : String → String
  toLowercase_idem : ∀ s, toLowercase (toLowercase s) = toLowercase s
  toLowercase_ascii : ∀ s, isAscii s = true → toLowercase s = asciiLowercase s
  toUppercase_ascii : ∀ s, isAscii s = true → toUppercase s = asciiUppercase s

export Host (toLowercase toUppercase toLowercase_idem)

attribute [simp] toLowercase_idem

theorem toLower_idem (c : Char) : c.toLower.toLower = c.toLower := by
  by_cases h : c.val ≥ 'A'.val ∧ c.val ≤ 'Z'.val
  · have hval : c.toLower.val = c.val + ('a'.val - 'A'.val) := by
      unfold Char.toLower
      rw [dif_pos h]
    have hnot : ¬ (c.toLower.val ≥ 'A'.val ∧ c.toLower.val ≤ 'Z'.val) := by
      rw [hval]
      intro h'
      simp only [ge_iff_le, UInt32.le_iff_toNat_le, UInt32.toNat_add] at h h'
      change 65 ≤ c.val.toNat ∧ c.val.toNat ≤ 90 at h
      change 65 ≤ (c.val.toNat + 32) % 2 ^ 32 ∧ (c.val.toNat + 32) % 2 ^ 32 ≤ 90 at h'
      omega
    rw [Char.toLower.eq_def c.toLower, dif_neg hnot]
  · have hsame : c.toLower = c := by
      unfold Char.toLower
      rw [dif_neg h]
    rw [hsame, hsame]

theorem asciiLowercase_idem (s : String) :
    asciiLowercase (asciiLowercase s) = asciiLowercase s := by
  simp only [asciiLowercase, String.toList_ofList, List.map_map, Function.comp_def, toLower_idem]

/-- The host whose text is ASCII. -/
@[reducible] def asciiHost : Host where
  toLowercase := asciiLowercase
  toUppercase := asciiUppercase
  toLowercase_idem := asciiLowercase_idem
  toLowercase_ascii _ _ := rfl
  toUppercase_ascii _ _ := rfl

/-! ## Strings -/

/-- `str::eq_ignore_ascii_case`. -/
def eqIgnoreAsciiCase (a b : String) : Bool :=
  a.toList.map Char.toLower == b.toList.map Char.toLower

/-- `str::starts_with`. -/
def startsWith (s pre : String) : Bool := pre.toList.isPrefixOf s.toList

/-! ## UTF-8 -/

def isContinuation (b : Nat) : Bool := 0x80 ≤ b && b ≤ 0xBF

/-- The second byte a multi-byte lead byte accepts. -/
def secondByteOk (lead b : Nat) : Bool :=
  if lead = 0xE0 then 0xA0 ≤ b && b ≤ 0xBF
  else if lead = 0xED then 0x80 ≤ b && b ≤ 0x9F
  else if lead = 0xF0 then 0x90 ≤ b && b ≤ 0xBF
  else if lead = 0xF4 then 0x80 ≤ b && b ≤ 0x8F
  else isContinuation b

/-- Continuation bytes a lead byte asks for; `none` when it leads nothing. -/
def continuationCount (lead : Nat) : Option Nat :=
  if lead < 0x80 then some 0
  else if 0xC2 ≤ lead ∧ lead ≤ 0xDF then some 1
  else if 0xE0 ≤ lead ∧ lead ≤ 0xEF then some 2
  else if 0xF0 ≤ lead ∧ lead ≤ 0xF4 then some 3
  else none

/-- The continuation bytes of `lead` at the head of `rest` that are well
formed, at most `n` of them. -/
def acceptedTail (lead n : Nat) (rest : List Nat) : List Nat :=
  match rest with
  | [] => []
  | b :: bs =>
    if n ≠ 0 && secondByteOk lead b then b :: (bs.take (n - 1)).takeWhile isContinuation
    else []

/-- The code point of a lead byte and its continuation bytes. -/
def codePoint (lead : Nat) (tail : List Nat) : Nat :=
  let start := if tail = [] then lead else lead % 2 ^ (6 - tail.length)
  tail.foldl (fun acc b => acc * 64 + b % 64) start

/-- One character after the other, an ill-formed sequence as one U+FFFD. -/
def lossyChars : Nat → List Nat → List Char
  | 0, _ => []
  | _ + 1, [] => []
  | fuel + 1, lead :: rest =>
    match continuationCount lead with
    | none => '\uFFFD' :: lossyChars fuel rest
    | some n =>
      let tail := acceptedTail lead n rest
      let c := if tail.length = n then Char.ofNat (codePoint lead tail) else '\uFFFD'
      c :: lossyChars fuel (rest.drop tail.length)

/-- `String::from_utf8_lossy`. -/
def fromUtf8Lossy (bytes : List UInt8) : String :=
  String.ofList (lossyChars bytes.length (bytes.map UInt8.toNat))

/-! ## Numbers -/

def isDigit (c : Char) : Bool := '0' ≤ c && c ≤ '9'

/-- The value of a string of digits. -/
def digitsValue (cs : List Char) : Nat :=
  cs.foldl (fun n c => n * 10 + (c.toNat - '0'.toNat)) 0

/-- A non-empty run of digits and nothing else. -/
def parseDigits (cs : List Char) : Option Nat :=
  if cs ≠ [] && cs.all isDigit then some (digitsValue cs) else none

/-- `str::parse::<i64>`: an optional sign, digits, and the range check. -/
def parseI64 (s : String) : Option Int64 :=
  let value : Option Int := match s.toList with
    | '-' :: cs => (parseDigits cs).map fun n => -(n : Int)
    | '+' :: cs => (parseDigits cs).map fun n => (n : Int)
    | cs => (parseDigits cs).map fun n => (n : Int)
  value.bind fun v =>
    if -(2 : Int) ^ 63 ≤ v ∧ v < (2 : Int) ^ 63 then some (Int64.ofInt v) else none

/-- `str::parse::<usize>` on a 64-bit machine. -/
def parseUsize (s : String) : Option Nat :=
  let value := match s.toList with
    | '+' :: cs => parseDigits cs
    | cs => parseDigits cs
  value.bind fun v => if v < 2 ^ 64 then some v else none

/-- An exponent part: nothing, or `e`/`E`, an optional sign and digits. -/
def parseExponent : List Char → Option Int
  | [] => some 0
  | c :: cs =>
    if c = 'e' ∨ c = 'E' then
      match cs with
      | '-' :: ds => (parseDigits ds).map fun n => -(n : Int)
      | '+' :: ds => (parseDigits ds).map fun n => (n : Int)
      | ds => (parseDigits ds).map fun n => (n : Int)
    else none

/-- Unsigned decimal text as digits and a decimal exponent. -/
def parseDecimal (cs : List Char) : Option (Nat × Int) :=
  let whole := cs.takeWhile isDigit
  let rest := cs.dropWhile isDigit
  let (frac, tail) := match rest with
    | '.' :: r => (r.takeWhile isDigit, r.dropWhile isDigit)
    | r => ([], r)
  if whole = [] ∧ frac = [] then none
  else (parseExponent tail).map fun e => (digitsValue (whole ++ frac), e - frac.length)

/-- `str::parse::<f64>`: decimal text with optional fraction and exponent, or
`inf`, `infinity` and `nan` in any case, with an optional sign. -/
def parseF64 (s : String) : Option UInt64 :=
  let (neg, cs) := match s.toList with
    | '-' :: r => (true, r)
    | '+' :: r => (false, r)
    | r => (false, r)
  let word := String.ofList (cs.map Char.toLower)
  let magnitude : Option Nat :=
    if word = "inf" ∨ word = "infinity" then some Ieee.binary64.infBits
    else if word = "nan" then some Ieee.binary64.nan
    else (parseDecimal cs).map fun (digits, e) =>
      -- outside this window every decimal is infinite or zero, whatever its digits
      if digits = 0 then 0
      else if 310 < Nat.log 10 digits + e then Ieee.binary64.infBits
      else if Nat.log 10 digits + e < -330 then 0
      else Ieee.binary64.ofDecimal false digits e
  magnitude.map fun m => UInt64.ofNat (Ieee.binary64.withSign neg m)

end Srrdb
