/-
Srrdb.Lib.Sha1 — SHA-1 over bytes.

Words are natural numbers below 2^32, so that a digest evaluates by machine
arithmetic on numbers: a block is sixteen words, its schedule extends them to
eighty, and eighty rounds turn five chaining words into the next five.
-/
import Mathlib.Algebra.Group.Nat.Defs
import Mathlib.Data.List.Basic

namespace Srrdb.Lib.Sha1

/-! ## Words -/

/-- One more than the largest word. -/
def wordBound : Nat := 2 ^ 32

def rotateLeft (n x : Nat) : Nat := x * 2 ^ n % wordBound + x / 2 ^ (32 - n)

def complement (x : Nat) : Nat := wordBound - 1 - x

/-- Four bytes, the first one highest. -/
def wordBytes (x : Nat) : List UInt8 :=
  [.ofNat (x / 2 ^ 24), .ofNat (x / 2 ^ 16), .ofNat (x / 2 ^ 8), .ofNat x]

/-- The words of bytes, four at a time. -/
def words : List UInt8 → List Nat
  | a :: b :: c :: d :: rest =>
    (((a.toNat * 256 + b.toNat) * 256 + c.toNat) * 256 + d.toNat) :: words rest
  | _ => []

/-! ## Blocks -/

/-- The message, a one bit, zeros, and the length in bits. -/
def padded (message : List UInt8) : List UInt8 :=
  message ++ 0x80 :: List.replicate ((119 - message.length % 64) % 64) 0 ++
    wordBytes (message.length * 8 / wordBound) ++ wordBytes (message.length * 8 % wordBound)

/-- The next words of the schedule, `window` being the last sixteen. -/
def schedule : Nat → List Nat → List Nat
  | 0, _ => []
  | n + 1, window =>
    let next := rotateLeft 1 (window.getD 13 0 ^^^ window.getD 8 0 ^^^ window.getD 2 0 ^^^
      window.getD 0 0)
    next :: schedule n (window.drop 1 ++ [next])

/-- The five chaining words. -/
structure Chain where
  a : Nat
  b : Nat
  c : Nat
  d : Nat
  e : Nat

/-- The function and the constant of a round. -/
def mix (t : Nat) (s : Chain) : Nat :=
  if t < 20 then ((s.b &&& s.c) ||| (complement s.b &&& s.d)) + 0x5A827999
  else if t < 40 then (s.b ^^^ s.c ^^^ s.d) + 0x6ED9EBA1
  else if t < 60 then ((s.b &&& s.c) ||| (s.b &&& s.d) ||| (s.c &&& s.d)) + 0x8F1BBCDC
  else (s.b ^^^ s.c ^^^ s.d) + 0xCA62C1D6

def round (t : Nat) (s : Chain) (w : Nat) : Chain :=
  ⟨(rotateLeft 5 s.a + mix t s + s.e + w) % wordBound, s.a, rotateLeft 30 s.b, s.c, s.d⟩

/-- The rounds from number `t` on. -/
def rounds : Nat → Chain → List Nat → Chain
  | _, s, [] => s
  | t, s, w :: rest => rounds (t + 1) (round t s w) rest

/-- The chaining words after a block. -/
def compress (s : Chain) (block : List Nat) : Chain :=
  let r := rounds 0 s (block ++ schedule 64 block)
  ⟨(s.a + r.a) % wordBound, (s.b + r.b) % wordBound, (s.c + r.c) % wordBound,
    (s.d + r.d) % wordBound, (s.e + r.e) % wordBound⟩

/-- Block after block; the number of words bounds the number of blocks. -/
def compressAll : Nat → Chain → List Nat → Chain
  | 0, s, _ => s
  | n + 1, s, ws => if ws.isEmpty then s else compressAll n (compress s (ws.take 16)) (ws.drop 16)

def initial : Chain := ⟨0x67452301, 0xEFCDAB89, 0x98BADCFE, 0x10325476, 0xC3D2E1F0⟩

/-- The digest of a message. -/
def digest (message : List UInt8) : List UInt8 :=
  let ws := words (padded message)
  let s := compressAll ws.length initial ws
  wordBytes s.a ++ wordBytes s.b ++ wordBytes s.c ++ wordBytes s.d ++ wordBytes s.e

theorem length_digest (message : List UInt8) : (digest message).length = 20 := rfl

example : digest [0x61, 0x62, 0x63] =
    [0xA9, 0x99, 0x3E, 0x36, 0x47, 0x06, 0x81, 0x6A, 0xBA, 0x3E, 0x25, 0x71, 0x78, 0x50, 0xC2,
      0x6C, 0x9C, 0xD0, 0xD8, 0x9D] := by
  decide +kernel

end Srrdb.Lib.Sha1
