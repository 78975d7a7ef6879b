/-
Srrdb.Client.LengthEncoding — numbers and texts behind their length, in both
decoders.

The server and the client read what `lenenc_int_bytes` writes alike, since their
grammar announces it (`announces_lenencIntBytes`). Together with its decoder the
encoding is a `Codec`, which is why no encoding begins another one.
-/
import Srrdb.Client.ResultSets
import Srrdb.Client.Truncation

namespace Srrdb.Client

open Srrdb.Lib Srrdb.Protocol

/-- The encoding of numbers with the decoder of the client. -/
def lenencNumber : Codec UInt64 where
  enc := lenencIntBytes
  dec data := match parseLenencInt data with
    | .ok (v, n) => some (v, data.drop n)
    | .error _ => none
  dec_enc v rest := by
    rw [parseLenencInt_lenencIntBytes]
    simp

/-- Texts of one length have one encoding of it. -/
theorem lenencStr_injective {text text' rest rest' : List UInt8} (h : text.length < 2 ^ 64)
    (h' : text'.length < 2 ^ 64) (heq : lenencStr text ++ rest = lenencStr text' ++ rest') :
    text = text' ∧ rest = rest' := by
  rw [lenencStr, lenencStr, List.append_assoc, List.append_assoc] at heq
  obtain ⟨hlength, hrest⟩ := lenencNumber.enc_injective heq
  have hsame : text.length = text'.length := by
    rw [← toNat_length h, ← toNat_length h', hlength]
  exact List.append_inj hrest hsame

/-- Both decoders read a number back with the bytes it takes, and the client a
text, whatever follows; the first byte is not taken for NULL or for an error,
and no encoding begins another one. -/
theorem lenenc_round_trip (v v' : UInt64) {text text' : List UInt8} (h : text.length < 2 ^ 64)
    (h' : text'.length < 2 ^ 64) (rest : List UInt8) :
    lenencInt (lenencIntBytes v ++ rest) = .ok (v.toNat, (lenencIntBytes v).length) ∧
    parseLenencInt (lenencIntBytes v ++ rest) = .ok (v, (lenencIntBytes v).length) ∧
    parseLenencStr (lenencStr text ++ rest) = .ok (text, (lenencStr text).length) ∧
    (∃ first tail, lenencIntBytes v = first :: tail ∧ first ≠ 0xFB ∧ first ≠ 0xFF) ∧
    (lenencIntBytes v <+: lenencIntBytes v' → v = v') ∧
    (lenencStr text <+: lenencStr text' → text = text') := by
  refine ⟨lenencInt_lenencIntBytes v rest, parseLenencInt_lenencIntBytes v rest,
    parseLenencStr_lenencStr h rest, ?_, ?_, ?_⟩
  · obtain ⟨first, tail, hbytes, hnull, herr, -, -⟩ := lenencIntBytes_head v
    exact ⟨first, tail, hbytes, hnull, herr⟩
  · rintro ⟨tail, htail⟩
    rw [← List.append_nil (lenencIntBytes v')] at htail
    exact (lenencNumber.enc_injective htail).1
  · rintro ⟨tail, htail⟩
    rw [← List.append_nil (lenencStr text')] at htail
    exact (lenencStr_injective h h' htail).1

/-- The smallest number of three bytes, and two texts of which one begins the other. -/
theorem smallest_wide_round_trip :
    lenencInt (lenencIntBytes 251 ++ [7]) = .ok (251, 3) ∧
    parseLenencInt (lenencIntBytes 251 ++ [7]) = .ok (251, 3) ∧
    parseLenencStr (lenencStr [1] ++ [7]) = .ok ([1], 2) ∧
    (∃ first tail, lenencIntBytes 251 = first :: tail ∧ first ≠ 0xFB ∧ first ≠ 0xFF) ∧
    (lenencIntBytes 251 <+: lenencIntBytes 0 → (251 : UInt64) = 0) ∧
    (lenencStr [1] <+: lenencStr [1, 2] → [(1 : UInt8)] = [1, 2]) :=
  @lenenc_round_trip 251 0 [1] [1, 2] (by decide) (by decide) [7]

end Srrdb.Client
