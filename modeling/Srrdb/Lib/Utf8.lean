/-
Srrdb.Lib.Utf8 — the bytes of a string.

A string is stored as its UTF-8 encoding, the concatenation of the encodings
of its characters. An ASCII character is one byte below 128. The first byte of
a character stands nowhere else in one, and no encoding begins another.
-/
import Mathlib.Data.String.Basic
import Srrdb.Lib.Wildcard

namespace Srrdb.Lib.Utf8

open Srrdb.Lib.Wildcard

theorem toList_loop (bs : ByteArray) (i : Nat) (r : List UInt8) :
    ByteArray.toList.loop bs i r = r.reverse ++ bs.data.toList.drop i := by
  fun_induction ByteArray.toList.loop bs i r with
  | case1 i r h ih =>
    have hi : i < bs.data.toList.length := h
    have hget : bs.get! i = bs.data.toList[i] := by
      show bs.data[i]! = _
      rw [getElem!_pos bs.data i h]
      rfl
    rw [ih, List.reverse_cons, List.append_assoc, List.singleton_append, hget,
      List.getElem_cons_drop]
  | case2 i r h =>
    have hi : bs.data.toList.length ≤ i := Nat.le_of_not_lt h
    rw [List.drop_eq_nil_of_le hi, List.append_nil]

/-- The bytes of a string are those of its characters. -/
theorem toUTF8_toList (s : String) : s.toUTF8.toList = s.toList.flatMap String.utf8EncodeChar := by
  rw [ByteArray.toList, toList_loop, String.toUTF8, ← String.utf8Encode_toList, List.utf8Encode]
  simp

/-! ## Characters -/

theorem length_utf8EncodeChar_ascii {c : Char} (h : c.toNat < 128) :
    (String.utf8EncodeChar c).length = 1 := by
  have hc : c.val.toNat ≤ 0x7f := Nat.le_of_lt_succ h
  rw [String.utf8EncodeChar, if_pos hc]
  rfl

theorem lt_of_mem_utf8EncodeChar {c : Char} (h : c.toNat < 128) {b : UInt8}
    (hb : b ∈ String.utf8EncodeChar c) : b.toNat < 128 := by
  have hc : c.val.toNat ≤ 0x7f := Nat.le_of_lt_succ h
  rw [String.utf8EncodeChar, if_pos hc, List.mem_singleton] at hb
  obtain rfl : b = UInt8.ofNat c.toNat := hb
  rwa [UInt8.toNat_ofNat', Nat.mod_eq_of_lt (by omega)]

/-- UTF-8 tells where a character begins. -/
theorem selfSynchronizing_utf8EncodeChar :
    SelfSynchronizing String.utf8EncodeChar UInt8.IsUTF8FirstByte where
  begins c := by
    have hfirst := @UInt8.isUTF8FirstByte_getElem_utf8EncodeChar c
    have hne := String.utf8EncodeChar_ne_nil (c := c)
    generalize String.utf8EncodeChar c = bytes at hfirst hne
    cases bytes with
    | nil => exact absurd rfl hne
    | cons b word =>
      have hzero : (b :: word)[0].IsUTF8FirstByte := hfirst.mpr rfl
      refine ⟨b, word, rfl, hzero, fun b' hb' h => ?_⟩
      obtain ⟨i, hi, rfl⟩ := List.mem_iff_getElem.mp hb'
      have hi' : i + 1 < (b :: word).length := Nat.succ_lt_succ hi
      have hlater : (b :: word)[i + 1].IsUTF8FirstByte ↔ i + 1 = 0 := hfirst
      exact absurd (hlater.mp h) (by omega)
  prefixFree {c c' rest rest'} h := by
    have hbytes := congrArg List.toByteArray h
    rw [List.toByteArray_append, List.toByteArray_append] at hbytes
    have hc : some c = some c' := by
      rw [← ByteArray.utf8DecodeChar?_utf8EncodeChar_append (b := rest.toByteArray), hbytes,
        ByteArray.utf8DecodeChar?_utf8EncodeChar_append]
    cases hc
    exact ⟨rfl, List.append_cancel_left h⟩

end Srrdb.Lib.Utf8
