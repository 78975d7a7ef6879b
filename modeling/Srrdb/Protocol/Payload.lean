/-
Srrdb.Protocol.Payload — the pieces of a payload (`protocol/handshake.rs`,
`protocol/resultset.rs`).

A payload is bytes without a frame. What is read from one by position panics
when the payload is too short (`byteAt`, `slice`, `fromLeBytes`). A number
that may be large is written behind a first byte that says how wide it is
(`lenencIntBytes`), and a text behind its length. The OK, error and EOF
payloads start with a byte of their own, and a row of a result set is one text
per value, NULL being the single byte 0xFB.
-/
import Srrdb.Engine.Types
import Srrdb.Lib.Codec

namespace Srrdb.Protocol

open Srrdb.Lib Srrdb.Engine

/-! ## Reading by position -/

/-- `data[pos]`. -/
def byteAt (data : List UInt8) (pos : Nat) : Outcome UInt8 :=
  match data[pos]? with
  | some b => .ok b
  | none => .error .panic

/-- `data[start..]`. -/
def sliceFrom (data : List UInt8) (start : Nat) : Outcome (List UInt8) :=
  if start ≤ data.length then .ok (data.drop start) else .error .panic

/-- `data[start..start + len]`. -/
def slice (data : List UInt8) (start len : Nat) : Outcome (List UInt8) :=
  if start + len ≤ data.length then .ok ((data.drop start).take len) else .error .panic

/-- `from_le_bytes(data[start..start + w])`. -/
def fromLeBytes (data : List UInt8) (start w : Nat) : Outcome Nat :=
  (slice data start w).map Codec.leValue

theorem slice_append (pre : List UInt8) {data : List UInt8} (rest : List UInt8) {start len : Nat}
    (hstart : pre.length = start) (hlen : data.length = len) :
    slice (pre ++ data ++ rest) start len = .ok data := by
  subst hstart hlen
  have hle : pre.length + data.length ≤ (pre ++ data ++ rest).length := by
    simp only [List.length_append]
    omega
  rw [slice, if_pos hle, List.append_assoc, List.drop_left, List.take_left]

theorem fromLeBytes_append (pre rest : List UInt8) {start w n : Nat} (hstart : pre.length = start)
    (h : n < 256 ^ w) : fromLeBytes (pre ++ Codec.leBytes w n ++ rest) start w = .ok n := by
  rw [fromLeBytes, slice_append pre rest hstart (Codec.length_leBytes w n)]
  exact congrArg Except.ok (Codec.leValue_leBytes_of_lt h)

theorem byteAt_append (pre : List UInt8) (b : UInt8) (rest : List UInt8) {pos : Nat}
    (hpos : pre.length = pos) : byteAt (pre ++ b :: rest) pos = .ok b := by
  subst hpos
  simp [byteAt]

theorem sliceFrom_append (pre rest : List UInt8) :
    sliceFrom (pre ++ rest) pre.length = .ok rest := by
  have hle : pre.length ≤ (pre ++ rest).length := by simp
  rw [sliceFrom, if_pos hle, List.drop_left]

/-! ### Fields after a known beginning -/

theorem slice_of_prefix {pre field data : List UInt8} (h : pre ++ field <+: data) :
    slice data pre.length field.length = .ok field := by
  obtain ⟨rest, rfl⟩ := h
  exact slice_append pre rest rfl rfl

theorem fromLeBytes_of_prefix {pre data : List UInt8} {w n : Nat}
    (h : pre ++ Codec.leBytes w n <+: data) (hn : n < 256 ^ w) :
    fromLeBytes data pre.length w = .ok n := by
  obtain ⟨rest, rfl⟩ := h
  exact fromLeBytes_append pre rest rfl hn

theorem byteAt_of_prefix {pre data : List UInt8} {b : UInt8} (h : pre ++ [b] <+: data) :
    byteAt data pre.length = .ok b := by
  obtain ⟨rest, rfl⟩ := h
  rw [List.append_assoc]
  exact byteAt_append pre b rest rfl

/-! ## Numbers and texts -/

/-- `lenenc_int_bytes`. -/
def lenencIntBytes (v : UInt64) : List UInt8 :=
  if v < 251 then [v.toUInt8]
  else if v < 65536 then 0xFC :: Codec.leBytes 2 v.toNat
  else if v < 16777216 then 0xFD :: Codec.leBytes 3 v.toNat
  else 0xFE :: Codec.leBytes 8 v.toNat

/-- `lenenc_str`. -/
def lenencStr (data : List UInt8) : List UInt8 :=
  lenencIntBytes (.ofNat data.length) ++ data

/-- `str::as_bytes`. -/
def asBytes (s : String) : List UInt8 := s.toUTF8.data.toList

/-! ## OK, error and EOF -/

/-- `SERVER_STATUS_AUTOCOMMIT`. -/
def serverStatusAutocommit : UInt16 := 2

/-- `ok_payload`. -/
def okPayload (affectedRows lastInsertId : UInt64) (status : UInt16) : List UInt8 :=
  0x00 :: lenencIntBytes affectedRows ++ lenencIntBytes lastInsertId ++
    Codec.leBytes 2 status.toNat ++ Codec.leBytes 2 0

/-- `err_payload`. -/
def errPayload (code : UInt16) (message : String) : List UInt8 :=
  0xFF :: Codec.leBytes 2 code.toNat ++ asBytes "#" ++ asBytes "HY000" ++ asBytes message

/-- `eof_payload`. -/
def eofPayload : List UInt8 := 0xFE :: Codec.leBytes 2 2 ++ Codec.leBytes 2 0

/-! ## Result sets -/

/-- `column_count_payload`. -/
def columnCountPayload (count : Nat) : List UInt8 := lenencIntBytes (.ofNat count)

/-- `column_definition_payload`. -/
def columnDefinitionPayload (column : Column) : List UInt8 :=
  lenencStr (asBytes "def") ++ lenencStr (asBytes "") ++
    lenencStr (asBytes column.table) ++ lenencStr (asBytes column.table) ++
    lenencStr (asBytes column.name) ++ lenencStr (asBytes column.name) ++
    0x0C :: Codec.leBytes 2 column.charset.toNat ++
    Codec.leBytes 4 column.columnLength.toNat ++
    column.colType.code :: Codec.leBytes 2 column.flags.toNat ++
    column.decimals :: [0, 0]

/-- The bytes `text_row_payload` sends for a value; none for NULL. -/
def textForm : Value → Option (List UInt8)
  | .null => none
  | .int v => some (asBytes (Value.int v).toString)
  | .uint v => some (asBytes (Value.uint v).toString)
  | .float v => some (asBytes (Value.float v).toString)
  | .double v => some (asBytes (Value.double v).toString)
  | .bytes b => some b
  | .text s => some (asBytes s)

/-- A cell of `text_row_payload`. -/
def cellPayload (cell : Option (List UInt8)) : List UInt8 :=
  match cell with
  | none => [0xFB]
  | some text => lenencStr text

/-- `text_row_payload`. -/
def textRowPayload (values : List Value) : List UInt8 :=
  values.flatMap fun val => cellPayload (textForm val)

end Srrdb.Protocol
