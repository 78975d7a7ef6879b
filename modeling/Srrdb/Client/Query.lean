/-
Srrdb.Client.Query — what the built-in client makes of a response
(`client.rs`, `parse_lenenc_int` to `execute_query`).

A response is read from the connection packet by packet, as much of it as its
first packet asks for: one packet for OK, error and EOF, and otherwise the
columns that the first packet counts, a packet that is skipped, and rows up to
a packet that is empty or starts with 0xFE. Bytes that run out while a payload
is taken apart are a panic of the client.
-/
import Srrdb.Protocol.Frame
import Srrdb.Protocol.Payload
import Srrdb.Lib.Reader

namespace Srrdb.Client

open Srrdb.Lib Srrdb.Protocol

/-! ## Payloads -/

/-- `parse_lenenc_int`: the number, and how many bytes it takes. -/
def parseLenencInt (data : List UInt8) : Outcome (UInt64 × Nat) :=
  match data with
  | [] => .ok (0, 0)
  | first :: _ =>
    if first = 0xFB then .ok (0, 1)
    else if first = 0xFC then (fromLeBytes data 1 2).map fun v => (.ofNat v, 3)
    else if first = 0xFD then (fromLeBytes data 1 3).map fun v => (.ofNat v, 4)
    else if first = 0xFE then (fromLeBytes data 1 8).map fun v => (.ofNat v, 9)
    else .ok (first.toUInt64, 1)

/-- `parse_lenenc_str`: the text, and how many bytes it takes. -/
def parseLenencStr (data : List UInt8) : Outcome (List UInt8 × Nat) := do
  let (len, n) ← parseLenencInt data
  let text ← slice data n len.toNat
  return (text, n + len.toNat)

/-- `struct ColumnDef`. -/
structure ColumnDef where
  name : List UInt8
  deriving DecidableEq, Repr

/-- `parse_column_def`. -/
def parseColumnDef (data : List UInt8) : Outcome ColumnDef := do
  let pos := 0
  let (_, n) ← parseLenencStr (← sliceFrom data pos)
  let pos := pos + n
  let (_, n) ← parseLenencStr (← sliceFrom data pos)
  let pos := pos + n
  let (_, n) ← parseLenencStr (← sliceFrom data pos)
  let pos := pos + n
  let (_, n) ← parseLenencStr (← sliceFrom data pos)
  let pos := pos + n
  let (name, _) ← parseLenencStr (← sliceFrom data pos)
  return ⟨name⟩

/-- The cells of a row payload from `pos` on. Every cell takes a byte at
least, so the payload's length bounds the number of rounds. -/
def parseCells (payload : List UInt8) : Nat → Nat → Outcome (List (Option (List UInt8)))
  | 0, _ => .ok []
  | fuel + 1, pos =>
    match payload.drop pos with
    | [] => .ok []
    | first :: rest =>
      if first = 0xFB then do
        let cells ← parseCells payload fuel (pos + 1)
        return none :: cells
      else do
        let (val, n) ← parseLenencStr (first :: rest)
        let cells ← parseCells payload fuel (pos + n)
        return some val :: cells

/-! ## Responses -/

/-- `enum QueryResult`. -/
inductive QueryResult where
  | ok (affectedRows lastInsertId : UInt64)
  | error (code : UInt16) (message : String)
  | resultSet (columns : List ColumnDef) (rows : List (List (Option (List UInt8))))
  deriving DecidableEq, Repr

/-- `read_packet` on the client's connection. -/
def nextPacket : Reader Stop Packet := fun stream =>
  (readPacket stream).map fun (p, rest) => (.ok p, rest)

/-- A column of `execute_query`. -/
def readColumn : Reader Stop ColumnDef := do
  let pkt ← nextPacket
  Reader.lift (parseColumnDef pkt.payload)

/-- `payload.is_empty() || payload[0] == 0xFE`. -/
def endsRows (payload : List UInt8) : Bool := payload.isEmpty || payload.head? = some 0xFE

/-- The rows of `execute_query`. Every packet takes bytes from the stream, so
its length bounds the number of rounds; without fuel the stream is empty, and
the client waits. -/
def readRows : Nat → Reader Stop (List (List (Option (List UInt8))))
  | 0 => fun _ => none
  | fuel + 1 => do
    let pkt ← nextPacket
    if endsRows pkt.payload then pure []
    else
      let row ← Reader.lift (parseCells pkt.payload pkt.payload.length 0)
      let rows ← readRows fuel
      pure (row :: rows)

/-- The loop over the rows. -/
def readAllRows : Reader Stop (List (List (Option (List UInt8)))) := fun stream =>
  readRows stream.length stream

/-- The numbers of an OK payload. -/
def okResult (payload : List UInt8) : Outcome QueryResult := do
  let pos := 1
  let (affectedRows, n) ← parseLenencInt (← sliceFrom payload pos)
  let pos := pos + n
  let (lastInsertId, _) ← parseLenencInt (← sliceFrom payload pos)
  return .ok affectedRows lastInsertId

/-- The code and the text of an error payload. -/
def errorResult (payload : List UInt8) : Outcome QueryResult := do
  let code ← fromLeBytes payload 1 2
  let msg ← sliceFrom payload 3
  return .error (.ofNat code) (fromUtf8Lossy msg)

/-- The rest of a result set, after the packet that counts its columns. -/
def readResultSet (payload : List UInt8) : Reader Stop QueryResult := do
  let (columnCount, _) ← Reader.lift (parseLenencInt payload)
  let columns ← Reader.replicate readColumn columnCount.toNat
  let _eof ← nextPacket
  let rows ← readAllRows
  pure (.resultSet columns rows)

/-- What `execute_query` reads after it has sent its query. -/
def readResponse : Reader Stop QueryResult := do
  let pkt ← nextPacket
  match pkt.payload with
  | [] => Reader.lift (.error (.err "empty response"))
  | first :: _ =>
    if first = 0x00 then Reader.lift (okResult pkt.payload)
    else if first = 0xFF then Reader.lift (errorResult pkt.payload)
    else if first = 0xFE then pure (.ok 0 0)
    else readResultSet pkt.payload

/-- `COM_QUERY`. -/
def comQuery : UInt8 := 3

/-- What `execute_query` sends. -/
def queryPacket (sql : String) : Packet := ⟨0, comQuery :: asBytes sql⟩

end Srrdb.Client
