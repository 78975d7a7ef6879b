/-
Srrdb.Client.Shell — the prompt of the built-in client (`client.rs`,
`run_client` from its loop on, `run_schema`, `parse_use_db`).

Lines are entered until one ends with a semicolon and are sent as one text;
`source` cuts a file at every semicolon and sends the pieces; `schema` sends
texts of its own. What is sent depends on the lines alone (`requests`), so a
run is a list of texts. The client remembers a database when a text it is about
to send looks like a USE (`parse_use_db`). The server reads what packets it can
from the bytes it has been sent; its answers are not read here.

`Shell.sent` records the texts, nothing reads it.
-/
import Srrdb.Client.Query
import Srrdb.Lib.Pieces
import Srrdb.Server.Connection

namespace Srrdb.Client

open Srrdb.Lib Srrdb.Protocol Srrdb.Engine Srrdb.Sql Srrdb.Connection

/-! ## Strings -/

/-- `char::is_whitespace`, the property `White_Space` of Unicode. -/
def isWhitespace (c : Char) : Bool :=
  let n := c.toNat
  9 ≤ n && n ≤ 13 || n = 0x20 || n = 0x85 || n = 0xA0 || n = 0x1680 || 0x2000 ≤ n && n ≤ 0x200A ||
    n = 0x2028 || n = 0x2029 || n = 0x202F || n = 0x205F || n = 0x3000

/-- `str::trim`. -/
def trim (s : String) : String := .ofList (strip isWhitespace s.toList)

/-- `str::trim_end_matches`. -/
def trimEndMatches (s : String) (c : Char) : String := .ofList (s.toList.rdropWhile (· = c))

/-- `str::trim_matches`. -/
def trimMatches (s : String) (c : Char) : String := .ofList (strip (· = c) s.toList)

/-- `str::strip_prefix`. -/
def stripPrefix (s pre : String) : Option String :=
  if startsWith s pre then some (.ofList (s.toList.drop pre.length)) else none

/-- The characters from a byte on, unless it is inside one. -/
def charsFrom : List Char → Nat → Option (List Char)
  | cs, 0 => some cs
  | [], _ + 1 => none
  | c :: cs, n + 1 => if c.utf8Size ≤ n + 1 then charsFrom cs (n + 1 - c.utf8Size) else none

/-- `s[start..]`, which panics when the byte is not on the boundary of a character. -/
def strFrom (s : String) (start : Nat) : Outcome String :=
  match charsFrom s.toList start with
  | some cs => .ok (.ofList cs)
  | none => .error .panic

/-- The quotes `parse_use_db` and `source` take off. -/
def backquote : Char := Char.ofNat 96
def singleQuote : Char := Char.ofNat 39
def doubleQuote : Char := Char.ofNat 34

/-! ## Texts -/

/-- `parse_use_db`. -/
def parseUseDb [Host] (sql : String) : Outcome (Option String) :=
  let s := trim (trimEndMatches (trim sql) ';')
  let upper := toUppercase s
  if startsWith upper "USE " then do
    let rest ← strFrom s 4
    let name := trimMatches (trimMatches (trimMatches (trim rest) backquote) singleQuote)
      doubleQuote
    return if name.isEmpty then none else some name
  else return none

/-- The statements of `source`: the file cut at every semicolon, blank pieces
left out. -/
def sourceQueries (content : String) : List String :=
  ((content.toList.splitOn ';').map fun statement => trim (.ofList statement)).filter
    fun stmt => !stmt.isEmpty

/-- A text to send: whether `parse_use_db` looks at it, and what else happens
while the server handles it, by packet and by statement. -/
structure Request where
  sql : String
  entered : Bool
  turns : Nat → Nat → Turn

/-- A line entered, with the files there are, the table names that `schema`
reads, and what else happens while its texts are handled. -/
structure Entry where
  line : String
  readFile : String → Option String
  tables : List String
  turns : Nat → Nat → Nat → Turn

/-- The texts of a line, in order. -/
def Entry.texts (e : Entry) (entered : Bool) (sqls : List String) : List Request :=
  sqls.mapIdx fun i sql => ⟨sql, entered, e.turns i⟩

/-- One round of the loop: what is sent, and the lines that wait for a semicolon
then; none when the line ends the loop. -/
def readEntry (multiLineBuf : String) (e : Entry) : Option (List Request × String) :=
  let trimmed := trim e.line
  if eqIgnoreAsciiCase trimmed "exit" || eqIgnoreAsciiCase trimmed "quit" ||
      eqIgnoreAsciiCase trimmed "\\q" then none
  else if eqIgnoreAsciiCase (trimEndMatches trimmed ';') "schema" then
    some (e.texts false ("SHOW TABLES" :: e.tables.map ("DESCRIBE " ++ ·)), "")
  else match stripPrefix trimmed "source " with
    | some path =>
      let path := trimMatches (trimMatches (trimEndMatches (trim path) ';') doubleQuote) singleQuote
      match e.readFile path with
      | some content => some (e.texts true (sourceQueries content), "")
      | none => some ([], "")
    | none =>
      if trimmed.isEmpty then some ([], multiLineBuf)
      else
        let buf := multiLineBuf ++ trimmed ++ " "
        if trimmed.toList.getLast? = some ';' then some (e.texts true [trim buf], "")
        else some ([], buf)

/-- What is sent for the lines from a prompt on. -/
def requests : String → List Entry → List Request
  | _, [] => []
  | multiLineBuf, e :: rest =>
    match readEntry multiLineBuf e with
    | none => []
    | some (texts, multiLineBuf) => texts ++ requests multiLineBuf rest

/-- What the client relies on when it cuts off `USE `: no character whose uppercase
form is part of it reaches over the fourth byte. -/
def BoundaryAfterUse [Host] : Prop :=
  ∀ s, startsWith (toUppercase s) "USE " = true → ∃ rest, strFrom s 4 = .ok rest

theorem parseUseDb_ok [Host] (h : BoundaryAfterUse) (sql : String) :
    ∃ db, parseUseDb sql = .ok db := by
  unfold parseUseDb
  simp only
  split
  · next hstart =>
    obtain ⟨rest, hrest⟩ := h _ hstart
    rw [hrest]
    exact ⟨_, rfl⟩
  · exact ⟨none, rfl⟩

/-! ## Client and server -/

/-- The client, the server, and the bytes on their way to it. -/
structure Shell where
  currentDb : Option String
  server : Conn
  toServer : List UInt8
  sent : List String
  running : Bool

/-- After the login. -/
def Shell.start (server : Conn) : Shell := ⟨none, server, [], [], true⟩

/-- All packets that are complete, and the bytes after them. Every packet takes
bytes, so the length of the stream bounds the rounds. -/
def takePackets : Nat → List UInt8 → List Packet × List UInt8
  | 0, stream => ([], stream)
  | fuel + 1, stream =>
    match readPacket stream with
    | none => ([], stream)
    | some (packet, rest) => (packet :: (takePackets fuel rest).1, (takePackets fuel rest).2)

section Parties

variable [Host] [ExprDebug] [Bincode] [SqlParser]

/-- `execute_query` as far as it sends, and what the server makes of it. -/
def Shell.executeQuery (s : Shell) (sql : String) (turns : Nat → Nat → Turn) : Shell :=
  let stream := s.toServer ++ writePacket (queryPacket sql).seqId (queryPacket sql).payload
  let (packets, rest) := takePackets stream.length stream
  { s with
    server := handlePackets (packets.mapIdx fun i packet => ⟨packet, turns i⟩) s.server
    toServer := rest
    sent := s.sent ++ [sql] }

omit [ExprDebug] [Bincode] [SqlParser] in
/-- The database the client takes a text for a USE of. -/
def Request.usedDb (r : Request) : Outcome (Option String) :=
  if r.entered then parseUseDb r.sql else .ok none

/-- One text: `current_db` is set before it is sent. A panic ends the client. -/
def Shell.request (s : Shell) (r : Request) : Shell :=
  if !s.running then s
  else match r.usedDb with
    | .error _ => { s with running := false }
    | .ok db => ({ s with currentDb := db.or s.currentDb } : Shell).executeQuery r.sql r.turns

/-- `source` on a file that could be read. -/
def Shell.source (s : Shell) (e : Entry) (content : String) : Shell :=
  (e.texts true (sourceQueries content)).foldl Shell.request s

end Parties

end Srrdb.Client
