/-
Srrdb.Server.Connection — one connection (`server/connection.rs`,
`server/session.rs`, `protocol/command.rs`).

A connection is its session, what it has sent and the server it shares with
the others. The SQL parser comes from a crate and is a parameter. A statement
runs among the sections of other connections (`Turn`); a text of several
statements runs them one after the other, each answered by packets of its own,
until one fails. A panic ends the connection without an answer.

`Conn.calls` records what the connection asks of the executor; nothing reads it.
-/
import Srrdb.Engine.Outcomes
import Srrdb.Protocol.Frame
import Srrdb.Protocol.Handshake

namespace Srrdb.Connection

open Srrdb.Lib Srrdb.Engine Srrdb.Sql Srrdb.Protocol

/-! ## Sessions and commands -/

/-- `struct User`. -/
structure User where
  name : String
  passwordHash : Option (List UInt8)
  deriving DecidableEq, Repr

/-- `struct Session`. -/
structure Session where
  user : User
  database : String
  deriving DecidableEq, Repr

/-- `Session::new_with_user`. -/
def Session.newWithUser (user : User) : Session := ⟨user, "srrdb"⟩

/-- `enum Command`. -/
inductive Command where
  | quit
  | initDb (db : String)
  | query (sql : String)
  | ping
  | unknown (id : UInt8) (args : List UInt8)
  deriving DecidableEq, Repr

/-- `parse_command`. -/
def parseCommand (payload : List UInt8) : Outcome Command :=
  match payload with
  | [] => .error (.err "empty command packet")
  | id :: args =>
    if id = 1 then .ok .quit
    else if id = 2 then (fromUtf8 args).map .initDb
    else if id = 3 then (fromUtf8 args).map .query
    else if id = 14 then .ok .ping
    else .ok (.unknown id args)

/-! ## Answers -/

/-- Packets with rising sequence ids. -/
def numbered : UInt8 → List (List UInt8) → List Packet
  | _, [] => []
  | seq, payload :: rest => ⟨seq, payload⟩ :: numbered (seq + 1) rest

/-- An OK without numbers. -/
def plainOk : List UInt8 := okPayload 0 0 serverStatusAutocommit

/-- What `handle_query` writes for the result of a statement. -/
def resultPayloads : ExecuteResult → List (List UInt8)
  | .rows columns rows =>
    if columns.isEmpty then [plainOk]
    else columnCountPayload columns.length :: columns.map columnDefinitionPayload ++
      eofPayload :: rows.map (fun row => textRowPayload row.values) ++ [eofPayload]
  | .affected rows lastInsertId =>
    [okPayload (.ofNat rows) (.ofNat lastInsertId) serverStatusAutocommit]
  | .databaseChanged _ => [plainOk]
  | .ok => [plainOk]

/-! ## Connections -/

/-- What happens during a call of the executor besides it: its environment, and
what the other connections do before each of its sections. -/
structure Turn where
  env : Env
  others : Nat → Executor → Executor

/-- A call of the executor and what it came to. -/
inductive ExecutorCall where
  | executed (db : String) (stmt : Statement) (result : Outcome ExecuteResult)
  | databaseExists (db : String) (answer : Bool)

/-- A connection. -/
structure Conn where
  session : Session
  seq : UInt8
  written : List Packet
  calls : List ExecutorCall
  shared : Executor
  isOpen : Bool

namespace Conn

/-- `write_packet`, and the next sequence id. -/
def send (c : Conn) (payload : List UInt8) : Conn :=
  { c with written := c.written ++ [⟨c.seq, payload⟩], seq := c.seq + 1 }

/-- Payloads sent in a row. -/
def sendAll (c : Conn) (payloads : List (List UInt8)) : Conn := payloads.foldl send c

theorem sendAll_eq (c : Conn) (payloads : List (List UInt8)) :
    c.sendAll payloads = { c with
      written := c.written ++ numbered c.seq payloads
      seq := c.seq + UInt8.ofNat payloads.length } := by
  induction payloads generalizing c with
  | nil => simp [sendAll, numbered]
  | cons payload rest ih =>
    have hseq : c.seq + 1 + UInt8.ofNat rest.length = c.seq + UInt8.ofNat (rest.length + 1) := by
      rw [UInt8.ofNat_add, UInt8.add_assoc, UInt8.add_comm 1]
      rfl
    show (c.send payload).sendAll rest = _
    rw [ih, send, List.append_assoc, hseq, List.length_cons]
    rfl

/-- The connection ends. -/
def close (c : Conn) : Conn := { c with isOpen := false }

/-- The session goes to another database. -/
def setDatabase (c : Conn) (db : String) : Conn :=
  { c with session := { c.session with database := db } }

/-- A call of the executor has ended. -/
def called (c : Conn) (call : ExecutorCall) (shared : Executor) : Conn :=
  { c with calls := c.calls ++ [call], shared := shared }

end Conn

/-- `Parser::parse_sql` with the MySQL dialect; an error is its text. -/
class SqlParser where
  parseSql : String → Except String (List Statement)

export SqlParser (parseSql)

section Handlers

variable [Host] [ExprDebug] [Bincode]

/-- `executor.execute(&session.database, statement)`. -/
def Conn.execute (c : Conn) (turn : Turn) (stmt : Statement) : Outcome ExecuteResult × Conn :=
  let r := (Call.program ⟨turn.env, c.session.database, stmt⟩).among turn.others c.shared
  (r.1, c.called (.executed c.session.database stmt r.1) r.2)

omit [ExprDebug] [Bincode] in
/-- `executor.database_exists(&db)`. A poisoned catalog has no databases. -/
def Conn.databaseExists (c : Conn) (turn : Turn) (db : String) : Bool × Conn :=
  let r := (ExceptT.run (Engine.databaseExists db)).among turn.others c.shared
  let answer := match r.1 with
    | .ok answer => answer
    | .error _ => false
  (answer, c.called (.databaseExists db answer) r.2)

omit [Host] [ExprDebug] [Bincode] in
/-- `DatabaseChanged` moves the session, the packets are those of the result. -/
def Conn.answer (c : Conn) (result : ExecuteResult) : Conn :=
  match result with
  | .databaseChanged newDb => (c.setDatabase newDb).sendAll (resultPayloads result)
  | _ => c.sendAll (resultPayloads result)

/-- The loop of `handle_query` over the statements of a text. -/
def runStatements (turns : Nat → Turn) : List Statement → Conn → Outcome Unit × Conn
  | [], c => (.ok (), c)
  | stmt :: rest, c =>
    match c.execute (turns 0) stmt with
    | (.error stop, c) => (.error stop, c)
    | (.ok result, c) => runStatements (fun n => turns (n + 1)) rest (c.answer result)

variable [SqlParser]

/-- `handle_query`. -/
def handleQuery (turns : Nat → Turn) (sql : String) (c : Conn) : Outcome Unit × Conn :=
  match parseSql sql with
  | .error msg => (.error (.err msg), c)
  | .ok statements =>
    if statements.isEmpty then (.ok (), c.send plainOk)
    else runStatements turns statements c

/-- A command of the loop of `handle_connection`. -/
def runCommand (turns : Nat → Turn) (cmd : Command) (c : Conn) : Conn :=
  match cmd with
  | .quit => c.close
  | .ping => c.send plainOk
  | .initDb db =>
    match c.databaseExists (turns 0) db with
    | (true, c) => (c.setDatabase db).send plainOk
    | (false, c) => c.send (errPayload 1049 "Unknown database")
  | .query sql =>
    match handleQuery turns sql c with
    | (.ok (), c) => c
    | (.error (.err msg), c) => c.send (errPayload 1064 msg)
    | (.error .panic, c) => c.close
  | .unknown id _ =>
    if id = 27 then c.send plainOk
    else c.send (errPayload 1045 s!"Unknown command: {id}")

/-- One packet of the loop of `handle_connection`. -/
def handlePacket (turns : Nat → Turn) (packet : Packet) (c : Conn) : Conn :=
  let c := { c with seq := packet.seqId + 1 }
  match parseCommand packet.payload with
  | .ok cmd => runCommand turns cmd c
  | .error (.err msg) => c.send (errPayload 1064 msg)
  | .error .panic => c.close

/-- A packet of the client, with what happens while it is handled. -/
structure Step where
  packet : Packet
  turns : Nat → Turn

/-- The loop of `handle_connection`. A connection that has ended reads nothing. -/
def handlePackets : List Step → Conn → Conn
  | [], c => c
  | step :: rest, c =>
    if c.isOpen then handlePackets rest (handlePacket step.turns step.packet c) else c

end Handlers

/-! ## Login -/

section Login

variable [Sha1]

/-- `User::with_password`. -/
def User.withPassword (name password : String) : User := ⟨name, some (hashNativePassword password)⟩

/-- `User::new`. -/
def User.new (name : String) : User := ⟨name, none⟩

/-- What `handle_connection` advertises. -/
def serverCapabilities : UInt32 :=
  clientProtocol41 ||| clientSecureConnection ||| clientPluginAuth ||| clientConnectWithDb |||
    clientMultiResults ||| clientPsMultiResults ||| clientLongPassword ||| clientTransactions

/-- The first packet of the server. -/
def serverHandshake (scramble : Scramble) : List UInt8 :=
  buildHandshake 1 scramble serverCapabilities 45

/-- The user of a response; none when the password is refused. -/
def authenticate (defaultPassword : Option String) (scramble : Scramble)
    (response : HandshakeResponse) : Option User :=
  match defaultPassword with
  | some password =>
    let user := User.withPassword response.username password
    let valid := match user.passwordHash with
      | some storedHash => verifyNativePasswordHash storedHash scramble response.authResponse
      | none => false
    if valid then some user else none
  | none => some (.new response.username)

/-- `handle_connection` up to its loop, from the answer to the handshake on. -/
def login (defaultPassword : Option String) (scramble : Scramble) (packet : Packet)
    (shared : Executor) : Conn :=
  let start : Conn := ⟨.newWithUser (.new ""), 2, [⟨0, serverHandshake scramble⟩], [], shared, true⟩
  match parseHandshakeResponse packet.payload with
  | .error _ => start.close
  | .ok response =>
    match authenticate defaultPassword scramble response with
    | none => (start.send (errPayload 1045 "Access denied for user")).close
    | some user => ({ start with session := .newWithUser user }).send plainOk

end Login

end Srrdb.Connection
