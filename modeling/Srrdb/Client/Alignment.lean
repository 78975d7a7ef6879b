/-
Srrdb.Client.Alignment — requests and responses of the built-in client.

The client sends one text at a time and reads one response before the next
(`Link`). The server answers a text of several statements with one response
for each, in one COM_QUERY; the client reads the first, and the others are
read as the responses of its later calls (`secondAnswer_misread`). While every
text has one answer, and no packet outgrows its header, what the client reads
in a call is what the server wrote for it (`aligned_of_clean`).
-/
import Srrdb.Client.ResultSets
import Srrdb.Lib.Run

namespace Srrdb.Client

open Srrdb.Lib Srrdb.Protocol Srrdb.Engine Srrdb.Sql Srrdb.Connection

/-! ## The two parties -/

/-- The server, the bytes on their way, and whether the client is in a call.
`answers` records what the server wrote for each request and `consumed` what
the client read in each call; nothing reads them. -/
structure Link where
  server : Conn
  toServer : List UInt8
  toClient : List UInt8
  waiting : Bool
  answers : List (List Packet)
  consumed : List (List UInt8)

/-- After the login. -/
def Link.start (server : Conn) : Link := ⟨server, [], [], false, [], []⟩

/-- The client sends a text, the server handles a request, or the client reads
its response. -/
inductive Event where
  | send (sql : String)
  | handle (turns : Nat → Turn)
  | receive

section Parties

variable [Host] [ExprDebug] [Bincode] [SqlParser]

/-- What the server does with a request, and what it writes for it. -/
def handled (turns : Nat → Turn) (packet : Packet) (server : Conn) : Conn :=
  handlePacket turns packet { server with written := [] }

/-- One event. A party that has nothing to do waits. -/
def Link.step (link : Link) : Event → Link
  | .send sql =>
    if link.waiting then link
    else { link with
      toServer := link.toServer ++ writePacket (queryPacket sql).seqId (queryPacket sql).payload
      waiting := true }
  | .handle turns =>
    if !link.server.isOpen then link
    else match readPacket link.toServer with
      | none => link
      | some (packet, rest) =>
        let server := handled turns packet link.server
        { link with
          server := server
          toServer := rest
          toClient := link.toClient ++ writePackets server.written
          answers := link.answers ++ [server.written] }
  | .receive =>
    if !link.waiting then link
    else match readResponse link.toClient with
      | none => link
      | some (_, rest) =>
        { link with
          toClient := rest
          waiting := false
          consumed := link.consumed ++ [link.toClient.take (link.toClient.length - rest.length)] }

/-- What the client read in its k-th call is what the server wrote for the k-th
request. -/
def Aligned (link : Link) : Prop :=
  ∀ (k : Nat) (bytes : List UInt8), link.consumed[k]? = some bytes →
    ∃ packets, link.answers[k]? = some packets ∧ bytes = writePackets packets

/-! ## Texts with one answer -/

/-- The payload's length fits its header. -/
def fits (payload : List UInt8) : Bool := payload.length < 2 ^ 24

/-- The client finds the end of the result: no row is empty, and the count of
columns and every packet are small enough. -/
def readable (result : ExecuteResult) : Bool :=
  match result with
  | .rows columns rows => columns.isEmpty ||
    (columns.length < 2 ^ 24 && rows.all (fun row => !row.values.isEmpty) &&
      (resultPayloads (.rows columns rows)).all fits)
  | _ => true

/-- At most one statement is answered: after the first that is, none comes or
the next one panics. -/
def oneAnswer (turns : Nat → Turn) (stmts : List Statement) (c : Conn) : Bool :=
  match stmts with
  | [] => true
  | stmt :: rest =>
    match c.execute (turns 0) stmt with
    | (.error (.err msg), _) => fits (errPayload 1064 msg)
    | (.error .panic, _) => true
    | (.ok result, c) => readable result &&
      match rest with
      | [] => true
      | next :: _ => ((c.answer result).execute (turns 1) next).1 = .error .panic

/-- The server answers the text at most once. -/
def cleanText (turns : Nat → Turn) (sql : String) (c : Conn) : Bool :=
  match parseSql sql with
  | .error msg => fits (errPayload 1064 msg)
  | .ok stmts => oneAnswer turns stmts c

/-- A text fits a packet; a text the server takes up is answered once. -/
def cleanEvent (link : Link) : Event → Bool
  | .send sql => fits (queryPacket sql).payload
  | .handle turns =>
    match readPacket link.toServer with
    | none => true
    | some (packet, _) =>
      match parseCommand packet.payload with
      | .ok (.query sql) =>
        cleanText turns sql { link.server with seq := packet.seqId + 1, written := [] }
      | _ => true
  | .receive => true

end Parties

/-! ## One answer is one response -/

/-- The client reads these packets as one response, or there are none. -/
def OneResponse (packets : List Packet) : Prop :=
  packets = [] ∨ ∃ r, readResponse (writePackets packets) = some (r, [])

theorem fits_iff {payload : List UInt8} : fits payload = true ↔ payload.length < 2 ^ 24 :=
  decide_eq_true_iff

/-- An OK or an error is a response. -/
theorem oneResponse_single {seq first : UInt8} {tail : List UInt8}
    (hfits : fits (first :: tail) = true) (hfirst : first = 0x00 ∨ first = 0xFF) :
    OneResponse [⟨seq, first :: tail⟩] := by
  have hread : nextPacket (writePackets [⟨seq, first :: tail⟩]) =
      some (.ok ⟨seq, first :: tail⟩, []) :=
    reads_nextPacket seq (fits_iff.mp hfits) []
  right
  rcases hfirst with rfl | rfl
  · refine ⟨okResult (0x00 :: tail), ?_⟩
    show Reader.andThen nextPacket _ _ = _
    rw [Reader.andThen, hread]
    rfl
  · refine ⟨errorResult (0xFF :: tail), ?_⟩
    show Reader.andThen nextPacket _ _ = _
    rw [Reader.andThen, hread]
    rfl

theorem length_lenencIntBytes_le (v : UInt64) : (lenencIntBytes v).length ≤ 9 := by
  unfold lenencIntBytes
  split_ifs <;> simp

theorem oneResponse_ok (seq : UInt8) (affected last : UInt64) (status : UInt16) :
    OneResponse [⟨seq, okPayload affected last status⟩] := by
  have haffected := length_lenencIntBytes_le affected
  have hlast := length_lenencIntBytes_le last
  have hlength : (okPayload affected last status).length < 2 ^ 24 := by
    simp only [okPayload, List.length_cons, List.length_append, Codec.length_leBytes]
    omega
  exact oneResponse_single (fits_iff.mpr hlength) (.inl rfl)

theorem oneResponse_err (seq : UInt8) {code : UInt16} {msg : String}
    (hfits : fits (errPayload code msg) = true) : OneResponse [⟨seq, errPayload code msg⟩] :=
  oneResponse_single hfits (.inr rfl)

/-- The packets of a readable result are a response. -/
theorem oneResponse_result (seq : UInt8) {result : ExecuteResult} (h : readable result = true) :
    OneResponse (numbered seq (resultPayloads result)) := by
  cases result with
  | rows columns rows =>
    by_cases hcolumns : columns = []
    · subst hcolumns
      exact oneResponse_ok seq 0 0 serverStatusAutocommit
    · simp only [readable, Bool.or_eq_true, Bool.and_eq_true, List.isEmpty_iff, hcolumns, false_or,
        decide_eq_true_eq, List.all_eq_true, Bool.not_eq_true', List.isEmpty_eq_false_iff] at h
      obtain ⟨⟨hcount, hrows⟩, hshort⟩ := h
      have hread : Reader.Reads readResponse
          (writePackets (numbered seq (resultPayloads (.rows columns rows)))) _ :=
        reads_readResponse_rows hcolumns hcount hrows fun payload hmem =>
          fits_iff.mp (hshort payload hmem)
      have hall := hread []
      rw [List.append_nil] at hall
      exact .inr ⟨_, hall⟩
  | affected rows lastInsertId => exact oneResponse_ok seq _ _ _
  | databaseChanged name => exact oneResponse_ok seq _ _ _
  | ok => exact oneResponse_ok seq _ _ _

/-! ## One text is one response -/

theorem answer_written (c : Conn) (result : ExecuteResult) :
    (c.answer result).written = c.written ++ numbered c.seq (resultPayloads result) := by
  cases result <;> simp [Conn.answer, Conn.sendAll_eq, Conn.setDatabase]

section Parties

variable [Host] [ExprDebug] [Bincode]

/-- What is written when the loop over the statements ends: a response, or
nothing yet when an error is still to be sent. -/
theorem written_runStatements {turns : Nat → Turn} {stmts : List Statement} {c : Conn}
    (hclean : oneAnswer turns stmts c = true) (hstmts : stmts ≠ []) (hwritten : c.written = []) :
    match runStatements turns stmts c with
    | (.error (.err msg), c') => c'.written = [] ∧ fits (errPayload 1064 msg) = true
    | (_, c') => OneResponse c'.written := by
  obtain ⟨stmt, rest, rfl⟩ := List.exists_cons_of_ne_nil hstmts
  have hexecute : (c.execute (turns 0) stmt).2.written = [] := hwritten
  rw [oneAnswer] at hclean
  rw [runStatements]
  split at hclean
  · next msg c' heq =>
    rw [heq] at hexecute ⊢
    exact ⟨hexecute, hclean⟩
  · next c' heq =>
    rw [heq] at hexecute ⊢
    exact .inl hexecute
  · next result c' heq =>
    rw [heq] at hexecute ⊢
    simp only [Bool.and_eq_true] at hclean
    obtain ⟨hreadable, hrest⟩ := hclean
    have hanswer : OneResponse (c'.answer result).written := by
      rw [answer_written, hexecute]
      exact oneResponse_result c'.seq hreadable
    cases rest with
    | nil => exact hanswer
    | cons next more =>
      have hpanic := of_decide_eq_true hrest
      have hnext : OneResponse ((c'.answer result).execute (turns 1) next).2.written := hanswer
      simp only [runStatements]
      rcases hexec : (c'.answer result).execute (turns 1) next with ⟨outcome, c''⟩
      rw [hexec] at hpanic hnext
      cases hpanic
      exact hnext

variable [SqlParser]

/-- What the server writes for a clean text is one response. -/
theorem oneResponse_query {turns : Nat → Turn} {sql : String} {c : Conn}
    (hclean : cleanText turns sql c = true) (hwritten : c.written = []) :
    OneResponse (runCommand turns (.query sql) c).written := by
  unfold cleanText at hclean
  cases hparse : parseSql sql with
  | error msg =>
    rw [hparse] at hclean
    simp only [runCommand, handleQuery, hparse, Conn.send, hwritten]
    exact oneResponse_err _ hclean
  | ok stmts =>
    rw [hparse] at hclean
    by_cases hstmts : stmts = []
    · subst hstmts
      simp only [runCommand, handleQuery, hparse, List.isEmpty_nil, if_true, Conn.send, hwritten]
      exact oneResponse_ok _ _ _ _
    · have hquery : handleQuery turns sql c = runStatements turns stmts c := by
        simp [handleQuery, hparse, hstmts]
      have hran := written_runStatements hclean hstmts hwritten
      simp only [runCommand, hquery]
      split
      · next heq =>
        rw [heq] at hran
        exact hran
      · next heq =>
        rw [heq] at hran
        simp only [Conn.send, hran.1]
        exact oneResponse_err _ hran.2
      · next heq =>
        rw [heq] at hran
        exact hran

omit [Host] [ExprDebug] [Bincode] [SqlParser] in
theorem parseCommand_queryPacket (sql : String) :
    parseCommand (queryPacket sql).payload = .ok (.query sql) := by
  show (fromUtf8 (asBytes sql)).map Command.query = _
  rw [fromUtf8_asBytes]
  rfl

omit [Host] [ExprDebug] [Bincode] [SqlParser] in
/-- A text that fits a packet is the packet read. -/
theorem readPacket_text {sql : String} (hfits : fits (queryPacket sql).payload = true) :
    readPacket (writePacket (queryPacket sql).seqId (queryPacket sql).payload) =
      some (queryPacket sql, []) := by
  have h := readPacket_writePacket (queryPacket sql).seqId (fits_iff.mp hfits) []
  rw [List.append_nil] at h
  exact h

/-! ## Runs -/

/-- Where a call of the client is. -/
inductive Phase (link : Link) : Prop
  | idle (hwaiting : link.waiting = false) (hserver : link.toServer = [])
      (hclient : link.toClient = []) (hcount : link.answers.length = link.consumed.length)
  | asked (sql : String) (hwaiting : link.waiting = true)
      (hserver : link.toServer = writePacket (queryPacket sql).seqId (queryPacket sql).payload)
      (hfits : fits (queryPacket sql).payload = true) (hclient : link.toClient = [])
      (hcount : link.answers.length = link.consumed.length)
  | answered (packets : List Packet) (hwaiting : link.waiting = true) (hserver : link.toServer = [])
      (hanswer : link.answers[link.consumed.length]? = some packets)
      (hclient : link.toClient = writePackets packets) (hresponse : OneResponse packets)
      (hcount : link.answers.length = link.consumed.length + 1)

/-- The invariant of a clean run. -/
structure InStep (link : Link) : Prop where
  phase : Phase link
  aligned : Aligned link

omit [Host] [ExprDebug] [Bincode] [SqlParser] in
theorem inStep_start (server : Conn) : InStep (.start server) :=
  ⟨.idle rfl rfl rfl rfl, fun k bytes h => by cases h⟩

omit [Host] [ExprDebug] [Bincode] [SqlParser] in
/-- Another answer leaves the calls that are over as they are. -/
theorem Aligned.answer {link link' : Link} (h : Aligned link) (packets : List Packet)
    (hconsumed : link'.consumed = link.consumed) (hanswers : link'.answers = link.answers ++ [packets]) :
    Aligned link' := by
  intro k bytes hk
  rw [hconsumed] at hk
  obtain ⟨answer, hget, hbytes⟩ := h k bytes hk
  refine ⟨answer, ?_, hbytes⟩
  rw [hanswers, List.getElem?_append_left (List.getElem?_eq_some_iff.mp hget).1]
  exact hget

theorem inStep_send {link : Link} (h : InStep link) {sql : String}
    (hfits : fits (queryPacket sql).payload = true) : InStep (link.step (.send sql)) := by
  cases hwaiting : link.waiting with
  | true => simpa [Link.step, hwaiting] using h
  | false =>
    obtain ⟨hphase, haligned⟩ := h
    simp only [Link.step, hwaiting]
    refine ⟨?_, haligned⟩
    cases hphase with
    | idle _ hserver hclient hcount =>
      exact .asked sql rfl (by simp [hserver]) hfits hclient hcount
    | asked _ hbusy => simp [hwaiting] at hbusy
    | answered _ hbusy => simp [hwaiting] at hbusy

theorem inStep_handle {link : Link} (h : InStep link) {turns : Nat → Turn}
    (hclean : cleanEvent link (.handle turns) = true) : InStep (link.step (.handle turns)) := by
  cases hopen : link.server.isOpen with
  | false => simpa [Link.step, hopen] using h
  | true =>
    have hquiet : link.toServer = [] → InStep (link.step (.handle turns)) := by
      intro hserver
      simpa [Link.step, hopen, hserver, readPacket] using h
    obtain ⟨hphase, haligned⟩ := h
    cases hphase with
    | idle _ hserver => exact hquiet hserver
    | answered _ _ hserver => exact hquiet hserver
    | asked sql hwaiting hserver hfits hclient hcount =>
      have hread : readPacket link.toServer = some (queryPacket sql, []) := by
        rw [hserver, readPacket_text hfits]
      have hresponse : OneResponse (handled turns (queryPacket sql) link.server).written := by
        simp only [cleanEvent, hread, parseCommand_queryPacket] at hclean
        simp only [handled, handlePacket, parseCommand_queryPacket]
        exact oneResponse_query hclean rfl
      simp only [Link.step, hopen, hread]
      refine ⟨.answered _ hwaiting rfl ?_ (by simp [hclient]) hresponse (by simp [hcount]),
        haligned.answer _ rfl rfl⟩
      simp [← hcount]

theorem inStep_receive {link : Link} (h : InStep link) : InStep (link.step .receive) := by
  have hquiet : link.toClient = [] → InStep (link.step .receive) := by
    intro hclient
    have hnone : readResponse [] = none := rfl
    simp only [Link.step, hclient, hnone]
    split
    · exact h
    · exact h
  obtain ⟨hphase, haligned⟩ := h
  cases hphase with
  | idle hwaiting hserver hclient hcount => exact hquiet hclient
  | asked _ _ _ _ hclient => exact hquiet hclient
  | answered packets hwaiting hserver hanswer hclient hresponse hcount =>
    rcases hresponse with rfl | ⟨r, hread⟩
    · exact hquiet hclient
    · rw [← hclient] at hread
      simp only [Link.step, hwaiting, hread, Bool.not_true, Bool.false_eq_true, if_false]
      refine ⟨.idle rfl hserver rfl (by simp [hcount]), fun k bytes hk => ?_⟩
      rcases Nat.lt_trichotomy k link.consumed.length with hlt | rfl | hgt
      · rw [List.getElem?_append_left hlt] at hk
        exact haligned k bytes hk
      · refine ⟨packets, hanswer, ?_⟩
        simp only [List.getElem?_concat_length, Option.some.injEq] at hk
        rw [← hk, ← hclient]
        simp
      · rw [List.getElem?_eq_none (by simp; omega)] at hk
        cases hk

theorem inStep_step {link : Link} (h : InStep link) (event : Event)
    (hclean : cleanEvent link event = true) : InStep (link.step event) := by
  cases event with
  | send sql => exact inStep_send h hclean
  | handle turns => exact inStep_handle h hclean
  | receive => exact inStep_receive h

/-- In a run of clean events the client reads in every call what the server
wrote for it, whenever the run is looked at. -/
theorem aligned_of_clean (server : Conn) (events : List Event)
    (hclean : Every Link.step (fun link event => cleanEvent link event = true) (.start server)
      events) (n : Nat) : Aligned ((events.take n).foldl Link.step (.start server)) := by
  have hstep : ∀ link event, InStep link → cleanEvent link event = true →
      InStep (link.step event) := fun _ event h hevent => inStep_step h event hevent
  exact (Every.foldl_invariant hstep (inStep_start server) (hclean.take n)).aligned

end Parties

/-! ## Two answers for one text -/

section Concrete

attribute [local instance] asciiHost plainDebug bincode1

/-- `DROP TABLE t`, and otherwise `USE srrdb; USE srrdb`. -/
@[reducible] def twoTexts : SqlParser where
  parseSql sql :=
    if sql = "DROP TABLE t" then .ok [dropTableNamed "t"]
    else .ok [.use (.object ["srrdb"]), .use (.object ["srrdb"])]

attribute [local instance] twoTexts

/-- A connection to an empty server. -/
def freshConn : Conn := ⟨.newWithUser ⟨"root", none⟩, 3, [], [], .ofMemory .new none, true⟩

/-- One call of the client, with nothing else going on. -/
def callOf (sql : String) : List Event :=
  [.send sql, .handle fun _ => ⟨plainEnv, fun _ e => e⟩, .receive]

/-- Two calls whose texts have one statement each. -/
theorem twoDrops_aligned :
    Aligned (((callOf "DROP TABLE t" ++ callOf "DROP TABLE t").take 6).foldl Link.step
      (.start freshConn)) :=
  aligned_of_clean freshConn (callOf "DROP TABLE t" ++ callOf "DROP TABLE t") (by decide +kernel) 6

/-- Two calls, the first with two statements. -/
def twoCalls : Link :=
  (callOf "USE srrdb; USE srrdb" ++ callOf "DROP TABLE t").foldl Link.step (.start freshConn)

/-- The client is told that the DROP TABLE went well, which failed. -/
theorem secondAnswer_misread :
    twoCalls.answers[1]? = some [⟨1, errPayload 1064 "Unknown table: t"⟩] ∧
      twoCalls.consumed[1]? = some (writePacket 2 plainOk) ∧ ¬ Aligned twoCalls := by
  have hanswer : twoCalls.answers[1]? = some [⟨1, errPayload 1064 "Unknown table: t"⟩] := by
    decide +kernel
  have hconsumed : twoCalls.consumed[1]? = some (writePacket 2 plainOk) := by decide +kernel
  refine ⟨hanswer, hconsumed, fun h => ?_⟩
  obtain ⟨packets, hget, hbytes⟩ := h 1 _ hconsumed
  rw [hanswer] at hget
  cases hget
  revert hbytes
  decide +kernel

end Concrete

end Srrdb.Client
