/-
Srrdb.Server.Conversation — all a connection writes.

The reply to a request is a list of responses: one for every statement that
ended well, in the order they ran, and at most one more (`Reply`). A reader of
the packets that knows of a response only its first byte, and of a result set
only its EOFs, is the state machine `cutResponses`; it cuts every reply into
its responses (`cutResponses_reply`). `conversation` is the transcript of a
whole connection: which packets are written, under which sequence ids, and
when a request has no answer. Before the login, the executor is asked nothing
(`asked_after_login`).
-/
import Srrdb.Client.ResultSets
import Srrdb.Server.SessionDatabase

namespace Srrdb.Connection

open Srrdb.Lib Srrdb.Engine Srrdb.Sql Srrdb.Protocol

/-! ## Cutting packets into responses -/

/-- What a reader of packets is in the middle of. -/
inductive Expecting where
  | response
  | definitions
  | rows

/-- OK and errors are a response of their own. -/
def standsAlone (payload : List UInt8) : Bool :=
  payload.head? == some 0x00 || payload.head? == some 0xFF

/-- One more payload at the front of the first response. -/
def joinFirst (payload : List UInt8) : List (List (List UInt8)) → List (List (List UInt8))
  | [] => [[payload]]
  | response :: rest => (payload :: response) :: rest

/-- The responses in a row of payloads. A payload that does not stand alone
announces a result set, which goes on to its second EOF. -/
def cutResponses : Expecting → List (List UInt8) → List (List (List UInt8))
  | _, [] => []
  | .response, payload :: rest =>
    if standsAlone payload then [payload] :: cutResponses .response rest
    else joinFirst payload (cutResponses .definitions rest)
  | .definitions, payload :: rest =>
    joinFirst payload (cutResponses (if payload = eofPayload then .rows else .definitions) rest)
  | .rows, payload :: rest =>
    if payload = eofPayload then [payload] :: cutResponses .response rest
    else joinFirst payload (cutResponses .rows rest)

/-- The form of a response. -/
inductive Response : List (List UInt8) → Prop
  | alone {payload : List UInt8} (h : standsAlone payload = true) : Response [payload]
  | resultSet {count : List UInt8} {definitions rows : List (List UInt8)}
      (hcount : standsAlone count = false) (hdefinitions : eofPayload ∉ definitions)
      (hrows : eofPayload ∉ rows) :
      Response (count :: definitions ++ eofPayload :: rows ++ [eofPayload])

theorem cutResponses_rows {rows : List (List UInt8)} (h : eofPayload ∉ rows)
    (rest : List (List UInt8)) : cutResponses .rows (rows ++ eofPayload :: rest) =
      (rows ++ [eofPayload]) :: cutResponses .response rest := by
  induction rows with
  | nil => simp [cutResponses]
  | cons row rows ih =>
    rw [List.mem_cons, not_or] at h
    rw [List.cons_append, cutResponses, if_neg (Ne.symm h.1), ih h.2]
    rfl

theorem cutResponses_definitions {definitions rows : List (List UInt8)}
    (h : eofPayload ∉ definitions) (hrows : eofPayload ∉ rows) (rest : List (List UInt8)) :
    cutResponses .definitions (definitions ++ eofPayload :: (rows ++ eofPayload :: rest)) =
      (definitions ++ eofPayload :: (rows ++ [eofPayload])) :: cutResponses .response rest := by
  induction definitions with
  | nil =>
    rw [List.nil_append, cutResponses, if_pos rfl, cutResponses_rows hrows]
    rfl
  | cons definition definitions ih =>
    rw [List.mem_cons, not_or] at h
    rw [List.cons_append, cutResponses, if_neg (Ne.symm h.1), ih h.2]
    rfl

/-- A response is cut off as a whole. -/
theorem Response.cut {response : List (List UInt8)} (h : Response response)
    (rest : List (List UInt8)) :
    cutResponses .response (response ++ rest) = response :: cutResponses .response rest := by
  cases h with
  | alone h =>
    rw [List.singleton_append, cutResponses, if_pos h]
  | @resultSet count definitions rows hcount hdefinitions hrows =>
    simp only [List.cons_append, List.append_assoc, List.nil_append]
    rw [cutResponses, if_neg (by simp [hcount]), cutResponses_definitions hdefinitions hrows]
    rfl

theorem cutResponses_flatten {responses : List (List (List UInt8))}
    (h : ∀ response ∈ responses, Response response) :
    cutResponses .response responses.flatten = responses := by
  induction responses with
  | nil => rfl
  | cons response rest ih =>
    rw [List.flatten_cons, (h response List.mem_cons_self).cut,
      ih fun r hr => h r (List.mem_cons_of_mem _ hr)]

/-! ## The responses of the server -/

theorem standsAlone_columnCount {n : Nat} (hpos : 0 < n) (hsmall : n < 2 ^ 64) :
    standsAlone (columnCountPayload n) = false := by
  obtain ⟨first, tail, heq, -, herr, hzero, -⟩ := Client.lenencIntBytes_head (.ofNat n)
  have hn : (UInt64.ofNat n).toNat = n := by
    rw [UInt64.toNat_ofNat', Nat.mod_eq_of_lt hsmall]
  rw [columnCountPayload, heq, standsAlone]
  simp [herr, hzero (by omega)]

theorem eofPayload_ne_columnDefinition (column : Column) :
    eofPayload ≠ columnDefinitionPayload column := by
  intro h
  have hdef : lenencStr (asBytes "def") = 3 :: asBytes "def" := by decide
  have hhead : (columnDefinitionPayload column).head? = some 3 := by
    simp only [columnDefinitionPayload, List.append_assoc, hdef]
    rfl
  rw [← h] at hhead
  cases hhead

/-- A row is no EOF: a cell that starts like one is longer than one. -/
theorem eofPayload_ne_textRow (values : List Value) : eofPayload ≠ textRowPayload values := by
  intro h
  have hrow : ∀ value rest, textRowPayload (value :: rest) =
      cellPayload (textForm value) ++ textRowPayload rest := fun _ _ => List.flatMap_cons
  cases values with
  | nil => cases h
  | cons value rest =>
    rw [hrow] at h
    cases hcell : textForm value with
    | none =>
      rw [hcell] at h
      cases h
    | some text =>
      rw [hcell, cellPayload, lenencStr, List.append_assoc] at h
      by_cases hlarge : (UInt64.ofNat text.length).toNat < 2 ^ 24
      · obtain ⟨first, tail, heq, -, -, -, hsmall⟩ :=
          Client.lenencIntBytes_head (.ofNat text.length)
        rw [heq] at h
        exact hsmall hlarge (List.head_eq_of_cons_eq h).symm
      · have hlength := congrArg List.length h
        have heof : eofPayload.length = 5 := rfl
        rw [UInt64.toNat_ofNat'] at hlarge
        have hle := Nat.mod_le text.length (2 ^ 64)
        simp only [List.length_append] at hlength
        omega

theorem response_result {result : ExecuteResult}
    (h : ∀ columns rows, result = .rows columns rows → columns.length < 2 ^ 64) :
    Response (resultPayloads result) := by
  cases result with
  | rows columns rows =>
    cases columns with
    | nil => exact .alone rfl
    | cons column columns =>
      have hsmall := h _ _ rfl
      refine .resultSet (standsAlone_columnCount (Nat.succ_pos _) hsmall) (fun hmem => ?_)
        fun hmem => ?_
      · obtain ⟨c, -, hc⟩ := List.mem_map.mp hmem
        exact eofPayload_ne_columnDefinition c hc.symm
      · obtain ⟨row, -, hrow⟩ := List.mem_map.mp hmem
        exact eofPayload_ne_textRow row.values hrow.symm
  | affected rows lastInsertId => exact .alone rfl
  | databaseChanged name => exact .alone rfl
  | ok => exact .alone rfl

/-! ## Replies -/

/-- What is written besides the results of statements. -/
inductive Closing where
  | ok
  | error (code : UInt16) (message : String)

def Closing.payload : Closing → List UInt8
  | .ok => plainOk
  | .error code message => errPayload code message

/-- The reply to a request: the results of the statements that ended well, and
what is written after them. -/
structure Reply where
  results : List ExecuteResult
  closing : Option Closing

def Reply.responses (reply : Reply) : List (List (List UInt8)) :=
  reply.results.map resultPayloads ++ reply.closing.toList.map fun closing => [closing.payload]

/-- Every count of columns fits into the number that announces it. -/
def Reply.Countable (reply : Reply) : Prop :=
  ∀ columns rows, ExecuteResult.rows columns rows ∈ reply.results → columns.length < 2 ^ 64

/-- A reader recovers the responses of a reply from its packets. -/
theorem cutResponses_reply {reply : Reply} (h : reply.Countable) :
    cutResponses .response reply.responses.flatten = reply.responses := by
  refine cutResponses_flatten fun response hmem => ?_
  rcases List.mem_append.mp hmem with hmem | hmem
  · obtain ⟨result, hresult, rfl⟩ := List.mem_map.mp hmem
    refine response_result fun columns rows heq => h columns rows ?_
    rw [← heq]
    exact hresult
  · obtain ⟨closing, -, rfl⟩ := List.mem_map.mp hmem
    cases closing with
    | ok => exact .alone rfl
    | error code message => exact .alone rfl

/-- The result of a call of `execute` that ended well. -/
def ExecutorCall.succeeded : ExecutorCall → Option ExecuteResult
  | .executed _ _ (.ok result) => some result
  | _ => none

/-- What a connection has done between two moments: the responses it has
written, under rising sequence ids, and the statements that ended well. -/
structure Progress (c c' : Conn) (results : List ExecuteResult)
    (responses : List (List (List UInt8))) : Prop where
  written : c'.written = c.written ++ numbered c.seq responses.flatten
  seq : c'.seq = c.seq + .ofNat responses.flatten.length
  calls : ∃ calls, c'.calls = c.calls ++ calls ∧ calls.filterMap (·.succeeded) = results
  user : c'.session.user = c.session.user

variable {c c' c'' : Conn} {results results' : List ExecuteResult}
  {responses responses' : List (List (List UInt8))}

theorem Progress.refl (c : Conn) : Progress c c [] [] where
  written := by simp [numbered]
  seq := by simp
  calls := ⟨[], by simp, rfl⟩
  user := rfl

theorem Progress.trans (h : Progress c c' results responses)
    (h' : Progress c' c'' results' responses') :
    Progress c c'' (results ++ results') (responses ++ responses') where
  written := by
    rw [h'.written, h.written, h.seq, List.flatten_append, Client.numbered_append,
      List.append_assoc]
  seq := by
    rw [h'.seq, h.seq, List.flatten_append, List.length_append, UInt8.ofNat_add, UInt8.add_assoc]
  calls := by
    obtain ⟨calls, heq, hresults⟩ := h.calls
    obtain ⟨calls', heq', hresults'⟩ := h'.calls
    refine ⟨calls ++ calls', by rw [heq', heq, List.append_assoc], ?_⟩
    rw [List.filterMap_append, hresults, hresults']
  user := h'.user.trans h.user

theorem progress_sendAll (c : Conn) (payloads : List (List UInt8)) :
    Progress c (c.sendAll payloads) [] [payloads] := by
  rw [Conn.sendAll_eq]
  exact ⟨by simp, by simp, ⟨[], by simp, rfl⟩, rfl⟩

theorem progress_send (c : Conn) (payload : List UInt8) :
    Progress c (c.send payload) [] [[payload]] :=
  progress_sendAll c [payload]

theorem progress_answer (c : Conn) (result : ExecuteResult) :
    Progress c (c.answer result) [] [resultPayloads result] := by
  cases result with
  | databaseChanged name =>
    have h := progress_sendAll (c.setDatabase name) (resultPayloads (.databaseChanged name))
    exact ⟨h.written, h.seq, h.calls, h.user⟩
  | rows columns rows => exact progress_sendAll c _
  | affected rows lastInsertId => exact progress_sendAll c _
  | ok => exact progress_sendAll c _

theorem progress_called (c : Conn) (call : ExecutorCall) (shared : Executor) :
    Progress c (c.called call shared) call.succeeded.toList [] where
  written := by simp [numbered, Conn.called]
  seq := by simp [Conn.called]
  calls := ⟨[call], rfl, by cases h : call.succeeded <;> simp [h]⟩
  user := rfl

theorem progress_close (c : Conn) : Progress c c.close [] [] :=
  have h := Progress.refl c
  ⟨h.written, h.seq, h.calls, h.user⟩

section Handlers

variable [Host] [ExprDebug] [Bincode]

theorem progress_execute {turn : Turn} {stmt : Statement} {r : Outcome ExecuteResult}
    (h : c.execute turn stmt = (r, c')) :
    Progress c c' r.toOption.toList [] ∧ c'.isOpen = c.isOpen := by
  obtain ⟨rfl, rfl⟩ := Prod.mk.inj h
  refine ⟨?_, rfl⟩
  have hcalled := progress_called c
    (.executed c.session.database stmt (c.execute turn stmt).1) (c.execute turn stmt).2.shared
  have hresults : (ExecutorCall.executed c.session.database stmt
      (c.execute turn stmt).1).succeeded.toList = (c.execute turn stmt).1.toOption.toList := by
    cases (c.execute turn stmt).1 <;> rfl
  rw [hresults] at hcalled
  exact hcalled

omit [Host] [ExprDebug] [Bincode] in
theorem isOpen_answer (c : Conn) (result : ExecuteResult) :
    (c.answer result).isOpen = c.isOpen := by
  cases result <;> simp [Conn.answer, Conn.sendAll_eq, Conn.setDatabase]

/-- The loop over the statements: one response for each that ends well. -/
theorem progress_runStatements (turns : Nat → Turn) (stmts : List Statement) (c : Conn) :
    ∃ results, Progress c (runStatements turns stmts c).2 results (results.map resultPayloads) ∧
      (runStatements turns stmts c).2.isOpen = c.isOpen ∧
      ((runStatements turns stmts c).1 = .ok () → results.length = stmts.length) := by
  induction stmts generalizing turns c with
  | nil => exact ⟨[], .refl c, rfl, fun _ => rfl⟩
  | cons stmt rest ih =>
    rw [runStatements]
    rcases hrun : c.execute (turns 0) stmt with ⟨stop | result, c'⟩
    · obtain ⟨hprogress, hopen⟩ := progress_execute hrun
      exact ⟨[], hprogress, hopen, fun h => by cases h⟩
    · obtain ⟨hprogress, hopen⟩ := progress_execute hrun
      obtain ⟨results, hrest, hrestOpen, hall⟩ := ih (fun n => turns (n + 1)) (c'.answer result)
      refine ⟨result :: results, ?_, ?_, fun h => congrArg Nat.succ (hall h)⟩
      · exact (hprogress.trans (progress_answer c' result)).trans hrest
      · exact hrestOpen.trans ((isOpen_answer c' result).trans hopen)

/-- The handling of a request goes through a reply; a connection that stays open
has not left the request without a response. -/
structure Handled (c c' : Conn) (reply : Reply) : Prop where
  progress : Progress c c' reply.results reply.responses
  answered : c'.isOpen = true → reply.responses ≠ []

omit [Host] [ExprDebug] [Bincode] in
theorem Handled.closing (closing : Closing) (h : Progress c c' [] []) :
    Handled c (c'.send closing.payload) ⟨[], some closing⟩ :=
  ⟨h.trans (progress_send c' closing.payload), fun _ => List.cons_ne_nil _ _⟩

omit [Host] [ExprDebug] [Bincode] in
theorem Handled.closed (h : Progress c c' results (results.map resultPayloads)) :
    Handled c c'.close ⟨results, none⟩ := by
  have hclosed := h.trans (progress_close c')
  rw [List.append_nil] at hclosed
  exact ⟨hclosed, fun h => by cases h⟩

variable [SqlParser]

theorem handled_query (turns : Nat → Turn) (sql : String) (c : Conn) :
    ∃ reply, Handled c (runCommand turns (.query sql) c) reply := by
  simp only [runCommand, handleQuery]
  cases hparse : parseSql sql with
  | error msg => exact ⟨_, .closing (.error 1064 msg) (.refl c)⟩
  | ok stmts =>
    by_cases hstmts : stmts = []
    · subst hstmts
      exact ⟨_, .closing .ok (.refl c)⟩
    · simp only [List.isEmpty_iff, hstmts, if_false]
      obtain ⟨results, hprogress, hopen, hall⟩ := progress_runStatements turns stmts c
      rcases hrun : runStatements turns stmts c with ⟨(msg | _) | _, c'⟩
      · rw [hrun] at hprogress
        refine ⟨⟨results, some (.error 1064 msg)⟩, ?_, fun _ => ?_⟩
        · have hsent := hprogress.trans (progress_send c' (errPayload 1064 msg))
          rw [List.append_nil] at hsent
          exact hsent
        · simp [Reply.responses]
      · rw [hrun] at hprogress
        exact ⟨_, .closed hprogress⟩
      · rw [hrun] at hprogress hall
        refine ⟨⟨results, none⟩, ?_, fun _ hnil => ?_⟩
        · rw [← List.append_nil (results.map _)] at hprogress
          exact hprogress
        · have hlength := hall rfl
          have hnone : results = [] := by simpa [Reply.responses] using hnil
          rw [hnone] at hlength
          exact hstmts (List.length_eq_zero_iff.mp hlength.symm)

theorem handled_command (turns : Nat → Turn) (cmd : Command) (c : Conn) :
    ∃ reply, Handled c (runCommand turns cmd c) reply := by
  cases cmd with
  | quit => exact ⟨_, .closed (.refl c)⟩
  | ping => exact ⟨_, .closing .ok (.refl c)⟩
  | initDb db =>
    have hcalled : Progress c (c.databaseExists (turns 0) db).2 [] [] := progress_called c _ _
    simp only [runCommand]
    rcases hrun : c.databaseExists (turns 0) db with ⟨_ | _, c'⟩
    · rw [hrun] at hcalled
      exact ⟨_, .closing (.error 1049 "Unknown database") hcalled⟩
    · rw [hrun] at hcalled
      exact ⟨_, .closing .ok ⟨hcalled.written, hcalled.seq, hcalled.calls, hcalled.user⟩⟩
  | query sql => exact handled_query turns sql c
  | unknown id args =>
    simp only [runCommand]
    split
    · exact ⟨_, .closing .ok (.refl c)⟩
    · exact ⟨_, .closing (.error 1045 _) (.refl c)⟩

theorem handled_packet (turns : Nat → Turn) (packet : Packet) (c : Conn) :
    ∃ reply, Handled { c with seq := packet.seqId + 1 } (handlePacket turns packet c) reply := by
  unfold handlePacket
  simp only
  split
  · next cmd _ => exact handled_command turns cmd _
  · next msg _ => exact ⟨_, .closing (.error 1064 msg) (.refl _)⟩
  · exact ⟨_, .closed (.refl _)⟩

/-! ## Whole connections -/

/-- What a connection does with a row of requests. -/
structure Transcript (c : Conn) (steps : List Step) (c' : Conn) (replies : List Reply) : Prop where
  /-- Nothing is read once the connection has ended. -/
  handled : replies.length ≤ steps.length ∧ (replies.length < steps.length → c'.isOpen = false)
  /-- Each request is answered under the sequence ids that follow its own. -/
  written : c'.written = c.written ++ (steps.zip replies).flatMap fun x =>
    numbered (x.1.packet.seqId + 1) x.2.responses.flatten
  /-- The responses are those of the statements that ended well, each once. -/
  calls : ∃ calls, c'.calls = c.calls ++ calls ∧
    calls.filterMap (·.succeeded) = replies.flatMap (·.results)
  /-- A request without a response is one that ended the connection. -/
  answered : ∀ i reply, replies[i]? = some reply → reply.responses = [] →
    i + 1 = replies.length ∧ c'.isOpen = false
  /-- A connection that has ended replies to nothing. -/
  silent : c.isOpen = false → replies = []
  user : c'.session.user = c.session.user

theorem transcript (steps : List Step) (c : Conn) :
    ∃ replies, Transcript c steps (handlePackets steps c) replies := by
  induction steps generalizing c with
  | nil =>
    refine ⟨[], ⟨Nat.le_refl _, fun h => absurd h (Nat.lt_irrefl _)⟩, ?_, ⟨[], ?_, rfl⟩, ?_,
      fun _ => rfl, rfl⟩
    · exact (List.append_nil _).symm
    · exact (List.append_nil _).symm
    · intro i reply h
      cases h
  | cons step rest ih =>
    rw [handlePackets]
    split
    · next hopen =>
      obtain ⟨reply, hprogress, hanswered⟩ := handled_packet step.turns step.packet c
      obtain ⟨replies, hrest⟩ := ih (handlePacket step.turns step.packet c)
      refine ⟨reply :: replies, ⟨?_, ?_⟩, ?_, ?_, ?_, ?_, ?_⟩
      · exact Nat.succ_le_succ hrest.handled.1
      · exact fun h => hrest.handled.2 (Nat.lt_of_succ_lt_succ h)
      · rw [hrest.written, hprogress.written, List.append_assoc]
        rfl
      · obtain ⟨calls, heq, hresults⟩ := hprogress.calls
        obtain ⟨calls', heq', hresults'⟩ := hrest.calls
        refine ⟨calls ++ calls', ?_, ?_⟩
        · rw [heq', heq, List.append_assoc]
        · rw [List.filterMap_append, hresults, hresults', List.flatMap_cons]
      · intro i r hr hnil
        cases i with
        | zero =>
          obtain rfl : reply = r := Option.some.inj hr
          -- the connection has ended, so nothing after this request was read
          have hclosed : (handlePacket step.turns step.packet c).isOpen = false :=
            Bool.eq_false_iff.mpr fun hopen => hanswered hopen hnil
          rw [hrest.silent hclosed, handlePackets_closed rest hclosed]
          exact ⟨rfl, hclosed⟩
        | succ i =>
          obtain ⟨hlast, hclosed⟩ := hrest.answered i r hr hnil
          exact ⟨congrArg Nat.succ hlast, hclosed⟩
      · exact fun hclosed => absurd hopen (Bool.eq_false_iff.mp hclosed)
      · exact hrest.user.trans hprogress.user
    · next hclosed =>
      refine ⟨[], ⟨Nat.zero_le _, fun _ => Bool.eq_false_iff.mpr hclosed⟩, ?_, ⟨[], ?_, rfl⟩, ?_,
        fun _ => rfl, rfl⟩
      · simp
      · exact (List.append_nil _).symm
      · intro i reply h
        cases h

variable [Sha1]

/-- What a connection writes, whatever it is sent and whatever the other
connections do: after the login a reply to each request until it ends, cut by
a reader into the responses it consists of. -/
theorem conversation (defaultPassword : Option String) (scramble : Scramble) (first : Packet)
    (shared : Executor) (steps : List Step) :
    ∃ replies,
      Transcript (login defaultPassword scramble first shared) steps
        (handlePackets steps (login defaultPassword scramble first shared)) replies ∧
      ∀ reply ∈ replies, reply.Countable →
        cutResponses .response reply.responses.flatten = reply.responses := by
  obtain ⟨replies, h⟩ := transcript steps (login defaultPassword scramble first shared)
  exact ⟨replies, h, fun _ _ => cutResponses_reply⟩

omit [Host] [ExprDebug] [Bincode] [SqlParser] in
/-- A login either ends the connection, the executor untouched, or it accepts a
user. -/
theorem login_cases (defaultPassword : Option String) (scramble : Scramble) (first : Packet)
    (shared : Executor) :
    let c := login defaultPassword scramble first shared
    (c.isOpen = false ∧ c.calls = [] ∧ c.shared = shared ∧ c.written.length ≤ 2) ∨
      ∃ response user, parseHandshakeResponse first.payload = .ok response ∧
        authenticate defaultPassword scramble response = some user ∧ c.session.user = user := by
  simp only [login]
  split
  · exact .inl ⟨rfl, rfl, rfl, by simp [Conn.close]⟩
  · next response hparse =>
    split
    · exact .inl ⟨rfl, rfl, rfl, by simp [Conn.close, Conn.send]⟩
    · next user hauth => exact .inr ⟨response, user, hparse, hauth, rfl⟩

omit [Host] [ExprDebug] [Bincode] [SqlParser] in
theorem authenticate_ok {defaultPassword : Option String} {scramble : Scramble}
    {response : HandshakeResponse} {user : User}
    (h : authenticate defaultPassword scramble response = some user) :
    user.name = response.username ∧ ∀ password, defaultPassword = some password →
      verifyNativePasswordHash (hashNativePassword password) scramble
        response.authResponse = true := by
  cases defaultPassword with
  | none =>
    cases h
    exact ⟨rfl, fun password hpassword => by cases hpassword⟩
  | some password =>
    by_cases hvalid : verifyNativePasswordHash (hashNativePassword password) scramble
        response.authResponse = true
    · simp only [authenticate, User.withPassword, hvalid, if_true, Option.some.injEq] at h
      refine ⟨by rw [← h], fun p hp => ?_⟩
      cases hp
      exact hvalid
    · simp [authenticate, User.withPassword, hvalid] at h

/-- A connection that has asked the executor anything, changed it, or been
written more than the answer to its login, has logged in: with a response that
proves the password, if there is one, and as the user that its session names. -/
theorem asked_after_login (defaultPassword : Option String) (scramble : Scramble) (first : Packet)
    (shared : Executor) (steps : List Step) :
    let c := handlePackets steps (login defaultPassword scramble first shared)
    (c.calls ≠ [] ∨ c.shared ≠ shared ∨ 2 < c.written.length) →
      ∃ response, parseHandshakeResponse first.payload = .ok response ∧
        c.session.user.name = response.username ∧
        ∀ password, defaultPassword = some password →
          verifyNativePasswordHash (hashNativePassword password) scramble
            response.authResponse = true := by
  intro c hasked
  rcases login_cases defaultPassword scramble first shared with
    ⟨hclosed, hcalls, hshared, hwritten⟩ | ⟨response, user, hparse, hauth, huser⟩
  · have hsame : c = login defaultPassword scramble first shared :=
      handlePackets_closed steps hclosed
    rw [hsame] at hasked
    rcases hasked with h | h | h
    · exact absurd hcalls h
    · exact absurd hshared h
    · exact absurd h (Nat.not_lt.mpr hwritten)
  · obtain ⟨replies, h⟩ := transcript steps (login defaultPassword scramble first shared)
    obtain ⟨hname, hvalid⟩ := authenticate_ok hauth
    exact ⟨response, hparse, by rw [h.user, huser, hname], hvalid⟩

end Handlers

/-! ## On a concrete run -/

section Concrete

attribute [local instance] asciiHost plainDebug bincode1 realSha1 onlyCreateTable

/-- The answer of the user `root` to the handshake, with the password `secret`. -/
def answerSecret : Packet where
  seqId := 1
  payload := Codec.leBytes 4 (clientProtocol41 ||| clientSecureConnection).toNat ++
    Codec.leBytes 4 16777215 ++ 45 :: List.replicate 23 0 ++ asBytes "root" ++ [0, 20] ++
    Client.authOf "secret" onesScramble.bytes

/-- One query, with nothing else going on. -/
def createTableQuery : List Step :=
  [⟨⟨0, 3 :: asBytes "CREATE TABLE t (a INT)"⟩, fun _ => ⟨plainEnv, fun _ e => e⟩⟩]

/-- With the right password the query is answered, to the user the response names. -/
theorem createTable_asked :
    let c := handlePackets createTableQuery
      (login (some "secret") onesScramble answerSecret twoDatabases)
    2 < c.written.length ∧ ∃ response, parseHandshakeResponse answerSecret.payload = .ok response ∧
      c.session.user.name = response.username ∧
      ∀ password, some "secret" = some password →
        verifyNativePasswordHash (hashNativePassword password) onesScramble
          response.authResponse = true := by
  have hwritten : 2 < (handlePackets createTableQuery
      (login (some "secret") onesScramble answerSecret twoDatabases)).written.length := by
    decide +kernel
  exact ⟨hwritten, asked_after_login (some "secret") onesScramble answerSecret twoDatabases
    createTableQuery (.inr (.inr hwritten))⟩

end Concrete

end Srrdb.Connection
