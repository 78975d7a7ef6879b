/-
Srrdb.Client.Prompt — the database the prompt shows.

The client takes a text for a USE by its first word (`ReadAsUse`) and shows the
name from before it sends the text. The server moves the session statement by
statement. The prompt shows the database of the session after every statement
of a run (`prompt_shows`), if text by text the client reads what the statements
of the text use (`RightAbout`). For texts of one statement it does so in no
other runs.
-/
import Srrdb.Client.Alignment
import Srrdb.Client.Shell
import Srrdb.Server.UsedDatabases

namespace Srrdb.Client

open Srrdb.Lib Srrdb.Protocol Srrdb.Engine Srrdb.Sql Srrdb.Connection

/-! ## What the client reads -/

theorem sum_utf8Size_eq_zero {word : List Char} :
    (word.map Char.utf8Size).sum = 0 ↔ word = [] := by
  cases word with
  | nil => exact iff_of_true rfl rfl
  | cons c word =>
    have hpos := Char.utf8Size_pos c
    rw [List.map_cons, List.sum_cons]
    exact iff_of_false (by omega) (List.cons_ne_nil c word)

/-- A split behind so many bytes is one between two characters. -/
theorem charsFrom_eq_some_iff {cs rest : List Char} {n : Nat} :
    charsFrom cs n = some rest ↔ ∃ word, cs = word ++ rest ∧ (word.map Char.utf8Size).sum = n := by
  induction cs generalizing n with
  | nil =>
    cases n with
    | zero => simp [charsFrom, sum_utf8Size_eq_zero, eq_comm]
    | succ n =>
      rw [charsFrom]
      refine iff_of_false nofun ?_
      rintro ⟨word, heq, hsize⟩
      rw [(List.append_eq_nil_iff.mp heq.symm).1] at hsize
      cases hsize
  | cons c cs ih =>
    cases n with
    | zero => simp [charsFrom, sum_utf8Size_eq_zero]
    | succ n =>
      have hfirst : (∃ word, c :: cs = word ++ rest ∧ (word.map Char.utf8Size).sum = n + 1) ↔
          c.utf8Size ≤ n + 1 ∧
            ∃ word, cs = word ++ rest ∧ (word.map Char.utf8Size).sum = n + 1 - c.utf8Size := by
        constructor
        · rintro ⟨word, heq, hsize⟩
          cases word with
          | nil => cases hsize
          | cons c' word =>
            cases heq
            rw [List.map_cons, List.sum_cons] at hsize
            exact ⟨by omega, word, rfl, by omega⟩
        · rintro ⟨hle, word, rfl, hsize⟩
          refine ⟨c :: word, rfl, ?_⟩
          rw [List.map_cons, List.sum_cons, hsize]
          omega
      rw [charsFrom, hfirst]
      split
      · next hle => rw [ih, and_iff_right hle]
      · next hle => exact iff_of_false nofun fun h => hle h.1

/-- A name without the blanks and the quotes around it. -/
def unquoted (name : String) : String :=
  trimMatches (trimMatches (trimMatches (trim name) backquote) singleQuote) doubleQuote

/-- The client takes the text for a USE of the database: without the blanks around
it and the semicolons at its end, the text begins like `USE ` in upper case, and the
name stands behind the four bytes of it. -/
def ReadAsUse [Host] (sql db : String) : Prop :=
  ∃ word rest, (trim (trimEndMatches (trim sql) ';')).toList = word ++ rest ∧
    (word.map Char.utf8Size).sum = 4 ∧
    startsWith (toUppercase (.ofList (word ++ rest))) "USE " = true ∧
    unquoted (.ofList rest) = db ∧ db ≠ ""

theorem parseUseDb_eq_some_iff [Host] {sql db : String} :
    parseUseDb sql = .ok (some db) ↔ ReadAsUse sql db := by
  have hname : ∀ rest : List Char, (if (unquoted (.ofList rest)).isEmpty then none
      else some (unquoted (.ofList rest))) = some db ↔ unquoted (.ofList rest) = db ∧ db ≠ "" := by
    intro rest
    generalize unquoted (.ofList rest) = name
    by_cases hempty : name = ""
    · rw [if_pos (by simp [hempty])]
      refine iff_of_false nofun ?_
      rintro ⟨rfl, hne⟩
      exact hne hempty
    · rw [if_neg (by simpa using hempty), Option.some.injEq]
      refine (and_iff_left_of_imp ?_).symm
      rintro rfl
      exact hempty
  unfold parseUseDb ReadAsUse strFrom
  simp only
  generalize trim (trimEndMatches (trim sql) ';') = s
  split
  · next hstart =>
    cases hrest : charsFrom s.toList 4 with
    | none =>
      refine iff_of_false nofun ?_
      rintro ⟨word, rest, heq, hsize, -⟩
      rw [charsFrom_eq_some_iff.mpr ⟨word, heq, hsize⟩] at hrest
      cases hrest
    | some rest =>
      obtain ⟨word, heq, hsize⟩ := charsFrom_eq_some_iff.mp hrest
      constructor
      · intro h
        have hdb := (hname rest).mp (Except.ok.inj h)
        refine ⟨word, rest, heq, hsize, ?_, hdb⟩
        rwa [← heq, String.ofList_toList]
      · rintro ⟨word', rest', heq', hsize', -, hdb⟩
        rw [charsFrom_eq_some_iff.mpr ⟨word', heq', hsize'⟩, Option.some.injEq] at hrest
        exact congrArg Except.ok ((hname rest).mpr (hrest ▸ hdb))
  · next hstart =>
    refine iff_of_false nofun ?_
    rintro ⟨word, rest, heq, -, hstart', -⟩
    rw [← heq, String.ofList_toList] at hstart'
    exact hstart hstart'

section Theory

variable [Host] [ExprDebug] [Bincode] [SqlParser]

/-! ## What the server reads -/

/-- The packets the server reads once a text has been sent. -/
def Shell.incoming (s : Shell) (r : Request) : List Step :=
  let stream := s.toServer ++ writePacket (queryPacket r.sql).seqId (queryPacket r.sql).payload
  (takePackets stream.length stream).1.mapIdx fun i packet => ⟨packet, r.turns i⟩

omit [Host] [ExprDebug] [Bincode] in
/-- The statements of a text; one the parser rejects has none. -/
def statementsOf (sql : String) : List Statement :=
  match parseSql sql with
  | .ok stmts => stmts
  | .error _ => []

/-- The database of the session after each statement of a packet that completes. -/
def packetDatabases (step : Step) (c : Conn) : List String :=
  match parseCommand step.packet.payload with
  | .ok (.query sql) =>
    statementDatabases step.turns (statementsOf sql) { c with seq := step.packet.seqId + 1 }
  | _ => []

/-- The database of the session after each statement of the packets that completes. -/
def databasesAlong : List Step → Conn → List String
  | [], _ => []
  | step :: rest, c =>
    if c.isOpen then
      packetDatabases step c ++ databasesAlong rest (handlePacket step.turns step.packet c)
    else []

/-- The database of the session after each statement of a text, and after the text. -/
def Shell.sessionDatabases (s : Shell) (r : Request) : List String :=
  databasesAlong (s.incoming r) s.server ++ [(s.request r).server.session.database]

/-! ## What the prompt shows -/

/-- The client sends the text. -/
def Shell.Sends (s : Shell) (r : Request) : Prop :=
  s.running = true ∧ ∃ used, r.usedDb = .ok used

/-- After each statement of the text and after the text, the prompt names no
database but that of the session. -/
def ShowsSession (s : Shell) (r : Request) : Prop :=
  s.Sends r → ∀ db, (s.request r).currentDb = some db → ∀ d ∈ s.sessionDatabases r, d = db

/-- The client takes what it is about to send for a USE of the database. -/
def Request.TakenForUse (r : Request) (db : String) : Prop := r.entered = true ∧ ReadAsUse r.sql db

/-- The statements of the text that the server gets to see. -/
def Shell.statements (s : Shell) (r : Request) : List Statement :=
  if s.server.isOpen then statementsOf r.sql else []

/-- The client reads what the statements of the text use. The text fits a packet.
If the client takes it for a USE of a database, the session is there or its first
statement brings it there, and it uses no other database. Otherwise it uses no
database but the one that the prompt shows. -/
structure RightAbout (s : Shell) (r : Request) : Prop where
  short : fits (queryPacket r.sql).payload = true
  taken : ∀ db, r.TakenForUse db →
    (s.server.session.database = db ∨
      BeginsWithUse db (r.turns 0) s.server.shared (s.statements r)) ∧
    UsesOnly db (r.turns 0) s.server.shared (s.statements r)
  other : (∀ db, ¬ r.TakenForUse db) → ∀ db, s.currentDb = some db →
    UsesOnly db (r.turns 0) s.server.shared (s.statements r)

/-- The client is right about the text, if it sends it. -/
def Tracks (s : Shell) (r : Request) : Prop := s.Sends r → RightAbout s r

/-- A text of at most one statement that fits a packet. -/
structure Single (r : Request) : Prop where
  short : fits (queryPacket r.sql).payload = true
  single : (statementsOf r.sql).length ≤ 1

/-! ## One text -/

omit [ExprDebug] [Bincode] [SqlParser] in
theorem usedDb_eq_some_iff {r : Request} {db : String} :
    r.usedDb = .ok (some db) ↔ r.TakenForUse db := by
  rw [Request.usedDb, Request.TakenForUse, ← parseUseDb_eq_some_iff]
  split
  · next h => exact (and_iff_right h).symm
  · next h => exact iff_of_false nofun fun h' => h h'.1

/-- Where a text of statements brings the session. -/
theorem session_query (turns : Nat → Turn) (sql : String) (c : Conn) :
    (runCommand turns (.query sql) c).session.database =
      (statementDatabases turns (statementsOf sql) c).getLast?.getD c.session.database := by
  have hquery : (handleQuery turns sql c).2.session.database =
      (statementDatabases turns (statementsOf sql) c).getLast?.getD c.session.database := by
    unfold handleQuery statementsOf
    cases parseSql sql with
    | error msg => rfl
    | ok stmts =>
      cases stmts with
      | nil => rfl
      | cons stmt rest => exact getLast_statementDatabases turns (stmt :: rest) c
  simp only [runCommand]
  split
  · next heq =>
    rw [heq] at hquery
    exact hquery
  · next heq =>
    rw [heq] at hquery
    exact hquery
  · next heq =>
    rw [heq] at hquery
    exact hquery

/-- A text that the client sends. -/
theorem request_sent {s : Shell} {r : Request} {used : Option String} (hs : s.running = true)
    (hused : r.usedDb = .ok used) :
    (s.request r).currentDb = used.or s.currentDb ∧
      (s.request r).server = handlePackets (s.incoming r) s.server ∧
      (s.request r).toServer = (s.executeQuery r.sql r.turns).toServer := by
  rw [Shell.request, hs, hused]
  exact ⟨rfl, rfl, rfl⟩

/-- Behind nothing else, a text that fits a packet is the one packet there is. -/
theorem takePackets_text {s : Shell} (hs : s.toServer = []) {r : Request}
    (hfits : fits (queryPacket r.sql).payload = true) :
    s.incoming r = [⟨queryPacket r.sql, r.turns 0⟩] ∧
      (s.executeQuery r.sql r.turns).toServer = [] := by
  have hread := readPacket_text hfits
  have hstream : s.toServer ++ writePacket (queryPacket r.sql).seqId (queryPacket r.sql).payload =
      writePacket (queryPacket r.sql).seqId (queryPacket r.sql).payload := by
    rw [hs, List.nil_append]
  have htake : ∀ stream : List UInt8, readPacket stream = some (queryPacket r.sql, []) →
      takePackets stream.length stream = ([queryPacket r.sql], []) := by
    intro stream hread
    cases stream with
    | nil => cases hread
    | cons b rest =>
      rw [List.length_cons, takePackets, hread]
      cases rest with
      | nil => rfl
      | cons b' rest => rfl
  constructor
  · simp only [Shell.incoming, hstream, htake _ hread]
    rfl
  · simp only [Shell.executeQuery, hstream, htake _ hread]

/-- The connection as the server has it when it gets to a text that fits a packet. -/
def Shell.ready (s : Shell) : Conn := { s.server with seq := 1 }

/-- The databases of the session while the server handles such a text. -/
theorem sessionDatabases_text {s : Shell} (hs : s.toServer = []) {r : Request}
    (hsends : s.Sends r) (hfits : fits (queryPacket r.sql).payload = true) :
    s.sessionDatabases r =
      statementDatabases (r.turns 0) (s.statements r) s.ready ++
        [(statementDatabases (r.turns 0) (s.statements r) s.ready).getLast?.getD
          s.server.session.database] := by
  obtain ⟨hrunning, used, hused⟩ := hsends
  rw [Shell.sessionDatabases, (request_sent hrunning hused).2.1, (takePackets_text hs hfits).1,
    databasesAlong, handlePackets, Shell.statements]
  cases s.server.isOpen with
  | false => rfl
  | true =>
    have hread : parseCommand (queryPacket r.sql).payload = .ok (.query r.sql) :=
      parseCommand_queryPacket r.sql
    have hsession := session_query (r.turns 0) r.sql s.ready
    have hpacket : (handlePacket (r.turns 0) (queryPacket r.sql) s.server).session.database =
        (runCommand (r.turns 0) (.query r.sql) s.ready).session.database := by
      rw [handlePacket, hread]
      rfl
    have hdatabases : packetDatabases ⟨queryPacket r.sql, r.turns 0⟩ s.server =
        statementDatabases (r.turns 0) (statementsOf r.sql) s.ready := by
      rw [packetDatabases, hread]
      rfl
    simp only [if_true, databasesAlong, handlePackets, List.append_nil]
    rw [hdatabases, hpacket, hsession]
    rfl

/-- All of them are the database exactly if those after the statements are, and the
session is in it where there are none. -/
theorem forall_mem_sessionDatabases_iff {s : Shell} (hs : s.toServer = []) {r : Request}
    (hsends : s.Sends r) (hfits : fits (queryPacket r.sql).payload = true) {db : String} :
    (∀ d ∈ s.sessionDatabases r, d = db) ↔
      (∀ d ∈ statementDatabases (r.turns 0) (s.statements r) s.ready, d = db) ∧
        (s.statements r = [] → s.server.session.database = db) := by
  rw [sessionDatabases_text hs hsends hfits,
    ← statementDatabases_eq_nil (r.turns 0) (s.statements r) s.ready]
  generalize statementDatabases (r.turns 0) (s.statements r) s.ready = databases
  rw [List.forall_mem_append, List.forall_mem_singleton]
  refine and_congr_right fun hall => ?_
  cases hlast : databases.getLast? with
  | none =>
    rw [List.getLast?_eq_none_iff] at hlast
    simp [hlast]
  | some last =>
    have hmem := List.mem_of_getLast? hlast
    refine iff_of_true (hall last hmem) fun hnil => ?_
    rw [hnil] at hmem
    cases hmem

/-- Between two texts: nothing is on its way, and the prompt is right. -/
structure AtPrompt (s : Shell) : Prop where
  empty : s.toServer = []
  shown : ∀ db, s.currentDb = some db → s.server.session.database = db

theorem showsSession_of_rightAbout {s : Shell} (hs : AtPrompt s) {r : Request}
    (h : Tracks s r) : ShowsSession s r := by
  intro hsends db hdb
  have hright := h hsends
  have hsent := hsends
  obtain ⟨hrunning, used, hused⟩ := hsent
  rw [(request_sent hrunning hused).1] at hdb
  rw [forall_mem_sessionDatabases_iff hs.empty hsends hright.short]
  cases used with
  | some used =>
    obtain rfl : used = db := by simpa using hdb
    obtain ⟨hthere | hbegins, honly⟩ := hright.taken used (usedDb_eq_some_iff.mp hused)
    · exact ⟨statementDatabases_of_usesOnly honly hthere, fun _ => hthere⟩
    · refine ⟨statementDatabases_of_beginsWithUse hbegins honly, fun hnil => ?_⟩
      obtain ⟨stmt, hstmt, -⟩ := hbegins
      rw [hnil] at hstmt
      cases hstmt
  | none =>
    have hnone : ∀ db, ¬ r.TakenForUse db := by
      intro db htaken
      rw [← usedDb_eq_some_iff, hused] at htaken
      cases htaken
    have hshown := hs.shown db hdb
    exact ⟨statementDatabases_of_usesOnly (hright.other hnone db hdb) hshown, fun _ => hshown⟩

theorem rightAbout_of_showsSession {s : Shell} (hs : AtPrompt s) {r : Request} (hr : Single r)
    (h : ShowsSession s r) : Tracks s r := by
  intro hsends
  have hone : (s.statements r).length ≤ 1 := by
    rw [Shell.statements]
    split
    · exact hr.single
    · exact Nat.zero_le _
  have hall := fun db hdb => (forall_mem_sessionDatabases_iff hs.empty hsends hr.short).mp
    (h hsends db hdb)
  obtain ⟨hrunning, used, hused⟩ := hsends
  rw [(request_sent hrunning hused).1] at hall
  refine ⟨hr.short, fun db htaken => ?_, fun hnone db hdb => ?_⟩
  · rw [← usedDb_eq_some_iff, hused] at htaken
    obtain rfl := Except.ok.inj htaken
    obtain ⟨hstatements, hnil⟩ := hall db rfl
    exact ⟨beginsWithUse_of_statementDatabases (c := s.ready) hone hstatements hnil,
      usesOnly_of_statementDatabases (c := s.ready) hone hstatements⟩
  · cases used with
    | none => exact usesOnly_of_statementDatabases (c := s.ready) hone (hall db hdb).1
    | some used => exact absurd (usedDb_eq_some_iff.mp hused) (hnone used)

theorem atPrompt_request {s : Shell} (hs : AtPrompt s) {r : Request} (h : Tracks s r) :
    AtPrompt (s.request r) := by
  cases hrunning : s.running with
  | false =>
    have hsame : s.request r = s := by
      rw [Shell.request, hrunning]
      rfl
    rw [hsame]
    exact hs
  | true =>
    cases hused : r.usedDb with
    | error stop =>
      have hsame : s.request r = { s with running := false } := by
        rw [Shell.request, hrunning, hused]
        rfl
      rw [hsame]
      exact ⟨hs.empty, hs.shown⟩
    | ok used =>
      have hsends : s.Sends r := ⟨hrunning, used, hused⟩
      refine ⟨?_, fun db hdb => ?_⟩
      · rw [(request_sent hrunning hused).2.2]
        exact (takePackets_text hs.empty (h hsends).short).2
      · refine showsSession_of_rightAbout hs h hsends db hdb _ ?_
        exact List.mem_append_right _ (List.mem_singleton_self _)

/-! ## Whole runs -/

/-- The prompt shows the database of the session after every statement of a run, if
the client is right about every text of it; where no text has more than one
statement, in no other runs. -/
theorem prompt_shows (server : Conn) (entries : List Entry) :
    (Every Shell.request Tracks (.start server) (requests "" entries) →
      Every Shell.request ShowsSession (.start server) (requests "" entries)) ∧
    ((∀ r ∈ requests "" entries, Single r) →
      (Every Shell.request ShowsSession (.start server) (requests "" entries) ↔
        Every Shell.request Tracks (.start server) (requests "" entries))) := by
  have hstart : AtPrompt (.start server) := ⟨rfl, nofun⟩
  have hstep : ∀ s r, AtPrompt s → Tracks s r → AtPrompt (s.request r) :=
    fun _ _ hs h => atPrompt_request hs h
  constructor
  · exact Every.of_invariant hstep (fun _ _ hs h => showsSession_of_rightAbout hs h) hstart
  · intro hsingle
    have hiff : ∀ s r, AtPrompt s → Single r → (Tracks s r ↔ ShowsSession s r) := fun _ _ hs hr =>
      ⟨showsSession_of_rightAbout hs, rightAbout_of_showsSession hs hr⟩
    exact (Every.iff_of_inputs hstep hiff hsingle hstart).symm

end Theory

/-! ## A database there is not -/

section Concrete

attribute [local instance] asciiHost plainDebug bincode1

/-- A parser of one text. -/
@[reducible] def useParser : SqlParser where
  parseSql sql :=
    if sql = "USE nosuch;" then .ok [.use (.object ["nosuch"])]
    else .error "sql parser error: Expected: an SQL statement"

attribute [local instance] useParser

/-- The line `USE nosuch;`, with nothing else going on. -/
def useNosuch : Entry where
  line := "USE nosuch;"
  readFile _ := none
  tables := []
  turns _ _ _ := ⟨plainEnv, fun _ e => e⟩

/-- The server has no such database and stays in `srrdb`, but the prompt names it. -/
theorem unknownDatabase_shown :
    ((requests "" [useNosuch]).foldl Shell.request (.start freshConn)).currentDb = some "nosuch" ∧
    ((requests "" [useNosuch]).foldl Shell.request (.start freshConn)).server.session.database =
      "srrdb" ∧
    ¬ Every Shell.request ShowsSession (.start freshConn) (requests "" [useNosuch]) := by
  have hshown : ((requests "" [useNosuch]).foldl Shell.request (.start freshConn)).currentDb =
      some "nosuch" := by decide +kernel
  have hsession : ((requests "" [useNosuch]).foldl Shell.request
      (.start freshConn)).server.session.database = "srrdb" := by decide +kernel
  have hlength : (requests "" [useNosuch]).length = 1 := by decide +kernel
  refine ⟨hshown, hsession, fun h => ?_⟩
  obtain ⟨r, hr⟩ := List.length_eq_one_iff.mp hlength
  rw [hr, List.foldl_cons, List.foldl_nil] at hshown hsession
  rw [hr] at h
  have hsends : (Shell.start freshConn).Sends r := by
    refine ⟨rfl, ?_⟩
    cases hused : r.usedDb with
    | ok used => exact ⟨used, rfl⟩
    | error stop =>
      rw [Shell.request, hused] at hshown
      cases hshown
  have hdatabase := h.1 hsends "nosuch" hshown _
    (List.mem_append_right _ (List.mem_singleton_self _))
  exact absurd (hdatabase.symm.trans hsession) (by decide)

end Concrete

end Srrdb.Client
