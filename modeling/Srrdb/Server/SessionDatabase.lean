/-
Srrdb.Server.SessionDatabase — the database a connection is in.

A client chooses its database in its answer to the handshake, with COM_INIT_DB
and with USE. `lastChoice` is the last database it has chosen so, told from
what the connection asked of the executor. The server starts every session in
`srrdb`, whatever the answer to the handshake says; the later choices are
followed (`follows_handlePackets`). `session_follows_iff` says for which runs
that makes no difference.
-/
import Srrdb.Server.Authentication

namespace Srrdb.Connection

open Srrdb.Lib Srrdb.Engine Srrdb.Sql Srrdb.Protocol

/-! ## Choices -/

/-- The database a statement names, if it is a USE. -/
def usedDatabase : Statement → Option String
  | .use (.database name) | .use (.object name) => some (nameToString name)
  | _ => none

/-- The database a call has chosen: a USE or a COM_INIT_DB that ended well. -/
def ExecutorCall.choice : ExecutorCall → Option String
  | .executed _ stmt (.ok _) => usedDatabase stmt
  | .databaseExists db true => some db
  | _ => none

/-- The last database chosen, from an earlier choice on. -/
def lastChoice (first : Option String) (calls : List ExecutorCall) : Option String :=
  calls.foldl (fun chosen call => call.choice.or chosen) first

/-- Every statement ran in the last database chosen before it, and in `srrdb`
where there was none. -/
def Follows : Option String → List ExecutorCall → Prop
  | _, [] => True
  | chosen, call :: rest =>
    (∀ db stmt result, call = .executed db stmt result → db = chosen.getD "srrdb") ∧
      Follows (call.choice.or chosen) rest

/-- Whether a call shows the choice of the handshake: a statement does (`false`),
and a COM_INIT_DB that found its database hides it from then on (`true`). -/
def ExecutorCall.hides : ExecutorCall → Option Bool
  | .executed _ _ _ => some false
  | .databaseExists _ true => some true
  | .databaseExists _ false => none

/-- The session follows the choices: so did every statement that ran, and so
will the next one. -/
structure FollowsChoices (first : Option String) (c : Conn) : Prop where
  ran : Follows first c.calls
  next : c.session.database = (lastChoice first c.calls).getD "srrdb"

theorem follows_append {first : Option String} {xs ys : List ExecutorCall} :
    Follows first (xs ++ ys) ↔ Follows first xs ∧ Follows (lastChoice first xs) ys := by
  induction xs generalizing first with
  | nil => simp [Follows, lastChoice]
  | cons x rest ih => simp [Follows, ih, lastChoice, and_assoc]

theorem lastChoice_append (first : Option String) (xs ys : List ExecutorCall) :
    lastChoice first (xs ++ ys) = lastChoice (lastChoice first xs) ys :=
  List.foldl_append

/-- One database before a call is one database after it. -/
theorem choice_congr {first second : Option String} (call : ExecutorCall)
    (h : first.getD "srrdb" = second.getD "srrdb") :
    (call.choice.or first).getD "srrdb" = (call.choice.or second).getD "srrdb" := by
  cases hchoice : call.choice with
  | none => simpa using h
  | some db => rfl

/-- Where two first choices are one database, so are the last ones. -/
theorem lastChoice_congr {first second : Option String} (calls : List ExecutorCall)
    (h : first.getD "srrdb" = second.getD "srrdb") :
    (lastChoice first calls).getD "srrdb" = (lastChoice second calls).getD "srrdb" := by
  induction calls generalizing first second with
  | nil => exact h
  | cons call rest ih => exact ih (choice_congr call h)

theorem follows_congr {first second : Option String} {calls : List ExecutorCall}
    (h : first.getD "srrdb" = second.getD "srrdb") (hcalls : Follows first calls) :
    Follows second calls := by
  induction calls generalizing first second with
  | nil => trivial
  | cons call rest ih =>
    refine ⟨fun db stmt result hcall => ?_, ih (choice_congr call h) hcalls.2⟩
    rw [hcalls.1 db stmt result hcall, h]

/-- A COM_INIT_DB before every statement hides the first choice. -/
theorem choices_of_hidden {calls : List ExecutorCall}
    (h : calls.findSome? ExecutorCall.hides = some true) (first second : Option String) :
    lastChoice first calls = lastChoice second calls ∧
      (Follows first calls → Follows second calls) := by
  induction calls with
  | nil => cases h
  | cons call rest ih =>
    cases call with
    | executed db stmt result => cases h
    | databaseExists db answer =>
      cases answer with
      | true =>
        refine ⟨rfl, fun hcalls => ⟨fun _ _ _ hcall => ?_, hcalls.2⟩⟩
        cases hcall
      | false =>
        obtain ⟨hlast, hfollows⟩ := ih h
        refine ⟨hlast, fun hcalls => ⟨fun _ _ _ hcall => ?_, hfollows hcalls.2⟩⟩
        cases hcall

/-- Without one the first choice shows, in the first statement or the next. -/
theorem first_of_follows {first : Option String} {calls : List ExecutorCall}
    (h : calls.findSome? ExecutorCall.hides ≠ some true) (hnone : Follows none calls)
    (hfirst : Follows first calls)
    (hlast : (lastChoice none calls).getD "srrdb" = (lastChoice first calls).getD "srrdb") :
    first.getD "srrdb" = "srrdb" := by
  induction calls with
  | nil => exact hlast.symm
  | cons call rest ih =>
    cases call with
    | executed db stmt result =>
      have hdb := hnone.1 db stmt result rfl
      rw [← hfirst.1 db stmt result rfl, hdb]
      rfl
    | databaseExists db answer =>
      cases answer with
      | true => exact absurd rfl h
      | false => exact ih h hnone.2 hfirst.2 hlast

/-- A session that follows the choices after the handshake follows that of the
handshake when it is `srrdb`, or when another comes before every statement. -/
theorem followsChoices_iff {first : Option String} {c : Conn} (h : FollowsChoices none c) :
    FollowsChoices first c ↔
      first.getD "srrdb" = "srrdb" ∨ c.calls.findSome? ExecutorCall.hides = some true := by
  constructor
  · intro hfirst
    by_cases hhides : c.calls.findSome? ExecutorCall.hides = some true
    · exact .inr hhides
    · exact .inl (first_of_follows hhides h.ran hfirst.ran (h.next.symm.trans hfirst.next))
  · rintro (hsame | hhides)
    · have hnone : (none : Option String).getD "srrdb" = first.getD "srrdb" := hsame.symm
      exact ⟨follows_congr hnone h.ran, h.next.trans (lastChoice_congr _ hnone)⟩
    · obtain ⟨hlast, hfollows⟩ := choices_of_hidden hhides none first
      exact ⟨hfollows h.ran, by rw [h.next, hlast]⟩

/-! ## What a choice is -/

section Server

variable [Host] [ExprDebug] [Bincode]

/-- The server has this database. -/
def HasDatabase (e : Executor) (db : String) : Prop :=
  e.catalog.poisoned = false ∧ e.catalog.value.databaseExists db = true

instance (e : Executor) (db : String) : Decidable (HasDatabase e db) :=
  inferInstanceAs (Decidable (_ ∧ _))

omit [ExprDebug] [Bincode] in
theorem databaseExists_eq (c : Conn) (turn : Turn) (db : String) :
    (c.databaseExists turn db).1 = decide (HasDatabase (turn.others 0 c.shared) db) := by
  have hanswer : (c.databaseExists turn db).1 =
      (!(turn.others 0 c.shared).catalog.poisoned &&
        (turn.others 0 c.shared).catalog.value.databaseExists db) := rfl
  rw [hanswer, Bool.eq_iff_iff, decide_eq_true_iff]
  simp [HasDatabase]

omit [ExprDebug] [Bincode] in
/-- COM_INIT_DB chooses the databases that exist when it asks. -/
theorem choice_databaseExists (c : Conn) (turn : Turn) (db : String) :
    (ExecutorCall.databaseExists db (c.databaseExists turn db).1).choice = some db ↔
      HasDatabase (turn.others 0 c.shared) db := by
  rw [databaseExists_eq]
  by_cases h : HasDatabase (turn.others 0 c.shared) db
  · simp [h, ExecutorCall.choice]
  · simp [h, ExecutorCall.choice]

/-- USE chooses the databases that exist when it asks. -/
theorem choice_executed (c : Conn) (turn : Turn) {stmt : Statement} {db : String}
    (hdb : usedDatabase stmt = some db) :
    (ExecutorCall.executed c.session.database stmt (c.execute turn stmt).1).choice = some db ↔
      HasDatabase (turn.others 0 c.shared) db := by
  have hresult : (c.execute turn stmt).1 =
      (lockCatalog (fun e => (.ofExcept (if e.catalog.value.databaseExists db then
        .ok (ExecuteResult.databaseChanged db) else .error s!"Unknown database: {db}"), e))
        (turn.others 0 c.shared)).1 := by
    unfold usedDatabase at hdb
    split at hdb
    · cases hdb
      rfl
    · cases hdb
      rfl
    · cases hdb
  rw [hresult, HasDatabase, lockCatalog]
  cases (turn.others 0 c.shared).catalog.poisoned with
  | true => simp [ExecutorCall.choice]
  | false =>
    cases (turn.others 0 c.shared).catalog.value.databaseExists db with
    | true => simp [ExecutorCall.choice, hdb]
    | false => simp [ExecutorCall.choice]

/-! ## Which statements move the session -/

/-- Where a result moves the session. -/
def movedTo : ExecuteResult → Option String
  | .databaseChanged name => some name
  | _ => none

section Returns

variable {α : Type} {P : α → Prop}

omit [Host] [ExprDebug] [Bincode] in
theorem returns_ite {b : Bool} {h k : Exec α} (hh : Handler.Returns P h)
    (hk : Handler.Returns P k) : Handler.Returns P (if b then h else k) := by
  split
  · exact hh
  · exact hk

omit [Host] [ExprDebug] [Bincode] in
theorem returns_readCatalog {f : Catalog → Except String α} (hf : ∀ c a, f c = .ok a → P a) :
    Handler.Returns P (readCatalog f) := by
  refine Handler.returns_sec fun e a ha => ?_
  rw [lockCatalog] at ha
  split at ha
  · cases ha
  · cases hc : f e.catalog.value with
    | error msg => simp [hc] at ha
    | ok b =>
      rw [hc] at ha
      cases ha
      exact hf _ _ hc

end Returns

section Moves

variable (env : Env) (db : String)

/-- The handler's results leave the session where it is. -/
abbrev Stays (h : Exec ExecuteResult) : Prop := Handler.Returns (fun r => movedTo r = none) h

theorem executeCreateTable_stays (ct : CreateTable) : Stays (executeCreateTable env db ct) :=
  .bind fun _ => .bind fun _ => Handler.returns_pure rfl

theorem executeInsert_stays (tableName : String) (columns : List String) (source : Option Query) :
    Stays (executeInsert env db tableName columns source) :=
  .bind fun _ => .bind fun _ => .bind fun _ => .bind fun _ => .bind fun _ => .bind fun _ =>
    .bind fun _ => .bind fun _ => Handler.returns_pure rfl

theorem executeDelete_stays (tableName : String) (selection : Option Expr) :
    Stays (executeDelete env db tableName selection) :=
  .bind fun _ => .bind fun _ => .bind fun _ => Handler.returns_pure rfl

theorem executeUpdate_stays (tableName : String) (assignments : List Assignment)
    (selection : Option Expr) : Stays (executeUpdate env db tableName assignments selection) :=
  .bind fun _ => .bind fun _ => .bind fun _ => .bind fun _ => Handler.returns_pure rfl

omit [Bincode] in
theorem executeQuery_stays (query : Query) : Stays (executeQuery db query) := by
  unfold executeQuery
  split
  · split
    · exact Handler.returns_pure rfl
    · exact .bind fun _ => .bind fun _ => .bind fun _ => Handler.returns_pure rfl
  · exact Handler.returns_throw _

omit [ExprDebug] in
theorem executeCreateIndex_stays (tableName : String) (ci : CreateIndex) :
    Stays (executeCreateIndex env db tableName ci) := by
  unfold executeCreateIndex
  simp only
  split
  · exact Handler.returns_throw _
  · exact .bind fun _ => .bind fun _ => .bind fun _ => .bind fun _ => .bind fun _ =>
      .bind fun _ => Handler.returns_pure rfl

omit [ExprDebug] [Bincode] in
theorem executeDropIndex_stays (indexName tableName : String) :
    Stays (executeDropIndex env db indexName tableName) :=
  .bind fun _ => .bind fun _ => .bind fun _ => .bind fun _ => Handler.returns_pure rfl

omit [ExprDebug] in
theorem executeDropTable_stays (tableName : String) : Stays (executeDropTable env db tableName) :=
  .bind fun _ => .bind fun _ => .bind fun _ => Handler.returns_pure rfl

omit [Host] [ExprDebug] [Bincode] in
theorem executeShowDatabases_stays : Stays executeShowDatabases := by
  unfold executeShowDatabases
  refine returns_readCatalog fun c r h => ?_
  cases h
  rfl

omit [ExprDebug] [Bincode] in
theorem executeShowTables_stays : Stays (executeShowTables db) := by
  unfold executeShowTables
  refine returns_readCatalog fun c r h => ?_
  split at h
  · cases h
  · cases h
    rfl

omit [ExprDebug] [Bincode] in
theorem executeDescribe_stays (tableName : String) : Stays (executeDescribe db tableName) := by
  unfold executeDescribe
  refine returns_readCatalog fun c r h => ?_
  cases ht : c.getTable db tableName with
  | error msg => simp [ht, bind, Except.bind] at h
  | ok t =>
    simp only [ht, bind, Except.bind] at h
    cases h
    rfl

omit [ExprDebug] [Bincode] in
theorem executeUse_moves (stmt : Use) :
    Handler.Returns (fun r => movedTo r = usedDatabase (.use stmt)) (executeUse stmt) := by
  unfold executeUse
  cases stmt with
  | database name | object name =>
    refine returns_readCatalog fun c r h => ?_
    split at h
    · cases h
      rfl
    · cases h
  | other => exact Handler.returns_throw _

/-- A statement that ends well moves the session to the database it uses. -/
theorem execute_moves (stmt : Statement) :
    Handler.Returns (fun r => movedTo r = usedDatabase stmt) (execute env db stmt) := by
  cases stmt with
  | createTable ct =>
    exact returns_ite (.bind fun _ => returns_ite (Handler.returns_pure rfl)
      (executeCreateTable_stays env db ct)) (executeCreateTable_stays env db ct)
  | insert ins => exact executeInsert_stays env db _ _ _
  | query query => exact executeQuery_stays db query
  | delete del => exact executeDelete_stays env db _ _
  | update table assignments selection => exact executeUpdate_stays env db _ _ _
  | drop objectType names ifExists =>
    cases objectType with
    | table =>
      exact returns_ite (.bind fun _ => returns_ite (executeDropTable_stays env db _)
        (Handler.returns_pure rfl)) (executeDropTable_stays env db _)
    | database =>
      have hdrop : Stays (executeDropDatabase (firstName names)) :=
        .bind fun _ => .bind fun _ => Handler.returns_pure rfl
      exact returns_ite (.bind fun _ => returns_ite hdrop (Handler.returns_pure rfl)) hdrop
    | index =>
      exact .bind fun _ => returns_ite (.bind fun _ => returns_ite
        (executeDropIndex_stays env db _ _) (Handler.returns_pure rfl))
        (executeDropIndex_stays env db _ _)
    | other => exact Handler.returns_throw _
  | createDatabase dbName ifNotExists =>
    have hcreate : Stays (executeCreateDatabase dbName) :=
      .bind fun _ => .bind fun _ => Handler.returns_pure rfl
    exact returns_ite (.bind fun _ => returns_ite (Handler.returns_pure rfl) hcreate) hcreate
  | showDatabases => exact executeShowDatabases_stays
  | showTables => exact executeShowTables_stays db
  | use stmt => exact executeUse_moves stmt
  | explainTable tableName => exact executeDescribe_stays db _
  | createIndex ci =>
    exact .bind fun _ => returns_ite (executeCreateIndex_stays env db _ ci)
      (Handler.returns_throw _)
  | other => exact Handler.returns_throw _

end Moves

/-! ## Commands -/

omit [Host] [ExprDebug] [Bincode] in
theorem answer_session (c : Conn) (result : ExecuteResult) :
    (c.answer result).session.database = (movedTo result).getD c.session.database ∧
      (c.answer result).calls = c.calls := by
  cases result <;> simp [Conn.answer, Conn.sendAll_eq, Conn.setDatabase, movedTo]

omit [Host] [ExprDebug] [Bincode] in
/-- One more call, which ran where the session was and moves it to its choice. -/
theorem FollowsChoices.call {c c' : Conn} {call : ExecutorCall} (h : FollowsChoices none c)
    (hcalls : c'.calls = c.calls ++ [call])
    (hdb : ∀ db stmt result, call = .executed db stmt result → db = c.session.database)
    (hmoved : c'.session.database = call.choice.getD c.session.database) :
    FollowsChoices none c' := by
  constructor
  · rw [hcalls, follows_append]
    exact ⟨h.ran, fun db stmt result heq => (hdb db stmt result heq).trans h.next, trivial⟩
  · rw [hcalls, lastChoice_append, hmoved, h.next]
    show _ = (call.choice.or (lastChoice none c.calls)).getD "srrdb"
    cases call.choice <;> simp

omit [Host] [ExprDebug] [Bincode] in
/-- No call, and the session where it was. -/
theorem FollowsChoices.same {c c' : Conn} (h : FollowsChoices none c)
    (hcalls : c'.calls = c.calls) (hsession : c'.session = c.session) : FollowsChoices none c' :=
  ⟨hcalls ▸ h.ran, by rw [hcalls, hsession, h.next]⟩

omit [Host] [ExprDebug] [Bincode] in
theorem FollowsChoices.send {c : Conn} (h : FollowsChoices none c) (payload : List UInt8) :
    FollowsChoices none (c.send payload) :=
  h.same rfl rfl

/-- The loop over the statements, up to one that fails or the last. -/
theorem follows_runStatements {c : Conn} (h : FollowsChoices none c) (turns : Nat → Turn)
    (stmts : List Statement) : FollowsChoices none (runStatements turns stmts c).2 := by
  induction stmts generalizing turns c with
  | nil => exact h
  | cons stmt rest ih =>
    have hmoves := (execute_moves (turns 0).env c.session.database stmt).among
      (turns 0).others c.shared
    have hcall : ∀ db stmt' result', ExecutorCall.executed c.session.database stmt
        (c.execute (turns 0) stmt).1 = .executed db stmt' result' → db = c.session.database := by
      intro db stmt' result' heq
      cases heq
      rfl
    have hcalls : (c.execute (turns 0) stmt).2.calls = c.calls ++
      [.executed c.session.database stmt (c.execute (turns 0) stmt).1] := rfl
    have hsession : (c.execute (turns 0) stmt).2.session = c.session := rfl
    unfold runStatements
    split
    · next stop c' heq =>
      rw [heq] at hcall hcalls hsession
      exact h.call hcalls hcall (by rw [hsession]; rfl)
    · next result c' heq =>
      rw [heq] at hcall hcalls hsession
      obtain ⟨hanswer, hanswerCalls⟩ := answer_session c' result
      refine ih (h.call (hanswerCalls.trans hcalls) hcall ?_) _
      rw [hanswer, hsession, hmoves result (congrArg Prod.fst heq)]
      rfl

variable [SqlParser]

/-- COM_INIT_DB moves the session when it finds the database. -/
theorem follows_initDb {c : Conn} (h : FollowsChoices none c) (turns : Nat → Turn) (db : String) :
    FollowsChoices none (runCommand turns (.initDb db) c) := by
  have hcalls : (c.databaseExists (turns 0) db).2.calls = c.calls ++
    [.databaseExists db (c.databaseExists (turns 0) db).1] := rfl
  have hsession : (c.databaseExists (turns 0) db).2.session = c.session := rfl
  have hother : ∀ answer db' stmt result, ExecutorCall.databaseExists db answer =
      .executed db' stmt result → db' = c.session.database := by
    intro answer db' stmt result heq
    cases heq
  simp only [runCommand]
  split
  · next c' heq =>
    rw [heq] at hcalls hsession
    exact h.call hcalls (hother true) rfl
  · next c' heq =>
    rw [heq] at hcalls hsession
    refine h.call hcalls (hother false) ?_
    show c'.session.database = _
    rw [hsession]
    rfl

theorem follows_handleQuery {c : Conn} (h : FollowsChoices none c) (turns : Nat → Turn)
    (sql : String) : FollowsChoices none (handleQuery turns sql c).2 := by
  unfold handleQuery
  split
  · exact h
  · split
    · exact h.send _
    · exact follows_runStatements h turns _

theorem follows_runCommand {c : Conn} (h : FollowsChoices none c) (turns : Nat → Turn)
    (cmd : Command) : FollowsChoices none (runCommand turns cmd c) := by
  cases cmd with
  | quit => exact h.same rfl rfl
  | ping => exact h.send _
  | initDb db => exact follows_initDb h turns db
  | query sql =>
    have hquery := follows_handleQuery h turns sql
    simp only [runCommand]
    split
    · next heq =>
      rw [heq] at hquery
      exact hquery
    · next heq =>
      rw [heq] at hquery
      exact hquery.send _
    · next heq =>
      rw [heq] at hquery
      exact hquery.same rfl rfl
  | unknown id args =>
    simp only [runCommand]
    split
    · exact h.send _
    · exact h.send _

theorem follows_handlePacket {c : Conn} (h : FollowsChoices none c) (turns : Nat → Turn)
    (packet : Packet) : FollowsChoices none (handlePacket turns packet c) := by
  have hseq : FollowsChoices none { c with seq := packet.seqId + 1 } := h.same rfl rfl
  unfold handlePacket
  split
  · exact follows_runCommand hseq turns _
  · exact hseq.send _
  · exact hseq.same rfl rfl

/-- Every connection follows the choices made after its login. -/
theorem follows_handlePackets {c : Conn} (h : FollowsChoices none c) (steps : List Step) :
    FollowsChoices none (handlePackets steps c) := by
  induction steps generalizing c with
  | nil => exact h
  | cons step rest ih =>
    unfold handlePackets
    split
    · exact ih (follows_handlePacket h step.turns step.packet)
    · exact h

/-! ## The first choice -/

/-- A COM_INIT_DB finds its database before the first statement. -/
def initDbFirst : List Step → Executor → Bool
  | [], _ => false
  | step :: rest, shared =>
    match parseCommand step.packet.payload with
    | .ok .quit => false
    | .ok (.initDb db) =>
      let shared := (step.turns 0).others 0 shared
      HasDatabase shared db || initDbFirst rest shared
    | .ok (.query sql) =>
      match parseSql sql with
      | .ok (_ :: _) => false
      | _ => initDbFirst rest shared
    | .error .panic => false
    | _ => initDbFirst rest shared

omit [SqlParser] in
/-- The statements of a text add to the calls. -/
theorem calls_runStatements (turns : Nat → Turn) (stmts : List Statement) (c : Conn) :
    c.calls <+: (runStatements turns stmts c).2.calls := by
  induction stmts generalizing turns c with
  | nil => exact List.prefix_rfl
  | cons stmt rest ih =>
    have hcalls : c.calls <+: (c.execute (turns 0) stmt).2.calls := List.prefix_append ..
    unfold runStatements
    split
    · next heq =>
      rw [heq] at hcalls
      exact hcalls
    · next c' heq =>
      rw [heq] at hcalls
      refine hcalls.trans ?_
      rw [← (answer_session c' _).2]
      exact ih _ _

theorem calls_handleQuery (turns : Nat → Turn) (sql : String) (c : Conn) :
    c.calls <+: (handleQuery turns sql c).2.calls := by
  unfold handleQuery
  split
  · exact List.prefix_rfl
  · split
    · exact List.prefix_rfl
    · exact calls_runStatements turns _ c

theorem calls_runCommand (turns : Nat → Turn) (cmd : Command) (c : Conn) :
    c.calls <+: (runCommand turns cmd c).calls := by
  cases cmd with
  | quit => exact List.prefix_rfl
  | ping => exact List.prefix_rfl
  | initDb db =>
    have hcalls : c.calls <+: (c.databaseExists (turns 0) db).2.calls := List.prefix_append ..
    simp only [runCommand]
    split <;> next heq => rw [heq] at hcalls; exact hcalls
  | query sql =>
    have hcalls := calls_handleQuery turns sql c
    simp only [runCommand]
    split <;> next heq => rw [heq] at hcalls; exact hcalls
  | unknown id args =>
    simp only [runCommand]
    split <;> exact List.prefix_rfl

/-- The packets of a connection add to the calls. -/
theorem calls_handlePackets (steps : List Step) (c : Conn) :
    c.calls <+: (handlePackets steps c).calls := by
  induction steps generalizing c with
  | nil => exact List.prefix_rfl
  | cons step rest ih =>
    rw [handlePackets]
    split
    · refine List.IsPrefix.trans ?_ (ih _)
      unfold handlePacket
      split
      · next cmd _ => exact calls_runCommand step.turns cmd { c with seq := step.packet.seqId + 1 }
      · exact List.prefix_rfl
      · exact List.prefix_rfl
    · exact List.prefix_rfl

omit [SqlParser] in
/-- The first statement shows the choice of the handshake. -/
theorem hides_runStatements (turns : Nat → Turn) (stmt : Statement) (rest : List Statement)
    {c : Conn} (h : c.calls.findSome? ExecutorCall.hides = none) :
    (runStatements turns (stmt :: rest) c).2.calls.findSome? ExecutorCall.hides = some false := by
  have hcalls : (c.execute (turns 0) stmt).2.calls.findSome? ExecutorCall.hides = some false := by
    show (c.calls ++ [_]).findSome? _ = _
    rw [List.findSome?_append, h]
    rfl
  unfold runStatements
  split
  · next heq =>
    rw [heq] at hcalls
    exact hcalls
  · next c' heq =>
    rw [heq, ← (answer_session c' _).2] at hcalls
    exact (calls_runStatements _ rest _).findSome?_eq_some hcalls

theorem hides_query {c : Conn} (turns : Nat → Turn) {sql : String} {stmt : Statement}
    {rest : List Statement} (hparse : parseSql sql = .ok (stmt :: rest))
    (h : c.calls.findSome? ExecutorCall.hides = none) :
    (runCommand turns (.query sql) c).calls.findSome? ExecutorCall.hides = some false := by
  have hran := hides_runStatements turns stmt rest h
  have hquery : handleQuery turns sql c = runStatements turns (stmt :: rest) c := by
    simp [handleQuery, hparse]
  rw [← hquery] at hran
  simp only [runCommand]
  split <;> next heq => rw [heq] at hran; exact hran

theorem handlePackets_closed (steps : List Step) {c : Conn} (h : c.isOpen = false) :
    handlePackets steps c = c := by
  cases steps with
  | nil => rfl
  | cons step rest => rw [handlePackets, if_neg (by rw [h]; exact Bool.false_ne_true)]

/-- COM_INIT_DB makes one call, which tells whether the database exists. -/
theorem runCommand_initDb (turns : Nat → Turn) (db : String) (c : Conn) :
    (runCommand turns (.initDb db) c).isOpen = c.isOpen ∧
      (runCommand turns (.initDb db) c).shared = (turns 0).others 0 c.shared ∧
      (runCommand turns (.initDb db) c).calls = c.calls ++
        [.databaseExists db (decide (HasDatabase ((turns 0).others 0 c.shared) db))] := by
  have hopen : (c.databaseExists (turns 0) db).2.isOpen = c.isOpen := rfl
  have hshared : (c.databaseExists (turns 0) db).2.shared = (turns 0).others 0 c.shared := rfl
  have hcalls : (c.databaseExists (turns 0) db).2.calls = c.calls ++
    [.databaseExists db (c.databaseExists (turns 0) db).1] := rfl
  rw [databaseExists_eq] at hcalls
  simp only [runCommand]
  split
  · next c' heq =>
    rw [heq] at hopen hshared hcalls
    exact ⟨hopen, hshared, hcalls⟩
  · next c' heq =>
    rw [heq] at hopen hshared hcalls
    exact ⟨hopen, hshared, hcalls⟩

/-- Whether the choice of the handshake is hidden can be told before the run. -/
theorem hides_handlePackets (steps : List Step) {c : Conn} (hopen : c.isOpen = true)
    (h : c.calls.findSome? ExecutorCall.hides = none) :
    (handlePackets steps c).calls.findSome? ExecutorCall.hides = some true ↔
      initDbFirst steps c.shared = true := by
  induction steps generalizing c with
  | nil => simp [handlePackets, h, initDbFirst]
  | cons step rest ih =>
    -- a packet that asks nothing of the executor, and one that ends the connection
    have hquiet : ∀ c' : Conn, c'.isOpen = true → c'.calls = c.calls → c'.shared = c.shared →
        ((handlePackets rest c').calls.findSome? ExecutorCall.hides = some true ↔
          initDbFirst rest c.shared = true) := fun c' hopen' hcalls hshared =>
      hshared ▸ ih hopen' (hcalls ▸ h)
    have hclosed : ∀ c' : Conn, c'.isOpen = false → c'.calls = c.calls →
        ((handlePackets rest c').calls.findSome? ExecutorCall.hides = some true ↔
          false = true) := by
      intro c' hopen' hcalls
      rw [handlePackets_closed rest hopen', hcalls, h]
      simp
    rw [handlePackets, if_pos hopen, initDbFirst, handlePacket]
    generalize hstart : ({ c with seq := step.packet.seqId + 1 } : Conn) = start
    have hcalls : start.calls = c.calls := by rw [← hstart]
    have hshared : start.shared = c.shared := by rw [← hstart]
    have hstartOpen : start.isOpen = true := by rw [← hstart]; exact hopen
    simp only
    cases parseCommand step.packet.payload with
    | error stop =>
      cases stop with
      | err msg => exact hquiet _ hstartOpen hcalls hshared
      | panic => exact hclosed _ rfl hcalls
    | ok cmd =>
      cases cmd with
      | quit => exact hclosed _ rfl hcalls
      | ping => exact hquiet _ hstartOpen hcalls hshared
      | initDb db =>
        obtain ⟨hstill, hother, hasked⟩ := runCommand_initDb step.turns db start
        rw [hshared] at hother hasked
        rw [hcalls] at hasked
        show (handlePackets rest (runCommand step.turns (.initDb db) start)).calls.findSome? _ = _ ↔
          (decide (HasDatabase ((step.turns 0).others 0 c.shared) db) ||
            initDbFirst rest ((step.turns 0).others 0 c.shared)) = true
        generalize runCommand step.turns (.initDb db) start = next at hstill hother hasked ⊢
        by_cases hdb : HasDatabase ((step.turns 0).others 0 c.shared) db
        · -- the database exists, and the call hides the first choice
          rw [decide_eq_true hdb] at hasked ⊢
          rw [Bool.true_or]
          refine iff_of_true ?_ rfl
          refine (calls_handlePackets rest next).findSome?_eq_some ?_
          rw [hasked, List.findSome?_append, h]
          rfl
        · rw [decide_eq_false hdb] at hasked ⊢
          rw [Bool.false_or, ← hother]
          refine ih (hstill.trans hstartOpen) ?_
          rw [hasked, List.findSome?_append, h]
          rfl
      | query sql =>
        cases hparse : parseSql sql with
        | error msg =>
          simp only [runCommand, handleQuery, hparse]
          exact hquiet _ hstartOpen hcalls hshared
        | ok stmts =>
          cases stmts with
          | nil =>
            simp only [runCommand, handleQuery, hparse]
            exact hquiet _ hstartOpen hcalls hshared
          | cons stmt stmts =>
            have hran := hides_query step.turns hparse (hcalls ▸ h)
            have hend := (calls_handlePackets rest _).findSome?_eq_some hran
            rw [hend]
            simp [hparse]
      | unknown id args =>
        simp only [runCommand]
        split
        · exact hquiet _ hstartOpen hcalls hshared
        · exact hquiet _ hstartOpen hcalls hshared

/-! ## From the login on -/

/-- The database the answer to the handshake names, if it exists. The parser
reads one where CLIENT_CONNECT_WITH_DB is set. -/
def handshakeChoice (packet : Packet) (shared : Executor) : Option String :=
  match parseHandshakeResponse packet.payload with
  | .ok response => response.database.filter fun db => HasDatabase shared db
  | .error _ => none

variable [Sha1]

omit [Host] [ExprDebug] [Bincode] [SqlParser] in
/-- Every session starts in `srrdb`. -/
theorem follows_login (defaultPassword : Option String) (scramble : Scramble) (packet : Packet)
    (shared : Executor) : FollowsChoices none (login defaultPassword scramble packet shared) := by
  unfold login
  simp only
  split
  · exact ⟨trivial, rfl⟩
  · split
    · exact ⟨trivial, rfl⟩
    · exact ⟨trivial, rfl⟩

omit [Host] [ExprDebug] [Bincode] [SqlParser] in
/-- The login asks nothing of the executor. -/
theorem login_quiet (defaultPassword : Option String) (scramble : Scramble) (packet : Packet)
    (shared : Executor) : (login defaultPassword scramble packet shared).calls = [] ∧
      (login defaultPassword scramble packet shared).shared = shared := by
  unfold login
  simp only
  split
  · exact ⟨rfl, rfl⟩
  · split
    · exact ⟨rfl, rfl⟩
    · exact ⟨rfl, rfl⟩

/-- A connection follows all choices exactly when the answer to the handshake
chooses nothing but `srrdb`, or a COM_INIT_DB finds a database before the first
statement. -/
theorem session_follows_iff (defaultPassword : Option String) (scramble : Scramble)
    (packet : Packet) (shared : Executor) (steps : List Step)
    (hlogin : (login defaultPassword scramble packet shared).isOpen = true) :
    FollowsChoices (handshakeChoice packet shared)
        (handlePackets steps (login defaultPassword scramble packet shared)) ↔
      (handshakeChoice packet shared).getD "srrdb" = "srrdb" ∨ initDbFirst steps shared = true := by
  obtain ⟨hcalls, hshared⟩ := login_quiet defaultPassword scramble packet shared
  have hhides := hides_handlePackets steps hlogin (by rw [hcalls]; rfl)
  rw [followsChoices_iff (follows_handlePackets (follows_login ..) steps), hhides, hshared]

end Server

/-! ## A database that is not followed -/

section Concrete

attribute [local instance] asciiHost plainDebug bincode1 realSha1

/-- Every text is `CREATE TABLE t (a INT)`. -/
@[reducible] def onlyCreateTable : SqlParser := ⟨fun _ => .ok [intTable "t" ["a"]]⟩

attribute [local instance] onlyCreateTable

/-- The answer of the user `root` to the handshake, with a database. -/
def answerNaming (database : String) : Packet where
  seqId := 1
  payload := Codec.leBytes 4
      (clientProtocol41 ||| clientSecureConnection ||| clientConnectWithDb).toNat ++
    Codec.leBytes 4 16777215 ++ 45 :: List.replicate 23 0 ++ asBytes "root" ++ [0, 0] ++
    asBytes database ++ [0]

/-- A server with the databases `srrdb` and `d`. -/
def twoDatabases : Executor :=
  (Executor.ofMemory .new none).after (callIn "srrdb" (.createDatabase ["d"] false))

/-- The connection after a login with `database` and one query. -/
def createTableIn (database : String) : Conn :=
  handlePackets [⟨⟨0, 3 :: asBytes "CREATE TABLE t (a INT)"⟩, fun _ => ⟨plainEnv, fun _ e => e⟩⟩]
    (login none onesScramble (answerNaming database) twoDatabases)

/-- The database `srrdb`, which every session starts in. -/
theorem database_srrdb_followed :
    FollowsChoices (handshakeChoice (answerNaming "srrdb") twoDatabases) (createTableIn "srrdb") ↔
      (handshakeChoice (answerNaming "srrdb") twoDatabases).getD "srrdb" = "srrdb" ∨
        initDbFirst [⟨⟨0, 3 :: asBytes "CREATE TABLE t (a INT)"⟩, fun _ => ⟨plainEnv, fun _ e => e⟩⟩]
          twoDatabases = true :=
  session_follows_iff none onesScramble (answerNaming "srrdb") twoDatabases _ (by decide +kernel)

/-- A client that logs in with the database `d` has its table in `srrdb`. -/
theorem database_d_not_followed :
    handshakeChoice (answerNaming "d") twoDatabases = some "d" ∧
      (login none onesScramble (answerNaming "d") twoDatabases).isOpen = true ∧
      (createTableIn "d").shared.catalog.value.tableExists "srrdb" "t" = true ∧
      (createTableIn "d").shared.catalog.value.tableExists "d" "t" = false ∧
      ¬ FollowsChoices (handshakeChoice (answerNaming "d") twoDatabases) (createTableIn "d") := by
  have hchoice : handshakeChoice (answerNaming "d") twoDatabases = some "d" := by decide +kernel
  have hsession : (createTableIn "d").session.database = "srrdb" := by decide +kernel
  have hlast : lastChoice (some "d") (createTableIn "d").calls = some "d" := by decide +kernel
  refine ⟨hchoice, by decide +kernel, by decide +kernel, by decide +kernel, ?_⟩
  rw [hchoice]
  intro h
  have hnext := h.next
  rw [hsession, hlast] at hnext
  revert hnext
  decide +kernel

end Concrete

end Srrdb.Connection
