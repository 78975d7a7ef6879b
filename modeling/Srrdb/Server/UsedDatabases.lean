/-
Srrdb.Server.UsedDatabases — the databases that the statements of a text use.

A text may hold several statements, and each USE in it may move the session.
If every USE names one database or one that is missing (`UsesOnly`), the
session stays in that database from the first statement that completes in it
to the end of the text (`statementDatabases_of_usesOnly`). A database that is
missing when the text arrives is missing as long as nobody creates it.
-/
import Srrdb.Engine.CatalogSteps
import Srrdb.Server.SessionDatabase

namespace Srrdb.Connection

open Srrdb.Lib Srrdb.Engine Srrdb.Sql

/-! ## What a text uses -/

section Texts

variable [Host]

/-- The database is missing, and neither the statements nor the other connections
create it. -/
structure StaysMissing (turns : Nat → Turn) (stmts : List Statement) (e : Executor)
    (name : String) : Prop where
  missing : e.catalog.value.databaseExists name = false
  others : ∀ n i (e : Executor), e.catalog.value.databaseExists name = false →
    ((turns n).others i e).catalog.value.databaseExists name = false
  created : ∀ dbName ifNotExists, .createDatabase dbName ifNotExists ∈ stmts →
    ¬ SameName (nameToString dbName) name

/-- A USE behind these statements finds no such database: there is none when it
asks, or there is none before the text and nobody creates it. -/
def FindsNone (turns : Nat → Turn) (before : List Statement) (e : Executor) (name : String) :
    Prop :=
  before = [] ∧ ¬ HasDatabase ((turns 0).others 0 e) name ∨ StaysMissing turns before e name

/-- Every USE of the text names this database, or finds none. -/
def UsesOnly (db : String) (turns : Nat → Turn) (e : Executor) (stmts : List Statement) : Prop :=
  ∀ before stmt after name, stmts = before ++ stmt :: after → usedDatabase stmt = some name →
    name = db ∨ FindsNone turns before e name

/-- The text begins with a USE of the database, which exists when it asks. -/
def BeginsWithUse (db : String) (turns : Nat → Turn) (e : Executor) (stmts : List Statement) :
    Prop :=
  ∃ stmt, stmts.head? = some stmt ∧ usedDatabase stmt = some db ∧
    HasDatabase ((turns 0).others 0 e) db

theorem FindsNone.not_hasDatabase {turns : Nat → Turn} {e : Executor} {name : String}
    (h : FindsNone turns [] e name) : ¬ HasDatabase ((turns 0).others 0 e) name := by
  rcases h with ⟨-, h⟩ | h
  · exact h
  · intro hexists
    rw [HasDatabase, h.others 0 0 e h.missing] at hexists
    exact absurd hexists.2 Bool.false_ne_true

end Texts

/-! ## Statement by statement -/

section Server

variable [Host] [ExprDebug] [Bincode]

/-- The database of the session after each statement of a text that completes, with
a result or with an error. -/
def statementDatabases (turns : Nat → Turn) : List Statement → Conn → List String
  | [], _ => []
  | stmt :: rest, c =>
    match c.execute (turns 0) stmt with
    | (.error _, c) => [c.session.database]
    | (.ok result, c) =>
      (c.answer result).session.database ::
        statementDatabases (fun n => turns (n + 1)) rest (c.answer result)

theorem getLast_statementDatabases (turns : Nat → Turn) (stmts : List Statement) (c : Conn) :
    (runStatements turns stmts c).2.session.database =
      (statementDatabases turns stmts c).getLast?.getD c.session.database := by
  induction stmts generalizing turns c with
  | nil => rfl
  | cons stmt rest ih =>
    rcases heq : c.execute (turns 0) stmt with ⟨stop | result, c'⟩
    · simp [runStatements, statementDatabases, heq]
    · simp only [runStatements, statementDatabases, heq]
      rw [ih, List.getLast?_cons, Option.getD_some]

/-! ## One statement -/

/-- A statement that ends well brings the session to the database it uses, which
exists. -/
theorem execute_ok {c c' : Conn} {turn : Turn} {stmt : Statement} {result : ExecuteResult}
    (heq : c.execute turn stmt = (.ok result, c')) :
    (c'.answer result).session.database = (usedDatabase stmt).getD c.session.database ∧
      ∀ name, usedDatabase stmt = some name → HasDatabase (turn.others 0 c.shared) name := by
  have hresult : (c.execute turn stmt).1 = .ok result := congrArg Prod.fst heq
  have hsession : (c.execute turn stmt).2.session = c.session := rfl
  rw [heq] at hsession
  constructor
  · have hmoved := (execute_moves turn.env c.session.database stmt).among turn.others c.shared
      result hresult
    rw [(answer_session c' result).1, hsession, hmoved]
  · intro name hname
    rw [← choice_executed c turn hname, hresult]
    exact hname

/-- One that fails leaves it, and a USE fails only if its database does not exist. -/
theorem execute_error {c c' : Conn} {turn : Turn} {stmt : Statement} {stop : Stop}
    (heq : c.execute turn stmt = (.error stop, c')) :
    c'.session = c.session ∧
      ∀ name, usedDatabase stmt = some name → ¬ HasDatabase (turn.others 0 c.shared) name := by
  have hsession : (c.execute turn stmt).2.session = c.session := rfl
  rw [heq] at hsession
  refine ⟨hsession, fun name hname => ?_⟩
  rw [← choice_executed c turn hname, heq]
  exact nofun

/-- What is missing before a statement is missing behind it. -/
theorem StaysMissing.behind {turns : Nat → Turn} {stmt : Statement} {stmts : List Statement}
    {c c' : Conn} {name : String} {result : Outcome ExecuteResult}
    (h : StaysMissing turns (stmt :: stmts) c.shared name)
    (heq : c.execute (turns 0) stmt = (result, c')) :
    StaysMissing (fun n => turns (n + 1)) stmts c'.shared name := by
  have hcreated := fun dbName ifNotExists hstmt =>
    h.created dbName ifNotExists (List.mem_cons.mpr (.inl hstmt))
  have hkeeps : Handler.Keeps (fun e : Executor => e.catalog.value.databaseExists name = false)
      (execute (turns 0).env c.session.database stmt) :=
    execute_keeps_missing _ _ fun dbName ifNotExists hstmt => hcreated dbName ifNotExists hstmt.symm
  have hmissing := Prog.Keeps.among hkeeps (h.others 0) h.missing
  have hshared : c'.shared = (c.execute (turns 0) stmt).2.shared := by rw [heq]
  refine ⟨by rw [hshared]; exact hmissing, fun n => h.others (n + 1), ?_⟩
  exact fun dbName ifNotExists hmem => h.created dbName ifNotExists (List.mem_cons_of_mem _ hmem)

/-- The rest of a text finds no more than the text did. -/
theorem UsesOnly.rest {db : String} {turns : Nat → Turn} {stmt : Statement}
    {stmts : List Statement} {c c' : Conn} {result : ExecuteResult}
    (h : UsesOnly db turns c.shared (stmt :: stmts))
    (heq : c.execute (turns 0) stmt = (.ok result, c')) :
    UsesOnly db (fun n => turns (n + 1)) (c'.answer result).shared stmts := by
  intro before stmt' after name hstmts hname
  have hshared : (c'.answer result).shared = c'.shared := by
    cases result <;> simp [Conn.answer, Conn.sendAll_eq, Conn.setDatabase]
  rcases h (stmt :: before) stmt' after name (by rw [hstmts]; rfl) hname with
    hdb | ⟨hnil, -⟩ | hstays
  · exact .inl hdb
  · cases hnil
  · exact .inr (.inr (hshared ▸ hstays.behind heq))

/-! ## All statements -/

/-- A session that is in the database stays in it. -/
theorem statementDatabases_of_usesOnly {db : String} {turns : Nat → Turn} {stmts : List Statement}
    {c : Conn} (h : UsesOnly db turns c.shared stmts) (hc : c.session.database = db) :
    ∀ d ∈ statementDatabases turns stmts c, d = db := by
  induction stmts generalizing turns c with
  | nil => exact fun d hd => nomatch hd
  | cons stmt rest ih =>
    rcases heq : c.execute (turns 0) stmt with ⟨stop | result, c'⟩
    · simp only [statementDatabases, heq, List.mem_singleton]
      rintro d rfl
      rw [(execute_error heq).1, hc]
    · obtain ⟨hmoved, hexists⟩ := execute_ok heq
      have hstays : (c'.answer result).session.database = db := by
        rw [hmoved]
        cases hused : usedDatabase stmt with
        | none => exact hc
        | some name =>
          rcases h [] stmt rest name rfl hused with hdb | hnone
          · exact hdb
          · exact absurd (hexists name hused) hnone.not_hasDatabase
      simp only [statementDatabases, heq]
      exact List.forall_mem_cons.mpr ⟨hstays, ih (h.rest heq) hstays⟩

/-- A session that the first statement brings to the database stays in it. -/
theorem statementDatabases_of_beginsWithUse {db : String} {turns : Nat → Turn}
    {stmts : List Statement} {c : Conn} (hfirst : BeginsWithUse db turns c.shared stmts)
    (h : UsesOnly db turns c.shared stmts) :
    ∀ d ∈ statementDatabases turns stmts c, d = db := by
  obtain ⟨stmt, hstmt, hused, hexists⟩ := hfirst
  cases stmts with
  | nil => cases hstmt
  | cons first rest =>
    obtain rfl : first = stmt := Option.some.inj hstmt
    rcases heq : c.execute (turns 0) first with ⟨stop | result, c'⟩
    · exact absurd hexists ((execute_error heq).2 db hused)
    · have hmoved : (c'.answer result).session.database = db := by
        rw [(execute_ok heq).1, hused]
        rfl
      simp only [statementDatabases, heq]
      exact List.forall_mem_cons.mpr
        ⟨hmoved, statementDatabases_of_usesOnly (h.rest heq) hmoved⟩

/-! ## At most one statement -/

/-- What a text of one statement uses shows in where it brings the session. -/
theorem usesOnly_of_statementDatabases {db : String} {turns : Nat → Turn} {stmts : List Statement}
    {c : Conn} (hone : stmts.length ≤ 1)
    (h : ∀ d ∈ statementDatabases turns stmts c, d = db) : UsesOnly db turns c.shared stmts := by
  intro before stmt after name hstmts hname
  subst hstmts
  obtain rfl : before = [] := by
    cases before with
    | nil => rfl
    | cons first before => simp at hone
  rw [List.nil_append] at h
  rcases heq : c.execute (turns 0) stmt with ⟨stop | result, c'⟩
  · exact .inr (.inl ⟨rfl, (execute_error heq).2 name hname⟩)
  · simp only [statementDatabases, heq] at h
    have hmoved := h _ List.mem_cons_self
    rw [(execute_ok heq).1, hname] at hmoved
    exact .inl hmoved

/-- A text of one statement that ends in the database has found it there, or has
used it. -/
theorem beginsWithUse_of_statementDatabases {db : String} {turns : Nat → Turn}
    {stmts : List Statement} {c : Conn} (hone : stmts.length ≤ 1)
    (h : ∀ d ∈ statementDatabases turns stmts c, d = db)
    (hnil : stmts = [] → c.session.database = db) :
    c.session.database = db ∨ BeginsWithUse db turns c.shared stmts := by
  cases stmts with
  | nil => exact .inl (hnil rfl)
  | cons stmt rest =>
    obtain rfl : rest = [] := by simpa using hone
    rcases heq : c.execute (turns 0) stmt with ⟨stop | result, c'⟩
    · simp only [statementDatabases, heq] at h
      have hmoved := h _ List.mem_cons_self
      rw [(execute_error heq).1] at hmoved
      exact .inl hmoved
    · simp only [statementDatabases, heq] at h
      have hmoved := h _ List.mem_cons_self
      obtain ⟨hsession, hexists⟩ := execute_ok heq
      rw [hsession] at hmoved
      cases hused : usedDatabase stmt with
      | none => exact .inl (by rw [hused] at hmoved; exact hmoved)
      | some name =>
        obtain rfl : name = db := by rw [hused] at hmoved; exact hmoved
        exact .inr ⟨stmt, rfl, hused, hexists name hused⟩

theorem statementDatabases_eq_nil (turns : Nat → Turn) (stmts : List Statement) (c : Conn) :
    statementDatabases turns stmts c = [] ↔ stmts = [] := by
  cases stmts with
  | nil => exact iff_of_true rfl rfl
  | cons stmt rest =>
    refine iff_of_false ?_ (List.cons_ne_nil _ _)
    rcases heq : c.execute (turns 0) stmt with ⟨stop | result, c'⟩ <;>
      simp [statementDatabases, heq]

end Server

end Srrdb.Connection
