/-
Srrdb.Server.TableCounts — a table is created once for every time it is dropped.

Whether a table exists is an account that CREATE TABLE pays into and DROP
TABLE draws from, by one for each success they report. However any statements
are interleaved, the successes add up to the difference between the end and
the start (`tables_balance`), so of two concurrent CREATE TABLEs at most one
succeeds unless a DROP TABLE does as well. With IF [NOT] EXISTS a success does
not say whether anything was done, and DROP DATABASE takes all tables; both
are left out for the table in question.
-/
import Srrdb.Engine.Accounts
import Srrdb.Server.TableIndependence

namespace Srrdb.Server

open Srrdb.Engine Srrdb.Sql Srrdb.Lib

section Theory

variable [Host]

/-- One if the table exists. -/
def tableCount (db name : String) (e : Executor) : Int :=
  if e.catalog.value.tableExists db name then 1 else 0

/-- The tables of that name that a statement which ended so reports to have
created, or dropped. -/
def reportedTables (db name : String) (call : Call) : Outcome ExecuteResult → Int
  | .ok .ok =>
    match call.stmt with
    | .createTable ct =>
      if SameName call.db db ∧ SameName (nameToString ct.name) name then 1 else 0
    | .drop .table names _ =>
      if SameName call.db db ∧ SameName (firstName names) name then -1 else 0
    | _ => 0
  | _ => 0

/-- The statement says what it does to the table. -/
def Accountable (db name : String) (call : Call) : Prop :=
  match call.stmt with
  | .createTable ct =>
    SameName call.db db ∧ SameName (nameToString ct.name) name → ct.ifNotExists = false
  | .drop .table names ifExists =>
    SameName call.db db ∧ SameName (firstName names) name → ifExists = false
  | .drop .database names _ => ¬ SameName (firstName names) db
  | _ => True

/-! ## What the catalog operations do to the count -/

variable {db name : String} {e : Executor}

theorem tableCount_congr {e' : Executor}
    (h : e'.catalog.value.findTable db name = e.catalog.value.findTable db name) :
    tableCount db name e' = tableCount db name e := by
  rw [tableCount, tableCount, Catalog.tableExists_eq, Catalog.tableExists_eq, h]

theorem tableCount_createTable {db' tableName : String} {columns : List Column} {c : Catalog}
    (h : e.catalog.value.createTable db' tableName columns = .ok c) :
    tableCount db name (e.setCatalog c) =
      tableCount db name e + if SameName db' db ∧ SameName tableName name then 1 else 0 := by
  split
  · next hs =>
    have hnew := (Catalog.createTable_isOk.mp ⟨c, h⟩).2
    rw [Catalog.tableExists_sameName hs.1 hs.2] at hnew
    rw [tableCount, tableCount, hnew, Executor.setCatalog_catalog_value, Catalog.tableExists_eq,
      Catalog.findTable_createTable h, if_pos hs]
    rfl
  · next hs =>
    rw [Int.add_zero]
    refine tableCount_congr ?_
    rw [Executor.setCatalog_catalog_value, Catalog.findTable_createTable h, if_neg hs]

theorem tableCount_dropTable {db' tableName : String} {c : Catalog}
    (h : e.catalog.value.dropTable db' tableName = .ok c) :
    tableCount db name (e.setCatalog c) =
      tableCount db name e + if SameName db' db ∧ SameName tableName name then -1 else 0 := by
  split
  · next hs =>
    have hold := Catalog.dropTable_isOk.mp ⟨c, h⟩
    rw [Catalog.tableExists_sameName hs.1 hs.2] at hold
    rw [tableCount, tableCount, hold, Executor.setCatalog_catalog_value, Catalog.tableExists_eq,
      Catalog.findTable_dropTable h, if_pos hs]
    rfl
  · next hs =>
    rw [Int.add_zero]
    refine tableCount_congr ?_
    rw [Executor.setCatalog_catalog_value, Catalog.findTable_dropTable h, if_neg hs]

/-! ## Statements that leave the count alone -/

/-- The table is counted `m` times. -/
def TableCounted (db name : String) (m : Int) (e : Executor) : Prop :=
  True ∧ tableCount db name e = m

theorem steady_tableCounted (db name : String) (m : Int) : Steady (TableCounted db name m) where
  poisonCatalog _ he := he
  poisonStorage _ he := he

theorem TableCounted.setCatalog {m : Int} (he : TableCounted db name m e) {c : Catalog}
    (h : c.findTable db name = e.catalog.value.findTable db name) :
    TableCounted db name m (e.setCatalog c) :=
  ⟨trivial, (tableCount_congr h).trans he.2⟩

theorem TableCounted.logSnapshot {m : Int} {s : Storage} (he : TableCounted db name m e) (env : Env)
    (tableName : String) (rows : List Row) :
    TableCounted db name m (logSnapshot env tableName rows (e.setStorage s)) := by
  refine ⟨trivial, (tableCount_congr ?_).trans he.2⟩
  rw [logSnapshot_catalog, Executor.setStorage_catalog]

variable [ExprDebug] [Bincode]

theorem execute_tableCounted (m : Int) (env : Env) (db' : String) {stmt : Statement}
    (hcreate : ∀ ct, stmt ≠ .createTable ct)
    (hdrop : ∀ names ifExists, stmt ≠ .drop .table names ifExists)
    (haccountable : Accountable db name ⟨env, db', stmt⟩) :
    Handler.Keeps (TableCounted db name m) (execute env db' stmt) := by
  have hsteady := steady_tableCounted db name m
  cases stmt with
  | createTable ct => exact absurd rfl (hcreate ct)
  | insert ins =>
    refine (keeps_readCatalog hsteady _).bind fun tableDef => ?_
    refine (keeps_liftOutcome _).bind fun rows => ?_
    refine (keeps_catalogSection hsteady fun e he => he.setCatalog ?_).bind fun filled => ?_
    · exact Catalog.findTable_congr (fillRows_databases _ _ _ _ _ _ _) db name
    · exact insertTail_keeps hsteady env db' _ filled.1 (fun _ he => he) (fun _ _ he _ => he)
        (fun _ he => he) tableDef.columns filled.2
  | delete del =>
    refine (keeps_readCatalog hsteady _).bind fun _ =>
      changeTail_keeps hsteady env _ (fun e t rows _ he => he.logSnapshot _ _ _) fun _ he => he
  | update table assignments selection =>
    refine (keeps_readCatalog hsteady _).bind fun _ => (keeps_readCatalog hsteady _).bind fun _ =>
      changeTail_keeps hsteady env _ (fun e t rows _ he => he.logSnapshot _ _ _) fun _ he => he
  | drop objectType names ifExists =>
    cases objectType with
    | table => exact absurd rfl (hdrop names ifExists)
    | database =>
      have hdrop : Handler.Keeps (TableCounted db name m)
          (executeDropDatabase (firstName names)) := by
        refine (keeps_writeCatalog hsteady fun e c he h => he.setCatalog ?_).bind fun _ =>
          (keeps_save fun _ he => he).bind fun _ => Handler.keeps_pure _
        cases hremove : e.catalog.value.removeDatabase (firstName names) with
        | none => simp [hremove] at h
        | some c' =>
          simp only [hremove, Except.ok.injEq] at h
          subst h
          exact (Catalog.findTable_removeDatabase hremove).trans (if_neg haccountable)
      exact keeps_ite ((keeps_askCatalog _).bind fun _ => keeps_ite hdrop (Handler.keeps_pure _))
        hdrop
    | index =>
      refine (keeps_readCatalog hsteady _).bind fun tableName => ?_
      have hdrop : Handler.Keeps (TableCounted db name m)
          (executeDropIndex env db' (firstName names) tableName) := by
        refine (keeps_writeCatalog hsteady fun e c he h =>
          he.setCatalog (Catalog.findTable_dropIndex h db name)).bind fun _ => ?_
        refine (keeps_logWal fun _ he => he).bind fun _ => ?_
        refine (keeps_updateStorage hsteady fun _ he => he).bind fun _ => ?_
        exact (Handler.keeps_sec fun _ he => he).bind fun _ => Handler.keeps_pure _
      exact keeps_ite ((keeps_askCatalog _).bind fun _ => keeps_ite hdrop (Handler.keeps_pure _))
        hdrop
    | other => exact execute_readOnly_keeps hsteady env db' rfl
  | createDatabase dbName ifNotExists =>
    have hcreate : Handler.Keeps (TableCounted db name m) (executeCreateDatabase dbName) := by
      refine (keeps_writeCatalog hsteady fun e c he h => he.setCatalog ?_).bind fun _ =>
        (keeps_save fun _ he => he).bind fun _ => Handler.keeps_pure _
      cases h
      exact Catalog.findTable_createDatabase _
    exact keeps_ite ((keeps_askCatalog _).bind fun _ => keeps_ite (Handler.keeps_pure _) hcreate)
      hcreate
  | createIndex ci =>
    refine (keeps_askCatalog _).bind fun _ => keeps_ite ?_ (Handler.keeps_throw _)
    exact executeCreateIndex_keeps hsteady env db' _ ci
      (fun e c he h => he.setCatalog (Catalog.findTable_createIndex h db name)) (fun _ he => he)
      (fun _ _ he _ => he) (fun _ he => he) fun _ he => he
  | query _ | showDatabases | showTables | use _ | explainTable _ | other =>
    exact execute_readOnly_keeps hsteady env db' rfl

/-! ## CREATE TABLE and DROP TABLE -/

/-- A handler, and what its answer says of the table. -/
def Reports (db name : String) (call : Call) (h : Exec ExecuteResult) : Prop :=
  Handler.Moves (Unbroken fun _ => True) (tableCount db name)
    (fun r n => n = reportedTables db name call r) h 0

theorem executeCreateTable_reports (db name : String) (env : Env) (db' : String)
    (ct : CreateTable) :
    Reports db name ⟨env, db', .createTable ct⟩ (executeCreateTable env db' ct) := by
  refine moves_catalogSection_bind fun e _ _ => ?_
  simp only [createTableSection, Executor.append_catalog]
  cases h : e.catalog.value.createTable db' (nameToString ct.name)
      (createColumns (nameToString ct.name) ct.columns) with
  | error msg => exact (Int.zero_add _).trans (Int.sub_self (tableCount db name e))
  | ok c =>
    have hcount : tableCount db name (e.setCatalog c) = _ := tableCount_createTable h
    refine moves_sec_still_bind (fun _ => ⟨(), rfl⟩) (fun _ => rfl) fun _ => ?_
    refine Handler.moves_pure ?_
    show 0 + (tableCount db name (e.setCatalog c) - tableCount db name e) = _
    rw [hcount, add_sub_cancel_left, Int.zero_add]
    rfl

omit [ExprDebug] in
/-- The files of a dropped table say nothing about the catalog. -/
theorem dropTableFiles_moves {Q : Outcome ExecuteResult → Int → Prop} {n : Int} (tn : String)
    (h : Q (.ok .ok) n) : Handler.Moves (Unbroken fun _ => True) (tableCount db name) Q
      (dropTableFiles tn >>= fun _ => pure .ok) n := by
  refine Handler.Moves.bind ?_
  refine moves_sec_still_bind (fun _ => ⟨_, rfl⟩) (fun _ => rfl) fun present => ?_
  split
  · refine moves_sec_still_bind (fun _ => ⟨(), rfl⟩) (fun _ => rfl) fun _ => ?_
    refine Handler.moves_sec fun e he hend => ?_
    rw [lockCatalog_of_unpoisoned he.2 hend.2]
    show Handler.AndThen _ _ _ _ (.ok ()) (n + (tableCount db name e - tableCount db name e))
    rw [Int.sub_self, Int.add_zero]
    exact Handler.moves_pure h
  · exact Handler.moves_pure (Handler.moves_pure h)

omit [ExprDebug] in
theorem executeDropTable_reports (db name : String) (env : Env) (db' : String)
    (names : List ObjectName) (ifExists : Bool) :
    Reports db name ⟨env, db', .drop .table names ifExists⟩
      (executeDropTable env db' (firstName names)) := by
  refine moves_sec_still_bind (fun _ => ⟨(), rfl⟩) (fun _ => rfl) fun _ => ?_
  refine Handler.moves_sec_bind fun e he hend => ?_
  rcases dropTableSection_cases he.2 hend.2 with ⟨msg, -, hsection⟩ | ⟨c, h, hsection⟩
  · rw [hsection]
    exact (Int.zero_add _).trans (Int.sub_self (tableCount db name e))
  · rw [hsection]
    refine dropTableFiles_moves _ ?_
    have hcount : tableCount db name (e.setCatalog c) = _ := tableCount_dropTable h
    show 0 + (tableCount db name (e.setCatalog c) - tableCount db name e) = _
    rw [hcount, add_sub_cancel_left, Int.zero_add]
    simp only [reportedTables, SameName, normalize_toLowercase]

omit [ExprDebug] [Bincode] in
/-- A question first, which only IF [NOT] EXISTS asks. -/
theorem Reports.asked {call : Call} {h : Exec ExecuteResult} (hh : Reports db name call h)
    {flag : Bool} (hflag : flag = false ∨ reportedTables db name call (.ok .ok) = 0)
    (f : Catalog → Bool) (k : Bool → Exec ExecuteResult) (hk : ∀ b, k b = h ∨ k b = pure .ok) :
    Reports db name call (if flag then askCatalog f >>= k else h) := by
  cases flag with
  | false => exact hh
  | true =>
    have hzero := hflag.resolve_left (by decide)
    refine moves_sec_still_bind (fun _ => ⟨_, rfl⟩) (fun _ => rfl) fun b => ?_
    rcases hk b with hb | hb
    · rw [hb]
      exact hh
    · rw [hb]
      exact Handler.moves_pure hzero.symm

theorem call_reports {call : Call} (haccountable : Accountable db name call) :
    call.program.Moves (Unbroken fun _ => True) (tableCount db name)
      (fun r n => n = reportedTables db name call r) 0 := by
  obtain ⟨env, db', stmt⟩ := call
  by_cases hcreate : ∃ ct, stmt = .createTable ct
  · obtain ⟨ct, rfl⟩ := hcreate
    refine (executeCreateTable_reports db name env db' ct).asked ?_ _ _ fun b => by cases b <;> simp
    by_cases hname : SameName db' db ∧ SameName (nameToString ct.name) name
    · exact .inl (haccountable hname)
    · exact .inr (if_neg hname)
  by_cases hdrop : ∃ names ifExists, stmt = .drop .table names ifExists
  · obtain ⟨names, ifExists, rfl⟩ := hdrop
    refine (executeDropTable_reports db name env db' names ifExists).asked ?_ _ _ fun b => by
      cases b <;> simp
    by_cases hname : SameName db' db ∧ SameName (firstName names) name
    · exact .inl (haccountable hname)
    · exact .inr (if_neg hname)
  have hzero : ∀ r, reportedTables db name ⟨env, db', stmt⟩ r = 0 := by
    rintro (x | _ | _ | _ | _)
    all_goals try rfl
    cases stmt with
    | createTable ct => exact absurd ⟨ct, rfl⟩ hcreate
    | drop objectType names ifExists =>
      cases objectType with
      | table => exact absurd ⟨names, ifExists, rfl⟩ hdrop
      | _ => rfl
    | _ => rfl
  exact Handler.Keeps.moves (fun _ _ => trivial) (fun m => execute_tableCounted m env db'
    (fun ct h => hcreate ⟨ct, h⟩) (fun names ifExists h => hdrop ⟨names, ifExists, h⟩) haccountable)
    fun r => (hzero r).symm

/-! ## The balance -/

/-- However the statements are interleaved, a table exists at the end if it did at
the start, with one added for each CREATE TABLE and one taken away for each
DROP TABLE that succeeded. -/
theorem tables_balance (e : Executor) {db name : String} {calls : List Call}
    (haccountable : ∀ call ∈ calls, Accountable db name call) {schedule : List Nat}
    (hok : ¬ (serve e calls schedule).Poisoned) {results : List (Outcome ExecuteResult)}
    (hdone : ((poolOf calls e).run schedule).results = some results) :
    tableCount db name (serve e calls schedule) = tableCount db name e +
      (List.zipWith (reportedTables db name) calls results).sum := by
  have hback : ∀ t ∈ (poolOf calls e).threads, t.RepairsNothing fun e => ¬ e.Poisoned := by
    intro t ht
    obtain ⟨call, -, rfl⟩ := List.mem_map.mp ht
    exact call_repairsNothing call
  have hnothing : Closed fun _ => True := ⟨⟨fun _ _ => trivial, fun _ _ => trivial⟩,
    fun _ _ _ => trivial, fun _ _ _ _ => trivial, fun _ _ _ _ => trivial, fun _ _ _ => trivial⟩
  have hkeeps : ∀ t ∈ (poolOf calls e).threads, t.Keeps fun _ => True := by
    intro t ht
    obtain ⟨call, -, rfl⟩ := List.mem_map.mp ht
    exact execute_keeps hnothing call.env call.db call.stmt
  exact Pool.account_run (fun call hcall => call_reports (haccountable call hcall))
    (Pool.sound_of_keeps hkeeps hback trivial hok) hdone

end Theory

/-! ## On a concrete run -/

section Concrete

attribute [local instance] asciiHost plainDebug bincode1

/-- Two connections create the same table, a third drops it. -/
def creationsAndDrop : List Call :=
  [callIn "srrdb" (intTable "t" ["a"]), callIn "srrdb" (intTable "T" ["b"]),
    callIn "srrdb" (dropTableNamed "t")]

/-- The second CREATE TABLE fails, the DROP TABLE succeeds. -/
theorem creationsAndDrop_balance :
    tableCount "srrdb" "t" (serve (.ofMemory .new none) creationsAndDrop [2, 0, 1, 2, 0, 2]) =
      0 + (1 + (0 + (-1 + 0))) := by
  have haccountable : ∀ call ∈ creationsAndDrop, Accountable "srrdb" "t" call := by
    simp [creationsAndDrop, callIn, intTable, dropTableNamed, Accountable]
  have hok : ¬ (serve (.ofMemory .new none) creationsAndDrop [2, 0, 1, 2, 0, 2]).Poisoned := by
    unfold Executor.Poisoned
    decide +kernel
  have hdone : ((poolOf creationsAndDrop (.ofMemory .new none)).run [2, 0, 1, 2, 0, 2]).results =
      some [.ok .ok, .error (.err "Table 'T' already exists"), .ok .ok] := by decide +kernel
  exact tables_balance (.ofMemory .new none) haccountable hok hdone

end Concrete

end Srrdb.Server
