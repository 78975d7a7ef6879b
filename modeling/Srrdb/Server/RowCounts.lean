/-
Srrdb.Server.RowCounts — rows are neither lost nor made up.

The rows of a table are an account that INSERT pays into and DELETE draws
from, each by the number it reports. However any statements are interleaved,
once all have answered the table holds the rows it held before, and those
reported as inserted, less those reported as deleted (`rows_balance`). DROP
TABLE reports no number and is left out; a panic under a mutex ends the
account.
-/
import Srrdb.Engine.Accounts
import Srrdb.Server.EntryDatabase
import Srrdb.Server.TableIndependence

namespace Srrdb.Server

open Srrdb.Engine Srrdb.Sql Srrdb.Lib

section Theory

variable [Host]

/-- The rows of a table, counted. -/
def rowCount (name : String) (e : Executor) : Int := (e.storage.value.getRows name).length

/-- The rows that a statement which ended so reports to have put into the table,
or taken from it. -/
def reportedRows (name : String) (stmt : Statement) : Outcome ExecuteResult → Int
  | .ok (.affected rows _) =>
    match stmt with
    | .insert ins => if SameName (tableObjectName ins.table) name then rows else 0
    | .delete del => if SameName (deleteTable del) name then -rows else 0
    | _ => 0
  | _ => 0

/-- The statement drops the table. -/
def dropsTable (name : String) : Statement → Prop
  | .drop .table names _ => SameName (firstName names) name
  | _ => False

/-! ## What the storage sections do to the count -/

theorem rowCount_eq (name : String) (e : Executor) :
    rowCount name e = (e.storage.value.table name).rows.length := by
  rw [rowCount, Storage.getRows_eq]

theorem rowCount_congr {name : String} {e e' : Executor}
    (h : e'.storage.value.tables = e.storage.value.tables) :
    rowCount name e' = rowCount name e := by
  rw [rowCount_eq, rowCount_eq, Storage.table_congr h]

theorem rowCount_indexInserted (name : String) (e : Executor) (tableName : String)
    (indexes : List IndexDef) (columns : List Column) (ids : List Nat) :
    rowCount name (e.setStorage (indexInserted e.storage.value tableName indexes columns ids)) =
      rowCount name e :=
  rowCount_congr rfl

theorem rowCount_logSnapshot (name : String) (env : Env) (tableName : String) (rows : List Row)
    (e : Executor) : rowCount name (logSnapshot env tableName rows e) = rowCount name e := by
  rw [rowCount, rowCount, logSnapshot_storage]

theorem rowCount_insertRows {name : String} (tableName : String) {e : Executor}
    (he : e.storage.value.Consistent) {rows : List Row} (hz : ∀ row ∈ rows, row.id = 0) :
    rowCount name (e.setStorage (e.storage.value.insertRows tableName rows).2) =
      rowCount name e + if SameName tableName name then (rows.length : Int) else 0 := by
  rw [rowCount_eq, rowCount_eq, Executor.setStorage_storage_value, Storage.table_insertRows]
  split
  · next hname =>
    have hperm := (Storage.insertLoop_rows_perm hz (he.sound tableName)).length_eq
    simp only [List.length_map, List.length_append] at hperm
    rw [← Storage.table_sameName _ hname]
    omega
  · simp

/-- A DELETE or UPDATE changes the count of its own table only. -/
theorem rowCount_change {name tableName : String} {change : Storage → List Row → Storage}
    {rewrite : List Row → Table → Table} (hrw : Rewrites tableName change rewrite) {e : Executor}
    {t : Table} (ht : e.storage.value.getTable? tableName = some t) {rows : List Row} {d : Int}
    (hcount : ((rewrite rows t).rows.length : Int) = t.rows.length + d) :
    rowCount name (e.setStorage (change e.storage.value rows)) =
      rowCount name e + if SameName tableName name then d else 0 := by
  rw [rowCount_eq, rowCount_eq, Executor.setStorage_storage_value, table_change hrw ht]
  split
  · next hname =>
    rw [← Storage.table_sameName _ hname, Storage.table_of_getTable? ht, hcount]
  · simp

section Selected

variable [ExprDebug] {columns : List Column} {selection : Option Expr} {t : Table}
  {rows : List Row}

/-- The selected rows and the others are all rows. -/
theorem length_selected (ht : t.Keyed) (h : selectRows columns selection t.entries = .ok rows) :
    t.rows.length =
      rows.length + (t.rows.filter fun row => !selects columns selection row).length := by
  rw [selectRows_eq_filter h, ht.entries_eq]
  exact List.length_eq_length_filter_add _

theorem length_eraseRows (ht : t.Keyed) (h : selectRows columns selection t.entries = .ok rows) :
    ((eraseRows rows t).rows.length : Int) = t.rows.length + -rows.length := by
  have hlength := length_selected ht h
  have hperm := (eraseRows_rows_perm ht h).length_eq
  omega

end Selected

omit [Host] in
theorem length_rows (t : Table) : t.rows.length = t.size := by
  rw [Table.rows, List.length_map, Std.ExtTreeMap.length_toList]

omit [Host] in
/-- Writing to rows adds none. -/
theorem length_assignRows [ExprDebug] (assigns : List (Nat × Expr)) (rows : List Row) (t : Table) :
    ((assignRows assigns rows t).rows.length : Int) = t.rows.length + 0 := by
  rw [length_rows, length_rows, Int.add_zero, Nat.cast_inj, assignRows]
  generalize (rows.map fun row => { row with values := assignValues assigns row.values }) = news
  induction news generalizing t with
  | nil => rfl
  | cons row rest ih => rw [List.foldl_cons, ih, Std.ExtTreeMap.size_modify]

/-! ## Statements that leave the count alone -/

/-- The storage is consistent and the count is `m`. -/
def Counts (name : String) (m : Int) (e : Executor) : Prop :=
  StorageConsistent e ∧ rowCount name e = m

theorem steady_counts (name : String) (m : Int) : Steady (Counts name m) where
  poisonCatalog _ he := he
  poisonStorage _ he := he

theorem Counts.sameRows {name : String} {m : Int} {e : Executor} (he : Counts name m e)
    {s : Storage} (h : e.storage.value.SameRows s) : Counts name m (e.setStorage s) :=
  ⟨h.consistent he.1, (rowCount_congr h.tables.symm).trans he.2⟩

theorem Counts.clearTable {name tn : String} {m : Int} {e : Executor} (he : Counts name m e)
    (hname : ¬ SameName tn name) :
    Counts name m (e.setStorage (e.storage.value.clearTable tn)) := by
  refine ⟨Storage.Consistent.clearTable he.1 tn, ?_⟩
  have hcount := he.2
  rw [rowCount_eq] at hcount ⊢
  rw [Executor.setStorage_storage_value, Storage.table_clearTable, if_neg hname]
  exact hcount

variable [ExprDebug] [Bincode]

theorem executeUpdate_counts (name : String) (m : Int) (env : Env) (db tableName : String)
    (assignments : List Assignment) (selection : Option Expr) :
    Handler.Keeps (Counts name m) (executeUpdate env db tableName assignments selection) := by
  have hsteady := steady_counts name m
  refine (keeps_readCatalog hsteady _).bind fun table =>
    (keeps_readCatalog hsteady _).bind fun assigns => ?_
  refine changeTail_keeps hsteady env _ (fun e t rows ht he => ?_) fun e he => he
  have hrw := updateRows_rewrites tableName table.2 table.1 assigns
  have hcount : rowCount name _ = _ := rowCount_change hrw ht (length_assignRows assigns rows t)
  rw [ite_self, Int.add_zero] at hcount
  refine ⟨?_, ?_⟩
  · rw [StorageConsistent, logSnapshot_storage]
    exact hrw.consistent he.1 rows
  · rw [rowCount_logSnapshot, ← he.2, ← hcount]

/-- Everything but an INSERT, a DELETE and a DROP TABLE of the table. -/
theorem execute_counts {name : String} (m : Int) (env : Env) (db : String) {stmt : Statement}
    (hinsert : ∀ ins, stmt ≠ .insert ins) (hdelete : ∀ del, stmt ≠ .delete del)
    (hdrop : ¬ dropsTable name stmt) : Handler.Keeps (Counts name m) (execute env db stmt) := by
  have hsteady := steady_counts name m
  have hset : ∀ e c, Counts name m e → Counts name m (e.setCatalog c) := fun _ _ he => he
  have happend : ∀ entry e, Counts name m e → Counts name m (e.append env entry) :=
    fun _ _ he => he
  have hsame : ∀ e s, Counts name m e → e.storage.value.SameRows s →
      Counts name m (e.setStorage s) := fun _ _ he h => he.sameRows h
  cases stmt with
  | createTable ct =>
    have hcreate : Handler.Keeps (Counts name m) (executeCreateTable env db ct) :=
      (keeps_catalogSection hsteady fun e => createTableSection_keeps env db _ (happend _)
        hset).bind fun _ => (keeps_save fun _ he => he).bind fun _ => Handler.keeps_pure _
    exact keeps_ite ((keeps_askCatalog _).bind fun _ => keeps_ite (Handler.keeps_pure _) hcreate)
      hcreate
  | insert ins => exact absurd rfl (hinsert ins)
  | delete del => exact absurd rfl (hdelete del)
  | update table assignments selection =>
    exact executeUpdate_counts name m env db (tableFactorName table) assignments selection
  | drop objectType names ifExists =>
    cases objectType with
    | table =>
      have hother : ¬ SameName (toLowercase (firstName names)) name := by
        rw [SameName, normalize_toLowercase]
        exact hdrop
      have hdrop : Handler.Keeps (Counts name m)
          (executeDropTable env db (firstName names)) := by
        refine (keeps_logWal (happend _)).bind fun _ => ?_
        refine (Handler.keeps_sec fun _ he => dropTableSection_keeps hsteady db _ hset
          (fun _ he => he.clearTable hother) he).bind fun _ => ?_
        exact (dropTableFiles_keeps hsteady _ (fun _ he => he) fun _ he => he).bind fun _ =>
          Handler.keeps_pure _
      exact keeps_ite ((keeps_askCatalog _).bind fun _ => keeps_ite hdrop (Handler.keeps_pure _))
        hdrop
    | database =>
      have hdrop : Handler.Keeps (Counts name m) (executeDropDatabase (firstName names)) :=
        (keeps_writeCatalog hsteady fun e c he _ => hset e c he).bind fun _ =>
          (keeps_save fun _ he => he).bind fun _ => Handler.keeps_pure _
      exact keeps_ite ((keeps_askCatalog _).bind fun _ => keeps_ite hdrop (Handler.keeps_pure _))
        hdrop
    | index =>
      refine (keeps_readCatalog hsteady _).bind fun tableName => ?_
      have hdrop := executeDropIndex_keeps hsteady env db tableName (firstName names) hset
        (happend _) hsame fun _ he => he
      exact keeps_ite ((keeps_askCatalog _).bind fun _ => keeps_ite hdrop (Handler.keeps_pure _))
        hdrop
    | other => exact execute_readOnly_keeps hsteady env db rfl
  | createDatabase dbName ifNotExists =>
    have hcreate : Handler.Keeps (Counts name m) (executeCreateDatabase dbName) :=
      (keeps_writeCatalog hsteady fun e c he _ => hset e c he).bind fun _ =>
        (keeps_save fun _ he => he).bind fun _ => Handler.keeps_pure _
    exact keeps_ite ((keeps_askCatalog _).bind fun _ => keeps_ite (Handler.keeps_pure _) hcreate)
      hcreate
  | createIndex ci =>
    refine (keeps_askCatalog _).bind fun _ => keeps_ite ?_ (Handler.keeps_throw _)
    exact executeCreateIndex_keeps hsteady env db _ ci (fun e c he _ => hset e c he) (happend _)
      hsame (fun _ he => he) fun _ he => he
  | query _ | showDatabases | showTables | use _ | explainTable _ | other =>
    exact execute_readOnly_keeps hsteady env db rfl

/-! ## INSERT and DELETE -/

omit [ExprDebug] in
/-- INSERT, from its log entry on, reports the rows it stores. -/
theorem insertTail_moves (name : String) (env : Env) (db : String) (ins : Insert)
    {filled : List Row} (hz : ∀ row ∈ filled, row.id = 0) (columns : List Column) (last : Nat) :
    Handler.Moves (Unbroken StorageConsistent) (rowCount name)
      (fun r n => n = reportedRows name (.insert ins) r)
      (do
        logWal env (.insertRows (tableObjectName ins.table) filled)
        let ids ← storeSection (tableObjectName ins.table) filled
        saveTable (tableObjectName ins.table)
        let tableIndexes ← readCatalog fun c =>
          .ok (c.getTableIndexes db (tableObjectName ins.table))
        indexSection (tableObjectName ins.table) tableIndexes columns ids
        pure (ExecuteResult.affected filled.length last)) 0 := by
  refine moves_sec_still_bind (fun _ => ⟨(), rfl⟩) (fun _ => rfl) fun _ => ?_
  refine moves_updateStorage_bind fun e he => ?_
  have hcount : rowCount name _ = _ := rowCount_insertRows (tableObjectName ins.table) he.1 hz
  rw [hcount, Int.zero_add, add_sub_cancel_left]
  refine moves_sec_still_bind (fun _ => ⟨(), rfl⟩) (fun _ => rfl) fun _ => ?_
  refine moves_catalogSection_bind fun e _ _ => ?_
  rw [Int.sub_self, Int.add_zero]
  show Handler.Moves _ _ _ (indexSection _ _ _ _ >>= fun _ => pure _) _
  unfold indexSection
  split
  · exact Handler.moves_pure rfl
  · refine moves_updateStorage_bind fun e _ => ?_
    simp only [rowCount_indexInserted, Int.sub_self, Int.add_zero]
    exact Handler.moves_pure rfl

/-- INSERT reports the rows it stores. -/
theorem executeInsert_moves (name : String) (env : Env) (db : String) (ins : Insert) :
    Handler.Moves (Unbroken StorageConsistent) (rowCount name)
      (fun r n => n = reportedRows name (.insert ins) r)
      (executeInsert env db (tableObjectName ins.table) ins.columns ins.source) 0 := by
  refine moves_readCatalog_bind (fun _ tableDef _ _ => ?_) fun msg => rfl
  refine moves_liftOutcome_bind (fun rows hs => ?_) fun x _ => rfl
  have hz : ∀ row ∈ rows, row.id = 0 := by
    cases hsource : sourceRows tableDef.columns ins.columns ins.source with
    | error msg => rw [hsource] at hs; cases hs
    | ok rows' => rw [hsource] at hs; cases hs; exact sourceRows_id_eq_zero hsource
  refine moves_catalogSection_bind fun e _ _ => ?_
  simp only [rowCount, Executor.setCatalog_storage, Int.sub_self, Int.add_zero]
  rcases hf : fillRows env.now (tableObjectName ins.table) tableDef.columns 0 rows 0
    e.catalog.value with ⟨x | ⟨filled, last⟩, c⟩
  · rfl
  · obtain ⟨-, -, hsup⟩ := fillRows_eq_ok hf
    exact insertTail_moves name env db ins (hsup.id_eq_zero hz) tableDef.columns last

/-- DELETE reports the rows it takes. -/
theorem executeDelete_moves (name : String) (env : Env) (db : String) (del : Delete) :
    Handler.Moves (Unbroken StorageConsistent) (rowCount name)
      (fun r n => n = reportedRows name (.delete del) r)
      (executeDelete env db (deleteTable del) del.selection) 0 := by
  refine moves_readCatalog_bind (fun _ table _ _ => ?_) fun msg => rfl
  refine moves_storageSection_bind fun e he _ => ?_
  cases ht : e.storage.value.getTable? (deleteTable del) with
  | none => exact (Int.zero_add _).trans (Int.sub_self _)
  | some t =>
    cases hsel : selectRows table.1 del.selection t.entries with
    | error x =>
      dsimp only
      rw [hsel]
      exact (Int.zero_add _).trans (Int.sub_self _)
    | ok rows =>
      have hkeyed : t.Keyed := he.1.keyed ht
      have hcount : rowCount name (e.setStorage (deleteRows e.storage.value _ _ _ rows)) = _ :=
        rowCount_change (deleteRows_rewrites (deleteTable del) table.2 table.1) ht
          (length_eraseRows hkeyed hsel)
      dsimp only
      rw [hsel]
      refine moves_sec_still_bind (fun _ => ⟨(), rfl⟩) (fun _ => rfl) fun _ => ?_
      refine Handler.moves_pure ?_
      simp only [rowCount_logSnapshot, hcount]
      rw [add_sub_cancel_left, Int.zero_add]
      rfl

theorem call_moves {name : String} (call : Call) (hdrop : ¬ dropsTable name call.stmt) :
    call.program.Moves (Unbroken StorageConsistent) (rowCount name)
      (fun r n => n = reportedRows name call.stmt r) 0 := by
  obtain ⟨env, db, stmt⟩ := call
  by_cases hinsert : ∃ ins, stmt = .insert ins
  · obtain ⟨ins, rfl⟩ := hinsert
    exact executeInsert_moves name env db ins
  by_cases hdelete : ∃ del, stmt = .delete del
  · obtain ⟨del, rfl⟩ := hdelete
    exact executeDelete_moves name env db del
  refine Handler.Keeps.moves (fun _ he => he.1) (fun m => execute_counts m env db
    (fun ins h => hinsert ⟨ins, h⟩) (fun del h => hdelete ⟨del, h⟩) hdrop) fun r => ?_
  rcases r with x | (_ | _ | ⟨rows, last⟩ | _)
  all_goals try rfl
  cases stmt with
  | insert ins => exact absurd ⟨ins, rfl⟩ hinsert
  | delete del => exact absurd ⟨del, rfl⟩ hdelete
  | _ => rfl

/-! ## The balance -/

/-- However the statements are interleaved, the rows of a table are those it had,
and those inserted, less those deleted. -/
theorem rows_balance {e : Executor} (he : Reachable e) {name : String} {calls : List Call}
    (hdrop : ∀ call ∈ calls, ¬ dropsTable name call.stmt) {schedule : List Nat}
    (hok : ¬ (serve e calls schedule).Poisoned) {results : List (Outcome ExecuteResult)}
    (hdone : ((poolOf calls e).run schedule).results = some results) :
    rowCount name (serve e calls schedule) = rowCount name e +
      (List.zipWith (fun call r => reportedRows name call.stmt r) calls results).sum := by
  have hthreads : ∀ {J : Executor → Prop}, Closed J →
      ∀ t ∈ (poolOf calls e).threads, t.Keeps J := by
    intro J hJ t ht
    obtain ⟨call, -, rfl⟩ := List.mem_map.mp ht
    exact execute_keeps hJ call.env call.db call.stmt
  exact Pool.account_run (fun call hcall => call_moves call (hdrop call hcall))
    (Pool.sound_of_keeps (hthreads closed_storageConsistent) (hthreads closed_poisoned)
      he.consistent hok) hdone

end Theory

/-! ## On a concrete run -/

section Concrete

attribute [local instance] asciiHost plainDebug bincode1

/-- A table `t` without rows. -/
def freshTable : Executor :=
  (Executor.ofMemory .new none).after (callIn "srrdb" (intTable "t" ["a"]))

/-- Two INSERTs and a DELETE of everything. -/
def insertsAndDelete : List Call :=
  [callIn "srrdb" (insertNumbers "t" [["1"], ["2"]]), callIn "srrdb" (insertNumbers "t" [["3"]]),
    callIn "srrdb" (deleteFrom "t" none)]

/-- The DELETE takes the rows of the first INSERT, before the second stores its
own. -/
def betweenInserts : List Nat := [1, 0, 0, 1, 0, 0, 2, 2, 2, 1, 1, 1, 1, 0, 0, 0, 0]

theorem insertsAndDelete_balance :
    rowCount "t" (serve freshTable insertsAndDelete betweenInserts) = 0 + (2 + (1 + (-2 + 0))) := by
  have hdrop : ∀ call ∈ insertsAndDelete, ¬ dropsTable "t" call.stmt := by
    simp [insertsAndDelete, callIn, insertNumbers, deleteFrom, dropsTable]
  have hok : ¬ (serve freshTable insertsAndDelete betweenInserts).Poisoned := by
    unfold Executor.Poisoned
    decide +kernel
  have hdone : ((poolOf insertsAndDelete freshTable).run betweenInserts).results =
      some [.ok (.affected 2 0), .ok (.affected 1 0), .ok (.affected 2 0)] := by decide +kernel
  exact rows_balance ((Reachable.fresh none).after _) hdrop hok hdone

end Concrete

end Srrdb.Server
