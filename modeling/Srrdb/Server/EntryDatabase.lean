/-
Srrdb.Server.EntryDatabase — into which database a log entry is replayed.

The entries of CREATE TABLE and DROP TABLE carry no database, and replay takes
`srrdb`. The entries of INSERT, UPDATE and DELETE name a table only, and so
does the storage: a table of the same name in another database shares its
rows, live and on replay. `ReplaysAway` names the successful statements whose
entry goes astray in one of these ways, in terms of the state before them.
-/
import Srrdb.Engine.FailedEntries
import Srrdb.Engine.LogReplay
import Srrdb.Server.Reachable

namespace Srrdb.Server

open Srrdb.Engine Srrdb.Sql Srrdb.Lib

section Theory

variable [Host]

/-! ## What a database shows of its tables -/

/-- The definition and the rows of a table, if the database has it. -/
def tableView (m : Memory) (db name : String) : Option (TableDef × Table) :=
  (m.catalog.findTable db name).map fun t => (t, m.storage.table name)

/-- Another database has a table of the name. -/
def SharedName (c : Catalog) (db name : String) : Prop :=
  ∃ db', ¬ SameName db db' ∧ c.tableExists db' name = true

theorem tableView_congr {m m' : Memory} (h : m.SameTables m') (db name : String) :
    tableView m db name = tableView m' db name := by
  rw [tableView, tableView, Catalog.findTable_congr h.databases,
    Storage.table_congr h.rows.tables]

/-- A statement that leaves the definitions of other databases alone and
changes the rows under one name is seen there exactly if the name is shared. -/
theorem tableView_others_iff {m m' : Memory} {db : String} (tableName : String) (t : Table)
    (hfind : ∀ db', ¬ SameName db db' → ∀ name,
      m'.catalog.findTable db' name = m.catalog.findTable db' name)
    (htable : ∀ name, m'.storage.table name =
      if SameName tableName name then t else m.storage.table name) :
    (∀ db', ¬ SameName db db' → ∀ name, tableView m' db' name = tableView m db' name) ↔
      ¬ (SharedName m.catalog db tableName ∧ t ≠ m.storage.table tableName) := by
  constructor
  · intro hview hshared
    obtain ⟨⟨db', hdb', hexists⟩, hne⟩ := hshared
    have hsame := hview db' hdb' tableName
    rw [Catalog.tableExists_eq, Option.isSome_iff_exists] at hexists
    obtain ⟨tableDef, hdef⟩ := hexists
    rw [tableView, tableView, hfind db' hdb', hdef, htable, if_pos rfl] at hsame
    exact hne (congrArg Prod.snd (Option.some.inj hsame))
  · intro hno db' hdb' name
    rw [tableView, tableView, hfind db' hdb']
    cases hdef : m.catalog.findTable db' name with
    | none => rfl
    | some tableDef =>
      rw [htable]
      split
      · next hname =>
        have heq : t = m.storage.table tableName := by
          refine not_not.mp fun hne => hno ⟨⟨db', hdb', ?_⟩, hne⟩
          rw [Catalog.tableExists_sameName rfl hname, Catalog.tableExists_eq, hdef]
          rfl
        have hold : m.storage.table tableName = m.storage.table name := by
          rw [Storage.table, Storage.table, hname]
        rw [heq, hold]
      · rfl

/-! ## Entries that come home -/

variable [ExprDebug] [Bincode]

/-- The statements on tables and rows. -/
def onRows : Statement → Bool
  | .createTable _ | .drop .table _ _ | .insert _ | .update .. | .delete _ => true
  | _ => false

/-- The entry of a successful statement has its effect on the tables of the
database it ran in, and none on those of another. -/
def ReplaysHome (e : Executor) (call : Call) : Prop :=
  onRows call.stmt = true → call.env.appendOk = true → ∀ result, call.result e = .ok result →
    let m := e.memory.applyAll (call.logged e)
    (∀ name, tableView m call.db name = tableView (e.after call).memory call.db name) ∧
      ∀ db, ¬ SameName call.db db → ∀ name, tableView m db name = tableView e.memory db name

/-- A successful statement whose entry goes astray. -/
def ReplaysAway (e : Executor) (call : Call) : Prop :=
  call.env.appendOk = true ∧ e.catalog.poisoned = false ∧
  match call.stmt with
  | .createTable ct =>
      NameFree e.catalog.value call.db (nameToString ct.name) ∧ ¬ SameName call.db "srrdb"
  | .drop .table names _ =>
      let tableName := firstName names
      e.storage.poisoned = false ∧ e.catalog.value.tableExists call.db tableName = true ∧
      (SameName call.db "srrdb" → SharedName e.catalog.value call.db tableName ∧
        e.storage.value.getRows tableName ≠ [])
  | .insert ins =>
      let tableName := tableObjectName ins.table
      e.storage.poisoned = false ∧ SharedName e.catalog.value call.db tableName ∧
      ∃ tableDef rows, e.catalog.value.getTable call.db tableName = .ok tableDef ∧
        sourceRows tableDef.columns ins.columns ins.source = .ok rows ∧
        Wide tableDef.columns rows ∧ rows ≠ []
  | .delete del =>
      let tableName := deleteTable del
      e.storage.poisoned = false ∧ SharedName e.catalog.value call.db tableName ∧
      ∃ tableDef t rows, e.catalog.value.getTable call.db tableName = .ok tableDef ∧
        e.storage.value.getTable? tableName = some t ∧
        selectRows tableDef.columns del.selection t.entries = .ok rows ∧ rows ≠ []
  | .update table assignments selection =>
      let tableName := tableFactorName table
      e.storage.poisoned = false ∧ SharedName e.catalog.value call.db tableName ∧
      ∃ tableDef assigns t rows, e.catalog.value.getTable call.db tableName = .ok tableDef ∧
        assignments.mapM (assignIndex tableDef.columns) = .ok assigns ∧
        e.storage.value.getTable? tableName = some t ∧
        selectRows tableDef.columns selection t.entries = .ok rows ∧
        ∃ row ∈ rows, assignValues assigns row.values ≠ row.values
  | _ => False

/-- The property of the result and the server a statement leaves. -/
def HomeAfter (e : Executor) (db : String) (r : Outcome ExecuteResult) (e' : Executor) : Prop :=
  ∀ result, r = .ok result →
    let m := e.memory.applyAll (e'.wal.drop e.wal.length)
    (∀ name, tableView m db name = tableView e'.memory db name) ∧
      ∀ db', ¬ SameName db db' → ∀ name, tableView m db' name = tableView e.memory db' name

omit [ExprDebug] [Bincode] in
theorem homeAfter_of_error {e e' : Executor} {db : String} {x : Stop} :
    HomeAfter e db (.error x) e' :=
  fun _ h => by cases h

omit [ExprDebug] [Bincode] in
theorem homeAfter_refl {e : Executor} {db : String} {r : Outcome ExecuteResult} :
    HomeAfter e db r e := by
  intro _ _
  rw [List.drop_length]
  exact ⟨fun _ => rfl, fun _ _ _ => rfl⟩

omit [ExprDebug] [Bincode] in
/-- An entry that reproduces the statement comes home exactly if the statement
itself is not seen in another database. -/
theorem homeAfter_of_reproduced {e e' : Executor} {db : String} {result : ExecuteResult}
    (h : Reproduced e e') :
    HomeAfter e db (.ok result) e' ↔
      ∀ db', ¬ SameName db db' → ∀ name,
        tableView e'.memory db' name = tableView e.memory db' name := by
  obtain ⟨entries, hwal, hsame⟩ := h
  have hdrop : e'.wal.drop e.wal.length = entries := by rw [hwal, List.drop_left]
  constructor
  · intro hhome db' hdb' name
    have hother := (hhome result rfl).2 db' hdb' name
    rw [hdrop] at hother
    rw [← tableView_congr hsame, hother]
  · intro hothers _ _
    rw [hdrop]
    refine ⟨fun name => tableView_congr hsame db name, fun db' hdb' name => ?_⟩
    rw [tableView_congr hsame, hothers db' hdb' name]

omit [ExprDebug] [Bincode] in
/-- Replay defines and drops tables in `srrdb` only. -/
theorem findTable_applyEntry {m : Memory} {db : String} (hdb : ¬ SameName "srrdb" db)
    (entry : WalEntry) (name : String) :
    (m.applyEntry entry).2.catalog.findTable db name = m.catalog.findTable db name := by
  cases entry with
  | createTable tableName columns =>
    rw [Memory.applyEntry]
    cases h : m.catalog.createTable "srrdb" tableName columns with
    | error msg => rfl
    | ok c => exact (Catalog.findTable_createTable h db name).trans (if_neg fun hs => hdb hs.1)
  | dropTable tableName =>
    rw [Memory.applyEntry]
    cases h : m.catalog.dropTable "srrdb" tableName with
    | error msg => rfl
    | ok c => exact (Catalog.findTable_dropTable h db name).trans (if_neg fun hs => hdb hs.1)
  | createIndex dbName indexDef =>
    rw [Memory.applyEntry]
    cases h : m.catalog.createIndex dbName indexDef with
    | error msg => rfl
    | ok c => exact Catalog.findTable_createIndex h db name
  | dropIndex dbName indexName tableName =>
    rw [Memory.applyEntry]
    cases h : m.catalog.dropIndex dbName indexName tableName with
    | error msg => rfl
    | ok c => exact Catalog.findTable_dropIndex h db name
  | insertRows tableName rows | tableSnapshot tableName rows | checkpoint => rfl

omit [ExprDebug] [Bincode] in
/-- A statement that defined or dropped a table outside `srrdb`. -/
theorem not_homeAfter {env : Env} {e e' : Executor} {db : String} {result : ExecuteResult}
    {entry : WalEntry} (hok : env.appendOk = true) (hwal : e'.wal = e.wal ++ env.logged entry)
    (hdb : ¬ SameName db "srrdb") {name : String} {b : Bool}
    (hold : e.catalog.value.tableExists db name = b)
    (hnew : e'.catalog.value.tableExists db name = !b) :
    ¬ HomeAfter e db (.ok result) e' := by
  intro hhome
  have hview := (hhome result rfl).1 name
  rw [hwal, List.drop_left, Env.logged, if_pos hok] at hview
  have hsome := congrArg Option.isSome hview
  rw [tableView, tableView, Option.isSome_map, Option.isSome_map, Memory.applyAll_cons,
    Memory.applyAll_nil, findTable_applyEntry fun h => hdb h.symm] at hsome
  have hflip : b = !b := hold.symm.trans (hsome.trans hnew)
  cases b <;> cases hflip

/-! ## Statement by statement -/

omit [Bincode] in
/-- A locked catalog lets no entry through. -/
theorem homeAfter_of_locked {e e' : Executor} {call : Call} {db : String} {x : Stop}
    (hc : e.catalog.poisoned = true) : HomeAfter e db (.error x) e' ↔ ¬ ReplaysAway e call :=
  iff_of_true homeAfter_of_error fun hl => absurd (hc.symm.trans hl.2.1) (by decide)

theorem createTable_homeAfter {env : Env} {db : String} {ct : CreateTable} {e e' : Executor}
    {r : Outcome ExecuteResult} (hok : env.appendOk = true)
    (h : CreateTableOutcome env db (nameToString ct.name)
      (createColumns (nameToString ct.name) ct.columns) e r e') :
    HomeAfter e db r e' ↔ ¬ ReplaysAway e ⟨env, db, .createTable ct⟩ := by
  have hrep := fun hdb hc => createTable_reproduced (e := e) hdb hok hc h
  cases h with
  | locked hc => exact homeAfter_of_locked hc
  | rejected hc h =>
    refine iff_of_true homeAfter_of_error ?_
    intro hl
    obtain ⟨-, -, hfree, -⟩ := hl
    exact Catalog.createTable_rejected h hfree
  | @created c hc h =>
    have hfree : NameFree e.catalog.value db (nameToString ct.name) :=
      Catalog.createTable_isOk.mp ⟨c, h⟩
    have hfind := Catalog.findTable_createTable h
    by_cases hdb : SameName db "srrdb"
    · refine iff_of_true ?_ fun hl => hl.2.2.2 hdb
      rw [homeAfter_of_reproduced (hrep hdb hc)]
      intro db' hdb' name
      have hsame : c.findTable db' name = e.catalog.value.findTable db' name := by
        rw [hfind, if_neg fun h => hdb' h.1]
      exact congrArg (Option.map fun t => (t, e.storage.value.table name)) hsame
    · have hnew : c.tableExists db (nameToString ct.name) = true := by
        rw [Catalog.tableExists_eq, hfind, if_pos ⟨rfl, rfl⟩]
        rfl
      exact iff_of_false (not_homeAfter hok rfl hdb hfree.2 hnew)
        (not_not.mpr ⟨hok, hc, hfree, hdb⟩)

theorem dropTable_homeAfter {env : Env} {db : String} {names : List ObjectName}
    {ifExists : Bool} {e e' : Executor} {r : Outcome ExecuteResult}
    (hok : env.appendOk = true) (hcons : e.storage.value.Consistent)
    (h : DropTableOutcome env db (toLowercase (firstName names)) e r e') :
    HomeAfter e db r e' ↔ ¬ ReplaysAway e ⟨env, db, .drop .table names ifExists⟩ := by
  have hrep := fun hdb he => (dropTable_carried (e := e) hdb hok h he).2
  cases h with
  | locked hc => exact homeAfter_of_locked hc
  | rejected hc h =>
    refine iff_of_true homeAfter_of_error ?_
    intro hl
    obtain ⟨-, -, -, hexists, -⟩ := hl
    rw [← tableExists_toLowercase, Catalog.dropTable_rejected h] at hexists
    cases hexists
  | uncleared hc h hst =>
    exact iff_of_true homeAfter_of_error fun hl => by simp [ReplaysAway, hst] at hl
  | @dropped c hc h hst =>
    have hexists := tableExists_of_dropTable h
    have hfind := Catalog.findTable_dropTable h
    by_cases hdb : SameName db "srrdb"
    · have hothers : ∀ db', ¬ SameName db db' → ∀ name,
          c.findTable db' name = e.catalog.value.findTable db' name := by
        intro db' hdb' name
        rw [hfind, if_neg fun h => hdb' h.1]
      have htable : ∀ name, (e.storage.value.clearTable (toLowercase (firstName names))).table name =
          if SameName (firstName names) name then ∅ else e.storage.value.table name := by
        intro name
        rw [Storage.table_clearTable]
        exact if_congr (Eq.congr_left (normalize_toLowercase _)) rfl rfl
      rw [homeAfter_of_reproduced (hrep hdb ⟨hc, hst, hcons⟩)]
      refine (tableView_others_iff (firstName names) ∅ hothers htable).trans (not_congr ?_)
      rw [ne_comm, ne_eq, ← Table.rows_eq_nil_iff, ← Storage.getRows_eq]
      exact ⟨fun hl => ⟨hok, hc, hst, hexists, fun _ => hl⟩, fun hl => hl.2.2.2.2 hdb⟩
    · have hgone : c.tableExists db (firstName names) = false := by
        rw [Catalog.tableExists_eq, hfind, if_pos ⟨rfl, normalize_toLowercase _⟩]
        rfl
      exact iff_of_false (not_homeAfter hok rfl hdb hexists hgone)
        (not_not.mpr ⟨hok, hc, hst, hexists, fun h => absurd h hdb⟩)

/-- INSERT is seen in another database if the name is shared and there is a
row to insert. -/
theorem insert_homeAfter {env : Env} {db : String} {ins : Insert} {e e' : Executor}
    {r : Outcome ExecuteResult} (hok : env.appendOk = true) (hcons : e.storage.value.Consistent)
    (h : InsertOutcome env db (tableObjectName ins.table) ins.columns ins.source e r e') :
    HomeAfter e db r e' ↔ ¬ ReplaysAway e ⟨env, db, .insert ins⟩ := by
  have hrep := fun hr he => (insert_carried (e := e) hok hr h he).2
  cases h with
  | locked hc => exact homeAfter_of_locked hc
  | noTable hc h =>
    refine iff_of_true homeAfter_of_error ?_
    intro hl
    obtain ⟨-, -, -, -, t, rows, ht, -⟩ := hl
    rw [h] at ht
    cases ht
  | badSource hc h hs =>
    refine iff_of_true homeAfter_of_error ?_
    intro hl
    obtain ⟨-, -, -, -, t, rows, ht, hrows, -⟩ := hl
    rw [h] at ht
    cases ht
    rw [hs] at hrows
    cases hrows
  | panicked hc h hs hf =>
    refine iff_of_true homeAfter_of_error ?_
    intro hl
    obtain ⟨-, -, -, -, t, rows, ht, hrows, hwide, -⟩ := hl
    rw [h] at ht
    cases ht
    rw [hs] at hrows
    cases hrows
    exact not_wide_of_fillRows hf hwide
  | unstored hc h hs hf hst =>
    exact iff_of_true homeAfter_of_error fun hl => by simp [ReplaysAway, hst] at hl
  | @stored tableDef rows filled last c hc h hs hf hst =>
    obtain ⟨hwide, rfl, hsup⟩ := fillRows_eq_ok hf
    have hz := hsup.id_eq_zero (sourceRows_id_eq_zero hs)
    have hnil : filled = [] ↔ rows = [] := by
      rw [← List.length_eq_zero_iff, hsup.length_eq, List.length_eq_zero_iff]
    rw [homeAfter_of_reproduced (hrep (by simp) ⟨hc, hst, hcons⟩)]
    refine (tableView_others_iff (tableObjectName ins.table)
      (Storage.insertLoop (e.storage.value.table (tableObjectName ins.table))
        (e.storage.value.nextId (tableObjectName ins.table)) filled).1
      (fun db' _ name => ?_) fun name => ?_).trans (not_congr ?_)
    · rw [Executor.memory_catalog, insertDone_catalog]
      exact Catalog.findTable_congr (Catalog.draw_databases _) db' name
    · rw [Executor.memory_storage, ← Storage.table_congr (insertDone_sameRows _ _ _ _ _).tables]
      exact Storage.table_insertRows _ _ _ name
    · have hchange : (Storage.insertLoop (e.storage.value.table (tableObjectName ins.table))
          (e.storage.value.nextId (tableObjectName ins.table)) filled).1 ≠
            e.storage.value.table (tableObjectName ins.table) ↔ rows ≠ [] := by
        constructor
        · intro hne hrows
          rw [hnil.mpr hrows] at hne
          exact hne rfl
        · intro hne
          exact insertLoop_ne_self (hcons.sound _) hz fun h => hne (hnil.mp h)
      constructor
      · intro hl
        exact ⟨hok, hc, hst, hl.1, tableDef, rows, h, hs, hwide, hchange.mp hl.2⟩
      · intro hl
        obtain ⟨-, -, -, hshared, t, rows', ht, hrows, -, hne⟩ := hl
        rw [h] at ht
        cases ht
        rw [hs] at hrows
        cases hrows
        exact ⟨hshared, hchange.mpr hne⟩

omit [ExprDebug] [Bincode] in
theorem table_change {tableName : String} {change : Storage → List Row → Storage}
    {rewrite : List Row → Table → Table} (hrw : Rewrites tableName change rewrite) {s : Storage}
    {t : Table} (ht : s.getTable? tableName = some t) (rows : List Row) (name : String) :
    (change s rows).table name =
      if SameName tableName name then rewrite rows t else s.table name := by
  rw [Storage.table_congr (hrw.sameRows s rows).tables,
    Storage.table_modifyTable s tableName (hrw.empty rows), Storage.table_of_getTable? ht]

/-- DELETE and UPDATE are seen in another database if the name is shared and
the table changes. -/
theorem change_homeAfter {env : Env} {db tableName : String} {columns : List Column}
    {selection : Option Expr} {change : Storage → List Row → Storage}
    {rewrite : List Row → Table → Table} {e e' : Executor} {r : Outcome ExecuteResult}
    (hok : env.appendOk = true) (hc : e.catalog.poisoned = false)
    (hcons : e.storage.value.Consistent) (hrw : Rewrites tableName change rewrite)
    (h : ChangeOutcome env tableName columns selection change e r e') :
    HomeAfter e db r e' ↔ ¬ (e.storage.poisoned = false ∧
      SharedName e.catalog.value db tableName ∧ ∃ t rows,
        e.storage.value.getTable? tableName = some t ∧
        selectRows columns selection t.entries = .ok rows ∧ rewrite rows t ≠ t) := by
  have hrep := fun hr he => (change_carried (e := e) hok hr hrw h he).2
  cases h with
  | locked hst => exact iff_of_true homeAfter_of_error fun hl => by simp [hst] at hl
  | noEntry hst ht => exact iff_of_true homeAfter_of_error fun hl => by simp [ht] at hl
  | panicked hst ht hsel =>
    refine iff_of_true homeAfter_of_error ?_
    intro hl
    obtain ⟨-, -, t, rows, ht', hrows, -⟩ := hl
    rw [ht] at ht'
    cases ht'
    rw [hsel] at hrows
    cases hrows
  | @changed t rows hst ht hsel =>
    rw [homeAfter_of_reproduced (hrep (by simp) ⟨hc, hst, hcons⟩)]
    refine (tableView_others_iff tableName (rewrite rows t) (fun db' _ name => ?_)
      fun name => ?_).trans (not_congr ?_)
    · rw [Executor.memory_catalog, Executor.saveTable_catalog, logSnapshot]
      split <;> rfl
    · rw [Executor.memory_storage, Executor.saveTable_storage, logSnapshot]
      split <;> exact table_change hrw ht rows name
    · rw [Executor.memory_storage, Storage.table_of_getTable? ht]
      constructor
      · intro hl
        exact ⟨hst, hl.1, t, rows, ht, hsel, hl.2⟩
      · intro hl
        obtain ⟨-, hshared, t', rows', ht', hrows, hne⟩ := hl
        rw [ht] at ht'
        cases ht'
        rw [hsel] at hrows
        cases hrows
        exact ⟨hshared, hne⟩

theorem delete_homeAfter {env : Env} {db : String} {del : Delete} {e e' : Executor}
    {r : Outcome ExecuteResult} (hok : env.appendOk = true) (hcons : e.storage.value.Consistent)
    (h : DeleteOutcome env db (deleteTable del) del.selection e r e') :
    HomeAfter e db r e' ↔ ¬ ReplaysAway e ⟨env, db, .delete del⟩ := by
  cases h with
  | locked hc => exact homeAfter_of_locked hc
  | noTable hc h =>
    refine iff_of_true homeAfter_of_error ?_
    intro hl
    obtain ⟨-, -, -, -, tableDef, t, rows, ht, -⟩ := hl
    rw [h] at ht
    cases ht
  | @ran tableDef r e' hc h hch =>
    refine (change_homeAfter hok hc hcons (deleteRows_rewrites _ _ _) hch).trans (not_congr ?_)
    constructor
    · intro hl
      obtain ⟨hst, hshared, t, rows, ht, hsel, hne⟩ := hl
      refine ⟨hok, hc, hst, hshared, tableDef, t, rows, h, ht, hsel, ?_⟩
      rintro rfl
      exact hne rfl
    · intro hl
      obtain ⟨-, -, hst, hshared, tableDef', t, rows, hdef, ht, hsel, hne⟩ := hl
      rw [h] at hdef
      cases hdef
      exact ⟨hst, hshared, t, rows, ht, hsel, eraseRows_ne_self (hcons.keyed ht) hsel hne⟩

theorem update_homeAfter {env : Env} {db : String} {table : TableFactor}
    {assignments : List Assignment} {selection : Option Expr} {e e' : Executor}
    {r : Outcome ExecuteResult} (hok : env.appendOk = true) (hcons : e.storage.value.Consistent)
    (h : UpdateOutcome env db (tableFactorName table) assignments selection e r e') :
    HomeAfter e db r e' ↔ ¬ ReplaysAway e ⟨env, db, .update table assignments selection⟩ := by
  cases h with
  | locked hc => exact homeAfter_of_locked hc
  | noTable hc h =>
    refine iff_of_true homeAfter_of_error ?_
    intro hl
    obtain ⟨-, -, -, -, tableDef, assigns, t, rows, ht, -⟩ := hl
    rw [h] at ht
    cases ht
  | badAssignment hc h ha =>
    refine iff_of_true homeAfter_of_error ?_
    intro hl
    obtain ⟨-, -, -, -, tableDef, assigns, t, rows, ht, hassigns, -⟩ := hl
    rw [h] at ht
    cases ht
    rw [ha] at hassigns
    cases hassigns
  | @ran tableDef assigns r e' hc h ha hch =>
    refine (change_homeAfter hok hc hcons (updateRows_rewrites _ _ _ _) hch).trans (not_congr ?_)
    constructor
    · intro hl
      obtain ⟨hst, hshared, t, rows, ht, hsel, hne⟩ := hl
      rw [ne_eq, assignRows_eq_self_iff (hcons.keyed ht) hsel] at hne
      push Not at hne
      exact ⟨hok, hc, hst, hshared, tableDef, assigns, t, rows, h, ha, ht, hsel, hne⟩
    · intro hl
      obtain ⟨-, -, hst, hshared, tableDef', assigns', t, rows, hdef, ha', ht, hsel, hne⟩ := hl
      rw [h] at hdef
      cases hdef
      rw [ha] at ha'
      cases ha'
      refine ⟨hst, hshared, t, rows, ht, hsel, ?_⟩
      rw [ne_eq, assignRows_eq_self_iff (hcons.keyed ht) hsel]
      push Not
      exact hne

omit [ExprDebug] [Bincode] in
/-- A statement that ended without running its handler has nothing to replay. -/
theorem not_away_of_skipped [ExprDebug] {e : Executor} {env : Env} {db : String}
    {stmt : Statement} {r : Outcome ExecuteResult} (h : Skipped e db r stmt) : ¬ ReplaysAway e ⟨env, db, stmt⟩ := by
  intro hl
  obtain ⟨-, hc, hl⟩ := hl
  cases stmt with
  | createTable ct =>
    have hfree : e.catalog.value.tableExists db (nameToString ct.name) = false := hl.1.2
    rw [h.2] at hfree
    cases hfree
  | drop objectType names ifExists =>
    cases objectType with
    | table => exact h ⟨hc, hl.2.1⟩
    | database | index | other => exact hl
  | insert _ | delete _ | update _ _ _ => exact h
  | query _ | createDatabase _ _ | showDatabases | showTables | use _ | explainTable _
  | createIndex _ | other => exact hl

/-- The entry of a statement comes home exactly when it is not one of those
`ReplaysAway` names. -/
theorem replaysHome_iff {e : Executor} (hcons : e.storage.value.Consistent) (call : Call) :
    ReplaysHome e call ↔ ¬ ReplaysAway e call := by
  by_cases hok : call.env.appendOk = true
  · have heffect := call.effect e
    have hhome : ReplaysHome e call ↔
        (onRows call.stmt = true → HomeAfter e call.db (call.result e) (e.after call)) :=
      ⟨fun h hrows => h hrows hok, fun h hrows _ => h hrows⟩
    rw [hhome]
    obtain ⟨env, db, stmt⟩ := call
    generalize Call.result ⟨env, db, stmt⟩ e = r, e.after ⟨env, db, stmt⟩ = e' at heffect ⊢
    cases heffect with
    | none r hskip => exact iff_of_true (fun _ => homeAfter_refl) (not_away_of_skipped hskip)
    | createTable h => exact (forall_prop_of_true rfl).trans (createTable_homeAfter hok h)
    | insert h => exact (forall_prop_of_true rfl).trans (insert_homeAfter hok hcons h)
    | delete h => exact (forall_prop_of_true rfl).trans (delete_homeAfter hok hcons h)
    | update h => exact (forall_prop_of_true rfl).trans (update_homeAfter hok hcons h)
    | dropTable h => exact (forall_prop_of_true rfl).trans (dropTable_homeAfter hok hcons h)
    | dropIndex hfind h | createIndex hcols h | createDatabase h | dropDatabase h =>
      exact iff_of_true (fun hrows => by cases hrows) fun hl => hl.2.2
  · exact iff_of_true (fun _ h => absurd h hok) fun hl => hok hl.1

/-- In a run of a reachable server, the entries come home exactly as long as
none of the statements is one of those `ReplaysAway` names. -/
theorem run_replaysHome_iff {e : Executor} (h : Reachable e) (calls : List Call) :
    Every Executor.after ReplaysHome e calls ↔
      Every Executor.after (fun e call => ¬ ReplaysAway e call) e calls :=
  Every.congr_of_invariant (fun _ call he => he.after call)
    (fun _ call he => replaysHome_iff he.consistent call) h

end Theory

section Concrete

attribute [local instance] asciiHost plainDebug bincode1

/-- An empty server with a second database. -/
def twoDatabases : Executor :=
  (Executor.ofMemory .new none).after (callIn "srrdb" (.createDatabase ["d"] false))

theorem twoDatabases_reachable : Reachable twoDatabases := (Reachable.fresh none).after _

/-- A table created in `d` is replayed into `srrdb`. -/
theorem twoDatabases_not_home : ¬ ReplaysHome twoDatabases (callIn "d" (intTable "t" ["a"])) := by
  intro h
  have hresult : (callIn "d" (intTable "t" ["a"])).result twoDatabases = .ok .ok := by
    decide +kernel
  have hview : tableView (twoDatabases.memory.applyAll
      ((callIn "d" (intTable "t" ["a"])).logged twoDatabases)) "d" "t" =
      tableView (twoDatabases.after (callIn "d" (intTable "t" ["a"]))).memory "d" "t" :=
    (h rfl rfl _ hresult).1 "t"
  have hreplayed : (tableView (twoDatabases.memory.applyAll
      ((callIn "d" (intTable "t" ["a"])).logged twoDatabases)) "d" "t").isSome = false := by
    decide +kernel
  have hlive : (tableView (twoDatabases.after (callIn "d" (intTable "t" ["a"]))).memory "d"
      "t").isSome = true := by decide +kernel
  rw [← hview, hreplayed] at hlive
  cases hlive

theorem twoDatabases_home_elsewhere :
    let calls := [callIn "srrdb" (intTable "t" ["a"]), callIn "srrdb" (insertNumbers "t" [["1"]])]
    Every Executor.after ReplaysHome twoDatabases calls ↔
      Every Executor.after (fun e call => ¬ ReplaysAway e call) twoDatabases calls :=
  run_replaysHome_iff twoDatabases_reachable _

end Concrete

end Srrdb.Server
