/-
Srrdb.Server.RelationRefinement — the executor is a database of lists.

Under every interleaving of statements, the catalog, the rows and the answers
are ones that the database of `Relations` may come to under some interleaving
of the same statements (`runs_refine`). A section that has to do with ids,
index data, the log or files is a pause of that database; each other section
of a statement is one of its steps. A panic under a mutex is left out.
-/
import Srrdb.Engine.Accounts
import Srrdb.Lib.Refinement
import Srrdb.Server.IndexLookup
import Srrdb.Server.RelationSteps
import Srrdb.Server.RowCounts
import Srrdb.Server.RowWidth
import Srrdb.Server.TableIndependence

namespace Srrdb.Server

open Srrdb.Engine Srrdb.Sql Srrdb.Lib Relations

section Theory

variable [Host]

/-! ## Sections -/

/-- The handler does what the work does, and they end alike. -/
def DoesAs {α β : Type} (S : Outcome α → Outcome β → Prop) (h : Exec α) (work : Work β) : Prop :=
  Handler.Refines (Unbroken StorageConsistent) relations S h work

/-- They end alike, or what follows the one does what follows the other. -/
def GoesOnAs {α β γ δ : Type} (S : Outcome γ → Outcome δ → Prop) (k : α → Exec γ)
    (l : β → Work δ) : Outcome α → Outcome β → Prop :=
  Handler.Continue (Unbroken StorageConsistent) relations S k l

section Sections

variable {α β γ δ : Type} {S : Outcome γ → Outcome δ → Prop} {k : α → Exec γ} {l : β → Work δ}

theorem doesAs_catalogSection_bind {f : Executor → Outcome α × Executor}
    {g : Relations → Outcome β × Relations}
    (h : ∀ e, relations (f e).2 = (g (relations e)).2 ∧
      GoesOnAs S k l (f e).1 (g (relations e)).1) :
    DoesAs S (catalogSection f >>= k) (Handler.sec g >>= l) := by
  refine Handler.refines_sec_bind (fun e he hend => ?_) fun e he hend => ?_
  · rw [lockCatalog_of_unpoisoned he.2 hend.2]
    exact (h e).1
  · rw [lockCatalog_of_unpoisoned he.2 hend.2]
    exact (h e).2

theorem doesAs_storageSection_bind {f : Executor → Outcome α × Executor}
    {g : Relations → Outcome β × Relations}
    (h : ∀ e, StorageConsistent e → relations (f e).2 = (g (relations e)).2 ∧
      GoesOnAs S k l (f e).1 (g (relations e)).1) :
    DoesAs S (storageSection f >>= k) (Handler.sec g >>= l) := by
  refine Handler.refines_sec_bind (fun e he hend => ?_) fun e he hend => ?_
  · rw [lockStorage_of_unpoisoned he.2 hend.2]
    exact (h e he.1).1
  · rw [lockStorage_of_unpoisoned he.2 hend.2]
    exact (h e he.1).2

omit [Host] in
/-- Errors are the same on both sides. -/
def SameErrors (S : Outcome γ → Outcome δ → Prop) : Prop := ∀ x, S (.error x) (.error x)

theorem goesOnAs_same (hS : SameErrors S) {l : α → Work δ} {o : Outcome α}
    (hk : ∀ a, o = .ok a → DoesAs S (k a) (l a)) : GoesOnAs S k l o o := by
  cases o with
  | ok a => exact hk a rfl
  | error x => exact hS x

theorem doesAs_readCatalog_bind (hS : SameErrors S) {f : Catalog → Except String α}
    {l : α → Work δ} (hk : ∀ a, DoesAs S (k a) (l a)) :
    DoesAs S (readCatalog f >>= k) (ask f >>= l) :=
  doesAs_catalogSection_bind fun _ => ⟨rfl, goesOnAs_same hS fun a _ => hk a⟩

theorem doesAs_writeCatalog_bind (hS : SameErrors S) {f : Catalog → Except String Catalog}
    {k : Unit → Exec γ} {l : Unit → Work δ} (hk : DoesAs S (k ()) (l ())) :
    DoesAs S (writeCatalog f >>= k) (change f >>= l) := by
  refine doesAs_catalogSection_bind fun e => ?_
  simp only [relations]
  cases f e.catalog.value with
  | ok c => exact ⟨rfl, hk⟩
  | error msg => exact ⟨rfl, hS _⟩

theorem doesAs_liftOutcome_bind (hS : SameErrors S) {l : α → Work δ} {o : Outcome α}
    (hk : ∀ a, o = .ok a → DoesAs S (k a) (l a)) :
    DoesAs S (liftOutcome o >>= k) (lift o >>= l) := by
  cases o with
  | ok a => exact hk a rfl
  | error x => exact Handler.refines_throw (hS x)

/-- A question that is always answered. -/
theorem doesAs_askCatalog_bind {f g : Catalog → Bool} {k : Bool → Exec γ} {l : Bool → Work δ}
    (hk : ∀ c, DoesAs S (k (f c)) (l (g c))) :
    DoesAs S (askCatalog f >>= k) (ask (fun c => .ok (g c)) >>= l) := by
  refine Handler.refines_sec_bind (fun _ _ _ => rfl) fun e he _ => ?_
  have hfree : e.catalog.poisoned = false := by
    simpa using fun h => he.2 (.inl h)
  simp only [hfree, Bool.not_false, Bool.true_and]
  exact hk e.catalog.value

omit [Host] in
theorem catalogSection_bind_pure (f : Executor → Outcome α × Executor) :
    (catalogSection f >>= pure) = catalogSection f :=
  Handler.sec_bind_pure _

/-! ### Pauses -/

variable {work : Work δ}

/-- A section without a lock that always succeeds. -/
theorem doesAs_pause_bind {f : Executor → Outcome α × Executor} (hok : ∀ e, ∃ a, (f e).1 = .ok a)
    (hf : ∀ e, relations (f e).2 = relations e) (hk : ∀ a, DoesAs S (k a) work) :
    DoesAs S ((Handler.sec f : Exec α) >>= k) work := by
  refine Handler.refines_pause_bind (fun e _ _ => hf e) fun e _ _ => ?_
  obtain ⟨a, ha⟩ := hok e
  exact ⟨a, ha, hk a⟩

/-- A section of the storage that is not seen. -/
theorem doesAs_updateStorage_pause {f : Storage → α × Storage}
    (hf : ∀ s, (f s).2.tables = s.tables) (hk : ∀ a, DoesAs S (k a) work) :
    DoesAs S (updateStorage f >>= k) work := by
  refine Handler.refines_pause_bind (fun e he hend => ?_) fun e he hend => ?_
  · rw [lockStorage_of_unpoisoned he.2 hend.2]
    exact relations_congr rfl (hf e.storage.value)
  · rw [lockStorage_of_unpoisoned he.2 hend.2]
    exact ⟨_, rfl, hk _⟩

/-- A section of the catalog that is not seen. -/
theorem doesAs_catalogSection_pause {f : Executor → Outcome α × Executor}
    (hok : ∀ e, ∃ a, (f e).1 = .ok a) (hf : ∀ e, relations (f e).2 = relations e)
    (hk : ∀ a, DoesAs S (k a) work) : DoesAs S (catalogSection f >>= k) work := by
  refine Handler.refines_pause_bind (fun e he hend => ?_) fun e he hend => ?_
  · rw [lockCatalog_of_unpoisoned he.2 hend.2]
    exact hf e
  · rw [lockCatalog_of_unpoisoned he.2 hend.2]
    obtain ⟨a, ha⟩ := hok e
    exact ⟨a, ha, hk a⟩

end Sections

/-! ## Statements -/

variable [ExprDebug] [Bincode]

omit [Bincode] in
theorem agrees_sameErrors : SameErrors Agrees := fun _ => rfl

/-- The handler answers what the work answers. -/
abbrev Answers (h : Exec ExecuteResult) (work : Work Answer) : Prop := DoesAs Agrees h work

omit [Bincode] in
theorem answers_pure (r : ExecuteResult) : Answers (pure r) (pure (.result r)) :=
  Handler.refines_pure rfl

omit [Bincode] in
theorem answers_throw (x : Stop) : Answers (throw x) (throw x) :=
  Handler.refines_throw rfl

omit [Bincode] in
/-- IF NOT EXISTS. -/
theorem answers_ifNotExists {f : Catalog → Bool} {h : Exec ExecuteResult} {work : Work Answer}
    (hh : Answers h work) (asked : Bool) :
    Answers (if asked then (do if ← askCatalog f then pure .ok else h) else h)
      (guarded asked f work) := by
  cases asked with
  | false => exact hh
  | true =>
    refine doesAs_askCatalog_bind fun c => ?_
    cases f c with
    | false => exact hh
    | true => exact answers_pure .ok

omit [Bincode] in
/-- IF EXISTS. -/
theorem answers_ifExists {f : Catalog → Bool} {h : Exec ExecuteResult} {work : Work Answer}
    (hh : Answers h work) (asked : Bool) :
    Answers (if asked then (do if ← askCatalog f then h else pure .ok) else h)
      (guarded asked (fun c => !f c) work) := by
  cases asked with
  | false => exact hh
  | true =>
    refine doesAs_askCatalog_bind fun c => ?_
    cases f c with
    | false => exact answers_pure .ok
    | true => exact hh

omit [Bincode] in
/-- A statement that only reads the catalog. -/
theorem answers_report (f : Catalog → Except String ExecuteResult) :
    Answers (readCatalog f) (report f) := by
  rw [readCatalog, ← catalogSection_bind_pure]
  exact doesAs_readCatalog_bind agrees_sameErrors answers_pure

/-- CREATE DATABASE and DROP DATABASE. -/
theorem answers_alter (f : Catalog → Except String Catalog) :
    Answers (do writeCatalog f; save; pure .ok) (alter f) :=
  doesAs_writeCatalog_bind agrees_sameErrors <|
    doesAs_pause_bind (fun _ => ⟨(), rfl⟩) (fun _ => rfl) fun _ => answers_pure .ok

theorem executeCreateTable_answers (env : Env) (db : String) (ct : CreateTable) :
    Answers (executeCreateTable env db ct) (alter fun c =>
      c.createTable db (nameToString ct.name)
        (createColumns (nameToString ct.name) ct.columns)) := by
  refine doesAs_catalogSection_bind fun e => ?_
  simp only [relations, createTableSection, Executor.append_catalog]
  cases e.catalog.value.createTable db (nameToString ct.name) _ with
  | error msg => exact ⟨rfl, rfl⟩
  | ok c =>
    refine ⟨rfl, ?_⟩
    exact doesAs_pause_bind (fun _ => ⟨(), rfl⟩) (fun _ => rfl) fun _ => answers_pure .ok

/-- INSERT, from its log entry on. -/
theorem insertTail_answers (env : Env) (db tableName : String) (columns : List Column)
    {filled : List Row} (hz : ∀ row ∈ filled, row.id = 0) (last : Nat) :
    Answers (do
      logWal env (.insertRows tableName filled)
      let ids ← storeSection tableName filled
      saveTable tableName
      let tableIndexes ← readCatalog fun c => .ok (c.getTableIndexes db tableName)
      indexSection tableName tableIndexes columns ids
      pure (.affected filled.length last))
    (do
      Handler.sec fun d =>
        (.ok (), d.putRows tableName (d.getRows tableName ++ filled.map (·.values)))
      pure (.result (.affected filled.length last))) := by
  refine doesAs_pause_bind (fun _ => ⟨(), rfl⟩) (fun _ => rfl) fun _ => ?_
  refine doesAs_storageSection_bind fun e he => ⟨relations_insertRows he tableName hz, ?_⟩
  refine doesAs_pause_bind (fun _ => ⟨(), rfl⟩) (fun _ => rfl) fun _ => ?_
  refine doesAs_catalogSection_pause (fun _ => ⟨_, rfl⟩) (fun _ => rfl) fun indexes => ?_
  show Answers (indexSection _ _ _ _ >>= fun _ => pure _) _
  unfold indexSection
  split
  · exact answers_pure _
  · exact doesAs_updateStorage_pause (fun _ => rfl) fun _ => answers_pure _

theorem executeInsert_answers (env : Env) (db : String) (ins : Insert) :
    Answers (executeInsert env db (tableObjectName ins.table) ins.columns ins.source)
      (Relations.insert env db ins) := by
  refine doesAs_readCatalog_bind agrees_sameErrors fun tableDef => ?_
  refine doesAs_liftOutcome_bind agrees_sameErrors fun rows hs => ?_
  have hz : ∀ row ∈ rows, row.id = 0 := by
    cases hsource : sourceRows tableDef.columns ins.columns ins.source with
    | error msg => rw [hsource] at hs; cases hs
    | ok rows' => rw [hsource] at hs; cases hs; exact sourceRows_id_eq_zero hsource
  refine doesAs_catalogSection_bind fun e => ⟨rfl, ?_⟩
  refine goesOnAs_same agrees_sameErrors fun r hr => ?_
  obtain ⟨filled, last⟩ := r
  have hf : fillRows env.now (tableObjectName ins.table) tableDef.columns 0 rows 0
      e.catalog.value = (.ok (filled, last), _) := Prod.ext hr rfl
  obtain ⟨-, -, hsup⟩ := fillRows_eq_ok hf
  exact insertTail_answers env db _ tableDef.columns (hsup.id_eq_zero hz) last

/-- DELETE and UPDATE, once they know the table. -/
theorem changeTail_answers (env : Env) {tableName : String} {columns : List Column}
    {selection : Option Expr} {change : Storage → List Row → Storage}
    {rewriteTable : List Row → Table → Table} (hrw : Rewrites tableName change rewriteTable)
    {f : List (List Value) → List (List Value)}
    (hf : ∀ t rows, t.Keyed → selectRows columns selection t.entries = .ok rows →
      tableValues (rewriteTable rows t) = f (tableValues t)) :
    Answers (changeTail env tableName columns selection change)
      (do
        let n ← rewrite tableName columns selection f
        pure (.result (.affected n 0))) := by
  refine doesAs_storageSection_bind fun e he => ?_
  simp only [rows_relations]
  cases ht : e.storage.value.getTable? tableName with
  | none => exact ⟨rfl, rfl⟩
  | some t =>
    have hkeyed : t.Keyed := he.keyed ht
    simp only [Option.map_some, tableValues, map_valueRow, selectRows_strip]
    rw [← hkeyed.entries_eq]
    cases hsel : selectRows columns selection t.entries with
    | error x => exact ⟨rfl, rfl⟩
    | ok rows =>
      have hvalues := hf t rows hkeyed hsel
      rw [tableValues, tableValues, ← hkeyed.entries_eq] at hvalues
      simp only [Except.map, List.length_map, ← hvalues]
      refine ⟨?_, doesAs_pause_bind (fun _ => ⟨(), rfl⟩) (fun _ => rfl) fun _ => answers_pure _⟩
      have hlogged : relations (logSnapshot env tableName rows
          (e.setStorage (change e.storage.value rows))) =
          relations (e.setStorage (change e.storage.value rows)) :=
        relations_congr (by rw [logSnapshot_catalog]) (by rw [logSnapshot_storage])
      exact hlogged.trans (relations_change hrw ht rows)

omit [Bincode] in
/-- The first section of DELETE and UPDATE reads the indexes too. -/
theorem answers_readTable_bind {db tableName : String}
    {k : List Column × List IndexDef → Exec ExecuteResult} {l : TableDef → Work Answer}
    (hk : ∀ tableDef indexes, Answers (k (tableDef.columns, indexes)) (l tableDef)) :
    Answers (readTable db tableName >>= k) (ask (fun c => c.getTable db tableName) >>= l) := by
  refine doesAs_catalogSection_bind fun e => ⟨rfl, ?_⟩
  simp only [relations]
  cases e.catalog.value.getTable db tableName with
  | error msg => rfl
  | ok tableDef => exact hk tableDef _

theorem executeDelete_answers (env : Env) (db : String) (del : Delete) :
    Answers (executeDelete env db (deleteTable del) del.selection)
      (Relations.delete db del) := by
  refine answers_readTable_bind fun tableDef indexes => ?_
  refine changeTail_answers env (deleteRows_rewrites _ _ _) fun t rows ht hsel => ?_
  rw [tableValues, tableValues, rows_eraseRows ht hsel, List.filter_map]
  refine congrArg _ (List.filter_congr fun row _ => ?_)
  exact congrArg (!·) (selects_strip row).symm

theorem executeUpdate_answers (env : Env) (db : String) (table : TableFactor)
    (assignments : List Assignment) (selection : Option Expr) :
    Answers (executeUpdate env db (tableFactorName table) assignments selection)
      (Relations.update db table assignments selection) := by
  refine answers_readTable_bind fun tableDef indexes => ?_
  refine doesAs_readCatalog_bind agrees_sameErrors fun assigns => ?_
  refine changeTail_answers env (updateRows_rewrites _ _ _ _) fun t rows ht hsel => ?_
  rw [tableValues, tableValues, rows_assignRows assigns ht hsel, List.map_map, List.map_map]
  refine List.map_congr_left fun row _ => ?_
  have hrow : selects tableDef.columns selection (valueRow row.values) =
      selects tableDef.columns selection row := selects_strip row
  simp only [Function.comp_apply, assignRow, hrow]
  split <;> rfl

/-! ## SELECT -/

omit [Bincode] in
/-- What a SELECT answers from the rows an index offers, or all of them. -/
theorem selection_allows {s : Storage} (query : Query) (select : Select) (tableName : String)
    (columns : List Column) (indexes : List IndexDef) :
    (Answer.selection query select tableName columns indexes
      ((s.getRows tableName).map (·.values))).Allows
      ((selectRows columns select.selection
        (candidateRows s tableName select.selection indexes)).map fun rows =>
          .rows (select.projection.flatMap (projectColumns columns tableName))
            (finishQuery query select columns rows)) := by
  refine ⟨(candidateRows s tableName select.selection indexes).map (·.values), ?_, ?_, ?_⟩
  · intro v hv
    obtain ⟨row, hrow, rfl⟩ := List.mem_map.mp hv
    rw [Storage.getRows_eq]
    exact List.mem_map_of_mem (mem_candidateRows hrow)
  · intro huncovered
    rw [candidateRows_of_uncovered huncovered]
  · rw [map_valueRow, selectRows_strip]
    cases selectRows columns select.selection
        (candidateRows s tableName select.selection indexes) with
    | error x => exact .failed x
    | ok rows =>
      simp only [Except.map, ← finishQuery_strip query select columns rows]
      exact finishes_finishQuery query select tableName columns (rows.map strip)

omit [Bincode] in
theorem executeQuery_answers (db : String) (query : Query) :
    Answers (executeQuery db query) (Relations.query db query) := by
  unfold executeQuery Relations.query
  cases query.body with
  | select select =>
    cases hfrom : select.fromTables with
    | nil =>
      simp only [hfrom]
      exact answers_pure _
    | cons table rest =>
      simp only [hfrom]
      refine doesAs_readCatalog_bind agrees_sameErrors fun r => ?_
      refine doesAs_storageSection_bind fun e _ => ⟨rfl, ?_⟩
      have hallows := selection_allows (s := e.storage.value) query select
        (tableFactorName table) r.1 r.2
      show Answers (liftOutcome _ >>= fun rows => pure _) (pure _)
      rw [getRows_relations]
      cases hsel : selectRows r.1 select.selection
          (candidateRows e.storage.value (tableFactorName table) select.selection r.2) with
      | error x =>
        rw [hsel] at hallows
        exact .done hallows
      | ok rows =>
        rw [hsel] at hallows
        exact .done hallows
  | values rows => exact answers_throw _
  | other => exact answers_throw _

/-! ## CREATE INDEX, DROP INDEX, DROP TABLE -/

omit [ExprDebug] in
theorem executeCreateIndex_answers [ExprDebug] (env : Env) (db : String) (ci : CreateIndex) :
    Answers (executeCreateIndex env db (nameToString ci.tableName) ci)
      (Relations.createIndex db ci) := by
  unfold executeCreateIndex Relations.createIndex
  simp only
  split
  · exact answers_throw _
  · refine doesAs_writeCatalog_bind agrees_sameErrors ?_
    refine doesAs_pause_bind (fun _ => ⟨(), rfl⟩) (fun _ => rfl) fun _ => ?_
    refine doesAs_readCatalog_bind agrees_sameErrors fun tableDef => ?_
    refine doesAs_storageSection_bind fun e _ => ?_
    generalize newIndexDef (nameToString ci.tableName) ci = indexDef
    have hrepeated := buildIndex_error_iff_repeated indexDef tableDef.columns
      (e.storage.value.getRows (nameToString ci.tableName))
    simp only [getRows_relations, List.map_map, Function.comp_def]
    cases hbuild : buildIndex indexDef tableDef.columns
        (e.storage.value.getRows (nameToString ci.tableName)) (.new indexDef.indexType) with
    | error dup =>
      rw [(hrepeated dup).mp hbuild]
      exact ⟨relations_congr rfl rfl, rfl⟩
    | ok data =>
      have hne := fun dup => mt (hrepeated dup).mpr (by rw [hbuild]; simp)
      rw [Option.eq_none_iff_forall_ne_some.mpr hne]
      refine ⟨relations_congr rfl rfl, ?_⟩
      refine doesAs_pause_bind (fun _ => ⟨(), rfl⟩) (fun _ => rfl) fun _ => ?_
      exact doesAs_pause_bind (fun _ => ⟨(), rfl⟩) (fun _ => rfl) fun _ => answers_pure .ok

omit [Bincode] in
theorem executeDropIndex_answers (env : Env) (db indexName tableName : String) :
    Answers (executeDropIndex env db indexName tableName)
      (alter fun c => c.dropIndex db indexName tableName) := by
  refine doesAs_writeCatalog_bind agrees_sameErrors ?_
  refine doesAs_pause_bind (fun _ => ⟨(), rfl⟩) (fun _ => rfl) fun _ => ?_
  refine doesAs_updateStorage_pause (fun _ => rfl) fun _ => ?_
  exact doesAs_pause_bind (fun _ => ⟨(), rfl⟩) (fun _ => rfl) fun _ => answers_pure .ok

omit [ExprDebug] in
/-- What DROP TABLE does to the files is a pause. -/
theorem dropTableFiles_pause (tn : String) :
    DoesAs (fun r u => r = .ok () ∧ u = .ok ()) (dropTableFiles tn) (pure ()) := by
  refine doesAs_pause_bind (fun _ => ⟨_, rfl⟩) (fun _ => rfl) fun present => ?_
  cases present with
  | false => exact Handler.refines_pure ⟨rfl, rfl⟩
  | true =>
    refine doesAs_pause_bind (fun _ => ⟨(), rfl⟩) (fun _ => rfl) fun _ => ?_
    rw [← catalogSection_bind_pure]
    exact doesAs_catalogSection_pause (fun _ => ⟨(), rfl⟩) (fun _ => rfl) fun _ =>
      Handler.refines_pure ⟨rfl, rfl⟩

theorem executeDropTable_answers (env : Env) (db tableName : String) :
    Answers (executeDropTable env db tableName) (Relations.dropTable db tableName) := by
  refine doesAs_pause_bind (fun _ => ⟨(), rfl⟩) (fun _ => rfl) fun _ => ?_
  refine Handler.refines_sec_bind (fun e he hend => ?_) fun e he hend => ?_
  · rcases dropTableSection_cases he.2 hend.2 with ⟨msg, h, hsection⟩ | ⟨c, h, hsection⟩
    · rw [hsection]
      simp only [relations, h]
    · rw [hsection]
      have hclear := relations_clearTable (e.setCatalog c) (toLowercase tableName)
      rw [normalize_toLowercase] at hclear
      simp only [relations, h]
      exact hclear
  · rcases dropTableSection_cases he.2 hend.2 with ⟨msg, h, hsection⟩ | ⟨c, h, hsection⟩
    · rw [hsection]
      simp only [relations, h]
      rfl
    · rw [hsection]
      simp only [relations, h]
      show Answers (dropTableFiles _ >>= fun _ => pure .ok)
        ((pure () : Work Unit) >>= fun _ => pure (.result .ok))
      refine Handler.Refines.bind (dropTableFiles_pause _) fun r u hr => ?_
      obtain ⟨rfl, rfl⟩ := hr
      exact answers_pure .ok

theorem execute_answers (env : Env) (db : String) (stmt : Statement) :
    Answers (Engine.execute env db stmt) (Relations.execute env db stmt) := by
  cases stmt with
  | createTable ct => exact answers_ifNotExists (executeCreateTable_answers env db ct) _
  | insert ins => exact executeInsert_answers env db ins
  | query query => exact executeQuery_answers db query
  | delete del => exact executeDelete_answers env db del
  | update table assignments selection =>
    exact executeUpdate_answers env db table assignments selection
  | drop objectType names ifExists =>
    cases objectType with
    | table => exact answers_ifExists (executeDropTable_answers env db _) _
    | database => exact answers_ifExists (answers_alter _) _
    | index =>
      refine doesAs_readCatalog_bind agrees_sameErrors fun tableName => ?_
      exact answers_ifExists (executeDropIndex_answers env db _ _) _
    | other => exact answers_throw _
  | createDatabase dbName ifNotExists => exact answers_ifNotExists (answers_alter _) _
  | showDatabases =>
    unfold Engine.execute Relations.execute
    exact answers_report _
  | showTables =>
    unfold Engine.execute Relations.execute
    exact answers_report _
  | use stmt =>
    cases stmt with
    | other => exact answers_throw _
    | _ =>
      simp only [Engine.execute, Relations.execute, executeUse]
      exact answers_report _
  | explainTable tableName =>
    unfold Engine.execute Relations.execute
    exact answers_report _
  | createIndex ci =>
    refine doesAs_askCatalog_bind fun c => ?_
    cases c.tableExists db (nameToString ci.tableName) with
    | false => exact answers_throw _
    | true => exact executeCreateIndex_answers env db ci
  | other => exact answers_throw _

/-! ## Runs -/

/-- The statements, for the database of lists. -/
def relationsPool (calls : List Call) (d : Relations) : Pool Relations (Outcome Answer) :=
  ⟨calls.map fun call => ExceptT.run (Relations.execute call.env call.db call.stmt), d⟩

theorem poolOf_refines (calls : List Call) (e : Executor) :
    (poolOf calls e).Refines (Unbroken StorageConsistent) relations Agrees
      (relationsPool calls (relations e)) := by
  refine ⟨List.forall₂_map_left_iff.mpr (List.forall₂_map_right_iff.mpr ?_), rfl⟩
  exact List.forall₂_same.mpr fun call _ => execute_answers call.env call.db call.stmt

/-- At no time of a run that ends without a panic is a mutex poisoned. -/
theorem poolOf_sound {e : Executor} (he : Reachable e) (calls : List Call) {schedule : List Nat}
    (hok : ¬ (serve e calls schedule).Poisoned) (pre : List Nat) (hpre : pre <+: schedule) :
    Unbroken StorageConsistent ((poolOf calls e).run pre).shared := by
  have hthreads : ∀ {J : Executor → Prop}, Closed J →
      ∀ t ∈ (poolOf calls e).threads, t.Keeps J := by
    intro J hJ t ht
    obtain ⟨call, -, rfl⟩ := List.mem_map.mp ht
    exact execute_keeps hJ call.env call.db call.stmt
  exact Pool.sound_of_keeps (hthreads closed_storageConsistent) (hthreads closed_poisoned)
    he.consistent hok pre hpre

/-- However statements are interleaved, the database of lists comes to the same
catalog, rows and answers, taking its steps when the server does. -/
theorem runs_refine {e : Executor} (he : Reachable e) (calls : List Call) (schedule : List Nat)
    (hok : ¬ (serve e calls schedule).Poisoned) :
    ∃ schedule', schedule'.Sublist schedule ∧
      ((relationsPool calls (relations e)).run schedule').shared =
        relations (serve e calls schedule) ∧
      ∀ results, ((poolOf calls e).run schedule).results = some results →
        ∃ answers, ((relationsPool calls (relations e)).run schedule').results = some answers ∧
          List.Forall₂ Agrees results answers := by
  have hsound := poolOf_sound he calls hok
  obtain ⟨schedule', hpart, hrun⟩ := (poolOf_refines calls e).run hsound
  exact ⟨schedule', hpart, hrun.shared, fun _ hdone => hrun.results hdone⟩

end Theory

/-! ## On a concrete run -/

section Concrete

attribute [local instance] asciiHost plainDebug bincode1

/-- An INSERT of two rows, a SELECT and an UPDATE of all rows. -/
def insertWatched : List Call :=
  [callIn "srrdb" (insertNumbers "t" [["1"], ["2"]]), callIn "srrdb" (selectFrom "t" none),
    callIn "srrdb" (updateSet "t" "a" "3" none)]

/-- The SELECT and the UPDATE find the rows before the INSERT has answered. -/
def watchedRun : List Nat := [0, 0, 0, 0, 1, 1, 2, 2, 2, 2, 0, 0]

theorem insertWatched_refines : ∃ schedule' answers, schedule'.Sublist watchedRun ∧
    ((relationsPool insertWatched (relations freshTable)).run schedule').results = some answers ∧
    List.Forall₂ Agrees [.ok (.affected 2 0),
      .ok (.rows [.new "a" "t" .long] [⟨0, [.int 1]⟩, ⟨0, [.int 2]⟩]),
      .ok (.affected 2 0)] answers := by
  have hok : ¬ (serve freshTable insertWatched watchedRun).Poisoned := by
    unfold Executor.Poisoned
    decide +kernel
  have hdone : ((poolOf insertWatched freshTable).run watchedRun).results =
      some [.ok (.affected 2 0),
        .ok (.rows [.new "a" "t" .long] [⟨0, [.int 1]⟩, ⟨0, [.int 2]⟩]),
        .ok (.affected 2 0)] := by decide +kernel
  obtain ⟨schedule', hpart, -, hall⟩ :=
    runs_refine ((Reachable.fresh none).after _) insertWatched watchedRun hok
  obtain ⟨answers, hanswers, hagree⟩ := hall _ hdone
  exact ⟨schedule', answers, hpart, hanswers, hagree⟩

end Concrete

end Srrdb.Server
