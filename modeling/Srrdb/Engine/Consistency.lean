/-
Srrdb.Engine.Consistency — what every section of every statement keeps.

The sections that lock the storage go through `insert_rows`, rewrite a table,
clear one, or touch index data only (`StorageStep`); others change the
catalog, append to the log or write a file. An invariant that is closed under
these holds whatever statements run at the same time and however their
sections are interleaved. So the storage stays consistent, and the log only
grows.
-/
import Srrdb.Engine.RowChanges

namespace Srrdb.Engine

open Srrdb.Sql Srrdb.Lib

/-! ## Sections -/

section Sections

variable {α : Type} {I : Executor → Prop}

/-- The invariant does not speak of poisoned mutexes. -/
structure Steady (I : Executor → Prop) : Prop where
  poisonCatalog : ∀ e, I e → I e.poisonCatalog
  poisonStorage : ∀ e, I e → I e.poisonStorage

theorem keeps_lockCatalog (hI : Steady I) {f : Executor → Outcome α × Executor} {e : Executor}
    (he : I e) (hf : I (f e).2) : I (lockCatalog f e).2 := by
  unfold lockCatalog
  split
  · exact he
  · split
    · next heq =>
      rw [heq] at hf
      exact hI.poisonCatalog _ hf
    · exact hf

theorem keeps_lockStorage (hI : Steady I) {f : Executor → Outcome α × Executor} {e : Executor}
    (he : I e) (hf : I (f e).2) : I (lockStorage f e).2 := by
  unfold lockStorage
  split
  · exact he
  · split
    · next heq =>
      rw [heq] at hf
      exact hI.poisonStorage _ hf
    · exact hf

theorem keeps_catalogSection (hI : Steady I) {f : Executor → Outcome α × Executor}
    (hf : ∀ e, I e → I (f e).2) : Handler.Keeps I (catalogSection f) :=
  Handler.keeps_sec fun e he => keeps_lockCatalog hI he (hf e he)

theorem keeps_storageSection (hI : Steady I) {f : Executor → Outcome α × Executor}
    (hf : ∀ e, I e → I (f e).2) : Handler.Keeps I (storageSection f) :=
  Handler.keeps_sec fun e he => keeps_lockStorage hI he (hf e he)

theorem keeps_readCatalog (hI : Steady I) (f : Catalog → Except String α) :
    Handler.Keeps I (readCatalog f) :=
  keeps_catalogSection hI fun _ he => he

theorem keeps_readStorage (hI : Steady I) (f : Storage → α) : Handler.Keeps I (readStorage f) :=
  keeps_storageSection hI fun _ he => he

theorem keeps_updateStorage (hI : Steady I) {f : Storage → α × Storage}
    (hf : ∀ e, I e → I (e.setStorage (f e.storage.value).2)) :
    Handler.Keeps I (updateStorage f) :=
  keeps_storageSection hI hf

theorem keeps_writeCatalog (hI : Steady I) {f : Catalog → Except String Catalog}
    (hf : ∀ e c, I e → f e.catalog.value = .ok c → I (e.setCatalog c)) :
    Handler.Keeps I (writeCatalog f) := by
  refine keeps_catalogSection hI fun e he => ?_
  split
  · next c h => exact hf e c he h
  · exact he

theorem keeps_askCatalog (f : Catalog → Bool) : Handler.Keeps I (askCatalog f) :=
  Handler.keeps_sec fun _ he => he

theorem keeps_logWal {env : Env} {entry : WalEntry} (hf : ∀ e, I e → I (e.append env entry)) :
    Handler.Keeps I (logWal env entry) :=
  Handler.keeps_sec hf

theorem keeps_save [Bincode] (hf : ∀ e, I e → I e.save) : Handler.Keeps I save :=
  Handler.keeps_sec hf

theorem keeps_saveTable [Bincode] [Host] {tableName : String}
    (hf : ∀ e, I e → I (e.saveTable tableName)) : Handler.Keeps I (saveTable tableName) :=
  Handler.keeps_sec hf

theorem keeps_liftOutcome (o : Outcome α) : Handler.Keeps I (liftOutcome o) := by
  cases o with
  | ok a => exact Handler.keeps_pure a
  | error x => exact Handler.keeps_throw x

theorem keeps_ite {c : Bool} {h k : Exec α} (hh : Handler.Keeps I h) (hk : Handler.Keeps I k) :
    Handler.Keeps I (if c then h else k) := by
  split
  · exact hh
  · exact hk

theorem keeps_indexSection [Host] (hI : Steady I) {tableName : String} {indexes : List IndexDef}
    {columns : List Column} {ids : List Nat}
    (hf : ∀ e, I e → I (e.setStorage (indexInserted e.storage.value tableName indexes columns ids))) :
    Handler.Keeps I (indexSection tableName indexes columns ids) := by
  unfold indexSection
  split
  · exact Handler.keeps_pure _
  · exact keeps_updateStorage hI hf

end Sections

section StorageStep

variable [Host]

/-- What a section does to the storage. -/
inductive StorageStep (s : Storage) : Storage → Prop
  | insertRows (tableName : String) (rows : List Row) :
      StorageStep s (s.insertRows tableName rows).2
  | rewritten {tableName : String} {change : Storage → List Row → Storage}
      {rewrite : List Row → Table → Table} (h : Rewrites tableName change rewrite)
      (rows : List Row) : StorageStep s (change s rows)
  | clearTable (tableName : String) : StorageStep s (s.clearTable tableName)
  | indexes {s' : Storage} (h : s.SameRows s') : StorageStep s s'

end StorageStep

/-! ## Handlers

An invariant is kept by a handler if each of its sections keeps it. -/

section Handlers

variable [Host] [ExprDebug] [Bincode] {I : Executor → Prop} (hI : Steady I) (env : Env)
  (db tableName : String)

omit [ExprDebug] [Bincode] in
theorem createTableSection_keeps {columns : List Column}
    (happend : ∀ e, I e → I (e.append env (.createTable tableName columns)))
    (hset : ∀ e c, I e → I (e.setCatalog c)) {e : Executor} (he : I e) :
    I (createTableSection env db tableName columns e).2 := by
  have happended := happend e he
  unfold createTableSection
  simp only
  split
  · exact hset _ _ happended
  · exact happended

include hI

omit [ExprDebug] in
/-- INSERT, from its log entry on. -/
theorem insertTail_keeps (filled : List Row)
    (happend : ∀ e, I e → I (e.append env (.insertRows tableName filled)))
    (hstore : ∀ e s, I e → StorageStep e.storage.value s → I (e.setStorage s))
    (hsave : ∀ e, I e → I (e.saveTable tableName)) (columns : List Column) (last : Nat) :
    Handler.Keeps I (do
      logWal env (.insertRows tableName filled)
      let ids ← storeSection tableName filled
      saveTable tableName
      let tableIndexes ← readCatalog fun c => .ok (c.getTableIndexes db tableName)
      indexSection tableName tableIndexes columns ids
      pure (ExecuteResult.affected filled.length last)) := by
  refine (keeps_logWal happend).bind fun _ => ?_
  refine (keeps_updateStorage hI fun e he =>
    hstore e _ he (.insertRows tableName filled)).bind fun ids => ?_
  refine (keeps_saveTable hsave).bind fun _ => ?_
  refine (keeps_readCatalog hI _).bind fun indexes => ?_
  refine (keeps_indexSection hI fun e he => ?_).bind fun _ => Handler.keeps_pure _
  exact hstore e _ he (.indexes ⟨rfl, rfl⟩)

theorem changeTail_keeps {columns : List Column} {selection : Option Expr}
    {change : Storage → List Row → Storage}
    (hchange : ∀ e t rows, e.storage.value.getTable? tableName = some t → I e →
      I (logSnapshot env tableName rows (e.setStorage (change e.storage.value rows))))
    (hsave : ∀ e, I e → I (e.saveTable tableName)) :
    Handler.Keeps I (changeTail env tableName columns selection change) := by
  refine (keeps_storageSection hI fun e he => ?_).bind fun _ =>
    (keeps_saveTable hsave).bind fun _ => Handler.keeps_pure _
  split
  · exact he
  · next t ht =>
    split
    · exact he
    · exact hchange e t _ ht he

omit [Bincode] in
theorem executeQuery_keeps (query : Query) : Handler.Keeps I (executeQuery db query) := by
  unfold executeQuery
  split
  · split
    · exact Handler.keeps_pure _
    · exact (keeps_readCatalog hI _).bind fun _ => (keeps_readStorage hI _).bind fun _ =>
        (keeps_liftOutcome _).bind fun _ => Handler.keeps_pure _
  · exact Handler.keeps_throw _

omit [ExprDebug] in
theorem executeCreateIndex_keeps (ci : CreateIndex)
    (hcreate : ∀ e c, I e →
      e.catalog.value.createIndex db (newIndexDef tableName ci) = .ok c → I (e.setCatalog c))
    (happend : ∀ e, I e → I (e.append env (.createIndex db (newIndexDef tableName ci))))
    (hstore : ∀ e s, I e → e.storage.value.SameRows s → I (e.setStorage s))
    (hsaveTable : ∀ e, I e → I (e.saveTable tableName)) (hsave : ∀ e, I e → I e.save) :
    Handler.Keeps I (executeCreateIndex env db tableName ci) := by
  unfold executeCreateIndex
  simp only
  split
  · exact Handler.keeps_throw _
  · refine (keeps_writeCatalog hI hcreate).bind fun _ => (keeps_logWal happend).bind fun _ => ?_
    refine (keeps_readCatalog hI _).bind fun tableDef => Handler.Keeps.bind ?_ fun _ =>
      (keeps_saveTable hsaveTable).bind fun _ =>
        (keeps_save hsave).bind fun _ => Handler.keeps_pure _
    refine keeps_storageSection hI fun e he => ?_
    simp only
    split
    · exact hstore e _ he ⟨rfl, rfl⟩
    · exact hstore e _ he ⟨rfl, rfl⟩

omit [ExprDebug] [Bincode] in
theorem executeDropIndex_keeps (indexName : String)
    (hset : ∀ e c, I e → I (e.setCatalog c))
    (happend : ∀ e, I e → I (e.append env (.dropIndex db indexName tableName)))
    (hstore : ∀ e s, I e → e.storage.value.SameRows s → I (e.setStorage s))
    (hremove : ∀ e, I e →
      I (e.persist (·.removeIndexData (storageKey tableName indexName)))) :
    Handler.Keeps I (executeDropIndex env db indexName tableName) := by
  refine (keeps_writeCatalog hI fun e c he _ => hset e c he).bind fun _ => ?_
  refine (keeps_logWal happend).bind fun _ => ?_
  refine (keeps_updateStorage hI fun e he => hstore e _ he ⟨rfl, rfl⟩).bind fun _ => ?_
  exact (Handler.keeps_sec hremove).bind fun _ => Handler.keeps_pure _

omit [ExprDebug] [Bincode] in
theorem dropTableSection_keeps (tn : String) (hset : ∀ e c, I e → I (e.setCatalog c))
    (hclear : ∀ e, I e → I (e.setStorage (e.storage.value.clearTable tn))) {e : Executor}
    (he : I e) : I (dropTableSection db tn e).2 := by
  refine keeps_lockCatalog hI he ?_
  cases e.catalog.value.dropTable db tn with
  | error msg => exact he
  | ok c => exact keeps_lockStorage hI (hset e c he) (hclear _ (hset e c he))

omit [ExprDebug] in
theorem dropTableFiles_keeps (tn : String)
    (hremove : ∀ e, I e → I (e.persist (·.removeTableData tn)))
    (hsave : ∀ e, I e →
      I (e.persist fun p => removeIndexFiles tn (p.saveCatalog e.catalog.value))) :
    Handler.Keeps I (dropTableFiles tn) := by
  refine (Handler.keeps_sec fun _ he => he).bind fun present =>
    keeps_ite ?_ (Handler.keeps_pure _)
  exact (Handler.keeps_sec hremove).bind fun _ => keeps_catalogSection hI hsave

/-- Statements that only read. -/
theorem execute_readOnly_keeps {stmt : Statement} (h : readOnly stmt = true) :
    Handler.Keeps I (execute env db stmt) := by
  unfold readOnly at h
  split at h
  · exact executeQuery_keeps hI db _
  · simp only [execute, executeShowDatabases]
    exact keeps_readCatalog hI _
  · simp only [execute, executeShowTables]
    exact keeps_readCatalog hI _
  · simp only [execute, executeUse]
    split
    · exact keeps_readCatalog hI _
    · exact keeps_readCatalog hI _
    · exact Handler.keeps_throw _
  · simp only [execute, executeDescribe]
    exact keeps_readCatalog hI _
  · exact Handler.keeps_throw _
  · exact Handler.keeps_throw _
  · cases h

end Handlers

/-! ## Closed invariants -/

section Closed

variable [Host] [ExprDebug] [Bincode] {I : Executor → Prop}

/-- The invariant survives whatever a section may do. -/
structure Closed (I : Executor → Prop) : Prop extends Steady I where
  setCatalog : ∀ e c, I e → I (e.setCatalog c)
  setStorage : ∀ e s, I e → StorageStep e.storage.value s → I (e.setStorage s)
  append : ∀ e env entry, I e → I (e.append env entry)
  persist : ∀ e f, I e → I (e.persist f)

/-- The storage of the server is consistent. -/
def StorageConsistent (e : Executor) : Prop := e.storage.value.Consistent

omit [ExprDebug] [Bincode] in
theorem closed_storageConsistent : Closed StorageConsistent where
  poisonCatalog _ he := he
  poisonStorage _ he := he
  setCatalog _ _ he := he
  setStorage e s he hstep := by
    show s.Consistent
    cases hstep with
    | insertRows tableName rows => exact Storage.Consistent.insertRows he tableName rows
    | rewritten h rows => exact h.consistent he rows
    | clearTable tableName => exact Storage.Consistent.clearTable he tableName
    | indexes h => exact h.consistent he
  append _ _ _ he := he
  persist _ _ he := he

omit [ExprDebug] [Bincode] in
/-- The log grows at its end. -/
theorem closed_wal (wal : List WalEntry) : Closed fun e => wal <+: e.wal where
  poisonCatalog _ he := he
  poisonStorage _ he := he
  setCatalog _ _ he := he
  setStorage _ _ he _ := he
  append e env entry he := he.trans (List.prefix_append e.wal (env.logged entry))
  persist _ _ he := he

/-- Every section of every statement keeps a closed invariant. -/
theorem execute_keeps (hI : Closed I) (env : Env) (db : String) (stmt : Statement) :
    Handler.Keeps I (execute env db stmt) := by
  have happend := fun entry e => hI.append e env entry
  have hsame : ∀ e s, I e → e.storage.value.SameRows s → I (e.setStorage s) :=
    fun e s he h => hI.setStorage e s he (.indexes h)
  have hchange : ∀ {tableName change rewrite}, Rewrites tableName change rewrite →
      ∀ e (t : Table) rows, e.storage.value.getTable? tableName = some t → I e →
        I (logSnapshot env tableName rows (e.setStorage (change e.storage.value rows))) := by
    intro tableName change rewrite hrw e t rows ht he
    have hchanged := hI.setStorage e _ he (.rewritten hrw rows)
    unfold logSnapshot
    split
    · exact hchanged
    · exact happend _ _ hchanged
  cases stmt with
  | createTable ct =>
    have hcreate : Handler.Keeps I (executeCreateTable env db ct) :=
      (keeps_catalogSection hI.toSteady fun e => createTableSection_keeps env db _ (happend _)
        hI.setCatalog).bind fun _ =>
        (keeps_save fun e => hI.persist e _).bind fun _ => Handler.keeps_pure _
    exact keeps_ite ((keeps_askCatalog _).bind fun _ => keeps_ite (Handler.keeps_pure _) hcreate)
      hcreate
  | insert ins =>
    refine (keeps_readCatalog hI.toSteady _).bind fun tableDef => ?_
    refine (keeps_liftOutcome _).bind fun rows => ?_
    refine (keeps_catalogSection hI.toSteady fun e he => hI.setCatalog e _ he).bind fun filled => ?_
    exact insertTail_keeps hI.toSteady env db _ filled.1 (happend _) hI.setStorage
      (fun e => hI.persist e _) tableDef.columns filled.2
  | delete del =>
    exact (keeps_readCatalog hI.toSteady _).bind fun _ => changeTail_keeps hI.toSteady env _
      (hchange (deleteRows_rewrites _ _ _)) fun e => hI.persist e _
  | update table assignments selection =>
    exact (keeps_readCatalog hI.toSteady _).bind fun _ =>
      (keeps_readCatalog hI.toSteady _).bind fun _ => changeTail_keeps hI.toSteady env _
        (hchange (updateRows_rewrites _ _ _ _)) fun e => hI.persist e _
  | drop objectType names ifExists =>
    cases objectType with
    | table =>
      have hdrop : Handler.Keeps I (executeDropTable env db (firstName names)) := by
        refine (keeps_logWal (happend _)).bind fun _ => ?_
        refine (Handler.keeps_sec fun _ he => dropTableSection_keeps hI.toSteady db _
          hI.setCatalog (fun e he => hI.setStorage e _ he (.clearTable _)) he).bind fun _ => ?_
        exact (dropTableFiles_keeps hI.toSteady _ (fun e => hI.persist e _) fun e =>
          hI.persist e _).bind fun _ => Handler.keeps_pure _
      exact keeps_ite ((keeps_askCatalog _).bind fun _ => keeps_ite hdrop (Handler.keeps_pure _))
        hdrop
    | database =>
      have hdrop : Handler.Keeps I (executeDropDatabase (firstName names)) :=
        (keeps_writeCatalog hI.toSteady fun e c he _ => hI.setCatalog e c he).bind fun _ =>
          (keeps_save fun e => hI.persist e _).bind fun _ => Handler.keeps_pure _
      exact keeps_ite ((keeps_askCatalog _).bind fun _ => keeps_ite hdrop (Handler.keeps_pure _))
        hdrop
    | index =>
      refine (keeps_readCatalog hI.toSteady _).bind fun tableName => ?_
      have hdrop := executeDropIndex_keeps hI.toSteady env db tableName (firstName names)
        hI.setCatalog (happend _) hsame fun e => hI.persist e _
      exact keeps_ite ((keeps_askCatalog _).bind fun _ => keeps_ite hdrop (Handler.keeps_pure _))
        hdrop
    | other => exact execute_readOnly_keeps hI.toSteady env db rfl
  | createDatabase dbName ifNotExists =>
    have hcreate : Handler.Keeps I (executeCreateDatabase dbName) :=
      (keeps_writeCatalog hI.toSteady fun e c he _ => hI.setCatalog e c he).bind fun _ =>
        (keeps_save fun e => hI.persist e _).bind fun _ => Handler.keeps_pure _
    exact keeps_ite ((keeps_askCatalog _).bind fun _ => keeps_ite (Handler.keeps_pure _) hcreate)
      hcreate
  | createIndex ci =>
    refine (keeps_askCatalog _).bind fun _ => keeps_ite ?_ (Handler.keeps_throw _)
    exact executeCreateIndex_keeps hI.toSteady env db _ ci
      (fun e c he _ => hI.setCatalog e c he) (happend _) hsame (fun e => hI.persist e _) fun e =>
        hI.persist e _
  | query _ | showDatabases | showTables | use _ | explainTable _ | other =>
    exact execute_readOnly_keeps hI.toSteady env db rfl

end Closed

end Srrdb.Engine
