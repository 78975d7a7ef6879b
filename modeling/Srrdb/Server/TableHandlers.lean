/-
Srrdb.Server.TableHandlers — the handlers on one table, seen from that table.

A handler `Uses` a table if it answers and acts alike on servers that show the
same of it, and it `Spares` a table if none of its sections changes what is
shown of it, a panic apart. Every statement uses the table it names
(`execute_uses`) and spares the tables apart from that (`execute_spares`).

DROP INDEX does neither: it looks for its table by the name of the index, in
all tables of the database.
-/
import Srrdb.Engine.Places
import Srrdb.Engine.TableViews
import Srrdb.Server.Isolation

namespace Srrdb.Server

open Srrdb.Engine Srrdb.Sql Srrdb.Lib

/-! ## The table of a statement -/

/-- The table a statement names. -/
def tableOf : Statement → Option String
  | .createTable ct => some (nameToString ct.name)
  | .insert ins => some (tableObjectName ins.table)
  | .query query =>
    match query.body with
    | .select select => select.fromTables.head?.map tableFactorName
    | _ => none
  | .delete del => some (deleteTable del)
  | .update table _ _ => some (tableFactorName table)
  | .drop .table names _ => some (firstName names)
  | .explainTable tableName => some (nameToString tableName)
  | .createIndex ci => some (nameToString ci.tableName)
  | _ => none

/-- The statement leaves the table `name` of `db` alone: it only reads, it creates
or drops another database, or it is on a table apart. -/
def Elsewhere [Host] (db name : String) (stmt : Statement) : Prop :=
  readOnly stmt = true ∨
  match stmt with
  | .createDatabase dbName _ => ¬ SameName (nameToString dbName) db
  | .drop .database names _ => ¬ SameName (firstName names) db
  | stmt => ∃ other, tableOf stmt = some other ∧ TablesApart name other

section Theory

variable [Host] {db name : String} {α : Type}

/-! ## Sections on the table -/

/-- A section that answers and acts alike. -/
def ActsAlike (db name : String) (f : Executor → Outcome α × Executor) : Prop :=
  ∀ e e', TableAlike db name e e' → (f e).1 = (f e').1 ∧ TableAlike db name (f e).2 (f e').2

theorem actsAlike_lockCatalog {f : Executor → Outcome α × Executor} (hf : ActsAlike db name f) :
    ActsAlike db name (lockCatalog f) := by
  intro e e' h
  obtain ⟨hresult, hstate⟩ := hf e e' h
  unfold lockCatalog
  rw [h.catalogPoisoned]
  split
  · exact ⟨rfl, h⟩
  · rcases hfe : f e with ⟨r, x⟩
    rcases hfe' : f e' with ⟨r', x'⟩
    rw [hfe, hfe'] at hresult hstate
    obtain rfl : r = r' := hresult
    rcases r with (msg | _) | a
    · exact ⟨rfl, hstate⟩
    · exact ⟨rfl, TableAlike.poisonCatalog hstate⟩
    · exact ⟨rfl, hstate⟩

theorem actsAlike_lockStorage {f : Executor → Outcome α × Executor} (hf : ActsAlike db name f) :
    ActsAlike db name (lockStorage f) := by
  intro e e' h
  obtain ⟨hresult, hstate⟩ := hf e e' h
  unfold lockStorage
  rw [h.storagePoisoned]
  split
  · exact ⟨rfl, h⟩
  · rcases hfe : f e with ⟨r, x⟩
    rcases hfe' : f e' with ⟨r', x'⟩
    rw [hfe, hfe'] at hresult hstate
    obtain rfl : r = r' := hresult
    rcases r with (msg | _) | a
    · exact ⟨rfl, hstate⟩
    · exact ⟨rfl, TableAlike.poisonStorage hstate⟩
    · exact ⟨rfl, hstate⟩

/-- The handler answers and acts alike on servers that show the same of the
table. -/
def Uses (db name : String) (h : Exec α) : Prop := Handler.Sees (TableAlike db name) h

theorem uses_catalogSection {f : Executor → Outcome α × Executor} (hf : ActsAlike db name f) :
    Uses db name (catalogSection f) :=
  Handler.sees_sec (actsAlike_lockCatalog hf)

theorem uses_storageSection {f : Executor → Outcome α × Executor} (hf : ActsAlike db name f) :
    Uses db name (storageSection f) :=
  Handler.sees_sec (actsAlike_lockStorage hf)

theorem uses_readCatalog {f : Catalog → Except String α}
    (hf : ∀ c c', SameEntry db name c c' → f c = f c') : Uses db name (readCatalog f) :=
  uses_catalogSection fun _ _ h => ⟨congrArg Outcome.ofExcept (hf _ _ h.entry), h⟩

theorem uses_writeCatalog {f : Catalog → Except String Catalog}
    (hf : ∀ c c', SameEntry db name c c' → Agree (SameEntry db name) (f c) (f c')) :
    Uses db name (writeCatalog f) := by
  refine uses_catalogSection fun e e' h => ?_
  have hagree := hf _ _ h.entry
  generalize f e.catalog.value = r, f e'.catalog.value = r' at hagree ⊢
  cases hagree with
  | error msg => exact ⟨rfl, h⟩
  | ok hc => exact ⟨rfl, h.setCatalog hc⟩

theorem uses_readStorage {f : Storage → α} (hf : ∀ s s', SameRecords name s s' → f s = f s') :
    Uses db name (readStorage f) :=
  uses_storageSection fun _ _ h => ⟨congrArg Except.ok (hf _ _ h.records), h⟩

theorem uses_updateStorage {f : Storage → α × Storage}
    (hf : ∀ s s', SameRecords name s s' → (f s).1 = (f s').1 ∧ SameRecords name (f s).2 (f s').2) :
    Uses db name (updateStorage f) :=
  uses_storageSection fun _ _ h =>
    ⟨congrArg Except.ok (hf _ _ h.records).1, h.setStorage (hf _ _ h.records).2⟩

theorem uses_askCatalog {f : Catalog → Bool}
    (hf : ∀ c c', SameEntry db name c c' → f c = f c') : Uses db name (askCatalog f) :=
  Handler.sees_sec fun e e' h => ⟨by rw [h.catalogPoisoned, hf _ _ h.entry], h⟩

theorem uses_liftOutcome (o : Outcome α) : Uses db name (liftOutcome o) := by
  cases o with
  | ok a => exact Handler.sees_pure a
  | error x => exact Handler.sees_throw x

theorem uses_ite {c : Bool} {h k : Exec α} (hh : Uses db name h) (hk : Uses db name k) :
    Uses db name (if c then h else k) := by
  split
  · exact hh
  · exact hk

theorem uses_logWal (env : Env) (entry : WalEntry) : Uses db name (logWal env entry) :=
  Handler.sees_sec fun _ _ h => ⟨rfl, h.append env entry entry⟩

/-- A write to the data directory. -/
theorem uses_persist (f : Executor → Persistence → Persistence) :
    Uses db name (Handler.sec fun e => (.ok (), e.persist (f e)) : Exec Unit) :=
  Handler.sees_sec fun _ _ h => ⟨rfl, h.persist _ _⟩

/-! ## Handlers on the table -/

section Statements

variable [Bincode]

omit [Host] in
theorem uses_save [Host] : Uses db name save :=
  uses_persist fun e p => if e.catalog.poisoned then p else p.saveCatalog e.catalog.value

theorem uses_saveTable (tableName : String) : Uses db name (saveTable tableName) :=
  uses_persist fun e p => if e.storage.poisoned then p else tableFiles e.storage.value tableName p

omit [Bincode] in
theorem uses_readTable : Uses db name (readTable db name) := by
  refine uses_readCatalog fun c c' h => ?_
  rw [h.getTable, h.indexes]

theorem uses_createTable [ExprDebug] (env : Env) (ct : CreateTable) :
    Uses db (nameToString ct.name) (executeCreateTable env db ct) := by
  refine (uses_catalogSection fun e e' h => ?_).bind fun _ => uses_save.bind fun _ =>
    Handler.sees_pure _
  have happend := h.append env
    (.createTable (nameToString ct.name) (createColumns (nameToString ct.name) ct.columns))
    (.createTable (nameToString ct.name) (createColumns (nameToString ct.name) ct.columns))
  have hagree := h.entry.createTable (createColumns (nameToString ct.name) ct.columns)
  simp only [createTableSection, Executor.append_catalog]
  generalize e.catalog.value.createTable db (nameToString ct.name)
      (createColumns (nameToString ct.name) ct.columns) = r,
    e'.catalog.value.createTable db (nameToString ct.name)
      (createColumns (nameToString ct.name) ct.columns) = r' at hagree ⊢
  cases hagree with
  | error msg => exact ⟨rfl, happend⟩
  | ok hc => exact ⟨rfl, happend.setCatalog hc⟩

theorem uses_insert [ExprDebug] (env : Env) (columns : List String) (source : Option Query) :
    Uses db name (executeInsert env db name columns source) := by
  refine (uses_readCatalog fun c c' h => h.getTable.symm).bind fun tableDef => ?_
  refine (uses_liftOutcome _).bind fun rows => ?_
  refine (uses_catalogSection fun e e' h => ?_).bind fun filled => ?_
  · obtain ⟨hresult, hc⟩ := h.entry.fillRows env.now tableDef.columns 0 rows 0
    exact ⟨hresult.symm, h.setCatalog hc⟩
  refine (uses_logWal _ _).bind fun _ => ?_
  refine (uses_updateStorage fun s s' h => ?_).bind fun ids => ?_
  · exact ⟨(h.insertRows filled.1).1.symm, (h.insertRows filled.1).2⟩
  refine (uses_saveTable _).bind fun _ => ?_
  refine (uses_readCatalog fun c c' h => ?_).bind fun indexes => ?_
  · rw [h.indexes]
  refine Handler.Sees.bind ?_ fun _ => Handler.sees_pure _
  unfold indexSection
  exact uses_ite (Handler.sees_pure _) (uses_updateStorage fun s s' h =>
    ⟨rfl, h.indexInserted indexes tableDef.columns ids⟩)

/-- DELETE and UPDATE, once they know the table. -/
theorem uses_changeTail [ExprDebug] (env : Env) (columns : List Column) (selection : Option Expr)
    {change : Storage → List Row → Storage} (hchange : ∀ s s' rows, SameRecords name s s' →
      SameRecords name (change s rows) (change s' rows)) :
    Uses db name (changeTail env name columns selection change) := by
  refine (uses_storageSection fun e e' h => ?_).bind fun _ =>
    (uses_saveTable _).bind fun _ => Handler.sees_pure _
  rw [h.records.table]
  cases e.storage.value.getTable? name with
  | none => exact ⟨rfl, h⟩
  | some t =>
    cases hsel : selectRows columns selection t.entries with
    | error x =>
      simp only [hsel]
      exact ⟨trivial, h⟩
    | ok rows =>
      have hset := h.setStorage (hchange _ _ rows h.records)
      simp only [hsel]
      refine ⟨trivial, ?_⟩
      unfold logSnapshot
      split
      · exact hset
      · exact hset.append _ _ _

theorem uses_delete [ExprDebug] (env : Env) (selection : Option Expr) :
    Uses db name (executeDelete env db name selection) :=
  uses_readTable.bind fun _ => uses_changeTail env _ selection fun _ _ rows h =>
    h.deleteRows _ _ rows

theorem uses_update [ExprDebug] (env : Env) (assignments : List Assignment)
    (selection : Option Expr) :
    Uses db name (executeUpdate env db name assignments selection) := by
  refine uses_readTable.bind fun _ => (uses_readCatalog fun c c' h => ?_).bind fun assigns =>
    uses_changeTail env _ selection fun _ _ rows h => h.updateRows _ _ assigns rows
  rw [h.getTable]

omit [Bincode] in
theorem uses_query [ExprDebug] {query : Query} {select : Select} {table : TableFactor}
    {rest : List TableFactor} (hbody : query.body = .select select)
    (hfrom : select.fromTables = table :: rest) :
    Uses db (tableFactorName table) (executeQuery db query) := by
  unfold executeQuery
  rw [hbody]
  simp only [hfrom]
  refine uses_readTable.bind fun found => (uses_readStorage fun s s' h => ?_).bind fun rows =>
    (uses_liftOutcome _).bind fun _ => Handler.sees_pure _
  exact (candidateRows_congr h.table_eq (fun idx _ => h.indexData _
    (startsWith_storageKey (tableFactorName table) idx.name)) select.selection).symm

theorem uses_createIndex (env : Env) (ci : CreateIndex) :
    Uses db (nameToString ci.tableName)
      (executeCreateIndex env db (nameToString ci.tableName) ci) := by
  unfold executeCreateIndex
  simp only
  have hregister : Uses db (nameToString ci.tableName) (writeCatalog fun c =>
      c.createIndex db (newIndexDef (nameToString ci.tableName) ci)) :=
    uses_writeCatalog fun c c' h => h.createIndex rfl
  refine uses_ite (Handler.sees_throw _) (hregister.bind fun _ => (uses_logWal _ _).bind
    fun _ => (uses_readCatalog fun c c' h => h.getTable.symm).bind fun tableDef =>
      Handler.Sees.bind (uses_storageSection fun e e' h => ?_) fun _ =>
        (uses_saveTable _).bind fun _ => uses_save.bind fun _ => Handler.sees_pure _)
  simp only [h.records.rows]
  split
  · exact ⟨rfl, h.setStorage (h.records.putIndex _ _)⟩
  · exact ⟨rfl, h.setStorage (h.records.removeIndex _)⟩

/-- DROP TABLE works on the name in lower case. -/
theorem uses_dropTable (env : Env) : Uses db name (executeDropTable env db name) := by
  have hfolded : SameName (toLowercase name) name := normalize_toLowercase name
  rw [Uses, ← tableAlike_sameName rfl hfolded]
  refine (uses_logWal _ _).bind fun _ => (Handler.sees_sec ?_).bind fun _ =>
    Handler.Sees.bind ?_ fun _ => Handler.sees_pure _
  · refine actsAlike_lockCatalog fun e e' h => ?_
    have hagree := h.entry.dropTable
    generalize e.catalog.value.dropTable db (toLowercase name) = r,
      e'.catalog.value.dropTable db (toLowercase name) = r' at hagree ⊢
    cases hagree with
    | error msg => exact ⟨rfl, h⟩
    | ok hc =>
      refine actsAlike_lockStorage (fun e e' h => ?_) _ _ (h.setCatalog hc)
      exact ⟨rfl, h.setStorage (sameRecords_cleared _ _ _)⟩
  · refine (Handler.sees_sec fun e e' h => ⟨by rw [h.durable], h⟩).bind fun durable =>
      uses_ite ?_ (Handler.sees_pure _)
    exact (uses_persist fun _ p => p.removeTableData _).bind fun _ =>
      uses_catalogSection fun e e' h => ⟨rfl, h.persist _ _⟩

omit [Bincode] in
theorem uses_describe : Uses db name (executeDescribe db name) := by
  refine uses_readCatalog fun c c' h => ?_
  rw [h.getTable]

omit [Bincode] in
theorem uses_tableExists : Uses db name (tableExists db name) :=
  uses_askCatalog fun _ _ h => h.tableExists.symm

/-- A statement uses the table it names. -/
theorem execute_uses [ExprDebug] (env : Env) {stmt : Statement} (h : tableOf stmt = some name) :
    Uses db name (execute env db stmt) := by
  unfold tableOf at h
  split at h
  · next ct =>
    cases h
    exact uses_ite (uses_tableExists.bind fun _ => uses_ite (Handler.sees_pure _)
      (uses_createTable env ct)) (uses_createTable env ct)
  · cases h
    exact uses_insert env _ _
  · next query =>
    split at h
    · next select hbody =>
      cases hfrom : select.fromTables with
      | nil =>
        rw [hfrom] at h
        cases h
      | cons table rest =>
        rw [hfrom] at h
        cases h
        exact uses_query hbody hfrom
    · cases h
  · cases h
    exact uses_delete env _
  · cases h
    exact uses_update env _ _
  · cases h
    exact uses_ite (uses_tableExists.bind fun _ => uses_ite (uses_dropTable env)
      (Handler.sees_pure _)) (uses_dropTable env)
  · cases h
    exact uses_describe
  · next ci =>
    cases h
    exact uses_tableExists.bind fun _ => uses_ite (uses_createIndex env ci) (Handler.sees_throw _)
  · cases h

end Statements

/-! ## Handlers on other tables -/

/-- Shows the same of the table as `e₀`, unless a mutex is poisoned. -/
def StaysAlike (db name : String) (e₀ e : Executor) : Prop :=
  ¬ e.Poisoned → TableAlike db name e₀ e

variable {e₀ e e' : Executor} {other : String}

theorem steady_staysAlike : Steady (StaysAlike db name e₀) where
  poisonCatalog _ _ hno := absurd (.inl rfl) hno
  poisonStorage _ _ hno := absurd (.inr rfl) hno

theorem StaysAlike.step (he : StaysAlike db name e₀ e) (h : TableAlike db name e e') :
    StaysAlike db name e₀ e' := by
  intro hno
  refine (equivalence_tableAlike db name).trans (he fun hp => hno ?_) h
  rw [Executor.Poisoned, h.catalogPoisoned, h.storagePoisoned]
  exact hp

theorem StaysAlike.setCatalog (he : StaysAlike db name e₀ e) {c : Catalog}
    (hc : SameEntry db name e.catalog.value c) : StaysAlike db name e₀ (e.setCatalog c) :=
  he.step ⟨rfl, rfl, rfl, hc, .refl _ _⟩

theorem StaysAlike.setStorage (he : StaysAlike db name e₀ e) {s : Storage}
    (hs : SameRecords name e.storage.value s) : StaysAlike db name e₀ (e.setStorage s) :=
  he.step ⟨rfl, rfl, rfl, .refl _ _ _, hs⟩

theorem StaysAlike.append (he : StaysAlike db name e₀ e) (env : Env) (entry : WalEntry) :
    StaysAlike db name e₀ (e.append env entry) :=
  he.step ⟨rfl, rfl, rfl, .refl _ _ _, .refl _ _⟩

theorem StaysAlike.persist (he : StaysAlike db name e₀ e) (f : Persistence → Persistence) :
    StaysAlike db name e₀ (e.persist f) :=
  he.step ⟨rfl, rfl, by simp, .refl _ _ _, .refl _ _⟩

/-- No section of the handler changes what is shown of the table, a panic
apart. -/
def Spares (db name : String) (h : Exec α) : Prop :=
  ∀ e₀, Handler.Keeps (StaysAlike db name e₀) h

section Statements

variable [Bincode] {callDb : String}

theorem spares_save : Spares db name save :=
  fun _ => keeps_save fun _ he => he.persist _

theorem spares_saveTable (tableName : String) : Spares db name (saveTable tableName) :=
  fun _ => keeps_saveTable fun _ he => he.persist _

omit [Bincode] in
theorem spares_logWal (env : Env) (entry : WalEntry) : Spares db name (logWal env entry) :=
  fun _ => keeps_logWal fun _ he => he.append env entry

theorem spares_createTable [ExprDebug] (env : Env) {ct : CreateTable}
    (hname : ¬ SameName (nameToString ct.name) name) :
    Spares db name (executeCreateTable env callDb ct) := by
  intro e₀
  refine (keeps_catalogSection steady_staysAlike fun e he => ?_).bind fun _ =>
    (spares_save e₀).bind fun _ => Handler.keeps_pure _
  unfold createTableSection
  simp only
  split
  · next c hc => exact (he.append env _).setCatalog (sameEntry_createTable hname hc)
  · exact he.append env _

theorem spares_insert [ExprDebug] (env : Env) (hapart : TablesApart name other)
    (columns : List String) (source : Option Query) :
    Spares db name (executeInsert env callDb other columns source) := by
  intro e₀
  refine (keeps_readCatalog steady_staysAlike _).bind fun tableDef => ?_
  refine (keeps_liftOutcome _).bind fun rows => ?_
  refine (keeps_catalogSection steady_staysAlike fun e he => ?_).bind fun filled => ?_
  · exact he.setCatalog (sameEntry_fillRows hapart.ne env.now tableDef.columns 0 rows 0)
  refine (spares_logWal _ _ e₀).bind fun _ => ?_
  refine (keeps_updateStorage steady_staysAlike fun e he => ?_).bind fun ids => ?_
  · exact he.setStorage (sameRecords_insertRows hapart.ne filled.1)
  refine (spares_saveTable _ e₀).bind fun _ =>
    (keeps_readCatalog steady_staysAlike _).bind fun indexes => ?_
  exact (keeps_indexSection steady_staysAlike fun e he => he.setStorage
    (sameRecords_indexInserted hapart indexes tableDef.columns ids)).bind fun _ =>
      Handler.keeps_pure _

theorem spares_changeTail [ExprDebug] (env : Env) (columns : List Column)
    (selection : Option Expr) {change : Storage → List Row → Storage}
    (hchange : ∀ s rows, SameRecords name s (change s rows)) :
    Spares db name (changeTail env other columns selection change) := by
  intro e₀
  refine changeTail_keeps steady_staysAlike env other (fun e t rows _ he => ?_)
    fun _ he => he.persist _
  have hset := he.setStorage (hchange e.storage.value rows)
  unfold logSnapshot
  split
  · exact hset
  · exact hset.append env _

theorem spares_delete [ExprDebug] (env : Env) (hapart : TablesApart name other)
    (selection : Option Expr) : Spares db name (executeDelete env callDb other selection) :=
  fun e₀ => (keeps_readCatalog steady_staysAlike _).bind fun _ => spares_changeTail env _ selection
    (fun _ rows => sameRecords_deleteRows hapart _ _ rows) e₀

theorem spares_update [ExprDebug] (env : Env) (hapart : TablesApart name other)
    (assignments : List Assignment) (selection : Option Expr) :
    Spares db name (executeUpdate env callDb other assignments selection) :=
  fun e₀ => (keeps_readCatalog steady_staysAlike _).bind fun _ =>
    (keeps_readCatalog steady_staysAlike _).bind fun assigns => spares_changeTail env _ selection
      (fun _ rows => sameRecords_updateRows hapart _ _ assigns rows) e₀

theorem spares_createIndex (env : Env) {ci : CreateIndex}
    (hapart : TablesApart name (nameToString ci.tableName)) :
    Spares db name (executeCreateIndex env callDb (nameToString ci.tableName) ci) := by
  intro e₀
  unfold executeCreateIndex
  simp only
  refine keeps_ite (Handler.keeps_throw _) ?_
  refine (keeps_writeCatalog steady_staysAlike fun e c he hc => ?_).bind fun _ =>
    (spares_logWal _ _ e₀).bind fun _ => (keeps_readCatalog steady_staysAlike _).bind
      fun tableDef => Handler.Keeps.bind (keeps_storageSection steady_staysAlike fun e he => ?_)
        fun _ => (spares_saveTable _ e₀).bind fun _ => (spares_save e₀).bind fun _ =>
          Handler.keeps_pure _
  · exact he.setCatalog (sameEntry_createIndex hapart.ne hc)
  · simp only
    split
    · exact he.setStorage (sameRecords_putIndex hapart _ _)
    · exact he.setStorage (sameRecords_removeIndex hapart _)

theorem spares_dropTable (env : Env) (hapart : TablesApart name other) :
    Spares db name (executeDropTable env callDb other) := by
  have hfolded : TablesApart name (toLowercase other) := by
    have hsame : keyPrefix (toLowercase other) = keyPrefix other :=
      congrArg (· ++ ":") (normalize_toLowercase other)
    rw [TablesApart, hsame]
    exact hapart
  intro e₀
  refine (spares_logWal _ _ e₀).bind fun _ => (Handler.keeps_sec fun e he => ?_).bind fun _ =>
    (dropTableFiles_keeps steady_staysAlike _ (fun _ he => he.persist _)
      fun _ he => he.persist _).bind fun _ => Handler.keeps_pure _
  refine keeps_lockCatalog steady_staysAlike he ?_
  split
  · exact he
  · next c hc =>
    have hset := he.setCatalog (sameEntry_dropTable hfolded.ne hc)
    exact keeps_lockStorage steady_staysAlike hset
      (hset.setStorage (sameRecords_clearTable hfolded))

theorem spares_databaseChange {change : Catalog → Except String Catalog}
    (hchange : ∀ c c', change c = .ok c' → SameEntry db name c c') (result : ExecuteResult) :
    Spares db name (do writeCatalog change; save; pure result) :=
  fun e₀ => (keeps_writeCatalog steady_staysAlike fun _ _ he hc =>
    he.setCatalog (hchange _ _ hc)).bind fun _ => (spares_save e₀).bind fun _ =>
      Handler.keeps_pure _

theorem spares_createDatabase {dbName : ObjectName} (hdb : ¬ SameName (nameToString dbName) db) :
    Spares db name (executeCreateDatabase dbName) := by
  refine spares_databaseChange (fun c c' hc => ?_) .ok
  cases hc
  exact sameEntry_createDatabase hdb

theorem spares_dropDatabase {dbName : String} (hdb : ¬ SameName dbName db) :
    Spares db name (executeDropDatabase dbName) := by
  refine spares_databaseChange (fun c c' hc => ?_) .ok
  split at hc
  · next c₁ hremove =>
    cases hc
    exact sameEntry_removeDatabase hdb hremove
  · cases hc

/-- A statement elsewhere spares the table. -/
theorem execute_spares [ExprDebug] (env : Env) {stmt : Statement}
    (h : Elsewhere db name stmt) : Spares db name (execute env callDb stmt) := by
  rcases h with hread | h
  · exact fun _ => execute_readOnly_keeps steady_staysAlike env callDb hread
  intro e₀
  split at h
  · next dbName ifNotExists =>
    exact keeps_ite ((keeps_askCatalog _).bind fun _ => keeps_ite (Handler.keeps_pure _)
      (spares_createDatabase h e₀)) (spares_createDatabase h e₀)
  · next names ifExists =>
    exact keeps_ite ((keeps_askCatalog _).bind fun _ => keeps_ite (spares_dropDatabase h e₀)
      (Handler.keeps_pure _)) (spares_dropDatabase h e₀)
  · obtain ⟨other, htable, hapart⟩ := h
    unfold tableOf at htable
    split at htable
    · cases htable
      exact keeps_ite ((keeps_askCatalog _).bind fun _ => keeps_ite (Handler.keeps_pure _)
        (spares_createTable env hapart.ne e₀)) (spares_createTable env hapart.ne e₀)
    · cases htable
      exact spares_insert env hapart _ _ e₀
    · exact execute_readOnly_keeps steady_staysAlike env callDb rfl
    · cases htable
      exact spares_delete env hapart _ e₀
    · cases htable
      exact spares_update env hapart _ _ e₀
    · cases htable
      exact keeps_ite ((keeps_askCatalog _).bind fun _ => keeps_ite
        (spares_dropTable env hapart e₀) (Handler.keeps_pure _)) (spares_dropTable env hapart e₀)
    · exact execute_readOnly_keeps steady_staysAlike env callDb rfl
    · cases htable
      exact (keeps_askCatalog _).bind fun _ => keeps_ite (spares_createIndex env hapart e₀)
        (Handler.keeps_throw _)
    · cases htable

end Statements

end Theory

end Srrdb.Server
