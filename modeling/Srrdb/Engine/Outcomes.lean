/-
Srrdb.Engine.Outcomes — what each handler does when it runs alone.

Every handler has a relation that lists its ways to end: for each one the
conditions under which it is taken, the result and the server it leaves. The
theorem beside it says that a run of the handler is one of them. The other
modules argue by cases on these relations and never unfold a handler.

The dispatch of `execute` adds IF [NOT] EXISTS and the lookup of the table of
an index; `execute_*` state it, and `ReadOnly` collects the statements that
change nothing whatever their result.
-/
import Srrdb.Engine.Executor

namespace Srrdb.Engine

open Srrdb.Sql Srrdb.Lib

/-- The result of a statement that finds a poisoned mutex. -/
abbrev locked {α : Type} : Outcome α := .error (.err lockError)

/-- The result of a statement that fails with a message. -/
abbrev failed {α : Type} (msg : String) : Outcome α := .error (.err msg)

/-! ## Sections run alone -/

section Sections

variable {α : Type} {e : Executor} {f : Executor → Outcome α × Executor}

theorem run_catalogSection_poisoned (h : e.catalog.poisoned = true) :
    (catalogSection f).run e = (locked, e) := by
  simp [catalogSection, lockCatalog, h]

theorem run_catalogSection_ok {a : α} {e' : Executor} (h : e.catalog.poisoned = false)
    (hf : f e = (.ok a, e')) : (catalogSection f).run e = (.ok a, e') := by
  simp [catalogSection, lockCatalog, h, hf]

theorem run_catalogSection_failed {msg : String} {e' : Executor} (h : e.catalog.poisoned = false)
    (hf : f e = (failed msg, e')) : (catalogSection f).run e = (failed msg, e') := by
  simp [catalogSection, lockCatalog, h, hf]

theorem run_catalogSection_panic {e' : Executor} (h : e.catalog.poisoned = false)
    (hf : f e = (.error .panic, e')) :
    (catalogSection f).run e = (.error .panic, e'.poisonCatalog) := by
  simp [catalogSection, lockCatalog, h, hf]

theorem run_storageSection_poisoned (h : e.storage.poisoned = true) :
    (storageSection f).run e = (locked, e) := by
  simp [storageSection, lockStorage, h]

theorem run_storageSection_ok {a : α} {e' : Executor} (h : e.storage.poisoned = false)
    (hf : f e = (.ok a, e')) : (storageSection f).run e = (.ok a, e') := by
  simp [storageSection, lockStorage, h, hf]

theorem run_storageSection_failed {msg : String} {e' : Executor} (h : e.storage.poisoned = false)
    (hf : f e = (failed msg, e')) : (storageSection f).run e = (failed msg, e') := by
  simp [storageSection, lockStorage, h, hf]

theorem run_storageSection_panic {e' : Executor} (h : e.storage.poisoned = false)
    (hf : f e = (.error .panic, e')) :
    (storageSection f).run e = (.error .panic, e'.poisonStorage) := by
  simp [storageSection, lockStorage, h, hf]

theorem run_readCatalog_poisoned {f : Catalog → Except String α}
    (h : e.catalog.poisoned = true) : (readCatalog f).run e = (locked, e) :=
  run_catalogSection_poisoned h

theorem run_readCatalog (f : Catalog → Except String α) (h : e.catalog.poisoned = false) :
    (readCatalog f).run e = (Outcome.ofExcept (f e.catalog.value), e) := by
  cases hf : f e.catalog.value with
  | ok a => exact run_catalogSection_ok h (by rw [hf]; rfl)
  | error msg => exact run_catalogSection_failed h (by rw [hf]; rfl)

theorem run_writeCatalog_poisoned {f : Catalog → Except String Catalog}
    (h : e.catalog.poisoned = true) : (writeCatalog f).run e = (locked, e) :=
  run_catalogSection_poisoned h

theorem run_writeCatalog_ok {f : Catalog → Except String Catalog} {c : Catalog}
    (h : e.catalog.poisoned = false) (hf : f e.catalog.value = .ok c) :
    (writeCatalog f).run e = (.ok (), e.setCatalog c) :=
  run_catalogSection_ok h (by rw [hf])

theorem run_writeCatalog_failed {f : Catalog → Except String Catalog} {msg : String}
    (h : e.catalog.poisoned = false) (hf : f e.catalog.value = .error msg) :
    (writeCatalog f).run e = (failed msg, e) :=
  run_catalogSection_failed h (by rw [hf])

theorem run_readStorage_poisoned {f : Storage → α} (h : e.storage.poisoned = true) :
    (readStorage f).run e = (locked, e) :=
  run_storageSection_poisoned h

theorem run_readStorage (f : Storage → α) (h : e.storage.poisoned = false) :
    (readStorage f).run e = (.ok (f e.storage.value), e) :=
  run_storageSection_ok h rfl

theorem run_updateStorage_poisoned {f : Storage → α × Storage} (h : e.storage.poisoned = true) :
    (updateStorage f).run e = (locked, e) :=
  run_storageSection_poisoned h

theorem run_updateStorage (f : Storage → α × Storage) (h : e.storage.poisoned = false) :
    (updateStorage f).run e =
      (.ok (f e.storage.value).1, e.setStorage (f e.storage.value).2) :=
  run_storageSection_ok h rfl

@[simp] theorem run_liftOutcome (o : Outcome α) : (liftOutcome o).run e = (o, e) := by
  cases o <;> rfl

@[simp] theorem run_logWal (env : Env) (entry : WalEntry) :
    (logWal env entry).run e = (.ok (), e.append env entry) := rfl

@[simp] theorem run_save [Bincode] : save.run e = (.ok (), e.save) := rfl

@[simp] theorem run_saveTable [Bincode] [Host] (tableName : String) :
    (saveTable tableName).run e = (.ok (), e.saveTable tableName) := rfl

end Sections

/-! ## Memory -/

namespace Executor

variable (e : Executor)

@[simp] theorem memory_setCatalog (c : Catalog) :
    (e.setCatalog c).memory = ⟨c, e.memory.storage⟩ := rfl

@[simp] theorem memory_setStorage (s : Storage) :
    (e.setStorage s).memory = ⟨e.memory.catalog, s⟩ := rfl

@[simp] theorem memory_append (env : Env) (entry : WalEntry) :
    (e.append env entry).memory = e.memory := rfl

@[simp] theorem memory_persist (f : Persistence → Persistence) :
    (e.persist f).memory = e.memory := rfl

@[simp] theorem memory_poisonCatalog : e.poisonCatalog.memory = e.memory := rfl

@[simp] theorem memory_poisonStorage : e.poisonStorage.memory = e.memory := rfl

@[simp] theorem memory_save [Bincode] : e.save.memory = e.memory := rfl

@[simp] theorem memory_saveTable [Bincode] [Host] (tableName : String) :
    (e.saveTable tableName).memory = e.memory := rfl

@[simp] theorem memory_catalog : e.memory.catalog = e.catalog.value := rfl

@[simp] theorem memory_storage : e.memory.storage = e.storage.value := rfl

end Executor

variable [Host] [ExprDebug] [Bincode]

/-! ## CREATE TABLE -/

omit [ExprDebug] in
/-- The ways CREATE TABLE ends. -/
inductive CreateTableOutcome (env : Env) (db tableName : String) (columns : List Column)
    (e : Executor) : Outcome ExecuteResult → Executor → Prop
  | locked (hc : e.catalog.poisoned = true) : CreateTableOutcome env db tableName columns e locked e
  | rejected {msg : String} (hc : e.catalog.poisoned = false)
      (h : e.catalog.value.createTable db tableName columns = .error msg) :
      CreateTableOutcome env db tableName columns e (failed msg)
        (e.append env (.createTable tableName columns))
  | created {c : Catalog} (hc : e.catalog.poisoned = false)
      (h : e.catalog.value.createTable db tableName columns = .ok c) :
      CreateTableOutcome env db tableName columns e (.ok .ok)
        ((e.append env (.createTable tableName columns)).setCatalog c).save

theorem executeCreateTable_outcome (env : Env) (db : String) (ct : CreateTable) (e : Executor) :
    CreateTableOutcome env db (nameToString ct.name)
      (createColumns (nameToString ct.name) ct.columns) e
      ((executeCreateTable env db ct).run e).1 ((executeCreateTable env db ct).run e).2 := by
  unfold executeCreateTable
  cases hc : e.catalog.poisoned with
  | true =>
    rw [Handler.run_bind_error (run_catalogSection_poisoned hc)]
    exact .locked hc
  | false =>
    cases h : e.catalog.value.createTable db (nameToString ct.name)
        (createColumns (nameToString ct.name) ct.columns) with
    | error msg =>
      rw [Handler.run_bind_error (run_catalogSection_failed hc (by
        simp only [createTableSection, Executor.append_catalog, h]; rfl))]
      exact .rejected hc h
    | ok c =>
      rw [Handler.run_bind_ok (run_catalogSection_ok hc (by
        simp only [createTableSection, Executor.append_catalog, h]; rfl))]
      exact .created hc h

/-! ## INSERT -/

omit [ExprDebug] [Bincode] in
theorem fillValues_error {now : Nat → Nat} {tableName : String} {x : Stop} :
    ∀ {cols : List Column} {idx : Nat} {values : List Value} {last : Nat} {c : Catalog},
      (fillValues now tableName idx cols values last c).1 = .error x → x = .panic
  | [], _, _, _, _, h => by simp [fillValues] at h
  | col :: cols, idx, values, last, c, h => by
    unfold fillValues at h
    split at h
    · cases h; rfl
    · split at h
      · exact fillValues_error h
      · split at h <;> exact fillValues_error h
    · exact fillValues_error h

omit [ExprDebug] [Bincode] in
/-- Filling in defaults panics or succeeds. -/
theorem fillRows_error {now : Nat → Nat → Nat} {tableName : String} {columns : List Column}
    {x : Stop} : ∀ {rows : List Row} {i last : Nat} {c : Catalog},
      (fillRows now tableName columns i rows last c).1 = .error x → x = .panic
  | [], _, _, _, h => by simp [fillRows] at h
  | row :: rows, i, last, c, h => by
    unfold fillRows at h
    split at h
    · next hv => cases h; exact fillValues_error (congrArg Prod.fst hv)
    · next hv =>
      split at h
      · next hr => cases h; exact fillRows_error (congrArg Prod.fst hr)
      · cases h

/-- The server after the rows of an INSERT are stored under `ids`, saved and
indexed. -/
def insertDone (e : Executor) (tableName : String) (indexes : List IndexDef)
    (columns : List Column) (ids : List Nat) : Executor :=
  let e := e.saveTable tableName
  if indexes.isEmpty || ids.isEmpty then e
  else e.setStorage (indexInserted e.storage.value tableName indexes columns ids)

/-- The ways INSERT ends. -/
inductive InsertOutcome (env : Env) (db tableName : String) (cols : List String)
    (source : Option Query) (e : Executor) : Outcome ExecuteResult → Executor → Prop
  | locked (hc : e.catalog.poisoned = true) : InsertOutcome env db tableName cols source e locked e
  | noTable {msg : String} (hc : e.catalog.poisoned = false)
      (h : e.catalog.value.getTable db tableName = .error msg) :
      InsertOutcome env db tableName cols source e (failed msg) e
  | badSource {tableDef : TableDef} {msg : String} (hc : e.catalog.poisoned = false)
      (h : e.catalog.value.getTable db tableName = .ok tableDef)
      (hs : sourceRows tableDef.columns cols source = .error msg) :
      InsertOutcome env db tableName cols source e (failed msg) e
  | panicked {tableDef : TableDef} {rows : List Row} {c : Catalog}
      (hc : e.catalog.poisoned = false)
      (h : e.catalog.value.getTable db tableName = .ok tableDef)
      (hs : sourceRows tableDef.columns cols source = .ok rows)
      (hf : fillRows env.now tableName tableDef.columns 0 rows 0 e.catalog.value =
        (.error .panic, c)) :
      InsertOutcome env db tableName cols source e (.error .panic) (e.setCatalog c).poisonCatalog
  | unstored {tableDef : TableDef} {rows filled : List Row} {last : Nat} {c : Catalog}
      (hc : e.catalog.poisoned = false)
      (h : e.catalog.value.getTable db tableName = .ok tableDef)
      (hs : sourceRows tableDef.columns cols source = .ok rows)
      (hf : fillRows env.now tableName tableDef.columns 0 rows 0 e.catalog.value =
        (.ok (filled, last), c))
      (hst : e.storage.poisoned = true) :
      InsertOutcome env db tableName cols source e Engine.locked
        ((e.setCatalog c).append env (.insertRows tableName filled))
  | stored {tableDef : TableDef} {rows filled : List Row} {last : Nat} {c : Catalog}
      (hc : e.catalog.poisoned = false)
      (h : e.catalog.value.getTable db tableName = .ok tableDef)
      (hs : sourceRows tableDef.columns cols source = .ok rows)
      (hf : fillRows env.now tableName tableDef.columns 0 rows 0 e.catalog.value =
        (.ok (filled, last), c))
      (hst : e.storage.poisoned = false) :
      InsertOutcome env db tableName cols source e (.ok (.affected filled.length last))
        (insertDone (((e.setCatalog c).append env (.insertRows tableName filled)).setStorage
            (e.storage.value.insertRows tableName filled).2) tableName
          (c.getTableIndexes db tableName) tableDef.columns
          (e.storage.value.insertRows tableName filled).1)

omit [ExprDebug] [Bincode] in
theorem run_indexSection {e : Executor} (tableName : String) (indexes : List IndexDef)
    (columns : List Column) (ids : List Nat) (hst : e.storage.poisoned = false) :
    (indexSection tableName indexes columns ids).run e = (.ok (),
      if indexes.isEmpty || ids.isEmpty then e
      else e.setStorage (indexInserted e.storage.value tableName indexes columns ids)) := by
  unfold indexSection
  split
  · rfl
  · exact run_updateStorage _ hst

omit [ExprDebug] in
/-- The tail of INSERT, from the saved table on. -/
theorem run_insertTail {e : Executor} (db tableName : String) (columns : List Column)
    (ids : List Nat) (result : ExecuteResult) (hc : e.catalog.poisoned = false)
    (hst : e.storage.poisoned = false) :
    Handler.run (do
      saveTable tableName
      let tableIndexes ← readCatalog fun c => .ok (c.getTableIndexes db tableName)
      indexSection tableName tableIndexes columns ids
      pure result) e =
    (.ok result, insertDone e tableName (e.catalog.value.getTableIndexes db tableName) columns
      ids) := by
  rw [Handler.run_bind_ok (run_saveTable tableName),
    Handler.run_bind_ok (run_readCatalog _ (by rw [Executor.saveTable_catalog]; exact hc)),
    Executor.saveTable_catalog,
    Handler.run_bind_ok (run_indexSection _ _ _ _ (by rw [Executor.saveTable_storage]; exact hst))]
  rfl

theorem executeInsert_outcome (env : Env) (db tableName : String) (cols : List String)
    (source : Option Query) (e : Executor) :
    InsertOutcome env db tableName cols source e
      ((executeInsert env db tableName cols source).run e).1
      ((executeInsert env db tableName cols source).run e).2 := by
  unfold executeInsert
  cases hc : e.catalog.poisoned with
  | true =>
    rw [Handler.run_bind_error (run_readCatalog_poisoned hc)]
    exact .locked hc
  | false =>
    rw [Handler.run_bind, run_readCatalog _ hc]
    cases h : e.catalog.value.getTable db tableName with
    | error msg => exact .noTable hc h
    | ok tableDef =>
      simp only [Outcome.ofExcept_ok]
      rw [Handler.run_bind, run_liftOutcome]
      cases hs : sourceRows tableDef.columns cols source with
      | error msg => exact .badSource hc h hs
      | ok rows =>
        simp only [Outcome.ofExcept_ok]
        rw [Handler.run_bind]
        rcases hf : fillRows env.now tableName tableDef.columns 0 rows 0 e.catalog.value with
          ⟨_ | ⟨filled, last⟩, c⟩
        · next x =>
          obtain rfl : x = .panic := fillRows_error (congrArg Prod.fst hf)
          have hrun : (fillSection env tableName tableDef.columns rows).run e =
              (.error .panic, (e.setCatalog c).poisonCatalog) :=
            run_catalogSection_panic hc (by rw [hf])
          rw [hrun]
          exact .panicked hc h hs hf
        · have hrun : (fillSection env tableName tableDef.columns rows).run e =
              (.ok (filled, last), e.setCatalog c) :=
            run_catalogSection_ok hc (by rw [hf])
          rw [hrun]
          simp only
          rw [Handler.run_bind_ok (run_logWal env _)]
          cases hst : e.storage.poisoned with
          | true =>
            rw [storeSection, Handler.run_bind_error (run_updateStorage_poisoned (by exact hst))]
            exact .unstored hc h hs hf hst
          | false =>
            rw [storeSection, Handler.run_bind_ok (run_updateStorage _ (by exact hst)),
              run_insertTail]
            · exact .stored hc h hs hf hst
            · exact hc
            · exact hst

/-! ## DELETE and UPDATE -/

omit [Bincode] in
/-- An error of a WHERE clause selects nothing; only a panic stops it. -/
theorem selectRows_error {columns : List Column} {selection : Option Expr} {x : Stop} :
    ∀ {rows : List Row}, selectRows columns selection rows = .error x → x = .panic
  | [], h => by cases h
  | row :: rows, h => by
    unfold selectRows at h
    cases hrow : rowSelected columns selection row with
    | error y =>
      rw [hrow] at h
      cases h
      unfold rowSelected at hrow
      split at hrow
      · unfold whereHolds at hrow
        split at hrow <;> cases hrow
        rfl
      · cases hrow
    | ok keep =>
      rw [hrow] at h
      cases hrest : selectRows columns selection rows with
      | error y =>
        rw [hrest] at h
        cases h
        exact selectRows_error hrest
      | ok rest =>
        rw [hrest] at h
        cases h

/-- The ways the storage part of DELETE and UPDATE ends, given what the
statement does to the rows it selects. -/
inductive ChangeOutcome (env : Env) (tableName : String) (columns : List Column)
    (selection : Option Expr) (change : Storage → List Row → Storage) (e : Executor) :
    Outcome ExecuteResult → Executor → Prop
  | locked (hst : e.storage.poisoned = true) :
      ChangeOutcome env tableName columns selection change e locked e
  | noEntry (hst : e.storage.poisoned = false)
      (ht : e.storage.value.getTable? tableName = none) :
      ChangeOutcome env tableName columns selection change e
        (failed s!"Unknown table: {tableName}") e
  | panicked {t : Table} (hst : e.storage.poisoned = false)
      (ht : e.storage.value.getTable? tableName = some t)
      (hsel : selectRows columns selection t.entries = .error .panic) :
      ChangeOutcome env tableName columns selection change e (.error .panic) e.poisonStorage
  | changed {t : Table} {rows : List Row} (hst : e.storage.poisoned = false)
      (ht : e.storage.value.getTable? tableName = some t)
      (hsel : selectRows columns selection t.entries = .ok rows) :
      ChangeOutcome env tableName columns selection change e (.ok (.affected rows.length 0))
        ((logSnapshot env tableName rows
          (e.setStorage (change e.storage.value rows))).saveTable tableName)

/-- What DELETE and UPDATE run once they know what to do. -/
def changeTail (env : Env) (tableName : String) (columns : List Column)
    (selection : Option Expr) (change : Storage → List Row → Storage) : Exec ExecuteResult := do
  let n ← changeSection env tableName columns selection change
  saveTable tableName
  pure (.affected n 0)

theorem changeTail_outcome (env : Env) (tableName : String) (columns : List Column)
    (selection : Option Expr) (change : Storage → List Row → Storage) (e : Executor) :
    ChangeOutcome env tableName columns selection change e
      ((changeTail env tableName columns selection change).run e).1
      ((changeTail env tableName columns selection change).run e).2 := by
  unfold changeTail
  cases hst : e.storage.poisoned with
  | true =>
    have hrun : (changeSection env tableName columns selection change).run e = (locked, e) :=
      run_storageSection_poisoned hst
    rw [Handler.run_bind_error hrun]
    exact .locked hst
  | false =>
    cases ht : e.storage.value.getTable? tableName with
    | none =>
      have hrun : (changeSection env tableName columns selection change).run e =
          (failed s!"Unknown table: {tableName}", e) :=
        run_storageSection_failed hst (by rw [ht])
      rw [Handler.run_bind_error hrun]
      exact .noEntry hst ht
    | some t =>
      cases hsel : selectRows columns selection t.entries with
      | error x =>
        obtain rfl : x = .panic := selectRows_error hsel
        have hrun : (changeSection env tableName columns selection change).run e =
            (.error .panic, e.poisonStorage) :=
          run_storageSection_panic hst (by rw [ht]; simp only [hsel])
        rw [Handler.run_bind_error hrun]
        exact .panicked hst ht hsel
      | ok rows =>
        have hrun : (changeSection env tableName columns selection change).run e =
            (.ok rows.length,
              logSnapshot env tableName rows (e.setStorage (change e.storage.value rows))) :=
          run_storageSection_ok hst (by rw [ht]; simp only [hsel])
        rw [Handler.run_bind_ok hrun]
        exact .changed hst ht hsel

/-- The ways DELETE ends. -/
inductive DeleteOutcome (env : Env) (db tableName : String) (selection : Option Expr)
    (e : Executor) : Outcome ExecuteResult → Executor → Prop
  | locked (hc : e.catalog.poisoned = true) : DeleteOutcome env db tableName selection e locked e
  | noTable {msg : String} (hc : e.catalog.poisoned = false)
      (h : e.catalog.value.getTable db tableName = .error msg) :
      DeleteOutcome env db tableName selection e (failed msg) e
  | ran {tableDef : TableDef} {r : Outcome ExecuteResult} {e' : Executor}
      (hc : e.catalog.poisoned = false)
      (h : e.catalog.value.getTable db tableName = .ok tableDef)
      (hch : ChangeOutcome env tableName tableDef.columns selection
        (fun s rows => deleteRows s tableName (e.catalog.value.getTableIndexes db tableName)
          tableDef.columns rows) e r e') :
      DeleteOutcome env db tableName selection e r e'

omit [ExprDebug] [Bincode] in
theorem run_readTable_poisoned {e : Executor} (db tableName : String)
    (hc : e.catalog.poisoned = true) : (readTable db tableName).run e = (locked, e) :=
  run_readCatalog_poisoned hc

omit [ExprDebug] [Bincode] in
theorem run_readTable {e : Executor} (db tableName : String) (hc : e.catalog.poisoned = false) :
    (readTable db tableName).run e =
      (Outcome.ofExcept ((e.catalog.value.getTable db tableName).map fun tableDef =>
        (tableDef.columns, e.catalog.value.getTableIndexes db tableName)), e) := by
  rw [readTable, run_readCatalog _ hc]
  cases e.catalog.value.getTable db tableName <;> rfl

theorem executeDelete_outcome (env : Env) (db tableName : String) (selection : Option Expr)
    (e : Executor) :
    DeleteOutcome env db tableName selection e
      ((executeDelete env db tableName selection).run e).1
      ((executeDelete env db tableName selection).run e).2 := by
  unfold executeDelete
  cases hc : e.catalog.poisoned with
  | true =>
    rw [Handler.run_bind_error (run_readTable_poisoned db tableName hc)]
    exact .locked hc
  | false =>
    rw [Handler.run_bind, run_readTable db tableName hc]
    cases h : e.catalog.value.getTable db tableName with
    | error msg => exact .noTable hc h
    | ok tableDef => exact .ran hc h (changeTail_outcome _ _ _ _ _ _)

/-- The ways UPDATE ends. -/
inductive UpdateOutcome (env : Env) (db tableName : String) (assignments : List Assignment)
    (selection : Option Expr) (e : Executor) : Outcome ExecuteResult → Executor → Prop
  | locked (hc : e.catalog.poisoned = true) :
      UpdateOutcome env db tableName assignments selection e locked e
  | noTable {msg : String} (hc : e.catalog.poisoned = false)
      (h : e.catalog.value.getTable db tableName = .error msg) :
      UpdateOutcome env db tableName assignments selection e (failed msg) e
  | badAssignment {tableDef : TableDef} {msg : String} (hc : e.catalog.poisoned = false)
      (h : e.catalog.value.getTable db tableName = .ok tableDef)
      (ha : assignments.mapM (assignIndex tableDef.columns) = .error msg) :
      UpdateOutcome env db tableName assignments selection e (failed msg) e
  | ran {tableDef : TableDef} {assigns : List (Nat × Expr)} {r : Outcome ExecuteResult}
      {e' : Executor} (hc : e.catalog.poisoned = false)
      (h : e.catalog.value.getTable db tableName = .ok tableDef)
      (ha : assignments.mapM (assignIndex tableDef.columns) = .ok assigns)
      (hch : ChangeOutcome env tableName tableDef.columns selection
        (fun s rows => updateRows s tableName (e.catalog.value.getTableIndexes db tableName)
          tableDef.columns assigns rows) e r e') :
      UpdateOutcome env db tableName assignments selection e r e'

theorem executeUpdate_outcome (env : Env) (db tableName : String)
    (assignments : List Assignment) (selection : Option Expr) (e : Executor) :
    UpdateOutcome env db tableName assignments selection e
      ((executeUpdate env db tableName assignments selection).run e).1
      ((executeUpdate env db tableName assignments selection).run e).2 := by
  unfold executeUpdate
  cases hc : e.catalog.poisoned with
  | true =>
    rw [Handler.run_bind_error (run_readTable_poisoned db tableName hc)]
    exact .locked hc
  | false =>
    rw [Handler.run_bind, run_readTable db tableName hc]
    cases h : e.catalog.value.getTable db tableName with
    | error msg => exact .noTable hc h
    | ok tableDef =>
      simp only [Except.map, Outcome.ofExcept_ok]
      rw [Handler.run_bind, run_readCatalog _ hc, h]
      cases ha : assignments.mapM (assignIndex tableDef.columns) with
      | error msg =>
        simp only [bind, Except.bind, ha, Outcome.ofExcept_error]
        exact .badAssignment hc h ha
      | ok assigns =>
        simp only [bind, Except.bind, ha, Outcome.ofExcept_ok]
        exact .ran hc h ha (changeTail_outcome _ _ _ _ _ _)

/-! ## SELECT -/

omit [Bincode] in
/-- A SELECT from a table. -/
theorem run_select {query : Query} {select : Select} {table : TableFactor}
    {rest : List TableFactor} (hbody : query.body = .select select)
    (hfrom : select.fromTables = table :: rest) (db : String) (e : Executor) :
    (executeQuery db query).run e =
      (if e.catalog.poisoned = true then locked
      else match e.catalog.value.getTable db (tableFactorName table) with
        | .error msg => failed msg
        | .ok tableDef =>
          if e.storage.poisoned = true then locked
          else (selectRows tableDef.columns select.selection (candidateRows e.storage.value
              (tableFactorName table) select.selection
              (e.catalog.value.getTableIndexes db (tableFactorName table)))).map fun rows =>
            .rows (select.projection.flatMap
                (projectColumns tableDef.columns (tableFactorName table)))
              (finishQuery query select tableDef.columns rows), e) := by
  unfold executeQuery
  rw [hbody]
  simp only [hfrom]
  cases hc : e.catalog.poisoned with
  | true =>
    rw [Handler.run_bind_error (run_readTable_poisoned _ _ hc)]
    rfl
  | false =>
    rw [Handler.run_bind, run_readTable _ _ hc]
    cases e.catalog.value.getTable db (tableFactorName table) with
    | error msg => rfl
    | ok tableDef =>
      simp only [Except.map, Outcome.ofExcept_ok]
      cases hst : e.storage.poisoned with
      | true =>
        rw [Handler.run_bind_error (run_readStorage_poisoned hst)]
        rfl
      | false =>
        rw [Handler.run_bind_ok (run_readStorage _ hst), Handler.run_bind, run_liftOutcome]
        simp only [Bool.false_eq_true, if_false]
        cases selectRows tableDef.columns select.selection (candidateRows e.storage.value
          (tableFactorName table) select.selection
          (e.catalog.value.getTableIndexes db (tableFactorName table))) <;> rfl

omit [Bincode] in
/-- A SELECT changes nothing. -/
theorem executeQuery_readOnly (db : String) (query : Query) (e : Executor) :
    ((executeQuery db query).run e).2 = e := by
  cases hbody : query.body with
  | select select =>
    cases hfrom : select.fromTables with
    | nil =>
      unfold executeQuery
      simp only [hbody, hfrom]
      rfl
    | cons table rest => rw [run_select hbody hfrom]
  | _ =>
    unfold executeQuery
    simp only [hbody]
    rfl

/-! ## CREATE INDEX and DROP INDEX -/

omit [ExprDebug] in
/-- The ways CREATE INDEX ends once it has at least one column. -/
inductive CreateIndexOutcome (env : Env) (db tableName : String) (indexDef : IndexDef)
    (e : Executor) : Outcome ExecuteResult → Executor → Prop
  | locked (hc : e.catalog.poisoned = true) :
      CreateIndexOutcome env db tableName indexDef e locked e
  | rejected {msg : String} (hc : e.catalog.poisoned = false)
      (h : e.catalog.value.createIndex db indexDef = .error msg) :
      CreateIndexOutcome env db tableName indexDef e (failed msg) e
  | unbuilt {c : Catalog} {tableDef : TableDef} (hc : e.catalog.poisoned = false)
      (h : e.catalog.value.createIndex db indexDef = .ok c)
      (ht : e.catalog.value.getTable db tableName = .ok tableDef)
      (hst : e.storage.poisoned = true) :
      CreateIndexOutcome env db tableName indexDef e Engine.locked
        ((e.setCatalog c).append env (.createIndex db indexDef))
  | duplicate {c : Catalog} {tableDef : TableDef} {dup : Key} {msg : String}
      (hc : e.catalog.poisoned = false)
      (h : e.catalog.value.createIndex db indexDef = .ok c)
      (ht : e.catalog.value.getTable db tableName = .ok tableDef)
      (hst : e.storage.poisoned = false)
      (hb : buildIndex indexDef tableDef.columns (e.storage.value.getRows tableName)
        (.new indexDef.indexType) = .error dup) :
      CreateIndexOutcome env db tableName indexDef e (failed msg)
        (((e.setCatalog c).append env (.createIndex db indexDef)).setStorage
          (e.storage.value.removeIndex (storageKey tableName indexDef.name)))
  | built {c : Catalog} {tableDef : TableDef} {data : IndexData}
      (hc : e.catalog.poisoned = false)
      (h : e.catalog.value.createIndex db indexDef = .ok c)
      (ht : e.catalog.value.getTable db tableName = .ok tableDef)
      (hst : e.storage.poisoned = false)
      (hb : buildIndex indexDef tableDef.columns (e.storage.value.getRows tableName)
        (.new indexDef.indexType) = .ok data) :
      CreateIndexOutcome env db tableName indexDef e (.ok .ok)
        ((((e.setCatalog c).append env (.createIndex db indexDef)).setStorage
          (e.storage.value.putIndex (storageKey tableName indexDef.name) data)).saveTable
            tableName).save

omit [ExprDebug] [Bincode] in
/-- Registering an index leaves the table definitions alone, and succeeds only
on a table that exists. -/
theorem getTable_of_createIndex {c c' : Catalog} {db : String} {indexDef : IndexDef}
    (h : c.createIndex db indexDef = .ok c') :
    ∃ tableDef, c.getTable db indexDef.tableName = .ok tableDef ∧
      c'.getTable db indexDef.tableName = .ok tableDef := by
  unfold Catalog.createIndex at h
  cases hd : c.getDatabase db with
  | none => rw [hd] at h; cases h
  | some d =>
    rw [hd] at h
    simp only at h
    split at h
    · cases h
    · split at h
      · cases h
      · next hsome _ =>
        cases h
        cases ht : d.tables[normalize indexDef.tableName]? with
        | none => rw [ht] at hsome; simp at hsome
        | some tableDef =>
          refine ⟨tableDef, ?_, ?_⟩
          · simp only [Catalog.getTable, hd, ht]
          · simp [Catalog.getTable, Catalog.getDatabase, Catalog.setDatabase, ht]

omit [ExprDebug] in
theorem executeCreateIndex_outcome (env : Env) (db tableName : String) (ci : CreateIndex)
    (hcols : indexColumns ci ≠ []) (e : Executor) :
    CreateIndexOutcome env db tableName (newIndexDef tableName ci) e
      ((executeCreateIndex env db tableName ci).run e).1
      ((executeCreateIndex env db tableName ci).run e).2 := by
  have hne : ¬ (newIndexDef tableName ci).columns.isEmpty = true := by
    simpa [newIndexDef] using hcols
  simp only [executeCreateIndex, if_neg hne]
  generalize hdef : newIndexDef tableName ci = indexDef
  have htn : indexDef.tableName = tableName := by rw [← hdef]; rfl
  cases hc : e.catalog.poisoned with
  | true =>
    rw [Handler.run_bind_error (run_writeCatalog_poisoned hc)]
    exact .locked hc
  | false =>
    cases h : e.catalog.value.createIndex db indexDef with
    | error msg =>
      rw [Handler.run_bind_error (run_writeCatalog_failed hc h)]
      exact .rejected hc h
    | ok c =>
      obtain ⟨tableDef, ht, ht'⟩ := getTable_of_createIndex h
      rw [htn] at ht ht'
      rw [Handler.run_bind_ok (run_writeCatalog_ok hc h), Handler.run_bind_ok (run_logWal env _)]
      have hread : (readCatalog fun c => c.getTable db tableName).run
          ((e.setCatalog c).append env (.createIndex db indexDef)) =
          (.ok tableDef, (e.setCatalog c).append env (.createIndex db indexDef)) := by
        rw [run_readCatalog _ (by exact hc)]
        simp only [Executor.append_catalog, Executor.setCatalog_catalog_value, ht',
          Outcome.ofExcept_ok]
      rw [Handler.run_bind_ok hread]
      cases hst : e.storage.poisoned with
      | true =>
        have hrun : (buildSection tableName indexDef tableDef.columns).run
            ((e.setCatalog c).append env (.createIndex db indexDef)) = (Engine.locked, _) :=
          run_storageSection_poisoned hst
        rw [Handler.run_bind_error hrun]
        exact .unbuilt hc h ht hst
      | false =>
        cases hb : buildIndex indexDef tableDef.columns (e.storage.value.getRows tableName)
            (.new indexDef.indexType) with
        | error dup =>
          have hrun : (buildSection tableName indexDef tableDef.columns).run
              ((e.setCatalog c).append env (.createIndex db indexDef)) = (failed _, _) :=
            run_storageSection_failed hst (by
              simp only [Executor.append_storage, Executor.setCatalog_storage, hb]; rfl)
          rw [Handler.run_bind_error hrun]
          exact .duplicate hc h ht hst hb
        | ok data =>
          have hrun : (buildSection tableName indexDef tableDef.columns).run
              ((e.setCatalog c).append env (.createIndex db indexDef)) = (.ok (), _) :=
            run_storageSection_ok hst (by
              simp only [Executor.append_storage, Executor.setCatalog_storage, hb]; rfl)
          rw [Handler.run_bind_ok hrun]
          exact .built hc h ht hst hb

omit [ExprDebug] [Bincode] in
/-- The ways DROP INDEX ends once the table of the index is known. -/
inductive DropIndexOutcome (env : Env) (db indexName tableName : String) (e : Executor) :
    Outcome ExecuteResult → Executor → Prop
  | locked (hc : e.catalog.poisoned = true) :
      DropIndexOutcome env db indexName tableName e locked e
  | rejected {msg : String} (hc : e.catalog.poisoned = false)
      (h : e.catalog.value.dropIndex db indexName tableName = .error msg) :
      DropIndexOutcome env db indexName tableName e (failed msg) e
  | undropped {c : Catalog} (hc : e.catalog.poisoned = false)
      (h : e.catalog.value.dropIndex db indexName tableName = .ok c)
      (hst : e.storage.poisoned = true) :
      DropIndexOutcome env db indexName tableName e Engine.locked
        ((e.setCatalog c).append env (.dropIndex db indexName tableName))
  | dropped {c : Catalog} (hc : e.catalog.poisoned = false)
      (h : e.catalog.value.dropIndex db indexName tableName = .ok c)
      (hst : e.storage.poisoned = false) :
      DropIndexOutcome env db indexName tableName e (.ok .ok)
        ((((e.setCatalog c).append env (.dropIndex db indexName tableName)).setStorage
          (e.storage.value.removeIndex (storageKey tableName indexName))).persist
            fun p => p.removeIndexData (storageKey tableName indexName))

omit [ExprDebug] [Bincode] in
theorem executeDropIndex_outcome (env : Env) (db indexName tableName : String) (e : Executor) :
    DropIndexOutcome env db indexName tableName e
      ((executeDropIndex env db indexName tableName).run e).1
      ((executeDropIndex env db indexName tableName).run e).2 := by
  unfold executeDropIndex
  cases hc : e.catalog.poisoned with
  | true =>
    rw [Handler.run_bind_error (run_writeCatalog_poisoned hc)]
    exact .locked hc
  | false =>
    cases h : e.catalog.value.dropIndex db indexName tableName with
    | error msg =>
      rw [Handler.run_bind_error (run_writeCatalog_failed hc h)]
      exact .rejected hc h
    | ok c =>
      rw [Handler.run_bind_ok (run_writeCatalog_ok hc h), Handler.run_bind_ok (run_logWal env _)]
      cases hst : e.storage.poisoned with
      | true =>
        rw [Handler.run_bind_error (run_updateStorage_poisoned (by exact hst))]
        exact .undropped hc h hst
      | false =>
        rw [Handler.run_bind_ok (run_updateStorage _ (by exact hst))]
        exact .dropped hc h hst

/-! ## DROP TABLE -/

/-- The data directory after DROP TABLE. -/
def dropTablePersist (e : Executor) (tn : String) : Executor :=
  e.persist fun p => removeIndexFiles tn ((p.removeTableData tn).saveCatalog e.catalog.value)

omit [ExprDebug] in
/-- The ways DROP TABLE ends; `tn` is the folded name. -/
inductive DropTableOutcome (env : Env) (db tn : String) (e : Executor) :
    Outcome ExecuteResult → Executor → Prop
  | locked (hc : e.catalog.poisoned = true) :
      DropTableOutcome env db tn e locked (e.append env (.dropTable tn))
  | rejected {msg : String} (hc : e.catalog.poisoned = false)
      (h : e.catalog.value.dropTable db tn = .error msg) :
      DropTableOutcome env db tn e (failed msg) (e.append env (.dropTable tn))
  | uncleared {c : Catalog} (hc : e.catalog.poisoned = false)
      (h : e.catalog.value.dropTable db tn = .ok c) (hst : e.storage.poisoned = true) :
      DropTableOutcome env db tn e Engine.locked
        ((e.append env (.dropTable tn)).setCatalog c)
  | dropped {c : Catalog} (hc : e.catalog.poisoned = false)
      (h : e.catalog.value.dropTable db tn = .ok c) (hst : e.storage.poisoned = false) :
      DropTableOutcome env db tn e (.ok .ok)
        (dropTablePersist (((e.append env (.dropTable tn)).setCatalog c).setStorage
          (e.storage.value.clearTable tn)) tn)

omit [Host] [ExprDebug] [Bincode] in
theorem Executor.persist_none {e : Executor} (h : e.persistence = none)
    (f : Persistence → Persistence) : e.persist f = e := by
  obtain ⟨c, s, wal, p⟩ := e
  obtain rfl : p = none := h
  rfl

omit [ExprDebug] in
/-- The data directory is touched only if there is one. -/
theorem run_dropTableFiles {e : Executor} (tn : String) (hc : e.catalog.poisoned = false) :
    (dropTableFiles tn).run e = (.ok (), dropTablePersist e tn) := by
  have hask : hasPersistence.run e = (.ok e.persistence.isSome, e) := rfl
  unfold dropTableFiles
  rw [Handler.run_bind_ok hask]
  cases hp : e.persistence with
  | none => rw [dropTablePersist, Executor.persist_none hp]; rfl
  | some p =>
    rw [Option.isSome_some, if_pos rfl, Handler.run_bind]
    simp only [Handler.run_sec, catalogSection, lockCatalog, Executor.persist_catalog, hc]
    simp [dropTablePersist, Executor.persist, Function.comp_def]

omit [ExprDebug] in
theorem executeDropTable_outcome (env : Env) (db tableName : String) (e : Executor) :
    DropTableOutcome env db (toLowercase tableName) e
      ((executeDropTable env db tableName).run e).1
      ((executeDropTable env db tableName).run e).2 := by
  unfold executeDropTable
  generalize toLowercase tableName = tn
  rw [Handler.run_bind_ok (run_logWal env _), Handler.run_bind, Handler.run_sec]
  cases hc : e.catalog.poisoned with
  | true =>
    have hsec : dropTableSection db tn (e.append env (.dropTable tn)) =
        (locked, e.append env (.dropTable tn)) := by
      simp only [dropTableSection, lockCatalog, Executor.append_catalog, hc, if_true]
    rw [hsec]
    exact .locked hc
  | false =>
    cases h : e.catalog.value.dropTable db tn with
    | error msg =>
      have hsec : dropTableSection db tn (e.append env (.dropTable tn)) =
          (failed msg, e.append env (.dropTable tn)) := by
        simp only [dropTableSection, lockCatalog, Executor.append_catalog, hc, h]
        rfl
      rw [hsec]
      exact .rejected hc h
    | ok c =>
      cases hst : e.storage.poisoned with
      | true =>
        have hsec : dropTableSection db tn (e.append env (.dropTable tn)) =
            (Engine.locked, (e.append env (.dropTable tn)).setCatalog c) := by
          simp only [dropTableSection, lockCatalog, lockStorage, Executor.append_catalog,
            Executor.append_storage, Executor.setCatalog_storage, hc, h, hst]
          rfl
        rw [hsec]
        exact .uncleared hc h hst
      | false =>
        have hsec : dropTableSection db tn (e.append env (.dropTable tn)) =
            (.ok (), ((e.append env (.dropTable tn)).setCatalog c).setStorage
              (e.storage.value.clearTable tn)) := by
          simp only [dropTableSection, lockCatalog, lockStorage, Executor.append_catalog,
            Executor.append_storage, Executor.setCatalog_storage, hc, h, hst]
          rfl
        rw [hsec]
        simp only
        rw [Handler.run_bind_ok (run_dropTableFiles tn (by exact hc))]
        exact .dropped hc h hst

/-! ## Databases -/

omit [Host] [ExprDebug] in
/-- The ways CREATE DATABASE and DROP DATABASE end. -/
inductive DatabaseOutcome (change : Catalog → Except String Catalog) (e : Executor) :
    Outcome ExecuteResult → Executor → Prop
  | locked (hc : e.catalog.poisoned = true) : DatabaseOutcome change e locked e
  | rejected {msg : String} (hc : e.catalog.poisoned = false)
      (h : change e.catalog.value = .error msg) : DatabaseOutcome change e (failed msg) e
  | changed {c : Catalog} (hc : e.catalog.poisoned = false)
      (h : change e.catalog.value = .ok c) :
      DatabaseOutcome change e (.ok .ok) (e.setCatalog c).save

omit [Host] [ExprDebug] in
theorem databaseChange_outcome (change : Catalog → Except String Catalog) (e : Executor) :
    DatabaseOutcome change e
      (Handler.run (do writeCatalog change; save; pure ExecuteResult.ok) e).1
      (Handler.run (do writeCatalog change; save; pure ExecuteResult.ok) e).2 := by
  cases hc : e.catalog.poisoned with
  | true =>
    rw [Handler.run_bind_error (run_writeCatalog_poisoned hc)]
    exact .locked hc
  | false =>
    cases h : change e.catalog.value with
    | error msg =>
      rw [Handler.run_bind_error (run_writeCatalog_failed hc h)]
      exact .rejected hc h
    | ok c =>
      rw [Handler.run_bind_ok (run_writeCatalog_ok hc h)]
      exact .changed hc h

/-! ## Dispatch -/

omit [Host] [ExprDebug] [Bincode] in
@[simp] theorem run_askCatalog (f : Catalog → Bool) (e : Executor) :
    (askCatalog f).run e = (.ok (!e.catalog.poisoned && f e.catalog.value), e) := rfl

omit [Host] [ExprDebug] [Bincode] in
/-- A handler that runs only if the catalog answers `answer`. -/
theorem run_askCatalog_ite {α : Type} (f : Catalog → Bool) (h k : Exec α) (e : Executor) :
    Handler.run (do if ← askCatalog f then h else k) e =
      if (!e.catalog.poisoned && f e.catalog.value) = true then h.run e else k.run e := by
  rw [Handler.run_bind_ok (run_askCatalog f e)]
  split <;> rfl

omit [Host] [ExprDebug] [Bincode] in
/-- IF NOT EXISTS skips the handler when the catalog has the thing already. -/
theorem run_ifNotExists (ifNotExists : Bool) (f : Catalog → Bool) (h : Exec ExecuteResult)
    (e : Executor) :
    Handler.run (do
      if ifNotExists then
        if ← askCatalog f then pure .ok else h
      else h) e =
      if (ifNotExists && !e.catalog.poisoned && f e.catalog.value) = true then (.ok .ok, e)
      else h.run e := by
  cases ifNotExists with
  | false => simp
  | true =>
    rw [if_pos rfl, run_askCatalog_ite]
    simp

omit [Host] [ExprDebug] [Bincode] in
/-- IF EXISTS skips the handler when the catalog does not have the thing. -/
theorem run_ifExists (ifExists : Bool) (f : Catalog → Bool) (h : Exec ExecuteResult)
    (e : Executor) :
    Handler.run (do
      if ifExists then
        if ← askCatalog f then h else pure .ok
      else h) e =
      if (ifExists && !(!e.catalog.poisoned && f e.catalog.value)) = true then (.ok .ok, e)
      else h.run e := by
  cases ifExists with
  | false => simp
  | true =>
    rw [if_pos rfl, run_askCatalog_ite]
    cases !e.catalog.poisoned && f e.catalog.value <;> rfl

theorem execute_createTable (env : Env) (db : String) (ct : CreateTable) (e : Executor) :
    (execute env db (.createTable ct)).run e =
      if (ct.ifNotExists && !e.catalog.poisoned &&
          e.catalog.value.tableExists db (nameToString ct.name)) = true then (.ok .ok, e)
      else (executeCreateTable env db ct).run e :=
  run_ifNotExists _ _ _ e

theorem execute_dropTable (env : Env) (db : String) (names : List ObjectName) (ifExists : Bool)
    (e : Executor) :
    (execute env db (.drop .table names ifExists)).run e =
      if (ifExists && !(!e.catalog.poisoned &&
          e.catalog.value.tableExists db (firstName names))) = true then (.ok .ok, e)
      else (executeDropTable env db (firstName names)).run e :=
  run_ifExists _ _ _ e

theorem execute_createIndex (env : Env) (db : String) (ci : CreateIndex) (e : Executor) :
    (execute env db (.createIndex ci)).run e =
      if (!e.catalog.poisoned && e.catalog.value.tableExists db (nameToString ci.tableName)) = true
      then (executeCreateIndex env db (nameToString ci.tableName) ci).run e
      else (failed s!"Unknown table: {nameToString ci.tableName}", e) := by
  simp only [execute]
  rw [tableExists, run_askCatalog_ite]
  split <;> rfl

/-- DROP INDEX, once the catalog can be read. -/
theorem execute_dropIndex (env : Env) (db : String) (names : List ObjectName) (ifExists : Bool)
    (e : Executor) :
    (execute env db (.drop .index names ifExists)).run e =
      if e.catalog.poisoned = true then (locked, e)
      else match findIndexTable env db (firstName names) e.catalog.value with
        | none => (failed s!"Unknown index: {firstName names}", e)
        | some tableName =>
          if (ifExists && !hasIndex (e.catalog.value.getTableIndexes db tableName)
              (firstName names)) = true then (.ok .ok, e)
          else (executeDropIndex env db (firstName names) tableName).run e := by
  simp only [execute]
  cases hc : e.catalog.poisoned with
  | true => rw [Handler.run_bind_error (run_readCatalog_poisoned hc)]; rfl
  | false =>
    rw [Handler.run_bind, run_readCatalog _ hc, if_neg (by decide)]
    cases hfind : findIndexTable env db (firstName names) e.catalog.value with
    | none => rfl
    | some tableName =>
      have hrun := run_ifExists ifExists
        (fun c => hasIndex (c.getTableIndexes db tableName) (firstName names))
        (executeDropIndex env db (firstName names) tableName) e
      simp only [hc, Bool.not_false, Bool.true_and] at hrun
      exact hrun

theorem execute_createDatabase (env : Env) (db : String) (dbName : ObjectName)
    (ifNotExists : Bool) (e : Executor) :
    (execute env db (.createDatabase dbName ifNotExists)).run e =
      if (ifNotExists && !e.catalog.poisoned &&
          e.catalog.value.databaseExists (nameToString dbName)) = true then (.ok .ok, e)
      else (executeCreateDatabase dbName).run e :=
  run_ifNotExists _ _ _ e

theorem execute_dropDatabase (env : Env) (db : String) (names : List ObjectName)
    (ifExists : Bool) (e : Executor) :
    (execute env db (.drop .database names ifExists)).run e =
      if (ifExists && !(!e.catalog.poisoned &&
          e.catalog.value.databaseExists (firstName names))) = true then (.ok .ok, e)
      else (executeDropDatabase (firstName names)).run e :=
  run_ifExists _ _ _ e

/-- The statements that only read. -/
def readOnly : Statement → Bool
  | .query _ | .showDatabases | .showTables | .use _ | .explainTable _ | .drop .other _ _
  | .other => true
  | _ => false

omit [Host] [ExprDebug] [Bincode] in
theorem run_readCatalog_snd {α : Type} (f : Catalog → Except String α) (e : Executor) :
    ((readCatalog f).run e).2 = e := by
  cases hc : e.catalog.poisoned with
  | true => rw [run_readCatalog_poisoned hc]
  | false => rw [run_readCatalog f hc]

/-- A statement that only reads leaves the server as it was. -/
theorem execute_readOnly {env : Env} {db : String} {stmt : Statement}
    (h : readOnly stmt = true) (e : Executor) : ((execute env db stmt).run e).2 = e := by
  unfold readOnly at h
  split at h
  · exact executeQuery_readOnly _ _ e
  · simp only [execute, executeShowDatabases]
    exact run_readCatalog_snd _ e
  · simp only [execute, executeShowTables]
    exact run_readCatalog_snd _ e
  · simp only [execute, executeUse]
    split <;> first | exact run_readCatalog_snd _ e | rfl
  · simp only [execute, executeDescribe]
    exact run_readCatalog_snd _ e
  · rfl
  · rfl
  · cases h

/-! ## Calls -/

/-- When a statement may end without running its handler: CREATE TABLE on a
table that exists, DROP TABLE on one that does not, CREATE INDEX with an
error; the statements on rows always run theirs. -/
def Skipped (e : Executor) (db : String) (r : Outcome ExecuteResult) : Statement → Prop
  | .createTable ct =>
      e.catalog.poisoned = false ∧ e.catalog.value.tableExists db (nameToString ct.name) = true
  | .drop .table names _ =>
      ¬ (e.catalog.poisoned = false ∧ e.catalog.value.tableExists db (firstName names) = true)
  | .createIndex _ => ∃ msg, r = failed msg
  | .insert _ | .delete _ | .update .. => False
  | _ => True

/-- What running a statement amounts to: nothing, or one handler. -/
inductive Effect (env : Env) (db : String) (e : Executor) :
    Statement → Outcome ExecuteResult → Executor → Prop
  | none {stmt : Statement} (r : Outcome ExecuteResult) (h : Skipped e db r stmt) :
      Effect env db e stmt r e
  | createTable {ct : CreateTable} {r : Outcome ExecuteResult} {e' : Executor}
      (h : CreateTableOutcome env db (nameToString ct.name)
        (createColumns (nameToString ct.name) ct.columns) e r e') :
      Effect env db e (.createTable ct) r e'
  | insert {ins : Insert} {r : Outcome ExecuteResult} {e' : Executor}
      (h : InsertOutcome env db (tableObjectName ins.table) ins.columns ins.source e r e') :
      Effect env db e (.insert ins) r e'
  | delete {del : Delete} {r : Outcome ExecuteResult} {e' : Executor}
      (h : DeleteOutcome env db (deleteTable del) del.selection e r e') :
      Effect env db e (.delete del) r e'
  | update {table : TableFactor} {assignments : List Assignment} {selection : Option Expr}
      {r : Outcome ExecuteResult} {e' : Executor}
      (h : UpdateOutcome env db (tableFactorName table) assignments selection e r e') :
      Effect env db e (.update table assignments selection) r e'
  | dropTable {names : List ObjectName} {ifExists : Bool} {r : Outcome ExecuteResult}
      {e' : Executor} (h : DropTableOutcome env db (toLowercase (firstName names)) e r e') :
      Effect env db e (.drop .table names ifExists) r e'
  | dropIndex {names : List ObjectName} {ifExists : Bool} {tableName : String}
      {r : Outcome ExecuteResult} {e' : Executor}
      (hfind : findIndexTable env db (firstName names) e.catalog.value = some tableName)
      (h : DropIndexOutcome env db (firstName names) tableName e r e') :
      Effect env db e (.drop .index names ifExists) r e'
  | createIndex {ci : CreateIndex} {r : Outcome ExecuteResult} {e' : Executor}
      (hcols : indexColumns ci ≠ [])
      (h : CreateIndexOutcome env db (nameToString ci.tableName)
        (newIndexDef (nameToString ci.tableName) ci) e r e') :
      Effect env db e (.createIndex ci) r e'
  | createDatabase {dbName : ObjectName} {ifNotExists : Bool} {r : Outcome ExecuteResult}
      {e' : Executor}
      (h : DatabaseOutcome (fun c => .ok (c.createDatabase (nameToString dbName))) e r e') :
      Effect env db e (.createDatabase dbName ifNotExists) r e'
  | dropDatabase {names : List ObjectName} {ifExists : Bool} {r : Outcome ExecuteResult}
      {e' : Executor}
      (h : DatabaseOutcome (fun c => match c.removeDatabase (firstName names) with
        | some c => .ok c
        | none => .error s!"Unknown database: {firstName names}") e r e') :
      Effect env db e (.drop .database names ifExists) r e'

omit [ExprDebug] in
theorem run_executeCreateIndex_nil {env : Env} {db tableName : String} {ci : CreateIndex}
    (hcols : indexColumns ci = []) (e : Executor) :
    (executeCreateIndex env db tableName ci).run e =
      (failed "Index must have at least one column", e) := by
  simp [executeCreateIndex, newIndexDef, hcols]

theorem execute_effect (env : Env) (db : String) (stmt : Statement) (e : Executor) :
    Effect env db e stmt ((execute env db stmt).run e).1 ((execute env db stmt).run e).2 := by
  cases stmt with
  | createTable ct =>
    rw [execute_createTable]
    split
    · next hskip =>
      simp only [Bool.and_eq_true, Bool.not_eq_true'] at hskip
      exact .none _ ⟨hskip.1.2, hskip.2⟩
    · exact .createTable (executeCreateTable_outcome env db ct e)
  | insert ins => exact .insert (executeInsert_outcome env db _ _ _ e)
  | delete del => exact .delete (executeDelete_outcome env db _ _ e)
  | update table assignments selection => exact .update (executeUpdate_outcome env db _ _ _ e)
  | drop objectType names ifExists =>
    cases objectType with
    | table =>
      rw [execute_dropTable]
      split
      · next hskip =>
        refine .none _ fun hrun => ?_
        simp [hrun.1, hrun.2] at hskip
      · exact .dropTable (executeDropTable_outcome env db (firstName names) e)
    | database =>
      rw [execute_dropDatabase]
      split
      · exact .none _ trivial
      · exact .dropDatabase (databaseChange_outcome _ e)
    | index =>
      rw [execute_dropIndex]
      split
      · exact .none _ trivial
      · split
        · exact .none _ trivial
        · next tableName hfind =>
          split
          · exact .none _ trivial
          · exact .dropIndex hfind (executeDropIndex_outcome env db (firstName names) tableName e)
    | other =>
      rw [execute_readOnly rfl]
      exact .none _ trivial
  | createDatabase dbName ifNotExists =>
    rw [execute_createDatabase]
    split
    · exact .none _ trivial
    · exact .createDatabase (databaseChange_outcome _ e)
  | createIndex ci =>
    rw [execute_createIndex]
    split
    · by_cases hcols : indexColumns ci = []
      · rw [run_executeCreateIndex_nil hcols]
        exact .none _ ⟨_, rfl⟩
      · exact .createIndex hcols
          (executeCreateIndex_outcome env db (nameToString ci.tableName) ci hcols e)
    · exact .none _ ⟨_, rfl⟩
  | query _ | showDatabases | showTables | use _ | explainTable _ | other =>
    rw [execute_readOnly rfl]
    exact .none _ trivial

/-- One statement, with the database and the environment it runs in. -/
structure Call where
  env : Env
  db : String
  stmt : Statement

def Call.result (call : Call) (e : Executor) : Outcome ExecuteResult :=
  ((execute call.env call.db call.stmt).run e).1

/-- The sections of the statement, to be interleaved with others. -/
def Call.program (call : Call) : Prog Executor (Outcome ExecuteResult) :=
  ExceptT.run (execute call.env call.db call.stmt)

/-- The server after a statement. -/
def Executor.after (e : Executor) (call : Call) : Executor :=
  ((execute call.env call.db call.stmt).run e).2

theorem Call.effect (call : Call) (e : Executor) :
    Effect call.env call.db e call.stmt (call.result e) (e.after call) :=
  execute_effect call.env call.db call.stmt e

/-- The entries a statement appends to the log. -/
def Call.logged (call : Call) (e : Executor) : List WalEntry :=
  (e.after call).wal.drop e.wal.length

/-! ## Statements to try on a server

The smallest trees of the statements the engine runs, over integer columns,
and an environment in which the clock stands still and every append succeeds. -/

section Samples

omit [Host] [ExprDebug] [Bincode]

def plainEnv : Env where
  now _ _ := 0
  order := id
  order_perm _ := .refl _
  appendOk := true

@[reducible] def plainDebug : ExprDebug := ⟨fun _ => ""⟩

/-- An integer literal. -/
def numberExpr (n : String) : Expr := .value (.number n)

/-- `col = n`. -/
def columnIs (col n : String) : Expr := .binaryOp (.identifier col) .eq (numberExpr n)

/-- `CREATE TABLE name (cols INT)`. -/
def intTable (name : String) (cols : List String) : Statement :=
  .createTable ⟨[name], cols.map fun col => ⟨col, .int, []⟩, false⟩

/-- `INSERT INTO name VALUES rows`. -/
def insertNumbers (name : String) (rows : List (List String)) : Statement :=
  .insert ⟨.tableName [name], [],
    some ⟨.values (rows.map fun row => row.map numberExpr), none, none, none⟩⟩

/-- `DELETE FROM name WHERE selection`. -/
def deleteFrom (name : String) (selection : Option Expr) : Statement :=
  .delete ⟨[], [.table [name]], selection⟩

/-- `UPDATE name SET col = n WHERE selection`. -/
def updateSet (name col n : String) (selection : Option Expr) : Statement :=
  .update (.table [name]) [⟨.columnName [col], numberExpr n⟩] selection

/-- `CREATE [UNIQUE] INDEX index ON name (cols)`. -/
def indexOn (unique : Bool) (index name : String) (cols : List String) : Statement :=
  .createIndex ⟨some [index], [name], none, cols.map fun col => ⟨.identifier col, none⟩, unique⟩

/-- `DROP TABLE name`. -/
def dropTableNamed (name : String) : Statement := .drop .table [[name]] false

/-- The statement in a database, in the plain environment. -/
def callIn (db : String) (stmt : Statement) : Call := ⟨plainEnv, db, stmt⟩

end Samples

end Srrdb.Engine
