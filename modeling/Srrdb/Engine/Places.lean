/-
Srrdb.Engine.Places — INSERT, UPDATE, DELETE and CREATE INDEX by their places.

These statements run next to each other, and what they do to one another
depends on where each of them is: an INSERT between its append and its store,
or between its store and its indexing, an UPDATE or DELETE that has read the
index list, a CREATE INDEX that has registered its index and not built it.
`Place` names these points, one for each section of the handlers, with what
the thread carries there; `Place.turn` takes the section, and `statements_run`
says that this is what the handlers do.
-/
import Srrdb.Engine.Defaults
import Srrdb.Engine.RowChanges
import Srrdb.Lib.Machine

namespace Srrdb.Engine

open Srrdb.Sql Srrdb.Lib

/-! ## Places -/

/-- What UPDATE or DELETE does to the rows it selects. -/
inductive Change where
  | remove
  | assign (assigns : List (Nat × Expr))

/-- Where a statement is: before the named section. -/
inductive Place where
  | insert (env : Env) (db tableName : String) (cols : List String) (source : Option Query)
  | filling (env : Env) (db tableName : String) (columns : List Column) (rows : List Row)
  | logging (env : Env) (db tableName : String) (columns : List Column) (rows : List Row)
      (last : Nat)
  | storing (db tableName : String) (columns : List Column) (rows : List Row) (last : Nat)
  | savingRows (db tableName : String) (columns : List Column) (n last : Nat) (ids : List Nat)
  | listing (db tableName : String) (columns : List Column) (n last : Nat) (ids : List Nat)
  | indexing (tableName : String) (columns : List Column) (indexes : List IndexDef)
      (n last : Nat) (ids : List Nat)
  | delete (env : Env) (db tableName : String) (selection : Option Expr)
  | update (env : Env) (db tableName : String) (assignments : List Assignment)
      (selection : Option Expr)
  | assigning (env : Env) (db tableName : String) (columns : List Column)
      (indexes : List IndexDef) (assignments : List Assignment) (selection : Option Expr)
  | changing (env : Env) (tableName : String) (columns : List Column) (indexes : List IndexDef)
      (selection : Option Expr) (change : Change)
  | savingChange (tableName : String) (n : Nat)
  | createIndex (env : Env) (db : String) (ci : CreateIndex)
  | registering (env : Env) (db tableName : String) (indexDef : IndexDef)
  | loggingIndex (env : Env) (db tableName : String) (indexDef : IndexDef)
  | readingTable (db tableName : String) (indexDef : IndexDef)
  | building (tableName : String) (columns : List Column) (indexDef : IndexDef)
  | savingIndex (tableName : String)
  | savingCatalog
  | over (result : Outcome ExecuteResult)

section Theory

variable [Host] [ExprDebug] [Bincode]

/-- What the storage section of UPDATE or DELETE does with its rows. -/
def Change.apply (tableName : String) (columns : List Column) (indexes : List IndexDef) :
    Change → Storage → List Row → Storage
  | .remove, s, rows => deleteRows s tableName indexes columns rows
  | .assign assigns, s, rows => updateRows s tableName indexes columns assigns rows

/-- What it makes of the table. -/
def Change.rewrite : Change → List Row → Table → Table
  | .remove => eraseRows
  | .assign assigns => assignRows assigns

omit [Bincode] in
theorem Change.rewrites (change : Change) (tableName : String) (columns : List Column)
    (indexes : List IndexDef) :
    Rewrites tableName (change.apply tableName columns indexes) change.rewrite := by
  cases change with
  | remove => exact deleteRows_rewrites tableName indexes columns
  | assign assigns => exact updateRows_rewrites tableName indexes columns assigns

namespace Place

/-- A statement goes on with the result of a section, or is over. -/
def goOn {α : Type} (k : α → Place) : Outcome α → Place
  | .ok a => k a
  | .error x => .over (.error x)

/-- A section, and where its result leads. -/
def after {α : Type} (h : Exec α) (k : α → Place) (e : Executor) : Place × Executor :=
  (goOn k (h.run e).1, (h.run e).2)

/-- The next section of a statement. -/
def turn : Place → Executor → Place × Executor
  | .insert env db tableName cols source => after (readCatalog fun c => c.getTable db tableName)
      fun tableDef => goOn (.filling env db tableName tableDef.columns)
        (.ofExcept (sourceRows tableDef.columns cols source))
  | .filling env db tableName columns rows => after (fillSection env tableName columns rows)
      fun (rows, last) => .logging env db tableName columns rows last
  | .logging env db tableName columns rows last => after (logWal env (.insertRows tableName rows))
      fun _ => .storing db tableName columns rows last
  | .storing db tableName columns rows last => after (storeSection tableName rows)
      fun ids => .savingRows db tableName columns rows.length last ids
  | .savingRows db tableName columns n last ids => after (saveTable tableName)
      fun _ => .listing db tableName columns n last ids
  | .listing db tableName columns n last ids =>
    after (readCatalog fun c => .ok (c.getTableIndexes db tableName)) fun indexes =>
      if indexes.isEmpty || ids.isEmpty then .over (.ok (.affected n last))
      else .indexing tableName columns indexes n last ids
  | .indexing tableName columns indexes n last ids =>
    after (updateStorage fun s => ((), indexInserted s tableName indexes columns ids))
      fun _ => .over (.ok (.affected n last))
  | .delete env db tableName selection => after (readTable db tableName)
      fun (columns, indexes) => .changing env tableName columns indexes selection .remove
  | .update env db tableName assignments selection => after (readTable db tableName)
      fun (columns, indexes) =>
        .assigning env db tableName columns indexes assignments selection
  | .assigning env db tableName columns indexes assignments selection =>
    after (readCatalog fun c => do
        let tableDef ← c.getTable db tableName
        assignments.mapM (assignIndex tableDef.columns))
      fun assigns => .changing env tableName columns indexes selection (.assign assigns)
  | .changing env tableName columns indexes selection change =>
    after (changeSection env tableName columns selection (change.apply tableName columns indexes))
      fun n => .savingChange tableName n
  | .savingChange tableName n => after (saveTable tableName) fun _ => .over (.ok (.affected n 0))
  | .createIndex env db ci => after (Engine.tableExists db (nameToString ci.tableName)) fun found =>
      if found then
        let indexDef := newIndexDef (nameToString ci.tableName) ci
        if indexDef.columns.isEmpty then .over (failed "Index must have at least one column")
        else .registering env db (nameToString ci.tableName) indexDef
      else .over (failed s!"Unknown table: {nameToString ci.tableName}")
  | .registering env db tableName indexDef => after (writeCatalog fun c => c.createIndex db indexDef)
      fun _ => .loggingIndex env db tableName indexDef
  | .loggingIndex env db tableName indexDef => after (logWal env (.createIndex db indexDef))
      fun _ => .readingTable db tableName indexDef
  | .readingTable db tableName indexDef => after (readCatalog fun c => c.getTable db tableName)
      fun tableDef => .building tableName tableDef.columns indexDef
  | .building tableName columns indexDef => after (buildSection tableName indexDef columns)
      fun _ => .savingIndex tableName
  | .savingIndex tableName => after (saveTable tableName) fun _ => .savingCatalog
  | .savingCatalog => after save fun _ => .over (.ok .ok)
  | .over result => fun e => (.over result, e)

/-- The result of a statement that is over. -/
def result : Place → Option (Outcome ExecuteResult)
  | .over result => some result
  | _ => none

omit [Host] [ExprDebug] [Bincode] in
theorem over_of_result {q : Place} {r : Outcome ExecuteResult} (h : q.result = some r) :
    q = .over r := by
  cases q <;> cases h
  rfl

end Place

/-- The statements by their places. -/
def machine : Machine Executor (Outcome ExecuteResult) Place where
  result := Place.result
  turn := Place.turn

/-- Where a statement starts, if it is an INSERT, UPDATE, DELETE or CREATE
INDEX. -/
def Call.start : Call → Option Place
  | ⟨env, db, .insert ins⟩ =>
    some (.insert env db (tableObjectName ins.table) ins.columns ins.source)
  | ⟨env, db, .delete del⟩ => some (.delete env db (deleteTable del) del.selection)
  | ⟨env, db, .update table assignments selection⟩ =>
    some (.update env db (tableFactorName table) assignments selection)
  | ⟨env, db, .createIndex ci⟩ => some (.createIndex env db ci)
  | _ => none

/-! ## The places are those of the handlers -/

theorem stands_over (r : Outcome ExecuteResult) : machine.Stands (.over r) (.done r) := .done rfl

/-- A handler that starts with a section, and the place before it. -/
theorem stands_sec {α : Type} {f : Executor → Outcome α × Executor} {k : α → Exec ExecuteResult}
    {q : Place} {next : α → Place} (hq : q.result = none)
    (hturn : q.turn = Place.after (Handler.sec f) next)
    (hk : ∀ a, machine.Stands (next a) (ExceptT.run (k a))) :
    machine.Stands q (ExceptT.run (Handler.sec f >>= k)) := by
  refine .atomic hq (fun e => ?_) fun e => ?_
  · show (f e).2 = (q.turn e).2
    rw [hturn]
    rfl
  · show machine.Stands (q.turn e).1 (ExceptT.bindCont k (f e).1)
    rw [hturn]
    show machine.Stands (Place.goOn next (f e).1) _
    cases (f e).1 with
    | ok a => exact hk a
    | error x => exact stands_over (.error x)

theorem stands_indexing (tableName : String) (columns : List Column) (indexes : List IndexDef)
    (n last : Nat) (ids : List Nat) :
    machine.Stands
      (if indexes.isEmpty || ids.isEmpty then .over (.ok (.affected n last))
        else .indexing tableName columns indexes n last ids)
      (ExceptT.run do
        indexSection tableName indexes columns ids
        pure (.affected n last)) := by
  unfold indexSection
  split
  · exact stands_over _
  · exact stands_sec rfl rfl fun _ => stands_over _

theorem stands_insert (env : Env) (db tableName : String) (cols : List String)
    (source : Option Query) :
    machine.Stands (.insert env db tableName cols source)
      (ExceptT.run (executeInsert env db tableName cols source)) := by
  refine stands_sec rfl rfl fun tableDef => ?_
  cases sourceRows tableDef.columns cols source with
  | error msg => exact stands_over _
  | ok rows =>
    refine stands_sec rfl rfl fun filled => ?_
    refine stands_sec rfl rfl fun _ => ?_
    refine stands_sec rfl rfl fun ids => ?_
    refine stands_sec rfl rfl fun _ => ?_
    exact stands_sec rfl rfl fun indexes => stands_indexing _ _ _ _ _ _

theorem stands_changing (env : Env) (tableName : String) (columns : List Column)
    (indexes : List IndexDef) (selection : Option Expr) (change : Change) :
    machine.Stands (.changing env tableName columns indexes selection change)
      (ExceptT.run (changeTail env tableName columns selection
        (change.apply tableName columns indexes))) := by
  refine stands_sec rfl rfl fun n => ?_
  exact stands_sec rfl rfl fun _ => stands_over _

theorem stands_delete (env : Env) (db tableName : String) (selection : Option Expr) :
    machine.Stands (.delete env db tableName selection)
      (ExceptT.run (executeDelete env db tableName selection)) :=
  stands_sec rfl rfl fun p => stands_changing env tableName p.1 p.2 selection .remove

theorem stands_update (env : Env) (db tableName : String) (assignments : List Assignment)
    (selection : Option Expr) :
    machine.Stands (.update env db tableName assignments selection)
      (ExceptT.run (executeUpdate env db tableName assignments selection)) := by
  refine stands_sec rfl rfl fun p => ?_
  exact stands_sec rfl rfl fun assigns =>
    stands_changing env tableName p.1 p.2 selection (.assign assigns)

theorem stands_createIndex (env : Env) (db : String) (ci : CreateIndex) :
    machine.Stands (.createIndex env db ci) (ExceptT.run (execute env db (.createIndex ci))) := by
  refine stands_sec rfl rfl fun found => ?_
  cases found with
  | false => exact stands_over _
  | true =>
    simp only [if_true]
    unfold executeCreateIndex
    simp only
    split
    · exact stands_over _
    · refine stands_sec rfl rfl fun _ => ?_
      refine stands_sec rfl rfl fun _ => ?_
      refine stands_sec rfl rfl fun tableDef => ?_
      refine stands_sec rfl rfl fun _ => ?_
      refine stands_sec rfl rfl fun _ => ?_
      exact stands_sec rfl rfl fun _ => stands_over _

/-- A statement starts at its first place. -/
theorem Call.stands {call : Call} {q : Place} (h : call.start = some q) :
    machine.Stands q call.program := by
  obtain ⟨env, db, stmt⟩ := call
  cases stmt with
  | insert ins => cases h; exact stands_insert _ _ _ _ _
  | delete del => cases h; exact stands_delete _ _ _ _
  | update table assignments selection => cases h; exact stands_update _ _ _ _ _
  | createIndex ci => cases h; exact stands_createIndex _ _ _
  | _ => cases h

/-- Statements that run together, by their places. -/
theorem shows_calls {calls : List Call} {places : List Place}
    (h : calls.map Call.start = places.map some) (e : Executor) :
    Shows machine ⟨places, e⟩ ⟨calls.map Call.program, e⟩ := by
  refine ⟨?_, rfl⟩
  show List.Forall₂ machine.Stands places (calls.map Call.program)
  induction calls generalizing places with
  | nil =>
    cases places with
    | nil => exact .nil
    | cons q rest => cases h
  | cons call rest ih =>
    cases places with
    | nil => cases h
    | cons q others =>
      rw [List.map_cons, List.map_cons, List.cons.injEq] at h
      exact .cons (Call.stands h.1) (ih h.2)

/-- When all statements have returned, all places are those of the results. -/
theorem over_of_results {p : Floor Executor Place} {pool : Pool Executor (Outcome ExecuteResult)}
    (h : Shows machine p pool) {results : List (Outcome ExecuteResult)}
    (hdone : pool.results = some results) : ∀ q ∈ p.places, ∃ r ∈ results, q = .over r := by
  intro q hq
  have hmem : machine.result q ∈ results.map some := by
    rw [← h.results hdone]
    exact List.mem_map_of_mem hq
  obtain ⟨r, hr, hres⟩ := List.mem_map.mp hmem
  exact ⟨r, hr, Place.over_of_result hres.symm⟩

/-! ## The ways a turn goes -/

omit [ExprDebug] [Bincode] in
theorem logSnapshot_wal {env : Env} (hok : env.appendOk = true) (tableName : String)
    {touched : List Row} (hne : touched ≠ []) (e : Executor) :
    (logSnapshot env tableName touched e).wal =
      e.wal ++ [.tableSnapshot tableName (e.storage.value.getRows tableName)] := by
  rw [logSnapshot, if_neg (by simpa using hne), Executor.append_wal, Env.logged, if_pos hok]

/-- The rows an UPDATE or DELETE selects. -/
def selectedRows (e : Executor) (tableName : String) (columns : List Column)
    (selection : Option Expr) : List Row :=
  match e.storage.value.getTable? tableName with
  | none => []
  | some t =>
    match selectRows columns selection t.entries with
    | .ok rows => rows
    | .error _ => []

omit [Bincode] in
theorem selectedRows_eq {e : Executor} {tableName : String} {columns : List Column}
    {selection : Option Expr} {t : Table} {rows : List Row}
    (hget : e.storage.value.getTable? tableName = some t)
    (hsel : selectRows columns selection t.entries = .ok rows) :
    selectedRows e tableName columns selection = rows := by
  simp only [selectedRows, hget, hsel]

/-- A mutex is poisoned. -/
def Executor.Poisoned (e : Executor) : Prop :=
  e.catalog.poisoned = true ∨ e.storage.poisoned = true

/-- The tables, the storage and the log are the same. -/
structure Still (e e' : Executor) : Prop where
  databases : e'.catalog.value.databases = e.catalog.value.databases
  storage : e'.storage.value = e.storage.value
  wal : e'.wal = e.wal

omit [Host] [ExprDebug] [Bincode] in
theorem Still.refl (e : Executor) : Still e e := ⟨rfl, rfl, rfl⟩

/-- Places where a statement may be rejected or panic, the mutexes being well. -/
def Place.MayFail (e : Executor) : Place → Prop
  | .insert .. | .filling .. | .delete .. | .update .. | .assigning .. | .changing ..
  | .createIndex .. | .registering .. => True
  | .readingTable db tableName _ => ∃ msg, e.catalog.value.getTable db tableName = .error msg
  | _ => False

/-- The ways a turn goes. -/
inductive Turns : Place → Executor → Place → Executor → Prop
  | failed {q : Place} {e e' : Executor} {x : Stop} (h : Still e e') (hx : x = .panic ∨ e' = e)
      (hwhy : e.Poisoned ∨ q.MayFail e) : Turns q e (.over (.error x)) e'
  | prepared {env : Env} {db tableName : String} {cols : List String} {source : Option Query}
      {e : Executor} {tableDef : TableDef} {rows : List Row}
      (ht : e.catalog.value.getTable db tableName = .ok tableDef)
      (hs : sourceRows tableDef.columns cols source = .ok rows) :
      Turns (.insert env db tableName cols source) e
        (.filling env db tableName tableDef.columns rows) e
  | filled {env : Env} {db tableName : String} {columns : List Column} {rows filled : List Row}
      {last : Nat} {e : Executor} {c : Catalog} (hsup : SuppliedRows columns rows filled)
      (hc : c.databases = e.catalog.value.databases) :
      Turns (.filling env db tableName columns rows) e
        (.logging env db tableName columns filled last) (e.setCatalog c)
  | logged {env : Env} {db tableName : String} {columns : List Column} {rows : List Row}
      {last : Nat} {e : Executor} :
      Turns (.logging env db tableName columns rows last) e
        (.storing db tableName columns rows last) (e.append env (.insertRows tableName rows))
  | stored {db tableName : String} {columns : List Column} {rows : List Row} {last : Nat}
      {e : Executor} (hst : e.storage.poisoned = false) :
      Turns (.storing db tableName columns rows last) e
        (.savingRows db tableName columns rows.length last
          (e.storage.value.insertRows tableName rows).1)
        (e.setStorage (e.storage.value.insertRows tableName rows).2)
  | savedRows {db tableName : String} {columns : List Column} {n last : Nat} {ids : List Nat}
      {e : Executor} :
      Turns (.savingRows db tableName columns n last ids) e
        (.listing db tableName columns n last ids) (e.saveTable tableName)
  | listed {db tableName : String} {columns : List Column} {n last : Nat} {ids : List Nat}
      {e : Executor} :
      Turns (.listing db tableName columns n last ids) e
        (.indexing tableName columns (e.catalog.value.getTableIndexes db tableName) n last ids) e
  | unlisted {db tableName : String} {columns : List Column} {n last : Nat} {ids : List Nat}
      {e : Executor} (h : e.catalog.value.getTableIndexes db tableName = [] ∨ ids = []) :
      Turns (.listing db tableName columns n last ids) e (.over (.ok (.affected n last))) e
  | indexed {tableName : String} {columns : List Column} {indexes : List IndexDef} {n last : Nat}
      {ids : List Nat} {e : Executor} (hst : e.storage.poisoned = false) :
      Turns (.indexing tableName columns indexes n last ids) e (.over (.ok (.affected n last)))
        (e.setStorage (indexInserted e.storage.value tableName indexes columns ids))
  | deleting {env : Env} {db tableName : String} {selection : Option Expr} {e : Executor}
      {tableDef : TableDef} (ht : e.catalog.value.getTable db tableName = .ok tableDef) :
      Turns (.delete env db tableName selection) e
        (.changing env tableName tableDef.columns (e.catalog.value.getTableIndexes db tableName)
          selection .remove) e
  | updating {env : Env} {db tableName : String} {assignments : List Assignment}
      {selection : Option Expr} {e : Executor} {tableDef : TableDef}
      (ht : e.catalog.value.getTable db tableName = .ok tableDef) :
      Turns (.update env db tableName assignments selection) e
        (.assigning env db tableName tableDef.columns
          (e.catalog.value.getTableIndexes db tableName) assignments selection) e
  | assigned {env : Env} {db tableName : String} {columns columns' : List Column}
      {indexes : List IndexDef} {assignments : List Assignment} {selection : Option Expr}
      {e : Executor} {assigns : List (Nat × Expr)}
      (ha : assignments.mapM (assignIndex columns') = .ok assigns) :
      Turns (.assigning env db tableName columns indexes assignments selection) e
        (.changing env tableName columns indexes selection (.assign assigns)) e
  | changed {env : Env} {tableName : String} {columns : List Column} {indexes : List IndexDef}
      {selection : Option Expr} {change : Change} {e : Executor} {t : Table} {rows : List Row}
      (hst : e.storage.poisoned = false) (hget : e.storage.value.getTable? tableName = some t)
      (hsel : selectRows columns selection t.entries = .ok rows) :
      Turns (.changing env tableName columns indexes selection change) e
        (.savingChange tableName rows.length)
        (logSnapshot env tableName rows
          (e.setStorage (change.apply tableName columns indexes e.storage.value rows)))
  | savedChange {tableName : String} {n : Nat} {e : Executor} :
      Turns (.savingChange tableName n) e (.over (.ok (.affected n 0))) (e.saveTable tableName)
  | found {env : Env} {db : String} {ci : CreateIndex} {e : Executor} :
      Turns (.createIndex env db ci) e
        (.registering env db (nameToString ci.tableName)
          (newIndexDef (nameToString ci.tableName) ci)) e
  | registered {env : Env} {db tableName : String} {indexDef : IndexDef} {e : Executor}
      {c : Catalog} (hc : e.catalog.value.createIndex db indexDef = .ok c) :
      Turns (.registering env db tableName indexDef) e
        (.loggingIndex env db tableName indexDef) (e.setCatalog c)
  | loggedIndex {env : Env} {db tableName : String} {indexDef : IndexDef} {e : Executor} :
      Turns (.loggingIndex env db tableName indexDef) e (.readingTable db tableName indexDef)
        (e.append env (.createIndex db indexDef))
  | tableRead {db tableName : String} {indexDef : IndexDef} {e : Executor} {tableDef : TableDef}
      (ht : e.catalog.value.getTable db tableName = .ok tableDef) :
      Turns (.readingTable db tableName indexDef) e
        (.building tableName tableDef.columns indexDef) e
  | built {tableName : String} {columns : List Column} {indexDef : IndexDef} {e : Executor}
      {data : IndexData} (hst : e.storage.poisoned = false)
      (hb : buildIndex indexDef columns (e.storage.value.getRows tableName)
        (.new indexDef.indexType) = .ok data) :
      Turns (.building tableName columns indexDef) e (.savingIndex tableName)
        (e.setStorage (e.storage.value.putIndex (storageKey tableName indexDef.name) data))
  | duplicate {tableName : String} {columns : List Column} {indexDef : IndexDef} {e : Executor}
      {dup : Key} {msg : String} (hst : e.storage.poisoned = false)
      (hb : buildIndex indexDef columns (e.storage.value.getRows tableName)
        (.new indexDef.indexType) = .error dup) :
      Turns (.building tableName columns indexDef) e (.over (failed msg))
        (e.setStorage (e.storage.value.removeIndex (storageKey tableName indexDef.name)))
  | savedIndex {tableName : String} {e : Executor} :
      Turns (.savingIndex tableName) e .savingCatalog (e.saveTable tableName)
  | savedCatalog {e : Executor} : Turns .savingCatalog e (.over (.ok .ok)) e.save

/-- A section whose run is known, and the place it leads to. -/
theorem turns_of_run {α : Type} {q : Place} {e e' : Executor} {h : Exec α} {next : α → Place}
    {r : Outcome α} (hturn : q.turn = Place.after h next) (hrun : h.run e = (r, e'))
    (ht : Turns q e (Place.goOn next r) e') : Turns q e (q.turn e).1 (q.turn e).2 := by
  rw [hturn, Place.after, hrun]
  exact ht

/-- A section that reads the catalog. -/
theorem turns_read {α : Type} {q : Place} {e : Executor} {f : Catalog → Except String α}
    {next : α → Place} (hturn : q.turn = Place.after (readCatalog f) next)
    (hfail : ∀ msg, f e.catalog.value = .error msg → q.MayFail e)
    (hok : ∀ a, f e.catalog.value = .ok a → Turns q e (next a) e) :
    Turns q e (q.turn e).1 (q.turn e).2 := by
  cases hc : e.catalog.poisoned with
  | true =>
    exact turns_of_run hturn (run_readCatalog_poisoned hc) (.failed (.refl e) (.inr rfl) (.inl (.inl hc)))
  | false =>
    refine turns_of_run hturn (run_readCatalog f hc) ?_
    cases hf : f e.catalog.value with
    | ok a => exact hok a hf
    | error msg => exact .failed (.refl e) (.inr rfl) (.inr (hfail msg hf))

omit [ExprDebug] [Bincode] in
theorem readTable_ok {c : Catalog} {db tableName : String} {p : List Column × List IndexDef}
    (h : (do
      let tableDef ← c.getTable db tableName
      pure (tableDef.columns, c.getTableIndexes db tableName) : Except String _) = .ok p) :
    ∃ tableDef, c.getTable db tableName = .ok tableDef ∧
      p = (tableDef.columns, c.getTableIndexes db tableName) := by
  cases ht : c.getTable db tableName with
  | error msg => rw [ht] at h; cases h
  | ok tableDef =>
    rw [ht] at h
    cases h
    exact ⟨tableDef, rfl, rfl⟩

theorem turns_storageFailed {α : Type} {q : Place} {e : Executor}
    {f : Executor → Outcome α × Executor} {next : α → Place}
    (hturn : q.turn = Place.after (storageSection f) next) (hst : e.storage.poisoned = true) :
    Turns q e (q.turn e).1 (q.turn e).2 :=
  turns_of_run hturn (run_storageSection_poisoned hst)
    (.failed (.refl e) (.inr rfl) (.inl (.inr hst)))

/-- Every turn goes one of the ways. -/
theorem Place.turns (q : Place) (e : Executor) (hq : q.result = none) :
    Turns q e (q.turn e).1 (q.turn e).2 := by
  cases q with
  | insert env db tableName cols source =>
    refine turns_read rfl (fun _ _ => trivial) fun tableDef ht => ?_
    cases hs : sourceRows tableDef.columns cols source with
    | error msg => exact .failed (.refl e) (.inr rfl) (.inr trivial)
    | ok rows => exact .prepared ht hs
  | filling env db tableName columns rows =>
    cases hc : e.catalog.poisoned with
    | true =>
      exact turns_of_run rfl (run_catalogSection_poisoned hc)
        (.failed (.refl e) (.inr rfl) (.inl (.inl hc)))
    | false =>
      have hdbs := fillRows_databases env.now tableName columns rows 0 0 e.catalog.value
      rcases hf : fillRows env.now tableName columns 0 rows 0 e.catalog.value with ⟨r, c⟩
      rw [hf] at hdbs
      cases r with
      | ok filled =>
        refine turns_of_run rfl (run_catalogSection_ok hc (by simp only [hf]; rfl)) ?_
        exact .filled (fillRows_eq_ok hf).2.2 hdbs
      | error x =>
        obtain rfl := fillRows_error (congrArg Prod.fst hf)
        refine turns_of_run rfl (run_catalogSection_panic hc (by simp only [hf]; rfl)) ?_
        exact .failed ⟨hdbs, rfl, rfl⟩ (.inl rfl) (.inr trivial)
  | logging env db tableName columns rows last => exact .logged
  | storing db tableName columns rows last =>
    cases hst : e.storage.poisoned with
    | true => exact turns_storageFailed rfl hst
    | false => exact turns_of_run rfl (run_updateStorage _ hst) (.stored hst)
  | savingRows db tableName columns n last ids => exact .savedRows
  | listing db tableName columns n last ids =>
    refine turns_read rfl (fun _ hf => by cases hf) fun indexes hf => ?_
    cases hf
    split
    · next h => exact .unlisted (by simpa using h)
    · exact .listed
  | indexing tableName columns indexes n last ids =>
    cases hst : e.storage.poisoned with
    | true => exact turns_storageFailed rfl hst
    | false => exact turns_of_run rfl (run_updateStorage _ hst) (.indexed hst)
  | delete env db tableName selection =>
    refine turns_read rfl (fun _ _ => trivial) fun p hf => ?_
    obtain ⟨tableDef, ht, rfl⟩ := readTable_ok hf
    exact .deleting ht
  | update env db tableName assignments selection =>
    refine turns_read rfl (fun _ _ => trivial) fun p hf => ?_
    obtain ⟨tableDef, ht, rfl⟩ := readTable_ok hf
    exact .updating ht
  | assigning env db tableName columns indexes assignments selection =>
    refine turns_read rfl (fun _ _ => trivial) fun assigns hf => ?_
    cases ht : e.catalog.value.getTable db tableName with
    | error msg => rw [ht] at hf; cases hf
    | ok tableDef =>
      rw [ht] at hf
      exact .assigned hf
  | changing env tableName columns indexes selection change =>
    cases hst : e.storage.poisoned with
    | true => exact turns_storageFailed rfl hst
    | false =>
      cases hget : e.storage.value.getTable? tableName with
      | none =>
        refine turns_of_run rfl (run_storageSection_failed hst (by rw [hget])) ?_
        exact .failed (.refl e) (.inr rfl) (.inr trivial)
      | some t =>
        cases hsel : selectRows columns selection t.entries with
        | error x =>
          obtain rfl : x = .panic := selectRows_error hsel
          refine turns_of_run rfl
            (run_storageSection_panic hst (by rw [hget]; simp only [hsel]; rfl)) ?_
          exact .failed ⟨rfl, rfl, rfl⟩ (.inl rfl) (.inr trivial)
        | ok rows =>
          refine turns_of_run rfl (run_storageSection_ok hst (by rw [hget]; simp only [hsel]; rfl)) ?_
          exact .changed hst hget hsel
  | savingChange tableName n => exact .savedChange
  | createIndex env db ci =>
    have hrun : (Engine.tableExists db (nameToString ci.tableName)).run e = (_, e) := rfl
    refine turns_of_run rfl hrun ?_
    show Turns _ e (ite _ _ _) e
    split
    · split
      · exact .failed (.refl e) (.inr rfl) (.inr trivial)
      · exact .found
    · exact .failed (.refl e) (.inr rfl) (.inr trivial)
  | registering env db tableName indexDef =>
    cases hc : e.catalog.poisoned with
    | true =>
      exact turns_of_run rfl (run_writeCatalog_poisoned hc)
        (.failed (.refl e) (.inr rfl) (.inl (.inl hc)))
    | false =>
      cases hci : e.catalog.value.createIndex db indexDef with
      | ok c => exact turns_of_run rfl (run_writeCatalog_ok hc hci) (.registered hci)
      | error msg =>
        refine turns_of_run rfl (run_writeCatalog_failed hc hci) ?_
        exact .failed (.refl e) (.inr rfl) (.inr trivial)
  | loggingIndex env db tableName indexDef => exact .loggedIndex
  | readingTable db tableName indexDef =>
    exact turns_read rfl (fun msg hf => ⟨msg, hf⟩) fun tableDef ht => .tableRead ht
  | building tableName columns indexDef =>
    cases hst : e.storage.poisoned with
    | true => exact turns_storageFailed rfl hst
    | false =>
      cases hb : buildIndex indexDef columns (e.storage.value.getRows tableName)
          (.new indexDef.indexType) with
      | ok data =>
        exact turns_of_run rfl (run_storageSection_ok hst (by simp only [hb]; rfl)) (.built hst hb)
      | error dup =>
        refine turns_of_run rfl (run_storageSection_failed hst (by simp only [hb]; rfl)) ?_
        exact .duplicate hst hb
  | savingIndex tableName => exact .savedIndex
  | savingCatalog => exact .savedCatalog
  | _ => cases hq

/-- A turn that poisons a mutex is a panic. -/
theorem Turns.poisoned {q q' : Place} {e e' : Executor} (h : Turns q e q' e')
    (hwell : ¬ e.Poisoned) : ¬ e'.Poisoned ∨ q' = .over (.error .panic) := by
  cases h with
  | failed hs hx hwhy =>
    rcases hx with rfl | rfl
    · exact .inr rfl
    · exact .inl hwell
  | changed hst hget hsel =>
    left
    rw [Executor.Poisoned, logSnapshot_catalog, logSnapshot_storage]
    exact hwell
  | _ => exact .inl hwell

end Theory

end Srrdb.Engine
