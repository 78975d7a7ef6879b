/-
Srrdb.Server.Isolation — what a statement in one database does to the tables
of another.

The catalog files tables by database, but sequences, rows, counters and index
data are filed by table name alone, and a panic poisons a mutex for everyone.
`SameView` lists all that a reader of a table depends on; `Touches` says which
statements change some of it for a table of another database. A statement that
touches no such table is isolated from all of them.
-/
import Srrdb.Engine.ErrorPaths
import Srrdb.Engine.FailedEntries
import Srrdb.Engine.IndexMaintenance
import Srrdb.Engine.LogReplay
import Srrdb.Server.Reachable

namespace Srrdb.Server

open Srrdb.Engine Srrdb.Sql Srrdb.Lib

section Theory

variable [Host] [ExprDebug] [Bincode]

/-! ## Reading a table -/

/-- Every SELECT on the table, its description and its next AUTO_INCREMENT
value are the same on both servers. -/
structure SameReads (e e' : Executor) (db name : String) : Prop where
  select : ∀ query sel table rest, query.body = .select sel →
    sel.fromTables = table :: rest → tableFactorName table = name →
    ((executeQuery db query).run e').1 = ((executeQuery db query).run e).1
  describe : ((executeDescribe db name).run e').1 = ((executeDescribe db name).run e).1
  autoIncrement : (e'.catalog.value.nextRowId name 1).1 = (e.catalog.value.nextRowId name 1).1

/-- What the readers of a table look at. -/
structure SameView (e e' : Executor) (db name : String) : Prop where
  catalogPoisoned : e'.catalog.poisoned = e.catalog.poisoned
  storagePoisoned : e'.storage.poisoned = e.storage.poisoned
  tableDef : e'.catalog.value.getTable db name = e.catalog.value.getTable db name
  indexes : e'.catalog.value.getTableIndexes db name = e.catalog.value.getTableIndexes db name
  sequence : e'.catalog.value.sequences.getD (normalize name) 1 =
    e.catalog.value.sequences.getD (normalize name) 1
  rows : e'.storage.value.table name = e.storage.value.table name
  indexData : ∀ idx ∈ e.catalog.value.getTableIndexes db name,
    e'.storage.value.indexData[storageKey name idx.name]? =
      e.storage.value.indexData[storageKey name idx.name]?

omit [ExprDebug] [Bincode] in
theorem SameView.of_eq {e e' : Executor} (hc : e'.catalog = e.catalog)
    (hs : e'.storage = e.storage) (db name : String) : SameView e e' db name := by
  constructor <;> simp [hc, hs]

omit [ExprDebug] [Bincode] in
/-- A SELECT finds the same candidates where it finds the same rows and the
same index data. -/
theorem candidateRows_congr {s s' : Storage} {name : String} {indexes : List IndexDef}
    (hrows : s'.table name = s.table name)
    (hdata : ∀ idx ∈ indexes, s'.indexData[storageKey name idx.name]? =
      s.indexData[storageKey name idx.name]?) (selection : Option Expr) :
    candidateRows s' name selection indexes = candidateRows s name selection indexes := by
  have hlookup : ∀ expr, tryIndexLookup s' name expr indexes = tryIndexLookup s name expr indexes := by
    intro expr
    unfold tryIndexLookup
    simp only
    congr 1
    induction indexes with
    | nil => rfl
    | cons idx rest ih =>
      rw [List.findSome?_cons, List.findSome?_cons, hdata idx List.mem_cons_self,
        ih fun idx' h => hdata idx' (List.mem_cons_of_mem _ h)]
  have hget : ∀ (s : Storage) (id : Nat), ((s.getTable? name).bind fun t => t[id]?) =
      (s.table name)[id]? := by
    intro s id
    rw [Storage.table, Std.ExtTreeMap.getD_eq_getD_getElem?, Storage.getTable?]
    cases s.tables[normalize name]? <;> simp
  unfold candidateRows
  simp only [hlookup, hget, hrows, Storage.getRows_eq]

omit [Bincode] in
/-- Readers that look at the same see the same. -/
theorem SameView.reads {e e' : Executor} {db name : String} (h : SameView e e' db name) :
    SameReads e e' db name where
  select query sel table rest hbody hfrom hname := by
    subst hname
    rw [run_select hbody hfrom, run_select hbody hfrom]
    simp only [h.catalogPoisoned, h.storagePoisoned, h.indexes, h.tableDef,
      candidateRows_congr h.rows h.indexData]
  describe := by
    unfold executeDescribe
    cases hc : e.catalog.poisoned with
    | true =>
      rw [run_readCatalog_poisoned hc, run_readCatalog_poisoned (h.catalogPoisoned.trans hc)]
    | false =>
      rw [run_readCatalog _ hc, run_readCatalog _ (h.catalogPoisoned.trans hc), h.tableDef]
  autoIncrement := h.sequence

/-! ## Isolation -/

/-- A statement on a table or index leaves the tables of other databases as
they were for all readers. -/
def Isolated (e : Executor) (call : Call) : Prop :=
  onTables call.stmt = true → ∀ db name, ¬ SameName call.db db →
    e.catalog.value.tableExists db name = true → SameReads e (e.after call) db name

/-- An index of the table has its data under a key of this kind. -/
def HasKey (c : Catalog) (db name : String) (p : String → Prop) : Prop :=
  ∃ idx ∈ c.getTableIndexes db name, p (storageKey name idx.name)

/-- A statement that changes the rows `rows` of a table changes something of
the table `name` of `db`. -/
def RowsTouch (c : Catalog) (callDb tableName : String) (rows : List Row) (db name : String) :
    Prop :=
  rows ≠ [] ∧ (SameName tableName name ∨ HasKey c db name fun key =>
    ∃ idx ∈ c.getTableIndexes callDb tableName, key = storageKey tableName idx.name)

/-- The statement changes something a reader of the table `name` of `db` looks
at: the sequence or the rows of that name, index data of one of its storage
keys, or a mutex, by a panic. -/
def Touches (e : Executor) (call : Call) (db name : String) : Prop :=
  let c := e.catalog.value
  let s := e.storage.value
  e.catalog.poisoned = false ∧
  match call.stmt with
  | .createTable ct =>
      NameFree c call.db (nameToString ct.name) ∧ SameName (nameToString ct.name) name ∧
        c.sequences.getD (normalize name) 1 ≠ 1
  | .drop .table names _ =>
      c.tableExists call.db (firstName names) = true ∧
      ((SameName (firstName names) name ∧ c.sequences.getD (normalize name) 1 ≠ 1) ∨
        e.storage.poisoned = false ∧ ((SameName (firstName names) name ∧ s.table name ≠ ∅) ∨
          HasKey c db name fun key => startsWith key (normalize (firstName names) ++ ":") = true))
  | .insert ins =>
      let tableName := tableObjectName ins.table
      ∃ tableDef rows, c.getTable call.db tableName = .ok tableDef ∧
        sourceRows tableDef.columns ins.columns ins.source = .ok rows ∧
        (¬ Wide tableDef.columns rows ∨
          (SameName tableName name ∧ drawnRows tableDef.columns rows ≠ 0) ∨
          (e.storage.poisoned = false ∧ RowsTouch c call.db tableName rows db name))
  | .delete del =>
      let tableName := deleteTable del
      e.storage.poisoned = false ∧
      ∃ tableDef t, c.getTable call.db tableName = .ok tableDef ∧
        s.getTable? tableName = some t ∧
        (selectRows tableDef.columns del.selection t.entries = .error .panic ∨
          ∃ rows, selectRows tableDef.columns del.selection t.entries = .ok rows ∧
            RowsTouch c call.db tableName rows db name)
  | .update table assignments selection =>
      let tableName := tableFactorName table
      e.storage.poisoned = false ∧
      ∃ tableDef assigns t, c.getTable call.db tableName = .ok tableDef ∧
        assignments.mapM (assignIndex tableDef.columns) = .ok assigns ∧
        s.getTable? tableName = some t ∧
        (selectRows tableDef.columns selection t.entries = .error .panic ∨
          ∃ rows, selectRows tableDef.columns selection t.entries = .ok rows ∧
            RowsTouch c call.db tableName rows db name)
  | .createIndex ci => e.storage.poisoned = false ∧
      ∃ tableDef, RegistersIndex e call.db ci tableDef ∧
        HasKey c db name fun key => key = storageKey (nameToString ci.tableName)
          (indexName (nameToString ci.tableName) ci)
  | .drop .index names _ => e.storage.poisoned = false ∧
      ∃ tableName, UnregistersIndex e call names tableName ∧
        HasKey c db name fun key => key = storageKey tableName (firstName names)
  | _ => False

/-- The statement changes what a reader of another database sees. -/
def Interferes (e : Executor) (call : Call) : Prop :=
  ∃ db name, ¬ SameName call.db db ∧ e.catalog.value.tableExists db name = true ∧
    Touches e call db name

/-! ## What each statement leaves alone -/

section Frames

variable {e e' : Executor} {env : Env} {callDb db name : String} {r : Outcome ExecuteResult}

omit [ExprDebug] [Bincode] in
theorem sequence_draw (c : Catalog) (tableName : String) (n : Nat) (name : String) :
    (c.draw tableName n).sequences.getD (normalize name) 1 =
      if SameName tableName name then c.sequences.getD (normalize name) 1 + n
      else c.sequences.getD (normalize name) 1 :=
  Catalog.sequence_draw n name

omit [ExprDebug] [Bincode] in
/-- Reading a table of another database after a change of the catalog that
shows no other table. -/
theorem getTable_of_findTable {c c' : Catalog} (hexists : c.tableExists db name = true)
    (h : c'.findTable db name = c.findTable db name) : c'.getTable db name = c.getTable db name := by
  rw [Catalog.tableExists_eq, Option.isSome_iff_exists] at hexists
  obtain ⟨t, ht⟩ := hexists
  rw [Catalog.getTable_ok_iff.mpr ht, Catalog.getTable_ok_iff.mpr (h.trans ht)]

omit [ExprDebug] in
/-- CREATE TABLE resets the sequence of its name. -/
theorem createTable_sameView {tableName : String} {columns : List Column}
    (hdb : ¬ SameName callDb db) (hexists : e.catalog.value.tableExists db name = true)
    (hseq : NameFree e.catalog.value callDb tableName → SameName tableName name →
      e.catalog.value.sequences.getD (normalize name) 1 = 1)
    (h : CreateTableOutcome env callDb tableName columns e r e') : SameView e e' db name := by
  cases h with
  | locked | rejected => exact .of_eq (by rfl) (by rfl) db name
  | @created c hc hok =>
    refine ⟨rfl, rfl, getTable_of_findTable hexists ?_, ?_, ?_, rfl, fun _ _ => rfl⟩
    · exact (Catalog.findTable_createTable hok db name).trans (if_neg fun hs => hdb hs.1)
    · exact Catalog.getTableIndexes_createTable hok db name
    · have hfree := Catalog.createTable_isOk.mp ⟨c, hok⟩
      obtain ⟨d, hd, -, rfl⟩ := Catalog.createTable_ok hok
      show (e.catalog.value.sequences.insert (normalize tableName) 1).getD (normalize name) 1 = _
      simp only [Std.ExtTreeMap.getD_insert, Std.LawfulEqCmp.compare_eq_iff_eq]
      split
      · next hname => exact (hseq hfree hname).symm
      · rfl

omit [ExprDebug] in
/-- DROP TABLE clears the sequence, the rows and the index data of its name. -/
theorem dropTable_sameView {tn : String} (hdb : ¬ SameName callDb db)
    (hexists : e.catalog.value.tableExists db name = true)
    (hseq : e.catalog.value.tableExists callDb tn = true → SameName tn name →
      e.catalog.value.sequences.getD (normalize name) 1 = 1)
    (hrows : e.catalog.value.tableExists callDb tn = true → e.storage.poisoned = false →
      SameName tn name → e.storage.value.table name = ∅)
    (hkeys : e.catalog.value.tableExists callDb tn = true → e.storage.poisoned = false →
      ∀ idx ∈ e.catalog.value.getTableIndexes db name,
        startsWith (storageKey name idx.name) (normalize tn ++ ":") = false)
    (h : DropTableOutcome env callDb tn e r e') : SameView e e' db name := by
  have hcatalog : ∀ c, e.catalog.value.dropTable callDb tn = .ok c →
      c.getTable db name = e.catalog.value.getTable db name ∧
      c.getTableIndexes db name = e.catalog.value.getTableIndexes db name ∧
      c.sequences.getD (normalize name) 1 = e.catalog.value.sequences.getD (normalize name) 1 := by
    intro c hok
    refine ⟨getTable_of_findTable hexists ?_, ?_, ?_⟩
    · exact (Catalog.findTable_dropTable hok db name).trans (if_neg fun hs => hdb hs.1)
    · exact (Catalog.getTableIndexes_dropTable hok db name).trans (if_neg fun hs => hdb hs.1)
    · have hfound := Catalog.dropTable_isOk.mp ⟨c, hok⟩
      obtain ⟨d, t, hd, -, rfl⟩ := Catalog.dropTable_ok hok
      show (e.catalog.value.sequences.erase (normalize tn)).getD (normalize name) 1 = _
      simp only [Std.ExtTreeMap.getD_erase, Std.LawfulEqCmp.compare_eq_iff_eq]
      split
      · next hname => exact (hseq hfound hname).symm
      · rfl
  cases h with
  | locked | rejected => exact .of_eq (by rfl) (by rfl) db name
  | @uncleared c hc hok hst =>
    obtain ⟨ht, hi, hs⟩ := hcatalog c hok
    exact ⟨rfl, rfl, ht, hi, hs, rfl, fun _ _ => rfl⟩
  | @dropped c hc hok hst =>
    obtain ⟨ht, hi, hs⟩ := hcatalog c hok
    have hfound := Catalog.dropTable_isOk.mp ⟨c, hok⟩
    refine ⟨rfl, rfl, ht, hi, hs, ?_, fun idx hidx => ?_⟩
    · refine (Storage.table_clearTable e.storage.value tn name).trans ?_
      split
      · next hname => exact (hrows hfound hst hname).symm
      · rfl
    · refine (Storage.indexData_clearTable e.storage.value tn _).trans (if_neg ?_)
      simp [hkeys hfound hst idx hidx]

omit [ExprDebug] [Bincode] in
/-- A statement that changed no row of the table, or rows of another table
without a common storage key, left the readers of a table alone. -/
theorem not_rowsTouch {c : Catalog} {tableName : String} {rows : List Row}
    (h : ¬ RowsTouch c callDb tableName rows db name) :
    rows = [] ∨ (¬ SameName tableName name ∧ ∀ idx ∈ c.getTableIndexes db name,
      ∀ idx' ∈ c.getTableIndexes callDb tableName,
        storageKey name idx.name ≠ storageKey tableName idx'.name) := by
  by_cases hrows : rows = []
  · exact .inl hrows
  · refine .inr ⟨fun hname => h ⟨hrows, .inl hname⟩, fun idx hidx idx' hidx' heq => ?_⟩
    exact h ⟨hrows, .inr ⟨idx, hidx, idx', hidx', heq⟩⟩

/-- INSERT draws from the sequence of its name and adds rows and index data
under it. -/
theorem insert_sameView {tableName : String} {cols : List String} {source : Option Query}
    (hno : ∀ tableDef rows, e.catalog.value.getTable callDb tableName = .ok tableDef →
      sourceRows tableDef.columns cols source = .ok rows →
      Wide tableDef.columns rows ∧ (SameName tableName name → drawnRows tableDef.columns rows = 0) ∧
        (e.storage.poisoned = false → ¬ RowsTouch e.catalog.value callDb tableName rows db name))
    (h : InsertOutcome env callDb tableName cols source e r e') : SameView e e' db name := by
  have hcatalog : ∀ {tableDef rows filled last c},
      e.catalog.value.getTable callDb tableName = .ok tableDef →
      sourceRows tableDef.columns cols source = .ok rows →
      fillRows env.now tableName tableDef.columns 0 rows 0 e.catalog.value = (.ok (filled, last), c) →
      c.getTable db name = e.catalog.value.getTable db name ∧
      c.getTableIndexes db name = e.catalog.value.getTableIndexes db name ∧
      c.sequences.getD (normalize name) 1 = e.catalog.value.sequences.getD (normalize name) 1 := by
    intro tableDef rows filled last c ht hs hf
    obtain ⟨-, rfl, -⟩ := fillRows_eq_ok hf
    obtain ⟨-, hdrawn, -⟩ := hno tableDef rows ht hs
    refine ⟨Catalog.getTable_congr (Catalog.draw_databases _) db name,
      Catalog.getTableIndexes_congr (Catalog.draw_databases _) db name, ?_⟩
    rw [sequence_draw]
    split
    · next hname => rw [hdrawn hname, Nat.add_zero]
    · rfl
  cases h with
  | locked | noTable | badSource => exact .of_eq (by rfl) (by rfl) db name
  | panicked hc ht hs hf =>
    obtain ⟨hwide, -⟩ := hno _ _ ht hs
    obtain ⟨filled, last, hrun, -⟩ := fillRows_ok env.now tableName 0 0 e.catalog.value hwide
    rw [hrun] at hf
    cases hf
  | unstored hc ht hs hf hst =>
    obtain ⟨hdef, hidx, hseq⟩ := hcatalog ht hs hf
    exact ⟨rfl, rfl, hdef, hidx, hseq, rfl, fun _ _ => rfl⟩
  | @stored tableDef rows filled last c hc ht hs hf hst =>
    obtain ⟨hdef, hidx, hseq⟩ := hcatalog ht hs hf
    obtain ⟨-, -, htouch⟩ := hno _ _ ht hs
    obtain ⟨-, rfl, hsup⟩ := fillRows_eq_ok hf
    have hindexes : (e.catalog.value.draw tableName (drawnRows tableDef.columns rows)).getTableIndexes
        callDb tableName = e.catalog.value.getTableIndexes callDb tableName :=
      Catalog.getTableIndexes_congr (Catalog.draw_databases _) callDb tableName
    -- the rows, and the index data under the keys of the table
    have hstored : (e.storage.value.insertRows tableName filled).2.table name =
        e.storage.value.table name := by
      rw [Storage.table_insertRows]
      rcases not_rowsTouch (htouch hst) with rfl | ⟨hname, -⟩
      · obtain rfl := List.length_eq_zero_iff.mp hsup.length_eq
        split
        · next hname => rw [Storage.insertLoop, Storage.table, Storage.table, hname]
        · rfl
      · rw [if_neg hname]
    have hkept : ∀ (s : Storage) (ids : List Nat),
        (rows = [] → ids = []) → ∀ idx ∈ e.catalog.value.getTableIndexes db name,
        (indexInserted s tableName (e.catalog.value.getTableIndexes callDb tableName)
          tableDef.columns ids).indexData[storageKey name idx.name]? =
            s.indexData[storageKey name idx.name]? := by
      intro s ids hids idx hidx
      rcases not_rowsTouch (htouch hst) with hnil | ⟨-, hkeys⟩
      · rw [hids hnil]
        rfl
      · refine foldl_keeps (I := fun d : IndexMap => d[storageKey name idx.name]? =
          s.indexData[storageKey name idx.name]?) (fun d id _ hd => ?_) rfl
        exact (getElem?_insertIntoIndexesRaw_of_notMem (hkeys idx hidx) _ _ d).trans hd
    have hids : rows = [] → (e.storage.value.insertRows tableName filled).1 = [] := by
      intro hnil
      rw [hnil] at hsup
      obtain rfl := List.length_eq_zero_iff.mp hsup.length_eq
      rfl
    have hrun : ∀ e₁ : Executor, e₁.catalog = ⟨e.catalog.value.draw tableName
        (drawnRows tableDef.columns rows), e.catalog.poisoned⟩ →
        e₁.storage = ⟨(e.storage.value.insertRows tableName filled).2, e.storage.poisoned⟩ →
        SameView e (insertDone e₁ tableName (e.catalog.value.getTableIndexes callDb tableName)
          tableDef.columns (e.storage.value.insertRows tableName filled).1) db name := by
      intro e₁ hc₁ hs₁
      unfold insertDone
      split
      · refine ⟨?_, ?_, ?_, ?_, ?_, ?_, ?_⟩ <;>
          simp only [Executor.saveTable_catalog, Executor.saveTable_storage, hc₁, hs₁]
        · exact hdef
        · exact hidx
        · exact hseq
        · exact hstored
        · exact fun _ _ => rfl
      · refine ⟨?_, ?_, ?_, ?_, ?_, ?_, ?_⟩ <;>
          simp only [Executor.setStorage_catalog, Executor.setStorage_storage_value,
            Executor.setStorage_storage_poisoned, Executor.saveTable_catalog,
            Executor.saveTable_storage, hc₁, hs₁]
        · exact hdef
        · exact hidx
        · exact hseq
        · exact hstored
        · exact fun idx h => hkept _ _ hids idx h
    rw [hindexes]
    exact hrun _ rfl rfl

/-- DELETE and UPDATE change the rows they select and index data under the
keys of their table. -/
theorem change_sameView {tableName : String} {columns : List Column} {selection : Option Expr}
    {change : Storage → List Row → Storage} {rewrite : List Row → Table → Table}
    (hre : Rewrites tableName change rewrite)
    (hnil : ∀ s, (change s []).indexData = s.indexData)
    (hkeep : ∀ s rows key, (∀ idx ∈ e.catalog.value.getTableIndexes callDb tableName,
      key ≠ storageKey tableName idx.name) → (change s rows).indexData[key]? = s.indexData[key]?)
    (hno : ∀ t, e.storage.poisoned = false → e.storage.value.getTable? tableName = some t →
      selectRows columns selection t.entries ≠ .error .panic ∧
        ∀ rows, selectRows columns selection t.entries = .ok rows →
          ¬ RowsTouch e.catalog.value callDb tableName rows db name)
    (h : ChangeOutcome env tableName columns selection change e r e') : SameView e e' db name := by
  cases h with
  | locked | noEntry => exact .of_eq (by rfl) (by rfl) db name
  | panicked hst ht hsel => exact absurd hsel (hno _ hst ht).1
  | @changed t rows hst ht hsel =>
    have hchanged : (change e.storage.value rows).table name = e.storage.value.table name ∧
        ∀ idx ∈ e.catalog.value.getTableIndexes db name,
          (change e.storage.value rows).indexData[storageKey name idx.name]? =
            e.storage.value.indexData[storageKey name idx.name]? := by
      rcases not_rowsTouch ((hno t hst ht).2 rows hsel) with rfl | ⟨hname, hkeys⟩
      · refine ⟨Storage.table_congr (hre.sameRows_nil ht).tables name, fun idx _ => ?_⟩
        rw [hnil]
      · refine ⟨?_, fun idx hidx => hkeep _ _ _ (hkeys idx hidx)⟩
        rw [Storage.table_congr (hre.sameRows _ rows).tables,
          Storage.table_modifyTable _ _ (hre.empty rows), if_neg hname]
    unfold logSnapshot
    split <;> exact ⟨rfl, rfl, rfl, rfl, rfl, hchanged.1, hchanged.2⟩

theorem delete_sameView {tableName : String} {selection : Option Expr}
    (hno : ∀ tableDef t, e.catalog.value.getTable callDb tableName = .ok tableDef →
      e.storage.poisoned = false → e.storage.value.getTable? tableName = some t →
      selectRows tableDef.columns selection t.entries ≠ .error .panic ∧
        ∀ rows, selectRows tableDef.columns selection t.entries = .ok rows →
          ¬ RowsTouch e.catalog.value callDb tableName rows db name)
    (h : DeleteOutcome env callDb tableName selection e r e') : SameView e e' db name := by
  cases h with
  | locked | noTable => exact .of_eq (by rfl) (by rfl) db name
  | ran hc ht hch =>
    exact change_sameView (deleteRows_rewrites _ _ _) (fun _ => rfl)
      (fun s rows key hkey => deleteRows_indexData_keep hkey _ s rows) (fun t => hno _ t ht) hch

theorem update_sameView {tableName : String} {assignments : List Assignment}
    {selection : Option Expr}
    (hno : ∀ tableDef assigns t, e.catalog.value.getTable callDb tableName = .ok tableDef →
      assignments.mapM (assignIndex tableDef.columns) = .ok assigns →
      e.storage.poisoned = false → e.storage.value.getTable? tableName = some t →
      selectRows tableDef.columns selection t.entries ≠ .error .panic ∧
        ∀ rows, selectRows tableDef.columns selection t.entries = .ok rows →
          ¬ RowsTouch e.catalog.value callDb tableName rows db name)
    (h : UpdateOutcome env callDb tableName assignments selection e r e') :
    SameView e e' db name := by
  cases h with
  | locked | noTable | badAssignment => exact .of_eq (by rfl) (by rfl) db name
  | ran hc ht ha hch =>
    exact change_sameView (updateRows_rewrites _ _ _ _) (fun _ => rfl)
      (fun s rows key hkey => updateRows_indexData_keep hkey _ _ s rows)
      (fun t => hno _ _ t ht ha) hch

omit [ExprDebug] in
/-- CREATE INDEX writes or removes index data under its key. -/
theorem createIndex_sameView {ci : CreateIndex} (hdb : ¬ SameName callDb db)
    (hexists : e.catalog.value.tableExists db name = true) (hcols : indexColumns ci ≠ [])
    (hno : e.storage.poisoned = false → ∀ tableDef, RegistersIndex e callDb ci tableDef →
      ∀ idx ∈ e.catalog.value.getTableIndexes db name, storageKey name idx.name ≠
        storageKey (nameToString ci.tableName) (indexName (nameToString ci.tableName) ci))
    (h : CreateIndexOutcome env callDb (nameToString ci.tableName)
      (newIndexDef (nameToString ci.tableName) ci) e r e') : SameView e e' db name := by
  have hcatalog : ∀ c, e.catalog.value.createIndex callDb
      (newIndexDef (nameToString ci.tableName) ci) = .ok c →
      c.getTable db name = e.catalog.value.getTable db name ∧
      c.getTableIndexes db name = e.catalog.value.getTableIndexes db name ∧
      c.sequences = e.catalog.value.sequences := by
    intro c hok
    refine ⟨getTable_of_findTable hexists (Catalog.findTable_createIndex hok db name), ?_, ?_⟩
    · exact (Catalog.getTableIndexes_createIndex hok db name).trans (if_neg fun hs => hdb hs.1)
    · obtain ⟨d, t, -, -, -, rfl⟩ := Catalog.createIndex_ok hok
      rfl
  cases h with
  | locked | rejected => exact .of_eq (by rfl) (by rfl) db name
  | @unbuilt c tableDef hc hok ht hst =>
    obtain ⟨hdef, hidx, hseq⟩ := hcatalog c hok
    exact ⟨rfl, rfl, hdef, hidx, congrArg (·.getD (normalize name) 1) hseq, rfl, fun _ _ => rfl⟩
  | @duplicate c tableDef dup msg hc hok ht hst hb =>
    obtain ⟨hdef, hidx, hseq⟩ := hcatalog c hok
    refine ⟨rfl, rfl, hdef, hidx, ?_, rfl, fun idx hmem => ?_⟩
    · exact congrArg (·.getD (normalize name) 1) hseq
    · have hne := hno hst tableDef (registersIndex_iff.mpr ⟨hcols, ht, c, hok⟩) idx hmem
      refine (Std.ExtTreeMap.getElem?_erase).trans (if_neg ?_)
      rw [Std.LawfulEqCmp.compare_eq_iff_eq]
      exact Ne.symm hne
  | @built c tableDef data hc hok ht hst hb =>
    obtain ⟨hdef, hidx, hseq⟩ := hcatalog c hok
    refine ⟨rfl, rfl, hdef, hidx, ?_, rfl, fun idx hmem => ?_⟩
    · exact congrArg (·.getD (normalize name) 1) hseq
    · have hne := hno hst tableDef (registersIndex_iff.mpr ⟨hcols, ht, c, hok⟩) idx hmem
      refine (Std.ExtTreeMap.getElem?_insert).trans (if_neg ?_)
      rw [Std.LawfulEqCmp.compare_eq_iff_eq]
      exact Ne.symm hne

omit [ExprDebug] [Bincode] in
/-- DROP INDEX removes index data under its key. -/
theorem dropIndex_sameView {indexName tableName : String} (hdb : ¬ SameName callDb db)
    (hexists : e.catalog.value.tableExists db name = true)
    (hno : e.storage.poisoned = false →
      hasIndex (e.catalog.value.getTableIndexes callDb tableName) indexName = true →
      ∀ idx ∈ e.catalog.value.getTableIndexes db name,
        storageKey name idx.name ≠ storageKey tableName indexName)
    (h : DropIndexOutcome env callDb indexName tableName e r e') : SameView e e' db name := by
  have hcatalog : ∀ c, e.catalog.value.dropIndex callDb indexName tableName = .ok c →
      c.getTable db name = e.catalog.value.getTable db name ∧
      c.getTableIndexes db name = e.catalog.value.getTableIndexes db name ∧
      c.sequences = e.catalog.value.sequences := by
    intro c hok
    refine ⟨getTable_of_findTable hexists (Catalog.findTable_dropIndex hok db name), ?_, ?_⟩
    · exact (Catalog.getTableIndexes_dropIndex hok db name).trans (if_neg fun hs => hdb hs.1)
    · obtain ⟨d, pos, -, -, rfl⟩ := Catalog.dropIndex_ok hok
      rfl
  cases h with
  | locked | rejected => exact .of_eq (by rfl) (by rfl) db name
  | @undropped c hc hok hst =>
    obtain ⟨hdef, hidx, hseq⟩ := hcatalog c hok
    refine ⟨rfl, rfl, hdef, hidx, ?_, rfl, fun _ _ => rfl⟩
    exact congrArg (·.getD (normalize name) 1) hseq
  | @dropped c hc hok hst =>
    obtain ⟨hdef, hidx, hseq⟩ := hcatalog c hok
    refine ⟨rfl, rfl, hdef, hidx, ?_, rfl, fun idx hmem => ?_⟩
    · exact congrArg (·.getD (normalize name) 1) hseq
    · have hne := hno hst (Catalog.dropIndex_isOk.mp ⟨c, hok⟩) idx hmem
      refine (Std.ExtTreeMap.getElem?_erase).trans (if_neg ?_)
      rw [Std.LawfulEqCmp.compare_eq_iff_eq]
      exact Ne.symm hne

end Frames

/-! ## Isolation of statements and runs -/

/-- Behind a poisoned catalog nothing changes any more. -/
theorem after_of_poisoned {e : Executor} (hc : e.catalog.poisoned = true) (call : Call) :
    (e.after call).catalog = e.catalog ∧ (e.after call).storage = e.storage := by
  have heffect := call.effect e
  obtain ⟨env, db, stmt⟩ := call
  generalize Call.result ⟨env, db, stmt⟩ e = r, e.after ⟨env, db, stmt⟩ = e' at heffect ⊢
  cases heffect with
  | none r hskip => exact ⟨rfl, rfl⟩
  | createTable h | insert h | delete h | update h | dropTable h | dropIndex _ h
  | createIndex _ h | createDatabase h | dropDatabase h =>
    cases h <;> first | exact ⟨rfl, rfl⟩ | simp_all

/-- A statement that touches nothing a reader of the table looks at. -/
theorem sameView_of_not_touches {e : Executor} {call : Call} {db name : String}
    (hstmt : onTables call.stmt = true) (hdb : ¬ SameName call.db db)
    (hexists : e.catalog.value.tableExists db name = true) (hno : ¬ Touches e call db name) :
    SameView e (e.after call) db name := by
  cases hc : e.catalog.poisoned with
  | true =>
    obtain ⟨hcatalog, hstorage⟩ := after_of_poisoned hc call
    exact .of_eq hcatalog hstorage db name
  | false =>
    have heffect := call.effect e
    obtain ⟨env, callDb, stmt⟩ := call
    generalize Call.result ⟨env, callDb, stmt⟩ e = r, e.after ⟨env, callDb, stmt⟩ = e' at heffect ⊢
    -- what `Touches` says of the statement at hand
    have hno : ¬ _ := fun h => hno ⟨hc, h⟩
    cases heffect with
    | none r hskip => exact .of_eq (by rfl) (by rfl) db name
    | createTable h =>
      refine createTable_sameView hdb hexists (fun hfree hname => ?_) h
      exact not_not.mp fun hseq => hno ⟨hfree, hname, hseq⟩
    | insert h =>
      refine insert_sameView (fun tableDef rows ht hs => ⟨?_, ?_, ?_⟩) h
      · exact not_not.mp fun hw => hno ⟨tableDef, rows, ht, hs, .inl hw⟩
      · exact fun hname => not_not.mp fun hd => hno ⟨tableDef, rows, ht, hs, .inr (.inl ⟨hname, hd⟩)⟩
      · exact fun hst ht' => hno ⟨tableDef, rows, ht, hs, .inr (.inr ⟨hst, ht'⟩)⟩
    | delete h =>
      refine delete_sameView (fun tableDef t ht hst hget => ⟨?_, ?_⟩) h
      · exact fun hsel => hno ⟨hst, tableDef, t, ht, hget, .inl hsel⟩
      · exact fun rows hsel ht' => hno ⟨hst, tableDef, t, ht, hget, .inr ⟨rows, hsel, ht'⟩⟩
    | update h =>
      refine update_sameView (fun tableDef assigns t ht ha hst hget => ⟨?_, ?_⟩) h
      · exact fun hsel => hno ⟨hst, tableDef, assigns, t, ht, ha, hget, .inl hsel⟩
      · exact fun rows hsel ht' =>
          hno ⟨hst, tableDef, assigns, t, ht, ha, hget, .inr ⟨rows, hsel, ht'⟩⟩
    | @dropTable names ifExists r e' h =>
      refine dropTable_sameView hdb hexists ?_ ?_ ?_ h
      · intro hfound hname
        rw [tableExists_toLowercase] at hfound
        rw [SameName, normalize_toLowercase] at hname
        exact not_not.mp fun hseq => hno ⟨hfound, .inl ⟨hname, hseq⟩⟩
      · intro hfound hst hname
        rw [tableExists_toLowercase] at hfound
        rw [SameName, normalize_toLowercase] at hname
        exact not_not.mp fun hrows => hno ⟨hfound, .inr ⟨hst, .inl ⟨hname, hrows⟩⟩⟩
      · intro hfound hst idx hidx
        rw [tableExists_toLowercase] at hfound
        rw [normalize_toLowercase]
        rw [Bool.eq_false_iff]
        exact fun hkey => hno ⟨hfound, .inr ⟨hst, .inr ⟨idx, hidx, hkey⟩⟩⟩
    | dropIndex hfind h =>
      refine dropIndex_sameView hdb hexists (fun hst hhas idx hidx hkey => ?_) h
      exact hno ⟨hst, _, ⟨hfind, hhas⟩, idx, hidx, hkey⟩
    | createIndex hcols h =>
      refine createIndex_sameView hdb hexists hcols (fun hst tableDef hreg idx hidx hkey => ?_) h
      exact hno ⟨hst, tableDef, hreg, idx, hidx, hkey⟩
    | createDatabase | dropDatabase => cases hstmt

/-- In a run, every statement is isolated from the other databases as long as
none of the statements interferes with them. -/
theorem run_isolated {e : Executor} (calls : List Call)
    (h : Every Executor.after (fun e call => ¬ Interferes e call) e calls) :
    Every Executor.after Isolated e calls := by
  refine Every.of_invariant (fun _ _ (_ : True) _ => trivial) ?_ trivial h
  intro e call _ hno hstmt db name hdb hexists
  exact (sameView_of_not_touches hstmt hdb hexists fun ht => hno ⟨db, name, hdb, hexists, ht⟩).reads

omit [ExprDebug] [Bincode] in
/-- Where the catalog lists a table. -/
theorem mem_toList_of_tableExists {c : Catalog} {db name : String}
    (h : c.tableExists db name = true) :
    ∃ p ∈ c.databases.toList, p.1 = normalize db ∧ ∃ q ∈ p.2.tables.toList, q.1 = normalize name := by
  rw [Catalog.tableExists_eq, Option.isSome_iff_exists] at h
  obtain ⟨t, ht⟩ := h
  obtain ⟨d, hd, ht⟩ := Option.bind_eq_some_iff.mp ht
  exact ⟨(normalize db, d), OrdMap.mem_toList.mpr hd, rfl, (normalize name, t),
    OrdMap.mem_toList.mpr ht, rfl⟩

end Theory

section Concrete

attribute [local instance] asciiHost plainDebug bincode1

/-- A table `t` in `srrdb` and a table in the database `d`. -/
def tableBeside (other : String) : Executor :=
  (((Executor.ofMemory .new none).after (callIn "srrdb" (.createDatabase ["d"] false))).after
    (callIn "d" (intTable other ["a"]))).after (callIn "srrdb" (intTable "t" ["a"]))

theorem tableBeside_reachable (other : String) : Reachable (tableBeside other) :=
  (((Reachable.fresh none).after _).after _).after _

/-- `SELECT * FROM name`. -/
def allRowsOf (name : String) : Query :=
  ⟨.select ⟨[.wildcard], [.table [name]], none⟩, none, none, none⟩

/-- A row inserted in `srrdb` appears in the table of the same name in `d`. -/
theorem sharedTable_not_isolated :
    Reachable (tableBeside "t") ∧
      ¬ Isolated (tableBeside "t") (callIn "srrdb" (insertNumbers "t" [["1"]])) := by
  refine ⟨tableBeside_reachable "t", fun h => ?_⟩
  have hreads := h rfl "d" "t" (by decide +kernel) (by decide +kernel)
  have hselect := hreads.select (allRowsOf "t") _ _ _ rfl rfl rfl
  have hdiffer : ((executeQuery "d" (allRowsOf "t")).run ((tableBeside "t").after
      (callIn "srrdb" (insertNumbers "t" [["1"]])))).1 ≠
      ((executeQuery "d" (allRowsOf "t")).run (tableBeside "t")).1 := by decide +kernel
  exact hdiffer hselect

theorem otherTable_not_interferes :
    ¬ Interferes (tableBeside "u") (callIn "srrdb" (insertNumbers "t" [["1"]])) := by
  intro h
  obtain ⟨db, name, hdb, hexists, hc, tableDef, rows, ht, hs, htouch⟩ := h
  have htables : ∀ p ∈ (tableBeside "u").catalog.value.databases.toList,
      p.1 = normalize "srrdb" ∨ ∀ q ∈ p.2.tables.toList, q.1 = "u" := by decide +kernel
  have hname : normalize name = "u" := by
    obtain ⟨p, hp, hpdb, q, hq, hqname⟩ := mem_toList_of_tableExists hexists
    rcases htables p hp with hsrrdb | hall
    · exact absurd (hsrrdb.symm.trans hpdb) hdb
    · rw [← hqname]
      exact hall q hq
  have hdef : (tableBeside "u").catalog.value.getTable "srrdb" "t" =
      .ok ⟨"t", [.new "a" "t" .long]⟩ := by decide +kernel
  obtain rfl : tableDef = ⟨"t", [.new "a" "t" .long]⟩ := Except.ok.inj (ht.symm.trans hdef)
  have hrows : sourceRows [.new "a" "t" .long] [] (some ⟨.values [[numberExpr "1"]], none, none,
      none⟩) = .ok [⟨0, [.int 1]⟩] := by decide +kernel
  obtain rfl : rows = [⟨0, [.int 1]⟩] := Except.ok.inj (hs.symm.trans hrows)
  have hindexes : (tableBeside "u").catalog.value.getTableIndexes "srrdb" "t" = [] := by
    decide +kernel
  have hnames : ¬ SameName "t" name := by
    rw [SameName, hname]
    decide +kernel
  rcases htouch with hw | ⟨hsame, -⟩ | ⟨-, -, hsame | ⟨idx, -, idx', hidx', -⟩⟩
  · exact hw (by unfold Wide; decide +kernel)
  · exact hnames hsame
  · exact hnames hsame
  · rw [show (callIn "srrdb" (insertNumbers "t" [["1"]])).db = "srrdb" from rfl] at hidx'
    have hnone : idx' ∈ (tableBeside "u").catalog.value.getTableIndexes "srrdb" "t" := hidx'
    rw [hindexes] at hnone
    cases hnone

theorem otherTable_isolated :
    Every Executor.after Isolated (tableBeside "u")
      [callIn "srrdb" (insertNumbers "t" [["1"]])] :=
  run_isolated _ ⟨otherTable_not_interferes, trivial⟩

end Concrete

end Srrdb.Server
