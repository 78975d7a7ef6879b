/-
Srrdb.Server.UniqueIndexes — when UNIQUE holds of the stored rows.

The engine looks for duplicates once, while CREATE UNIQUE INDEX builds, and
leaves the index registered when it finds one. INSERT and UPDATE never look.
`UniqueEnforced` is what a unique index is for; `AddsNoDuplicate` says of a
statement and the state before it that the statement brings no duplicate, which
keeps it.
-/
import Srrdb.Server.Contents
import Srrdb.Server.LogOrder

namespace Srrdb.Server

open Srrdb.Engine Srrdb.Sql Srrdb.Lib

section Theory

variable [Host]

/-! ## Distinct keys -/

/-- Two rows whose keys are the same have a NULL in them. -/
def KeysDiffer (columns : List Column) (idx : IndexDef) (values values' : List Value) : Prop :=
  buildKey columns idx.columns values = buildKey columns idx.columns values' →
    Value.null ∈ buildKey columns idx.columns values

/-- No two rows have the same key without a NULL. -/
def DistinctKeys (columns : List Column) (idx : IndexDef) (rows : List (List Value)) : Prop :=
  rows.Pairwise (KeysDiffer columns idx)

/-- New rows bring no key twice, and none that an old row has. -/
def NewKeys (columns : List Column) (idx : IndexDef) (new old : List (List Value)) : Prop :=
  DistinctKeys columns idx new ∧ ∀ v ∈ new, ∀ v' ∈ old, KeysDiffer columns idx v v'

omit [Host] in
theorem KeysDiffer.symm {columns : List Column} {idx : IndexDef} {values values' : List Value}
    (h : KeysDiffer columns idx values values') : KeysDiffer columns idx values' values := by
  intro hsame
  rw [hsame]
  exact h hsame.symm

omit [Host] in
theorem DistinctKeys.perm {columns : List Column} {idx : IndexDef} {rows rows' : List (List Value)}
    (h : DistinctKeys columns idx rows) (hp : rows'.Perm rows) : DistinctKeys columns idx rows' :=
  (hp.pairwise_iff fun h => KeysDiffer.symm h).mpr h

omit [Host] in
theorem DistinctKeys.filter {columns : List Column} {idx : IndexDef} {t : Table}
    (h : DistinctKeys columns idx (tableValues t)) (keep : Row → Bool) :
    DistinctKeys columns idx ((t.rows.filter keep).map (·.values)) :=
  List.Pairwise.sublist (List.filter_sublist.map _) h

omit [Host] in
theorem NewKeys.distinct {columns : List Column} {idx : IndexDef} {new old : List (List Value)}
    (h : NewKeys columns idx new old) (hold : DistinctKeys columns idx old) :
    DistinctKeys columns idx (new ++ old) :=
  List.pairwise_append.mpr ⟨h.1, hold, h.2⟩

/-! ## The invariant -/

/-- The unique indexes over the tables of a name, in any database. -/
def ForUnique (c : Catalog) (name : String) (P : List Column → IndexDef → Prop) : Prop :=
  ∀ db tableDef, c.findTable db name = some tableDef →
    ∀ idx ∈ c.getTableIndexes db name, idx.unique = true → P tableDef.columns idx

/-- Unique indexes hold in a catalog and tables. -/
def UniqueIn (c : Catalog) (table : String → Table) : Prop :=
  ∀ name, ForUnique c name fun columns idx => DistinctKeys columns idx (tableValues (table name))

/-- No two rows of a table have the same key, without a NULL, in a unique
index registered on it. -/
def UniqueEnforced (e : Executor) : Prop := UniqueIn e.catalog.value e.storage.value.table

/-- It is enough to look at the tables listed. -/
theorem ForUnique.of_listing {c : Catalog} {name : String} {P : List Column → IndexDef → Prop}
    (h : ∀ t ∈ c.listing, t.1 = normalize name → ∀ idx ∈ t.2.2, idx.unique = true →
      P t.2.1.columns idx) : ForUnique c name P :=
  fun _ _ ht idx hidx hu => h _ (Catalog.mem_listing ht) rfl idx hidx hu

theorem ForUnique.sameName {c : Catalog} {name name' : String}
    {P : List Column → IndexDef → Prop} (h : ForUnique c name P) (hname : SameName name name') :
    ForUnique c name' P := by
  intro db tableDef ht idx hidx hu
  rw [← Catalog.findTable_sameName rfl hname] at ht
  rw [← Catalog.getTableIndexes_sameName rfl hname] at hidx
  exact h db tableDef ht idx hidx hu

/-- The statement, in this state, brings no row with a key of another one. CREATE
TABLE can only meet an index if one is left over in the catalog. -/
def AddsNoDuplicate [ExprDebug] (e : Executor) (call : Call) : Prop :=
  e.catalog.poisoned = false →
  match call.stmt with
  | .createTable ct => NameFree e.catalog.value call.db (nameToString ct.name) →
      ∀ idx ∈ e.catalog.value.getTableIndexes call.db (nameToString ct.name), idx.unique = true →
        DistinctKeys (createColumns (nameToString ct.name) ct.columns) idx
          (tableValues (e.storage.value.table (nameToString ct.name)))
  | .insert ins => e.storage.poisoned = false → ∀ tableDef rows filled last c,
      e.catalog.value.getTable call.db (tableObjectName ins.table) = .ok tableDef →
      sourceRows tableDef.columns ins.columns ins.source = .ok rows →
      fillRows call.env.now (tableObjectName ins.table) tableDef.columns 0 rows 0
        e.catalog.value = (.ok (filled, last), c) →
      ForUnique e.catalog.value (tableObjectName ins.table) fun columns idx =>
        NewKeys columns idx (filled.map (·.values))
          (tableValues (e.storage.value.table (tableObjectName ins.table)))
  | .update table assignments selection => e.storage.poisoned = false →
      ∀ tableDef assigns t rows,
      e.catalog.value.getTable call.db (tableFactorName table) = .ok tableDef →
      assignments.mapM (assignIndex tableDef.columns) = .ok assigns →
      e.storage.value.getTable? (tableFactorName table) = some t →
      selectRows tableDef.columns selection t.entries = .ok rows →
      ForUnique e.catalog.value (tableFactorName table) fun columns idx =>
        NewKeys columns idx (rows.map fun row => assignValues assigns row.values)
          ((t.rows.filter fun row => !selects tableDef.columns selection row).map (·.values))
  | .createIndex ci => indexColumns ci ≠ [] → ci.unique = true → ∀ c tableDef,
      e.catalog.value.createIndex call.db (newIndexDef (nameToString ci.tableName) ci) = .ok c →
      e.catalog.value.getTable call.db (nameToString ci.tableName) = .ok tableDef →
      DistinctKeys tableDef.columns (newIndexDef (nameToString ci.tableName) ci)
        (tableValues (e.storage.value.table (nameToString ci.tableName)))
  | _ => True

/-! ## One statement -/

variable [ExprDebug] [Bincode]

omit [ExprDebug] [Bincode] in
/-- Fewer tables and indexes, with the same rows. -/
theorem UniqueIn.of_indexes {c c' : Catalog} {table : String → Table} (h : UniqueIn c table)
    (htables : TablesWithin c c') (hindexes : IndexesWithin c c') : UniqueIn c' table := by
  intro name db tableDef ht idx hidx hu
  exact h name db tableDef (htables db name tableDef ht) idx (hindexes db name idx hidx) hu

omit [ExprDebug] [Bincode] in
theorem UniqueIn.of_databases {c c' : Catalog} {table : String → Table} (h : UniqueIn c table)
    (hd : c'.databases = c.databases) : UniqueIn c' table :=
  h.of_indexes (tablesWithin_congr hd) (indexesWithin_congr hd)

omit [ExprDebug] [Bincode] in
/-- The rows of one table replaced by rows with distinct keys. -/
theorem UniqueIn.replace {c : Catalog} {s : Storage} {tableName : String} {t : Table}
    (h : UniqueIn c s.table)
    (hnew : ForUnique c tableName fun columns idx => DistinctKeys columns idx (tableValues t)) :
    UniqueIn c (replaceTable s tableName t) := by
  intro name
  unfold replaceTable
  split
  · next hname => exact hnew.sameName hname
  · exact h name

omit [ExprDebug] [Bincode] in
/-- A table that was dropped takes its indexes with it. -/
theorem UniqueIn.dropTable {c c' : Catalog} {table : String → Table} {db tn : String}
    (h : UniqueIn c table) (hdropped : c.dropTable db tn = .ok c') : UniqueIn c' table :=
  h.of_indexes (tablesWithin_dropTable hdropped) (indexesWithin_dropTable hdropped)

omit [Bincode] in
/-- A statement that adds no duplicate leaves none behind. -/
theorem UniqueIn.after {e : Executor} (hcons : e.storage.value.Consistent) {call : Call}
    {c : Catalog} {table : String → Table} (h : UniqueEnforced e) (hadds : AddsNoDuplicate e call)
    (halters : Alters e call c table) : UniqueIn c table := by
  have h : UniqueIn e.catalog.value e.storage.value.table := h
  cases halters with
  | nothing => exact h
  | @createTable env db ct c hc hcreated =>
    intro name db' tableDef ht idx hidx hu
    rw [Catalog.getTableIndexes_createTable hcreated] at hidx
    rw [Catalog.findTable_createTable hcreated] at ht
    split at ht
    · next hsame =>
      cases ht
      rw [← Catalog.getTableIndexes_sameName hsame.1 hsame.2] at hidx
      rw [← Storage.table_sameName _ hsame.2]
      exact hadds hc (Catalog.createTable_isOk.mp ⟨c, hcreated⟩) idx hidx hu
    · exact h name db' tableDef ht idx hidx hu
  | dropTable hc hdropped hst =>
    refine (h.dropTable hdropped).replace fun db' tableDef ht idx hidx hu => ?_
    rw [tableValues_empty]
    exact .nil
  | dropTableOnly hc hdropped hst => exact h.dropTable hdropped
  | insert hc ht hs hf hst =>
    obtain ⟨-, rfl, -⟩ := fillRows_eq_ok hf
    refine UniqueIn.of_databases (h.replace fun db' tableDef' ht' idx hidx hu => ?_)
      (Catalog.draw_databases _)
    have hnew := hadds hc hst _ _ _ _ _ ht hs hf db' tableDef' ht' idx hidx hu
    exact (hnew.distinct (h _ db' tableDef' ht' idx hidx hu)).perm
      (tableValues_insert hcons hs hf)
  | insertFails hc ht hs => exact h.of_databases (fillRows_databases _ _ _ _ _ _ _)
  | delete hc ht hget hsel hst =>
    refine h.replace fun db' tableDef' ht' idx hidx hu => ?_
    have hold := h _ db' tableDef' ht' idx hidx hu
    rw [Storage.table_of_getTable? hget] at hold
    exact (hold.filter _).perm (tableValues_delete (hcons.keyed hget) hsel)
  | update hc ht ha hget hsel hst =>
    refine h.replace fun db' tableDef' ht' idx hidx hu => ?_
    have hold := h _ db' tableDef' ht' idx hidx hu
    rw [Storage.table_of_getTable? hget] at hold
    have hnew := hadds hc hst _ _ _ _ ht ha hget hsel db' tableDef' ht' idx hidx hu
    exact (hnew.distinct (hold.filter _)).perm
      (tableValues_update _ (hcons.keyed hget) hsel)
  | @createIndex env db ci c hc hcols hcreated =>
    intro name db' tableDef ht idx hidx hu
    rw [Catalog.findTable_createIndex hcreated] at ht
    rw [Catalog.getTableIndexes_createIndex hcreated] at hidx
    split at hidx
    · next hsame =>
      rw [← Catalog.findTable_sameName hsame.1 hsame.2] at ht
      rw [← Storage.table_sameName _ hsame.2]
      rcases List.mem_append.mp hidx with hidx | hidx
      · exact h _ db tableDef ht idx hidx hu
      · obtain rfl := List.mem_singleton.mp hidx
        exact hadds hc hcols hu c tableDef hcreated (Catalog.getTable_ok_iff.mpr ht)
    · exact h name db' tableDef ht idx hidx hu
  | dropIndex hc hdropped =>
    exact h.of_indexes (tablesWithin_dropIndex hdropped) (indexesWithin_dropIndex hdropped)
  | createDatabase hc =>
    exact h.of_indexes (tablesWithin_createDatabase _) (indexesWithin_createDatabase _)
  | dropDatabase hc hremoved =>
    exact h.of_indexes (tablesWithin_removeDatabase hremoved)
      (indexesWithin_removeDatabase hremoved)

/-! ## Runs -/

/-- In a run whose statements add no duplicate, unique indexes hold in every
state. -/
theorem unique_enforced {e : Executor} (he : Reachable e) (hu : UniqueEnforced e)
    {calls : List Call} (hrun : Every Executor.after AddsNoDuplicate e calls) :
    Every Executor.after (fun e call => UniqueEnforced (e.after call)) e calls := by
  have hstep : ∀ e call, Reachable e ∧ UniqueEnforced e → AddsNoDuplicate e call →
      UniqueEnforced (e.after call) := by
    intro e call ⟨he, hu⟩ hadds
    exact UniqueIn.after he.consistent hu hadds (after_alters e call)
  refine Every.of_invariant (fun e call hinv hadds => ?_) hstep ⟨he, hu⟩ hrun
  exact ⟨hinv.1.after call, hstep e call hinv hadds⟩

end Theory

/-! ## A duplicate and a run without one -/

section Concrete

attribute [local instance] asciiHost plainDebug bincode1

instance (columns : List Column) (idx : IndexDef) (values values' : List Value) :
    Decidable (KeysDiffer columns idx values values') :=
  inferInstanceAs (Decidable (_ → _))

instance (columns : List Column) (idx : IndexDef) (rows : List (List Value)) :
    Decidable (DistinctKeys columns idx rows) :=
  inferInstanceAs (Decidable (rows.Pairwise _))

instance (columns : List Column) (idx : IndexDef) (new old : List (List Value)) :
    Decidable (NewKeys columns idx new old) :=
  inferInstanceAs (Decidable (_ ∧ ∀ v ∈ new, ∀ v' ∈ old, _))

/-- The row `1` and a unique index `u` over it. -/
def uniqueRow : Executor := oneRow.after (callIn "srrdb" (indexOn true "u" "t" ["a"]))

/-- Two rows `1`, on which CREATE UNIQUE INDEX fails. -/
def twinRows : Executor := oneRow.after (callIn "srrdb" (insertNumbers "t" [["1"]]))

theorem uniqueRow_reachable : Reachable uniqueRow := oneRow_reachable.after _

/-- INSERT stores the row `1` again, and an index that could not be built stays
registered. -/
theorem uniqueRow_duplicated :
    Reachable uniqueRow ∧ Reachable twinRows ∧
      (callIn "srrdb" (insertNumbers "t" [["1"]])).result uniqueRow = .ok (.affected 1 0) ∧
      ¬ UniqueEnforced (uniqueRow.after (callIn "srrdb" (insertNumbers "t" [["1"]]))) ∧
      (callIn "srrdb" (indexOn true "u" "t" ["a"])).result twinRows =
        failed "Duplicate entry '1' for key 'u'" ∧
      ¬ UniqueEnforced (twinRows.after (callIn "srrdb" (indexOn true "u" "t" ["a"]))) := by
  refine ⟨uniqueRow_reachable, oneRow_reachable.after _, by decide +kernel, fun h => ?_,
    by decide +kernel, fun h => ?_⟩
  · have hkeys := h "t" "srrdb" ⟨"t", [.new "a" "t" .long]⟩ (by decide +kernel)
      ⟨"u", .bTree, "t", ["a"], true⟩ (by decide +kernel) rfl
    revert hkeys
    decide +kernel
  · have hkeys := h "t" "srrdb" ⟨"t", [.new "a" "t" .long]⟩ (by decide +kernel)
      ⟨"u", .bTree, "t", ["a"], true⟩ (by decide +kernel) rfl
    revert hkeys
    decide +kernel

/-- The statements of a run in which the index holds. -/
def distinctInserts : List Call :=
  [callIn "srrdb" (indexOn true "u" "t" ["a"]), callIn "srrdb" (insertNumbers "t" [["2"], ["3"]])]

theorem distinctInserts_add_no_duplicate :
    Every Executor.after AddsNoDuplicate oneRow distinctInserts := by
  refine ⟨fun _ _ _ c tableDef _ ht => ?_, fun _ _ tableDef rows filled last c ht hs hf => ?_, trivial⟩
  · have hdef : oneRow.catalog.value.getTable "srrdb" "t" = .ok ⟨"t", [.new "a" "t" .long]⟩ := by
      decide +kernel
    obtain rfl := Except.ok.inj (ht.symm.trans hdef)
    decide +kernel
  · have hdef : uniqueRow.catalog.value.getTable "srrdb" "t" =
        .ok ⟨"t", [.new "a" "t" .long]⟩ := by decide +kernel
    obtain rfl := Except.ok.inj (ht.symm.trans hdef)
    have hrows : sourceRows [.new "a" "t" .long] [] (some ⟨.values [[numberExpr "2"],
        [numberExpr "3"]], none, none, none⟩) = .ok [⟨0, [.int 2]⟩, ⟨0, [.int 3]⟩] := by
      decide +kernel
    obtain rfl := Except.ok.inj (hs.symm.trans hrows)
    have hfilled : (fillRows plainEnv.now "t" [.new "a" "t" .long] 0
        [⟨0, [.int 2]⟩, ⟨0, [.int 3]⟩] 0 uniqueRow.catalog.value).1 =
        .ok ([⟨0, [.int 2]⟩, ⟨0, [.int 3]⟩], 0) := by decide +kernel
    obtain ⟨rfl, rfl⟩ := Prod.mk.inj (Except.ok.inj ((congrArg Prod.fst hf).symm.trans hfilled))
    exact ForUnique.of_listing (by decide +kernel)

theorem oneRow_unique : UniqueEnforced oneRow := by
  intro name
  refine ForUnique.of_listing fun t ht _ idx hidx hu => ?_
  have hnone : ∀ t ∈ oneRow.catalog.value.listing, t.2.2 = [] := by decide +kernel
  rw [hnone t ht] at hidx
  cases hidx

theorem distinctInserts_unique :
    Every Executor.after (fun e call => UniqueEnforced (e.after call)) oneRow distinctInserts :=
  unique_enforced oneRow_reachable oneRow_unique distinctInserts_add_no_duplicate

end Concrete

end Srrdb.Server
