/-
Srrdb.Server.DropTable — what DROP TABLE does to the other tables.

The catalog and the rows are filed by the name of the table, and no other
entry is touched. Index data is found by the start of its key, `t:`, which the
key of another table may have too; index files are found by a start or a part
of their name. So another table of the database stays as it is exactly when no
index data of it has such a key and none of its files such a name, or is the
file of the dropped table (`dropsOnly_run_iff`).
-/
import Srrdb.Engine.SavedFiles
import Srrdb.Engine.StorageTheorems
import Srrdb.Lib.Run
import Srrdb.Server.Reachable

namespace Srrdb.Server

open Srrdb.Engine Srrdb.Sql Srrdb.Lib

section Theory

variable [Host]

/-! ## What belongs to a table -/

omit [Host] in
/-- The content of a file of the data directory, if there is one. -/
def fileAt (e : Executor) (path : FilePath) : Option (List UInt8) :=
  e.persistence.bind fun p => p.files[path]?

/-- A file of the table or of one of its indexes, below `tables/` or `indexes/`. -/
def IsFileOf (c : Catalog) (db tableName : String) (path : FilePath) : Prop :=
  (["tables"] <+: path ∨ indexDir <+: path) ∧
    (path = tablePath tableName ∨
      ∃ idx ∈ c.getTableIndexes db tableName, path = indexPath (storageKey tableName idx.name))

/-- All that belongs to a table is on the second server as on the first. -/
structure Undisturbed (e e' : Executor) (db tableName : String) : Prop where
  definition : e'.catalog.value.findTable db tableName = e.catalog.value.findTable db tableName
  indexes : e'.catalog.value.getTableIndexes db tableName =
    e.catalog.value.getTableIndexes db tableName
  sequence : e'.catalog.value.sequence tableName = e.catalog.value.sequence tableName
  rows : e'.storage.value.getTable? tableName = e.storage.value.getTable? tableName
  nextId : e'.storage.value.nextId tableName = e.storage.value.nextId tableName
  indexData : ∀ idx ∈ e.catalog.value.getTableIndexes db tableName,
    e'.storage.value.indexData[storageKey tableName idx.name]? =
      e.storage.value.indexData[storageKey tableName idx.name]?
  files : ∀ path, IsFileOf e.catalog.value db tableName path → fileAt e' path = fileAt e path

/-- DROP TABLE finds nothing of the second table when it looks for what
belongs to the first. -/
structure TellsApart (e : Executor) (db dropped tableName : String) : Prop where
  indexData : ∀ idx ∈ e.catalog.value.getTableIndexes db tableName,
    (e.storage.value.indexData[storageKey tableName idx.name]?).isSome = true →
    ¬ startsWith (storageKey tableName idx.name) (normalize dropped ++ ":") = true
  files : ∀ path, IsFileOf e.catalog.value db tableName path →
    (fileAt e path).isSome = true → path ≠ tablePath dropped ∧ ¬ IsRemoved (normalize dropped) path

/-! ## The sections of DROP TABLE -/

section Parts

variable {c c' : Catalog} {db dropped tableName : String}

/-- The catalog forgets one table and keeps the others. -/
theorem catalog_dropTable (h : c.dropTable db (toLowercase dropped) = .ok c')
    (hother : ¬ SameName dropped tableName) :
    c'.findTable db tableName = c.findTable db tableName ∧
      c'.getTableIndexes db tableName = c.getTableIndexes db tableName ∧
      c'.sequence tableName = c.sequence tableName := by
  have hfold : SameName (toLowercase dropped) dropped := normalize_toLowercase _
  have hdiff : ¬ SameName (toLowercase dropped) tableName := fun hs => hother (hfold.symm.trans hs)
  rw [Catalog.findTable_dropTable h, Catalog.getTableIndexes_dropTable h,
    Catalog.sequence_dropTable h, if_neg fun hs => hdiff hs.2, if_neg fun hs => hdiff hs.2,
    if_neg hdiff]
  exact ⟨rfl, rfl, rfl⟩

/-- The storage clears one table and keeps the rows of the others. -/
theorem rows_clearTable (s : Storage) (hother : ¬ SameName dropped tableName) :
    (s.clearTable (toLowercase dropped)).getTable? tableName = s.getTable? tableName ∧
      (s.clearTable (toLowercase dropped)).nextId tableName = s.nextId tableName := by
  have hfold : SameName (toLowercase dropped) dropped := normalize_toLowercase _
  have hdiff : ¬ SameName (toLowercase dropped) tableName := fun hs => hother (hfold.symm.trans hs)
  rw [Storage.nextId_clearTable, if_neg hdiff]
  refine ⟨?_, rfl⟩
  simp [Storage.getTable?, Storage.clearTable, Std.ExtTreeMap.getElem?_erase, hother]

/-- Index data stays exactly if it is not there or has another key. -/
theorem indexData_clearTable_iff (s : Storage) (key : String) :
    (s.clearTable (toLowercase dropped)).indexData[key]? = s.indexData[key]? ↔
      ((s.indexData[key]?).isSome = true → ¬ startsWith key (normalize dropped ++ ":") = true) := by
  rw [Storage.indexData_clearTable, normalize_toLowercase]
  split
  · next hstart => cases s.indexData[key]? <;> simp [hstart]
  · next hstart => exact iff_of_true rfl fun _ => hstart

variable [Bincode]

/-- A file stays exactly if it is not there or DROP TABLE does not take it for
one of its own. -/
theorem fileAt_dropTable_iff {e e₁ : Executor} (hfiles : e₁.persistence = e.persistence)
    {path : FilePath} (hpath : path ≠ catalogPath) :
    fileAt (dropTablePersist e₁ (toLowercase dropped)) path = fileAt e path ↔
      ((fileAt e path).isSome = true →
        path ≠ tablePath dropped ∧ ¬ IsRemoved (normalize dropped) path) := by
  have hfolded : toLowercase dropped = normalize dropped := rfl
  rw [fileAt, fileAt, dropTablePersist, Executor.persist_persistence, hfiles]
  cases e.persistence with
  | none => simp
  | some p =>
    rw [Option.map_some, Option.bind_some, Option.bind_some]
    by_cases hgone : IsRemoved (normalize dropped) path
    · rw [hfolded, files_removeIndexFiles_eq_none _ hgone]
      cases p.files[path]? <;> simp [hgone]
    · rw [hfolded, files_removeIndexFiles _ hgone, Persistence.saveCatalog,
        Persistence.files_write, if_neg hpath.symm, Persistence.removeTableData,
        Persistence.files_remove, ← hfolded, tablePath_toLowercase]
      split
      · next heq =>
        cases p.files[path]? <;> simp [heq]
      · next hne => exact iff_of_true rfl fun _ => ⟨Ne.symm hne, hgone⟩

omit [Bincode] in
theorem IsFileOf.ne_catalogPath {path : FilePath} (h : IsFileOf c db tableName path) :
    path ≠ catalogPath := by
  rintro rfl
  rcases h.1 with hdir | hdir
  · exact absurd (List.cons_prefix_cons.mp hdir).1 (by decide)
  · exact absurd (List.cons_prefix_cons.mp hdir).1 (by decide)

end Parts

/-! ## The law -/

variable [ExprDebug] [Bincode]

/-- DROP TABLE leaves every other table of the database as it is. -/
def DropsOnly (e : Executor) (call : Call) : Prop :=
  ∀ names ifExists tableName, call.stmt = .drop .table names ifExists →
    e.catalog.value.tableExists call.db (firstName names) = true →
    e.catalog.value.tableExists call.db tableName = true →
    ¬ SameName (firstName names) tableName → Undisturbed e (e.after call) call.db tableName

omit [ExprDebug] [Bincode] in
/-- If DROP TABLE goes through, it tells its table from every other one. -/
def DropsTold (e : Executor) (call : Call) : Prop :=
  ∀ names ifExists tableName, call.stmt = .drop .table names ifExists →
    e.catalog.value.tableExists call.db (firstName names) = true →
    e.catalog.value.tableExists call.db tableName = true →
    ¬ SameName (firstName names) tableName → e.catalog.poisoned = false →
    e.storage.poisoned = false → TellsApart e call.db (firstName names) tableName

variable {e : Executor} {db dropped tableName : String}

omit [ExprDebug] [Bincode] in
/-- What only the log sees touches no table. -/
theorem Undisturbed.of_append (env : Env) (entry : WalEntry) :
    Undisturbed e (e.append env entry) db tableName :=
  ⟨rfl, rfl, rfl, rfl, rfl, fun _ _ => rfl, fun _ _ => rfl⟩

omit [ExprDebug] in
/-- A DROP TABLE that goes through touches no other table exactly when it tells
them apart. -/
theorem undisturbed_dropped_iff {env : Env} {entry : WalEntry} {c : Catalog}
    (h : e.catalog.value.dropTable db (toLowercase dropped) = .ok c)
    (hother : ¬ SameName dropped tableName) :
    Undisturbed e (dropTablePersist (((e.append env entry).setCatalog c).setStorage
        (e.storage.value.clearTable (toLowercase dropped))) (toLowercase dropped)) db tableName ↔
      TellsApart e db dropped tableName := by
  obtain ⟨hdef, hindexes, hseq⟩ := catalog_dropTable h hother
  obtain ⟨hrows, hnext⟩ := rows_clearTable e.storage.value hother
  constructor
  · intro hun
    refine ⟨fun idx hidx => ?_, fun path hpath => ?_⟩
    · exact (indexData_clearTable_iff _ _).mp (hun.indexData idx hidx)
    · exact (fileAt_dropTable_iff (by rfl) hpath.ne_catalogPath).mp (hun.files path hpath)
  · intro hapart
    refine ⟨hdef, hindexes, hseq, hrows, hnext, fun idx hidx => ?_, fun path hpath => ?_⟩
    · exact (indexData_clearTable_iff _ _).mpr (hapart.indexData idx hidx)
    · exact (fileAt_dropTable_iff (by rfl) hpath.ne_catalogPath).mpr (hapart.files path hpath)

theorem undisturbed_iff {names : List ObjectName} {ifExists : Bool} (env : Env)
    (hexists : e.catalog.value.tableExists db (firstName names) = true)
    (hother : ¬ SameName (firstName names) tableName) :
    Undisturbed e (e.after ⟨env, db, .drop .table names ifExists⟩) db tableName ↔
      (e.catalog.poisoned = false → e.storage.poisoned = false →
        TellsApart e db (firstName names) tableName) := by
  have heffect := (Call.mk env db (.drop .table names ifExists)).effect e
  generalize (Call.mk env db (.drop .table names ifExists)).result e = r,
    e.after ⟨env, db, .drop .table names ifExists⟩ = e' at heffect ⊢
  cases heffect with
  | none _ hskip =>
    exact iff_of_true ⟨rfl, rfl, rfl, rfl, rfl, fun _ _ => rfl, fun _ _ => rfl⟩
      fun hc _ => absurd ⟨hc, hexists⟩ hskip
  | dropTable hout =>
    cases hout with
    | locked hc =>
      refine iff_of_true (.of_append env _) fun hc' => ?_
      rw [hc] at hc'
      cases hc'
    | rejected _ h =>
      refine iff_of_true (.of_append env _) fun _ _ => ?_
      have hmissing := Catalog.dropTable_rejected h
      rw [Catalog.tableExists_sameName rfl (normalize_toLowercase _), hexists] at hmissing
      cases hmissing
    | uncleared _ h hst =>
      obtain ⟨hdef, hindexes, hseq⟩ := catalog_dropTable h hother
      refine iff_of_true ⟨hdef, hindexes, hseq, rfl, rfl, fun _ _ => rfl, fun _ _ => rfl⟩
        fun _ hst' => ?_
      rw [hst] at hst'
      cases hst'
    | dropped hc h hst =>
      rw [undisturbed_dropped_iff h hother]
      exact ⟨fun hapart _ _ => hapart, fun hapart => hapart hc hst⟩

/-- In a run, every DROP TABLE leaves the other tables of its database as they
are exactly when each one that goes through tells them from its own. -/
theorem dropsOnly_run_iff (e : Executor) (calls : List Call) :
    Every Executor.after DropsOnly e calls ↔ Every Executor.after DropsTold e calls := by
  refine Every.congr fun e call => forall₃_congr fun names ifExists tableName => ?_
  obtain ⟨env, db, stmt⟩ := call
  refine forall₄_congr fun hstmt hexists _ hother => ?_
  obtain rfl : stmt = .drop .table names ifExists := hstmt
  exact undisturbed_iff env hexists hother

end Theory

/-! ## On a concrete server -/

section Concrete

attribute [local instance] asciiHost plainDebug bincode1

/-- Tables `a`, `ab` and `a:b` of one database, the last two with an index. -/
def similarNames : Executor :=
  [callIn "srrdb" (intTable "a" ["x"]), callIn "srrdb" (intTable "ab" ["x"]),
    callIn "srrdb" (intTable "a:b" ["x"]), callIn "srrdb" (indexOn false "i" "ab" ["x"]),
    callIn "srrdb" (indexOn false "i" "a:b" ["x"])].foldl Executor.after
      (.ofMemory .new (some .empty))

/-- `DROP TABLE a` removes the index file of `ab`, and of `a:b` also the index
data. -/
theorem similarNames_disturbed :
    Reachable similarNames ∧ ¬ DropsOnly similarNames (callIn "srrdb" (dropTableNamed "a")) ∧
      (similarNames.storage.value.indexData["a:b:i"]?).isSome = true ∧
      ((similarNames.after
        (callIn "srrdb" (dropTableNamed "a"))).storage.value.indexData["a:b:i"]?).isSome =
          false := by
  have hidx : (⟨"i", .bTree, "ab", ["x"], false⟩ : IndexDef) ∈
      similarNames.catalog.value.getTableIndexes "srrdb" "ab" := by decide +kernel
  have hpath : indexPath (storageKey "ab" "i") = ["indexes", "ab:i.idx"] := by decide +kernel
  have hbefore : (fileAt similarNames ["indexes", "ab:i.idx"]).isSome = true := by
    decide +kernel
  have hafter : (fileAt (similarNames.after (callIn "srrdb" (dropTableNamed "a")))
      ["indexes", "ab:i.idx"]).isSome = false := by decide +kernel
  refine ⟨.after (.after (.after (.after (.after (.fresh _) _) _) _) _) _, fun h => ?_,
    by decide +kernel, by decide +kernel⟩
  have hsame := (h [["a"]] false "ab" rfl (by decide +kernel) (by decide +kernel)
    (by decide +kernel)).files ["indexes", "ab:i.idx"]
    ⟨.inr ⟨["ab:i.idx"], rfl⟩, .inr ⟨_, hidx, hpath.symm⟩⟩
  rw [hsame, hbefore] at hafter
  cases hafter

end Concrete

end Srrdb.Server
