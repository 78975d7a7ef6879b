/-
Srrdb.Server.IndexNames — which table a DROP INDEX means.

DROP INDEX names no table: `find_index_table` takes the first table of the
database with an index of that name, in the iteration order of a hash map. The
order is of no consequence exactly when no two tables of one database have
indexes of one name (`orderFree_iff`). CREATE INDEX looks only at the table it
is given, so a run keeps the answer clear exactly when every index it
registers has a name that no table of its database has yet
(`unambiguous_run_iff`). For a replayed log it is the same
(`uniqueNames_replay_iff`).
-/
import Srrdb.Server.IndexKeys

namespace Srrdb.Server

open Srrdb.Engine Srrdb.Sql Srrdb.Lib

/-! ## Searching in any order -/

/-- If one element at most is looked for, the order of a list does not matter. -/
theorem find?_perm {α : Type} {l l' : List α} {p : α → Bool} (hperm : l.Perm l')
    (hone : ∀ a ∈ l, ∀ b ∈ l, p a = true → p b = true → a = b) : l.find? p = l'.find? p := by
  cases h : l.find? p with
  | none =>
    rw [List.find?_eq_none] at h
    exact (List.find?_eq_none.mpr fun a ha => h a (hperm.mem_iff.mpr ha)).symm
  | some a =>
    have ha := List.mem_of_find?_eq_some h
    have hpa := List.find?_some h
    cases h' : l'.find? p with
    | none => exact absurd hpa (List.find?_eq_none.mp h' a (hperm.mem_iff.mp ha))
    | some b =>
      have hb := hperm.mem_iff.mpr (List.mem_of_find?_eq_some h')
      rw [hone a ha b hb hpa (List.find?_some h')]

theorem hasIndex_iff {indexes : List IndexDef} {name : String} :
    hasIndex indexes name = true ↔ ∃ i ∈ indexes, eqIgnoreAsciiCase i.name name = true :=
  List.any_eq_true

theorem eqIgnoreAsciiCase_trans {a b c : String} (hab : eqIgnoreAsciiCase a b = true)
    (hbc : eqIgnoreAsciiCase b c = true) : eqIgnoreAsciiCase a c = true :=
  beq_iff_eq.mpr ((beq_iff_eq.mp hab).trans (beq_iff_eq.mp hbc))

section Theory

variable [Host] {c c' : Catalog} {db db' key : String} {idx : IndexDef}

/-! ## Indexes by the key of their table -/

/-- The indexes registered under a key of the hash map of a database. -/
def indexesAt (c : Catalog) (db key : String) : List IndexDef :=
  ((c.getDatabase db).bind fun d => d.indexes[key]?).getD []

theorem getTableIndexes_eq (c : Catalog) (db tableName : String) :
    c.getTableIndexes db tableName = indexesAt c db (normalize tableName) := rfl

theorem indexesAt_of_database {d : DatabaseDef} (hd : c.getDatabase db = some d) (key : String) :
    indexesAt c db key = d.indexes.getD key [] := by
  rw [indexesAt, hd, Option.bind_some, Std.ExtTreeMap.getD_eq_getD_getElem?]

theorem indexesAt_congr (h : c'.databases = c.databases) (db key : String) :
    indexesAt c' db key = indexesAt c db key := by
  rw [indexesAt, indexesAt, Catalog.getDatabase_congr h]

theorem indexesAt_setDatabase (d : DatabaseDef) :
    indexesAt (c.setDatabase db d) db' key =
      if SameName db db' then d.indexes.getD key [] else indexesAt c db' key := by
  unfold indexesAt
  rw [Catalog.getDatabase_setDatabase]
  split
  · rw [Option.bind_some, Std.ExtTreeMap.getD_eq_getD_getElem?]
  · rfl

/-- What a database that is written back adds. -/
theorem mem_indexesAt_setDatabase {d d' : DatabaseDef} (hd : c.getDatabase db = some d)
    {Added : Prop} (hadd : idx ∈ d'.indexes.getD key [] → idx ∈ d.indexes.getD key [] ∨ Added)
    (h : idx ∈ indexesAt (c.setDatabase db d') db' key) :
    idx ∈ indexesAt c db' key ∨ SameName db db' ∧ Added := by
  rw [indexesAt_setDatabase] at h
  split at h
  · next hdb =>
    rw [Catalog.getDatabase_sameName hdb] at hd
    rw [indexesAt_of_database hd]
    exact (hadd h).imp_right fun hadded => ⟨hdb, hadded⟩
  · exact .inl h

/-- The indexes under every key once another index is registered. -/
theorem mem_indexesAt_createIndex {indexDef : IndexDef} (h : c.createIndex db indexDef = .ok c') :
    idx ∈ indexesAt c' db' key ↔ idx ∈ indexesAt c db' key ∨
      SameName db db' ∧ key = normalize indexDef.tableName ∧ idx = indexDef := by
  obtain ⟨d, t, hd, -, -, rfl⟩ := Catalog.createIndex_ok h
  rw [getTableIndexes_eq, indexesAt_of_database hd]
  constructor
  · refine mem_indexesAt_setDatabase hd fun hidx => ?_
    rw [Std.ExtTreeMap.getD_insert] at hidx
    split at hidx
    · next heq =>
      obtain rfl := Std.LawfulEqOrd.eq_of_compare heq
      exact (List.mem_append.mp hidx).imp_right fun hnew => ⟨rfl, List.mem_singleton.mp hnew⟩
    · exact .inl hidx
  · intro hidx
    rw [indexesAt_setDatabase]
    split
    · next hdb =>
      have hd' : c.getDatabase db' = some d := (Catalog.getDatabase_sameName hdb) ▸ hd
      rw [indexesAt_of_database hd'] at hidx
      rw [Std.ExtTreeMap.getD_insert]
      split
      · next heq =>
        obtain rfl := Std.LawfulEqOrd.eq_of_compare heq
        exact List.mem_append.mpr (hidx.imp_right fun hnew => List.mem_singleton.mpr hnew.2.2)
      · next hne =>
        rcases hidx with hold | ⟨-, rfl, -⟩
        · exact hold
        · exact absurd Std.ReflCmp.compare_self hne
    · next hdb => exact hidx.resolve_right fun hnew => hdb hnew.1

/-- Every index of the second catalog is under the same key in the first. -/
def EntriesWithin (c c' : Catalog) : Prop :=
  ∀ db key idx, idx ∈ indexesAt c' db key → idx ∈ indexesAt c db key

theorem entriesWithin_setDatabase {d d' : DatabaseDef} (hd : c.getDatabase db = some d)
    (hkept : ∀ key idx, idx ∈ d'.indexes.getD key [] → idx ∈ d.indexes.getD key []) :
    EntriesWithin c (c.setDatabase db d') := by
  intro db' key idx hidx
  have hsplit : idx ∈ indexesAt c db' key ∨ SameName db db' ∧ False :=
    mem_indexesAt_setDatabase hd (fun h => .inl (hkept key idx h)) hidx
  exact hsplit.resolve_right And.right

/-- A step of the catalog registers an index, or it adds none under any key. -/
theorem CatalogStep.registersAt (h : CatalogStep c c') :
    (∃ db indexDef, c.createIndex db indexDef = .ok c') ∨ EntriesWithin c c' := by
  cases h with
  | drawn h =>
    refine .inr fun db key idx hidx => ?_
    rwa [indexesAt_congr h] at hidx
  | createTable h =>
    obtain ⟨d, hd, -, rfl⟩ := Catalog.createTable_ok h
    refine .inr (entriesWithin_setDatabase hd fun key idx hidx => ?_)
    rw [Std.ExtTreeMap.getD_insertIfNew] at hidx
    split at hidx
    · cases hidx
    · exact hidx
  | dropTable h =>
    obtain ⟨d, t, hd, -, rfl⟩ := Catalog.dropTable_ok h
    refine .inr (entriesWithin_setDatabase hd fun key idx hidx => ?_)
    rw [Std.ExtTreeMap.getD_erase] at hidx
    split at hidx
    · cases hidx
    · exact hidx
  | createIndex h => exact .inl ⟨_, _, h⟩
  | dropIndex h =>
    obtain ⟨d, pos, hd, -, rfl⟩ := Catalog.dropIndex_ok h
    refine .inr (entriesWithin_setDatabase hd fun key idx hidx => ?_)
    rw [getTableIndexes_eq, indexesAt_of_database hd, Std.ExtTreeMap.getD_insert] at hidx
    split at hidx
    · next heq =>
      obtain rfl := Std.LawfulEqOrd.eq_of_compare heq
      exact List.mem_of_mem_eraseIdx hidx
    · exact hidx
  | createDatabase name =>
    refine .inr fun db key idx hidx => ?_
    unfold indexesAt at hidx
    rw [Catalog.getDatabase_createDatabase] at hidx
    split at hidx
    · simp [DatabaseDef.empty] at hidx
    · exact hidx
  | removeDatabase h =>
    refine .inr fun db key idx hidx => ?_
    unfold indexesAt at hidx
    rw [Catalog.getDatabase_removeDatabase h] at hidx
    split at hidx
    · cases hidx
    · exact hidx

/-! ## Clear names -/

/-- No two tables of a database have indexes of one name. -/
def UniqueNames (c : Catalog) : Prop :=
  ∀ db name key key', hasIndex (indexesAt c db key) name = true →
    hasIndex (indexesAt c db key') name = true → key = key'

/-- The search for the table of an index does not depend on the iteration order. -/
def OrderFree (c : Catalog) : Prop :=
  ∀ env env' db name, findIndexTable env db name c = findIndexTable env' db name c

/-- An environment whose hash maps begin with one of their keys. -/
def startingAt (env : Env) (first : String) : Env :=
  { env with
    order := fun names => if first ∈ names then first :: names.erase first else names
    order_perm := fun names => by
      split
      · next h => exact (List.perm_cons_erase h).symm
      · exact .refl _ }

theorem findIndexTable_startingAt (env : Env) {name : String}
    (h : hasIndex (indexesAt c db key) name = true) :
    findIndexTable (startingAt env key) db name c = some key := by
  cases hd : c.getDatabase db with
  | none => simp [indexesAt, hd, hasIndex] at h
  | some d =>
    rw [indexesAt_of_database hd] at h
    have hkey : key ∈ d.indexes.keys := by
      rw [Std.ExtTreeMap.mem_keys]
      by_contra hout
      rw [Std.ExtTreeMap.getD_eq_fallback hout] at h
      cases h
    simp only [findIndexTable, hd, Option.bind_some, startingAt, if_pos hkey]
    exact List.find?_cons_of_pos h

/-- The order does not matter exactly when the names are unique. -/
theorem orderFree_iff (env : Env) : OrderFree c ↔ UniqueNames c := by
  constructor
  · intro hfree db name key key' h h'
    have hsame := hfree (startingAt env key) (startingAt env key') db name
    rw [findIndexTable_startingAt env h, findIndexTable_startingAt env h'] at hsame
    exact Option.some.inj hsame
  · intro huniq env env' db name
    unfold findIndexTable
    cases hd : c.getDatabase db with
    | none => rfl
    | some d =>
      refine find?_perm ((env.order_perm _).trans (env'.order_perm _).symm) ?_
      intro key _ key' _ h h'
      rw [← indexesAt_of_database hd] at h h'
      exact huniq db name key key' h h'

/-- At most one table of a database has an index of a name, and the search for
it finds the same one in every order. -/
def Unambiguous (c : Catalog) : Prop := UniqueNames c ∧ OrderFree c

theorem UniqueNames.mono (hwithin : EntriesWithin c c') (h : UniqueNames c) : UniqueNames c' := by
  have hback : ∀ db key name, hasIndex (indexesAt c' db key) name = true →
      hasIndex (indexesAt c db key) name = true := by
    intro db key name hname
    obtain ⟨i, hi, heq⟩ := hasIndex_iff.mp hname
    exact hasIndex_iff.mpr ⟨i, hwithin db key i hi, heq⟩
  exact fun db name key key' hkey hkey' =>
    h db name key key' (hback db key name hkey) (hback db key' name hkey')

/-- The name of the index is new to its database. -/
def NewName (c : Catalog) (db : String) (indexDef : IndexDef) : Prop :=
  ∀ key, hasIndex (indexesAt c db key) indexDef.name = false

/-- CREATE INDEX keeps the names unique exactly when its name is new to the
database, not only to the table. -/
theorem uniqueNames_createIndex_iff {indexDef : IndexDef} (hc : UniqueNames c)
    (h : c.createIndex db indexDef = .ok c') : UniqueNames c' ↔ NewName c db indexDef := by
  have hadded : hasIndex (indexesAt c' db (normalize indexDef.tableName)) indexDef.name = true :=
    hasIndex_iff.mpr ⟨indexDef, (mem_indexesAt_createIndex h).mpr (.inr ⟨rfl, rfl, rfl⟩),
      eqIgnoreAsciiCase_self _⟩
  obtain ⟨-, -, -, -, hfree, -⟩ := Catalog.createIndex_ok h
  constructor
  · intro hc' key
    by_contra hkey
    rw [Bool.not_eq_false] at hkey
    obtain ⟨i, hi, heq⟩ := hasIndex_iff.mp hkey
    -- the key is that of the table, on which the name was free
    obtain rfl := hc' db indexDef.name key _
      (hasIndex_iff.mpr ⟨i, (mem_indexesAt_createIndex h).mpr (.inl hi), heq⟩) hadded
    exact Bool.false_ne_true (hfree.symm.trans hkey)
  · intro hnew
    have hsplit : ∀ db' key name, hasIndex (indexesAt c' db' key) name = true →
        hasIndex (indexesAt c db' key) name = true ∨ SameName db db' ∧
          key = normalize indexDef.tableName ∧ eqIgnoreAsciiCase indexDef.name name = true := by
      intro db' key name hname
      obtain ⟨i, hi, heq⟩ := hasIndex_iff.mp hname
      rcases (mem_indexesAt_createIndex h).mp hi with hold | ⟨hdb, hkey, rfl⟩
      · exact .inl (hasIndex_iff.mpr ⟨i, hold, heq⟩)
      · exact .inr ⟨hdb, hkey, heq⟩
    have hclash : ∀ db' key name, SameName db db' → eqIgnoreAsciiCase indexDef.name name = true →
        ¬ hasIndex (indexesAt c db' key) name = true := by
      intro db' key name hdb heq hname
      obtain ⟨i, hi, hi'⟩ := hasIndex_iff.mp hname
      rw [eqIgnoreAsciiCase_comm] at heq
      have hold : hasIndex (indexesAt c db key) indexDef.name = true := by
        rw [indexesAt, Catalog.getDatabase_sameName hdb]
        exact hasIndex_iff.mpr ⟨i, hi, eqIgnoreAsciiCase_trans hi' heq⟩
      rw [hnew key] at hold
      cases hold
    intro db' name key key' hkey hkey'
    rcases hsplit db' key name hkey with hold | ⟨hdb, htable, heq⟩ <;>
      rcases hsplit db' key' name hkey' with hold' | ⟨hdb', htable', heq'⟩
    · exact hc db' name key key' hold hold'
    · exact absurd hold (hclash db' key name hdb' heq')
    · exact absurd hold' (hclash db' key' name hdb heq)
    · exact htable.trans htable'.symm

/-- What a step does to a catalog with unique names. -/
theorem CatalogStep.uniqueNames_iff (hstep : CatalogStep c c') (hc : UniqueNames c) :
    UniqueNames c' ↔ ∀ db indexDef, c.createIndex db indexDef = .ok c' → NewName c db indexDef := by
  constructor
  · intro hc' db indexDef h
    exact (uniqueNames_createIndex_iff hc h).mp hc'
  · intro hnew
    rcases CatalogStep.registersAt hstep with ⟨db, indexDef, h⟩ | hwithin
    · exact (uniqueNames_createIndex_iff hc h).mpr (hnew db indexDef h)
    · exact hc.mono hwithin

theorem indexesAt_new (db key : String) : indexesAt .new db key = [] := by
  unfold indexesAt Catalog.getDatabase Catalog.new
  rw [Std.ExtTreeMap.getElem?_insert]
  split
  · simp [DatabaseDef.empty]
  · simp

theorem uniqueNames_new : UniqueNames .new := by
  intro db name key _ hkey
  rw [indexesAt_new] at hkey
  cases hkey

/-! ## Replay -/

theorem applyEntry_catalogStep (m : Memory) (entry : WalEntry) :
    CatalogStep m.catalog (m.applyEntry entry).2.catalog := by
  have htry : ∀ r : Except String Catalog, (∀ c', r = .ok c' → CatalogStep m.catalog c') →
      CatalogStep m.catalog (m.tryCatalog r).2.catalog := by
    intro r hr
    cases r with
    | error msg => exact .drawn rfl
    | ok c' => exact hr c' rfl
  cases entry with
  | createTable tableName columns => exact htry _ fun _ h => .createTable h
  | dropTable tableName =>
    rw [Memory.applyEntry]
    split
    · next c' h => exact .dropTable h
    · exact .drawn rfl
  | insertRows tableName rows | tableSnapshot tableName rows | checkpoint => exact .drawn rfl
  | createIndex dbName indexDef => exact htry _ fun _ h => .createIndex h
  | dropIndex dbName indexName tableName => exact htry _ fun _ h => .dropIndex h

/-- A log keeps the names unique while it is replayed exactly when every index
it registers has a name that is new to its database. -/
theorem uniqueNames_replay_iff {m : Memory} (hm : UniqueNames m.catalog)
    (entries : List WalEntry) :
    (∀ n, UniqueNames (m.applyAll (entries.take n)).catalog) ↔
      Every (fun m entry => (m.applyEntry entry).2) (fun m entry => ∀ db indexDef,
        m.catalog.createIndex db indexDef = .ok (m.applyEntry entry).2.catalog →
          NewName m.catalog db indexDef) m entries :=
  Every.iff_always (I := fun m : Memory => UniqueNames m.catalog) (J := fun _ => True)
    (fun _ _ _ => trivial)
    (fun m entry _ hc => CatalogStep.uniqueNames_iff (applyEntry_catalogStep m entry) hc) trivial hm

/-! ## Runs -/

variable [ExprDebug] [Bincode]

/-- If the section that is next registers an index, its name is new to its database. -/
def RegistersNewName (p : Pool Executor (Outcome ExecuteResult)) (i : Nat) : Prop :=
  ∀ db indexDef, p.shared.catalog.value.createIndex db indexDef =
    .ok (p.step i).shared.catalog.value → NewName p.shared.catalog.value db indexDef

/-- Statements that run at the same time leave no DROP INDEX in doubt about its
table, at any time, exactly when every index they register has a name that is
new to its database. -/
theorem unambiguous_run_iff {e : Executor} (he : UniqueNames e.catalog.value) (calls : List Call)
    (schedule : List Nat) :
    (∀ n, Unambiguous (serve e calls (schedule.take n)).catalog.value) ↔
      Every Pool.step RegistersNewName ⟨calls.map Call.program, e⟩ schedule := by
  have hunique : (∀ n, Unambiguous (serve e calls (schedule.take n)).catalog.value) ↔
      ∀ n, UniqueNames (serve e calls (schedule.take n)).catalog.value :=
    forall_congr' fun n =>
      ⟨And.left, fun h => ⟨h, (orderFree_iff plainEnv).mpr h⟩⟩
  rw [hunique]
  exact catalog_run_iff (fun _ _ hstep hc => CatalogStep.uniqueNames_iff hstep hc) he calls schedule

end Theory

/-! ## On concrete runs -/

section Concrete

attribute [local instance] asciiHost plainDebug bincode1

/-- CREATE TABLE and CREATE INDEX at the same time on a fresh server. -/
theorem oneIndex_unambiguous_iff :
    (∀ n, Unambiguous (serve (.ofMemory .new none) oneIndex
        ([0, 1, 0, 1, 1, 1, 1, 1, 1].take n)).catalog.value) ↔
      Every Pool.step RegistersNewName ⟨oneIndex.map Call.program, .ofMemory .new none⟩
        [0, 1, 0, 1, 1, 1, 1, 1, 1] :=
  unambiguous_run_iff (e := .ofMemory .new none) uniqueNames_new oneIndex
    [0, 1, 0, 1, 1, 1, 1, 1, 1]

/-- Two tables of one database with an index `i` each. -/
def sharedName : Executor :=
  [callIn "srrdb" (intTable "t" ["a"]), callIn "srrdb" (intTable "u" ["a"]),
    callIn "srrdb" (indexOn false "i" "t" ["a"]),
    callIn "srrdb" (indexOn false "i" "u" ["a"])].foldl Executor.after (.ofMemory .new none)

/-- DROP INDEX i finds the one or the other. -/
theorem sharedName_ambiguous :
    Reachable sharedName ∧ ¬ Unambiguous sharedName.catalog.value ∧
      findIndexTable (startingAt plainEnv "t") "srrdb" "i" sharedName.catalog.value = some "t" ∧
      findIndexTable (startingAt plainEnv "u") "srrdb" "i" sharedName.catalog.value = some "u" := by
  have ht : hasIndex (indexesAt sharedName.catalog.value "srrdb" "t") "i" = true := by
    decide +kernel
  have hu : hasIndex (indexesAt sharedName.catalog.value "srrdb" "u") "i" = true := by
    decide +kernel
  refine ⟨(((Reachable.fresh none).after _).after _ |>.after _).after _, fun h => ?_,
    findIndexTable_startingAt plainEnv ht, findIndexTable_startingAt plainEnv hu⟩
  have hsame := h.1 _ _ _ _ ht hu
  revert hsame
  decide

end Concrete

end Srrdb.Server
