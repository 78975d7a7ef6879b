/-
Srrdb.Server.IndexKeys — which indexes share a storage key.

The catalog tells indexes apart by database, folded table name and index name
up to ASCII case; the storage knows them as `table:index`, folded and without
the database. Two keys are the same when both folded names are, or when a
colon inside a name can be read as the one between them (`Clash`). No
operation but CREATE INDEX gives two indexes one key, so a run of sections
keeps keys apart exactly when every index it registers clashes with none of
those before (`keysIdentify_run_iff`).
-/
import Srrdb.Engine.CatalogSteps
import Srrdb.Server.Reachable

namespace Srrdb.Server

open Srrdb.Engine Srrdb.Sql Srrdb.Lib

/-! ## Names behind a key -/

/-- The colon of the key `table:index` moved into the name of the other table. -/
def ColonShift (table index table' index' : String) : Prop :=
  ∃ mid, table' = table ++ ":" ++ mid ∧ index = mid ++ ":" ++ index'

/-- Two pairs of folded names with one key. -/
def Clash (table index table' index' : String) : Prop :=
  table = table' ∧ index = index' ∨ ColonShift table index table' index' ∨
    ColonShift table' index' table index

theorem append_colon_eq_iff {t i t' i' : List Char} :
    t ++ ':' :: i = t' ++ ':' :: i' ↔ t = t' ∧ i = i' ∨
      (∃ mid, t' = t ++ ':' :: mid ∧ i = mid ++ ':' :: i') ∨
      ∃ mid, t = t' ++ ':' :: mid ∧ i' = mid ++ ':' :: i := by
  induction t generalizing t' with
  | nil =>
    cases t' with
    | nil => simp
    | cons c t' => simp [eq_comm, and_assoc]
  | cons c t ih =>
    cases t' with
    | nil => simp [eq_comm, and_assoc]
    | cons c' t' =>
      by_cases hc : c = c'
      · subst hc
        simp [ih]
      · simp [hc, Ne.symm hc]

theorem indexKey_eq_iff {t i t' i' : String} :
    indexKey t i = indexKey t' i' ↔ Clash t i t' i' := by
  have hstr : ∀ a b : String, a = b ↔ a.toList = b.toList := fun a b =>
    ⟨congrArg String.toList, String.toList_inj.mp⟩
  have hshift : ∀ a b c d : String, ColonShift a b c d ↔
      ∃ mid, c.toList = a.toList ++ ':' :: mid ∧ b.toList = mid ++ ':' :: d.toList := by
    intro a b c d
    constructor
    · rintro ⟨mid, rfl, rfl⟩
      exact ⟨mid.toList, by simp, by simp⟩
    · rintro ⟨mid, hc, hb⟩
      exact ⟨String.ofList mid, (hstr _ _).mpr (by simp [hc]), (hstr _ _).mpr (by simp [hb])⟩
  rw [Clash, hshift, hshift, hstr t, hstr i, hstr (indexKey t i), ← append_colon_eq_iff]
  simp [indexKey]

theorem eqIgnoreAsciiCase_comm (a b : String) : eqIgnoreAsciiCase a b = eqIgnoreAsciiCase b a :=
  BEq.comm

theorem eqIgnoreAsciiCase_self (a : String) : eqIgnoreAsciiCase a a = true := beq_self_eq_true _

section Theory

variable [Host]

/-- The storage keys of two indexes are the same when their folded names clash. -/
theorem storageKey_eq_iff {t i t' i' : String} :
    storageKey t i = storageKey t' i' ↔
      Clash (normalize t) (normalize i) (normalize t') (normalize i') :=
  indexKey_eq_iff

/-! ## Catalogs -/

/-- Different indexes of the catalog have different keys. -/
def KeysIdentify (c : Catalog) : Prop :=
  ∀ db t idx db' t' idx', idx ∈ c.getTableIndexes db t → idx' ∈ c.getTableIndexes db' t' →
    storageKey t idx.name = storageKey t' idx'.name →
    SameName db db' ∧ SameName t t' ∧ eqIgnoreAsciiCase idx.name idx'.name = true

/-- The names of the index clash with those of no index of the catalog. -/
def Apart (c : Catalog) (indexDef : IndexDef) : Prop :=
  ∀ db t idx, idx ∈ c.getTableIndexes db t →
    ¬ Clash (normalize indexDef.tableName) (normalize indexDef.name) (normalize t)
      (normalize idx.name)

theorem KeysIdentify.mono {c c' : Catalog} (hwithin : IndexesWithin c c') (h : KeysIdentify c) :
    KeysIdentify c' :=
  fun db t idx db' t' idx' hidx hidx' =>
    h db t idx db' t' idx' (hwithin db t idx hidx) (hwithin db' t' idx' hidx')

theorem getTableIndexes_new (db t : String) : Catalog.new.getTableIndexes db t = [] := by
  unfold Catalog.getTableIndexes Catalog.getDatabase Catalog.new
  rw [Std.ExtTreeMap.getElem?_insert]
  split
  · simp [DatabaseDef.empty]
  · simp

theorem keysIdentify_new : KeysIdentify .new := by
  intro db t idx _ _ _ hidx
  rw [getTableIndexes_new] at hidx
  cases hidx

/-- CREATE INDEX keeps keys apart exactly when its names clash with no others. -/
theorem keysIdentify_createIndex_iff {c c' : Catalog} {db : String} {indexDef : IndexDef}
    (hc : KeysIdentify c) (h : c.createIndex db indexDef = .ok c') :
    KeysIdentify c' ↔ Apart c indexDef := by
  have hnew : indexDef ∈ c'.getTableIndexes db indexDef.tableName :=
    (mem_createIndex h).mpr (.inr ⟨rfl, rfl, rfl⟩)
  obtain ⟨-, -, -, -, hfree, -⟩ := Catalog.createIndex_ok h
  constructor
  · intro hc' db' t idx hidx hclash
    -- the catalog has checked that the name is free on this table of this database
    obtain ⟨hdb, ht, hname⟩ := hc' db _ _ db' t idx hnew ((mem_createIndex h).mpr (.inl hidx))
      (storageKey_eq_iff.mpr hclash)
    rw [← Catalog.getTableIndexes_sameName hdb ht] at hidx
    have hno := List.any_eq_false.mp hfree idx hidx
    rw [eqIgnoreAsciiCase_comm] at hno
    exact hno hname
  · intro hapart db₁ t₁ idx₁ db₂ t₂ idx₂ h₁ h₂ hkey
    rcases (mem_createIndex h).mp h₁ with h₁ | ⟨hdb₁, ht₁, rfl⟩ <;>
      rcases (mem_createIndex h).mp h₂ with h₂ | ⟨hdb₂, ht₂, rfl⟩
    · exact hc db₁ t₁ idx₁ db₂ t₂ idx₂ h₁ h₂ hkey
    · have hclash := storageKey_eq_iff.mp hkey.symm
      rw [← ht₂] at hclash
      exact absurd hclash (hapart db₁ t₁ idx₁ h₁)
    · have hclash := storageKey_eq_iff.mp hkey
      rw [← ht₁] at hclash
      exact absurd hclash (hapart db₂ t₂ idx₂ h₂)
    · exact ⟨hdb₁.symm.trans hdb₂, ht₁.symm.trans ht₂, eqIgnoreAsciiCase_self _⟩

/-- What a section does to a catalog that keeps keys apart. -/
theorem CatalogStep.keysIdentify_iff {c c' : Catalog} (hstep : CatalogStep c c')
    (hc : KeysIdentify c) :
    KeysIdentify c' ↔ ∀ db indexDef, c.createIndex db indexDef = .ok c' → Apart c indexDef := by
  constructor
  · intro hc' db indexDef h
    exact (keysIdentify_createIndex_iff hc h).mp hc'
  · intro hapart
    rcases hstep.registers with ⟨db, indexDef, h⟩ | hwithin
    · exact (keysIdentify_createIndex_iff hc h).mpr (hapart db indexDef h)
    · exact hc.mono hwithin

/-! ## Runs -/

variable [ExprDebug] [Bincode]

/-- If the section that is next registers an index, its names clash with those
of no index of the catalog. -/
def RegistersApart (p : Pool Executor (Outcome ExecuteResult)) (i : Nat) : Prop :=
  ∀ db indexDef, p.shared.catalog.value.createIndex db indexDef =
    .ok (p.step i).shared.catalog.value → Apart p.shared.catalog.value indexDef

/-- What a step of the catalog keeps under a condition holds all along a run
exactly when every section meets the condition. -/
theorem catalog_run_iff {I : Catalog → Prop}
    {P : Pool Executor (Outcome ExecuteResult) → Nat → Prop}
    (hkeeps : ∀ p i, CatalogStep p.shared.catalog.value (p.step i).shared.catalog.value →
      I p.shared.catalog.value → (I (p.step i).shared.catalog.value ↔ P p i))
    {e : Executor} (he : I e.catalog.value) (calls : List Call) (schedule : List Nat) :
    (∀ n, I (serve e calls (schedule.take n)).catalog.value) ↔
      Every Pool.step P ⟨calls.map Call.program, e⟩ schedule := by
  refine Every.iff_always (I := fun p : Pool Executor (Outcome ExecuteResult) =>
      I p.shared.catalog.value)
    (J := fun p => ∀ t ∈ p.threads, t.Steps CatalogStepped)
    (fun p i hp => (Pool.steps_step hp i).1) (fun p i hp hinv => ?_) (fun t ht => ?_) he
  · have hstep : CatalogStepped p.shared (p.step i).shared := by
      rcases (Pool.steps_step hp i).2 with hsame | hstep
      · rw [hsame]
        exact .drawn rfl
      · exact hstep
    exact hkeeps p i hstep hinv
  · obtain ⟨call, -, rfl⟩ := List.mem_map.mp ht
    exact execute_steps call.env call.db call.stmt

/-- Statements that run at the same time keep keys apart all along, exactly
when every index they register clashes with none of those before. -/
theorem keysIdentify_run_iff {e : Executor} (he : KeysIdentify e.catalog.value)
    (calls : List Call) (schedule : List Nat) :
    (∀ n, KeysIdentify (serve e calls (schedule.take n)).catalog.value) ↔
      Every Pool.step RegistersApart ⟨calls.map Call.program, e⟩ schedule :=
  catalog_run_iff (fun _ _ hstep hc => CatalogStep.keysIdentify_iff hstep hc) he calls schedule

end Theory

/-! ## On concrete runs -/

section Concrete

attribute [local instance] asciiHost plainDebug bincode1

/-- CREATE TABLE and CREATE INDEX. -/
def oneIndex : List Call :=
  [callIn "srrdb" (intTable "t" ["a"]), callIn "srrdb" (indexOn false "i" "t" ["a"])]

/-- The two at the same time on a fresh server. -/
theorem oneIndex_keysIdentify_iff :
    (∀ n, KeysIdentify (serve (.ofMemory .new none) oneIndex
        ([0, 1, 0, 1, 1, 1, 1, 1, 1].take n)).catalog.value) ↔
      Every Pool.step RegistersApart ⟨oneIndex.map Call.program, .ofMemory .new none⟩
        [0, 1, 0, 1, 1, 1, 1, 1, 1] :=
  keysIdentify_run_iff (e := .ofMemory .new none) keysIdentify_new oneIndex
    [0, 1, 0, 1, 1, 1, 1, 1, 1]

/-- The same table with the same index in two databases. -/
def twinIndexes : Executor :=
  [callIn "srrdb" (intTable "t" ["a"]), callIn "srrdb" (indexOn false "i" "t" ["a"]),
    callIn "srrdb" (.createDatabase ["d"] false), callIn "d" (intTable "t" ["a"]),
    callIn "d" (indexOn false "i" "t" ["a"])].foldl Executor.after (.ofMemory .new none)

/-- The two have the key `t:i`. -/
theorem twinIndexes_share_key :
    Reachable twinIndexes ∧ ¬ KeysIdentify twinIndexes.catalog.value := by
  refine ⟨((((Reachable.fresh none).after _).after _).after _ |>.after _).after _, fun h => ?_⟩
  have hmain : (⟨"i", .bTree, "t", ["a"], false⟩ : IndexDef) ∈
      twinIndexes.catalog.value.getTableIndexes "srrdb" "t" := by decide +kernel
  have hother : (⟨"i", .bTree, "t", ["a"], false⟩ : IndexDef) ∈
      twinIndexes.catalog.value.getTableIndexes "d" "t" := by decide +kernel
  have hsame := (h _ _ _ _ _ _ hmain hother rfl).1
  revert hsame
  decide

end Concrete

end Srrdb.Server
