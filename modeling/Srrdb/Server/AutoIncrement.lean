/-
Srrdb.Server.AutoIncrement — when generated values are new.

`next_row_id` counts up from a number kept under the table name. Nothing moves
it past a value that an INSERT or UPDATE supplies, and a CREATE TABLE of that
name in any database sets it back to 1. The values it hands out are new as long
as every integer in an AUTO_INCREMENT column is below it (`CounterAhead`);
`KeepsCounterAhead` says which statements keep that.
-/
import Srrdb.Server.Contents
import Srrdb.Server.LogOrder

namespace Srrdb.Server

open Srrdb.Engine Srrdb.Sql Srrdb.Lib

section Theory

variable [Host]

/-! ## The invariant -/

omit [Host] in
/-- The integers in the AUTO_INCREMENT columns of some rows are below `k`. -/
def BelowIn (columns : List Column) (k : Nat) (rows : List (List Value)) : Prop :=
  ∀ (j : Nat) (col : Column), columns[j]? = some col → col.autoIncrement = true →
    ∀ values ∈ rows, ∀ n, values[j]? = some (.int n) → n.toInt < k

/-- The rows of every table are below the counter of its name. -/
def AheadIn (c : Catalog) (table : String → Table) : Prop :=
  ∀ db name tableDef, c.findTable db name = some tableDef →
    BelowIn tableDef.columns (c.sequence name) (tableValues (table name))

/-- Every counter is ahead of what is stored. -/
def CounterAhead (e : Executor) : Prop := AheadIn e.catalog.value e.storage.value.table

/-- An integer that a row supplies for an AUTO_INCREMENT column is below the
counter as it stands when the loop comes to the row, `k` at the first one. -/
def SuppliesBelow (columns : List Column) (k : Nat) (rows : List Row) : Prop :=
  ∀ before row after, rows = before ++ row :: after →
    BelowIn columns (k + drawnRows columns before) [row.values]

omit [Host] in
theorem BelowIn.nil (columns : List Column) (k : Nat) : BelowIn columns k [] :=
  fun _ _ _ _ _ hv => by cases hv

omit [Host] in
theorem BelowIn.mono {columns : List Column} {k k' : Nat} {rows : List (List Value)}
    (h : BelowIn columns k rows) (hk : k ≤ k') : BelowIn columns k' rows := by
  intro j col hj hauto values hv n hn
  have := h j col hj hauto values hv n hn
  omega

omit [Host] in
theorem BelowIn.subset {columns : List Column} {k : Nat} {rows rows' : List (List Value)}
    (h : BelowIn columns k rows) (hsub : ∀ values ∈ rows', values ∈ rows) :
    BelowIn columns k rows' :=
  fun j col hj hauto values hv => h j col hj hauto values (hsub values hv)

omit [Host] in
theorem BelowIn.filter {columns : List Column} {k : Nat} {t : Table}
    (h : BelowIn columns k (tableValues t)) (keep : Row → Bool) :
    BelowIn columns k ((t.rows.filter keep).map (·.values)) :=
  h.subset fun _ hv => (List.filter_sublist.map _).mem hv

omit [Host] in
theorem BelowIn.append {columns : List Column} {k : Nat} {rows rows' : List (List Value)}
    (h : BelowIn columns k rows) (h' : BelowIn columns k rows') :
    BelowIn columns k (rows ++ rows') := by
  intro j col hj hauto values hv
  rcases List.mem_append.mp hv with hv | hv
  · exact h j col hj hauto values hv
  · exact h' j col hj hauto values hv

omit [Host] in
theorem SuppliesBelow.tail {columns : List Column} {k : Nat} {row : Row} {rows : List Row}
    (h : SuppliesBelow columns k (row :: rows)) :
    SuppliesBelow columns (k + drawnValues columns row.values) rows := by
  intro before row' after heq
  have hrow := h (row :: before) row' after (by rw [heq]; rfl)
  have hsum : k + drawnRows columns (row :: before) =
      k + drawnValues columns row.values + drawnRows columns before := by
    simp [drawnRows, Nat.add_assoc]
  rwa [hsum] at hrow

/-! ## What the row loop generates -/

/-- Every value generated for an AUTO_INCREMENT column differs from the values
in that column of `seen` and of the rows filled before. -/
def Fresh (columns : List Column) (seen : List (List Value)) (rows filled : List Row) : Prop :=
  ∀ (k : Nat) (row row' : Row), rows[k]? = some row → filled[k]? = some row' →
    ∀ (j : Nat) (col : Column), columns[j]? = some col → col.autoIncrement = true →
      row.values[j]? = some .null →
        ∀ values ∈ seen ++ (filled.take k).map (·.values), values[j]? ≠ row'.values[j]?

omit [Host] in
/-- One filled row, over rows below the counter. -/
theorem BelowIn.filled {columns : List Column} {lo hi : Nat} {seen : List (List Value)}
    {values values' : List Value} (hseen : BelowIn columns lo seen)
    (hsupplied : BelowIn columns lo [values]) (hle : lo ≤ hi) (hbound : hi ≤ 2 ^ 63)
    (hfilled : ∀ (j : Nat) (col : Column), columns[j]? = some col → col.autoIncrement = true →
      KeptOrDrawn lo hi values[j]? values'[j]?) :
    BelowIn columns hi (seen ++ [values']) ∧
      ∀ (j : Nat) (col : Column), columns[j]? = some col → col.autoIncrement = true →
        values[j]? = some .null → ∀ old ∈ seen, old[j]? ≠ values'[j]? := by
  refine ⟨(hseen.mono hle).append ?_, ?_⟩
  · intro j col hj hauto old hold n hn
    obtain rfl := List.mem_singleton.mp hold
    rcases hfilled j col hj hauto with ⟨-, hkept⟩ | ⟨-, id, hid, hid', hdrawn⟩
    · have hlt := hsupplied j col hj hauto values List.mem_cons_self n (hkept ▸ hn)
      omega
    · rw [hn] at hdrawn
      cases hdrawn
      rw [Int64.toInt_ofNat_of_lt (by omega)]
      omega
  · intro j col hj hauto hnull old hold heq
    rcases hfilled j col hj hauto with ⟨hne, -⟩ | ⟨-, id, hid, hid', hdrawn⟩
    · exact hne hnull
    · have hlt := hseen j col hj hauto old hold _ (heq.trans hdrawn)
      rw [Int64.toInt_ofNat_of_lt (by omega)] at hlt
      omega

/-- The row loop generates new values, and the counter stays ahead. -/
theorem fillRows_fresh {now : Nat → Nat → Nat} {tableName : String} {columns : List Column} :
    ∀ {rows filled : List Row} {i last last' : Nat} {c c' : Catalog} {seen : List (List Value)},
      BelowIn columns (c.sequence tableName) seen →
      SuppliesBelow columns (c.sequence tableName) rows →
      c.sequence tableName + drawnRows columns rows ≤ 2 ^ 63 →
      fillRows now tableName columns i rows last c = (.ok (filled, last'), c') →
      BelowIn columns (c'.sequence tableName) (seen ++ filled.map (·.values)) ∧
        Fresh columns seen rows filled
  | [], filled, i, last, last', c, c', seen, hseen, hsup, hbound, h => by
    cases h
    exact ⟨by simpa using hseen, fun k row row' hk => by simp at hk⟩
  | row :: rows, filled, i, last, last', c, c', seen, hseen, hsup, hbound, h => by
    have hsum : drawnRows columns (row :: rows) =
        drawnValues columns row.values + drawnRows columns rows := by simp [drawnRows]
    rw [fillRows] at h
    rcases hv : fillValues (now i) tableName 0 columns row.values last c with
      ⟨_ | ⟨values, last₁⟩, c₁⟩
    · rw [hv] at h
      cases h
    rw [hv] at h
    simp only at h
    rcases hr : fillRows now tableName columns (i + 1) rows last₁ c₁ with
      ⟨_ | ⟨rest, last₂⟩, c₂⟩
    · rw [hr] at h
      cases h
    rw [hr] at h
    cases h
    have hseq := fillValues_sequence hv
    obtain ⟨hle, -, hcols⟩ := fillValues_completed (now i) tableName hv
    have hrow : BelowIn columns (c.sequence tableName) [row.values] :=
      hsup [] row rows rfl
    have hfilled : ∀ (j : Nat) (col : Column), columns[j]? = some col → col.autoIncrement = true →
        KeptOrDrawn (c.sequence tableName) (c₁.sequence tableName) row.values[j]? values[j]? := by
      intro j col hj hauto
      have hat := (hcols j col hj).keptOrDrawn hauto
      rwa [Nat.zero_add] at hat
    obtain ⟨hbelow, hnew⟩ := hseen.filled hrow hle (by omega) hfilled
    have htail := hsup.tail
    rw [← hseq] at htail
    obtain ⟨hall, hfresh⟩ := fillRows_fresh hbelow htail (by omega) hr
    refine ⟨?_, ?_⟩
    · rw [List.map_cons]
      simpa using hall
    · intro k row₁ row' hk hk' j col hj hauto hnull old hold
      cases k with
      | zero =>
        cases hk
        cases hk'
        refine hnew j col hj hauto hnull old ?_
        simpa using hold
      | succ k =>
        refine hfresh k row₁ row' hk hk' j col hj hauto hnull old ?_
        simpa using hold

/-! ## Statements -/

/-- Every value an INSERT generates for an AUTO_INCREMENT column differs from
those stored in the column and from those of the rows before it. -/
def GeneratesFresh [ExprDebug] (e : Executor) (call : Call) : Prop :=
  e.catalog.poisoned = false →
  match call.stmt with
  | .insert ins => ∀ tableDef rows filled last c,
      e.catalog.value.getTable call.db (tableObjectName ins.table) = .ok tableDef →
      sourceRows tableDef.columns ins.columns ins.source = .ok rows →
      fillRows call.env.now (tableObjectName ins.table) tableDef.columns 0 rows 0
        e.catalog.value = (.ok (filled, last), c) →
      Fresh tableDef.columns (tableValues (e.storage.value.table (tableObjectName ins.table)))
        rows filled
  | _ => True

/-- All definitions of a table of this name, in any database. -/
def ForTables (c : Catalog) (name : String) (P : String → List Column → Prop) : Prop :=
  ∀ db tableDef, c.findTable db name = some tableDef → P db tableDef.columns

/-- The statement, in this state, puts no integer at or above its counter into
an AUTO_INCREMENT column, and sets no counter back below one. The other tables
of the same name, in other databases, have the same rows and the same counter. -/
def KeepsCounterAhead [ExprDebug] (e : Executor) (call : Call) : Prop :=
  e.catalog.poisoned = false →
  let c := e.catalog.value
  let s := e.storage.value
  match call.stmt with
  | .createTable ct =>
      let name := nameToString ct.name
      NameFree c call.db name →
        BelowIn (createColumns name ct.columns) 1 (tableValues (s.table name)) ∧
        ForTables c name fun _ columns => BelowIn columns 1 (tableValues (s.table name))
  | .drop .table names _ =>
      let name := firstName names
      c.tableExists call.db name = true → e.storage.poisoned = true → ForTables c name
        fun db columns => ¬ SameName call.db db → BelowIn columns 1 (tableValues (s.table name))
  | .insert ins =>
      let name := tableObjectName ins.table
      ∀ tableDef rows, c.getTable call.db name = .ok tableDef →
        sourceRows tableDef.columns ins.columns ins.source = .ok rows →
        c.sequence name + drawnRows tableDef.columns rows ≤ 2 ^ 63 ∧
        SuppliesBelow tableDef.columns (c.sequence name) rows ∧
        ∀ filled last c', fillRows call.env.now name tableDef.columns 0 rows 0 c =
            (.ok (filled, last), c') → e.storage.poisoned = false →
          ForTables c name fun db columns => ¬ SameName call.db db →
            BelowIn columns (c'.sequence name) (filled.map (·.values))
  | .update table assignments selection =>
      let name := tableFactorName table
      e.storage.poisoned = false → ∀ tableDef assigns t rows,
        c.getTable call.db name = .ok tableDef →
        assignments.mapM (assignIndex tableDef.columns) = .ok assigns →
        s.getTable? name = some t → selectRows tableDef.columns selection t.entries = .ok rows →
        ForTables c name fun _ columns => BelowIn columns (c.sequence name)
          (rows.map fun row => assignValues assigns row.values)
  | _ => True

/-! ## One statement -/

variable [ExprDebug]

omit [ExprDebug] in
/-- Fewer tables, and counters that have not moved back. -/
theorem AheadIn.of_tables {c c' : Catalog} {table : String → Table} (h : AheadIn c table)
    (hwithin : TablesWithin c c') (hseq : ∀ name, c.sequence name ≤ c'.sequence name) :
    AheadIn c' table :=
  fun db name tableDef ht => (h db name tableDef (hwithin db name tableDef ht)).mono (hseq name)

omit [ExprDebug] in
theorem AheadIn.draw {c : Catalog} {table : String → Table} (h : AheadIn c table)
    (tableName : String) (n : Nat) : AheadIn (c.draw tableName n) table := by
  refine h.of_tables (tablesWithin_congr (Catalog.draw_databases n)) fun name => ?_
  rw [Catalog.sequence_draw]
  split <;> omega

omit [ExprDebug] in
/-- The rows of one table replaced by rows that are below the counter. -/
theorem AheadIn.replace {c : Catalog} {s : Storage} {tableName : String} {t : Table}
    (h : AheadIn c s.table)
    (hnew : ForTables c tableName fun _ columns =>
      BelowIn columns (c.sequence tableName) (tableValues t)) :
    AheadIn c (replaceTable s tableName t) := by
  intro db name tableDef ht
  unfold replaceTable
  split
  · next hname =>
    rw [← Catalog.findTable_sameName rfl hname] at ht
    rw [← Catalog.sequence_sameName hname]
    exact hnew db tableDef ht
  · exact h db name tableDef ht

theorem AheadIn.after {e : Executor} (hcons : e.storage.value.Consistent) {call : Call}
    {c : Catalog} {table : String → Table} (h : CounterAhead e) (hkeeps : KeepsCounterAhead e call)
    (halters : Alters e call c table) : AheadIn c table := by
  have h : AheadIn e.catalog.value e.storage.value.table := h
  cases halters with
  | nothing => exact h
  | @createTable env db ct c hc hcreated =>
    obtain ⟨hown, hothers⟩ := hkeeps hc (Catalog.createTable_isOk.mp ⟨c, hcreated⟩)
    intro db' name tableDef ht
    rw [Catalog.findTable_createTable hcreated] at ht
    rw [Catalog.sequence_createTable hcreated]
    by_cases hname : SameName (nameToString ct.name) name
    · rw [if_pos hname, ← Storage.table_sameName _ hname]
      split at ht
      · cases ht
        exact hown
      · rw [← Catalog.findTable_sameName rfl hname] at ht
        exact hothers db' tableDef ht
    · rw [if_neg fun hsame => hname hsame.2] at ht
      rw [if_neg hname]
      exact h db' name tableDef ht
  | @dropTable env db names ifExists c hc hdropped hst =>
    intro db' name tableDef ht
    rw [Catalog.findTable_dropTable hdropped] at ht
    rw [Catalog.sequence_dropTable hdropped]
    unfold replaceTable
    simp only [SameName, normalize_toLowercase] at ht ⊢
    split at ht
    · cases ht
    · split
      · rw [tableValues_empty]
        exact .nil _ _
      · exact h db' name tableDef ht
  | @dropTableOnly env db names ifExists c hc hdropped hst =>
    have hexists := tableExists_of_dropTable hdropped
    intro db' name tableDef ht
    rw [Catalog.findTable_dropTable hdropped] at ht
    rw [Catalog.sequence_dropTable hdropped]
    simp only [SameName, normalize_toLowercase] at ht ⊢
    split at ht
    · cases ht
    · next hother =>
      split
      · next hname =>
        rw [← Catalog.findTable_sameName rfl hname] at ht
        rw [← Storage.table_sameName _ hname]
        exact hkeeps hc hexists hst db' tableDef ht fun hdb => hother ⟨hdb, hname⟩
      · exact h db' name tableDef ht
  | @insert env db ins tableDef rows filled last c hc ht hs hf hst =>
    obtain ⟨hbound, hsup, hothers⟩ := hkeeps hc _ _ ht hs
    have hseen := h db _ tableDef (Catalog.getTable_ok_iff.mp ht)
    obtain ⟨hown, -⟩ := fillRows_fresh hseen hsup hbound hf
    have hperm := tableValues_insert hcons hs hf
    obtain ⟨-, hdraw, -⟩ := fillRows_eq_ok hf
    have hahead : AheadIn c e.storage.value.table := hdraw ▸ h.draw _ _
    refine hahead.replace fun db' tableDef' ht' => ?_
    have hold := hahead db' _ tableDef' ht'
    have hfilled : BelowIn tableDef'.columns (c.sequence (tableObjectName ins.table))
        (filled.map (·.values)) := by
      rw [hdraw, Catalog.findTable_congr (Catalog.draw_databases _)] at ht'
      by_cases hdb : SameName db db'
      · rw [← Catalog.findTable_sameName hdb rfl, Catalog.getTable_ok_iff.mp ht] at ht'
        cases ht'
        exact hown.subset fun values hv => List.mem_append_right _ hv
      · exact hothers filled last c hf hst db' tableDef' ht' hdb
    exact (hfilled.append hold).subset fun values hv => hperm.mem_iff.mp hv
  | insertFails hc ht hs =>
    obtain ⟨n, -, hdrawn⟩ := fillRows_draws _ _ _ _ _ _ _
    rw [hdrawn]
    exact h.draw _ n
  | delete hc ht hget hsel hst =>
    refine h.replace fun db' tableDef' ht' => ?_
    have hold := h db' _ tableDef' ht'
    rw [Storage.table_of_getTable? hget] at hold
    exact (hold.filter _).subset fun values hv =>
      (tableValues_delete (hcons.keyed hget) hsel).mem_iff.mp hv
  | update hc ht ha hget hsel hst =>
    refine h.replace fun db' tableDef' ht' => ?_
    have hold := h db' _ tableDef' ht'
    rw [Storage.table_of_getTable? hget] at hold
    have hnew := hkeeps hc hst _ _ _ _ ht ha hget hsel db' tableDef' ht'
    exact (BelowIn.append hnew (hold.filter _)).subset fun values hv =>
      (tableValues_update _ (hcons.keyed hget) hsel).mem_iff.mp hv
  | createIndex hc hcols hcreated =>
    exact h.of_tables (tablesWithin_createIndex hcreated) fun name =>
      (Catalog.sequence_createIndex hcreated name).ge
  | dropIndex hc hdropped =>
    exact h.of_tables (tablesWithin_dropIndex hdropped) fun name =>
      (Catalog.sequence_dropIndex hdropped name).ge
  | createDatabase hc =>
    exact h.of_tables (tablesWithin_createDatabase _) fun name => Nat.le_refl _
  | dropDatabase hc hremoved =>
    exact h.of_tables (tablesWithin_removeDatabase hremoved) fun name =>
      (Catalog.sequence_removeDatabase hremoved name).ge

/-! ## Runs -/

theorem CounterAhead.generatesFresh {e : Executor} (h : CounterAhead e) {call : Call}
    (hkeeps : KeepsCounterAhead e call) : GeneratesFresh e call := by
  obtain ⟨env, db, stmt⟩ := call
  intro hc
  cases stmt with
  | insert ins =>
    intro tableDef rows filled last c ht hs hf
    obtain ⟨hbound, hsup, -⟩ := hkeeps hc _ _ ht hs
    have hseen := h db _ tableDef (Catalog.getTable_ok_iff.mp ht)
    exact (fillRows_fresh hseen hsup hbound hf).2
  | _ => trivial

variable [Bincode]

/-- In a run whose statements keep the counters ahead, every generated value is
new. -/
theorem generated_fresh {e : Executor} (he : Reachable e) (hahead : CounterAhead e)
    {calls : List Call} (hrun : Every Executor.after KeepsCounterAhead e calls) :
    Every Executor.after GeneratesFresh e calls := by
  have hstep : ∀ e call, Reachable e ∧ CounterAhead e → KeepsCounterAhead e call →
      Reachable (e.after call) ∧ CounterAhead (e.after call) := by
    intro e call ⟨he, hahead⟩ hkeeps
    exact ⟨he.after call, AheadIn.after he.consistent hahead hkeeps (after_alters e call)⟩
  exact Every.of_invariant hstep (fun e call hinv hkeeps => hinv.2.generatesFresh hkeeps)
    ⟨he, hahead⟩ hrun

end Theory

/-! ## A value that was supplied, and a run of generated ones -/

section Concrete

attribute [local instance] asciiHost plainDebug bincode1

/-- The column `id INT AUTO_INCREMENT` of a table. -/
def serialColumn (name : String) : Column := { Column.new "id" name .long with autoIncrement := true }

/-- `CREATE TABLE name (id INT AUTO_INCREMENT)`. -/
def serialTable (name : String) : Statement :=
  .createTable ⟨[name], [⟨"id", .int, [.dialectSpecific [.autoIncrement]]⟩], false⟩

/-- `INSERT INTO name VALUES (NULL), …`, `n` rows. -/
def insertNulls (name : String) (n : Nat) : Statement :=
  .insert ⟨.tableName [name], [],
    some ⟨.values (List.replicate n [.value .null]), none, none, none⟩⟩

/-- An empty table `t` with an AUTO_INCREMENT column. -/
def serial : Executor := (Executor.ofMemory .new none).after (callIn "srrdb" (serialTable "t"))

/-- The value 1 was supplied by an INSERT. -/
def suppliedOne : Executor := serial.after (callIn "srrdb" (insertNumbers "t" [["1"]]))

/-- The value 2 was supplied by an UPDATE. -/
def updatedTwo : Executor :=
  (serial.after (callIn "srrdb" (insertNulls "t" 1))).after
    (callIn "srrdb" (updateSet "t" "id" "2" none))

theorem serial_reachable : Reachable serial := (Reachable.fresh none).after _

/-- The loop over one NULL in the table `t`. -/
theorem not_generatesFresh {e : Executor} (n : Nat) (id : Int64)
    (hc : e.catalog.poisoned = false)
    (ht : e.catalog.value.getTable "srrdb" "t" = .ok ⟨"t", [serialColumn "t"]⟩)
    (hf : (fillRows plainEnv.now "t" [serialColumn "t"] 0 [⟨0, [.null]⟩] 0 e.catalog.value).1 =
      .ok ([⟨0, [.int id]⟩], n))
    (hstored : [.int id] ∈ tableValues (e.storage.value.table "t")) :
    ¬ GeneratesFresh e (callIn "srrdb" (insertNulls "t" 1)) := by
  intro h
  exact h hc _ [⟨0, [.null]⟩] [⟨0, [.int id]⟩] n _ ht rfl (Prod.ext hf rfl) 0 _ _ rfl rfl 0 _ rfl rfl
    rfl [.int id] (List.mem_append_left _ hstored) rfl

/-- NULL gets the value 1 beside the 1 an INSERT supplied, and the value 2
beside the 2 an UPDATE supplied. -/
theorem suppliedValue_generated :
    Reachable suppliedOne ∧ ¬ GeneratesFresh suppliedOne (callIn "srrdb" (insertNulls "t" 1)) ∧
      tableValues ((suppliedOne.after
        (callIn "srrdb" (insertNulls "t" 1))).storage.value.table "t") = [[.int 1], [.int 1]] ∧
      Reachable updatedTwo ∧ ¬ GeneratesFresh updatedTwo (callIn "srrdb" (insertNulls "t" 1)) ∧
      tableValues ((updatedTwo.after
        (callIn "srrdb" (insertNulls "t" 1))).storage.value.table "t") = [[.int 2], [.int 2]] := by
  refine ⟨serial_reachable.after _, ?_, by decide +kernel, (serial_reachable.after _).after _, ?_,
    by decide +kernel⟩
  · exact not_generatesFresh 1 1 (by decide +kernel) (by decide +kernel)
      (by decide +kernel) (by decide +kernel)
  · exact not_generatesFresh 2 2 (by decide +kernel) (by decide +kernel)
      (by decide +kernel) (by decide +kernel)

/-- The statements of a run in which 1 and 2 are generated. -/
def generatedRun : List Call := [callIn "srrdb" (serialTable "t"), callIn "srrdb" (insertNulls "t" 2)]

theorem fresh_counterAhead (p : Option Persistence) :
    CounterAhead (Executor.ofMemory .new p) := by
  intro db name tableDef ht
  have hlisted : (Catalog.new).listing = [] := by decide +kernel
  have hmem := Catalog.mem_listing ht
  rw [show (Executor.ofMemory .new p).catalog.value = Catalog.new from rfl, hlisted] at hmem
  cases hmem

theorem generatedRun_keepsCounterAhead :
    Every Executor.after KeepsCounterAhead (.ofMemory .new none) generatedRun := by
  refine ⟨fun _ _ => ?_, fun _ tableDef rows ht hs => ?_, trivial⟩
  · have hrows : tableValues ((Executor.ofMemory .new none).storage.value.table "t") = [] := by
      decide +kernel
    refine ⟨?_, fun db tableDef _ => ?_⟩
    · exact hrows ▸ .nil _ _
    · exact hrows ▸ .nil _ _
  · have hdef : serial.catalog.value.getTable "srrdb" "t" = .ok ⟨"t", [serialColumn "t"]⟩ := by
      decide +kernel
    obtain rfl := Except.ok.inj (ht.symm.trans hdef)
    obtain rfl : [⟨0, [.null]⟩, ⟨0, [.null]⟩] = rows := Except.ok.inj hs
    refine ⟨by decide +kernel, fun before row after heq j col _ _ values hv n hn => ?_, ?_⟩
    · -- a supplied NULL is no integer
      have hrow : row ∈ [(⟨0, [.null]⟩ : Row), ⟨0, [.null]⟩] := by rw [heq]; simp
      obtain rfl : values = row.values := List.mem_singleton.mp hv
      have hvalues : row.values = [.null] := by
        rcases List.mem_cons.mp hrow with rfl | hrow
        · rfl
        · rw [List.mem_singleton.mp hrow]
      rw [hvalues] at hn
      cases j <;> simp at hn
    · intro filled last c' hf _ db tableDef _ _ j col _ _ values hv n hn
      have hfilled : (fillRows plainEnv.now "t" [serialColumn "t"] 0 [⟨0, [.null]⟩, ⟨0, [.null]⟩] 0
          serial.catalog.value).1 = .ok ([⟨0, [.int 1]⟩, ⟨0, [.int 2]⟩], 2) := by decide +kernel
      have hseq : (fillRows plainEnv.now "t" [serialColumn "t"] 0 [⟨0, [.null]⟩, ⟨0, [.null]⟩] 0
          serial.catalog.value).2.sequence "t" = 3 := by decide +kernel
      obtain ⟨rfl, -⟩ := Prod.mk.inj (Except.ok.inj ((congrArg Prod.fst hf).symm.trans hfilled))
      have hc' : c'.sequence "t" = 3 :=
        (congrArg (fun r => Catalog.sequence (Prod.snd r) "t") hf).symm.trans hseq
      show n.toInt < c'.sequence "t"
      rw [hc']
      rcases List.mem_cons.mp hv with rfl | hv
      · cases j with
        | zero =>
          cases hn
          decide
        | succ j => simp at hn
      · obtain rfl := List.mem_singleton.mp hv
        cases j with
        | zero =>
          cases hn
          decide
        | succ j => simp at hn

theorem generatedRun_fresh :
    Every Executor.after GeneratesFresh (.ofMemory .new none) generatedRun :=
  generated_fresh (.fresh none) (fresh_counterAhead none) generatedRun_keepsCounterAhead

end Concrete

end Srrdb.Server
