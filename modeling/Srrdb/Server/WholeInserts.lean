/-
Srrdb.Server.WholeInserts — INSERTs one after the other.

As long as no statement takes rows from a table or changes them, the table is a
list of whole INSERTs at any time, whatever runs at the same time: the rows of
each stand together, once if it is answered OK and not at all if it fails. A
SELECT meets the rows of whole INSERTs, and of all those that were answered
before it began (`inserts_whole`). This is seen of the database of `Relations`
and carried over to the executor.
-/
import Srrdb.Lib.Blocks
import Srrdb.Server.RelationRefinement

namespace Srrdb.Server

open Srrdb.Engine Srrdb.Sql Srrdb.Lib Relations

section Theory

variable [Host]

/-! ## Statements that leave the rows alone -/

/-- The statement takes no row from the table and changes none. -/
def keepsRows (name : String) : Statement → Prop
  | .delete del => ¬ SameName (deleteTable del) name
  | .update table _ _ => ¬ SameName (tableFactorName table) name
  | .drop .table names _ => ¬ SameName (firstName names) name
  | _ => True

/-- The rows of the table stay. -/
def Still (name : String) (d d' : Relations) : Prop := d'.getRows name = d.getRows name

theorem still_putRows {name tableName : String} (h : ¬ SameName tableName name) (d : Relations)
    (rows : List (List Value)) : Still name d (d.putRows tableName rows) := by
  unfold Still Relations.getRows putRows
  rw [Std.ExtTreeMap.getElem?_insert, if_neg]
  rw [Std.LawfulEqCmp.compare_eq_iff_eq]
  exact h

theorem getRows_congr (d : Relations) {name tableName : String} (h : SameName tableName name) :
    d.getRows tableName = d.getRows name := by
  unfold Relations.getRows
  rw [show normalize tableName = normalize name from h]

theorem getRows_putRows (d : Relations) {name tableName : String} (h : SameName tableName name)
    (rows : List (List Value)) : (d.putRows tableName rows).getRows name = rows := by
  unfold Relations.getRows putRows
  rw [Std.ExtTreeMap.getElem?_insert, if_pos]
  · rfl
  · rw [Std.LawfulEqCmp.compare_eq_iff_eq]
    exact h

section Steps

variable {α : Type} {name : String}

theorem ask_still (f : Catalog → Except String α) : Handler.Steps (Still name) (ask f) :=
  Handler.steps_sec fun _ => rfl

theorem change_still (f : Catalog → Except String Catalog) :
    Handler.Steps (Still name) (change f) := by
  refine Handler.steps_sec fun d => ?_
  cases f d.catalog <;> rfl

theorem lift_still (o : Outcome α) : Handler.Steps (Still name) (lift o) := by
  cases o with
  | ok a => exact Handler.steps_pure a
  | error x => exact Handler.steps_throw x

theorem alter_still (f : Catalog → Except String Catalog) : Handler.Steps (Still name) (alter f) :=
  (change_still f).bind fun _ => Handler.steps_pure _

theorem report_still (f : Catalog → Except String ExecuteResult) :
    Handler.Steps (Still name) (report f) :=
  (ask_still f).bind fun _ => Handler.steps_pure _

theorem guarded_still {work : Work Answer} (h : Handler.Steps (Still name) work) (asked : Bool)
    (f : Catalog → Bool) : Handler.Steps (Still name) (guarded asked f work) := by
  cases asked with
  | false => exact h
  | true =>
    refine (ask_still _).bind fun b => ?_
    cases b with
    | false => exact h
    | true => exact Handler.steps_pure _

theorem createIndex_still (db : String) (ci : CreateIndex) :
    Handler.Steps (Still name) (Relations.createIndex db ci) := by
  unfold Relations.createIndex
  dsimp only
  split
  · exact Handler.steps_throw _
  · refine (change_still _).bind fun _ => (ask_still _).bind fun tableDef => ?_
    refine (Handler.steps_sec fun d => ?_).bind fun _ => Handler.steps_pure _
    split <;> rfl

theorem dropTable_still (db : String) {tableName : String} (h : ¬ SameName tableName name) :
    Handler.Steps (Still name) (Relations.dropTable db tableName) := by
  refine (Handler.steps_sec fun d => ?_).bind fun _ => Handler.steps_pure _
  split
  · unfold Still Relations.getRows
    rw [Std.ExtTreeMap.getElem?_erase, if_neg]
    rw [Std.LawfulEqCmp.compare_eq_iff_eq]
    exact h
  · rfl

variable [ExprDebug]

theorem insert_still (env : Env) (db : String) {ins : Insert}
    (h : ¬ SameName (tableObjectName ins.table) name) :
    Handler.Steps (Still name) (Relations.insert env db ins) := by
  refine (ask_still _).bind fun tableDef => (lift_still _).bind fun rows => ?_
  refine Handler.Steps.bind (Handler.steps_sec fun d => ?_) fun filled => ?_
  · exact rfl
  exact (Handler.steps_sec fun d => still_putRows h d _).bind fun _ => Handler.steps_pure _

theorem rewrite_still {tableName : String} (h : ¬ SameName tableName name) (columns : List Column)
    (selection : Option Expr) (f : List (List Value) → List (List Value)) :
    Handler.Steps (Still name) (rewrite tableName columns selection f) := by
  refine Handler.steps_sec fun d => ?_
  split
  · rfl
  · split
    · rfl
    · exact still_putRows h d _

end Steps

/-! ## INSERT and SELECT -/

variable [ExprDebug] {name : String}

/-- The values are those of an INSERT, row by row, with its NULLs completed. -/
def BlockOf (env : Env) (ins : Insert) (block : List (List Value)) : Prop :=
  ∃ (columns : List Column) (rows : List Row) (lo hi : Nat),
    sourceRows columns ins.columns ins.source = .ok rows ∧ block.length = rows.length ∧
    ∀ (k : Nat) (row : Row) (values : List Value), rows[k]? = some row → block[k]? = some values →
      values.length = row.values.length ∧
      ∀ (j : Nat) (col : Column), columns[j]? = some col →
        Completed (env.now k j) lo hi col row.values[j]? values[j]?

theorem blockOf_fillRows {env : Env} {ins : Insert} {tableName : String} {columns : List Column}
    {rows filled : List Row} {last : Nat} {c c' : Catalog}
    (hs : sourceRows columns ins.columns ins.source = .ok rows)
    (hf : fillRows env.now tableName columns 0 rows 0 c = (.ok (filled, last), c')) :
    BlockOf env ins (filled.map (·.values)) := by
  obtain ⟨-, -, hsup⟩ := fillRows_eq_ok hf
  obtain ⟨-, hcompleted⟩ := fillRows_completed env.now tableName hf
  refine ⟨columns, rows, c.sequence tableName, c'.sequence tableName, hs, ?_,
    fun k row values hrow hvalues => ?_⟩
  · rw [List.length_map, hsup.length_eq]
  · rw [List.getElem?_map, Option.map_eq_some_iff] at hvalues
    obtain ⟨row', hrow', rfl⟩ := hvalues
    have hcols := hcompleted k row row' hrow hrow'
    rw [Nat.zero_add] at hcols
    refine ⟨?_, hcols⟩
    obtain ⟨hlt, rfl⟩ := List.getElem?_eq_some_iff.mp hrow
    obtain ⟨hlt', rfl⟩ := List.getElem?_eq_some_iff.mp hrow'
    exact (hsup.get hlt hlt').2.1

/-- An INSERT that is answered OK has added its rows, and one that fails none. -/
def InsertTells (env : Env) (ins : Insert) (r : Outcome Answer)
    (own : Option (List (List Value))) : Prop :=
  (∃ block last, own = some block ∧ r = .ok (.result (.affected block.length last)) ∧
    BlockOf env ins block) ∨ ∃ x, own = none ∧ r = .error x

/-- A SELECT is answered from a list of rows it has met. -/
def SelectTells (name : String) (query : Query) (r : Outcome Answer)
    (seen : List (List (List Value))) : Prop :=
  ∀ select table rest, query.body = .select select → select.fromTables = table :: rest →
    SameName (tableFactorName table) name →
    (∃ msg, r = .error (.err msg)) ∨ ∃ columns indexes rows, rows ∈ seen ∧
      r = .ok (.selection query select (tableFactorName table) columns indexes rows)

/-- What the answer of a statement says about its block and the rows it met. -/
structure Tells (name : String) (call : Call) (r : Outcome Answer)
    (own : Option (List (List Value))) (seen : List (List (List Value))) : Prop where
  insert : ∀ ins, call.stmt = .insert ins → SameName (tableObjectName ins.table) name →
    InsertTells call.env ins r own
  select : ∀ query, call.stmt = .query query → SelectTells name query r seen
  others : (∀ ins, call.stmt = .insert ins → ¬ SameName (tableObjectName ins.table) name) →
    own = none

section Adds

variable {α : Type} {Q : Outcome Answer → Option (List (List Value)) →
  List (List (List Value)) → Prop} {own : Option (List (List Value))}
  {seen : List (List (List Value))} {k : α → Work Answer}

omit [ExprDebug] in
theorem adds_ask_bind {f : Catalog → Except String α}
    (hQ : ∀ msg seen, Q (.error (.err msg)) own seen)
    (hk : ∀ a seen, Handler.Adds (Relations.getRows · name) Q (k a) own seen) :
    Handler.Adds (Relations.getRows · name) Q (ask f >>= k) own seen := by
  refine Handler.adds_still_bind (fun _ => rfl) fun d => ?_
  simp only
  cases f d.catalog with
  | error msg => exact hQ msg _
  | ok a => exact hk a _

omit [ExprDebug] in
theorem adds_lift_bind {o : Outcome α} (hQ : ∀ x, Q (.error x) own seen)
    (hk : ∀ a, o = .ok a → Handler.Adds (Relations.getRows · name) Q (k a) own seen) :
    Handler.Adds (Relations.getRows · name) Q (lift o >>= k) own seen := by
  cases o with
  | error x => exact Handler.adds_throw (hQ x)
  | ok a => exact hk a rfl

end Adds

theorem insert_adds (env : Env) (db : String) (ins : Insert)
    (hname : SameName (tableObjectName ins.table) name) :
    Handler.Adds (Relations.getRows · name) (fun r own _ => InsertTells env ins r own)
      (Relations.insert env db ins) none [] := by
  have hfails : ∀ x, InsertTells env ins (.error x) none := fun x => .inr ⟨x, rfl, rfl⟩
  refine adds_ask_bind (fun _ _ => hfails _) fun tableDef seen => ?_
  refine adds_lift_bind hfails fun rows hrows => ?_
  have hs : sourceRows tableDef.columns ins.columns ins.source = .ok rows := by
    cases h : sourceRows tableDef.columns ins.columns ins.source with
    | error msg =>
      rw [h] at hrows
      cases hrows
    | ok rows' =>
      rw [h] at hrows
      cases hrows
      rfl
  refine Handler.adds_still_bind (fun _ => rfl) fun d => ?_
  cases hf : fillRows env.now (tableObjectName ins.table) tableDef.columns 0 rows 0 d.catalog with
  | mk r c =>
    cases r with
    | error x => exact hfails x
    | ok r =>
      refine Handler.adds_block_bind (r.1.map (·.values)) (fun d => ?_) fun d => ?_
      · rw [getRows_putRows d hname, getRows_congr d hname]
      · exact .inl ⟨_, r.2, rfl, by rw [List.length_map], blockOf_fillRows hs hf⟩

omit [ExprDebug] in
theorem query_adds (db : String) (q : Query) :
    Handler.Adds (Relations.getRows · name)
      (fun r own seen => own = none ∧ SelectTells name q r seen) (Relations.query db q)
      none [] := by
  unfold Relations.query
  split
  · rename_i select hbody
    split
    · exact Handler.adds_pure ⟨rfl, fun s table rest hs hfrom => by simp_all⟩
    · rename_i table rest hfrom
      refine adds_ask_bind (fun msg _ => ⟨rfl, fun _ _ _ _ _ _ => .inl ⟨msg, rfl⟩⟩)
        fun r seen => ?_
      refine Handler.adds_still_bind (fun _ => rfl) fun d => ?_
      refine ⟨rfl, fun s table' rest' hs hfrom' hsame => ?_⟩
      cases hbody.symm.trans hs
      cases hfrom.symm.trans hfrom'
      refine .inr ⟨r.1, r.2, d.getRows name, List.mem_cons_self, ?_⟩
      rw [getRows_congr d hsame]
  · exact Handler.adds_throw ⟨rfl, fun s table rest hs => by simp_all⟩

/-- A statement that is neither an INSERT into the table nor a SELECT. -/
theorem tells_of_still {call : Call} {work : Work Answer}
    (hins : ∀ ins, call.stmt = .insert ins → ¬ SameName (tableObjectName ins.table) name)
    (hquery : ∀ query, call.stmt ≠ .query query) (h : Handler.Steps (Still name) work) :
    Handler.Adds (Relations.getRows · name) (Tells name call) work none [] := by
  refine Prog.Steps.adds h fun r seen => ⟨fun ins hi hsame => ?_, fun query hq => ?_, fun _ => rfl⟩
  · exact absurd hsame (hins ins hi)
  · exact absurd hq (hquery query)

theorem execute_still (env : Env) (db : String) {stmt : Statement} (h : keepsRows name stmt)
    (hins : ∀ ins, stmt = .insert ins → ¬ SameName (tableObjectName ins.table) name)
    (hquery : ∀ query, stmt ≠ .query query) :
    Handler.Steps (Still name) (Relations.execute env db stmt) := by
  cases stmt with
  | createTable ct => exact guarded_still (alter_still _) _ _
  | insert ins => exact insert_still env db (hins ins rfl)
  | query query => exact absurd rfl (hquery query)
  | delete del =>
    exact (ask_still _).bind fun _ => (rewrite_still h _ _ _).bind fun _ => Handler.steps_pure _
  | update table assignments selection =>
    exact (ask_still _).bind fun _ => (ask_still _).bind fun _ =>
      (rewrite_still h _ _ _).bind fun _ => Handler.steps_pure _
  | drop objectType names ifExists =>
    cases objectType with
    | table => exact guarded_still (dropTable_still db h) _ _
    | database => exact guarded_still (alter_still _) _ _
    | index => exact (ask_still _).bind fun _ => guarded_still (alter_still _) _ _
    | other => exact Handler.steps_throw _
  | createDatabase dbName ifNotExists => exact guarded_still (alter_still _) _ _
  | showDatabases => exact report_still _
  | showTables => exact report_still _
  | use stmt =>
    cases stmt with
    | other => exact Handler.steps_throw _
    | _ => exact report_still _
  | explainTable tableName => exact report_still _
  | createIndex ci =>
    refine (ask_still _).bind fun known => ?_
    cases known with
    | false => exact Handler.steps_throw _
    | true => exact createIndex_still db ci
  | other => exact Handler.steps_throw _

theorem execute_tells {call : Call} (h : keepsRows name call.stmt) :
    Handler.Adds (Relations.getRows · name) (Tells name call)
      (Relations.execute call.env call.db call.stmt) none [] := by
  obtain ⟨env, db, stmt⟩ := call
  by_cases hins : ∃ ins, stmt = .insert ins ∧ SameName (tableObjectName ins.table) name
  · obtain ⟨ins, rfl, hname⟩ := hins
    refine Prog.Adds.imp (fun r own seen hr => ⟨?_, ?_, ?_⟩) (insert_adds env db ins hname)
    · intro ins' hi _
      cases hi
      exact hr
    · intro query hq
      cases hq
    · exact fun hne => absurd hname (hne ins rfl)
  by_cases hquery : ∃ query, stmt = .query query
  · obtain ⟨query, rfl⟩ := hquery
    refine Prog.Adds.imp (fun r own seen hr => ⟨?_, ?_, fun _ => hr.1⟩) (query_adds db query)
    · intro ins hi
      cases hi
    · intro query' hq
      cases hq
      exact hr.2
  · exact tells_of_still (fun ins hi hsame => hins ⟨ins, hi, hsame⟩)
      (fun query hq => hquery ⟨query, hq⟩)
      (execute_still env db h (fun ins hi hsame => hins ⟨ins, hi, hsame⟩)
        fun query hq => hquery ⟨query, hq⟩)

/-! ## Runs -/

variable [Bincode]

/-- The table is laid out in whole INSERTs, and the answers given agree with it:
a SELECT has met some of the INSERTs, and no fewer than `least`. -/
structure InWholeInserts (calls : List Call) (name : String) (rows : List (List Value))
    (least : Nat → List (Nat × List (List Value))) (order : List (Nat × List (List Value)))
    (p : Pool Executor (Outcome ExecuteResult)) : Prop where
  nodup : (order.map Prod.fst).Nodup
  rows_eq : rowValues p.shared.storage.value name = laidOut rows order
  blocks : ∀ b ∈ order, ∃ call ins, calls[b.1]? = some call ∧ call.stmt = .insert ins ∧
    SameName (tableObjectName ins.table) name ∧ BlockOf call.env ins b.2
  insert : ∀ (i : Nat) (call : Call) (ins : Insert) (r : Outcome ExecuteResult),
    calls[i]? = some call → call.stmt = .insert ins → SameName (tableObjectName ins.table) name →
    p.threads[i]? = some (.done r) →
    (∃ block last, order.lookup i = some block ∧ r = .ok (.affected block.length last)) ∨
      ∃ x, order.lookup i = none ∧ r = .error x
  select : ∀ (i : Nat) (call : Call) (query : Query) (select : Select) (table : TableFactor)
    (rest : List TableFactor) (r : Outcome ExecuteResult),
    calls[i]? = some call → call.stmt = .query query → query.body = .select select →
    select.fromTables = table :: rest → SameName (tableFactorName table) name →
    p.threads[i]? = some (.done r) →
    (∃ msg, r = .error (.err msg)) ∨ ∃ columns indexes part,
      least i <+: part ∧ part <+: order ∧
      (Answer.selection query select (tableFactorName table) columns indexes
        (laidOut rows part)).Allows r

/-- What the calls tell of their blocks. -/
def CallTells (calls : List Call) (name : String) (i : Nat) (r : Outcome Answer)
    (own : Option (List (List Value))) (seen : List (List (List Value))) : Prop :=
  ∃ call, calls[i]? = some call ∧ Tells name call r own seen

omit [Bincode] in
theorem relationsPool_adds {calls : List Call} (h : ∀ call ∈ calls, keepsRows name call.stmt)
    (d : Relations) (i : Nat) (t : Prog Relations (Outcome Answer))
    (ht : (relationsPool calls d).threads[i]? = some t) :
    t.Adds (Relations.getRows · name) (CallTells calls name i) none [] := by
  rw [relationsPool, List.getElem?_map, Option.map_eq_some_iff] at ht
  obtain ⟨call, hcall, rfl⟩ := ht
  exact Prog.Adds.imp (fun r own seen hr => ⟨call, hcall, hr⟩)
    (execute_tells (h call (List.mem_of_getElem? hcall)))

omit [Bincode] in
/-- From the database of lists to the server. -/
theorem inWholeInserts_of_grown {calls : List Call} {rows : List (List Value)}
    {since least : Nat → List (Nat × List (List Value))} {order : List (Nat × List (List Value))}
    {p : Pool Executor (Outcome ExecuteResult)} {q : Pool Relations (Outcome Answer)}
    (hpq : p.Refines (Unbroken StorageConsistent) relations Agrees q)
    (hq : q.Grown (Relations.getRows · name) (CallTells calls name) rows since order)
    (hleast : ∀ i, least i <+: since i) :
    InWholeInserts calls name rows least order p where
  nodup := hq.nodup
  rows_eq := by
    rw [rowValues, ← Storage.getRows_eq, ← getRows_relations, ← hpq.shared]
    exact hq.view_eq
  blocks b hb := by
    obtain ⟨r, seen, call, hcall, htells⟩ := hq.exists_result hb
    by_cases hins : ∃ ins, call.stmt = .insert ins ∧ SameName (tableObjectName ins.table) name
    · obtain ⟨ins, hi, hsame⟩ := hins
      rcases htells.insert ins hi hsame with ⟨block, -, hown, -, hblock⟩ | ⟨-, hown, -⟩
      · cases hown
        exact ⟨call, ins, hcall, hi, hsame, hblock⟩
      · cases hown
    · cases htells.others fun ins hi hsame => hins ⟨ins, hi, hsame⟩
  insert i call ins r hcall hi hsame ht := by
    obtain ⟨t, ht', hrefines⟩ := exists_of_forall₂ hpq.threads ht
    cases hrefines with
    | @done _ answer hagrees =>
      obtain ⟨seen, -, call', hcall', htells⟩ := hq.adds i _ ht'
      cases hcall.symm.trans hcall'
      rcases htells.insert ins hi hsame with ⟨block, last, hown, rfl, -⟩ | ⟨x, hown, rfl⟩
      · exact .inl ⟨block, last, hown, hagrees⟩
      · exact .inr ⟨x, hown, hagrees⟩
  select i call query select table rest r hcall hquery hbody hfrom hsame ht := by
    obtain ⟨t, ht', hrefines⟩ := exists_of_forall₂ hpq.threads ht
    cases hrefines with
    | @done _ answer hagrees =>
      obtain ⟨seen, hseen, call', hcall', htells⟩ := hq.adds i _ ht'
      cases hcall.symm.trans hcall'
      rcases htells.select query hquery select table rest hbody hfrom hsame with
        ⟨msg, rfl⟩ | ⟨columns, indexes, met, hmet, rfl⟩
      · exact .inl ⟨msg, hagrees⟩
      · obtain ⟨part, hsince, hpart, rfl⟩ := hseen met hmet
        exact .inr ⟨columns, indexes, part, (hleast i).trans hsince, hpart, hagrees⟩

/-- Whenever a run is looked at, the table is laid out in whole INSERTs; those of
before are at the beginning ever after, and known to all who begin later. -/
theorem inserts_whole {e : Executor} (he : Reachable e) {calls : List Call}
    (hkeeps : ∀ call ∈ calls, keepsRows name call.stmt) (first second : List Nat)
    (hok : ¬ (serve e calls (first ++ second)).Poisoned) :
    ∃ early late, (∀ b ∈ early, b.1 ∈ first) ∧
      InWholeInserts calls name (rowValues e.storage.value name) (fun _ => []) early
        ((poolOf calls e).run first) ∧
      InWholeInserts calls name (rowValues e.storage.value name) (Pool.metBy first early)
        (early ++ late) ((poolOf calls e).run (first ++ second)) := by
  have hsound := poolOf_sound he calls hok
  obtain ⟨first', hpart, hfirst⟩ := (poolOf_refines calls e).run fun pre hpre =>
    hsound pre (hpre.trans (List.prefix_append _ _))
  obtain ⟨second', -, hsecond⟩ := hfirst.run fun pre hpre => by
    rw [← Pool.run_append]
    exact hsound (first ++ pre) ((List.prefix_append_right_inj first).mpr hpre)
  rw [← Pool.run_append, ← Pool.run_append] at hsecond
  obtain ⟨early, late, hearly, hgrown, hgrown'⟩ := Pool.grown_run
    (relationsPool_adds hkeeps (relations e)) first' second'
  have hrows : (relationsPool calls (relations e)).shared.getRows name =
      rowValues e.storage.value name := by
    rw [rowValues, ← Storage.getRows_eq, ← getRows_relations]
    rfl
  rw [hrows] at hgrown hgrown'
  refine ⟨early, late, fun b hb => hpart.subset (hearly b hb),
    inWholeInserts_of_grown hfirst hgrown fun _ => List.prefix_rfl,
    inWholeInserts_of_grown hsecond hgrown' fun i => Pool.metBy_prefix hpart.subset early i⟩

end Theory

/-! ## On a concrete run -/

section Concrete

attribute [local instance] asciiHost plainDebug bincode1

/-- Two INSERTs and a SELECT. -/
def insertsAndSelect : List Call :=
  [callIn "srrdb" (insertNumbers "t" [["1"], ["2"]]), callIn "srrdb" (insertNumbers "t" [["3"]]),
    callIn "srrdb" (selectFrom "t" none)]

/-- The second INSERT is answered while the first has not added its rows. -/
def overtaken : List Nat := [0, 0, 1, 1, 1, 1, 1, 1]

/-- The SELECT begins later, and meets the rows of both. -/
def caughtUp : List Nat := [2, 0, 0, 2, 0, 0]

/-- The rows are those of the second INSERT, then those of the first. -/
example : rowValues (serve freshTable insertsAndSelect (overtaken ++ caughtUp)).storage.value "t" =
    [[.int 3], [.int 1], [.int 2]] := by decide +kernel

theorem insertsAndSelect_whole : ∃ early late, (∀ b ∈ early, b.1 ∈ overtaken) ∧
    InWholeInserts insertsAndSelect "t" (rowValues freshTable.storage.value "t") (fun _ => [])
      early ((poolOf insertsAndSelect freshTable).run overtaken) ∧
    InWholeInserts insertsAndSelect "t" (rowValues freshTable.storage.value "t")
      (Pool.metBy overtaken early) (early ++ late)
      ((poolOf insertsAndSelect freshTable).run (overtaken ++ caughtUp)) := by
  have hkeeps : ∀ call ∈ insertsAndSelect, keepsRows "t" call.stmt := by
    simp [insertsAndSelect, callIn, insertNumbers, selectFrom, keepsRows]
  refine inserts_whole ((Reachable.fresh none).after _) hkeeps overtaken caughtUp ?_
  unfold Executor.Poisoned
  decide +kernel

end Concrete

end Srrdb.Server
