/-
Srrdb.Server.TableIndependence — statements on one table among statements on
others.

A call is on the table (`onTable`), or its statement is `Elsewhere`: on a
table apart from it, in whatever database, on another database as a whole, or
one that only reads. Under every schedule the calls on the table answer, and
leave the table, as they would if the calls elsewhere were never scheduled,
unless a panic has poisoned a mutex (`tables_independent`).
-/
import Srrdb.Server.Reachable
import Srrdb.Server.TableHandlers

namespace Srrdb.Server

open Srrdb.Engine Srrdb.Sql Srrdb.Lib

section Theory

variable [Host]

/-- The call is on the table `name` of `db`. -/
def onTable (db name : String) (call : Call) : Bool :=
  normalize call.db == normalize db &&
    (tableOf call.stmt).any fun n => normalize n == normalize name

theorem onTable_iff {db name : String} {call : Call} : onTable db name call = true ↔
    SameName call.db db ∧ ∃ n, tableOf call.stmt = some n ∧ SameName n name := by
  simp [onTable, SameName, Option.any_eq_true]

/-- The schedule without the calls that are not on the table. -/
def onlyTable (db name : String) (calls : List Call) (schedule : List Nat) : List Nat :=
  schedule.filter fun i => (calls[i]?).any (onTable db name)

variable [ExprDebug] [Bincode] {db name : String}

/-- The calls and the server before any of them has begun. -/
def poolOf (calls : List Call) (e : Executor) : Pool Executor (Outcome ExecuteResult) :=
  ⟨calls.map Call.program, e⟩

theorem call_sees {call : Call} (h : onTable db name call = true) :
    call.program.Sees (TableAlike db name) := by
  obtain ⟨hdb, n, htable, hname⟩ := onTable_iff.mp h
  rw [← tableAlike_sameName hdb hname]
  exact execute_uses call.env htable

theorem call_beside {call : Call} (h : Elsewhere db name call.stmt) :
    call.program.Beside (TableAlike db name) fun e => ¬ e.Poisoned :=
  execute_spares call.env h

omit [ExprDebug] [Bincode] in
/-- Nothing takes the poison from a mutex. -/
theorem closed_poisoned : Closed fun e => ¬ ¬ e.Poisoned where
  poisonCatalog _ _ := not_not.mpr (.inl rfl)
  poisonStorage _ _ := not_not.mpr (.inr rfl)
  setCatalog _ _ he := he
  setStorage _ _ he _ := he
  append _ _ _ he := he
  persist _ _ he := he

theorem call_repairsNothing (call : Call) :
    call.program.RepairsNothing fun e => ¬ e.Poisoned :=
  execute_keeps closed_poisoned call.env call.db call.stmt

theorem parted_poolOf {calls : List Call}
    (hcalls : ∀ call ∈ calls, onTable db name call = true ∨ Elsewhere db name call.stmt)
    (e : Executor) : (poolOf calls e).Parted (TableAlike db name) (fun e => ¬ e.Poisoned)
      fun i => (calls[i]?).any (onTable db name) := by
  have hthread : ∀ {i : Nat} {t}, (poolOf calls e).threads[i]? = some t →
      ∃ call : Call, calls[i]? = some call ∧ t = call.program := by
    intro i t ht
    rw [poolOf, List.getElem?_map] at ht
    obtain ⟨call, hcall, rfl⟩ := Option.map_eq_some_iff.mp ht
    exact ⟨call, hcall, rfl⟩
  constructor
  · intro i t hown ht
    obtain ⟨call, hcall, rfl⟩ := hthread ht
    rw [hcall] at hown
    exact call_sees hown
  · intro i t hown ht
    obtain ⟨call, hcall, rfl⟩ := hthread ht
    rw [hcall] at hown
    rcases hcalls call (List.mem_of_getElem? hcall) with hon | helse
    · cases hown.symm.trans hon
    · exact call_beside helse
  · intro i t ht
    obtain ⟨call, -, rfl⟩ := hthread ht
    exact call_repairsNothing call

/-- However calls on the table and calls elsewhere are interleaved, the calls on
the table come as far, answer the same and leave the same of the table as
without the others. -/
theorem tables_independent (e : Executor) {calls : List Call} (db name : String)
    (hcalls : ∀ call ∈ calls, onTable db name call = true ∨ Elsewhere db name call.stmt)
    (schedule : List Nat) (hok : ¬ ((poolOf calls e).run schedule).shared.Poisoned) :
    (∀ (i : Nat) (call : Call), calls[i]? = some call → onTable db name call = true →
      ((poolOf calls e).run (onlyTable db name calls schedule)).threads[i]? =
        ((poolOf calls e).run schedule).threads[i]?) ∧
    TableAlike db name ((poolOf calls e).run schedule).shared
      ((poolOf calls e).run (onlyTable db name calls schedule)).shared := by
  have hstart : Pool.Alike (TableAlike db name) (fun i => (calls[i]?).any (onTable db name))
      (poolOf calls e) (poolOf calls e) :=
    ⟨fun _ _ => rfl, (equivalence_tableAlike db name).refl e⟩
  obtain ⟨hthreads, hshared⟩ := Pool.run_within (equivalence_tableAlike db name)
    (parted_poolOf hcalls e) hstart hok
  refine ⟨fun i call hcall hon => hthreads i ?_, hshared⟩
  rw [hcall]
  exact hon

end Theory

/-! ## On a concrete run -/

section Concrete

attribute [local instance] asciiHost plainDebug bincode1

/-- An INSERT into `t`, and one into the table `u` of `d` in between. -/
def insertsApart : List Call :=
  [callIn "srrdb" (insertNumbers "t" [["1"]]), callIn "d" (insertNumbers "u" [["2"]])]

/-- The INSERT into `t` ends with one row, whatever the other does. -/
theorem insertsApart_independent :
    ((poolOf insertsApart (tableBeside "u")).run (onlyTable "srrdb" "t" insertsApart
        [0, 1, 0, 1, 1, 0, 0, 1, 0, 1, 0, 0])).threads[0]? =
      ((poolOf insertsApart (tableBeside "u")).run
        [0, 1, 0, 1, 1, 0, 0, 1, 0, 1, 0, 0]).threads[0]? := by
  have hcalls : ∀ call ∈ insertsApart,
      onTable "srrdb" "t" call = true ∨ Elsewhere "srrdb" "t" call.stmt := by
    intro call hcall
    rcases List.mem_cons.mp hcall with rfl | hcall
    · exact .inl (by decide +kernel)
    · obtain rfl := List.mem_singleton.mp hcall
      exact .inr (.inr ⟨"u", by decide +kernel, by unfold TablesApart; decide +kernel⟩)
  have hok : ¬ ((poolOf insertsApart (tableBeside "u")).run
      [0, 1, 0, 1, 1, 0, 0, 1, 0, 1, 0, 0]).shared.Poisoned := by
    unfold Executor.Poisoned
    decide +kernel
  exact (tables_independent (tableBeside "u") "srrdb" "t" hcalls _ hok).1 0 _ rfl
    (by decide +kernel)

end Concrete

end Srrdb.Server
