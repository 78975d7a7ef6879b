/-
Srrdb.Lib.Ledger — what threads move in and out of a shared account.

An account is a number read off the state. A program `Moves` it if its result
says by how much its own sections have changed the account together, whatever
the other threads do in between. Once every thread of a pool is finished, the
account holds what it held before and the sum of what the results say
(`Pool.account_run`).

`sound` is what a section may rely on: it holds before and after every section
of the runs considered.
-/
import Mathlib.Algebra.BigOperators.Group.List.Basic
import Mathlib.Algebra.Ring.Int.Defs
import Srrdb.Lib.Views

namespace Srrdb.Lib

variable {σ ε α β κ : Type} {sound ok I : σ → Prop} {account : σ → Int}

/-! ## Programs -/

namespace Prog

/-- From `n` on, what the sections move and what the result says agree. -/
def Moves (sound : σ → Prop) (account : σ → Int) (Q : α → Int → Prop) : Prog σ α → Int → Prop
  | .done a, n => Q a n
  | .atomic f k, n => ∀ s, sound s → sound (f s) →
      (k s).Moves sound account Q (n + (account (f s) - account s))

theorem Moves.imp {Q Q' : α → Int → Prop} (hQ : ∀ a n, Q a n → Q' a n) {p : Prog σ α} {n : Int}
    (h : p.Moves sound account Q n) : p.Moves sound account Q' n := by
  induction p generalizing n with
  | done a => exact hQ a n h
  | atomic f k ih => exact fun s hs hf => ih s (h s hs hf)

theorem Moves.bind {Q : β → Int → Prop} {p : Prog σ α} {g : α → Prog σ β} {n : Int}
    (h : p.Moves sound account (fun a m => (g a).Moves sound account Q m) n) :
    (p.bind g).Moves sound account Q n := by
  induction p generalizing n with
  | done a => exact h
  | atomic f k ih => exact fun s hs hf => ih s (h s hs hf)

/-- A program that leaves the account alone. -/
theorem Keeps.moves {Q : α → Int → Prop} {p : Prog σ α} {n : Int}
    (hI : ∀ s, sound s → I s) (hp : ∀ m, p.Keeps fun s => I s ∧ account s = m)
    (hQ : ∀ a, Q a n) : p.Moves sound account Q n := by
  induction p with
  | done a => exact hQ a
  | atomic f k ih =>
    intro s hs _
    have hsame : account (f s) = account s := ((hp (account s)).1 s ⟨hI s hs, rfl⟩).2
    rw [hsame, Int.sub_self, Int.add_zero]
    exact ih s fun m => (hp m).2 s

end Prog

/-! ## Handlers -/

namespace Handler

/-- From `n` on, what the sections of the handler move and what its outcome says
agree. -/
def Moves (sound : σ → Prop) (account : σ → Int) (Q : Except ε α → Int → Prop)
    (h : Handler σ ε α) (n : Int) : Prop :=
  Prog.Moves sound account Q (ExceptT.run h) n

section Moves

variable {Q : Except ε α → Int → Prop} {n : Int}

theorem moves_pure {a : α} (h : Q (.ok a) n) :
    Moves sound account Q (pure a : Handler σ ε α) n := h

theorem moves_sec {f : σ → Except ε α × σ}
    (h : ∀ s, sound s → sound (f s).2 → Q (f s).1 (n + (account (f s).2 - account s))) :
    Moves sound account Q (sec f : Handler σ ε α) n :=
  fun s hs hf => h s hs hf

/-- What is left to show of a handler after its first part. -/
def AndThen (sound : σ → Prop) (account : σ → Int) (Q : Except ε β → Int → Prop)
    (k : α → Handler σ ε β) : Except ε α → Int → Prop
  | .ok a, m => Moves sound account Q (k a) m
  | .error x, m => Q (.error x) m

theorem Moves.bind {Q : Except ε β → Int → Prop} {h : Handler σ ε α} {k : α → Handler σ ε β}
    (hh : Moves sound account (AndThen sound account Q k) h n) :
    Moves sound account Q (h >>= k) n := by
  have hb : ExceptT.run (h >>= k) = Prog.bind (ExceptT.run h) (ExceptT.bindCont k) := rfl
  rw [Moves, hb]
  refine Prog.Moves.bind (Prog.Moves.imp (fun r m hr => ?_) hh)
  cases r with
  | ok a => exact hr
  | error x => exact hr

theorem moves_sec_bind {Q : Except ε β → Int → Prop} {f : σ → Except ε α × σ}
    {k : α → Handler σ ε β} (h : ∀ s, sound s → sound (f s).2 →
      AndThen sound account Q k (f s).1 (n + (account (f s).2 - account s))) :
    Moves sound account Q ((sec f : Handler σ ε α) >>= k) n :=
  Moves.bind (moves_sec h)

theorem Keeps.moves {h : Handler σ ε α} (hI : ∀ s, sound s → I s)
    (hh : ∀ m, Keeps (fun s => I s ∧ account s = m) h) (hQ : ∀ r, Q r n) :
    Moves sound account Q h n :=
  Prog.Keeps.moves hI hh hQ

end Moves

end Handler

/-! ## Pools -/

namespace Pool

variable {p : Pool σ α} {schedule : List Nat}

/-- What each thread of a pool has moved so far. -/
structure Balanced (sound : σ → Prop) (account : σ → Int) (Q : Nat → α → Int → Prop)
    (start : Int) (moved : List Int) (p : Pool σ α) : Prop where
  length : moved.length = p.threads.length
  moves : ∀ (i : Nat) (t : Prog σ α) (n : Int), p.threads[i]? = some t → moved[i]? = some n →
    t.Moves sound account (Q i) n
  balance : account p.shared = start + moved.sum

variable {Q : Nat → α → Int → Prop} {start : Int} {moved : List Int}

theorem Balanced.step (h : p.Balanced sound account Q start moved) (hs : sound p.shared) (i : Nat)
    (hnext : sound (p.step i).shared) :
    ∃ moved', (p.step i).Balanced sound account Q start moved' := by
  by_cases hidle : ∀ f k, p.threads[i]? ≠ some (.atomic f k)
  · rw [step_idle hidle]
    exact ⟨moved, h⟩
  · simp only [not_forall, not_not] at hidle
    obtain ⟨f, k, ht⟩ := hidle
    have hlt : i < p.threads.length := (List.getElem?_eq_some_iff.mp ht).1
    have hlt' : i < moved.length := h.length.symm ▸ hlt
    have hm : moved[i]? = some moved[i] := List.getElem?_eq_getElem hlt'
    rw [step_atomic ht] at hnext ⊢
    have hmoves := h.moves i _ _ ht hm p.shared hs hnext
    refine ⟨moved.set i (moved[i] + (account (f p.shared) - account p.shared)), ?_, ?_, ?_⟩
    · simp [h.length]
    · intro j t n hj hn
      by_cases hij : i = j
      · subst hij
        rw [List.getElem?_set_self hlt] at hj
        rw [List.getElem?_set_self hlt'] at hn
        cases hj
        cases hn
        exact hmoves
      · rw [List.getElem?_set_ne hij] at hj hn
        exact h.moves j t n hj hn
    · rw [List.sum_set', dif_pos hlt']
      have hbalance := h.balance
      simp only
      omega

theorem Balanced.run (h : p.Balanced sound account Q start moved)
    (hsound : ∀ pre, pre <+: schedule → sound (p.run pre).shared) :
    ∃ moved', (p.run schedule).Balanced sound account Q start moved' := by
  induction schedule generalizing p moved with
  | nil => exact ⟨moved, h⟩
  | cons i rest ih =>
    have hstart : sound p.shared := hsound [] List.nil_prefix
    obtain ⟨moved', hstep⟩ := h.step hstart i (hsound [i] (by simp))
    exact ih hstep fun pre hpre => hsound (i :: pre) (List.cons_prefix_cons.mpr ⟨rfl, hpre⟩)

/-- What the result of a call stands for. -/
def Weighs (weight : κ → α → Int) (calls : List κ) (i : Nat) (a : α) (n : Int) : Prop :=
  ∀ c, calls[i]? = some c → n = weight c a

/-- Once every call has returned, the account holds what it held before and the
sum of what the results say. -/
theorem account_run {program : κ → Prog σ α} {weight : κ → α → Int} {calls : List κ} {s : σ}
    (hmoves : ∀ c ∈ calls, (program c).Moves sound account (fun a n => n = weight c a) 0)
    (hsound : ∀ pre, pre <+: schedule →
      sound ((Pool.mk (calls.map program) s).run pre).shared)
    {results : List α}
    (hdone : ((Pool.mk (calls.map program) s).run schedule).results = some results) :
    account ((Pool.mk (calls.map program) s).run schedule).shared =
      account s + (List.zipWith weight calls results).sum := by
  have hstart : (Pool.mk (calls.map program) s).Balanced sound account (Weighs weight calls)
      (account s) (calls.map fun _ => 0) := by
    refine ⟨by simp, fun i t n ht hn => ?_, by simp⟩
    rw [List.getElem?_map] at ht hn
    obtain ⟨c, hc, rfl⟩ := Option.map_eq_some_iff.mp ht
    rw [hc] at hn
    cases hn
    refine (hmoves c (List.mem_of_getElem? hc)).imp fun a n hn c' hc' => ?_
    cases hc.symm.trans hc'
    exact hn
  obtain ⟨moved, hend⟩ := hstart.run hsound
  have hthreads := threads_of_results hdone
  have hlength : results.length = calls.length := by
    have hrun := Pool.length_run (Pool.mk (calls.map program) s) schedule
    rw [hthreads] at hrun
    simpa using hrun
  have hmoved : moved = List.zipWith weight calls results := by
    refine List.ext_getElem (by simp [hend.length, hthreads, hlength]) fun i hi hi' => ?_
    simp only [List.length_zipWith, Nat.lt_min] at hi'
    have hget : moved[i]? = some moved[i] := List.getElem?_eq_getElem hi
    have hthread : ((Pool.mk (calls.map program) s).run schedule).threads[i]? =
        some (.done results[i]) := by
      rw [hthreads, List.getElem?_map, List.getElem?_eq_getElem hi'.2]
      rfl
    rw [List.getElem_zipWith]
    exact hend.moves i _ _ hthread hget _ (List.getElem?_eq_getElem hi'.1)
  rw [hend.balance, hmoved]

end Pool

end Srrdb.Lib
