/-
Srrdb.Lib.Machine — threads with explicit places.

What is left of a program is a function, and nothing can be read off it. A
`Machine` names the places a thread can be at and says what the next section
does from each; `Machine.Stands` says that a place stands for what is left of
a program. A `Floor` is a pool whose threads are at places, and `Shows.run`
carries the runs of a pool over to it, so that invariants and conditions can
be stated by cases on places.
-/
import Srrdb.Lib.Prog
import Mathlib.Data.List.Forall2
import Mathlib.Data.List.Perm.Basic

namespace Srrdb.Lib

variable {σ α π : Type}

/-- Places, the results of the finished ones, and the next section from each. -/
structure Machine (σ α π : Type) where
  result : π → Option α
  turn : π → σ → π × σ

/-- Threads at places, over one state. -/
structure Floor (σ π : Type) where
  places : List π
  shared : σ

/-! ## Places and programs -/

namespace Machine

variable {M : Machine σ α π}

/-- The place stands for the program: the same sections, the same results. -/
inductive Stands (M : Machine σ α π) : π → Prog σ α → Prop
  | done {q : π} {a : α} (h : M.result q = some a) : Stands M q (.done a)
  | atomic {q : π} {f : σ → σ} {k : σ → Prog σ α} (h : M.result q = none)
      (hf : ∀ s, f s = (M.turn q s).2) (hk : ∀ s, Stands M (M.turn q s).1 (k s)) :
      Stands M q (.atomic f k)

/-- Thread `i` takes its turn; a finished thread does nothing. -/
def step (M : Machine σ α π) (p : Floor σ π) (i : Nat) : Floor σ π :=
  match p.places[i]? with
  | some q =>
    if (M.result q).isSome then p
    else ⟨p.places.set i (M.turn q p.shared).1, (M.turn q p.shared).2⟩
  | none => p

/-- The threads run as the schedule says. -/
def run (M : Machine σ α π) (p : Floor σ π) (schedule : List Nat) : Floor σ π :=
  schedule.foldl M.step p

/-- What a step does: nothing, or the turn of a thread. -/
theorem step_cases (M : Machine σ α π) (p : Floor σ π) (i : Nat) :
    M.step p i = p ∨ ∃ q, p.places[i]? = some q ∧ M.result q = none ∧
      M.step p i = ⟨p.places.set i (M.turn q p.shared).1, (M.turn q p.shared).2⟩ := by
  unfold step
  split
  · next q hget =>
    cases hr : M.result q with
    | some a => exact .inl rfl
    | none => exact .inr ⟨q, hget, hr, rfl⟩
  · exact .inl rfl

end Machine

/-! ## Floors and pools -/

/-- The places stand for the threads of the pool. -/
structure Shows (M : Machine σ α π) (p : Floor σ π) (pool : Pool σ α) : Prop where
  stands : List.Forall₂ M.Stands p.places pool.threads
  shared : p.shared = pool.shared

namespace Shows

variable {M : Machine σ α π} {p : Floor σ π} {pool : Pool σ α}

theorem set_forall₂ {β γ : Type} {R : β → γ → Prop} {bs : List β} {cs : List γ}
    (h : List.Forall₂ R bs cs) (i : Nat) {b : β} {c : γ} (hbc : R b c) :
    List.Forall₂ R (bs.set i b) (cs.set i c) := by
  induction h generalizing i with
  | nil => exact .nil
  | cons hab hrest ih =>
    cases i with
    | zero => exact .cons hbc hrest
    | succ i => exact .cons hab (ih i)

theorem get_forall₂ {β γ : Type} {R : β → γ → Prop} {bs : List β} {cs : List γ}
    (h : List.Forall₂ R bs cs) (i : Nat) :
    (bs[i]? = none ∧ cs[i]? = none) ∨ ∃ b c, bs[i]? = some b ∧ cs[i]? = some c ∧ R b c := by
  induction h generalizing i with
  | nil => exact .inl ⟨rfl, rfl⟩
  | cons hab _ ih =>
    cases i with
    | zero => exact .inr ⟨_, _, rfl, rfl, hab⟩
    | succ i => exact ih i

theorem step (h : Shows M p pool) (i : Nat) : Shows M (M.step p i) (pool.step i) := by
  obtain ⟨hstands, hshared⟩ := h
  unfold Machine.step Pool.step
  rcases get_forall₂ hstands i with ⟨hq, ht⟩ | ⟨q, t, hq, ht, hqt⟩
  · rw [hq, ht]
    exact ⟨hstands, hshared⟩
  · rw [hq, ht]
    cases hqt with
    | done hr =>
      simp only [hr]
      exact ⟨hstands, hshared⟩
    | atomic hr hf hk =>
      simp only [hr, ← hshared]
      exact ⟨set_forall₂ hstands i (hk p.shared), (hf p.shared).symm⟩

/-- A run of the pool is a run over the places. -/
theorem run (h : Shows M p pool) (schedule : List Nat) :
    Shows M (M.run p schedule) (pool.run schedule) := by
  induction schedule generalizing p pool with
  | nil => exact h
  | cons i rest ih => exact ih (h.step i)

/-- Threads that are over are at places that are. -/
theorem results (h : Shows M p pool) {as : List α} (hdone : pool.results = some as) :
    p.places.map M.result = as.map some := by
  obtain ⟨hstands, -⟩ := h
  obtain ⟨threads, shared⟩ := pool
  unfold Pool.results at hdone
  simp only at hdone hstands
  generalize p.places = places at hstands ⊢
  induction hstands generalizing as with
  | nil =>
    cases hdone
    rfl
  | @cons q t places threads hqt _ ih =>
    rw [List.mapM_cons] at hdone
    obtain ⟨a, ha, hdone⟩ := Option.bind_eq_some_iff.mp hdone
    obtain ⟨others, hothers, hdone⟩ := Option.bind_eq_some_iff.mp hdone
    cases hdone
    cases hqt with
    | done hr =>
      cases ha
      rw [List.map_cons, List.map_cons, hr, ih hothers]
    | atomic => cases ha

end Shows

/-- One element of a list and the others, before and after a replacement. -/
theorem exists_perm_set {a : α} {l : List α} {i : Nat} (h : l[i]? = some a) :
    ∃ rest, l.Perm (a :: rest) ∧ ∀ b, (l.set i b).Perm (b :: rest) := by
  induction l generalizing i with
  | nil => cases h
  | cons first others ih =>
    cases i with
    | zero =>
      cases h
      exact ⟨others, .refl _, fun b => .refl _⟩
    | succ i =>
      obtain ⟨rest, hperm, hset⟩ := ih h
      refine ⟨first :: rest, ?_, fun b => ?_⟩
      · exact (hperm.cons first).trans (.swap ..)
      · exact ((hset b).cons first).trans (.swap ..)

end Srrdb.Lib
