/-
Srrdb.Lib.Locks — threads that take and release locks, one step at a time.

`Prog` has a whole critical section as one step. Here the steps are those of
the threads themselves: a `Locked` program acquires a lock, acts on the shared
state, or releases a lock, and a `Crew` of such programs runs under a schedule
that may switch threads between any two steps. A thread that wants a lock
somebody holds does nothing when it is scheduled.

`Locked.Ranked` says that a program takes locks in increasing rank and gives
each one back. A crew of ranked programs never deadlocks: whatever schedule
has run, some schedule finishes every thread (`Crew.exists_completion`).
-/
import Mathlib.Data.Set.Insert
import Mathlib.Data.Finset.Max
import Mathlib.Logic.Hydra

namespace Srrdb.Lib

/-! ## Programs -/

/-- A program over a state `σ` and locks `ι`. What follows an action reads the
state the action started from. -/
inductive Locked (σ ι α : Type) where
  | done (a : α)
  | acquire (r : ι) (k : Locked σ ι α)
  | act (f : σ → σ) (k : σ → Locked σ ι α)
  | release (r : ι) (k : Locked σ ι α)

namespace Locked

variable {σ ι α β : Type}

/-- Sequencing. -/
def bind : Locked σ ι α → (α → Locked σ ι β) → Locked σ ι β
  | .done a, g => g a
  | .acquire r k, g => .acquire r (k.bind g)
  | .act f k, g => .act f fun s => (k s).bind g
  | .release r k, g => .release r (k.bind g)

instance : Monad (Locked σ ι) where
  pure := .done
  bind := bind

/-- One action with a result. -/
def perform (f : σ → α × σ) : Locked σ ι α := .act (fun s => (f s).2) fun s => .done (f s).1

/-- With the locks `held`, the program takes only locks above them, releases
only locks it holds, and ends holding `kept`. -/
def Ranked (rank : ι → Nat) (kept : Set ι) : Set ι → Locked σ ι α → Prop
  | held, .done _ => held = kept
  | held, .acquire r k => (∀ q ∈ held, rank q < rank r) ∧ k.Ranked rank kept (insert r held)
  | held, .act _ k => ∀ s, (k s).Ranked rank kept held
  | held, .release r k => r ∈ held ∧ k.Ranked rank kept (held \ {r})

theorem Ranked.bind {rank : ι → Nat} {held between kept : Set ι} {p : Locked σ ι α}
    (hp : p.Ranked rank between held) {g : α → Locked σ ι β}
    (hg : ∀ a, (g a).Ranked rank kept between) : (p.bind g).Ranked rank kept held := by
  induction p generalizing held with
  | done a =>
    have hend : held = between := hp
    rw [hend]
    exact hg a
  | acquire r k ih => exact ⟨hp.1, ih hp.2⟩
  | act f k ih => exact fun s => ih s (hp s)
  | release r k ih => exact ⟨hp.1, ih hp.2⟩

/-- What is left of a program after one of its steps. -/
inductive Next : Locked σ ι α → Locked σ ι α → Prop where
  | acquire (r : ι) (k : Locked σ ι α) : Next k (.acquire r k)
  | act (f : σ → σ) (k : σ → Locked σ ι α) (s : σ) : Next (k s) (.act f k)
  | release (r : ι) (k : Locked σ ι α) : Next k (.release r k)

theorem next_wf : WellFounded (@Next σ ι α) := by
  refine ⟨fun p => ?_⟩
  induction p with
  | done a => exact ⟨_, fun _ h => by cases h⟩
  | acquire r k ih => exact ⟨_, fun _ h => by cases h; exact ih⟩
  | act f k ih => exact ⟨_, fun _ h => by cases h with | act _ _ s => exact ih s⟩
  | release r k ih => exact ⟨_, fun _ h => by cases h; exact ih⟩

/-- Whether the program is finished. -/
def isDone : Locked σ ι α → Bool
  | .done _ => true
  | _ => false

end Locked

/-! ## Crews -/

/-- Threads, who holds each lock, and the state the threads share. -/
structure Crew (σ ι α : Type) where
  threads : List (Locked σ ι α)
  owner : ι → Option Nat
  shared : σ

namespace Crew

variable {σ ι α : Type}

/-- Threads about to start, with every lock free. -/
def start (threads : List (Locked σ ι α)) (s : σ) : Crew σ ι α := ⟨threads, fun _ => none, s⟩

/-- The locks of thread `i`. -/
def held (c : Crew σ ι α) (i : Nat) : Set ι := {r | c.owner r = some i}

theorem held_start (threads : List (Locked σ ι α)) (s : σ) (i : Nat) :
    (start threads s).held i = ∅ := by
  ext r
  simp [held, start]

variable [DecidableEq ι]

/-- Thread `i` takes its next step, unless it is finished or waits. -/
def step (c : Crew σ ι α) (i : Nat) : Crew σ ι α :=
  match c.threads[i]? with
  | some (.acquire r k) =>
    if c.owner r = none then
      ⟨c.threads.set i k, Function.update c.owner r (some i), c.shared⟩
    else c
  | some (.act f k) => ⟨c.threads.set i (k c.shared), c.owner, f c.shared⟩
  | some (.release r k) => ⟨c.threads.set i k, Function.update c.owner r none, c.shared⟩
  | _ => c

/-- The threads run as the schedule says. -/
def run (c : Crew σ ι α) (schedule : List Nat) : Crew σ ι α :=
  schedule.foldl step c

@[simp] theorem run_nil (c : Crew σ ι α) : c.run [] = c := rfl

@[simp] theorem run_cons (c : Crew σ ι α) (i : Nat) (schedule : List Nat) :
    c.run (i :: schedule) = (c.step i).run schedule := rfl

theorem run_append (c : Crew σ ι α) (first second : List Nat) :
    c.run (first ++ second) = (c.run first).run second :=
  List.foldl_append

section Step

variable {c : Crew σ ι α} {i : Nat}

theorem step_acquire {r : ι} {k : Locked σ ι α} (hi : c.threads[i]? = some (.acquire r k))
    (hfree : c.owner r = none) :
    c.step i = ⟨c.threads.set i k, Function.update c.owner r (some i), c.shared⟩ := by
  unfold step
  rw [hi]
  exact if_pos hfree

theorem step_wait {r : ι} {k : Locked σ ι α} (hi : c.threads[i]? = some (.acquire r k))
    (hheld : c.owner r ≠ none) : c.step i = c := by
  unfold step
  rw [hi]
  exact if_neg hheld

theorem step_act {f : σ → σ} {k : σ → Locked σ ι α} (hi : c.threads[i]? = some (.act f k)) :
    c.step i = ⟨c.threads.set i (k c.shared), c.owner, f c.shared⟩ := by
  unfold step
  rw [hi]

theorem step_release {r : ι} {k : Locked σ ι α} (hi : c.threads[i]? = some (.release r k)) :
    c.step i = ⟨c.threads.set i k, Function.update c.owner r none, c.shared⟩ := by
  unfold step
  rw [hi]

theorem step_done {a : α} (hi : c.threads[i]? = some (.done a)) : c.step i = c := by
  unfold step
  rw [hi]

theorem step_none (hi : c.threads[i]? = none) : c.step i = c := by
  unfold step
  rw [hi]

end Step

/-! ### Who holds what after a step -/

theorem held_take (c : Crew σ ι α) (threads : List (Locked σ ι α)) (s : σ) {r : ι} {i : Nat}
    (hfree : c.owner r = none) (j : Nat) :
    (Crew.mk threads (Function.update c.owner r (some i)) s).held j =
      if j = i then insert r (c.held i) else c.held j := by
  ext q
  by_cases hq : q = r
  · subst hq
    by_cases hj : j = i
    · simp [held, hj]
    · simp [held, hj, hfree, Ne.symm hj]
  · by_cases hj : j = i <;> simp [held, hj, hq]

theorem held_give (c : Crew σ ι α) (threads : List (Locked σ ι α)) (s : σ) {r : ι} {i : Nat}
    (hmine : c.owner r = some i) (j : Nat) :
    (Crew.mk threads (Function.update c.owner r none) s).held j =
      if j = i then c.held i \ {r} else c.held j := by
  ext q
  by_cases hq : q = r
  · subst hq
    by_cases hj : j = i
    · simp [held, hj]
    · simp [held, hj, hmine, Ne.symm hj]
  · by_cases hj : j = i <;> simp [held, hj, hq]

/-! ### Ranked crews -/

/-- Every thread is ranked with the locks it holds, and only threads hold
locks. -/
structure Ordered (rank : ι → Nat) (c : Crew σ ι α) : Prop where
  ranked : ∀ i (t : Locked σ ι α), c.threads[i]? = some t → t.Ranked rank ∅ (c.held i)
  owners : ∀ r i, c.owner r = some i → i < c.threads.length

variable {rank : ι → Nat} {c : Crew σ ι α}

omit [DecidableEq ι] in
theorem ordered_start {threads : List (Locked σ ι α)} (h : ∀ t ∈ threads, t.Ranked rank ∅ ∅)
    (s : σ) : (start threads s).Ordered rank where
  ranked i t ht := by
    rw [held_start]
    exact h t (List.mem_of_getElem? ht)
  owners r i hr := nomatch hr

omit [DecidableEq ι] in
/-- What a thread is after thread `i` has changed. -/
theorem get_set {threads : List (Locked σ ι α)} {i : Nat} {t t' : Locked σ ι α}
    (hi : threads[i]? = some t) (j : Nat) :
    (threads.set i t')[j]? = if j = i then some t' else threads[j]? := by
  have hlt : i < threads.length := (List.getElem?_eq_some_iff.mp hi).1
  by_cases hj : j = i
  · subst hj
    rw [List.getElem?_set_self hlt, if_pos rfl]
  · rw [List.getElem?_set_ne (Ne.symm hj), if_neg hj]

theorem Ordered.step (h : c.Ordered rank) (i : Nat) : (c.step i).Ordered rank := by
  cases hi : c.threads[i]? with
  | none =>
    rw [step_none hi]
    exact h
  | some t =>
    have hlt : i < c.threads.length := (List.getElem?_eq_some_iff.mp hi).1
    have ht := h.ranked i t hi
    cases t with
    | done a =>
      rw [step_done hi]
      exact h
    | acquire r k =>
      by_cases hfree : c.owner r = none
      · rw [step_acquire hi hfree]
        refine ⟨fun j u hj => ?_, fun q j hq => ?_⟩
        · rw [get_set hi] at hj
          rw [held_take c _ _ hfree]
          split at hj <;> rename_i hji
          · cases hj
            rw [if_pos hji]
            exact ht.2
          · rw [if_neg hji]
            exact h.ranked j u hj
        · simp only [List.length_set]
          by_cases hqr : q = r
          · subst hqr
            simp only [Function.update_self, Option.some.injEq] at hq
            exact hq ▸ hlt
          · exact h.owners q j ((Function.update_of_ne hqr _ c.owner).symm.trans hq)
      · rw [step_wait hi hfree]
        exact h
    | act f k =>
      rw [step_act hi]
      refine ⟨fun j u hj => ?_, fun q j hq => ?_⟩
      · rw [get_set hi] at hj
        split at hj <;> rename_i hji
        · cases hj
          subst hji
          exact ht c.shared
        · exact h.ranked j u hj
      · simp only [List.length_set]
        exact h.owners q j hq
    | release r k =>
      rw [step_release hi]
      refine ⟨fun j u hj => ?_, fun q j hq => ?_⟩
      · rw [get_set hi] at hj
        rw [held_give c _ _ ht.1]
        split at hj <;> rename_i hji
        · cases hj
          rw [if_pos hji]
          exact ht.2
        · rw [if_neg hji]
          exact h.ranked j u hj
      · simp only [List.length_set]
        by_cases hqr : q = r
        · subst hqr
          simp at hq
        · exact h.owners q j ((Function.update_of_ne hqr _ c.owner).symm.trans hq)

theorem Ordered.run (h : c.Ordered rank) (schedule : List Nat) : (c.run schedule).Ordered rank := by
  induction schedule generalizing c with
  | nil => exact h
  | cons i rest ih => exact ih (h.step i)

/-! ### Progress -/

/-- Thread `i` is neither finished nor waiting. -/
def Enabled (c : Crew σ ι α) (i : Nat) : Prop :=
  ∃ t', (∃ t, c.threads[i]? = some t ∧ t'.Next t) ∧ (c.step i).threads = c.threads.set i t'

/-- The rank of the lock a program asks for. -/
def wants (rank : ι → Nat) : Option (Locked σ ι α) → Nat
  | some (.acquire r _) => rank r
  | _ => 0

/-- A thread that can take no step and is not finished asks for a lock that
another one holds. -/
theorem waits_of_not_enabled {i : Nat} {t : Locked σ ι α} (hi : c.threads[i]? = some t)
    (hdone : t.isDone = false) (hstuck : ¬c.Enabled i) :
    ∃ r k, t = .acquire r k ∧ c.owner r ≠ none := by
  cases t with
  | done a => cases hdone
  | acquire r k =>
    refine ⟨r, k, rfl, fun hfree => hstuck ⟨k, ⟨_, hi, .acquire r k⟩, ?_⟩⟩
    rw [step_acquire hi hfree]
  | act f k =>
    refine absurd ⟨k c.shared, ⟨_, hi, .act f k c.shared⟩, ?_⟩ hstuck
    rw [step_act hi]
  | release r k =>
    refine absurd ⟨k, ⟨_, hi, .release r k⟩, ?_⟩ hstuck
    rw [step_release hi]

/-- While a thread is unfinished, some thread can step: the one that asks for
the highest lock would otherwise wait for one that asks for a higher lock. -/
theorem Ordered.exists_enabled (h : c.Ordered rank) {i : Nat} {t : Locked σ ι α}
    (hi : c.threads[i]? = some t) (hdone : t.isDone = false) : ∃ j, c.Enabled j := by
  by_contra hstuck
  have hstuck : ∀ j, ¬c.Enabled j := fun j hj => hstuck ⟨j, hj⟩
  let unfinished := (Finset.range c.threads.length).filter fun j =>
    ∃ u, c.threads[j]? = some u ∧ u.isDone = false
  have mem_unfinished : ∀ j, j ∈ unfinished ↔ ∃ u, c.threads[j]? = some u ∧ u.isDone = false := by
    intro j
    simp only [unfinished, Finset.mem_filter, Finset.mem_range, and_iff_right_iff_imp]
    rintro ⟨u, hu, -⟩
    exact (List.getElem?_eq_some_iff.mp hu).1
  obtain ⟨j, hj, hmax⟩ := unfinished.exists_max_image (fun j => wants rank c.threads[j]?)
    ⟨i, (mem_unfinished i).mpr ⟨t, hi, hdone⟩⟩
  obtain ⟨u, hu, hudone⟩ := (mem_unfinished j).mp hj
  obtain ⟨r, k, rfl, howned⟩ := waits_of_not_enabled hu hudone (hstuck j)
  obtain ⟨m, hm⟩ := Option.ne_none_iff_exists'.mp howned
  obtain ⟨v, hv⟩ : ∃ v, c.threads[m]? = some v :=
    ⟨_, List.getElem?_eq_getElem (h.owners r m hm)⟩
  have hranked := h.ranked m v hv
  -- the owner holds a lock, so it is not finished, and waits for a higher one
  have hvdone : v.isDone = false := by
    cases v with
    | done a =>
      have hempty : c.held m = ∅ := hranked
      exact absurd (show r ∈ c.held m from hm) (hempty ▸ Set.notMem_empty r)
    | _ => rfl
  obtain ⟨q, l, rfl, -⟩ := waits_of_not_enabled hv hvdone (hstuck m)
  have hhigher : rank r < rank q := hranked.1 r hm
  have hle := hmax m ((mem_unfinished m).mpr ⟨_, hv, hvdone⟩)
  rw [hu, hv] at hle
  exact absurd hle (Nat.not_le.mpr hhigher)

/-- An enabled step leaves less of the program to run. -/
theorem Enabled.cutExpand {i : Nat} (h : c.Enabled i) :
    Relation.CutExpand Locked.Next (Multiset.ofList (c.step i).threads)
      (Multiset.ofList c.threads) := by
  obtain ⟨t', ⟨t, hi, hnext⟩, hthreads⟩ := h
  obtain ⟨hlt, rfl⟩ := List.getElem?_eq_some_iff.mp hi
  have hafter : Multiset.ofList (c.step i).threads = {t'} + ↑(c.threads.eraseIdx i) := by
    rw [hthreads]
    exact Multiset.coe_eq_coe.mpr (List.set_perm_cons_eraseIdx hlt t')
  have hbefore : Multiset.ofList c.threads = {c.threads[i]} + ↑(c.threads.eraseIdx i) :=
    Multiset.coe_eq_coe.mpr (List.getElem_cons_eraseIdx_perm hlt).symm
  rw [hafter, hbefore]
  exact Relation.cutExpand_single_add hnext _

/-- A crew whose threads take their locks in rank order can always be run to
the end of every thread. -/
theorem Ordered.exists_completion (h : c.Ordered rank) :
    ∃ schedule, ∀ t ∈ (c.run schedule).threads, t.isDone = true := by
  induction hthreads : Multiset.ofList c.threads using
    (Locked.next_wf.cutExpand).induction generalizing c with
  | _ threads ih =>
    by_cases hall : ∀ t ∈ c.threads, t.isDone = true
    · exact ⟨[], hall⟩
    · push Not at hall
      obtain ⟨t, hmem, hdone⟩ := hall
      obtain ⟨i, hi⟩ := List.mem_iff_getElem?.mp hmem
      obtain ⟨j, hj⟩ := h.exists_enabled hi (Bool.eq_false_iff.mpr hdone)
      obtain ⟨schedule, hschedule⟩ := ih _ (hthreads ▸ hj.cutExpand) (h.step j) rfl
      exact ⟨j :: schedule, hschedule⟩

end Crew

end Srrdb.Lib
