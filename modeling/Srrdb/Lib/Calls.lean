/-
Srrdb.Lib.Calls — threads that make one call after another.

A thread that `Makes` calls of a kind runs a program for each call and decides
on the next call once it has the result. What a pool of such threads does to
the shared state, a pool with one thread for each call made does as well
(`Pool.exists_calls`).
-/
import Srrdb.Lib.Prog

namespace Srrdb.Lib

theorem Prog.bind_assoc {σ α β γ : Type} (p : Prog σ α) (g : α → Prog σ β) (k : β → Prog σ γ) :
    (p.bind g).bind k = p.bind fun a => (g a).bind k := by
  induction p with
  | done a => rfl
  | atomic f p ih => exact congrArg (Prog.atomic f) (funext ih)

variable {κ σ ρ α β : Type}

/-- The program makes calls, one after another. -/
inductive Makes (program : κ → Prog σ ρ) : Prog σ α → Prop where
  | done (a : α) : Makes program (.done a)
  | call (c : κ) {k : ρ → Prog σ α} (h : ∀ r, Makes program (k r)) :
      Makes program ((program c).bind k)

variable {program : κ → Prog σ ρ}

theorem Makes.bind {p : Prog σ α} (h : Makes program p) {g : α → Prog σ β}
    (hg : ∀ a, Makes program (g a)) : Makes program (p.bind g) := by
  induction h with
  | done a => exact hg a
  | call c h ih =>
    rw [Prog.bind_assoc]
    exact .call c ih

namespace Pool

variable {s : σ}

theorem step_getElem?_ne (p : Pool σ α) {i j : Nat} (hj : j ≠ i) :
    (p.step i).threads[j]? = p.threads[j]? := by
  unfold step
  split
  · exact List.getElem?_set_ne (Ne.symm hj)
  · rfl

theorem step_atomic {p : Pool σ α} {i : Nat} {f : σ → σ} {k : σ → Prog σ α}
    (hi : p.threads[i]? = some (.atomic f k)) :
    p.step i = ⟨p.threads.set i (k p.shared), f p.shared⟩ := by
  unfold step
  rw [hi]

/-- A thread that is never scheduled changes nothing. -/
theorem run_concat {threads : List (Prog σ α)} (t : Prog σ α) {schedule : List Nat}
    (hin : ∀ i ∈ schedule, i < threads.length) :
    (Pool.mk (threads ++ [t]) s).run schedule =
      ⟨((Pool.mk threads s).run schedule).threads ++ [t],
        ((Pool.mk threads s).run schedule).shared⟩ := by
  induction schedule generalizing threads s with
  | nil => rfl
  | cons i rest ih =>
    have hi : i < threads.length := hin i List.mem_cons_self
    have hget : (threads ++ [t])[i]? = threads[i]? := List.getElem?_append_left hi
    have hrest : ∀ threads' : List (Prog σ α), threads'.length = threads.length →
        ∀ j ∈ rest, j < threads'.length :=
      fun threads' hlen j hj => hlen ▸ hin j (List.mem_cons_of_mem _ hj)
    rw [run_cons, run_cons]
    cases ht : threads[i]? with
    | none => exact absurd (List.getElem?_eq_none_iff.mp ht) (Nat.not_le.mpr hi)
    | some u =>
      cases u with
      | done a =>
        have hstep : (Pool.mk (threads ++ [t]) s).step i = ⟨threads ++ [t], s⟩ := by
          unfold step
          rw [show (Pool.mk (threads ++ [t]) s).threads[i]? = _ from hget.trans ht]
        have hstep' : (Pool.mk threads s).step i = ⟨threads, s⟩ := by
          unfold step
          rw [show (Pool.mk threads s).threads[i]? = _ from ht]
        rw [hstep, hstep']
        exact ih (hrest threads rfl)
      | atomic f k =>
        rw [step_atomic (p := ⟨threads ++ [t], s⟩) (hget.trans ht),
          step_atomic (p := ⟨threads, s⟩) ht]
        simp only [List.set_append_left i (k s) hi]
        exact ih (hrest _ List.length_set)

end Pool

theorem Pool.length_run (p : Pool σ α) (schedule : List Nat) :
    (p.run schedule).threads.length = p.threads.length := by
  induction schedule generalizing p with
  | nil => rfl
  | cons i rest ih =>
    rw [run_cons, ih]
    unfold step
    split
    · exact List.length_set
    · rfl

theorem Pool.run_append (p : Pool σ α) (first second : List Nat) :
    p.run (first ++ second) = (p.run first).run second :=
  List.foldl_append

/-- The threads of a finished pool. -/
theorem Pool.threads_of_results {p : Pool σ α} {results : List α}
    (h : p.results = some results) :
    p.threads = results.map .done := by
  obtain ⟨threads, s⟩ := p
  unfold Pool.results at h
  dsimp only at h ⊢
  induction threads generalizing results with
  | nil =>
    cases h
    rfl
  | cons t ts ih =>
    cases t with
    | atomic f k => simp at h
    | done a =>
      simp only [List.mapM_cons, Option.pure_def, Option.bind_eq_bind, Option.bind_some,
        Option.bind_eq_some_iff, Option.some.injEq] at h
      obtain ⟨rest, hrest, rfl⟩ := h
      rw [ih hrest, List.map_cons]

/-- The first section of a caller is the first section of a call. -/
theorem Makes.atomic {t : Prog σ α} (h : Makes program t) {f : σ → σ} {k' : σ → Prog σ α}
    (ht : t = .atomic f k') : ∃ c q k, program c = .atomic f q ∧
      (k' = fun s => (q s).bind k) ∧ ∀ r, Makes program (k r) := by
  induction h with
  | done a => cases ht
  | @call c k hk ih =>
    cases hc : program c with
    | done r =>
      rw [hc] at ht
      exact ih r ht
    | atomic g q =>
      rw [hc] at ht
      obtain ⟨rfl, rfl⟩ := Prog.atomic.inj ht
      exact ⟨c, q, k, hc, rfl, hk⟩

/-- A pool of callers and a pool of calls in the same state. A caller between
two calls has no counterpart; one inside a call has a thread of its own. -/
structure Answers (program : κ → Prog σ ρ) (p : Pool σ α) (s : σ) (calls : List κ)
    (schedule : List Nat) (slot : Nat → Option Nat) : Prop where
  within : ∀ i ∈ schedule, i < calls.length
  shared : ((Pool.mk (calls.map program) s).run schedule).shared = p.shared
  slots : ∀ i n, slot i = some n → n < calls.length
  distinct : ∀ i j n, slot i = some n → slot j = some n → i = j
  between : ∀ i (t : Prog σ α), p.threads[i]? = some t → slot i = none → Makes program t
  inside : ∀ i n (t : Prog σ α), p.threads[i]? = some t → slot i = some n → ∃ q k,
    ((Pool.mk (calls.map program) s).run schedule).threads[n]? = some q ∧ t = q.bind k ∧
      ∀ r, Makes program (k r)

namespace Answers

variable {p : Pool σ α} {s : σ} {calls : List κ} {schedule : List Nat} {slot : Nat → Option Nat}

/-- A caller inside a call takes a step of it. -/
theorem step_inside (h : Answers program p s calls schedule slot) {i n : Nat} {f : σ → σ}
    {c : σ → Prog σ ρ} {k : ρ → Prog σ α} (hslot : slot i = some n)
    (hi : p.threads[i]? = some ((Prog.atomic f c).bind k))
    (hn : ((Pool.mk (calls.map program) s).run schedule).threads[n]? = some (.atomic f c))
    (hk : ∀ r, Makes program (k r)) :
    Answers program (p.step i) s calls (schedule ++ [n]) slot := by
  have hstep := Pool.step_atomic (p := p) hi
  have hstep' := Pool.step_atomic hn
  have hrun : (Pool.mk (calls.map program) s).run (schedule ++ [n]) =
      ((Pool.mk (calls.map program) s).run schedule).step n :=
    Pool.run_append _ schedule [n]
  constructor
  · intro j hj
    rcases List.mem_append.mp hj with hj | hj
    · exact h.within j hj
    · rw [List.mem_singleton.mp hj]
      exact h.slots i n hslot
  · rw [hrun, hstep', hstep, h.shared]
  · exact h.slots
  · exact h.distinct
  · intro j t hj hnone
    have hji : j ≠ i := fun hji => by
      rw [hji, hslot] at hnone
      cases hnone
    rw [Pool.step_getElem?_ne p hji] at hj
    exact h.between j t hj hnone
  · intro j m t hj hslotj
    rw [hrun]
    by_cases hji : j = i
    · subst hji
      obtain rfl : n = m := Option.some.inj (hslot.symm.trans hslotj)
      have hlt : j < p.threads.length := (List.getElem?_eq_some_iff.mp hi).1
      have hlt' := (List.getElem?_eq_some_iff.mp hn).1
      rw [hstep] at hj
      have ht : (c p.shared).bind k = t :=
        Option.some.inj ((List.getElem?_set_self hlt).symm.trans hj)
      refine ⟨c p.shared, k, ?_, ht.symm, hk⟩
      rw [hstep', h.shared]
      exact List.getElem?_set_self hlt'
    · have hmn : m ≠ n := fun hmn => hji (h.distinct j i n (hmn ▸ hslotj) hslot)
      rw [Pool.step_getElem?_ne p hji] at hj
      obtain ⟨q, k', hq, ht, hk'⟩ := h.inside j m t hj hslotj
      exact ⟨q, k', (Pool.step_getElem?_ne _ hmn).trans hq, ht, hk'⟩

/-- One more call, which has not started. -/
theorem run_call (h : Answers program p s calls schedule slot) (c : κ) :
    (Pool.mk ((calls ++ [c]).map program) s).run schedule =
      ⟨((Pool.mk (calls.map program) s).run schedule).threads ++ [program c],
        ((Pool.mk (calls.map program) s).run schedule).shared⟩ := by
  rw [List.map_append, List.map_singleton]
  refine Pool.run_concat (program c) fun j hj => ?_
  rw [List.length_map]
  exact h.within j hj

theorem run_call_last (h : Answers program p s calls schedule slot) (c : κ) :
    ((Pool.mk ((calls ++ [c]).map program) s).run schedule).threads[calls.length]? =
      some (program c) := by
  have hlen : ((Pool.mk (calls.map program) s).run schedule).threads.length = calls.length := by
    rw [Pool.length_run, List.length_map]
  rw [h.run_call, ← hlen]
  exact List.getElem?_concat_length

/-- A caller makes a call: the pool of calls gets one more thread. -/
theorem call (h : Answers program p s calls schedule slot) {i : Nat} {c : κ}
    {k : ρ → Prog σ α} (hi : p.threads[i]? = some ((program c).bind k))
    (hk : ∀ r, Makes program (k r)) :
    Answers program p s (calls ++ [c]) schedule (Function.update slot i (some calls.length)) := by
  have hrun := h.run_call c
  constructor
  · intro j hj
    rw [List.length_append]
    exact Nat.lt_add_right _ (h.within j hj)
  · rw [hrun]
    exact h.shared
  · intro j n hj
    rw [List.length_append, List.length_singleton]
    by_cases hji : j = i
    · rw [hji, Function.update_self] at hj
      cases hj
      exact Nat.lt_succ_self _
    · rw [Function.update_of_ne hji] at hj
      exact Nat.lt_succ_of_lt (h.slots j n hj)
  · intro j m n hj hm
    by_cases hji : j = i <;> by_cases hmi : m = i
    · rw [hji, hmi]
    · rw [hji, Function.update_self] at hj
      rw [Function.update_of_ne hmi] at hm
      cases hj
      exact absurd (h.slots m _ hm) (Nat.lt_irrefl _)
    · rw [hmi, Function.update_self] at hm
      rw [Function.update_of_ne hji] at hj
      cases hm
      exact absurd (h.slots j _ hj) (Nat.lt_irrefl _)
    · rw [Function.update_of_ne hji] at hj
      rw [Function.update_of_ne hmi] at hm
      exact h.distinct j m n hj hm
  · intro j t hj hnone
    by_cases hji : j = i
    · rw [hji, Function.update_self] at hnone
      cases hnone
    · rw [Function.update_of_ne hji] at hnone
      exact h.between j t hj hnone
  · intro j n t hj hslotj
    by_cases hji : j = i
    · rw [hji, Function.update_self] at hslotj
      cases hslotj
      rw [hji, hi] at hj
      cases hj
      exact ⟨program c, k, h.run_call_last c, rfl, hk⟩
    · rw [hrun]
      rw [Function.update_of_ne hji] at hslotj
      obtain ⟨q, k', hq, ht, hk'⟩ := h.inside j n t hj hslotj
      have hlt := (List.getElem?_eq_some_iff.mp hq).1
      exact ⟨q, k', (List.getElem?_append_left hlt).trans hq, ht, hk'⟩

/-- Every step of a caller is a step of a call, perhaps of a new one. -/
theorem step (h : Answers program p s calls schedule slot) (i : Nat) :
    ∃ calls' schedule' slot', Answers program (p.step i) s calls' schedule' slot' := by
  cases hi : p.threads[i]? with
  | none =>
    have hstep : p.step i = p := by
      unfold Pool.step
      rw [hi]
    exact ⟨calls, schedule, slot, hstep.symm ▸ h⟩
  | some t =>
    cases t with
    | done a =>
      have hstep : p.step i = p := by
        unfold Pool.step
        rw [hi]
      exact ⟨calls, schedule, slot, hstep.symm ▸ h⟩
    | atomic f k' =>
      -- a caller between two calls: the call it makes next has the section
      have hbetween : Makes program (.atomic f k') →
          ∃ calls' schedule' slot', Answers program (p.step i) s calls' schedule' slot' := by
        intro hmakes
        obtain ⟨c, q, k, hc, rfl, hk⟩ := hmakes.atomic rfl
        have hthread : p.threads[i]? = some ((program c).bind k) := by
          rw [hi, hc]
          rfl
        have hcall := h.call hthread hk
        have hnew := h.run_call_last c
        rw [hc] at hnew
        exact ⟨_, _, _, hcall.step_inside (Function.update_self ..) hi hnew hk⟩
      cases hslot : slot i with
      | none => exact hbetween (h.between i _ hi hslot)
      | some n =>
        obtain ⟨q, k, hq, ht, hk⟩ := h.inside i n _ hi hslot
        cases q with
        | done r => exact hbetween (ht.symm ▸ hk r)
        | atomic g c =>
          rw [ht] at hi
          exact ⟨_, _, _, h.step_inside hslot hi hq hk⟩

theorem run (h : Answers program p s calls schedule slot) (schedule₀ : List Nat) :
    ∃ calls' schedule' slot', Answers program (p.run schedule₀) s calls' schedule' slot' := by
  induction schedule₀ generalizing p calls schedule slot with
  | nil => exact ⟨_, _, _, h⟩
  | cons i rest ih =>
    obtain ⟨_, _, _, hstep⟩ := h.step i
    exact ih hstep

/-- Callers that have not started. -/
theorem start {threads : List (Prog σ α)} (h : ∀ t ∈ threads, Makes program t) (s : σ) :
    Answers program (Pool.mk threads s) s [] [] fun _ => none where
  within _ hi := nomatch hi
  shared := rfl
  slots _ _ hi := nomatch hi
  distinct _ _ _ hi _ := nomatch hi
  between _ t hi _ := h t (List.mem_of_getElem? hi)
  inside _ _ _ _ hn := nomatch hn

end Answers

/-- What a pool of callers does to the state, a pool of calls does too. -/
theorem Pool.exists_calls {threads : List (Prog σ α)} (h : ∀ t ∈ threads, Makes program t)
    (s : σ) (schedule : List Nat) : ∃ (calls : List κ) (schedule' : List Nat),
      ((Pool.mk (calls.map program) s).run schedule').shared =
        ((Pool.mk threads s).run schedule).shared := by
  obtain ⟨calls, schedule', slot, hend⟩ := (Answers.start h s).run schedule
  exact ⟨calls, schedule', hend.shared⟩

end Srrdb.Lib
