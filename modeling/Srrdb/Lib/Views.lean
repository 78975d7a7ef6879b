/-
Srrdb.Lib.Views — threads that do not look at what the others change.

A view of the state is given by the relation "alike to it". A program `Sees`
the state through the view if its sections answer alike and act alike on alike
states; a program is `Beside` the view if none of its sections changes it. In
a pool where every thread either is within the view or is beside it, the
threads within run as if they were scheduled without the others
(`Pool.run_within`).

A section may also break the state for everyone, as a panic under a mutex
does. `ok` says that this has not happened; nothing repairs it.
-/
import Srrdb.Lib.Calls

namespace Srrdb.Lib

variable {σ ε α β : Type} {R : σ → σ → Prop} {ok : σ → Prop}

/-! ## Programs within and beside a view -/

namespace Prog

/-- Every section answers and acts alike on alike states. -/
def Sees (R : σ → σ → Prop) : Prog σ α → Prop
  | .done _ => True
  | .atomic f k => (∀ s t, R s t → R (f s) (f t) ∧ k s = k t) ∧ ∀ s, (k s).Sees R

theorem Sees.bind {p : Prog σ α} (hp : p.Sees R) {g : α → Prog σ β} (hg : ∀ a, (g a).Sees R) :
    (p.bind g).Sees R := by
  induction p with
  | done a => exact hg a
  | atomic f k ih =>
    refine ⟨fun s t hst => ?_, fun s => ih s (hp.2 s)⟩
    obtain ⟨hf, hk⟩ := hp.1 s t hst
    exact ⟨hf, congrArg (fun p => Prog.bind p g) hk⟩

/-- No section changes the view, unless it breaks the state: whatever a state
is alike to, the state stays alike to. -/
def Beside (R : σ → σ → Prop) (ok : σ → Prop) (p : Prog σ α) : Prop :=
  ∀ s₀, p.Keeps fun s => ok s → R s₀ s

/-- No section repairs the state. -/
def RepairsNothing (ok : σ → Prop) (p : Prog σ α) : Prop := p.Keeps fun s => ¬ ok s

end Prog

/-! ## Handlers within a view -/

namespace Handler

/-- Every section of the handler answers and acts alike on alike states. -/
def Sees (R : σ → σ → Prop) (h : Handler σ ε α) : Prop := Prog.Sees R (ExceptT.run h)

theorem sees_pure (a : α) : Sees R (pure a : Handler σ ε α) := trivial

theorem sees_throw (x : ε) : Sees R (throw x : Handler σ ε α) := trivial

theorem sees_sec {f : σ → Except ε α × σ}
    (hf : ∀ s t, R s t → (f s).1 = (f t).1 ∧ R (f s).2 (f t).2) :
    Sees R (sec f : Handler σ ε α) :=
  ⟨fun s t hst => ⟨(hf s t hst).2, congrArg Prog.done (hf s t hst).1⟩, fun _ => trivial⟩

theorem Sees.bind {h : Handler σ ε α} (hh : Sees R h) {k : α → Handler σ ε β}
    (hk : ∀ a, Sees R (k a)) : Sees R (h >>= k) := by
  have hb : ExceptT.run (h >>= k) = Prog.bind (ExceptT.run h) (ExceptT.bindCont k) := rfl
  rw [Sees, hb]
  refine Prog.Sees.bind hh fun r => ?_
  cases r with
  | ok a => exact hk a
  | error x => trivial

end Handler

/-! ## Pools -/

namespace Pool

variable {p q : Pool σ α} {own : Nat → Bool} {I : σ → Prop} {schedule : List Nat}

/-- What a step of the pool makes of its threads. -/
theorem thread_step {i j : Nat} {t : Prog σ α} (ht : (p.step i).threads[j]? = some t) :
    p.threads[j]? = some t ∨
      ∃ f k, p.threads[j]? = some (.atomic f k) ∧ i = j ∧ t = k p.shared := by
  unfold step at ht
  split at ht
  · next f k hget =>
    by_cases hij : i = j
    · subst hij
      rw [List.getElem?_set_self (List.getElem?_eq_some_iff.mp hget).1] at ht
      exact .inr ⟨f, k, hget, rfl, (Option.some.inj ht).symm⟩
    · rw [List.getElem?_set_ne hij] at ht
      exact .inl ht
  · exact .inl ht

/-- A thread that is finished or does not exist takes no step. -/
theorem step_idle {i : Nat} (h : ∀ f k, p.threads[i]? ≠ some (.atomic f k)) : p.step i = p := by
  unfold step
  split
  · next f k hget => exact absurd hget (h f k)
  · rfl

/-- What nothing repairs, and is not broken at the end, is not broken before. -/
theorem sound_of_keeps (hkeeps : ∀ t ∈ p.threads, t.Keeps I)
    (hback : ∀ t ∈ p.threads, t.RepairsNothing ok) (hs : I p.shared)
    (hok : ok (p.run schedule).shared) :
    ∀ pre, pre <+: schedule → I (p.run pre).shared ∧ ok (p.run pre).shared := by
  induction schedule generalizing p with
  | nil =>
    intro pre hpre
    rw [List.prefix_nil.mp hpre]
    exact ⟨hs, hok⟩
  | cons i rest ih =>
    intro pre hpre
    cases pre with
    | nil =>
      refine ⟨hs, ?_⟩
      by_contra hno
      exact keeps_run hback hno (i :: rest) hok
    | cons j pre =>
      obtain ⟨rfl, hrest⟩ := List.cons_prefix_cons.mp hpre
      obtain ⟨hkeeps', hs'⟩ := keeps_step hkeeps hs j
      refine ih hkeeps' (fun t ht => ?_) hs' hok pre hrest
      obtain ⟨i, hi⟩ := List.mem_iff_getElem?.mp ht
      rcases thread_step hi with hi | ⟨f, k, hget, -, rfl⟩
      · exact hback t (List.mem_of_getElem? hi)
      · exact (hback _ (List.mem_of_getElem? hget)).2 p.shared

/-- Some threads are within the view, the others beside it. -/
structure Parted (R : σ → σ → Prop) (ok : σ → Prop) (own : Nat → Bool) (p : Pool σ α) : Prop where
  within : ∀ i t, own i = true → p.threads[i]? = some t → t.Sees R
  beside : ∀ i t, own i = false → p.threads[i]? = some t → t.Beside R ok
  back : ∀ (i : Nat) (t : Prog σ α), p.threads[i]? = some t → t.RepairsNothing ok

theorem Parted.step (h : p.Parted R ok own) (i : Nat) : (p.step i).Parted R ok own where
  within j t hj ht := by
    rcases thread_step ht with ht | ⟨f, k, hget, -, rfl⟩
    · exact h.within j t hj ht
    · exact (h.within j _ hj hget).2 p.shared
  beside j t hj ht := by
    rcases thread_step ht with ht | ⟨f, k, hget, -, rfl⟩
    · exact h.beside j t hj ht
    · exact fun s₀ => (h.beside j _ hj hget s₀).2 p.shared
  back j t ht := by
    rcases thread_step ht with ht | ⟨f, k, hget, -, rfl⟩
    · exact h.back j t ht
    · exact (h.back j _ hget).2 p.shared

/-- Nothing repairs the state. -/
theorem Parted.ok_of_run (h : p.Parted R ok own) {schedule : List Nat}
    (hok : ok (p.run schedule).shared) : ok p.shared := by
  by_contra hno
  have hkeeps : ∀ t ∈ p.threads, t.Keeps fun s => ¬ ok s := by
    intro t ht
    obtain ⟨i, hi⟩ := List.mem_iff_getElem?.mp ht
    exact h.back i t hi
  exact keeps_run hkeeps hno schedule hok

/-- A second pool has the same threads within the view, and its state is alike. -/
structure Alike (R : σ → σ → Prop) (own : Nat → Bool) (p q : Pool σ α) : Prop where
  threads : ∀ i, own i = true → q.threads[i]? = p.threads[i]?
  shared : R p.shared q.shared

/-- A thread within the view does the same in both pools. -/
theorem Alike.step_own (h : Alike R own p q) (hp : p.Parted R ok own) {i : Nat}
    (hi : own i = true) : Alike R own (p.step i) (q.step i) := by
  have hget : q.threads[i]? = p.threads[i]? := h.threads i hi
  by_cases hidle : ∀ f k, p.threads[i]? ≠ some (.atomic f k)
  · rw [step_idle hidle, step_idle (hget ▸ hidle)]
    exact h
  · simp only [not_forall, not_not] at hidle
    obtain ⟨f, k, ht⟩ := hidle
    obtain ⟨hf, hk⟩ := (hp.within i _ hi ht).1 p.shared q.shared h.shared
    rw [step_atomic ht, step_atomic (hget.trans ht)]
    refine ⟨fun j hj => ?_, hf⟩
    by_cases hij : i = j
    · subst hij
      show (q.threads.set i _)[i]? = (p.threads.set i _)[i]?
      rw [List.getElem?_set_self (List.getElem?_eq_some_iff.mp ht).1,
        List.getElem?_set_self (List.getElem?_eq_some_iff.mp (hget.trans ht)).1, hk]
    · show (q.threads.set i _)[j]? = (p.threads.set i _)[j]?
      rw [List.getElem?_set_ne hij, List.getElem?_set_ne hij]
      exact h.threads j hj

/-- A thread beside the view changes nothing of it. -/
theorem Alike.step_other (hR : Equivalence R) (h : Alike R own p q) (hp : p.Parted R ok own)
    {i : Nat} (hi : own i = false) (hok : ok (p.step i).shared) : Alike R own (p.step i) q := by
  refine ⟨fun j hj => ?_, ?_⟩
  · have hne : j ≠ i := by
      rintro rfl
      rw [hi] at hj
      cases hj
    rw [step_getElem?_ne p hne]
    exact h.threads j hj
  · by_cases hidle : ∀ f k, p.threads[i]? ≠ some (.atomic f k)
    · rw [step_idle hidle]
      exact h.shared
    · simp only [not_forall, not_not] at hidle
      obtain ⟨f, k, ht⟩ := hidle
      rw [step_atomic ht] at hok ⊢
      have hstep : R p.shared (f p.shared) :=
        (hp.beside i _ hi ht p.shared).1 p.shared (fun _ => hR.refl p.shared) hok
      exact hR.trans (hR.symm hstep) h.shared

/-- The threads within the view run as if the others were never scheduled. -/
theorem run_within (hR : Equivalence R) (hp : p.Parted R ok own) (h : Alike R own p q)
    {schedule : List Nat} (hok : ok (p.run schedule).shared) :
    Alike R own (p.run schedule) (q.run (schedule.filter own)) := by
  induction schedule generalizing p q with
  | nil => exact h
  | cons i rest ih =>
    rw [run_cons] at hok ⊢
    cases hi : own i with
    | true =>
      rw [List.filter_cons_of_pos hi, run_cons]
      exact ih (hp.step i) (h.step_own hp hi) hok
    | false =>
      rw [List.filter_cons_of_neg (by simp [hi])]
      exact ih (hp.step i) (h.step_other hR hp hi ((hp.step i).ok_of_run hok)) hok

end Pool

end Srrdb.Lib
