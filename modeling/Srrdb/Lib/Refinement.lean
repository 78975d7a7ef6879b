/-
Srrdb.Lib.Refinement — threads that do what simpler threads do.

A program refines another one, through an abstraction of its state, if each of
its sections is a section of the other, or is not seen in the abstraction, and
if their results agree. Where the threads of a pool refine those of another,
whatever the pool does under a schedule the other does under a part of it
(`Pool.Refines.run`).

`sound` is what a section may rely on: it holds before and after every section
of the runs considered.
-/
import Srrdb.Lib.Views

namespace Srrdb.Lib

variable {σ τ ε α β γ δ : Type} {sound : σ → Prop} {abs : σ → τ}

/-! ## Programs -/

namespace Prog

/-- The first program refines the second: it takes the same steps, and perhaps
some that are not seen, and their results agree. -/
inductive Refines (sound : σ → Prop) (abs : σ → τ) (S : α → β → Prop) :
    Prog σ α → Prog τ β → Prop
  | done {a : α} {b : β} (h : S a b) : Refines sound abs S (.done a) (.done b)
  | step {f : σ → σ} {k : σ → Prog σ α} {g : τ → τ} {l : τ → Prog τ β}
      (hf : ∀ s, sound s → sound (f s) → abs (f s) = g (abs s))
      (hk : ∀ s, sound s → sound (f s) → Refines sound abs S (k s) (l (abs s))) :
      Refines sound abs S (.atomic f k) (.atomic g l)
  | pause {f : σ → σ} {k : σ → Prog σ α} {q : Prog τ β}
      (hf : ∀ s, sound s → sound (f s) → abs (f s) = abs s)
      (hk : ∀ s, sound s → sound (f s) → Refines sound abs S (k s) q) :
      Refines sound abs S (.atomic f k) q

theorem Refines.bind {S : α → β → Prop} {T : γ → δ → Prop} {p : Prog σ α} {q : Prog τ β}
    {k : α → Prog σ γ} {l : β → Prog τ δ} (h : Refines sound abs S p q)
    (hk : ∀ a b, S a b → Refines sound abs T (k a) (l b)) :
    Refines sound abs T (p.bind k) (q.bind l) := by
  induction h with
  | done h => exact hk _ _ h
  | step hf _ ih => exact .step hf ih
  | pause hf _ ih => exact .pause hf ih

end Prog

/-! ## Handlers -/

namespace Handler

/-- The first handler refines the second, and their outcomes agree. -/
def Refines (sound : σ → Prop) (abs : σ → τ) (S : Except ε α → Except ε β → Prop)
    (h : Handler σ ε α) (k : Handler τ ε β) : Prop :=
  Prog.Refines sound abs S (ExceptT.run h) (ExceptT.run k)

/-- A section is the same with nothing after it. -/
theorem sec_bind_pure (f : σ → Except ε α × σ) : (sec f >>= pure : Handler σ ε α) = sec f := by
  have hrun : ExceptT.run (sec f >>= pure : Handler σ ε α) = ExceptT.run (sec f) := by
    refine congrArg (Prog.atomic fun s => (f s).2) (funext fun s => ?_)
    show ExceptT.bindCont pure (f s).1 = Prog.done (f s).1
    rcases (f s).1 with x | a <;> rfl
  exact hrun

/-- What is left to show of two handlers after their first parts. -/
def Continue (sound : σ → Prop) (abs : σ → τ) (S : Except ε γ → Except ε δ → Prop)
    (k : α → Handler σ ε γ) (l : β → Handler τ ε δ) : Except ε α → Except ε β → Prop
  | .ok a, .ok b => Refines sound abs S (k a) (l b)
  | .error x, .error y => S (.error x) (.error y)
  | _, _ => False

section Refines

variable {S : Except ε γ → Except ε δ → Prop} {k : α → Handler σ ε γ} {l : β → Handler τ ε δ}

/-- Refinement of the first parts, and of what is left after each. -/
theorem Refines.bind {T : Except ε α → Except ε β → Prop} {h : Handler σ ε α}
    {h' : Handler τ ε β} (hh : Refines sound abs T h h')
    (hk : ∀ r r', T r r' → Continue sound abs S k l r r') :
    Refines sound abs S (h >>= k) (h' >>= l) := by
  refine Prog.Refines.bind hh fun r r' hr => ?_
  have hcontinue := hk r r' hr
  rcases r with x | a <;> rcases r' with y | b
  · exact .done hcontinue
  · exact hcontinue.elim
  · exact hcontinue.elim
  · exact hcontinue

theorem refines_pure {c : γ} {d : δ} (h : S (.ok c) (.ok d)) :
    Refines sound abs S (pure c) (pure d) :=
  .done h

theorem refines_throw {x y : ε} (h : S (.error x) (.error y)) :
    Refines sound abs S (throw x) (throw y) :=
  .done h

/-- A section that is seen, and what follows it. -/
theorem refines_sec_bind {f : σ → Except ε α × σ} {g : τ → Except ε β × τ}
    (hf : ∀ s, sound s → sound (f s).2 → abs (f s).2 = (g (abs s)).2)
    (hk : ∀ s, sound s → sound (f s).2 → Continue sound abs S k l (f s).1 (g (abs s)).1) :
    Refines sound abs S ((sec f : Handler σ ε α) >>= k) ((sec g : Handler τ ε β) >>= l) := by
  refine Prog.Refines.step hf fun s hs hend => ?_
  have hcontinue := hk s hs hend
  show Prog.Refines _ _ _ (ExceptT.bindCont k (f s).1) (ExceptT.bindCont l (g (abs s)).1)
  revert hcontinue
  rcases (f s).1 with x | a <;> rcases (g (abs s)).1 with y | b <;> intro hcontinue
  · exact .done hcontinue
  · exact hcontinue.elim
  · exact hcontinue.elim
  · exact hcontinue

/-- A section that is not seen, and what follows it. -/
theorem refines_pause_bind {f : σ → Except ε α × σ} {q : Handler τ ε δ}
    (hf : ∀ s, sound s → sound (f s).2 → abs (f s).2 = abs s)
    (hk : ∀ s, sound s → sound (f s).2 →
      ∃ a, (f s).1 = .ok a ∧ Refines sound abs S (k a) q) :
    Refines sound abs S ((sec f : Handler σ ε α) >>= k) q := by
  refine Prog.Refines.pause hf fun s hs hend => ?_
  obtain ⟨a, ha, hrest⟩ := hk s hs hend
  show Prog.Refines _ _ _ (ExceptT.bindCont k (f s).1) _
  rw [ha]
  exact hrest

end Refines

end Handler

/-! ## Pools -/

section Lists

variable {R : α → β → Prop} {l : List α} {u : List β} {i : Nat} {a : α} {b : β}

theorem exists_of_forall₂ (h : List.Forall₂ R l u) (hi : l[i]? = some a) :
    ∃ b, u[i]? = some b ∧ R a b := by
  induction h generalizing i with
  | nil => simp at hi
  | cons hab _ ih =>
    cases i with
    | zero =>
      cases hi
      exact ⟨_, rfl, hab⟩
    | succ i => exact ih hi

theorem forall₂_set (h : List.Forall₂ R l u) (hab : R a b) :
    List.Forall₂ R (l.set i a) (u.set i b) := by
  induction h generalizing i with
  | nil => exact .nil
  | cons hcd h ih =>
    cases i with
    | zero => exact .cons hab h
    | succ i => exact .cons hcd ih

theorem forall₂_set_left (h : List.Forall₂ R l u) (hi : u[i]? = some b) (hab : R a b) :
    List.Forall₂ R (l.set i a) u := by
  obtain ⟨hlt, rfl⟩ := List.getElem?_eq_some_iff.mp hi
  simpa using forall₂_set h hab (i := i)

end Lists

namespace Pool

variable {S : α → β → Prop} {p : Pool σ α} {q : Pool τ β}

/-- Thread by thread, and in the state they share. -/
structure Refines (sound : σ → Prop) (abs : σ → τ) (S : α → β → Prop) (p : Pool σ α)
    (q : Pool τ β) : Prop where
  threads : List.Forall₂ (Prog.Refines sound abs S) p.threads q.threads
  shared : q.shared = abs p.shared

theorem Refines.step (h : p.Refines sound abs S q) (hs : sound p.shared) (i : Nat)
    (hnext : sound (p.step i).shared) :
    ∃ schedule', schedule'.Sublist [i] ∧ (p.step i).Refines sound abs S (q.run schedule') := by
  by_cases hidle : ∀ f k, p.threads[i]? ≠ some (.atomic f k)
  · rw [step_idle hidle]
    exact ⟨[], by simp, h⟩
  · simp only [not_forall, not_not] at hidle
    obtain ⟨f, k, ht⟩ := hidle
    obtain ⟨t, hq, hrefines⟩ := exists_of_forall₂ h.threads ht
    rw [step_atomic ht] at hnext ⊢
    cases hrefines with
    | @step _ _ g l hf hk =>
      refine ⟨[i], .refl _, ?_⟩
      rw [run_cons, run_nil, step_atomic hq, h.shared]
      exact ⟨forall₂_set h.threads (hk p.shared hs hnext), (hf p.shared hs hnext).symm⟩
    | pause hf hk =>
      exact ⟨[], by simp, forall₂_set_left h.threads hq (hk p.shared hs hnext),
        h.shared.trans (hf p.shared hs hnext).symm⟩

/-- The other pool takes its steps when this one does, and pauses at times. -/
theorem Refines.run (h : p.Refines sound abs S q) {schedule : List Nat}
    (hsound : ∀ pre, pre <+: schedule → sound (p.run pre).shared) :
    ∃ schedule', schedule'.Sublist schedule ∧
      (p.run schedule).Refines sound abs S (q.run schedule') := by
  induction schedule generalizing p q with
  | nil => exact ⟨[], .refl _, h⟩
  | cons i rest ih =>
    obtain ⟨first, hfirst, hstep⟩ := h.step (hsound [] List.nil_prefix) i (hsound [i] (by simp))
    obtain ⟨others, hothers, hrun⟩ := ih hstep fun pre hpre =>
      hsound (i :: pre) (List.cons_prefix_cons.mpr ⟨rfl, hpre⟩)
    refine ⟨first ++ others, hfirst.append hothers, ?_⟩
    rw [run_append]
    exact hrun

/-- When every thread is finished, so is every thread of the other pool. -/
theorem Refines.results (h : p.Refines sound abs S q) {results : List α}
    (hdone : p.results = some results) :
    ∃ replies, q.results = some replies ∧ List.Forall₂ S results replies := by
  obtain ⟨threads, s⟩ := q
  have hthreads := h.threads
  rw [threads_of_results hdone] at hthreads
  unfold Pool.results
  dsimp only at hthreads ⊢
  clear h hdone
  induction results generalizing threads with
  | nil =>
    cases hthreads
    exact ⟨[], rfl, .nil⟩
  | cons a results ih =>
    cases hthreads with
    | cons hfirst hrest =>
      cases hfirst with
      | done hab =>
        obtain ⟨replies, hreplies, hall⟩ := ih _ hrest
        exact ⟨_ :: replies, by simp [hreplies], .cons hab hall⟩

end Pool

end Srrdb.Lib
