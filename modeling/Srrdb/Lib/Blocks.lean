/-
Srrdb.Lib.Blocks — threads that add blocks to a list.

A list read off the state only grows, at its end. A program `Adds` to it if one
of its sections at most adds a block, and its result agrees with the block and
with the lists its sections have met. Then the list is at any time what it was
and some blocks, whole and each of another thread (`Pool.Grown`), and a thread
that begins later meets the blocks that were there before it began
(`Pool.grown_run`).
-/
import Srrdb.Lib.Views

namespace Srrdb.Lib

variable {σ ε α β γ : Type} {view : σ → List γ}

/-! ## Programs -/

namespace Prog

/-- From here on at most one block is added, and none if there is an `own` one;
the result agrees with it and with the lists that were `seen`. -/
def Adds (view : σ → List γ) (Q : α → Option (List γ) → List (List γ) → Prop) :
    Prog σ α → Option (List γ) → List (List γ) → Prop
  | .done a, own, seen => Q a own seen
  | .atomic f k, own, seen => ∀ s,
      (view (f s) = view s ∧ (k s).Adds view Q own (view s :: seen)) ∨
      (own = none ∧ ∃ block, view (f s) = view s ++ block ∧
        (k s).Adds view Q (some block) (view s :: seen))

variable {own : Option (List γ)} {seen : List (List γ)}

theorem Adds.imp {Q Q' : α → Option (List γ) → List (List γ) → Prop}
    (hQ : ∀ a own seen, Q a own seen → Q' a own seen) {p : Prog σ α}
    (h : p.Adds view Q own seen) : p.Adds view Q' own seen := by
  induction p generalizing own seen with
  | done a => exact hQ a own seen h
  | atomic f k ih =>
    intro s
    rcases h s with ⟨hstill, hrest⟩ | ⟨hown, block, hblock, hrest⟩
    · exact .inl ⟨hstill, ih s hrest⟩
    · exact .inr ⟨hown, block, hblock, ih s hrest⟩

theorem Adds.bind {Q : β → Option (List γ) → List (List γ) → Prop} {p : Prog σ α}
    {g : α → Prog σ β}
    (h : p.Adds view (fun a own seen => (g a).Adds view Q own seen) own seen) :
    (p.bind g).Adds view Q own seen := by
  induction p generalizing own seen with
  | done a => exact h
  | atomic f k ih =>
    intro s
    rcases h s with ⟨hstill, hrest⟩ | ⟨hown, block, hblock, hrest⟩
    · exact .inl ⟨hstill, ih s hrest⟩
    · exact .inr ⟨hown, block, hblock, ih s hrest⟩

/-- However the program ends, its block is the one it has added. -/
theorem Adds.exists_result {Q : α → Option (List γ) → List (List γ) → Prop} {p : Prog σ α}
    {block : List γ} (h : p.Adds view Q (some block) seen) (s : σ) :
    ∃ a seen', Q a (some block) seen' := by
  induction p generalizing seen s with
  | done a => exact ⟨a, seen, h⟩
  | atomic f k ih =>
    rcases h s with ⟨-, hrest⟩ | ⟨hown, -⟩
    · exact ih s hrest (f s)
    · cases hown

/-- A program none of whose sections touches the list. -/
theorem Steps.adds {Q : α → Option (List γ) → List (List γ) → Prop} {p : Prog σ α}
    (h : p.Steps fun s s' => view s' = view s) (hQ : ∀ a seen, Q a own seen) :
    p.Adds view Q own seen := by
  induction p generalizing seen with
  | done a => exact hQ a seen
  | atomic f k ih => exact fun s => .inl ⟨h.1 s, ih s (h.2 s)⟩

end Prog

/-! ## Handlers -/

namespace Handler

variable {Q : Except ε β → Option (List γ) → List (List γ) → Prop} {k : α → Handler σ ε β}
  {own : Option (List γ)} {seen : List (List γ)}

/-- At most one section of the handler adds a block, and its outcome agrees. -/
def Adds (view : σ → List γ) (Q : Except ε α → Option (List γ) → List (List γ) → Prop)
    (h : Handler σ ε α) (own : Option (List γ)) (seen : List (List γ)) : Prop :=
  Prog.Adds view Q (ExceptT.run h) own seen

/-- What is left to show of a handler after its first part. -/
def Remains (view : σ → List γ) (Q : Except ε β → Option (List γ) → List (List γ) → Prop)
    (k : α → Handler σ ε β) : Except ε α → Option (List γ) → List (List γ) → Prop
  | .ok a, own, seen => Adds view Q (k a) own seen
  | .error x, own, seen => Q (.error x) own seen

theorem adds_pure {b : β} (h : Q (.ok b) own seen) :
    Adds view Q (pure b : Handler σ ε β) own seen :=
  h

theorem adds_throw {x : ε} (h : Q (.error x) own seen) :
    Adds view Q (throw x : Handler σ ε β) own seen :=
  h

theorem Adds.bind {h : Handler σ ε α} (hh : Adds view (Remains view Q k) h own seen) :
    Adds view Q (h >>= k) own seen := by
  refine Prog.Adds.bind (Prog.Adds.imp (fun r own seen hr => ?_) hh)
  cases r with
  | ok a => exact hr
  | error x => exact hr

/-- A section that leaves the list alone. -/
theorem adds_still_bind {f : σ → Except ε α × σ} (hf : ∀ s, view (f s).2 = view s)
    (hk : ∀ s, Remains view Q k (f s).1 own (view s :: seen)) :
    Adds view Q ((sec f : Handler σ ε α) >>= k) own seen :=
  Adds.bind fun s => .inl ⟨hf s, hk s⟩

/-- The section that adds the block. -/
theorem adds_block_bind {f : σ → Except ε α × σ} (block : List γ)
    (hf : ∀ s, view (f s).2 = view s ++ block)
    (hk : ∀ s, Remains view Q k (f s).1 (some block) (view s :: seen)) :
    Adds view Q ((sec f : Handler σ ε α) >>= k) none seen :=
  Adds.bind fun s => .inr ⟨rfl, block, hf s, hk s⟩

end Handler

/-! ## Pools -/

/-- The list that the blocks make of one, each with the thread it is of. -/
def laidOut (start : List γ) (order : List (Nat × List γ)) : List γ :=
  start ++ order.flatMap Prod.snd

theorem laidOut_append (start : List γ) (order added : List (Nat × List γ)) :
    laidOut start (order ++ added) = laidOut start order ++ added.flatMap Prod.snd := by
  simp [laidOut]

/-- Lists that some of the blocks make: the first ones, and at least `least`. -/
def Parts (start : List γ) (least order : List (Nat × List γ)) (lists : List (List γ)) : Prop :=
  ∀ l ∈ lists, ∃ part, least <+: part ∧ part <+: order ∧ l = laidOut start part

theorem Parts.append {start : List γ} {least order : List (Nat × List γ)} {lists : List (List γ)}
    (h : Parts start least order lists) (added : List (Nat × List γ)) :
    Parts start least (order ++ added) lists := by
  intro l hl
  obtain ⟨part, hleast, hpart, heq⟩ := h l hl
  exact ⟨part, hleast, hpart.trans (List.prefix_append _ _), heq⟩

theorem Parts.cons {start : List γ} {least order : List (Nat × List γ)} {lists : List (List γ)}
    (h : Parts start least order lists) (hleast : least <+: order) :
    Parts start least order (laidOut start order :: lists) := by
  intro l hl
  rcases List.mem_cons.mp hl with rfl | hl
  · exact ⟨order, hleast, List.prefix_rfl, rfl⟩
  · exact h l hl

namespace Pool

theorem lookup_of_nodup {order : List (Nat × List γ)} (h : (order.map Prod.fst).Nodup)
    {b : Nat × List γ} (hb : b ∈ order) : order.lookup b.1 = some b.2 := by
  induction order with
  | nil => cases hb
  | cons c rest ih =>
    rw [List.map_cons, List.nodup_cons] at h
    rcases List.mem_cons.mp hb with rfl | hb
    · rw [List.lookup_cons, beq_self_eq_true]
    · have hne : b.1 ≠ c.1 := fun heq => h.1 (heq ▸ List.mem_map_of_mem hb)
      rw [List.lookup_cons, beq_eq_false_iff_ne.mpr hne]
      exact ih h.2 hb

variable {p : Pool σ α} {Q : Nat → α → Option (List γ) → List (List γ) → Prop}
  {start : List γ} {since : Nat → List (Nat × List γ)} {order : List (Nat × List γ)}

/-- The list is laid out in blocks of different threads. Each thread has met what
some of these make, and no less than those of `since`. -/
structure Grown (view : σ → List γ) (Q : Nat → α → Option (List γ) → List (List γ) → Prop)
    (start : List γ) (since : Nat → List (Nat × List γ)) (order : List (Nat × List γ))
    (p : Pool σ α) : Prop where
  nodup : (order.map Prod.fst).Nodup
  known : ∀ b ∈ order, b.1 < p.threads.length
  view_eq : view p.shared = laidOut start order
  since_prefix : ∀ (i : Nat) (t : Prog σ α), p.threads[i]? = some t → since i <+: order
  adds : ∀ (i : Nat) (t : Prog σ α), p.threads[i]? = some t →
    ∃ seen, Parts start (since i) order seen ∧ t.Adds view (Q i) (order.lookup i) seen

/-- Every block is of a thread, and what that thread has still to answer agrees. -/
theorem Grown.exists_result (h : p.Grown view Q start since order) {b : Nat × List γ}
    (hb : b ∈ order) : ∃ a seen, Q b.1 a (some b.2) seen := by
  obtain ⟨seen, -, hadds⟩ := h.adds b.1 _ (List.getElem?_eq_getElem (h.known b hb))
  rw [lookup_of_nodup h.nodup hb] at hadds
  exact hadds.exists_result p.shared

theorem lookup_append_ne {added : List (Nat × List γ)} {i j : Nat} (h : ∀ b ∈ added, b.1 = i)
    (hj : j ≠ i) : (order ++ added).lookup j = order.lookup j := by
  have hnone : added.lookup j = none := by
    rw [List.lookup_eq_none_iff]
    intro b hb
    simp [h b hb, hj]
  rw [List.lookup_append, hnone, Option.or_none]

/-- Thread `i` has performed a section, and the blocks `added` are its own. -/
theorem Grown.section (h : p.Grown view Q start since order) {i : Nat} {f : σ → σ}
    {k : σ → Prog σ α} (ht : p.threads[i]? = some (.atomic f k)) {added : List (Nat × List γ)}
    (hadded : ∀ b ∈ added, b.1 = i) (hnodup : ((order ++ added).map Prod.fst).Nodup)
    (hview : view (f p.shared) = laidOut start (order ++ added)) {seen : List (List γ)}
    (hseen : Parts start (since i) order seen)
    (hrest : (k p.shared).Adds view (Q i) ((order ++ added).lookup i) (view p.shared :: seen)) :
    Grown view Q start since (order ++ added) ⟨p.threads.set i (k p.shared), f p.shared⟩ where
  nodup := hnodup
  known b hb := by
    rw [List.length_set]
    rcases List.mem_append.mp hb with hb | hb
    · exact h.known b hb
    · rw [hadded b hb]
      exact (List.getElem?_eq_some_iff.mp ht).1
  view_eq := hview
  since_prefix j t hj := by
    obtain ⟨hlt, -⟩ := List.getElem?_eq_some_iff.mp hj
    rw [List.length_set] at hlt
    exact (h.since_prefix j _ (List.getElem?_eq_getElem hlt)).trans (List.prefix_append _ _)
  adds j t hj := by
    by_cases hij : i = j
    · subst hij
      obtain ⟨hlt, -⟩ := List.getElem?_eq_some_iff.mp ht
      rw [List.getElem?_set_self hlt] at hj
      cases hj
      refine ⟨view p.shared :: seen, ?_, hrest⟩
      rw [h.view_eq]
      exact (hseen.cons (h.since_prefix i _ ht)).append added
    · rw [List.getElem?_set_ne hij] at hj
      obtain ⟨others, hothers, hadds⟩ := h.adds j t hj
      refine ⟨others, hothers.append added, ?_⟩
      rwa [lookup_append_ne hadded (Ne.symm hij)]

theorem Grown.step (h : p.Grown view Q start since order) (i : Nat) :
    ∃ added, (∀ b ∈ added, b.1 = i) ∧ (p.step i).Grown view Q start since (order ++ added) := by
  by_cases hidle : ∀ f k, p.threads[i]? ≠ some (.atomic f k)
  · rw [step_idle hidle]
    exact ⟨[], by simp, by rwa [List.append_nil]⟩
  · simp only [not_forall, not_not] at hidle
    obtain ⟨f, k, ht⟩ := hidle
    obtain ⟨seen, hseen, hadds⟩ := h.adds i _ ht
    rw [step_atomic ht]
    rcases hadds p.shared with ⟨hstill, hrest⟩ | ⟨hown, block, hblock, hrest⟩
    · refine ⟨[], by simp, h.section ht (by simp) ?_ ?_ hseen ?_⟩
      · rw [List.append_nil]
        exact h.nodup
      · rw [List.append_nil, hstill]
        exact h.view_eq
      · rwa [List.append_nil]
    · refine ⟨[(i, block)], by simp, h.section ht (by simp) ?_ ?_ hseen ?_⟩
      · rw [List.lookup_eq_none_iff] at hown
        rw [List.map_append, List.nodup_append]
        refine ⟨h.nodup, by simp, fun j hj j' hj' hsame => ?_⟩
        obtain ⟨b, hb, rfl⟩ := List.mem_map.mp hj
        obtain rfl : j' = i := by simpa using hj'
        simpa [hsame] using hown b hb
      · rw [laidOut_append, hblock, h.view_eq]
        simp
      · rw [List.lookup_append, hown]
        simpa using hrest

theorem Grown.run (h : p.Grown view Q start since order) (schedule : List Nat) :
    ∃ added, (∀ b ∈ added, b.1 ∈ schedule) ∧
      (p.run schedule).Grown view Q start since (order ++ added) := by
  induction schedule generalizing p order with
  | nil => exact ⟨[], by simp, by rwa [List.append_nil]⟩
  | cons i rest ih =>
    obtain ⟨first, hfirst, hstep⟩ := h.step i
    obtain ⟨others, hothers, hrun⟩ := ih hstep
    refine ⟨first ++ others, fun b hb => ?_, by rwa [← List.append_assoc]⟩
    rcases List.mem_append.mp hb with hb | hb
    · exact List.mem_cons.mpr (.inl (hfirst b hb))
    · exact List.mem_cons_of_mem _ (hothers b hb)

theorem run_getElem?_of_notMem {schedule : List Nat} {i : Nat} (h : i ∉ schedule) (p : Pool σ α) :
    (p.run schedule).threads[i]? = p.threads[i]? := by
  induction schedule generalizing p with
  | nil => rfl
  | cons j rest ih =>
    rw [List.mem_cons, not_or] at h
    rw [run_cons, ih h.2, step_getElem?_ne p h.1]

/-- What each thread may have met at least: a thread that begins late, all blocks
that were there before. -/
def metBy (first : List Nat) (early : List (Nat × List γ)) (i : Nat) : List (Nat × List γ) :=
  if i ∈ first then [] else early

theorem metBy_prefix {first first' : List Nat} (h : first' ⊆ first)
    (early : List (Nat × List γ)) (i : Nat) : metBy first early i <+: metBy first' early i := by
  unfold metBy
  by_cases hi : i ∈ first
  · rw [if_pos hi]
    exact List.nil_prefix
  · have hi' : i ∉ first' := fun hmem => hi (h hmem)
    simp [hi, hi']

/-- The list grows by blocks, before and after any moment of a run. -/
theorem grown_run (h : ∀ (i : Nat) (t : Prog σ α), p.threads[i]? = some t →
    t.Adds view (Q i) none []) (first second : List Nat) :
    ∃ early late, (∀ b ∈ early, b.1 ∈ first) ∧
      (p.run first).Grown view Q (view p.shared) (fun _ => []) early ∧
      (p.run (first ++ second)).Grown view Q (view p.shared) (metBy first early)
        (early ++ late) := by
  have hstart : p.Grown view Q (view p.shared) (fun _ => []) [] :=
    ⟨List.nodup_nil, by simp, by simp [laidOut], fun _ _ _ => List.prefix_rfl,
      fun i t ht => ⟨[], by simp [Parts], h i t ht⟩⟩
  obtain ⟨early, hearly, hfirst⟩ := hstart.run first
  rw [List.nil_append] at hfirst
  have hbetween : (p.run first).Grown view Q (view p.shared) (metBy first early) early := by
    refine ⟨hfirst.nodup, hfirst.known, hfirst.view_eq, fun i _ _ => ?_, fun i t ht => ?_⟩
    · unfold metBy
      split
      · exact List.nil_prefix
      · exact List.prefix_rfl
    · by_cases hi : i ∈ first
      · simp only [metBy, if_pos hi]
        exact hfirst.adds i t ht
      · -- a thread that has not begun has met nothing and added nothing
        rw [run_getElem?_of_notMem hi] at ht
        have hown : early.lookup i = none := by
          rw [List.lookup_eq_none_iff]
          intro b hb
          simpa using fun heq : i = b.1 => hi (heq ▸ hearly b hb)
        exact ⟨[], by simp [Parts], hown ▸ h i t ht⟩
  obtain ⟨late, -, hsecond⟩ := hbetween.run second
  rw [← run_append] at hsecond
  exact ⟨early, late, hearly, hfirst, hsecond⟩

end Pool

end Srrdb.Lib
