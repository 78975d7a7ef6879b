/-
Srrdb.Lib.PerMap — a hash map whose key comparison is only a partial
equivalence.

A hash map looks a key up by the hash and the equality its key type offers.
When that equality is not reflexive (a float key that is NaN) a stored entry
can no longer be found, but the map still behaves like a finite map on every
key the comparison accepts. `PerMap κ ν same` is that map: entries in the
order of their insertion, no two of them `same`. All updates are one
operation, `PerMap.alter`, and `get_alter` is its specification.
-/
import Mathlib.Data.List.Basic

namespace Srrdb.Lib

/-- Entries whose keys are pairwise not `same`. -/
structure PerMap (κ ν : Type) (same : κ → κ → Bool) where
  entries : List (κ × ν)
  distinct : entries.Pairwise fun a b => same a.1 b.1 = false

/-- The comparison is a partial equivalence: symmetric and transitive. -/
class IsPer {κ : Type} (same : κ → κ → Bool) : Prop where
  symm : ∀ {a b}, same a b = true → same b a = true
  trans : ∀ {a b c}, same a b = true → same b c = true → same a c = true

namespace PerMap

variable {κ ν : Type} {same : κ → κ → Bool}

/-! ## Lookup and update -/

def empty : PerMap κ ν same := ⟨[], .nil⟩

/-- The value under a key. -/
def get (m : PerMap κ ν same) (k : κ) : Option ν :=
  (m.entries.find? fun e => same e.1 k).map (·.2)

/-- Update the first entry that is `same` as `k`, or add one. -/
def alterEntries (same : κ → κ → Bool) (k : κ) (f : Option ν → Option ν) :
    List (κ × ν) → List (κ × ν)
  | [] =>
    match f none with
    | none => []
    | some v => [(k, v)]
  | e :: es =>
    if same e.1 k then
      match f (some e.2) with
      | none => es
      | some v => (e.1, v) :: es
    else e :: alterEntries same k f es

/-- An updated list of entries has old keys, and `k` if nothing was `same`. -/
theorem key_of_mem_alterEntries {k : κ} {f : Option ν → Option ν} {e' : κ × ν} :
    ∀ {es : List (κ × ν)}, e' ∈ alterEntries same k f es →
      (∃ e ∈ es, e.1 = e'.1) ∨ e'.1 = k
  | [], h => by
    unfold alterEntries at h
    split at h
    · cases h
    · rw [List.mem_singleton] at h; exact .inr (congrArg Prod.fst h)
  | e :: es, h => by
    unfold alterEntries at h
    split at h
    · split at h
      · exact .inl ⟨e', List.mem_cons_of_mem _ h, rfl⟩
      · rcases List.mem_cons.mp h with rfl | h
        · exact .inl ⟨e, List.mem_cons_self, rfl⟩
        · exact .inl ⟨e', List.mem_cons_of_mem _ h, rfl⟩
    · rcases List.mem_cons.mp h with rfl | h
      · exact .inl ⟨e', List.mem_cons_self, rfl⟩
      · rcases key_of_mem_alterEntries h with ⟨a, ha, hk⟩ | hk
        · exact .inl ⟨a, List.mem_cons_of_mem _ ha, hk⟩
        · exact .inr hk

theorem alterEntries_distinct (k : κ) (f : Option ν → Option ν) :
    ∀ {es : List (κ × ν)}, (es.Pairwise fun a b => same a.1 b.1 = false) →
      (alterEntries same k f es).Pairwise fun a b => same a.1 b.1 = false
  | [], _ => by
    unfold alterEntries
    split
    · exact .nil
    · exact List.pairwise_singleton _ _
  | e :: es, h => by
    obtain ⟨hhead, htail⟩ := List.pairwise_cons.mp h
    unfold alterEntries
    split
    · split
      · exact htail
      · exact List.pairwise_cons.mpr ⟨hhead, htail⟩
    · next hne =>
      refine List.pairwise_cons.mpr ⟨fun b hb => ?_, alterEntries_distinct k f htail⟩
      rcases key_of_mem_alterEntries hb with ⟨a, ha, hk⟩ | hk
      · rw [← hk]; exact hhead a ha
      · rw [hk]; simpa using hne

/-- Update the value under a key. -/
def alter (m : PerMap κ ν same) (k : κ) (f : Option ν → Option ν) : PerMap κ ν same :=
  ⟨alterEntries same k f m.entries, alterEntries_distinct k f m.distinct⟩

@[simp] theorem get_empty (k : κ) : (empty : PerMap κ ν same).get k = none := rfl

/-! ## Specification of the update -/

variable [IsPer same]

theorem same_congr {a b : κ} (h : same a b = true) (c : κ) : same a c = same b c := by
  rw [Bool.eq_iff_iff]
  exact ⟨fun hc => IsPer.trans (IsPer.symm h) hc, fun hc => IsPer.trans h hc⟩

theorem find_alterEntries (k k' : κ) (f : Option ν → Option ν) :
    ∀ {es : List (κ × ν)}, (es.Pairwise fun a b => same a.1 b.1 = false) →
      ((alterEntries same k f es).find? fun e => same e.1 k').map (·.2) =
        if same k k' then f ((es.find? fun e => same e.1 k).map (·.2))
        else (es.find? fun e => same e.1 k').map (·.2)
  | [], _ => by
    unfold alterEntries
    cases hf : f none <;> cases hs : same k k' <;> simp [hf, hs]
  | e :: es, h => by
    obtain ⟨hhead, htail⟩ := List.pairwise_cons.mp h
    unfold alterEntries
    cases hek : same e.1 k with
    | true =>
      have hcongr : same e.1 k' = same k k' := same_congr hek k'
      -- no later entry is `same` as the one that was found
      have hlater : same k k' = true → es.find? (fun e => same e.1 k') = none := by
        intro hs
        refine List.find?_eq_none.mpr fun a ha hak => ?_
        have : same e.1 a.1 = true := IsPer.trans (hcongr.trans hs) (IsPer.symm hak)
        rw [hhead a ha] at this
        cases this
      cases hf : f (some e.2) <;> cases hs : same k k' <;>
        simp [hf, hek, hcongr, hs, hlater]
    | false =>
      have ih := find_alterEntries k k' f htail
      cases hek' : same e.1 k' with
      | true =>
        have hs : same k k' = false := by
          rw [Bool.eq_false_iff]
          intro hs
          have := IsPer.trans hek' (IsPer.symm hs)
          rw [hek] at this
          cases this
        simp [hek', hs]
      | false => simpa [List.find?_cons, hek, hek'] using ih

theorem get_alter (m : PerMap κ ν same) (k k' : κ) (f : Option ν → Option ν) :
    (m.alter k f).get k' = if same k k' then f (m.get k) else m.get k' :=
  find_alterEntries k k' f m.distinct

omit [IsPer same] in
/-- A property of all stored values survives an update that establishes it
for the new value. -/
theorem forall_alter {P : ν → Prop} {m : PerMap κ ν same} {k : κ} {f : Option ν → Option ν}
    (hm : ∀ e ∈ m.entries, P e.2) (hf : ∀ o v, (∀ w, o = some w → P w) → f o = some v → P v) :
    ∀ e ∈ (m.alter k f).entries, P e.2 := by
  have key : ∀ es : List (κ × ν), (∀ e ∈ es, P e.2) → ∀ e ∈ alterEntries same k f es, P e.2 := by
    intro es
    induction es with
    | nil =>
      intro _ e he
      unfold alterEntries at he
      split at he
      · cases he
      · next v hv =>
        rw [List.mem_singleton] at he
        subst he
        exact hf none v (by simp) hv
    | cons a es ih =>
      intro hes e he
      have htail : ∀ e ∈ es, P e.2 := fun e h => hes e (List.mem_cons_of_mem _ h)
      unfold alterEntries at he
      split at he
      · split at he
        · exact htail e he
        · next v hv =>
          rcases List.mem_cons.mp he with rfl | he
          · refine hf (some a.2) v (fun w hw => ?_) hv
            rw [← Option.some.inj hw]
            exact hes a List.mem_cons_self
          · exact htail e he
      · rcases List.mem_cons.mp he with rfl | he
        · exact hes _ List.mem_cons_self
        · exact ih htail e he
  exact key m.entries hm

end PerMap

end Srrdb.Lib
