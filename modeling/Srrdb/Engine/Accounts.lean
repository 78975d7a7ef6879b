/-
Srrdb.Engine.Accounts — the sections of a handler, on an account.

An account is a number read off the server: the rows of a table, or whether a
table exists. As long as no mutex is poisoned a section that locks one always
gets in, and what it answers is what it computed, so the answer can be held
against what the section did to the account.
-/
import Srrdb.Engine.Consistency
import Srrdb.Engine.Places
import Srrdb.Lib.Ledger

namespace Srrdb.Engine

open Srrdb.Sql Srrdb.Lib

variable {α β : Type} {I : Executor → Prop} {account : Executor → Int} {n : Int}

/-- The invariant holds and nothing has panicked under a mutex. -/
def Unbroken (I : Executor → Prop) (e : Executor) : Prop := I e ∧ ¬ e.Poisoned

theorem lockCatalog_of_unpoisoned {f : Executor → Outcome α × Executor} {e : Executor}
    (he : ¬ e.Poisoned) (hend : ¬ (lockCatalog f e).2.Poisoned) : lockCatalog f e = f e := by
  have hfree : e.catalog.poisoned = false := by
    simpa using fun h => he (.inl h)
  unfold lockCatalog at hend ⊢
  rw [if_neg (by simp [hfree])] at hend ⊢
  split at hend
  · exact absurd (.inl rfl) hend
  · rfl

theorem lockStorage_of_unpoisoned {f : Executor → Outcome α × Executor} {e : Executor}
    (he : ¬ e.Poisoned) (hend : ¬ (lockStorage f e).2.Poisoned) : lockStorage f e = f e := by
  have hfree : e.storage.poisoned = false := by
    simpa using fun h => he (.inr h)
  unfold lockStorage at hend ⊢
  rw [if_neg (by simp [hfree])] at hend ⊢
  split at hend
  · exact absurd (.inr rfl) hend
  · rfl

/-- The section of DROP TABLE, when it gets both mutexes. -/
theorem dropTableSection_cases [Host] {db tn : String} {e : Executor} (he : ¬ e.Poisoned)
    (hend : ¬ (dropTableSection db tn e).2.Poisoned) :
    (∃ msg, e.catalog.value.dropTable db tn = .error msg ∧
      dropTableSection db tn e = (.error (.err msg), e)) ∨
      ∃ c, e.catalog.value.dropTable db tn = .ok c ∧ dropTableSection db tn e =
        (.ok (), (e.setCatalog c).setStorage (e.storage.value.clearTable tn)) := by
  unfold dropTableSection at hend ⊢
  have hlock := lockCatalog_of_unpoisoned he hend
  rw [hlock] at hend ⊢
  cases h : e.catalog.value.dropTable db tn with
  | error msg => exact .inl ⟨msg, rfl, rfl⟩
  | ok c =>
    simp only [h] at hend ⊢
    have hset : ¬ (e.setCatalog c).Poisoned := he
    exact .inr ⟨c, rfl, lockStorage_of_unpoisoned hset hend⟩

/-! ## Sections and what follows them -/

section Sections

variable {Q : Outcome β → Int → Prop} {k : α → Exec β}

theorem moves_catalogSection_bind {f : Executor → Outcome α × Executor}
    (h : ∀ e, Unbroken I e → Unbroken I (f e).2 →
      Handler.AndThen (Unbroken I) account Q k (f e).1 (n + (account (f e).2 - account e))) :
    Handler.Moves (Unbroken I) account Q (catalogSection f >>= k) n := by
  refine Handler.moves_sec_bind fun e he hend => ?_
  have hsame := lockCatalog_of_unpoisoned he.2 hend.2
  rw [hsame] at hend ⊢
  exact h e he hend

theorem moves_storageSection_bind {f : Executor → Outcome α × Executor}
    (h : ∀ e, Unbroken I e → Unbroken I (f e).2 →
      Handler.AndThen (Unbroken I) account Q k (f e).1 (n + (account (f e).2 - account e))) :
    Handler.Moves (Unbroken I) account Q (storageSection f >>= k) n := by
  refine Handler.moves_sec_bind fun e he hend => ?_
  have hsame := lockStorage_of_unpoisoned he.2 hend.2
  rw [hsame] at hend ⊢
  exact h e he hend

theorem moves_readCatalog_bind {f : Catalog → Except String α}
    (hok : ∀ e a, Unbroken I e → f e.catalog.value = .ok a →
      Handler.Moves (Unbroken I) account Q (k a) n)
    (herror : ∀ msg, Q (.error (.err msg)) n) :
    Handler.Moves (Unbroken I) account Q (readCatalog f >>= k) n := by
  refine moves_catalogSection_bind fun e he _ => ?_
  simp only [Int.sub_self, Int.add_zero]
  cases hf : f e.catalog.value with
  | ok a => exact hok e a he hf
  | error msg => exact herror msg

theorem moves_liftOutcome_bind {o : Outcome α}
    (hok : ∀ a, o = .ok a → Handler.Moves (Unbroken I) account Q (k a) n)
    (herror : ∀ x, o = .error x → Q (.error x) n) :
    Handler.Moves (Unbroken I) account Q (liftOutcome o >>= k) n := by
  refine Handler.Moves.bind ?_
  cases o with
  | ok a => exact hok a rfl
  | error x => exact herror x rfl

theorem moves_updateStorage_bind {f : Storage → α × Storage}
    (h : ∀ e, Unbroken I e → Handler.Moves (Unbroken I) account Q (k (f e.storage.value).1)
      (n + (account (e.setStorage (f e.storage.value).2) - account e))) :
    Handler.Moves (Unbroken I) account Q (updateStorage f >>= k) n :=
  moves_storageSection_bind fun e he _ => h e he

/-- A section without a lock, or one that never fails, on something else. -/
theorem moves_sec_still_bind {f : Executor → Outcome α × Executor}
    (hok : ∀ e, ∃ a, (f e).1 = .ok a) (hstill : ∀ e, account (f e).2 = account e)
    (hk : ∀ a, Handler.Moves (Unbroken I) account Q (k a) n) :
    Handler.Moves (Unbroken I) account Q ((Handler.sec f : Exec α) >>= k) n := by
  refine Handler.moves_sec_bind fun e _ _ => ?_
  obtain ⟨a, ha⟩ := hok e
  rw [ha, hstill e, Int.sub_self, Int.add_zero]
  exact hk a

end Sections

end Srrdb.Engine
