import Mathlib.Data.Set.Basic
import Mathlib.Logic.Function.Basic

/-!
The footprint of an operation on a keyed store.

An operation touches only a set of keys when the rest of the store is as before, and
when its answer, and what it leaves under these keys, depend on these keys alone.
-/

namespace Footprint

variable {κ β α γ : Type}

/-- `f` reads and writes nothing outside `keys`. -/
structure TouchesOnly (keys : Set κ) (f : (κ → β) → α × (κ → β)) : Prop where
  frame : ∀ s k, k ∉ keys → (f s).2 k = s k
  answer : ∀ s s', (∀ k ∈ keys, s k = s' k) → (f s).1 = (f s').1
  left : ∀ s s', (∀ k ∈ keys, s k = s' k) → ∀ k ∈ keys, (f s).2 k = (f s').2 k

variable {keys : Set κ}

theorem TouchesOnly.pure (a : α) : TouchesOnly keys fun s : κ → β => (a, s) where
  frame _ _ _ := rfl
  answer _ _ _ := rfl
  left _ _ h := h

theorem TouchesOnly.read {k : κ} (hk : k ∈ keys) (g : β → α) :
    TouchesOnly keys fun s : κ → β => (g (s k), s) where
  frame _ _ _ := rfl
  answer _ _ h := congrArg g (h k hk)
  left _ _ h := h

/-- A write to one of the keys, of a value computed from what was there. -/
theorem TouchesOnly.write [DecidableEq κ] {k : κ} (hk : k ∈ keys) (a : α) (g : β → β) :
    TouchesOnly keys fun s : κ → β => (a, Function.update s k (g (s k))) where
  frame s j hj := by
    have hne : j ≠ k := fun e => hj (e ▸ hk)
    exact Function.update_of_ne hne ..
  answer _ _ _ := rfl
  left s s' h j hj := by
    simp only
    by_cases he : j = k
    · rw [he, Function.update_self, Function.update_self, h k hk]
    · rw [Function.update_of_ne he, Function.update_of_ne he, h j hj]

/-- **Composition.** -/
theorem TouchesOnly.bind {f : (κ → β) → α × (κ → β)} {g : α → (κ → β) → γ × (κ → β)}
    (hf : TouchesOnly keys f) (hg : ∀ s, TouchesOnly keys (g (f s).1)) :
    TouchesOnly keys fun s => g (f s).1 (f s).2 where
  frame s k hk := by
    rw [(hg s).frame _ k hk, hf.frame s k hk]
  answer s s' h := by
    rw [(hg s).answer _ _ (hf.left s s' h), hf.answer s s' h]
  left s s' h k hk := by
    rw [(hg s).left _ _ (hf.left s s' h) k hk, hf.answer s s' h]

end Footprint
