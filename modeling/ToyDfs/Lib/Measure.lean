import Mathlib.Data.List.Count
import ToyDfs.Lib.Transition

/-!
Steps that use something up.

In the states satisfying `I`, the steps in `own` make `μ` smaller and no step makes it
larger.

* `countP_le`: a run takes at most `μ` such steps.
* `countP_le_refilled`: when some steps fill `μ` up again and `ν` counts what they fill
  in, at most `μ` and what `ν` has grown by.
* `exists_finish`: when one of them is enabled as long as `μ` is positive, they lead
  to a state where it is 0.
-/

namespace Transition

variable {σ α : Type} (step : σ → α → Option σ) (own : α → Prop) (μ : σ → Nat) (I : σ → Prop)

theorem countP_le [DecidablePred own] (hI : ∀ s a t, step s a = some t → I s → I t)
    (hown : ∀ s a t, step s a = some t → I s → own a → μ t < μ s)
    (hother : ∀ s a t, step s a = some t → I s → μ t ≤ μ s) :
    ∀ (as : List α) {s t : σ}, exec step s as = some t → I s →
      as.countP (fun a => decide (own a)) + μ t ≤ μ s := by
  intro as
  induction as with
  | nil =>
    intro s t h _
    cases h
    exact Nat.le_of_eq (Nat.zero_add _)
  | cons a as ih =>
    intro s t h hs
    obtain ⟨u, hu, h⟩ := Option.bind_eq_some_iff.mp h
    have hrest := ih h (hI s a u hu hs)
    rw [List.countP_cons]
    by_cases ha : own a
    · have hlt := hown s a u hu hs ha
      rw [if_pos (decide_eq_true ha)]
      omega
    · have hle := hother s a u hu hs
      rw [if_neg (by simpa using ha)]
      omega

/-- Between two states, `ν` has grown by what was filled in. -/
theorem countP_le_refilled [DecidablePred own] (ν : σ → Nat) {ok : σ → α → Prop}
    (hI : ∀ s a t, step s a = some t → ok s a → I s → I t)
    (hown : ∀ s a t, step s a = some t → I s → own a → μ t + ν s < μ s + ν t)
    (hother : ∀ s a t, step s a = some t → I s → μ t + ν s ≤ μ s + ν t) :
    ∀ (as : List α) {s t : σ}, exec step s as = some t → Along step ok s as → I s →
      as.countP (fun a => decide (own a)) + μ t + ν s ≤ μ s + ν t := by
  intro as
  induction as with
  | nil =>
    intro s t h _ _
    cases h
    exact Nat.add_le_add_right (Nat.le_of_eq (Nat.zero_add _)) _
  | cons a as ih =>
    intro s t h hok hs
    obtain ⟨u, hu, h⟩ := Option.bind_eq_some_iff.mp h
    have hrest := ih h (hok.2 u hu) (hI s a u hu hok.1 hs)
    rw [List.countP_cons]
    by_cases ha : own a
    · have hlt := hown s a u hu hs ha
      rw [if_pos (decide_eq_true ha)]
      omega
    · have hle := hother s a u hu hs
      rw [if_neg (by simpa using ha)]
      omega

/-- **Nothing stands in the way.** -/
theorem exists_finish (hown : ∀ s a t, step s a = some t → I s → own a → μ t < μ s)
    (henabled : ∀ s, I s → 0 < μ s → ∃ a t, own a ∧ step s a = some t ∧ I t) (s : σ) (hs : I s) :
    ∃ as t, exec step s as = some t ∧ (∀ a ∈ as, own a) ∧ I t ∧ μ t = 0 := by
  generalize hn : μ s = n
  induction n using Nat.strongRecOn generalizing s with
  | ind n ih =>
    by_cases hpos : 0 < μ s
    · obtain ⟨a, u, ha, hu, hIu⟩ := henabled s hs hpos
      obtain ⟨as, t, hrun, hall, hIt, hzero⟩ := ih (μ u) (hn ▸ hown s a u hu hs ha) u hIu rfl
      refine ⟨a :: as, t, ?_, ?_, hIt, hzero⟩
      · simp only [exec, hu, Option.bind_some, hrun]
      · intro b hb
        rcases List.mem_cons.mp hb with rfl | hb
        · exact ha
        · exact hall b hb
    · refine ⟨[], s, rfl, ?_, hs, Nat.eq_zero_of_not_pos hpos⟩
      intro a ha
      cases ha

end Transition
