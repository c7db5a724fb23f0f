import Mathlib.Data.List.Sublists
import ToyDfs.Lib.Transition
import ToyDfs.Lib.Simulation

/-!
Concurrent calls that take effect one after another.

A transition system works on calls: `asked s i` is what call `i` is about, once it has
started, `answered s i` its answer, once there is one.  A specification
`spec t op answer t'` says what one call by itself may be answered, and what it does.

* `StepAnswers`: a step that answers one call as specified in the state it is taken in,
  or none.
* `Orders spec t₀ s points t`: the calls answered in `s`, put in an order in which they
  are all answered as specified.
* `RealTime`: a call that is answered before another one starts comes before it.
* `linearizable`: when all steps are such, every run has an order like that.
-/

namespace Linearization

open Transition Simulation

variable {σ α τ ι ω ρ : Type}

structure Calls (σ ι ω ρ : Type) where
  asked : σ → ι → Option ω
  answered : σ → ι → Option ρ

/-- A call that has taken effect. -/
structure Point (ι ω ρ : Type) where
  call : ι
  op : ω
  answer : ρ

section
variable (calls : Calls σ ι ω ρ) (spec : τ → ω → ρ → τ → Prop)

/-- Calls that have started stay. -/
def KeepsAsked (s s' : σ) : Prop := ∀ i op, calls.asked s i = some op → calls.asked s' i = some op

/-- The answered calls, in an order that the specification permits. -/
structure Orders (t₀ : τ) (s : σ) (points : List (Point ι ω ρ)) (t : τ) : Prop where
  replay : Permits spec t₀ (points.map Point.op) (points.map Point.answer) t
  nodup : (points.map Point.call).Nodup
  asked : ∀ p ∈ points, calls.asked s p.call = some p.op
  answered : ∀ i answer, calls.answered s i = some answer ↔ ∃ op, ⟨i, op, answer⟩ ∈ points

/-- Calls that do not overlap are in the order they were made. -/
def RealTime (step : σ → α → Option σ) (s₀ : σ) (as : List α) (points : List (Point ι ω ρ)) : Prop :=
  ∀ before after u i j, as = before ++ after → exec step s₀ before = some u →
    (calls.answered u i).isSome → calls.asked u j = none → j ∈ points.map Point.call →
      [i, j].Sublist (points.map Point.call)

/-- A step that answers call `i`, or none. -/
inductive StepAnswers [DecidableEq ι] (s s' : σ) (t t' : τ) : Prop
  | none (hasked : KeepsAsked calls s s') (hanswered : calls.answered s' = calls.answered s) (hspec : t' = t)
  | one (hasked : KeepsAsked calls s s') (i : ι) (op : ω) (answer : ρ) (hop : calls.asked s i = some op)
    (hnew : calls.answered s i = none)
    (hanswered : calls.answered s' = Function.update (calls.answered s) i (some answer))
    (hspec : spec t op answer t')

variable {calls spec} {step : σ → α → Option σ} {t₀ t t' : τ} {s s' : σ} {points : List (Point ι ω ρ)}

/-- Before anything is answered. -/
theorem orders_nil (h : ∀ i, calls.answered s i = none) : Orders calls spec t₀ s [] t₀ := by
  refine ⟨.nil t₀, List.nodup_nil, fun p hp => (List.not_mem_nil hp).elim, fun i answer => ?_⟩
  rw [h i]
  constructor
  · intro he
    cases he
  · rintro ⟨op, hp⟩
    exact (List.not_mem_nil hp).elim

theorem Orders.mem_iff (h : Orders calls spec t₀ s points t) (i : ι) :
    i ∈ points.map Point.call ↔ (calls.answered s i).isSome := by
  rw [Option.isSome_iff_exists]
  constructor
  · intro hi
    obtain ⟨⟨j, op, answer⟩, hp, rfl⟩ := List.mem_map.mp hi
    exact ⟨answer, (h.answered j answer).mpr ⟨op, hp⟩⟩
  · rintro ⟨answer, ha⟩
    obtain ⟨op, hp⟩ := (h.answered i answer).mp ha
    exact List.mem_map.mpr ⟨_, hp, rfl⟩

variable [DecidableEq ι]

/-- **One step** extends the order. -/
theorem Orders.extend (h : Orders calls spec t₀ s points t) (hs : StepAnswers calls spec s s' t t') :
    ∃ more, Orders calls spec t₀ s' (points ++ more) t' := by
  cases hs with
  | none hasked hanswered hspec =>
    refine ⟨[], ?_⟩
    rw [List.append_nil, hspec]
    exact ⟨h.replay, h.nodup, fun p hp => hasked _ _ (h.asked p hp), by rw [hanswered]; exact h.answered⟩
  | one hasked i op answer hop hnew hanswered hspec =>
    have hfresh : i ∉ points.map Point.call := by
      rw [h.mem_iff, hnew]
      exact Bool.false_ne_true
    refine ⟨[⟨i, op, answer⟩], ?_, ?_, ?_, ?_⟩
    · rw [List.map_append, List.map_append]
      exact h.replay.append (.cons hspec (.nil t'))
    · rw [List.map_append, List.nodup_append]
      refine ⟨h.nodup, List.nodup_singleton _, fun j hj k hk => ?_⟩
      rw [List.map_singleton, List.mem_singleton] at hk
      intro he
      rw [he, hk] at hj
      exact hfresh hj
    · intro p hp
      rcases List.mem_append.mp hp with hp | hp
      · exact hasked _ _ (h.asked p hp)
      · rw [List.mem_singleton.mp hp]
        exact hasked _ _ hop
    · intro j a
      rw [hanswered]
      by_cases hj : j = i
      · subst hj
        rw [Function.update_self]
        constructor
        · rintro ⟨⟩
          exact ⟨op, List.mem_append_right _ (List.mem_singleton_self _)⟩
        · rintro ⟨op', hp⟩
          rcases List.mem_append.mp hp with hp | hp
          · exact absurd (List.mem_map.mpr ⟨_, hp, rfl⟩) hfresh
          · cases List.mem_singleton.mp hp
            rfl
      · rw [Function.update_of_ne hj, h.answered j a]
        refine exists_congr fun op' => ?_
        rw [List.mem_append, List.mem_singleton, Point.mk.injEq]
        exact ⟨.inl, fun hp => hp.resolve_right fun he => hj he.1⟩

/-- **Every run has an order.** -/
theorem linearizable {R : σ → τ → Prop}
    (hstep : ∀ s a s' t, R s t → step s a = some s' → ∃ t', R s' t' ∧ StepAnswers calls spec s s' t t')
    (as : List α) (hrun : exec step s as = some s') (hR : R s t)
    (h : Orders calls spec t₀ s points t) :
    ∃ more t', R s' t' ∧ Orders calls spec t₀ s' (points ++ more) t' ∧
      RealTime calls step s as (points ++ more) := by
  induction as generalizing s t points with
  | nil =>
    cases hrun
    refine ⟨[], t, hR, by rwa [List.append_nil], ?_⟩
    rintro before after u i j hsplit hu - hj hmem
    obtain ⟨rfl, rfl⟩ := List.append_eq_nil_iff.mp hsplit.symm
    cases hu
    obtain ⟨p, hp, rfl⟩ := List.mem_map.mp hmem
    rw [List.append_nil] at hp
    rw [h.asked p hp] at hj
    cases hj
  | cons a as ih =>
    obtain ⟨v, hv, hrun⟩ := Option.bind_eq_some_iff.mp hrun
    obtain ⟨t', hR', hanswers⟩ := hstep s a v t hR hv
    obtain ⟨new, hnew⟩ := h.extend hanswers
    obtain ⟨more, t'', hR'', horders, hreal⟩ := ih hrun hR' hnew
    rw [List.append_assoc] at horders hreal
    refine ⟨new ++ more, t'', hR'', horders, ?_⟩
    intro before after u i j hsplit hu hi hj hmem
    cases before with
    | nil =>
      -- `i` is among the calls answered before the run, `j` is not
      cases hu
      have hi' := (h.mem_iff i).mpr hi
      rw [List.map_append] at hmem ⊢
      have hj' : j ∉ points.map Point.call := by
        intro hmem'
        obtain ⟨p, hp, rfl⟩ := List.mem_map.mp hmem'
        rw [h.asked p hp] at hj
        cases hj
      exact (List.singleton_sublist.mpr hi').append
        (List.singleton_sublist.mpr ((List.mem_append.mp hmem).resolve_left hj'))
    | cons b before =>
      obtain ⟨rfl, hrest⟩ := List.cons.inj (hsplit.trans (List.cons_append ..))
      obtain ⟨w, hw, hu⟩ := Option.bind_eq_some_iff.mp hu
      rw [hv] at hw
      cases hw
      exact hreal before after u i j hrest hu hi hj hmem

end

end Linearization
