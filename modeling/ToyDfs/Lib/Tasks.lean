import ToyDfs.Lib.Simulation
import Mathlib.Logic.Function.Basic

/-!
Machines side by side, and programs that use them.

A `Task` ends by itself, or puts one input to one of the machines and makes its output
of the answer.

* `serve f`: a family of machines, the inputs of which are tasks.
* `Grants spec`: what is permitted of it, when `spec` says what is permitted of each.
* `Implements.serve`: when each machine implements `spec`, the family implements
  `Grants spec`.  Only the inputs put to a machine count for it.
-/

namespace Simulation

variable {κ κ' σ τ ι ω θ θ' : Type}

inductive Task (κ ι ω θ : Type)
  | ended (output : θ)
  /-- machine `k` gets `input` -/
  | asks (k : κ) (input : ι) (output : ω → θ)

namespace Task

/-- The machines and the output under other names. -/
def map (g : κ → κ') (h : θ → θ') : Task κ ι ω θ → Task κ' ι ω θ'
  | ended output => ended (h output)
  | asks k input output => asks (g k) input fun answer => h (output answer)

variable [DecidableEq κ]

/-- What machine `k` gets. -/
def inputAt (k : κ) : Task κ ι ω θ → Option ι
  | ended _ => none
  | asks k' input _ => if k' = k then some input else none

/-- All that machine `k` gets, in order. -/
def inputsAt (k : κ) (tasks : List (Task κ ι ω θ)) : List ι := tasks.filterMap (inputAt k)

theorem inputsAt_append (k : κ) (tasks tasks' : List (Task κ ι ω θ)) :
    inputsAt k (tasks ++ tasks') = inputsAt k tasks ++ inputsAt k tasks' := List.filterMap_append

theorem inputsAt_ended (k : κ) (output : θ) : inputsAt k [(ended output : Task κ ι ω θ)] = [] := rfl

theorem inputsAt_asks_self (k : κ) (input : ι) (output : ω → θ) :
    inputsAt k [asks k input output] = [input] := by
  simp [inputsAt, inputAt]

theorem inputsAt_asks_ne {k k' : κ} (h : k' ≠ k) (input : ι) (output : ω → θ) :
    inputsAt k [asks k' input output] = [] := by
  simp [inputsAt, inputAt, h]

end Task

section
variable [DecidableEq κ]

def serve (f : σ → ι → ω × σ) (w : κ → σ) : Task κ ι ω θ → θ × (κ → σ)
  | .ended output => (output, w)
  | .asks k input output =>
    let (answer, s) := f (w k) input
    (output answer, Function.update w k s)

inductive Grants (spec : τ → ι → ω → τ → Prop) (t : κ → τ) : Task κ ι ω θ → θ → (κ → τ) → Prop
  | ended (output : θ) : Grants spec t (.ended output) output t
  | asked {k : κ} {input : ι} {answer : ω} {t' : τ} (output : ω → θ) (h : spec (t k) input answer t') :
    Grants spec t (.asks k input output) (output answer) (Function.update t k t')

/-- **Side by side.** -/
theorem Implements.serve {P : List ι → Prop} {R : List ι → σ → τ → Prop} {f : σ → ι → ω × σ}
    {spec : τ → ι → ω → τ → Prop} (h : Implements P R f spec) :
    Implements (fun tasks => ∀ k : κ, P (Task.inputsAt k tasks))
      (fun past w t => ∀ k, R (Task.inputsAt k past) (w k) (t k))
      (Simulation.serve f : (κ → σ) → Task κ ι ω θ → θ × (κ → σ)) (Grants spec) := by
  intro past w t task hP hR
  cases task with
  | ended output =>
    refine ⟨t, .ended output, fun k => ?_⟩
    rw [Task.inputsAt_append, Task.inputsAt_ended, List.append_nil]
    exact hR k
  | asks k input output =>
    have hPk := hP k
    rw [Task.inputsAt_append, Task.inputsAt_asks_self] at hPk
    obtain ⟨t', hspec, hR'⟩ := h _ _ _ input hPk (hR k)
    refine ⟨Function.update t k t', .asked output hspec, fun j => ?_⟩
    show R _ (Function.update w k (f (w k) input).2 j) _
    rw [Task.inputsAt_append]
    by_cases hj : k = j
    · subst hj
      rw [Task.inputsAt_asks_self, Function.update_self, Function.update_self]
      exact hR'
    · rw [Task.inputsAt_asks_ne hj, List.append_nil, Function.update_of_ne (Ne.symm hj),
        Function.update_of_ne (Ne.symm hj)]
      exact hR j

end

/-! ## Inputs under other names -/

section
variable {ι' : Type} {f : σ → ι → ω × σ} {spec : τ → ι → ω → τ → Prop} {spec' : τ → ι' → ω → τ → Prop}

theorem run_map (g : ι' → ι) (s : σ) (is : List ι') :
    run (fun s i => f s (g i)) s is = run f s (is.map g) := by
  induction is generalizing s with
  | nil => rfl
  | cons i is ih => rw [List.map_cons, run_cons, run_cons, ih]

theorem Permits.of_map {g : ι' → ι} (hspec : ∀ t i answer t', spec t (g i) answer t' → spec' t i answer t')
    {t t' : τ} {is : List ι'} {answers : List ω} (h : Permits spec t (is.map g) answers t') :
    Permits spec' t is answers t' := by
  induction is generalizing t answers with
  | nil =>
    cases h
    exact .nil _
  | cons i is ih =>
    cases h with
    | cons hi his => exact .cons (hspec _ _ _ _ hi) (ih his)

end

end Simulation
