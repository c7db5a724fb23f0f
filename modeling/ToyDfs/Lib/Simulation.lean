import Mathlib.Data.List.Basic

/-!
Deterministic machines that answer every input, and relations between two of them.

* `run f s is`: feed the inputs `is` to the machine `f` from state `s`; the answers
  and the last state.
* `Simulates R f g`: in related states `f` and `g` answer alike and stay related.
* `Simulates.run`: then all their runs answer alike.

A specification `spec t i answer t'` may permit several answers to an input.

* `Permits spec t is answers t'`: it permits these answers, one after another.
* `Implements P R f spec`: in related states `f` answers as permitted and stays
  related.  `R` may look at the inputs so far, of which `P` is assumed.
* `Implements.run`: then all runs within `P` answer as permitted.
* `permits_iff_run`: a specification that is a machine permits its runs only.
-/

namespace Simulation

variable {σ τ ι ω : Type}

/-- The answers to a list of inputs, and the state after them. -/
def run (f : σ → ι → ω × σ) (s : σ) : List ι → List ω × σ
  | [] => ([], s)
  | i :: is =>
    let (answer, s) := f s i
    let (answers, s) := run f s is
    (answer :: answers, s)

theorem run_cons (f : σ → ι → ω × σ) (s : σ) (i : ι) (is : List ι) :
    run f s (i :: is) = ((f s i).1 :: (run f (f s i).2 is).1, (run f (f s i).2 is).2) := rfl

theorem run_append (f : σ → ι → ω × σ) (s : σ) (is js : List ι) :
    (run f s (is ++ js)).2 = (run f (run f s is).2 js).2 := by
  induction is generalizing s with
  | nil => rfl
  | cons i is ih => exact ih (f s i).2

theorem run_answers_append (f : σ → ι → ω × σ) (s : σ) (is js : List ι) :
    (run f s (is ++ js)).1 = (run f s is).1 ++ (run f (run f s is).2 js).1 := by
  induction is generalizing s with
  | nil => rfl
  | cons i is ih =>
    rw [List.cons_append, run_cons, run_cons, ih, List.cons_append]

/-- The state after one more input. -/
theorem run_snoc (f : σ → ι → ω × σ) (s : σ) (is : List ι) (i : ι) :
    (run f s (is ++ [i])).2 = (f (run f s is).2 i).2 := run_append f s is [i]

/-- In related states the two machines answer alike and stay related, for the
inputs in `I`. -/
def Simulates (I : ι → Prop) (R : σ → τ → Prop) (f : σ → ι → ω × σ) (g : τ → ι → ω × τ) : Prop :=
  ∀ s t i, I i → R s t → (f s i).1 = (g t i).1 ∧ R (f s i).2 (g t i).2

/-- **Simulation.**  Related machines answer all runs alike. -/
theorem Simulates.run {I : ι → Prop} {R : σ → τ → Prop} {f : σ → ι → ω × σ} {g : τ → ι → ω × τ}
    (h : Simulates I R f g) (is : List ι) (hI : ∀ i ∈ is, I i) {s : σ} {t : τ} (hR : R s t) :
    (run f s is).1 = (run g t is).1 ∧ R (run f s is).2 (run g t is).2 := by
  induction is generalizing s t with
  | nil => exact ⟨rfl, hR⟩
  | cons i is ih =>
    obtain ⟨ha, hR'⟩ := h s t i (hI i List.mem_cons_self) hR
    obtain ⟨has, hR''⟩ := ih (fun j hj => hI j (List.mem_cons_of_mem _ hj)) hR'
    rw [run_cons, run_cons, ha, has]
    exact ⟨rfl, hR''⟩

/-- The specification permits these answers to these inputs, and leads to `t'`. -/
inductive Permits (spec : τ → ι → ω → τ → Prop) : τ → List ι → List ω → τ → Prop
  | nil (t : τ) : Permits spec t [] [] t
  | cons {t t' t'' : τ} {i : ι} {is : List ι} {answer : ω} {answers : List ω} :
    spec t i answer t' → Permits spec t' is answers t'' →
      Permits spec t (i :: is) (answer :: answers) t''

theorem Permits.append {spec : τ → ι → ω → τ → Prop} {t t' t'' : τ} {is js : List ι} {as bs : List ω}
    (h : Permits spec t is as t') (h' : Permits spec t' js bs t'') :
    Permits spec t (is ++ js) (as ++ bs) t'' := by
  induction h with
  | nil t => exact h'
  | cons hspec _ ih => exact .cons hspec (ih h')

/-- In states related after the inputs `past`, the machine answers the next input as
permitted, and the states stay related. -/
def Implements (P : List ι → Prop) (R : List ι → σ → τ → Prop) (f : σ → ι → ω × σ)
    (spec : τ → ι → ω → τ → Prop) : Prop :=
  ∀ past s t i, P (past ++ [i]) → R past s t →
    ∃ t', spec t i (f s i).1 t' ∧ R (past ++ [i]) (f s i).2 t'

/-- **Implementation.**  All runs are answered as permitted, when `P` holds of the
inputs so far whenever it holds of all of them. -/
theorem Implements.run {P : List ι → Prop} {R : List ι → σ → τ → Prop} {f : σ → ι → ω × σ}
    {spec : τ → ι → ω → τ → Prop} (h : Implements P R f spec)
    (hP : ∀ past rest, P (past ++ rest) → P past) (past is : List ι) {s : σ} {t : τ}
    (hall : P (past ++ is)) (hR : R past s t) :
    ∃ t', Permits spec t is (run f s is).1 t' ∧ R (past ++ is) (run f s is).2 t' := by
  induction is generalizing past s t with
  | nil =>
    rw [List.append_nil]
    exact ⟨t, .nil t, hR⟩
  | cons i is ih =>
    have hsplit : past ++ i :: is = past ++ [i] ++ is := by simp
    rw [hsplit] at hall ⊢
    obtain ⟨t', hspec, hR'⟩ := h past s t i (hP _ is hall) hR
    obtain ⟨t'', hrest, hR''⟩ := ih _ hall hR'
    rw [run_cons]
    exact ⟨t'', .cons hspec hrest, hR''⟩

theorem permits_iff_run {g : τ → ι → ω × τ} {t t' : τ} {is : List ι} {answers : List ω} :
    Permits (fun t i answer t' => g t i = (answer, t')) t is answers t' ↔
      Simulation.run g t is = (answers, t') := by
  induction is generalizing t answers with
  | nil =>
    constructor
    · intro h
      cases h
      rfl
    · intro h
      cases h
      exact .nil _
  | cons i is ih =>
    constructor
    · intro h
      cases h with
      | cons hspec hrest => rw [run_cons, hspec, ih.mp hrest]
    · intro h
      rw [run_cons] at h
      cases h
      exact .cons rfl (ih.mpr rfl)

end Simulation
