import Mathlib.Order.Basic
import Mathlib.Data.List.Induction

/-!
Labelled transition systems given by a partial step function.

`step s a = some t` says that action `a` is enabled in `s` and leads to `t`.
`ok s a` restricts the actions a run may take (`fun _ _ => True` for all runs).

* `Reachable init ok`: states reached from `init` by allowed actions.
* `Reachable.invariant`: what holds initially and survives every allowed step
  holds in every reachable state.
* `Reachable.invariant_within`: the same for a property that is only claimed
  within a bound that no run leaves and comes back into.
* `exec`: run a list of actions; it stays inside `Reachable`.
* `Along P s as`: `P` holds of every step the run of `as` from `s` takes;
  `exec_along` carries what such steps preserve through the run.
* `exec_since`: what holds after a run began to hold in some state of it.
* `exec_history`: induction on a run from its start, for what is said of a state and
  the actions that led to it.
* `exec_iff_along`: a property that a step violating `P` breaks for good holds at
  the end of a run iff all its steps satisfy `P`.
-/

namespace Transition

variable {σ α : Type} (step : σ → α → Option σ)

inductive Reachable (init : σ → Prop) (ok : σ → α → Prop) : σ → Prop
  | init {s : σ} : init s → Reachable init ok s
  | step {s t : σ} (a : α) : Reachable init ok s → ok s a → step s a = some t → Reachable init ok t

/-- Run a list of actions, `none` when one of them is not enabled. -/
def exec (s : σ) : List α → Option σ
  | [] => some s
  | a :: as => (step s a).bind fun t => exec t as

/-- Every step the run of a list of actions takes satisfies `P`. -/
def Along (P : σ → α → Prop) (s : σ) : List α → Prop
  | [] => True
  | a :: as => P s a ∧ ∀ t, step s a = some t → Along P t as

/-- `μ` never goes down along a step. -/
def Monotone {β : Type} [LE β] (μ : σ → β) : Prop := ∀ s a t, step s a = some t → μ s ≤ μ t

section
variable {step}

theorem exec_append (as bs : List α) (s : σ) :
    exec step s (as ++ bs) = (exec step s as).bind fun t => exec step t bs := by
  induction as generalizing s with
  | nil => rfl
  | cons a as ih =>
    simp only [List.cons_append, exec]
    cases step s a with
    | none => rfl
    | some t => exact ih t

/-- **Runs of restricted steps.**  What a step satisfying `P` preserves, a run of
such steps preserves. -/
theorem exec_along {P : σ → α → Prop} {R : σ → Prop}
    (hstep : ∀ s a t, P s a → step s a = some t → R s → R t) :
    ∀ (as : List α) {s t : σ}, exec step s as = some t → Along step P s as → R s → R t := by
  intro as
  induction as with
  | nil =>
    intro s t h _ hR
    cases h
    exact hR
  | cons a as ih =>
    intro s t h hal hR
    obtain ⟨u, hu, h⟩ := Option.bind_eq_some_iff.mp h
    exact ih h (hal.2 u hu) (hstep s a u hal.1 hu hR)

theorem along_of_forall {P : σ → α → Prop} (h : ∀ s a, P s a) (as : List α) (s : σ) :
    Along step P s as := by
  induction as generalizing s with
  | nil => trivial
  | cons a as ih => exact ⟨h s a, fun t _ => ih t⟩

theorem along_of_forall_mem {P : σ → α → Prop} {as : List α} (h : ∀ a ∈ as, ∀ s, P s a) (s : σ) :
    Along step P s as := by
  induction as generalizing s with
  | nil => trivial
  | cons a as ih =>
    exact ⟨h a List.mem_cons_self s, fun t _ => ih (fun b hb => h b (List.mem_cons_of_mem _ hb)) t⟩

/-- What every step preserves, a run preserves. -/
theorem exec_invariant {R : σ → Prop} (hstep : ∀ s a t, step s a = some t → R s → R t)
    (as : List α) {s t : σ} (h : exec step s as = some t) (hs : R s) : R t :=
  exec_along (P := fun _ _ => True) (fun s a t _ => hstep s a t) as h
    (along_of_forall (fun _ _ => trivial) as s) hs

instance decidableAlong {P : σ → α → Prop} [∀ s a, Decidable (P s a)] :
    (as : List α) → (s : σ) → Decidable (Along step P s as)
  | [], _ => isTrue trivial
  | a :: as, s =>
    match hs : step s a with
    | none => decidable_of_iff (P s a)
        ⟨fun h => ⟨h, fun _ ht => nomatch hs.symm.trans ht⟩, fun h => h.1⟩
    | some t =>
      have : Decidable (Along step P t as) := decidableAlong as t
      decidable_of_iff (P s a ∧ Along step P t as)
        ⟨fun h => ⟨h.1, fun _ hu => Option.some.inj (hs.symm.trans hu) ▸ h.2⟩, fun h => ⟨h.1, h.2 t hs⟩⟩

theorem Along.mono {P Q : σ → α → Prop} {as : List α} {s : σ} (h : Along step P s as)
    (hPQ : ∀ s a, P s a → Q s a) : Along step Q s as := by
  induction as generalizing s with
  | nil => trivial
  | cons a as ih => exact ⟨hPQ s a h.1, fun t ht => ih (h.2 t ht)⟩

theorem Along.and {P Q : σ → α → Prop} {as : List α} {s : σ} (hP : Along step P s as)
    (hQ : Along step Q s as) : Along step (fun s a => P s a ∧ Q s a) s as := by
  induction as generalizing s with
  | nil => trivial
  | cons a as ih => exact ⟨⟨hP.1, hQ.1⟩, fun t ht => ih (hP.2 t ht) (hQ.2 t ht)⟩

theorem along_append {P : σ → α → Prop} (as bs : List α) (s : σ) :
    Along step P s (as ++ bs) ↔
      Along step P s as ∧ ∀ t, exec step s as = some t → Along step P t bs := by
  induction as generalizing s with
  | nil =>
    constructor
    · intro h
      refine ⟨trivial, ?_⟩
      rintro t ⟨⟩
      exact h
    · rintro ⟨-, h⟩
      exact h s rfl
  | cons a as ih =>
    simp only [List.cons_append, Along, exec]
    constructor
    · rintro ⟨ha, h⟩
      refine ⟨⟨ha, fun t ht => ((ih t).mp (h t ht)).1⟩, ?_⟩
      intro u hu
      obtain ⟨t, ht, hu⟩ := Option.bind_eq_some_iff.mp hu
      exact ((ih t).mp (h t ht)).2 u hu
    · rintro ⟨⟨ha, h⟩, hbs⟩
      refine ⟨ha, fun t ht => (ih t).mpr ⟨h t ht, fun u hu => hbs u ?_⟩⟩
      rw [ht]
      exact hu

/-- **Broken for good.**  `R` survives the steps satisfying `P` and no other step,
and once broken it stays so. -/
theorem exec_iff_along {P : σ → α → Prop} {R : σ → Prop}
    (hgood : ∀ s a t, P s a → step s a = some t → R s → R t)
    (hbad : ∀ s a t, ¬ P s a → step s a = some t → ¬ R t)
    (hback : ∀ s a t, step s a = some t → R t → R s) :
    ∀ (as : List α) {s t : σ}, exec step s as = some t → R s → (R t ↔ Along step P s as) := by
  have back : ∀ (as : List α) {s t : σ}, exec step s as = some t → R t → R s := by
    intro as
    induction as with
    | nil =>
      intro s t h hR
      cases h
      exact hR
    | cons a as ih =>
      intro s t h hR
      obtain ⟨u, hu, h⟩ := Option.bind_eq_some_iff.mp h
      exact hback s a u hu (ih h hR)
  intro as s t h hs
  refine ⟨?_, fun hal => exec_along hgood as h hal hs⟩
  induction as generalizing s with
  | nil => exact fun _ => trivial
  | cons a as ih =>
    intro ht
    obtain ⟨u, hu, h⟩ := Option.bind_eq_some_iff.mp h
    have hRu := back as h ht
    refine ⟨?_, ?_⟩
    · by_contra hP
      exact hbad s a u hP hu hRu
    · intro v hv
      rw [hu] at hv
      cases hv
      exact ih h hRu ht

/-- **When it began.**  What holds after a run, and only begins to hold in states where
`P` does, began in one of them. -/
theorem exec_since {P Q R : σ → Prop} (hR : ∀ s a t, step s a = some t → R s → R t)
    (hstep : ∀ s a t, R s → step s a = some t → Q t → Q s ∨ P s) :
    ∀ (as : List α) {s t : σ}, exec step s as = some t → R s → ¬ Q s → Q t →
      ∃ before after u, as = before ++ after ∧ exec step s before = some u ∧ P u := by
  intro as
  induction as with
  | nil =>
    intro s t h _ hnot hQ
    cases h
    exact absurd hQ hnot
  | cons a as ih =>
    intro s t h hs hnot hQ
    obtain ⟨v, hv, h⟩ := Option.bind_eq_some_iff.mp h
    by_cases hQv : Q v
    · exact ⟨[], a :: as, s, rfl, rfl, (hstep s a v hs hv hQv).resolve_left hnot⟩
    · obtain ⟨before, after, u, rfl, hu, hP⟩ := ih h (hR s a v hv hs) hQv hQ
      refine ⟨a :: before, after, u, rfl, ?_, hP⟩
      simp only [exec, hv, Option.bind_some, hu]

/-- **History.**  What is said of the actions taken so far and the state they lead to. -/
theorem exec_history {P : List α → σ → Prop} {s : σ} (h0 : P [] s)
    (hstep : ∀ as a t u, exec step s as = some t → step t a = some u → P as t → P (as ++ [a]) u)
    (as : List α) : ∀ {t : σ}, exec step s as = some t → P as t := by
  induction as using List.reverseRec with
  | nil =>
    intro t h
    cases h
    exact h0
  | append_singleton as a ih =>
    intro u h
    rw [exec_append] at h
    obtain ⟨t, ht, h⟩ := Option.bind_eq_some_iff.mp h
    obtain ⟨u', hu, h⟩ := Option.bind_eq_some_iff.mp h
    cases h
    exact hstep as a t u ht hu (ih ht)

/-- A counter that never goes down, and goes up on a step violating `P`, tells at
the end of a run whether some step violated `P`. -/
theorem exec_counter {β : Type} [Preorder β] {P : σ → α → Prop} {μ : σ → β} (hμ : Monotone step μ)
    (hup : ∀ s a t, step s a = some t → ¬ P s a → μ s < μ t) :
    ∀ (as : List α) {s t : σ}, exec step s as = some t → ¬ Along step P s as → μ s < μ t := by
  have mono : ∀ (as : List α) {s t : σ}, exec step s as = some t → μ s ≤ μ t := by
    intro as
    induction as with
    | nil =>
      intro s t h
      cases h
      exact le_refl _
    | cons a as ih =>
      intro s t h
      obtain ⟨u, hu, h⟩ := Option.bind_eq_some_iff.mp h
      exact le_trans (hμ s a u hu) (ih h)
  intro as
  induction as with
  | nil => intro s t _ hal; exact absurd trivial hal
  | cons a as ih =>
    intro s t h hal
    obtain ⟨u, hu, h⟩ := Option.bind_eq_some_iff.mp h
    by_cases hP : P s a
    · have hrest : ¬ Along step P u as := fun hrest => hal ⟨hP, fun t ht => by
        rw [hu] at ht
        cases ht
        exact hrest⟩
      exact lt_of_le_of_lt (hμ s a u hu) (ih h hrest)
    · exact lt_of_lt_of_le (hup s a u hu hP) (mono as h)

end

section
variable {step} {init : σ → Prop} {ok ok' : σ → α → Prop}

theorem Reachable.invariant {P : σ → Prop} (h0 : ∀ s, init s → P s)
    (hstep : ∀ s a t, Reachable step init ok s → ok s a → step s a = some t → P s → P t) {s : σ}
    (hs : Reachable step init ok s) : P s := by
  induction hs with
  | init h => exact h0 _ h
  | step a hr hok ht ih => exact hstep _ a _ hr hok ht ih

/-- **Invariant within a bound.**  `P` only has to survive the steps that end within
`B`, when a state within `B` comes from one within `B`. -/
theorem Reachable.invariant_within {P B : σ → Prop} (hB : ∀ s a t, step s a = some t → B t → B s)
    (h0 : ∀ s, init s → P s)
    (hstep : ∀ s a t, Reachable step init ok s → ok s a → step s a = some t → B t → P s → P t)
    {s : σ} (hs : Reachable step init ok s) (hb : B s) : P s := by
  induction hs with
  | init h => exact h0 _ h
  | step a hr hok ht ih => exact hstep _ a _ hr hok ht hb (ih (hB _ a _ ht hb))

theorem Reachable.mono (hok : ∀ s a, ok s a → ok' s a) {s : σ} (hs : Reachable step init ok s) :
    Reachable step init ok' s := by
  induction hs with
  | init h => exact .init h
  | step a _ h ht ih => exact .step a ih (hok _ a h) ht

theorem Reachable.mono_init {init' : σ → Prop} (hinit : ∀ s, init s → init' s) {s : σ}
    (hs : Reachable step init ok s) : Reachable step init' ok s := by
  induction hs with
  | init h => exact .init (hinit _ h)
  | step a _ h ht ih => exact .step a ih h ht

/-- From `s` to `t`, and on to `u`. -/
theorem Reachable.trans {s t u : σ} (h : Reachable step (· = s) ok t) (h' : Reachable step (· = t) ok u) :
    Reachable step (· = s) ok u := by
  induction h' with
  | init he => exact he ▸ h
  | step a _ ha ht ih => exact .step a ih ha ht

theorem Reachable.exec (hok : ∀ s a, Reachable step init ok s → ok s a) :
    ∀ (as : List α) {s t : σ}, Reachable step init ok s → Transition.exec step s as = some t →
      Reachable step init ok t := by
  intro as
  induction as with
  | nil =>
    intro s t hs h
    cases h
    exact hs
  | cons a as ih =>
    intro s t hs h
    obtain ⟨u, hu, h⟩ := Option.bind_eq_some_iff.mp h
    exact ih (.step a hs (hok s a hs) hu) h

theorem Reachable.exec_along {as : List α} {s t : σ} (hs : Reachable step init ok s)
    (h : Transition.exec step s as = some t) (hok : Along step ok s as) : Reachable step init ok t :=
  Transition.exec_along (R := Reachable step init ok) (fun _ a _ ha ht hr => .step a hr ha ht) as h hok hs

/-- The actions of `as` are all allowed, whatever the state. -/
theorem Reachable.exec_of_forall : ∀ (as : List α) {s t : σ}, Reachable step init ok s →
    (∀ a ∈ as, ∀ s, ok s a) → Transition.exec step s as = some t → Reachable step init ok t := by
  intro as
  induction as with
  | nil =>
    intro s t hs _ h
    cases h
    exact hs
  | cons a as ih =>
    intro s t hs hok h
    obtain ⟨u, hu, h⟩ := Option.bind_eq_some_iff.mp h
    exact ih (.step a hs (hok a List.mem_cons_self s) hu)
      (fun b hb => hok b (List.mem_cons_of_mem _ hb)) h

end

end Transition
