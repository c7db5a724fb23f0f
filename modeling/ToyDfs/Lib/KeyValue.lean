import Mathlib.Logic.Function.Basic
import Mathlib.Data.List.Induction

/-!
Key-value maps given by the writes so far.

`write i = some (k, some v)` says that input `i` puts `v` under `k`,
`some (k, none)` that it removes `k`, and `none` that it writes nothing.

* `contents write is`: the map after the inputs `is`.
* `LastPut write k is v`: `v` is what was put last under `k`, and nothing was
  written there since.
* `contents_eq_some_iff`: the two agree.
-/

namespace KeyValue

variable {κ ν ι : Type} (write : ι → Option (κ × Option ν))

/-! ## The last write -/

def LastPut (k : κ) (is : List ι) (v : ν) : Prop :=
  ∃ before i after, is = before ++ i :: after ∧ write i = some (k, some v) ∧
    ∀ j ∈ after, ∀ w, write j ≠ some (k, w)

/-- Where the last element of a list is, next to one that comes before. -/
theorem snoc_eq_split {α : Type} {l before after : List α} {a b : α} (h : l ++ [b] = before ++ a :: after) :
    (after = [] ∧ a = b) ∨ ∃ after', after = after' ++ [b] ∧ l = before ++ a :: after' := by
  rcases List.eq_nil_or_concat after with rfl | ⟨after', last, rfl⟩
  · have hlast := (List.append_inj' h rfl).2
    cases hlast
    exact Or.inl ⟨rfl, rfl⟩
  · rw [List.concat_eq_append, ← List.cons_append, ← List.append_assoc] at h
    obtain ⟨hinit, hlast⟩ := List.append_inj' h rfl
    cases hlast
    exact Or.inr ⟨after', List.concat_eq_append, hinit⟩

/-- One more input that writes the key. -/
theorem lastPut_snoc_self {is : List ι} {i : ι} {k : κ} {v : ν} {w : Option ν}
    (h : write i = some (k, w)) : LastPut write k (is ++ [i]) v ↔ w = some v := by
  constructor
  · rintro ⟨before, j, after, he, hj, hall⟩
    rcases snoc_eq_split he with ⟨-, rfl⟩ | ⟨after', rfl, -⟩
    · rw [h] at hj
      cases hj
      rfl
    · exact absurd h (hall i (List.mem_append_right _ List.mem_cons_self) w)
  · rintro rfl
    exact ⟨is, i, [], rfl, h, fun j hj => nomatch hj⟩

/-- And one that does not. -/
theorem lastPut_snoc_other {is : List ι} {i : ι} {k : κ} {v : ν} (h : ∀ w, write i ≠ some (k, w)) :
    LastPut write k (is ++ [i]) v ↔ LastPut write k is v := by
  constructor
  · rintro ⟨before, j, after, he, hj, hall⟩
    rcases snoc_eq_split he with ⟨-, rfl⟩ | ⟨after', rfl, rfl⟩
    · exact absurd hj (h _)
    · exact ⟨before, j, after', rfl, hj, fun c hc => hall c (List.mem_append_left _ hc)⟩
  · rintro ⟨before, j, after, rfl, hj, hall⟩
    refine ⟨before, j, after ++ [i], ?_, hj, ?_⟩
    · rw [List.append_assoc, List.cons_append]
    · intro c hc
      rcases List.mem_append.mp hc with hc | hc
      · exact hall c hc
      · rw [List.mem_singleton.mp hc]
        exact h

/-! ## The map -/

variable [DecidableEq κ]

/-- The map after one more input. -/
def update (m : κ → Option ν) (i : ι) : κ → Option ν :=
  match write i with
  | none => m
  | some (k, v) => Function.update m k v

/-- The map after a list of inputs. -/
def contents (is : List ι) : κ → Option ν := is.foldl (update write) fun _ => none

theorem contents_snoc (is : List ι) (i : ι) :
    contents write (is ++ [i]) = update write (contents write is) i := by
  rw [contents, List.foldl_append]
  rfl

theorem update_self {m : κ → Option ν} {i : ι} {k : κ} {w : Option ν} (h : write i = some (k, w)) :
    update write m i k = w := by
  unfold update
  rw [h]
  exact Function.update_self ..

theorem update_other {m : κ → Option ν} {i : ι} {k : κ} (h : ∀ w, write i ≠ some (k, w)) :
    update write m i k = m k := by
  unfold update
  cases hi : write i with
  | none => rfl
  | some kw =>
    refine Function.update_of_ne ?_ ..
    rintro rfl
    exact h kw.2 hi

/-- **The map holds what was put last**, and nothing that was removed since. -/
theorem contents_eq_some_iff (is : List ι) (k : κ) (v : ν) :
    contents write is k = some v ↔ LastPut write k is v := by
  induction is using List.reverseRecOn with
  | nil =>
    constructor
    · intro h
      cases h
    · rintro ⟨before, i, after, he, -⟩
      cases before <;> cases he
  | append_singleton is i ih =>
    rw [contents_snoc]
    by_cases hw : ∃ w, write i = some (k, w)
    · obtain ⟨w, hw⟩ := hw
      rw [update_self write hw, lastPut_snoc_self write hw]
    · have hno : ∀ w, write i ≠ some (k, w) := fun w he => hw ⟨w, he⟩
      rw [update_other write hno, lastPut_snoc_other write hno, ih]

end KeyValue
