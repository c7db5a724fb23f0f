import Mathlib.Algebra.BigOperators.Group.Finset.Basic
import Mathlib.Algebra.Order.BigOperators.Group.Finset
import Mathlib.Algebra.BigOperators.Ring.Finset

/-!
Taking turns: `m` calls, the `t`-th of which gives one unit to each of the residues
`a + t, a + t + 1, …, a + t + k - 1` modulo `n`.

* `hits n a k x`: what one such call starting at `a` gives to residue `x`.
* `load n a m k x`: what `m` calls give to it.

Whole turns give every residue the same, so only `m % n` calls of `k % n` units make
a difference (`load_eq`), and these give no residue more than `min (m % n) (k % n)`
(`load_le_add`).
-/

namespace RoundRobin

open Finset

variable {n : Nat}

/-- How many of `a, …, a + k - 1` are `x` modulo `n`. -/
def hits (n a k x : Nat) : Nat := ∑ i ∈ range k, if (a + i) % n = x then 1 else 0

/-- The hits of `m` calls that start at `a, …, a + m - 1`. -/
def load (n a m k x : Nat) : Nat := ∑ t ∈ range m, hits n (a + t) k x

/-! ## One call -/

@[simp] theorem hits_zero (n a x : Nat) : hits n a 0 x = 0 := rfl

theorem hits_succ (n a k x : Nat) :
    hits n a (k + 1) x = hits n a k x + if (a + k) % n = x then 1 else 0 := sum_range_succ _ k

theorem hits_add (n a j k x : Nat) : hits n a (j + k) x = hits n a j x + hits n (a + j) k x := by
  induction k with
  | zero => simp
  | succ k ih => rw [← Nat.add_assoc, hits_succ, hits_succ, ih, Nat.add_assoc, Nat.add_assoc]

theorem hits_mod (n a k x : Nat) : hits n (a % n) k x = hits n a k x := by
  unfold hits
  refine sum_congr rfl fun i _ => ?_
  rw [Nat.mod_add_mod]

/-- A whole turn starting at 0. -/
theorem hits_turn_zero {x : Nat} (hx : x < n) : hits n 0 n x = 1 := by
  unfold hits
  rw [sum_eq_single_of_mem x (mem_range.mpr hx)]
  · rw [Nat.zero_add, Nat.mod_eq_of_lt hx, if_pos rfl]
  · intro i hi hne
    rw [Nat.zero_add, Nat.mod_eq_of_lt (mem_range.mp hi), if_neg hne]

/-- **A whole turn** gives every residue one, wherever it starts. -/
theorem hits_turn {x : Nat} (hx : x < n) (a : Nat) : hits n a n x = 1 := by
  induction a with
  | zero => exact hits_turn_zero hx
  | succ a ih =>
    have hslide : hits n a 1 x + hits n (a + 1) n x = hits n a n x + hits n (a + n) 1 x := by
      rw [← hits_add, ← hits_add, Nat.add_comm]
    have hsame : hits n (a + n) 1 x = hits n a 1 x := by
      rw [← hits_mod n (a + n), Nat.add_mod_right, hits_mod]
    omega

/-- Whole turns come off. -/
theorem hits_eq {x : Nat} (hx : x < n) (a k : Nat) :
    hits n a k x = k / n + hits n a (k % n) x := by
  have hturns : ∀ q r, hits n a (n * q + r) x = q + hits n a r x := by
    intro q r
    induction q with
    | zero => simp
    | succ q ih =>
      have hsplit : n * (q + 1) + r = n + (n * q + r) := by
        rw [Nat.mul_succ]
        omega
      have hback : hits n (a + n) (n * q + r) x = hits n a (n * q + r) x := by
        rw [← hits_mod n (a + n), Nat.add_mod_right, hits_mod]
      rw [hsplit, hits_add, hits_turn hx, hback, ih]
      omega
  have h := hturns (k / n) (k % n)
  rwa [Nat.div_add_mod] at h

/-- Less than a turn gives at most one. -/
theorem hits_le_one {x : Nat} (hx : x < n) (a : Nat) {k : Nat} (hk : k ≤ n) : hits n a k x ≤ 1 := by
  have hsplit := hits_add n a k (n - k) x
  rw [Nat.add_sub_cancel' hk, hits_turn hx] at hsplit
  omega

/-! ## Many calls -/

/-- Calls and units may change places. -/
theorem load_comm (n a m k x : Nat) : load n a m k x = load n a k m x := by
  unfold load hits
  rw [sum_comm]
  refine sum_congr rfl fun i _ => sum_congr rfl fun t _ => ?_
  rw [Nat.add_right_comm]

theorem load_le {x : Nat} (hx : x < n) (a m : Nat) {k : Nat} (hk : k ≤ n) : load n a m k x ≤ m := by
  calc load n a m k x ≤ ∑ _t ∈ range m, 1 := sum_le_sum fun t _ => hits_le_one hx (a + t) hk
    _ = m := by simp

/-- Whole turns of units come off. -/
theorem load_units {x : Nat} (hx : x < n) (a m k : Nat) :
    load n a m k x = m * (k / n) + load n a m (k % n) x := by
  unfold load
  rw [sum_congr rfl fun t _ => hits_eq hx (a + t) k, sum_add_distrib,
    sum_const_nat (m := k / n) fun _ _ => rfl, card_range]

/-- **What depends on the residue** is less than a turn of calls and of units. -/
theorem load_eq {x : Nat} (hx : x < n) (a m k : Nat) :
    load n a m k x = m * (k / n) + k % n * (m / n) + load n a (m % n) (k % n) x := by
  rw [load_units hx, load_comm n a m, load_units hx, load_comm n a (k % n), Nat.add_assoc]

/-- **Balance.** -/
theorem load_le_add {x y : Nat} (hx : x < n) (hy : y < n) (a m k : Nat) :
    load n a m k x ≤ load n a m k y + min (m % n) (k % n) := by
  have hn : 0 < n := by omega
  have hcalls := load_le hx a (m % n) (Nat.mod_lt k hn).le
  have hunits := load_le hx a (k % n) (Nat.mod_lt m hn).le
  rw [load_comm] at hunits
  rw [load_eq hx, load_eq hy]
  omega

/-- Whole turns of calls are shared equally. -/
theorem load_of_dvd {x : Nat} (hx : x < n) (a : Nat) {m : Nat} (hm : n ∣ m) (k : Nat) :
    load n a m k x = m * k / n := by
  obtain ⟨q, rfl⟩ := hm
  have hn : 0 < n := by omega
  have hshare : n * q * k / n = q * k := by rw [Nat.mul_assoc, Nat.mul_div_cancel_left _ hn]
  have hrest : load n a 0 (k % n) x = 0 := rfl
  rw [load_eq hx, Nat.mul_mod_right, Nat.mul_div_cancel_left _ hn, hshare, hrest]
  calc n * q * (k / n) + k % n * q + 0
      = q * (n * (k / n) + k % n) := by
        rw [Nat.mul_add, Nat.add_zero, Nat.mul_comm n q, Nat.mul_assoc, Nat.mul_comm (k % n)]
    _ = q * k := by rw [Nat.div_add_mod]

/-- One call gives the quotient, rounded down or up. -/
theorem hits_eq_or {x : Nat} (hx : x < n) (a k : Nat) :
    hits n a k x = k / n ∨ hits n a k x = (k + n - 1) / n := by
  have hn : 0 < n := by omega
  have hle := hits_le_one hx a (Nat.mod_lt k hn).le
  rw [hits_eq hx]
  by_cases h0 : hits n a (k % n) x = 0
  · left
    omega
  · right
    have hpos : 0 < k % n := by
      rw [Nat.pos_iff_ne_zero]
      intro hz
      rw [hz] at h0
      exact h0 rfl
    have hup : (k + n - 1) / n = k / n + 1 := by
      have hk := Nat.div_add_mod k n
      have hlt := Nat.mod_lt k hn
      have hsum : k + n - 1 = n * (k / n + 1) + (k % n - 1) := by
        rw [Nat.mul_succ]
        omega
      rw [hsum, Nat.mul_add_div hn, Nat.div_eq_of_lt (by omega : k % n - 1 < n), Nat.add_zero]
    omega

end RoundRobin
