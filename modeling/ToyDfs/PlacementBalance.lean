import ToyDfs.Lib.RoundRobin
import ToyDfs.Placement

/-!
How evenly the round-robin placement loads the nodes.

`selectRun` is any number of consecutive calls of `selectNodesForReplication` while
the registry stays as it is.  As long as the counter does not wrap they take turns
over the residues modulo the number of nodes (`replicasOn_selectRun`).  A wrap
starts the turns anew at node 0, so a run with one wrap is two runs without
(`balancedRun_of_registry`).
-/

namespace ToyDfs

open RoundRobin

/-! ## Consecutive calls -/

/-- `m` calls from counter value `next` on, with the registry iterated in this
order. -/
def selectRun (k : Int32) (order : List Int32) : Nat → UInt32 → List (List Int32)
  | 0, _ => []
  | m + 1, next =>
    let (selected, next) := selectNodesForReplication k order next
    selected :: selectRun k order m next

/-- The replicas these calls give to node `d`. -/
def replicasOn (d : Int32) (calls : List (List Int32)) : Nat := calls.flatten.count d

/-- A run of placements is balanced over the nodes in `order`. -/
structure BalancedRun (k : Int32) (order : List Int32) (next : UInt32) (m : Nat) : Prop where
  calls : (selectRun k order m next).length = m
  size : ∀ call ∈ selectRun k order m next, call.length = k.toInt.toNat
  registered : ∀ call ∈ selectRun k order m next, ∀ d ∈ call, d ∈ order
  spread : next.toNat + m ≤ 2 ^ 32 → ∀ d ∈ order, ∀ e ∈ order,
    replicasOn d (selectRun k order m next) ≤ replicasOn e (selectRun k order m next) +
      min (m % order.length) (k.toInt.toNat % order.length)
  equal : next.toNat + m ≤ 2 ^ 32 → order.length ∣ m → ∀ d ∈ order,
    replicasOn d (selectRun k order m next) = m * k.toInt.toNat / order.length
  single : m = 1 → ∀ d ∈ order,
    replicasOn d (selectRun k order m next) = k.toInt.toNat / order.length ∨
      replicasOn d (selectRun k order m next) = (k.toInt.toNat + order.length - 1) / order.length
  wrapped : 2 ^ 32 < next.toNat + m → next.toNat + m ≤ 2 * 2 ^ 32 → ∀ d ∈ order, ∀ e ∈ order,
    replicasOn d (selectRun k order m next) ≤ replicasOn e (selectRun k order m next) +
      2 * (k.toInt.toNat % order.length)

/-! ## Lemmas -/

theorem count_map_range {α : Type} [DecidableEq α] (f : Nat → α) (k : Nat) (d : α) :
    ((List.range k).map f).count d = ∑ i ∈ Finset.range k, if f i = d then 1 else 0 := by
  induction k with
  | zero => rfl
  | succ k ih =>
    rw [List.range_succ, List.map_append, List.count_append, ih, Finset.sum_range_succ,
      List.map_singleton, List.count_singleton]
    simp

section
variable {k : Int32} {order : List Int32}

theorem selectNodes_snd (hne : order ≠ []) (hk : 0 < k.toInt) (next : UInt32) :
    (selectNodesForReplication k order next).2 = next + 1 := by
  have hempty : ¬ order.isEmpty = true := fun he => hne (List.isEmpty_iff.mp he)
  have hpos : ¬ k ≤ 0 := by
    rw [Int32.le_iff_toInt_le]
    exact not_le.mpr hk
  unfold selectNodesForReplication
  rw [if_neg hpos, if_neg hempty]

theorem selectRun_succ (hne : order ≠ []) (hk : 0 < k.toInt) (m : Nat) (next : UInt32) :
    selectRun k order (m + 1) next =
      (selectNodesForReplication k order next).1 :: selectRun k order m (next + 1) := by
  rw [← selectNodes_snd hne hk next]
  rfl

theorem selectRun_add (hne : order ≠ []) (hk : 0 < k.toInt) (m m' : Nat) (next : UInt32) :
    selectRun k order (m + m') next =
      selectRun k order m next ++ selectRun k order m' (next + UInt32.ofNat m) := by
  induction m generalizing next with
  | zero => simp [selectRun]
  | succ m ih =>
    have hnext : next + 1 + UInt32.ofNat m = next + UInt32.ofNat (m + 1) := by
      rw [UInt32.ofNat_add, UInt32.add_assoc, UInt32.add_comm 1]
      rfl
    rw [Nat.succ_add, selectRun_succ hne hk, selectRun_succ hne hk, ih, hnext, List.cons_append]

theorem mem_selectRun (hne : order ≠ []) (hk : 0 < k.toInt) {m : Nat} {next : UInt32}
    {call : List Int32} (h : call ∈ selectRun k order m next) :
    ∃ c, call = (selectNodesForReplication k order c).1 := by
  induction m generalizing next with
  | zero => cases h
  | succ m ih =>
    rw [selectRun_succ hne hk] at h
    rcases List.mem_cons.mp h with rfl | h
    · exact ⟨next, rfl⟩
    · exact ih h

theorem length_selectRun (m : Nat) (next : UInt32) : (selectRun k order m next).length = m := by
  induction m generalizing next with
  | zero => rfl
  | succ m ih => exact congrArg Nat.succ (ih _)

variable (hne : order ≠ []) (hlen : order.length < 2 ^ 31) (hnodup : order.Nodup)
  (hk : 0 < k.toInt) (hsum : order.length + k.toInt ≤ 2 ^ 31 + 1)

include hne hlen hk hsum

theorem mem_order_of_selectNodes {next : UInt32} {d : Int32}
    (hd : d ∈ (selectNodesForReplication k order next).1) : d ∈ order := by
  rw [selectNodes_eq hne hlen hk hsum] at hd
  obtain ⟨i, -, rfl⟩ := List.mem_map.mp hd
  have hlt := Nat.mod_lt (next.toNat % order.length + i) (List.length_pos_iff.mpr hne)
  rw [List.getD_eq_getElem?_getD, List.getElem?_eq_getElem hlt]
  exact List.getElem_mem hlt

include hnodup

/-- **One call takes its turn.** -/
theorem count_selectNodes {x : Nat} (hx : x < order.length) (next : UInt32) :
    (selectNodesForReplication k order next).1.count order[x] =
      hits order.length next.toNat k.toInt.toNat x := by
  rw [selectNodes_eq hne hlen hk hsum, count_map_range]
  refine Finset.sum_congr rfl fun i _ => ?_
  have hlt := Nat.mod_lt (next.toNat % order.length + i) (List.length_pos_iff.mpr hne)
  rw [List.getD_eq_getElem?_getD, List.getElem?_eq_getElem hlt, Option.getD_some]
  simp only [List.Nodup.getElem_inj_iff hnodup, Nat.mod_add_mod]

/-- **A run without a wrap.** -/
theorem replicasOn_selectRun {x : Nat} (hx : x < order.length) (m : Nat) (next : UInt32)
    (hm : next.toNat + m ≤ 2 ^ 32) :
    replicasOn order[x] (selectRun k order m next) =
      load order.length next.toNat m k.toInt.toNat x := by
  induction m generalizing next with
  | zero => rfl
  | succ m ih =>
    have hone := count_selectNodes hne hlen hnodup hk hsum hx next
    rw [selectRun_succ hne hk, replicasOn, List.flatten_cons, List.count_append, hone, load,
      Finset.sum_range_succ', Nat.add_zero, Nat.add_comm]
    congr 1
    cases m with
    | zero => rfl
    | succ m =>
      have hnext : (next + 1).toNat = next.toNat + 1 := by
        rw [UInt32.toNat_add]
        exact Nat.mod_eq_of_lt (by
          show next.toNat + 1 < 2 ^ 32
          omega)
      refine (ih (next + 1) (by omega)).trans ?_
      unfold load
      refine Finset.sum_congr rfl fun t _ => ?_
      rw [hnext, Nat.add_assoc, Nat.add_comm 1 t]

/-- **A run with one wrap** is a run up to it, and one from 0. -/
theorem replicasOn_wrapped {x : Nat} (hx : x < order.length) (m : Nat) (next : UInt32)
    (hwrap : 2 ^ 32 < next.toNat + m) (hm : next.toNat + m ≤ 2 * 2 ^ 32) :
    replicasOn order[x] (selectRun k order m next) =
      load order.length next.toNat (2 ^ 32 - next.toNat) k.toInt.toNat x +
        load order.length 0 (next.toNat + m - 2 ^ 32) k.toInt.toNat x := by
  have hlt := next.toNat_lt
  have hsplit : m = (2 ^ 32 - next.toNat) + (next.toNat + m - 2 ^ 32) := by omega
  have hzero : next + UInt32.ofNat (2 ^ 32 - next.toNat) = 0 := by
    apply UInt32.toNat.inj
    rw [UInt32.toNat_add, UInt32.toNat_ofNat']
    show (next.toNat + (2 ^ 32 - next.toNat) % 2 ^ 32) % 2 ^ 32 = 0
    omega
  have hfirst := replicasOn_selectRun hne hlen hnodup hk hsum hx (2 ^ 32 - next.toNat) next (by omega)
  have hsecond := replicasOn_selectRun hne hlen hnodup hk hsum hx (next.toNat + m - 2 ^ 32) 0 (by
    show 0 + _ ≤ _
    omega)
  have hrun := selectRun_add hne hk (2 ^ 32 - next.toNat) (next.toNat + m - 2 ^ 32) next
  rw [← hsplit, hzero] at hrun
  rw [hrun, replicasOn, List.flatten_append, List.count_append]
  exact congrArg₂ (· + ·) hfirst hsecond

end

/-! ## Top theorem -/

/-- **Round-robin placement is balanced.** -/
theorem balancedRun_of_registry (registry : Registry) (order : List Int32)
    (horder : order.Perm registry.keys) (hnodes : 1 ≤ order.length) (k : Int32) (hk : 1 ≤ k.toInt)
    (hfits : order.length + k.toInt < 2 ^ 31) (next : UInt32) (m : Nat) :
    BalancedRun k order next m := by
  have hne : order ≠ [] := List.length_pos_iff.mp hnodes
  have hlen : order.length < 2 ^ 31 := by omega
  have hpos : 0 < k.toInt := by omega
  have hsum : order.length + k.toInt ≤ 2 ^ 31 + 1 := by omega
  have hnodup : order.Nodup := horder.nodup_iff.mpr registry.keys_nodup
  refine ⟨length_selectRun m next, ?_, ?_, ?_, ?_, ?_, ?_⟩
  · intro call hcall
    obtain ⟨c, rfl⟩ := mem_selectRun hne hpos hcall
    rw [selectNodes_eq hne hlen hpos hsum, List.length_map, List.length_range]
  · intro call hcall d hd
    obtain ⟨c, rfl⟩ := mem_selectRun hne hpos hcall
    exact mem_order_of_selectNodes hne hlen hpos hsum hd
  · intro hm d hd e he
    obtain ⟨x, hx, rfl⟩ := List.getElem_of_mem hd
    obtain ⟨y, hy, rfl⟩ := List.getElem_of_mem he
    rw [replicasOn_selectRun hne hlen hnodup hpos hsum hx m next hm,
      replicasOn_selectRun hne hlen hnodup hpos hsum hy m next hm]
    exact load_le_add hx hy next.toNat m k.toInt.toNat
  · intro hm hdvd d hd
    obtain ⟨x, hx, rfl⟩ := List.getElem_of_mem hd
    rw [replicasOn_selectRun hne hlen hnodup hpos hsum hx m next hm]
    exact load_of_dvd hx next.toNat hdvd k.toInt.toNat
  · intro hm d hd
    obtain ⟨x, hx, rfl⟩ := List.getElem_of_mem hd
    have hone : replicasOn order[x] (selectRun k order 1 next) =
        hits order.length next.toNat k.toInt.toNat x := by
      rw [replicasOn_selectRun hne hlen hnodup hpos hsum hx 1 next next.toNat_lt, load,
        Finset.sum_range_one, Nat.add_zero]
    rw [hm, hone]
    exact hits_eq_or hx next.toNat k.toInt.toNat
  · intro hwrap hm d hd e he
    obtain ⟨x, hx, rfl⟩ := List.getElem_of_mem hd
    obtain ⟨y, hy, rfl⟩ := List.getElem_of_mem he
    rw [replicasOn_wrapped hne hlen hnodup hpos hsum hx m next hwrap hm,
      replicasOn_wrapped hne hlen hnodup hpos hsum hy m next hwrap hm]
    generalize 2 ^ 32 - next.toNat = before
    generalize next.toNat + m - 2 ^ 32 = after
    have hfirst := load_le_add hx hy next.toNat before k.toInt.toNat
    have hsecond := load_le_add hx hy 0 after k.toInt.toNat
    omega

/-- Two nodes, and a counter one step before its wrap. -/
theorem balancedRun_twoNodes : BalancedRun 3 [2, 1] 4294967295 4 :=
  balancedRun_of_registry (((∅ : Registry).insert 1 ⟨1, "a", 1⟩).insert 2 ⟨2, "b", 1⟩) [2, 1]
    (List.Perm.refl _) (by decide) 3 (by decide) (by decide) _ _

end ToyDfs
