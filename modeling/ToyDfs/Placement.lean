import Mathlib.Data.List.Dedup
import Mathlib.Data.List.Perm.Subperm
import Mathlib.Data.Nat.ModEq
import ToyDfs.Coordinator

/-!
Round-robin placement.

While the number of nodes and the two steps past the start fit an `int`
(`FitsInt`), the three replicas go to the nodes at `start`, `start + 1` and
`start + 2` modulo the number of nodes (`selectNodesForReplication_eq`): to nodes
there are, and to as many different ones as possible
(`length_dedup_selectNodes`).  With `2^32 - 1` nodes all three go to one node
(`selectNodes_wrapped`).
-/

namespace ToyDfs

/-- `num_nodes` and `start_index + i` stay within `int`. -/
def FitsInt (nodeIds : List Int32) : Prop := nodeIds.length < 2 ^ 31 - 1

theorem toInt_mod (a b : Int32) : (a % b).toInt = a.toInt.tmod b.toInt :=
  BitVec.toInt_srem a.toBitVec b.toBitVec

theorem toInt_add_of_lt {a b : Nat} (h : a + b < 2 ^ 31) :
    (Int32.ofNat a + Int32.ofNat b).toInt = (a + b : Nat) := by
  rw [← Int32.ofNat_add, Int32.toInt_ofNat_of_lt h]

/-- The start index is below the number of nodes. -/
theorem startIndex_eq {nodeIds : List Int32} (hlen : nodeIds.length < 2 ^ 31) (hne : nodeIds ≠ [])
    (next : UInt32) :
    (next % (Int32.ofNat nodeIds.length).toUInt32).toInt32 =
      Int32.ofNat (next.toNat % nodeIds.length) := by
  have hpos := List.length_pos_iff.mpr hne
  have hlt : next.toNat % nodeIds.length < nodeIds.length := Nat.mod_lt _ hpos
  have hmod : next % (Int32.ofNat nodeIds.length).toUInt32 = UInt32.ofNat (next.toNat % nodeIds.length) := by
    apply UInt32.toNat.inj
    rw [Int32.toUInt32_ofNat', UInt32.toNat_mod, UInt32.toNat_ofNat_of_lt' (by
      show nodeIds.length < 2 ^ 32
      omega), UInt32.toNat_ofNat_of_lt' (by
      show next.toNat % nodeIds.length < 2 ^ 32
      omega)]
  rw [hmod, UInt32.toInt32_ofNat']

/-- The node of replica `i`. -/
theorem nodeAt_eq {nodeIds : List Int32} {start i : Nat} (hstart : start < nodeIds.length)
    (hlen : nodeIds.length < 2 ^ 31) (hsum : start + i < 2 ^ 31) :
    nodeAt nodeIds ((Int32.ofNat start + Int32.ofNat i) % Int32.ofNat nodeIds.length) =
      nodeIds.getD ((start + i) % nodeIds.length) 0 := by
  have hidx : ((Int32.ofNat start + Int32.ofNat i) % Int32.ofNat nodeIds.length).toInt =
      ((start + i) % nodeIds.length : Nat) := by
    rw [toInt_mod, toInt_add_of_lt hsum, Int32.toInt_ofNat_of_lt (by omega)]
    rfl
  have hlt : (start + i) % nodeIds.length < nodeIds.length := Nat.mod_lt _ (by omega)
  unfold nodeAt
  rw [hidx]
  congr 1
  omega

/-- **Where the replicas go**, when no index leaves `int`. -/
theorem selectNodes_eq {nodeIds : List Int32} (hne : nodeIds ≠ []) (hlen : nodeIds.length < 2 ^ 31)
    {k : Int32} (hk : 0 < k.toInt) (hsum : nodeIds.length + k.toInt ≤ 2 ^ 31 + 1) (next : UInt32) :
    (selectNodesForReplication k nodeIds next).1 = (List.range k.toInt.toNat).map fun i =>
      nodeIds.getD ((next.toNat % nodeIds.length + i) % nodeIds.length) 0 := by
  have hempty : ¬ nodeIds.isEmpty = true := fun he => hne (List.isEmpty_iff.mp he)
  have hpos : ¬ k ≤ 0 := by
    rw [Int32.le_iff_toInt_le]
    exact not_le.mpr hk
  unfold selectNodesForReplication
  rw [if_neg hpos, if_neg hempty]
  apply List.map_congr_left
  intro i hi
  rw [List.mem_range] at hi
  have hstart := Nat.mod_lt next.toNat (List.length_pos_iff.mpr hne)
  rw [startIndex_eq hlen hne]
  exact nodeAt_eq hstart hlen (by omega)

/-- The three replicas of a chunk. -/
theorem selectNodesForReplication_eq {nodeIds : List Int32} (hfits : FitsInt nodeIds)
    (hne : nodeIds ≠ []) (next : UInt32) :
    (selectNodesForReplication 3 nodeIds next).1 =
      (List.range 3).map fun i => nodeIds.getD ((next.toNat % nodeIds.length + i) % nodeIds.length) 0 := by
  have h3 : (3 : Int32).toInt = 3 := rfl
  unfold FitsInt at hfits
  exact selectNodes_eq hne (by omega) (by rw [h3]; omega) (by rw [h3]; omega) next

/-- Replicas go to nodes there are. -/
theorem mem_of_mem_selectNodes {nodeIds : List Int32} (hfits : FitsInt nodeIds) {next : UInt32} {d : Int32}
    (hd : d ∈ (selectNodesForReplication 3 nodeIds next).1) : d ∈ nodeIds := by
  by_cases hne : nodeIds = []
  · subst hne
    cases hd
  · rw [selectNodesForReplication_eq hfits hne] at hd
    obtain ⟨i, -, rfl⟩ := List.mem_map.mp hd
    have hlt := Nat.mod_lt (next.toNat % nodeIds.length + i) (List.length_pos_iff.mpr hne)
    rw [List.getD_eq_getElem?_getD, List.getElem?_eq_getElem hlt]
    exact List.getElem_mem hlt

/-! ## Different nodes -/

/-- Consecutive indices modulo `n` are different for `n` of them. -/
theorem mod_add_inj {n start i j : Nat} (hi : i < n) (hj : j < n)
    (h : (start + i) % n = (start + j) % n) : i = j := by
  have hmod : i % n = j % n := Nat.ModEq.add_left_cancel' start h
  rwa [Nat.mod_eq_of_lt hi, Nat.mod_eq_of_lt hj] at hmod

/-- The first `k` replicas are on different nodes, for as many as there are nodes. -/
theorem nodup_take_selectNodes {nodeIds : List Int32} (hfits : FitsInt nodeIds) (hne : nodeIds ≠ [])
    (hnodup : nodeIds.Nodup) (next : UInt32) {k : Nat} (hk : k ≤ nodeIds.length) (hk3 : k ≤ 3) :
    ((selectNodesForReplication 3 nodeIds next).1.take k).Nodup ∧
      ((selectNodesForReplication 3 nodeIds next).1.take k).length = k := by
  have hpos := List.length_pos_iff.mpr hne
  have htake : (selectNodesForReplication 3 nodeIds next).1.take k = (List.range k).map fun i =>
      nodeIds.getD ((next.toNat % nodeIds.length + i) % nodeIds.length) 0 := by
    rw [selectNodesForReplication_eq hfits hne, ← List.map_take, List.take_range, Nat.min_eq_left hk3]
  rw [htake]
  refine ⟨?_, by rw [List.length_map, List.length_range]⟩
  refine List.Nodup.map_on ?_ List.nodup_range
  intro i hi j hj he
  rw [List.mem_range] at hi hj
  have hi' := Nat.mod_lt (next.toNat % nodeIds.length + i) hpos
  have hj' := Nat.mod_lt (next.toNat % nodeIds.length + j) hpos
  rw [List.getD_eq_getElem?_getD, List.getD_eq_getElem?_getD, List.getElem?_eq_getElem hi',
    List.getElem?_eq_getElem hj', Option.getD_some, Option.getD_some] at he
  exact mod_add_inj (by omega) (by omega) ((List.Nodup.getElem_inj_iff hnodup).mp he)

/-- **As many different nodes as possible.** -/
theorem length_dedup_selectNodes {nodeIds : List Int32} (hfits : FitsInt nodeIds)
    (hnodup : nodeIds.Nodup) (next : UInt32) :
    min 3 nodeIds.length ≤ (selectNodesForReplication 3 nodeIds next).1.dedup.length := by
  by_cases hne : nodeIds = []
  · subst hne
    exact Nat.zero_le _
  · obtain ⟨hnd, hlen⟩ := nodup_take_selectNodes hfits hne hnodup next
      (Nat.min_le_right 3 nodeIds.length) (Nat.min_le_left 3 nodeIds.length)
    have hsub : (selectNodesForReplication 3 nodeIds next).1.take (min 3 nodeIds.length) ⊆
        (selectNodesForReplication 3 nodeIds next).1.dedup :=
      fun d hd => List.mem_dedup.mpr (List.mem_of_mem_take hd)
    have hle := (List.Nodup.subperm hnd hsub).length_le
    omega

/-! ## Too many nodes -/

/-- `2^32 - 1` nodes: `num_nodes` is -1, and every index is 0. -/
theorem selectNodes_wrapped {nodeIds : List Int32} (hlen : nodeIds.length = 4294967295) :
    (selectNodesForReplication 3 nodeIds 0).1 = List.replicate 3 (nodeIds.getD 0 0) := by
  have hempty : ¬ nodeIds.isEmpty = true := by
    rw [List.isEmpty_iff]
    rintro rfl
    exact absurd hlen (by decide)
  have hindex : ∀ i < 3, ((0 % (Int32.ofNat 4294967295).toUInt32).toInt32 + Int32.ofNat i) %
      Int32.ofNat 4294967295 = 0 := by decide
  unfold selectNodesForReplication
  rw [if_neg (by decide), if_neg hempty]
  simp only [hlen]
  rw [List.eq_replicate_iff]
  refine ⟨by rw [List.length_map, List.length_range]; rfl, fun d hd => ?_⟩
  obtain ⟨i, hi, rfl⟩ := List.mem_map.mp hd
  rw [hindex i (List.mem_range.mp hi)]
  rfl

end ToyDfs
