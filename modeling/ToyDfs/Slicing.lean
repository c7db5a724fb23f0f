import ToyDfs.Coordinator

/-!
How `PutFile` cuts a file into chunks.

For files of at most `2^31` bytes `i * chunk_size` stays an `int`, the chunks are
the file's blocks of 1 MiB (`chunkData_eq_block`), and put together they are the
file (`flatten_chunkData`).  Of all files whose chunk count fits an `int`, these are
the ones the slicing partitions (`partitioned_iff`).
-/

namespace ToyDfs

theorem chunkCount_lt (fileData : Bytes) : chunkCount fileData < 2 ^ 31 := by
  unfold chunkCount
  have := Int32.toInt_lt (numChunks fileData.length)
  omega

theorem chunkCount_eq {fileData : Bytes} (h : fileData.length ≤ 2 ^ 31) :
    chunkCount fileData = (1024 * 1024 + fileData.length - 1) / (1024 * 1024) := by
  unfold chunkCount numChunks
  rw [Nat.mod_eq_of_lt (by omega), Int32.toInt_ofNat_of_lt (by omega), Int.toNat_natCast]

theorem chunkCount_eq_zero {content : Bytes} (h : content.length ≤ 2 ^ 31) :
    chunkCount content = 0 ↔ content = [] := by
  rw [chunkCount_eq h, ← List.length_eq_zero_iff]
  omega

/-- The chunk loop comes to chunk `i` iff the file is that long. -/
theorem lt_chunkCount_iff {fileData : Bytes} (h : fileData.length ≤ 2 ^ 31) {i : Nat} :
    i < chunkCount fileData ↔ i * (1024 * 1024) < fileData.length := by
  rw [chunkCount_eq h]
  omega

theorem chunkStart_eq {i : Nat} (hi : i < 2 ^ 11) : chunkStart i = i * (1024 * 1024) := by
  have hprod : Int32.ofNat i * chunkSize = Int32.ofNat (i * (1024 * 1024)) := by
    rw [Int32.ofNat_mul]
    rfl
  unfold chunkStart
  rw [hprod, Int32.toInt_ofNat_of_lt (by omega)]
  omega

theorem chunkEnd_eq (size : Nat) {i : Nat} (hi : i < 2 ^ 11) :
    chunkEnd size i = min (1024 * 1024 + i * (1024 * 1024)) size := by
  unfold chunkEnd
  rw [chunkStart_eq hi, Nat.mod_eq_of_lt (by omega)]

/-- **The slices are the blocks.** -/
theorem chunkData_eq_block {fileData : Bytes} (h : fileData.length ≤ 2 ^ 31) {i : Nat}
    (hi : i < chunkCount fileData) :
    chunkData fileData i = Blocks.block (1024 * 1024) fileData i := by
  rw [chunkCount_eq h] at hi
  have hlt : i < 2 ^ 11 := by omega
  unfold chunkData Blocks.block
  rw [chunkStart_eq hlt, chunkEnd_eq _ hlt]
  by_cases hfull : 1024 * 1024 + i * (1024 * 1024) ≤ fileData.length
  · rw [Nat.min_eq_left hfull]
    congr 1
    omega
  · rw [Nat.min_eq_right (by omega), List.take_of_length_le (by simp),
      List.take_of_length_le (by simp; omega)]

/-- **The chunks are the file.** -/
theorem flatten_chunkData {fileData : Bytes} (h : fileData.length ≤ 2 ^ 31) :
    ((List.range (chunkCount fileData)).map (chunkData fileData)).flatten = fileData := by
  have hmap : (List.range (chunkCount fileData)).map (chunkData fileData) =
      (List.range (chunkCount fileData)).map (Blocks.block (1024 * 1024) fileData) := by
    apply List.map_congr_left
    intro i hi
    exact chunkData_eq_block h (List.mem_range.mp hi)
  rw [hmap, Blocks.flatten_blocks]
  rw [chunkCount_eq h]
  omega

/-! ## Every size -/

/-- The chunk loop cuts the file into its blocks, without overflow. -/
structure Partitioned (fileData : Bytes) : Prop where
  count : chunkCount fileData = (1024 * 1024 + fileData.length - 1) / (1024 * 1024)
  noOverflow : ∀ i < chunkCount fileData, (i : Int) * chunkSize.toInt < 2 ^ 31
  start : ∀ i < chunkCount fileData, chunkStart i = i * (1024 * 1024)
  start_le_end : ∀ i < chunkCount fileData, chunkStart i ≤ chunkEnd fileData.length i
  end_le : ∀ i < chunkCount fileData, chunkEnd fileData.length i ≤ fileData.length
  nonempty : ∀ i < chunkCount fileData, chunkData fileData i ≠ []
  full : ∀ i, i + 1 < chunkCount fileData → (chunkData fileData i).length = 1024 * 1024
  concat : ((List.range (chunkCount fileData)).map (chunkData fileData)).flatten = fileData

/-- Does the chunk count fit an `int`? -/
def CountFits (fileData : Bytes) : Prop :=
  (1024 * 1024 + fileData.length - 1) / (1024 * 1024) < 2 ^ 31

instance (fileData : Bytes) : Decidable (CountFits fileData) := Nat.decLt _ _

theorem length_chunkData {fileData : Bytes} (h : fileData.length ≤ 2 ^ 31) {i : Nat}
    (hi : i < chunkCount fileData) :
    (chunkData fileData i).length = min (1024 * 1024) (fileData.length - i * (1024 * 1024)) := by
  rw [chunkData_eq_block h hi, Blocks.block, List.length_take, List.length_drop]

theorem partitioned_of_le {fileData : Bytes} (h : fileData.length ≤ 2 ^ 31) : Partitioned fileData := by
  have hcount := chunkCount_eq h
  have hsmall : ∀ i < chunkCount fileData, i < 2 ^ 11 ∧ i * (1024 * 1024) < fileData.length := by
    intro i hi
    rw [hcount] at hi
    omega
  have hstart : ∀ i < chunkCount fileData, chunkStart i = i * (1024 * 1024) :=
    fun i hi => chunkStart_eq (hsmall i hi).1
  have hsize : chunkSize.toInt = 1024 * 1024 := by decide
  refine ⟨hcount, ?_, hstart, ?_, ?_, ?_, ?_, flatten_chunkData h⟩
  · intro i hi
    have := (hsmall i hi).1
    rw [hsize]
    omega
  · intro i hi
    obtain ⟨hlt, hlen⟩ := hsmall i hi
    have hend := chunkEnd_eq fileData.length hlt
    have hst := hstart i hi
    omega
  · intro i _
    exact Nat.min_le_right _ _
  · intro i hi he
    have hlen := length_chunkData h hi
    rw [he, List.length_nil] at hlen
    have := (hsmall i hi).2
    omega
  · intro i hi
    rw [length_chunkData h (by omega)]
    have := (hsmall (i + 1) hi).2
    omega

/-- The chunk the product overflows at. -/
theorem not_partitioned_of_gt {fileData : Bytes} (hfits : CountFits fileData)
    (h : 2 ^ 31 < fileData.length) : ¬ Partitioned fileData := by
  intro hp
  have hcount := hp.count
  unfold CountFits at hfits
  have hlt : 2048 < chunkCount fileData := by
    rw [hcount]
    omega
  have hstart := hp.start 2048 hlt
  exact absurd hstart (by decide)

/-- **The slicing is a partition up to 2 GiB**, and for no larger file. -/
theorem partitioned_iff (fileData : Bytes) (hfits : CountFits fileData) :
    Partitioned fileData ↔ fileData.length ≤ 2 ^ 31 := by
  constructor
  · intro hp
    by_contra hgt
    exact not_partitioned_of_gt hfits (Nat.lt_of_not_le hgt) hp
  · exact partitioned_of_le

/-- 3 MiB and 5 bytes. -/
theorem partitioned_fourChunks :
    chunkCount (List.replicate 3145733 7) = 4 ∧ Partitioned (List.replicate 3145733 7) := by
  have hlen : (List.replicate 3145733 (7 : UInt8)).length = 3145733 := List.length_replicate
  have hfits : CountFits (List.replicate 3145733 7) := by
    unfold CountFits
    rw [hlen]
    omega
  have hsmall : (List.replicate 3145733 (7 : UInt8)).length ≤ 2 ^ 31 := by
    rw [hlen]
    omega
  refine ⟨?_, (partitioned_iff _ hfits).mpr hsmall⟩
  rw [chunkCount_eq hsmall, hlen]

/-- One byte more than 2 GiB. -/
theorem not_partitioned_twoGiB : ¬ ∀ fileData : Bytes, CountFits fileData → Partitioned fileData := by
  intro hall
  have hlen : (List.replicate (2147483649) (0 : UInt8)).length = 2147483649 := List.length_replicate
  have hfits : CountFits (List.replicate 2147483649 0) := by
    unfold CountFits
    rw [hlen]
    omega
  exact not_partitioned_of_gt hfits (by rw [hlen]; omega) (hall _ hfits)

end ToyDfs
