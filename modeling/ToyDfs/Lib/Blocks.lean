import Mathlib.Data.List.Basic

/-!
Cutting a list into blocks of `n` elements.

* `block n l i`: elements `[i n, (i+1) n)` of `l`.  The first `k` blocks put
  together are the first `k n` elements (`flatten_blocks`).
* `readBlocks n l`: what a loop `while (read(buf, n))` followed by one short
  read sees of a stream `l`: full blocks, then the rest if there is any.
  Nothing is lost (`readBlocks_flatten`), no block is empty (`ne_nil_of_mem`) and all
  but the last are full (`length_of_mem_dropLast`).
-/

namespace Blocks

variable {α : Type}

/-- Elements `[i n, (i+1) n)` of `l`. -/
def block (n : Nat) (l : List α) (i : Nat) : List α := (l.drop (i * n)).take n

theorem flatten_blocks_take (n : Nat) (l : List α) (k : Nat) :
    ((List.range k).map (block n l)).flatten = l.take (k * n) := by
  induction k with
  | zero => simp
  | succ k ih =>
    rw [List.range_succ, List.map_append, List.flatten_append, ih, List.map_singleton,
      List.flatten_singleton, Nat.add_mul, Nat.one_mul, List.take_add]
    rfl

/-- **Blocks partition the list.** -/
theorem flatten_blocks (n : Nat) (l : List α) (k : Nat) (h : l.length ≤ k * n) :
    ((List.range k).map (block n l)).flatten = l := by
  rw [flatten_blocks_take, List.take_of_length_le h]

/-- `fuel` bounds the number of reads. -/
def readBlocksAux (n : Nat) : Nat → List α → List (List α)
  | 0, _ => []
  | fuel + 1, l =>
    if n ≤ l.length then l.take n :: readBlocksAux n fuel (l.drop n)
    else if 0 < l.length then [l] else []

/-- Full blocks of `n`, then the rest of the stream if it is not empty. -/
def readBlocks (n : Nat) (l : List α) : List (List α) := readBlocksAux n (l.length + 1) l

theorem readBlocksAux_flatten (n : Nat) (hn : 0 < n) : ∀ (fuel : Nat) (l : List α),
    l.length < fuel → (readBlocksAux n fuel l).flatten = l := by
  intro fuel
  induction fuel with
  | zero => intro l h; omega
  | succ fuel ih =>
    intro l h
    unfold readBlocksAux
    split
    · rw [List.flatten_cons, ih _ (by simp; omega), List.take_append_drop]
    · split
      · simp
      · next h0 =>
        have : l = [] := List.eq_nil_of_length_eq_zero (by omega)
        simp [this]

theorem readBlocks_flatten (n : Nat) (hn : 0 < n) (l : List α) : (readBlocks n l).flatten = l :=
  readBlocksAux_flatten n hn _ l (by omega)

theorem readBlocksAux_fuel (n : Nat) (hn : 0 < n) : ∀ (fuel fuel' : Nat) (l : List α),
    l.length < fuel → l.length < fuel' → readBlocksAux n fuel l = readBlocksAux n fuel' l := by
  intro fuel
  induction fuel with
  | zero => intro fuel' l h; omega
  | succ fuel ih =>
    intro fuel' l h h'
    cases fuel' with
    | zero => omega
    | succ fuel' =>
      unfold readBlocksAux
      by_cases hfull : n ≤ l.length
      · rw [if_pos hfull, if_pos hfull, ih fuel' (l.drop n)]
        · rw [List.length_drop]
          omega
        · rw [List.length_drop]
          omega
      · rw [if_neg hfull, if_neg hfull]

theorem readBlocks_full {n : Nat} (hn : 0 < n) {l : List α} (h : n ≤ l.length) :
    readBlocks n l = l.take n :: readBlocks n (l.drop n) := by
  rw [readBlocks, readBlocksAux, if_pos h]
  congr 1
  apply readBlocksAux_fuel n hn
  · rw [List.length_drop]
    omega
  · exact Nat.lt_succ_self _

theorem readBlocks_short {n : Nat} {l : List α} (h : l.length < n) :
    readBlocks n l = if 0 < l.length then [l] else [] := by
  rw [readBlocks, readBlocksAux, if_neg (Nat.not_le.mpr h)]

/-- **Induction along the reads.** -/
theorem readBlocks_induction {P : List α → Prop} {n : Nat} (hn : 0 < n)
    (short : ∀ l, l.length < n → P l) (full : ∀ l, n ≤ l.length → P (l.drop n) → P l) (l : List α) :
    P l := by
  have all : ∀ (k : Nat) (l : List α), l.length < k → P l := by
    intro k
    induction k with
    | zero => intro l h; omega
    | succ k ih =>
      intro l h
      by_cases hfull : n ≤ l.length
      · refine full l hfull (ih _ ?_)
        rw [List.length_drop]
        omega
      · exact short l (Nat.lt_of_not_le hfull)
  exact all (l.length + 1) l (Nat.lt_succ_self _)

theorem ne_nil_of_mem {n : Nat} (hn : 0 < n) {l b : List α} (hb : b ∈ readBlocks n l) : b ≠ [] := by
  induction l using readBlocks_induction hn with
  | short l h =>
    rw [readBlocks_short h] at hb
    by_cases hlen : 0 < l.length
    · rw [if_pos hlen, List.mem_singleton] at hb
      exact hb ▸ List.length_pos_iff.mp hlen
    · rw [if_neg hlen] at hb
      cases hb
  | full l h ih =>
    rw [readBlocks_full hn h] at hb
    rcases List.mem_cons.mp hb with rfl | hb
    · rw [← List.length_pos_iff, List.length_take]
      omega
    · exact ih hb

theorem length_le_of_mem {n : Nat} (hn : 0 < n) {l b : List α} (hb : b ∈ readBlocks n l) :
    b.length ≤ n := by
  induction l using readBlocks_induction hn with
  | short l h =>
    rw [readBlocks_short h] at hb
    by_cases hlen : 0 < l.length
    · rw [if_pos hlen, List.mem_singleton] at hb
      exact hb ▸ Nat.le_of_lt h
    · rw [if_neg hlen] at hb
      cases hb
  | full l h ih =>
    rw [readBlocks_full hn h] at hb
    rcases List.mem_cons.mp hb with rfl | hb
    · exact List.length_take_le n l
    · exact ih hb

/-- The first blocks are the beginning of the stream. -/
theorem flatten_take_readBlocks {n : Nat} (hn : 0 < n) (l : List α) (k : Nat) :
    ((readBlocks n l).take k).flatten = l.take (k * n) := by
  induction l using readBlocks_induction hn generalizing k with
  | short l h =>
    rw [readBlocks_short h]
    cases k with
    | zero => simp
    | succ k =>
      have hall : l.take ((k + 1) * n) = l := by
        rw [List.take_of_length_le]
        rw [Nat.add_mul]
        omega
      rw [hall]
      by_cases hlen : 0 < l.length
      · simp [hlen]
      · have hnil : l = [] := List.eq_nil_of_length_eq_zero (by omega)
        simp [hnil]
  | full l h ih =>
    rw [readBlocks_full hn h]
    cases k with
    | zero => simp
    | succ k =>
      rw [List.take_succ_cons, List.flatten_cons, ih, Nat.add_mul, Nat.one_mul, Nat.add_comm, List.take_add]

/-- Only the last block may be short. -/
theorem length_of_mem_dropLast {n : Nat} (hn : 0 < n) {l b : List α} (hb : b ∈ (readBlocks n l).dropLast) :
    b.length = n := by
  induction l using readBlocks_induction hn with
  | short l h =>
    rw [readBlocks_short h] at hb
    split at hb <;> cases hb
  | full l h ih =>
    rw [readBlocks_full hn h] at hb
    cases hrest : readBlocks n (l.drop n) with
    | nil =>
      rw [hrest] at hb
      cases hb
    | cons b' bs =>
      rw [hrest, List.dropLast_cons_cons, List.mem_cons, ← hrest] at hb
      rcases hb with rfl | hb
      · rw [List.length_take]
        omega
      · exact ih hb

theorem readBlocks_eq_nil_iff (n : Nat) (hn : 0 < n) (l : List α) : readBlocks n l = [] ↔ l = [] := by
  constructor
  · intro h
    have := readBlocks_flatten n hn l
    rwa [h, List.flatten_nil, eq_comm] at this
  · rintro rfl
    simp [readBlocks, readBlocksAux]
    omega

end Blocks
