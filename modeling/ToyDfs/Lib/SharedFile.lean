import Mathlib.Logic.Function.Basic
import Mathlib.Data.List.TakeDrop

/-!
Several writers of one file, each with a position of its own.

* `writeAt fill content off piece`: `piece` at offset `off`, with what was beyond the
  end before filled up.
* `SamePrefix n content target`: they agree on the first `n` elements.
* `HoldsLast target content pos`: the writers write the same `target`, and the file
  holds what some of them have written so far.  Opening the file anew
  (`HoldsLast.truncate`) and writing on (`HoldsLast.write`) keep this, so the file is
  the target when all are through (`HoldsLast.complete`).
-/

namespace SharedFile

variable {α ι : Type}

/-! ## Writing at an offset -/

def writeAt (fill : α) (content : List α) (off : Nat) (piece : List α) : List α :=
  if piece.isEmpty then content
  else content.take off ++ List.replicate (off - content.length) fill ++ piece ++
    content.drop (off + piece.length)

section
variable {fill : α} {content piece : List α} {off : Nat}

theorem length_writeAt (h : piece ≠ []) :
    (writeAt fill content off piece).length = max content.length (off + piece.length) := by
  have hpiece : ¬ piece.isEmpty = true := fun he => h (List.isEmpty_iff.mp he)
  rw [writeAt, if_neg hpiece]
  simp only [List.length_append, List.length_take, List.length_replicate, List.length_drop]
  omega

theorem length_writeAt_le {n : Nat} (hcontent : content.length ≤ n) (hpiece : off + piece.length ≤ n) :
    (writeAt fill content off piece).length ≤ n := by
  by_cases h : piece = []
  · rw [h]
    exact hcontent
  · rw [length_writeAt h]
    omega

/-- What lies before the piece, with the hole filled, ends where the piece begins. -/
theorem length_before : (content.take off ++ List.replicate (off - content.length) fill).length = off := by
  rw [List.length_append, List.length_take, List.length_replicate]
  omega

theorem getElem?_writeAt_piece {i : Nat} (hoff : off ≤ i) (hi : i < off + piece.length) :
    (writeAt fill content off piece)[i]? = piece[i - off]? := by
  have hpiece : ¬ piece.isEmpty = true := by
    rw [List.isEmpty_iff]
    rintro rfl
    rw [List.length_nil] at hi
    omega
  have hlt : i - off < piece.length := by omega
  rw [writeAt, if_neg hpiece, List.append_assoc, List.getElem?_append_right (by rw [length_before]; exact hoff),
    length_before, List.getElem?_append_left hlt]

theorem getElem?_writeAt_other {i : Nat} (hi : i < content.length)
    (hother : i < off ∨ off + piece.length ≤ i) :
    (writeAt fill content off piece)[i]? = content[i]? := by
  by_cases h : piece.isEmpty = true
  · rw [writeAt, if_pos h]
  · rw [writeAt, if_neg h]
    rcases hother with hbefore | hafter
    · have htake : i < (content.take off).length := by
        rw [List.length_take]
        omega
      rw [List.append_assoc, List.append_assoc, List.getElem?_append_left htake, List.getElem?_take,
        if_pos hbefore]
    · have hlen : (content.take off ++ List.replicate (off - content.length) fill ++ piece).length =
          off + piece.length := by rw [List.length_append, length_before]
      rw [List.getElem?_append_right (by omega), hlen, List.getElem?_drop]
      congr 1
      omega

end

/-! ## A common prefix -/

/-- The first `n` elements are the same. -/
def SamePrefix (n : Nat) (content target : List α) : Prop := ∀ i < n, content[i]? = target[i]?

section
variable {fill : α} {content target : List α} {n off : Nat}

theorem SamePrefix.le_length (h : SamePrefix n content target) (hn : n ≤ target.length) :
    n ≤ content.length := by
  by_contra hlt
  have hshort := h content.length (by omega)
  rw [List.getElem?_eq_none (Nat.le_refl _), List.getElem?_eq_getElem (by omega)] at hshort
  cases hshort

/-- A piece of the target at its own place takes nothing away. -/
theorem SamePrefix.writeAt (h : SamePrefix n content target) (hn : n ≤ target.length) (k : Nat) :
    SamePrefix n (writeAt fill content off ((target.drop off).take k)) target := by
  intro i hi
  by_cases hpiece : off ≤ i ∧ i < off + ((target.drop off).take k).length
  · have hk : i - off < k := by
      have hlen := List.length_take_le k (target.drop off)
      omega
    rw [getElem?_writeAt_piece hpiece.1 hpiece.2, List.getElem?_take, if_pos hk, List.getElem?_drop,
      Nat.add_sub_cancel' hpiece.1]
  · have hlen := h.le_length hn
    rw [getElem?_writeAt_other (by omega) (by omega)]
    exact h i hi

/-- The next piece makes the prefix longer. -/
theorem SamePrefix.writeAt_next (h : SamePrefix n content target) (hn : n ≤ target.length) (k : Nat) :
    SamePrefix (n + ((target.drop n).take k).length)
      (SharedFile.writeAt fill content n ((target.drop n).take k)) target := by
  intro i hi
  by_cases hlt : i < n
  · exact h.writeAt hn k i hlt
  · have hk : i - n < k := by
      have hlen := List.length_take_le k (target.drop n)
      omega
    rw [getElem?_writeAt_piece (by omega) hi, List.getElem?_take, if_pos hk, List.getElem?_drop,
      Nat.add_sub_cancel' (by omega)]

theorem SamePrefix.eq (h : SamePrefix target.length content target)
    (hlen : content.length ≤ target.length) : content = target := by
  apply List.ext_getElem?
  intro i
  by_cases hi : i < target.length
  · exact h i hi
  · rw [List.getElem?_eq_none (by omega), List.getElem?_eq_none (by omega)]

end

/-! ## Many writers -/

/-- `pos k` is how much of the target writer `k` has written since it opened the
file, `none` before that. -/
structure HoldsLast (target content : List α) (pos : ι → Option Nat) : Prop where
  short : content.length ≤ target.length
  /-- the writer that opened the file last, for one -/
  last : ∃ k n, pos k = some n ∧ SamePrefix n content target

section
variable {fill : α} {target content : List α} {pos : ι → Option Nat} [DecidableEq ι]

/-- **Opening** empties the file, and the one who does has written nothing yet. -/
theorem HoldsLast.truncate (k : ι) : HoldsLast target [] (Function.update pos k (some 0)) where
  short := Nat.zero_le _
  last := ⟨k, 0, Function.update_self .., fun _ hi => absurd hi (Nat.not_lt_zero _)⟩

/-- **Writing on** keeps what any other writer has written. -/
theorem HoldsLast.write (h : HoldsLast target content pos) (hpos : ∀ k n, pos k = some n → n ≤ target.length)
    {k : ι} {off : Nat} (hk : pos k = some off) (m : Nat) :
    HoldsLast target (writeAt fill content off ((target.drop off).take m))
      (Function.update pos k (some (off + ((target.drop off).take m).length))) := by
  have hoff := hpos k off hk
  have hpiece : off + ((target.drop off).take m).length ≤ target.length := by
    rw [List.length_take, List.length_drop]
    omega
  refine ⟨length_writeAt_le h.short hpiece, ?_⟩
  obtain ⟨j, n, hj, hsame⟩ := h.last
  by_cases hjk : j = k
  · subst hjk
    have hn : n = off := Option.some.inj (hj.symm.trans hk)
    subst hn
    exact ⟨j, _, Function.update_self .., hsame.writeAt_next hoff m⟩
  · exact ⟨j, n, (Function.update_of_ne hjk ..).trans hj, hsame.writeAt (hpos j n hj) m⟩

omit [DecidableEq ι] in
/-- **When all are through** the file is the target. -/
theorem HoldsLast.complete (h : HoldsLast target content pos)
    (hall : ∀ k, pos k = some target.length) : content = target := by
  obtain ⟨k, n, hk, hsame⟩ := h.last
  have hn : n = target.length := Option.some.inj (hk.symm.trans (hall k))
  exact SamePrefix.eq (hn ▸ hsame) h.short

end

end SharedFile
