import Mathlib.Algebra.Group.Nat.Defs
import Mathlib.Algebra.Ring.Int.Defs
import Mathlib.Data.List.TakeWhile
import Mathlib.Data.List.Basic

/-!
The pieces of the C++ standard library the program leans on, on Lean's own
strings and integers.

* `stoi`: leading white space, an optional sign, the longest run of digits, and
  whatever follows is ignored; `std::invalid_argument` without a digit,
  `std::out_of_range` outside `int`.
* `findChar` / `rfindChar`: first and last position of a character.
* `cStr`: what a C function sees of a string.

`stoi_repr`: the decimal of `n` is read back for `n < 2^31`, and out of range from
there on.
-/

namespace Cpp

/-- The exceptions `std::stoi` throws. -/
inductive StoiError
  | invalidArgument
  | outOfRange
deriving DecidableEq, Repr

/-- `isspace` in the C locale. -/
def isSpace (c : Char) : Bool :=
  c == ' ' || c == '\t' || c == '\n' || c == '\x0b' || c == '\x0c' || c == '\r'

/-- Does the value fit a 32-bit `int`? -/
def fitsInt (v : Int) : Bool := decide (-2 ^ 31 ≤ v) && decide (v < 2 ^ 31)

/-- `strtol` after the white space: an optional sign, then digits. -/
def splitSign : List Char → Bool × List Char
  | '-' :: cs => (true, cs)
  | '+' :: cs => (false, cs)
  | cs => (false, cs)

def stoi (s : String) : Except StoiError Int :=
  let (neg, cs) := splitSign (s.toList.dropWhile isSpace)
  let digits := cs.takeWhile Char.isDigit
  if digits.isEmpty then .error .invalidArgument
  else
    let n : Int := Nat.ofDigitChars 10 digits 0
    let v := if neg then -n else n
    if fitsInt v then .ok v else .error .outOfRange

/-- `s.find(c)`, `none` for `npos`. -/
def findChar (s : String) (c : Char) : Option Nat :=
  if c ∈ s.toList then some (s.toList.takeWhile (· != c)).length else none

/-- `s.rfind(c)`, `none` for `npos`. -/
def rfindChar (s : String) (c : Char) : Option Nat :=
  if c ∈ s.toList then some (s.toList.length - 1 - (s.toList.reverse.takeWhile (· != c)).length)
  else none

/-- What a C function reads of `s.c_str()`: the characters before the first NUL. -/
def cStr (s : String) : String := String.ofList (s.toList.takeWhile (· ≠ '\x00'))

theorem cStr_eq {s : String} (h : '\x00' ∉ s.toList) : cStr s = s := by
  have hall : ∀ c ∈ s.toList, decide (c ≠ '\x00') = true := by
    intro c hc
    apply decide_eq_true
    rintro rfl
    exact h hc
  rw [cStr, List.takeWhile_eq_self_iff.mpr hall, String.ofList_toList]

/-- `s.substr(0, pos)`. -/
def prefixTo (s : String) (pos : Nat) : String := String.ofList (s.toList.take pos)

/-- `s.substr(pos)`. -/
def suffixFrom (s : String) (pos : Nat) : String := String.ofList (s.toList.drop pos)

/-! ## Lemmas -/

theorem isSpace_of_isDigit (c : Char) (h : c.isDigit = true) : isSpace c = false := by
  unfold isSpace
  simp only [Bool.or_eq_false_iff, beq_eq_false_iff_ne]
  refine ⟨⟨⟨⟨⟨?_, ?_⟩, ?_⟩, ?_⟩, ?_⟩, ?_⟩ <;> (rintro rfl; revert h; decide)

theorem splitSign_of_isDigit (c : Char) (cs : List Char) (h : c.isDigit = true) :
    splitSign (c :: cs) = (false, c :: cs) := by
  unfold splitSign
  split
  · next e =>
    cases e
    exact absurd h (by decide)
  · next e =>
    cases e
    exact absurd h (by decide)
  · rfl

/-- **Decimals are read back.** -/
theorem stoi_repr (n : Nat) :
    stoi n.repr = if n < 2 ^ 31 then .ok (n : Int) else .error .outOfRange := by
  have hdig : ∀ c ∈ Nat.toDigits 10 n, c.isDigit = true := fun c hc =>
    Nat.isDigit_of_mem_toDigits (by omega) (by omega) hc
  have hval : Nat.ofDigitChars 10 (Nat.toDigits 10 n) 0 = n := Nat.ofDigitChars_ten_toDigits
  unfold stoi
  rw [Nat.toList_repr]
  cases hd : Nat.toDigits 10 n with
  | nil => exact absurd hd Nat.toDigits_ne_nil
  | cons c cs =>
    rw [hd] at hdig hval
    have hc := hdig c List.mem_cons_self
    have hdrop : (c :: cs).dropWhile isSpace = c :: cs := by
      rw [List.dropWhile_cons, isSpace_of_isDigit c hc]
      simp
    have htake : (c :: cs).takeWhile Char.isDigit = c :: cs := List.takeWhile_eq_self_iff.mpr hdig
    have hfit : fitsInt (n : Int) = decide (n < 2 ^ 31) := by
      unfold fitsInt
      rw [decide_eq_true (by omega), Bool.true_and, decide_eq_decide]
      omega
    simp only [hdrop, splitSign_of_isDigit c cs hc, htake, hval, List.isEmpty_cons, hfit,
      decide_eq_true_eq, Bool.false_eq_true, if_false]

theorem findChar_append (a b : String) (c : Char) (ha : c ∉ a.toList) :
    findChar (a ++ String.ofList [c] ++ b) c = some a.toList.length := by
  have hne : ∀ x ∈ a.toList, (x != c) = true := by
    intro x hx
    rw [bne_iff_ne]
    rintro rfl
    exact ha hx
  unfold findChar
  simp only [String.toList_append, String.toList_ofList, List.append_assoc, List.singleton_append]
  rw [if_pos (by simp), List.takeWhile_append_of_pos hne]
  simp

/-- A string is split at the first `c`. -/
theorem eq_of_findChar {s : String} {c : Char} {pos : Nat} (h : findChar s c = some pos) :
    s = prefixTo s pos ++ String.ofList [c] ++ suffixFrom s (pos + 1) := by
  unfold findChar at h
  split at h
  · next hmem =>
    obtain ⟨a, b, hs, ha⟩ := List.eq_append_cons_of_mem hmem
    have hne : ∀ x ∈ a, (x != c) = true := by
      intro x hx
      rw [bne_iff_ne]
      rintro rfl
      exact ha hx
    have hpos : pos = a.length := by
      rw [hs, List.takeWhile_append_of_pos hne] at h
      simpa using h.symm
    rw [← String.toList_inj]
    simp only [prefixTo, suffixFrom, String.toList_append, String.toList_ofList, hs, hpos,
      List.append_assoc, List.singleton_append, List.take_left]
    rw [← List.drop_drop, List.drop_left, List.drop_one, List.tail_cons]
  · cases h

theorem prefixTo_append (a b : String) : prefixTo (a ++ b) a.toList.length = a := by
  simp only [prefixTo, String.toList_append, List.take_left, String.ofList_toList]

theorem suffixFrom_append (a b : String) : suffixFrom (a ++ b) a.toList.length = b := by
  simp only [suffixFrom, String.toList_append, List.drop_left, String.ofList_toList]

end Cpp
