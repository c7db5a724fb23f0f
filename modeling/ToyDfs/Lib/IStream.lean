import ToyDfs.Lib.Blocks

/-!
`std::istream::read`, and the loop that reads a stream to its end.

A read that comes to the end of the stream fails, but leaves what it has got in the
buffer and its length in `gcount`.  A read of a stream that has failed gets nothing.

`readLoop n body last`: `while (file.read(buffer, n)) body; if (file.gcount() > 0) last;`.
It ends, and has done `body` for the full blocks of the stream and `last` for a short
one (`readLoop_eq`), whatever was in the buffer.
-/

/-- What is left of a stream, and how its last read went. -/
structure IStream (α : Type) where
  rest : List α
  gcount : Nat := 0
  failed : Bool := false
deriving DecidableEq, Repr

namespace IStream

variable {α σ ε : Type}

/-- `file.read(buffer, n)`: the buffer, and the stream. -/
def read (n : Nat) (buffer : List α) (file : IStream α) : List α × IStream α :=
  if file.failed then (buffer, { file with gcount := 0 })
  else
    let got := file.rest.take n
    (got ++ buffer.drop got.length,
      { rest := file.rest.drop n, gcount := got.length, failed := decide (got.length < n) })

/-- `fuel` bounds the number of reads. -/
def readLoopAux (n : Nat) (body last : σ → List α → Except ε σ) :
    Nat → σ → List α → IStream α → Option (Except ε σ)
  | 0, _, _, _ => none
  | fuel + 1, st, buffer, file =>
    let (buffer, file) := file.read n buffer
    if !file.failed then
      match body st (buffer.take file.gcount) with
      | .error e => some (.error e)
      | .ok st => readLoopAux n body last fuel st buffer file
    else if 0 < file.gcount then some (last st (buffer.take file.gcount))
    else some (.ok st)

def readLoop (n : Nat) (body last : σ → List α → Except ε σ) (st : σ) (buffer : List α)
    (file : IStream α) : Option (Except ε σ) :=
  readLoopAux n body last (file.rest.length + 1) st buffer file

/-! ## Lemmas -/

/-- The buffer begins with what was read. -/
theorem take_read (got buffer : List α) : (got ++ buffer.drop got.length).take got.length = got :=
  List.take_left

/-- A read that is not cut short. -/
theorem read_full {n : Nat} {content : List α} (h : n ≤ content.length) (buffer : List α) (gcount : Nat) :
    ∃ buffer', (IStream.mk content gcount false).read n buffer = (buffer', ⟨content.drop n, n, false⟩) ∧
      buffer'.take n = content.take n := by
  have hlen : (content.take n).length = n := by
    rw [List.length_take]
    omega
  refine ⟨content.take n ++ buffer.drop n, ?_, ?_⟩
  · simp only [read, hlen, Nat.lt_irrefl, decide_false, Bool.false_eq_true, if_false]
  · have htake := take_read (content.take n) buffer
    rwa [hlen] at htake

/-- A read that comes to the end. -/
theorem read_short {n : Nat} {content : List α} (h : content.length < n) (buffer : List α)
    (gcount : Nat) :
    ∃ buffer', (IStream.mk content gcount false).read n buffer = (buffer', ⟨[], content.length, true⟩) ∧
      buffer'.take content.length = content := by
  have hall : content.take n = content := List.take_of_length_le (Nat.le_of_lt h)
  have hnone : content.drop n = [] := List.drop_eq_nil_of_le (Nat.le_of_lt h)
  refine ⟨content ++ buffer.drop content.length, ?_, take_read content buffer⟩
  simp only [read, hall, hnone, h, decide_true, Bool.false_eq_true, if_false]

/-- What the loop does with one block. -/
def onBlock (n : Nat) (body last : σ → List α → Except ε σ) (st : σ) (block : List α) : Except ε σ :=
  if block.length = n then body st block else last st block

theorem readLoopAux_eq {n : Nat} (hn : 0 < n) (body last : σ → List α → Except ε σ) (content : List α) :
    ∀ (fuel : Nat) (st : σ) (buffer : List α) (gcount : Nat), content.length < fuel →
      readLoopAux n body last fuel st buffer ⟨content, gcount, false⟩ =
        some ((Blocks.readBlocks n content).foldlM (onBlock n body last) st) := by
  induction content using Blocks.readBlocks_induction hn with
  | short content h =>
    intro fuel st buffer gcount hfuel
    obtain ⟨fuel, rfl⟩ := Nat.exists_eq_succ_of_ne_zero (Nat.ne_zero_of_lt hfuel)
    obtain ⟨buffer', hread, hgot⟩ := read_short h buffer gcount
    have hne : content.length ≠ n := Nat.ne_of_lt h
    rw [readLoopAux, hread, Blocks.readBlocks_short h]
    by_cases hlen : 0 < content.length
    · simp only [hgot, hlen, if_true, Bool.not_true, Bool.false_eq_true, if_false, List.foldlM_cons,
        List.foldlM_nil, onBlock, hne, bind_pure]
    · simp only [hlen, if_false, Bool.not_true, Bool.false_eq_true, List.foldlM_nil]
      rfl
  | full content h ih =>
    intro fuel st buffer gcount hfuel
    obtain ⟨fuel, rfl⟩ := Nat.exists_eq_succ_of_ne_zero (Nat.ne_zero_of_lt hfuel)
    obtain ⟨buffer', hread, hgot⟩ := read_full h buffer gcount
    have hlen : (content.take n).length = n := by
      rw [List.length_take]
      omega
    have hrest : (content.drop n).length < fuel := by
      rw [List.length_drop]
      omega
    rw [readLoopAux, hread, Blocks.readBlocks_full hn h, List.foldlM_cons, onBlock, if_pos hlen]
    simp only [hgot, Bool.not_false, if_true]
    cases body st (content.take n) with
    | error e => rfl
    | ok st' => exact ih fuel st' buffer' n hrest

/-- **The loop** goes through the blocks of the stream. -/
theorem readLoop_eq {n : Nat} (hn : 0 < n) (body last : σ → List α → Except ε σ) (st : σ)
    (buffer content : List α) :
    readLoop n body last st buffer { rest := content } =
      some ((Blocks.readBlocks n content).foldlM (onBlock n body last) st) :=
  readLoopAux_eq hn body last content _ st buffer 0 (Nat.lt_succ_self _)

/-- **A loop without errors** is a fold. -/
theorem readLoop_eq_ok {n : Nat} (hn : 0 < n) {body last : σ → List α → Except ε σ}
    {f : σ → List α → σ} (hbody : ∀ st block, body st block = .ok (f st block))
    (hlast : ∀ st block, last st block = .ok (f st block)) (st : σ) (buffer content : List α) :
    readLoop n body last st buffer { rest := content } =
      some (.ok ((Blocks.readBlocks n content).foldl f st)) := by
  have hblock : onBlock n body last = fun st block => pure (f st block) := by
    funext st block
    rw [onBlock, hbody, hlast, ite_self]
    rfl
  rw [readLoop_eq hn, hblock, List.foldlM_pure]
  rfl

end IStream
