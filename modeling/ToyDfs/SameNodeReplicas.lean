import ToyDfs.DataNode
import ToyDfs.Lib.SharedFile
import ToyDfs.Lib.Transition

/-!
Several replicas of one chunk on one datanode.

With fewer nodes than replicas `distributeChunkToNodes` starts several `PutChunk`
calls with the same id and data on the same datanode.  Their handlers write one file
at the same time, each from the beginning (`ChunkWriters`), and each one that opens
it empties it.

However they interleave, the file holds the data when all are through and none has lost
a byte (`chunkWritten_of_completed`).  Handlers that lose some, and one by itself, are in
`ToyDfs.ReplicaTasks`.
-/

namespace ToyDfs

open Transition SharedFile

/-! ## Algorithm -/

/-- Where a `PutChunk` handler is.  `pos` bytes of the data are in the file since it
opened it. -/
inductive PutChunkPhase
  | started
  | writing (file : OFStream) (pos : Nat)
  | answered (status : Status) (pos : Option Nat)
deriving DecidableEq, Repr

/-- How much it has written since it opened the file, `none` if it did not. -/
def PutChunkPhase.written : PutChunkPhase → Option Nat
  | .started => none
  | .writing _ pos => some pos
  | .answered _ pos => pos

/-- A datanode with `r` handlers for the same chunk. -/
structure ChunkWriters (r : Nat) where
  disk : Disk
  handlers : Fin r → PutChunkPhase

inductive WriterAction (r : Nat)
  | openFile (k : Fin r) (fails : Bool)
  /-- the next `m` bytes reach the file -/
  | write (k : Fin r) (m : Nat)
  | writeFails (k : Fin r)
  | close (k : Fin r)

namespace ChunkWriters

variable {r : Nat}

def move (s : ChunkWriters r) (k : Fin r) (phase : PutChunkPhase) : ChunkWriters r :=
  { s with handlers := Function.update s.handlers k phase }

def setFile (s : ChunkWriters r) (path : String) (content : Bytes) : ChunkWriters r :=
  { s with disk := Function.update s.disk path (some content) }

def step (config : DataNodeConfig) (chunkId : String) (data : Bytes) (s : ChunkWriters r) :
    WriterAction r → Option (ChunkWriters r)
  | .openFile k fails =>
    match s.handlers k with
    | .started =>
      match getChunkPath chunkId config with
      | .error _ => some (s.move k (.answered Status.unexpectedError none))
      | .ok filePath =>
        if fails then some (s.move k (.answered ⟨.internal, "Failed to open file"⟩ none))
        else
          let (file, disk) := OFStream.openFile filePath s.disk
          some ({ s with disk := disk }.move k (.writing file 0))
    | _ => none
  | .write k m =>
    match s.handlers k with
    | .writing file pos =>
      if file.bad then none
      else
        let piece := (data.drop pos).take m
        let old := (s.disk file.path).getD []
        some ((s.setFile file.path (writeAt 0 old pos piece)).move k (.writing file (pos + piece.length)))
    | _ => none
  | .writeFails k =>
    match s.handlers k with
    | .writing file pos => some (s.move k (.writing { file with bad := true } pos))
    | _ => none
  | .close k =>
    match s.handlers k with
    | .writing file pos =>
      -- a stream that is bad is closed all the same
      if file.bad ∨ pos = data.length then some (s.move k (.answered Status.OK (some pos))) else none
    | _ => none

def Initial (disk : Disk) (s : ChunkWriters r) : Prop :=
  s.disk = disk ∧ ∀ k, s.handlers k = .started

/-- All handlers are through, and no write failed. -/
def Completed (data : Bytes) (s : ChunkWriters r) : Prop :=
  ∀ k, s.handlers k = .answered Status.OK (some data.length)

/-- The chunk's file holds the data, the other files are as they were, and the disk is
as one `PutChunk` leaves it. -/
structure Written (config : DataNodeConfig) (chunkId : String) (data : Bytes) (disk : Disk)
    (s : ChunkWriters r) : Prop where
  file : stored config s.disk chunkId = some data
  others : ∀ path, getChunkPath chunkId config ≠ .ok path → s.disk path = disk path
  one : s.disk = (putChunk config {} { messages := [⟨chunkId, data⟩] } disk).2.2

/-! ## Lemmas -/

def positions (s : ChunkWriters r) : Fin r → Option Nat := fun k => (s.handlers k).written

theorem positions_move (s : ChunkWriters r) (k : Fin r) (phase : PutChunkPhase) :
    (s.move k phase).positions = Function.update s.positions k phase.written := by
  funext j
  by_cases hj : j = k
  · subst hj
    simp [positions, move]
  · simp [positions, move, hj]

theorem positions_same {s : ChunkWriters r} {k : Fin r} {phase : PutChunkPhase}
    (h : phase.written = (s.handlers k).written) : (s.move k phase).positions = s.positions := by
  rw [positions_move, h]
  exact Function.update_eq_self k s.positions

/-- What a step does to the file: it is opened, a piece is written, or it is left alone. -/
inductive FileStep (config : DataNodeConfig) (chunkId : String) (data : Bytes) (s : ChunkWriters r) :
    ChunkWriters r → Prop
  | opened (k : Fin r) {path : String} (hpath : getChunkPath chunkId config = .ok path) :
      FileStep config chunkId data s ((s.setFile path []).move k (.writing { path := path } 0))
  | wrote {k : Fin r} {file : OFStream} {pos : Nat} (m : Nat) (hk : s.handlers k = .writing file pos) :
      FileStep config chunkId data s
        ((s.setFile file.path (writeAt 0 ((s.disk file.path).getD []) pos ((data.drop pos).take m))).move k
          (.writing file (pos + ((data.drop pos).take m).length)))
  | moved {k : Fin r} {phase : PutChunkPhase} (hsame : phase.written = (s.handlers k).written)
      (hfile : ∀ file pos, phase = .writing file pos →
        ∃ file', s.handlers k = .writing file' pos ∧ file'.path = file.path) :
      FileStep config chunkId data s (s.move k phase)

section
variable {config : DataNodeConfig} {chunkId : String} {data : Bytes} {disk : Disk}
  {s t : ChunkWriters r} {a : WriterAction r}

theorem FileStep.answered {k : Fin r} {status : Status} {pos : Option Nat}
    (h : pos = (s.handlers k).written) :
    FileStep config chunkId data s (s.move k (.answered status pos)) := by
  refine .moved h ?_
  rintro _ _ ⟨⟩

theorem step_cases (h : s.step config chunkId data a = some t) : FileStep config chunkId data s t := by
  cases a with
  | openFile k fails =>
    simp only [step] at h
    split at h
    · next hk =>
      have hnone : none = (s.handlers k).written := by rw [hk]; rfl
      split at h
      · cases h
        exact .answered hnone
      · next path hpath =>
        by_cases hfails : fails = true
        · rw [if_pos hfails] at h
          cases h
          exact .answered hnone
        · rw [if_neg hfails] at h
          cases h
          exact .opened k hpath
    · cases h
  | write k m =>
    simp only [step] at h
    split at h
    · next file pos hk =>
      by_cases hbad : file.bad = true
      · rw [if_pos hbad] at h
        cases h
      · rw [if_neg hbad] at h
        cases h
        exact .wrote m hk
    · cases h
  | writeFails k =>
    simp only [step] at h
    split at h
    · next file pos hk =>
      cases h
      refine .moved (by rw [hk]; rfl) ?_
      rintro _ _ ⟨⟩
      exact ⟨file, hk, rfl⟩
    · cases h
  | close k =>
    simp only [step] at h
    split at h
    · next file pos hk =>
      split at h
      · cases h
        exact .answered (by rw [hk]; rfl)
      · cases h
    · cases h

/-- Either nobody has opened the file, or it holds what one of the handlers has
written since it did. -/
structure Inv (config : DataNodeConfig) (chunkId : String) (data : Bytes) (disk : Disk)
    (s : ChunkWriters r) : Prop where
  path : ∀ k file pos, s.handlers k = .writing file pos → getChunkPath chunkId config = .ok file.path
  bound : ∀ k n, s.positions k = some n → n ≤ data.length
  disk : (s.disk = disk ∧ ∀ k, s.positions k = none) ∨
    ∃ path content, getChunkPath chunkId config = .ok path ∧
      s.disk = Function.update disk path (some content) ∧ HoldsLast data content s.positions

theorem Inv.initial (h : Initial disk s) : Inv config chunkId data disk s where
  path k file pos hk := by
    rw [h.2 k] at hk
    cases hk
  bound k n hk := by
    rw [positions, h.2 k] at hk
    cases hk
  disk := .inl ⟨h.1, fun k => by rw [positions, h.2 k]; rfl⟩

/-- A handler that moves on stays at the one file, and within the data. -/
theorem Inv.move_frame (hinv : Inv config chunkId data disk s) (k : Fin r) (phase : PutChunkPhase)
    (hfile : ∀ file pos, phase = .writing file pos → getChunkPath chunkId config = .ok file.path)
    (hpos : ∀ n, phase.written = some n → n ≤ data.length) :
    (∀ j file pos, (s.move k phase).handlers j = .writing file pos →
      getChunkPath chunkId config = .ok file.path) ∧
    ∀ j n, (s.move k phase).positions j = some n → n ≤ data.length := by
  constructor
  · intro j file pos hj
    by_cases hjk : j = k
    · subst hjk
      exact hfile file pos ((Function.update_self ..).symm.trans hj)
    · exact hinv.path j file pos ((Function.update_of_ne hjk ..).symm.trans hj)
  · intro j n hj
    rw [positions_move] at hj
    by_cases hjk : j = k
    · subst hjk
      rw [Function.update_self] at hj
      exact hpos n hj
    · rw [Function.update_of_ne hjk] at hj
      exact hinv.bound j n hj

theorem Inv.opened (hinv : Inv config chunkId data disk s) (k : Fin r) {path : String}
    (hpath : getChunkPath chunkId config = .ok path) :
    Inv config chunkId data disk ((s.setFile path []).move k (.writing { path := path } 0)) := by
  obtain ⟨hpaths, hbound⟩ := hinv.move_frame k (.writing { path := path } 0) (by
    rintro _ _ ⟨⟩
    exact hpath) (by
    rintro _ ⟨⟩
    exact Nat.zero_le _)
  refine ⟨hpaths, hbound, .inr ⟨path, [], hpath, ?_, ?_⟩⟩
  · rcases hinv.disk with ⟨hdisk, -⟩ | ⟨path', content, hpath', hdisk, -⟩
    · exact congrArg (fun d => Function.update d path (some [])) hdisk
    · cases hpath.symm.trans hpath'
      show Function.update s.disk path (some []) = _
      rw [hdisk, Function.update_idem]
  · rw [positions_move]
    exact HoldsLast.truncate k

theorem Inv.wrote (hinv : Inv config chunkId data disk s) {k : Fin r} {file : OFStream} {pos : Nat}
    (m : Nat) (hk : s.handlers k = .writing file pos) :
    Inv config chunkId data disk
      ((s.setFile file.path (writeAt 0 ((s.disk file.path).getD []) pos ((data.drop pos).take m))).move k
        (.writing file (pos + ((data.drop pos).take m).length))) := by
  have hwritten : s.positions k = some pos := by
    rw [positions, hk]
    rfl
  have hpos := hinv.bound k pos hwritten
  obtain ⟨hpaths, hbound⟩ := hinv.move_frame k (.writing file (pos + ((data.drop pos).take m).length)) (by
    rintro _ _ ⟨⟩
    exact hinv.path k file pos hk) (by
    rintro _ ⟨⟩
    rw [List.length_take, List.length_drop]
    omega)
  refine ⟨hpaths, hbound, .inr ?_⟩
  rcases hinv.disk with ⟨-, hnone⟩ | ⟨path, content, hpath, hdisk, hholds⟩
  · rw [hnone k] at hwritten
    cases hwritten
  · cases (hinv.path k file pos hk).symm.trans hpath
    have hold : (s.disk file.path).getD [] = content := by
      rw [hdisk, Function.update_self]
      rfl
    refine ⟨file.path, writeAt 0 content pos ((data.drop pos).take m), hpath, ?_, ?_⟩
    · show Function.update s.disk file.path _ = _
      rw [hold, hdisk, Function.update_idem]
    · rw [positions_move]
      exact hholds.write hinv.bound hwritten m

theorem Inv.moved (hinv : Inv config chunkId data disk s) {k : Fin r} {phase : PutChunkPhase}
    (hsame : phase.written = (s.handlers k).written)
    (hfile : ∀ file pos, phase = .writing file pos →
      ∃ file', s.handlers k = .writing file' pos ∧ file'.path = file.path) :
    Inv config chunkId data disk (s.move k phase) := by
  obtain ⟨hpaths, hbound⟩ := hinv.move_frame k phase (by
    intro file pos hphase
    obtain ⟨file', hk, hpath⟩ := hfile file pos hphase
    exact hpath ▸ hinv.path k file' pos hk) (by
    intro n hn
    exact hinv.bound k n (hsame.symm.trans hn))
  refine ⟨hpaths, hbound, ?_⟩
  rw [positions_same hsame]
  exact hinv.disk

/-- **Every step keeps it.** -/
theorem Inv.step (h : s.step config chunkId data a = some t) (hinv : Inv config chunkId data disk s) :
    Inv config chunkId data disk t := by
  cases step_cases h with
  | opened k hpath => exact hinv.opened k hpath
  | wrote m hk => exact hinv.wrote m hk
  | moved hsame hfile => exact hinv.moved hsame hfile

theorem inv_of_reachable {ok : ChunkWriters r → WriterAction r → Prop}
    (hs : Reachable (step config chunkId data) (Initial disk) ok s) : Inv config chunkId data disk s :=
  hs.invariant (fun _ h => Inv.initial h) fun _ _ _ _ _ hstep hinv => hinv.step hstep

/-- When all are through, the file is the data, and that is all that has changed. -/
theorem disk_of_completed {ok : ChunkWriters r → WriterAction r → Prop} (hr : 1 ≤ r)
    (hs : Reachable (step config chunkId data) (Initial disk) ok s) (hcompleted : s.Completed data) :
    ∃ path, getChunkPath chunkId config = .ok path ∧ s.disk = Function.update disk path (some data) := by
  have hinv := inv_of_reachable hs
  have hpos : ∀ k, s.positions k = some data.length := by
    intro k
    rw [positions, hcompleted k]
    rfl
  rcases hinv.disk with ⟨-, hnone⟩ | ⟨path, content, hpath, hdisk, hholds⟩
  · have hfirst := (hnone ⟨0, hr⟩).symm.trans (hpos ⟨0, hr⟩)
    cases hfirst
  · have hcontent : content = data := hholds.complete hpos
    exact ⟨path, hpath, hcontent ▸ hdisk⟩

end

end ChunkWriters

open ChunkWriters

/-! ## Top theorem -/

/-- **Replicas on one node do not corrupt each other.** -/
theorem chunkWritten_of_completed (config : DataNodeConfig) (chunkId : String) (data : Bytes) (disk : Disk)
    {r : Nat} (hr : 1 ≤ r) {s : ChunkWriters r}
    (hs : Reachable (step config chunkId data) (Initial disk) (fun _ _ => True) s)
    (hcompleted : s.Completed data) : s.Written config chunkId data disk := by
  obtain ⟨path, hpath, hdisk⟩ := disk_of_completed hr hs hcompleted
  refine ⟨?_, ?_, ?_⟩
  · simp only [stored, hpath, hdisk, Function.update_self]
  · intro other hother
    rw [hdisk]
    refine Function.update_of_ne ?_ ..
    rintro rfl
    exact hother hpath
  · rw [hdisk, putChunk_single, hpath]
    rfl

/-- The second handler empties what the first has written, and the first writes on
beyond the end. -/
def lateOpen : Option (ChunkWriters 2) :=
  exec (step {} "chunk_5" [1, 2, 3]) ⟨fun _ => some [9, 9, 9, 9, 9], fun _ => .started⟩
    [.openFile 0 false, .write 0 2, .openFile 1 false, .write 0 7, .close 0, .write 1 1, .write 1 2,
      .close 1]

theorem chunkWritten_lateOpen :
    ∃ s, lateOpen = some s ∧ s.Written {} "chunk_5" [1, 2, 3] fun _ => some [9, 9, 9, 9, 9] := by
  obtain ⟨s, hs⟩ := Option.isSome_iff_exists.mp (show lateOpen.isSome = true by decide)
  have hall : ∀ k, lateOpen.map (fun s => s.handlers k) = some (.answered Status.OK (some 3)) := by
    decide
  refine ⟨s, hs, chunkWritten_of_completed {} "chunk_5" [1, 2, 3] _ (by decide) ?_ ?_⟩
  · exact Reachable.exec (fun _ _ _ => trivial) _ (.init ⟨rfl, fun _ => rfl⟩) hs
  · intro k
    have hk := hall k
    rw [hs] at hk
    exact Option.some.inj hk

end ToyDfs
