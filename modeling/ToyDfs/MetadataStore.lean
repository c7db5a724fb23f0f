import Mathlib.Data.List.AList
import ToyDfs.Grpc

/-!
`MetadataStore`: the active files, and the deleted files whose chunks wait for
cleanup.

`entries` is the `unordered_map` of active files, `deletedEntries` the deque of
tombstones, oldest first.  A tombstone is expired at `now` when its age is over
`tombstoneLifetime`.  Two loops take tombstones out:

* `cleanupOldTombstones`, inside `deletePath` when the deque is over
  `maxDeletedEntries`: pops expired ones off the front, calls nobody;
* `cleanupOldTombstonesInternal`, the cleanup pass: scans the whole deque and
  calls `chunkDeleter` on every expired one.

Every operation takes the clock values it reads as arguments.
-/

namespace ToyDfs

/-! ## Data -/

structure ChunkInfo where
  chunkId : String
  nodeIds : List Int32
  replicationFactor : Int32 := 3
deriving DecidableEq, Repr

structure FileMeta where
  size : Int64
  chunkSize : Int32
  chunks : List ChunkInfo
deriving DecidableEq, Repr

structure PathEntry where
  isFile : Bool
  fileMeta : FileMeta
deriving DecidableEq, Repr

/-- `std::chrono::steady_clock::time_point`, in nanoseconds. -/
abbrev TimePoint := Int

/-- An element of `deleted_entries_`. -/
structure Tombstone where
  path : String
  fileMeta : FileMeta
  deleteTime : TimePoint
deriving DecidableEq, Repr

structure MetadataStore where
  entries : AList fun _ : String => PathEntry
  deletedEntries : List Tombstone
  readCount : UInt64
  writeCount : UInt64
  tombstoneCount : UInt64

/-- `TOMBSTONE_LIFETIME`: five minutes. -/
def tombstoneLifetime : Int := 5 * 60 * 1000000000

/-- `MAX_DELETED_ENTRIES`. -/
def maxDeletedEntries : Nat := 10000

/-- `age > TOMBSTONE_LIFETIME` at `now`. -/
def Tombstone.expired (now : TimePoint) (t : Tombstone) : Bool :=
  decide (tombstoneLifetime < now - t.deleteTime)

namespace MetadataStore

/-- A store as constructed. -/
def empty : MetadataStore :=
  { entries := ∅, deletedEntries := [], readCount := 0, writeCount := 0, tombstoneCount := 0 }

/-! ## Operations -/

def putFile (s : MetadataStore) (path : String) (fileMeta : FileMeta) : MetadataStore :=
  { s with
    entries := s.entries.insert path { isFile := true, fileMeta := fileMeta }
    writeCount := s.writeCount + 1 }

/-- The entry `getFile` points to, `none` for `nullptr`. -/
def findFile (s : MetadataStore) (path : String) : Option FileMeta :=
  match s.entries.lookup path with
  | none => none
  | some e => if e.isFile then some e.fileMeta else none

def getFile (s : MetadataStore) (path : String) : Option FileMeta × MetadataStore :=
  (s.findFile path, { s with readCount := s.readCount + 1 })

/-- `exists`. -/
def existsPath (s : MetadataStore) (path : String) : Bool × MetadataStore :=
  ((s.entries.lookup path).isSome, { s with readCount := s.readCount + 1 })

/-- Pop expired tombstones off the front; the count goes down by one for each. -/
def popExpired (now : TimePoint) : List Tombstone → UInt64 → List Tombstone × UInt64
  | [], n => ([], n)
  | t :: rest, n => if t.expired now then popExpired now rest (n - 1) else (t :: rest, n)

def cleanupOldTombstones (now : TimePoint) (s : MetadataStore) : MetadataStore :=
  let (rest, n) := popExpired now s.deletedEntries s.tombstoneCount
  { s with deletedEntries := rest, tombstoneCount := n }

/-- `deletePath`; `deleteTime` is the clock at the removal, `now` the clock that
`cleanupOldTombstones` reads. -/
def deletePath (s : MetadataStore) (path : String) (deleteTime now : TimePoint) : MetadataStore :=
  match s.findFile path with
  | none => s
  | some deletedMeta =>
    let s1 := { s with
      deletedEntries := s.deletedEntries ++ [⟨path, deletedMeta, deleteTime⟩]
      entries := s.entries.erase path }
    let s2 := if maxDeletedEntries < s1.deletedEntries.length then cleanupOldTombstones now s1 else s1
    { s2 with writeCount := s2.writeCount + 1, tombstoneCount := s2.tombstoneCount + 1 }

/-- The full scan of `cleanupOldTombstonesInternal`.  `w` is what `chunkDeleter`
works on; `none` is an empty `std::function`. -/
def sweepExpired {ω : Type} (now : TimePoint) (chunkDeleter : Option (FileMeta → ω → ω)) :
    List Tombstone → UInt64 → ω → List Tombstone × UInt64 × ω
  | [], n, w => ([], n, w)
  | t :: rest, n, w =>
    if t.expired now then
      let w' := match chunkDeleter with
        | none => w
        | some del => del t.fileMeta w
      sweepExpired now chunkDeleter rest (n - 1) w'
    else
      let (kept, n', w') := sweepExpired now chunkDeleter rest n w
      (t :: kept, n', w')

def cleanupOldTombstonesInternal {ω : Type} (now : TimePoint)
    (chunkDeleter : Option (FileMeta → ω → ω)) (s : MetadataStore) (w : ω) : MetadataStore × ω :=
  let (kept, n, w') := sweepExpired now chunkDeleter s.deletedEntries s.tombstoneCount w
  ({ s with deletedEntries := kept, tombstoneCount := n }, w')

def cleanupTombstones {ω : Type} (now : TimePoint) (chunkDeleter : Option (FileMeta → ω → ω))
    (s : MetadataStore) (w : ω) : MetadataStore × ω :=
  cleanupOldTombstonesInternal now chunkDeleter s w

structure Statistics where
  readCount : UInt64
  writeCount : UInt64
  tombstoneCount : UInt64
  activeEntries : UInt64
  deletedEntries : UInt64
deriving DecidableEq, Repr

def getStatistics (s : MetadataStore) : Statistics :=
  { readCount := s.readCount
    writeCount := s.writeCount
    tombstoneCount := s.tombstoneCount
    activeEntries := UInt64.ofNat s.entries.keys.length
    deletedEntries := UInt64.ofNat s.deletedEntries.length }

/-! ## Lemmas -/

@[simp] theorem findFile_empty (path : String) : empty.findFile path = none := rfl

@[simp] theorem findFile_putFile (s : MetadataStore) (path : String) (m : FileMeta) :
    (s.putFile path m).findFile path = some m := by
  simp [findFile, putFile]

theorem findFile_putFile_ne (s : MetadataStore) {path q : String} (m : FileMeta) (h : q ≠ path) :
    (s.putFile path m).findFile q = s.findFile q := by
  simp [findFile, putFile, AList.lookup_insert_ne h]

/-- An active file after `putFile` is the new one or was there before. -/
theorem of_findFile_putFile {s : MetadataStore} {path q : String} {fileMeta m : FileMeta}
    (h : (s.putFile path fileMeta).findFile q = some m) :
    (q = path ∧ m = fileMeta) ∨ (q ≠ path ∧ s.findFile q = some m) := by
  by_cases hq : q = path
  · subst hq
    rw [findFile_putFile] at h
    exact .inl ⟨rfl, (Option.some.inj h).symm⟩
  · rw [findFile_putFile_ne s fileMeta hq] at h
    exact .inr ⟨hq, h⟩

@[simp] theorem deletedEntries_putFile (s : MetadataStore) (path : String) (m : FileMeta) :
    (s.putFile path m).deletedEntries = s.deletedEntries := rfl

@[simp] theorem findFile_getFile (s : MetadataStore) (path q : String) :
    (s.getFile path).2.findFile q = s.findFile q := rfl

@[simp] theorem deletedEntries_getFile (s : MetadataStore) (path : String) :
    (s.getFile path).2.deletedEntries = s.deletedEntries := rfl

@[simp] theorem entries_cleanupOldTombstones (now : TimePoint) (s : MetadataStore) :
    (cleanupOldTombstones now s).entries = s.entries := rfl

/-- The front loop drops the longest run of expired tombstones. -/
theorem popExpired_fst (now : TimePoint) (l : List Tombstone) (n : UInt64) :
    (popExpired now l n).1 = l.dropWhile (Tombstone.expired now) := by
  induction l generalizing n with
  | nil => rfl
  | cons t rest ih =>
    rw [popExpired, List.dropWhile_cons]
    split
    · exact ih _
    · rfl

/-- The scan keeps what is not expired. -/
theorem sweepExpired_fst {ω : Type} (now : TimePoint) (del : Option (FileMeta → ω → ω))
    (l : List Tombstone) (n : UInt64) (w : ω) :
    (sweepExpired now del l n w).1 = l.filter (fun t => !t.expired now) := by
  induction l generalizing n w with
  | nil => rfl
  | cons t rest ih =>
    unfold sweepExpired
    by_cases h : t.expired now = true
    · rw [if_pos h, ih, List.filter_cons_of_neg (by simp [h])]
    · rw [if_neg h, List.filter_cons_of_pos (by simp [h]), ← ih n w]

/-- The scan hands the expired metadata to the deleter, oldest first. -/
theorem sweepExpired_world {ω : Type} (now : TimePoint) (del : FileMeta → ω → ω)
    (l : List Tombstone) (n : UInt64) (w : ω) :
    (sweepExpired now (some del) l n w).2.2 =
      ((l.filter (Tombstone.expired now)).map Tombstone.fileMeta).foldl (fun w m => del m w) w := by
  induction l generalizing n w with
  | nil => rfl
  | cons t rest ih =>
    unfold sweepExpired
    by_cases h : t.expired now = true
    · rw [if_pos h, ih, List.filter_cons_of_pos h, List.map_cons, List.foldl_cons]
    · rw [if_neg h, List.filter_cons_of_neg h, ← ih n w]

@[simp] theorem deletedEntries_cleanupTombstones {ω : Type} (now : TimePoint)
    (del : Option (FileMeta → ω → ω)) (s : MetadataStore) (w : ω) :
    (cleanupTombstones now del s w).1.deletedEntries =
      s.deletedEntries.filter (fun t => !t.expired now) :=
  sweepExpired_fst now del _ _ w

@[simp] theorem entries_cleanupTombstones {ω : Type} (now : TimePoint)
    (del : Option (FileMeta → ω → ω)) (s : MetadataStore) (w : ω) :
    (cleanupTombstones now del s w).1.entries = s.entries := rfl

theorem cleanupTombstones_world {ω : Type} (now : TimePoint) (del : FileMeta → ω → ω)
    (s : MetadataStore) (w : ω) :
    (cleanupTombstones now (some del) s w).2 =
      ((s.deletedEntries.filter (Tombstone.expired now)).map Tombstone.fileMeta).foldl
        (fun w m => del m w) w :=
  sweepExpired_world now del _ _ w

theorem sweepExpired_count {ω : Type} (now : TimePoint) (del : Option (FileMeta → ω → ω))
    (l : List Tombstone) (n : UInt64) (w : ω) :
    (sweepExpired now del l n w).2.1 =
      (sweepExpired now (none : Option (FileMeta → Unit → Unit)) l n ()).2.1 := by
  induction l generalizing n w with
  | nil => rfl
  | cons t rest ih =>
    unfold sweepExpired
    by_cases h : t.expired now = true
    · rw [if_pos h, if_pos h]
      exact ih ..
    · rw [if_neg h, if_neg h]
      exact ih ..

/-- What becomes of the store does not depend on the deleter. -/
theorem cleanupTombstones_store {ω : Type} (now : TimePoint) (del : Option (FileMeta → ω → ω))
    (s : MetadataStore) (w : ω) :
    (cleanupTombstones now del s w).1 =
      (cleanupTombstones now (none : Option (FileMeta → Unit → Unit)) s ()).1 := by
  simp only [cleanupTombstones, cleanupOldTombstonesInternal, sweepExpired_fst, sweepExpired_count now del]

/-- What `deletePath` does to an absent path: nothing. -/
theorem deletePath_of_none (s : MetadataStore) (path : String) (deleteTime now : TimePoint)
    (h : s.findFile path = none) : s.deletePath path deleteTime now = s := by
  simp only [deletePath, h]

/-- What `deletePath` does to an active file: the entry moves to the back of the
deque, and an overfull deque loses its expired front. -/
theorem deletePath_of_some (s : MetadataStore) (path : String) (deleteTime now : TimePoint)
    {m : FileMeta} (h : s.findFile path = some m) :
    (s.deletePath path deleteTime now).entries = s.entries.erase path ∧
    (s.deletePath path deleteTime now).deletedEntries =
      if maxDeletedEntries ≤ s.deletedEntries.length
      then (s.deletedEntries ++ [Tombstone.mk path m deleteTime]).dropWhile (Tombstone.expired now)
      else s.deletedEntries ++ [Tombstone.mk path m deleteTime] := by
  simp only [deletePath, h, List.length_append, List.length_singleton]
  by_cases hlen : maxDeletedEntries ≤ s.deletedEntries.length
  · rw [if_pos (by omega), if_pos hlen]
    exact ⟨rfl, popExpired_fst now _ _⟩
  · rw [if_neg (by omega), if_neg hlen]
    exact ⟨rfl, rfl⟩

@[simp] theorem findFile_deletePath (s : MetadataStore) (path : String) (deleteTime now : TimePoint) :
    (s.deletePath path deleteTime now).findFile path = none := by
  cases h : s.findFile path with
  | none => rw [deletePath_of_none s path deleteTime now h, h]
  | some m =>
    unfold findFile
    rw [(deletePath_of_some s path deleteTime now h).1]
    simp

theorem findFile_deletePath_ne (s : MetadataStore) {path q : String} (deleteTime now : TimePoint)
    (hq : q ≠ path) : (s.deletePath path deleteTime now).findFile q = s.findFile q := by
  cases h : s.findFile path with
  | none => rw [deletePath_of_none s path deleteTime now h]
  | some m =>
    unfold findFile
    rw [(deletePath_of_some s path deleteTime now h).1, AList.lookup_erase_ne hq]

/-- An active file after `deletePath` was there before, and is another one. -/
theorem of_findFile_deletePath {s : MetadataStore} {path q : String} {deleteTime now : TimePoint}
    {m : FileMeta} (h : (s.deletePath path deleteTime now).findFile q = some m) :
    q ≠ path ∧ s.findFile q = some m := by
  by_cases hq : q = path
  · subst hq
    rw [findFile_deletePath] at h
    cases h
  · rw [findFile_deletePath_ne s deleteTime now hq] at h
    exact ⟨hq, h⟩

/-- Every tombstone after `deletePath` was there before, or is the deleted file's. -/
theorem mem_deletedEntries_deletePath (s : MetadataStore) (path : String)
    (deleteTime now : TimePoint) {t : Tombstone}
    (ht : t ∈ (s.deletePath path deleteTime now).deletedEntries) :
    t ∈ s.deletedEntries ∨ ∃ m, s.findFile path = some m ∧ t = Tombstone.mk path m deleteTime := by
  cases h : s.findFile path with
  | none =>
    rw [deletePath_of_none s path deleteTime now h] at ht
    exact Or.inl ht
  | some m =>
    rw [(deletePath_of_some s path deleteTime now h).2] at ht
    have hmem : t ∈ s.deletedEntries ++ [Tombstone.mk path m deleteTime] := by
      split at ht
      · exact (List.dropWhile_sublist _).subset ht
      · exact ht
    rcases List.mem_append.mp hmem with hmem | hmem
    · exact Or.inl hmem
    · exact Or.inr ⟨m, rfl, List.mem_singleton.mp hmem⟩

end MetadataStore

end ToyDfs
