import Mathlib.Data.Set.Card
import ToyDfs.Lib.Simulation
import ToyDfs.Lib.KeyValue
import ToyDfs.StoreRuns

/-!
What `MetadataStore` is: a map from names to metadata, and a queue of deletions.

`RefStore` is that map and queue, with the number of writes so far.  `Refines`
relates it to the store, every operation keeps them related and answers alike
(`refines_step`), so all sequences of calls are answered alike
(`store_refines_reference`).  The map holds what was put last and not deleted
since (`files_eq_contents`).
-/

namespace ToyDfs

open Simulation

/-! ## Calls -/

/-- One call, with the clock values it reads. -/
inductive StoreCall
  | putFile (path : String) (fileMeta : FileMeta)
  | getFile (path : String)
  | existsPath (path : String)
  | deletePath (path : String) (deleteTime now : TimePoint)
  | cleanupTombstones (now : TimePoint)
  | getStatistics
deriving DecidableEq, Repr

inductive StoreReply
  | done
  | file (fileMeta : Option FileMeta)
  | found (isThere : Bool)
  /-- what `chunkDeleter` was called on -/
  | passed (deleted : List FileMeta)
  | statistics (writeCount activeEntries : UInt64)
deriving DecidableEq, Repr

def MetadataStore.answer (s : MetadataStore) : StoreCall → StoreReply × MetadataStore
  | .putFile path fileMeta => (.done, s.putFile path fileMeta)
  | .getFile path =>
    let (found, s) := s.getFile path
    (.file found, s)
  | .existsPath path =>
    let (isThere, s) := s.existsPath path
    (.found isThere, s)
  | .deletePath path deleteTime now => (.done, s.deletePath path deleteTime now)
  | .cleanupTombstones now =>
    let (s, deleted) := s.cleanupTombstones now (some fun fileMeta deleted => deleted ++ [fileMeta]) []
    (.passed deleted, s)
  | .getStatistics => (.statistics s.getStatistics.writeCount s.getStatistics.activeEntries, s)

/-! ## The reference -/

structure RefStore where
  files : String → Option FileMeta
  /-- the deletions, oldest first -/
  queue : List Tombstone
  /-- puts, and deletions of a file -/
  writes : Nat

namespace RefStore

def empty : RefStore := { files := fun _ => none, queue := [], writes := 0 }

/-- The cleanup nested in `deletePath`: the expired front of an overfull queue. -/
def trim (now : TimePoint) (queue : List Tombstone) : List Tombstone :=
  if maxDeletedEntries < queue.length then queue.dropWhile (Tombstone.expired now) else queue

def putFile (r : RefStore) (path : String) (fileMeta : FileMeta) : RefStore :=
  { r with files := Function.update r.files path (some fileMeta), writes := r.writes + 1 }

def deletePath (r : RefStore) (path : String) (deleteTime now : TimePoint) : RefStore :=
  match r.files path with
  | none => r
  | some fileMeta =>
    { files := Function.update r.files path none
      queue := trim now (r.queue ++ [⟨path, fileMeta, deleteTime⟩])
      writes := r.writes + 1 }

/-- How many names have a file. -/
noncomputable def active (r : RefStore) : Nat := {path | (r.files path).isSome}.ncard

noncomputable def answer (r : RefStore) : StoreCall → StoreReply × RefStore
  | .putFile path fileMeta => (.done, r.putFile path fileMeta)
  | .getFile path => (.file (r.files path), r)
  | .existsPath path => (.found (r.files path).isSome, r)
  | .deletePath path deleteTime now => (.done, r.deletePath path deleteTime now)
  | .cleanupTombstones now =>
    (.passed ((r.queue.filter (Tombstone.expired now)).map Tombstone.fileMeta),
      { r with queue := r.queue.filter fun x => !x.expired now })
  | .getStatistics => (.statistics (UInt64.ofNat r.writes) (UInt64.ofNat r.active), r)

end RefStore

/-! ## Refinement -/

/-- The store is this map and queue, and all its entries are files. -/
structure Refines (s : MetadataStore) (r : RefStore) : Prop where
  files : ∀ path, s.findFile path = r.files path
  queue : s.deletedEntries = r.queue
  writes : s.writeCount = UInt64.ofNat r.writes
  isFile : ∀ path e, s.entries.lookup path = some e → e.isFile = true

theorem refines_empty : Refines .empty .empty := by
  refine ⟨fun _ => rfl, rfl, rfl, ?_⟩
  intro path e h
  simp [MetadataStore.empty] at h

section
variable {s : MetadataStore} {r : RefStore}

/-- With files only, an entry is a file. -/
theorem Refines.lookup_isSome (h : Refines s r) (path : String) :
    (s.entries.lookup path).isSome = (r.files path).isSome := by
  rw [← h.files, MetadataStore.findFile]
  cases hl : s.entries.lookup path with
  | none => rfl
  | some e =>
    simp only [h.isFile path e hl, if_true]
    rfl

/-- `entries_.size()` counts the names. -/
theorem Refines.active (h : Refines s r) : s.entries.keys.length = r.active := by
  have hset : {path | (r.files path).isSome} = (s.entries.keys.toFinset : Set String) := by
    ext path
    rw [Set.mem_ofPred_eq, ← h.lookup_isSome, AList.lookup_isSome, Finset.mem_coe, List.mem_toFinset]
    exact AList.mem_keys
  rw [RefStore.active, hset, Set.ncard_coe_finset, List.toFinset_card_of_nodup s.entries.keys_nodup]

theorem refines_putFile (h : Refines s r) (path : String) (fileMeta : FileMeta) :
    Refines (s.putFile path fileMeta) (r.putFile path fileMeta) := by
  refine ⟨?_, h.queue, ?_, ?_⟩
  · intro q
    show _ = Function.update r.files path (some fileMeta) q
    by_cases hq : q = path
    · subst hq
      rw [MetadataStore.findFile_putFile, Function.update_self]
    · rw [MetadataStore.findFile_putFile_ne _ _ hq, Function.update_of_ne hq, h.files]
  · show s.writeCount + 1 = UInt64.ofNat (r.writes + 1)
    rw [h.writes, UInt64.ofNat_add]
    rfl
  · intro q e hl
    by_cases hq : q = path
    · subst hq
      simp only [MetadataStore.putFile, AList.lookup_insert, Option.some.injEq] at hl
      rw [← hl]
    · simp only [MetadataStore.putFile, AList.lookup_insert_ne hq] at hl
      exact h.isFile q e hl

theorem writeCount_deletePath {path : String} {m : FileMeta} (deleteTime now : TimePoint)
    (hm : s.findFile path = some m) :
    (s.deletePath path deleteTime now).writeCount = s.writeCount + 1 := by
  simp only [MetadataStore.deletePath, hm]
  split <;> rfl

theorem refines_deletePath (h : Refines s r) (path : String) (deleteTime now : TimePoint) :
    Refines (s.deletePath path deleteTime now) (r.deletePath path deleteTime now) := by
  cases hm : r.files path with
  | none =>
    rw [MetadataStore.deletePath_of_none _ _ _ _ ((h.files path).trans hm)]
    simp only [RefStore.deletePath, hm]
    exact h
  | some m =>
    have hfind := (h.files path).trans hm
    obtain ⟨hentries, hqueue⟩ := MetadataStore.deletePath_of_some s path deleteTime now hfind
    simp only [RefStore.deletePath, hm]
    refine ⟨?_, ?_, ?_, ?_⟩
    · intro q
      show _ = Function.update r.files path none q
      by_cases hq : q = path
      · subst hq
        rw [MetadataStore.findFile_deletePath, Function.update_self]
      · rw [MetadataStore.findFile_deletePath_ne _ _ _ hq, Function.update_of_ne hq, h.files]
    · rw [hqueue, RefStore.trim, List.length_append, List.length_singleton, h.queue]
      by_cases hlen : maxDeletedEntries ≤ r.queue.length
      · rw [if_pos hlen, if_pos (Nat.lt_succ_of_le hlen)]
      · rw [if_neg hlen, if_neg (by omega)]
    · show _ = UInt64.ofNat (r.writes + 1)
      rw [writeCount_deletePath deleteTime now hfind, h.writes, UInt64.ofNat_add]
      rfl
    · intro q e hl
      rw [hentries] at hl
      by_cases hq : q = path
      · subst hq
        simp at hl
      · rw [AList.lookup_erase_ne hq] at hl
        exact h.isFile q e hl

/-- **One call.** -/
theorem refines_step : Simulates (fun _ => True) Refines MetadataStore.answer RefStore.answer := by
  intro s r call _ h
  cases call with
  | putFile path fileMeta => exact ⟨rfl, refines_putFile h path fileMeta⟩
  | getFile path =>
    refine ⟨congrArg StoreReply.file (h.files path), ?_⟩
    exact ⟨h.files, h.queue, h.writes, h.isFile⟩
  | existsPath path =>
    refine ⟨congrArg StoreReply.found (h.lookup_isSome path), ?_⟩
    exact ⟨h.files, h.queue, h.writes, h.isFile⟩
  | deletePath path deleteTime now => exact ⟨rfl, refines_deletePath h path deleteTime now⟩
  | cleanupTombstones now =>
    refine ⟨?_, h.files, ?_, h.writes, h.isFile⟩
    · have hpassed := StoreHistory.cleanup_passed s now []
      rw [List.nil_append, h.queue] at hpassed
      exact congrArg StoreReply.passed hpassed
    · show (s.cleanupTombstones now _ _).1.deletedEntries = _
      rw [MetadataStore.deletedEntries_cleanupTombstones, h.queue]
      rfl
  | getStatistics =>
    refine ⟨?_, h⟩
    show StoreReply.statistics s.writeCount (UInt64.ofNat s.entries.keys.length) =
      .statistics (UInt64.ofNat r.writes) (UInt64.ofNat r.active)
    rw [h.writes, h.active]

end

/-! ## Histories -/

/-- What a call writes to the map: a `deletePath` removes the name, if it is there. -/
def StoreCall.write : StoreCall → Option (String × Option FileMeta)
  | .putFile path fileMeta => some (path, some fileMeta)
  | .deletePath path _ _ => some (path, none)
  | _ => none

/-- One call on the map. -/
theorem files_answer (r : RefStore) (call : StoreCall) :
    (r.answer call).2.files = KeyValue.update StoreCall.write r.files call := by
  cases call with
  | deletePath path deleteTime now =>
    show (r.deletePath path deleteTime now).files = Function.update r.files path none
    unfold RefStore.deletePath
    cases hm : r.files path with
    | none => exact (Function.update_eq_self_iff.mpr hm.symm).symm
    | some m => rfl
  | _ => rfl

/-- The map holds what was put last and not deleted since. -/
theorem files_eq_contents (calls : List StoreCall) :
    (run RefStore.answer .empty calls).2.files = KeyValue.contents StoreCall.write calls := by
  induction calls using List.reverseRecOn with
  | nil => rfl
  | append_singleton calls call ih => rw [run_snoc, files_answer, ih, KeyValue.contents_snoc]

/-- What a sequence of calls on a new store comes to. -/
structure RefinesReference (calls : List StoreCall) : Prop where
  answers : (run MetadataStore.answer .empty calls).1 = (run RefStore.answer .empty calls).1
  state : Refines (run MetadataStore.answer .empty calls).2 (run RefStore.answer .empty calls).2
  getFile : ∀ path fileMeta,
    ((run MetadataStore.answer .empty calls).2.getFile path).1 = some fileMeta ↔
      KeyValue.LastPut StoreCall.write path calls fileMeta
  existsPath : ∀ path, ((run MetadataStore.answer .empty calls).2.existsPath path).1 = true ↔
    ((run MetadataStore.answer .empty calls).2.getFile path).1 ≠ none

/-- **The store refines the map and the queue.** -/
theorem store_refines_reference (calls : List StoreCall) : RefinesReference calls := by
  obtain ⟨hanswers, hstate⟩ := refines_step.run calls (fun _ _ => trivial) refines_empty
  refine ⟨hanswers, hstate, ?_, ?_⟩
  · intro path fileMeta
    rw [← KeyValue.contents_eq_some_iff, ← files_eq_contents, ← hstate.files]
    rfl
  · intro path
    show (_ : Option PathEntry).isSome = true ↔ MetadataStore.findFile _ path ≠ none
    rw [hstate.lookup_isSome, hstate.files, Option.isSome_iff_ne_none]

end ToyDfs
