import Mathlib.Data.List.Perm.Basic
import Mathlib.Tactic.Ring
import ToyDfs.Lib.Transition
import ToyDfs.MetadataStore

/-!
Histories of operations on one `MetadataStore`, under a clock that never goes
back.

`StoreHistory` adds to the store what the operations did with tombstones so far:
the metadata `deletePath` moved into the deque and the metadata the cleanup
passes handed to `chunkDeleter`.  `Reclaimed` says that nothing was lost between
the two.  It holds at the end of a run exactly when no `deletePath` of the run
reaches the overflow cleanup with an expired tombstone in front
(`reclaimed_iff_no_overflow_drop`): that cleanup drops tombstones without calling
`chunkDeleter`.
-/

namespace ToyDfs

open Transition

/-! ## Histories -/

inductive StoreOp
  | putFile (path : String) (fileMeta : FileMeta)
  | getFile (path : String)
  | existsPath (path : String)
  | deletePath (path : String) (deleteTime now : TimePoint)
  | cleanupTombstones (now : TimePoint)

structure StoreHistory where
  store : MetadataStore
  /-- the last value the clock was read at -/
  clock : TimePoint
  /-- metadata moved into `deletedEntries`, oldest first -/
  moved : List FileMeta
  /-- metadata handed to `chunkDeleter`, oldest first -/
  passed : List FileMeta

namespace StoreHistory

/-- A new store, with the clock at `start`. -/
def init (start : TimePoint) : StoreHistory :=
  { store := .empty, clock := start, moved := [], passed := [] }

/-- One operation; it is not enabled when it would read the clock going back. -/
def step (h : StoreHistory) : StoreOp → Option StoreHistory
  | .putFile path fileMeta => some { h with store := h.store.putFile path fileMeta }
  | .getFile path => some { h with store := (h.store.getFile path).2 }
  | .existsPath path => some { h with store := (h.store.existsPath path).2 }
  | .deletePath path deleteTime now =>
    if h.clock ≤ deleteTime ∧ deleteTime ≤ now then
      some { h with
        store := h.store.deletePath path deleteTime now
        clock := now
        moved := h.moved ++ (h.store.findFile path).toList }
    else none
  | .cleanupTombstones now =>
    if h.clock ≤ now then
      let (store, passed) :=
        h.store.cleanupTombstones now (some fun fileMeta passed => passed ++ [fileMeta]) h.passed
      some { h with store := store, clock := now, passed := passed }
    else none

/-- Everything moved into the deque is still there or was handed over, once. -/
def Reclaimed (h : StoreHistory) : Prop :=
  h.moved.Perm (h.passed ++ h.store.deletedEntries.map Tombstone.fileMeta)

/-- The operation does not reach the overflow cleanup with an expired tombstone in
front of the deque. -/
def NoOverflowDrop (h : StoreHistory) : StoreOp → Prop
  | .deletePath path _ now =>
    (h.store.findFile path).isSome → maxDeletedEntries ≤ h.store.deletedEntries.length →
      ∀ t, h.store.deletedEntries.head? = some t → t.expired now = false
  | _ => True

/-! ## Lemmas -/

/-- How many moved files are neither handed over nor in the deque. -/
def missing (h : StoreHistory) : Int :=
  h.moved.length - (h.passed.length + h.store.deletedEntries.length)

theorem missing_eq_zero {h : StoreHistory} (hr : h.Reclaimed) : h.missing = 0 := by
  have := hr.length_eq
  simp only [List.length_append, List.length_map] at this
  unfold missing
  omega

theorem foldl_snoc {α : Type} (l acc : List α) : l.foldl (fun acc a => acc ++ [a]) acc = acc ++ l := by
  induction l generalizing acc with
  | nil => simp
  | cons a l ih => simp [ih]

/-- A cleanup pass hands over exactly the expired tombstones. -/
theorem cleanup_passed (s : MetadataStore) (now : TimePoint) (passed : List FileMeta) :
    (s.cleanupTombstones now (some fun fileMeta passed => passed ++ [fileMeta]) passed).2 =
      passed ++ (s.deletedEntries.filter (Tombstone.expired now)).map Tombstone.fileMeta := by
  rw [MetadataStore.cleanupTombstones_world, foldl_snoc]

theorem reclaimed_cleanup {h h' : StoreHistory} {now : TimePoint}
    (hs : h.step (.cleanupTombstones now) = some h') (hr : h.Reclaimed) : h'.Reclaimed := by
  simp only [step] at hs
  split at hs
  · cases hs
    simp only [Reclaimed, cleanup_passed, MetadataStore.deletedEntries_cleanupTombstones]
    have hsplit := (List.filter_append_perm (Tombstone.expired now) h.store.deletedEntries).map
      Tombstone.fileMeta
    rw [List.map_append] at hsplit
    rw [List.append_assoc]
    exact hr.trans (hsplit.symm.append_left _)
  · cases hs

/-- What `deletePath` does to the deque: nothing on an absent path; on an active
one the metadata is appended and `k` tombstones fall off the front, `k > 0` only
in the overflow cleanup. -/
theorem deletePath_deque (s : MetadataStore) (path : String) (deleteTime now : TimePoint)
    {m : FileMeta} (hm : s.findFile path = some m) :
    ∃ k, (s.deletePath path deleteTime now).deletedEntries =
        (s.deletedEntries ++ [Tombstone.mk path m deleteTime]).drop k ∧
      k ≤ s.deletedEntries.length + 1 ∧
      (0 < k ↔ maxDeletedEntries ≤ s.deletedEntries.length ∧
        ∃ t, s.deletedEntries.head? = some t ∧ t.expired now = true) := by
  have hmax : 0 < maxDeletedEntries := by decide
  rw [(MetadataStore.deletePath_of_some s path deleteTime now hm).2]
  by_cases hlen : maxDeletedEntries ≤ s.deletedEntries.length
  · rw [if_pos hlen]
    generalize hl : s.deletedEntries ++ [Tombstone.mk path m deleteTime] = l
    have hlenl : l.length = s.deletedEntries.length + 1 := by rw [← hl]; simp
    refine ⟨(l.takeWhile (Tombstone.expired now)).length, ?_, ?_, ?_⟩
    · calc l.dropWhile (Tombstone.expired now)
          = (l.takeWhile (Tombstone.expired now) ++ l.dropWhile (Tombstone.expired now)).drop
              (l.takeWhile (Tombstone.expired now)).length := List.drop_left.symm
        _ = l.drop (l.takeWhile (Tombstone.expired now)).length := by
              rw [List.takeWhile_append_dropWhile]
    · rw [← hlenl]
      exact (List.takeWhile_prefix _).length_le
    · cases hd : s.deletedEntries with
      | nil => rw [hd] at hlen; simp at hlen; omega
      | cons t rest =>
        rw [hd, List.cons_append] at hl
        rw [← hl, List.takeWhile_cons]
        rw [hd] at hlen
        have hlen' : maxDeletedEntries ≤ rest.length + 1 := hlen
        cases he : t.expired now <;> simp [he, hlen']
  · rw [if_neg hlen]
    exact ⟨0, by simp, by omega, by simp [hlen]⟩

/-- A `deletePath` that drops nothing keeps `Reclaimed`. -/
theorem reclaimed_deletePath {h h' : StoreHistory} {path : String} {deleteTime now : TimePoint}
    (hno : h.NoOverflowDrop (.deletePath path deleteTime now))
    (hs : h.step (.deletePath path deleteTime now) = some h') (hr : h.Reclaimed) : h'.Reclaimed := by
  simp only [step] at hs
  split at hs
  · cases hs
    simp only [Reclaimed]
    cases hm : h.store.findFile path with
    | none =>
      rw [MetadataStore.deletePath_of_none _ _ _ _ hm, Option.toList_none, List.append_nil]
      exact hr
    | some m =>
      obtain ⟨k, hk, -, hpos⟩ := deletePath_deque h.store path deleteTime now hm
      have hk0 : k = 0 := by
        by_contra hne
        obtain ⟨hlen, t, ht, hexp⟩ := hpos.mp (by omega)
        rw [hno (by simp [hm]) hlen t ht] at hexp
        cases hexp
      rw [hk, hk0, List.drop_zero, List.map_append, ← List.append_assoc]
      exact hr.append_right _
  · cases hs

theorem reclaimed_step {h h' : StoreHistory} {op : StoreOp} (hno : h.NoOverflowDrop op)
    (hs : h.step op = some h') (hr : h.Reclaimed) : h'.Reclaimed := by
  cases op with
  | putFile path m => cases hs; exact hr
  | getFile path => cases hs; exact hr
  | existsPath path => cases hs; exact hr
  | deletePath path deleteTime now => exact reclaimed_deletePath hno hs hr
  | cleanupTombstones now => exact reclaimed_cleanup hs hr

theorem missing_cleanup {h h' : StoreHistory} {now : TimePoint}
    (hs : h.step (.cleanupTombstones now) = some h') : h'.missing = h.missing := by
  simp only [step] at hs
  split at hs
  · cases hs
    have hsplit := (List.filter_append_perm (Tombstone.expired now) h.store.deletedEntries).length_eq
    simp only [missing, cleanup_passed, MetadataStore.deletedEntries_cleanupTombstones,
      List.length_append, List.length_map] at hsplit ⊢
    omega
  · cases hs

/-- A `deletePath` loses as many files as fall off the front. -/
theorem missing_deletePath {h h' : StoreHistory} {path : String} {deleteTime now : TimePoint}
    (hs : h.step (.deletePath path deleteTime now) = some h') :
    h.missing ≤ h'.missing ∧
      (¬ h.NoOverflowDrop (.deletePath path deleteTime now) → h.missing < h'.missing) := by
  simp only [step] at hs
  split at hs
  · cases hs
    cases hm : h.store.findFile path with
    | none =>
      rw [MetadataStore.deletePath_of_none _ _ _ _ hm]
      exact ⟨by simp [missing], fun hno => absurd (by simp [NoOverflowDrop, hm]) hno⟩
    | some m =>
      obtain ⟨k, hk, hle, hpos⟩ := deletePath_deque h.store path deleteTime now hm
      simp only [missing, hk, Option.toList_some, List.length_append, List.length_singleton,
        List.length_drop]
      refine ⟨by omega, fun hno => ?_⟩
      have hk0 : 0 < k := by
        rw [hpos]
        simp only [NoOverflowDrop, hm, Option.isSome_some, forall_const, not_forall] at hno
        obtain ⟨hlen, t, ht, hexp⟩ := hno
        exact ⟨hlen, t, ht, by simpa using hexp⟩
      omega
  · cases hs

theorem missing_step {h h' : StoreHistory} {op : StoreOp} (hs : h.step op = some h') :
    h.missing ≤ h'.missing ∧ (¬ h.NoOverflowDrop op → h.missing < h'.missing) := by
  cases op with
  | putFile path m => cases hs; exact ⟨le_refl _, fun hno => absurd trivial hno⟩
  | getFile path => cases hs; exact ⟨le_refl _, fun hno => absurd trivial hno⟩
  | existsPath path => cases hs; exact ⟨le_refl _, fun hno => absurd trivial hno⟩
  | deletePath path deleteTime now => exact missing_deletePath hs
  | cleanupTombstones now =>
    exact ⟨le_of_eq (missing_cleanup hs).symm, fun hno => absurd trivial hno⟩

/-! ## Top theorem -/

/-- **Tombstones are reclaimed unless the overflow cleanup drops some.**  At the
end of a run from the empty store, everything `deletePath` moved is in the deque
or was handed to `chunkDeleter` exactly once, if and only if no `deletePath` of
the run found the deque full with an expired tombstone in front. -/
theorem reclaimed_iff_no_overflow_drop (start : TimePoint) (ops : List StoreOp) (h : StoreHistory)
    (hrun : exec step (init start) ops = some h) :
    h.Reclaimed ↔ Along step NoOverflowDrop (init start) ops := by
  constructor
  · intro hr
    by_contra hal
    have hlt := exec_counter (fun s op t hs => (missing_step hs).1)
      (fun s op t hs => (missing_step hs).2) ops hrun hal
    have h0 : (init start).missing = 0 := rfl
    rw [missing_eq_zero hr, h0] at hlt
    exact absurd hlt (by decide)
  · intro hal
    exact exec_along (fun s op t hno hs => reclaimed_step hno hs) ops hrun hal (List.Perm.refl _)

/-- One upload and deletion of `f`, at clock value `t`. -/
def deleteRound (t : TimePoint) : List StoreOp :=
  [.putFile "f" ⟨1, 1048576, [{ chunkId := "chunk_0", nodeIds := [1] }]⟩, .deletePath "f" t t]

theorem reclaimed_one_round : ∃ h,
    exec step (init 0) (deleteRound 0 ++ [.cleanupTombstones (tombstoneLifetime + 1)]) = some h ∧
      (h.Reclaimed ↔ Along step NoOverflowDrop (init 0)
        (deleteRound 0 ++ [.cleanupTombstones (tombstoneLifetime + 1)])) :=
  ⟨_, rfl, reclaimed_iff_no_overflow_drop 0 _ _ rfl⟩

/-- Ten thousand rounds at time 0, and one more when all of them are expired. -/
def overflowRun : List StoreOp :=
  (List.replicate maxDeletedEntries (deleteRound 0)).flatten ++ deleteRound (tombstoneLifetime + 1)

/-- The state after `k` rounds, as far as the next `deletePath` looks at it. -/
structure AfterRounds (k : Nat) (h : StoreHistory) : Prop where
  absent : h.store.findFile "f" = none
  length : h.store.deletedEntries.length = k
  times : ∀ t ∈ h.store.deletedEntries, t.deleteTime = 0
  clock : h.clock = 0
  missing : h.missing = 0

theorem afterRounds_succ {k : Nat} {h : StoreHistory} (hk : k < maxDeletedEntries)
    (hh : AfterRounds k h) :
    ∃ h', exec step h (deleteRound 0) = some h' ∧ AfterRounds (k + 1) h' := by
  have hput := MetadataStore.findFile_putFile h.store "f"
    ⟨1, 1048576, [{ chunkId := "chunk_0", nodeIds := [1] }]⟩
  have hdel := (MetadataStore.deletePath_of_some _ "f" 0 0 hput).2
  rw [MetadataStore.deletedEntries_putFile, hh.length, if_neg (by omega)] at hdel
  refine ⟨_, by simp [deleteRound, exec, step, hh.clock]; rfl, ?_, ?_, ?_, rfl, ?_⟩
  · exact MetadataStore.findFile_deletePath _ _ _ _
  · simp [hdel, hh.length]
  · intro t ht
    rw [hdel] at ht
    rcases List.mem_append.mp ht with ht | ht
    · exact hh.times t ht
    · rw [List.mem_singleton.mp ht]
  · have := hh.missing
    simp only [StoreHistory.missing, hdel, List.length_append, List.length_singleton] at this ⊢
    omega

theorem afterRounds (k : Nat) (hk : k ≤ maxDeletedEntries) :
    ∃ h, exec step (init 0) (List.replicate k (deleteRound 0)).flatten = some h ∧ AfterRounds k h := by
  induction k with
  | zero => exact ⟨_, rfl, rfl, rfl, (fun t ht => by cases ht), rfl, rfl⟩
  | succ k ih =>
    obtain ⟨h, hrun, hh⟩ := ih (by omega)
    obtain ⟨h', hstep, hh'⟩ := afterRounds_succ (by omega) hh
    refine ⟨h', ?_, hh'⟩
    rw [List.replicate_succ', List.flatten_append, List.flatten_singleton, exec_append, hrun]
    exact hstep

/-- The 10001st tombstone makes `deletePath` drop the ten thousand expired ones,
which no `chunkDeleter` has seen. -/
theorem overflow_drops_tombstones :
    ∃ h, exec step (init 0) overflowRun = some h ∧ ¬ h.Reclaimed := by
  obtain ⟨h, hrun, hh⟩ := afterRounds maxDeletedEntries (le_refl _)
  generalize hput : h.store.putFile "f" ⟨1, 1048576, [{ chunkId := "chunk_0", nodeIds := [1] }]⟩ = s
  have hfind : s.findFile "f" = some ⟨1, 1048576, [{ chunkId := "chunk_0", nodeIds := [1] }]⟩ := by
    rw [← hput, MetadataStore.findFile_putFile]
  have hdeque : s.deletedEntries = h.store.deletedEntries := by rw [← hput]; rfl
  have hlast : ∃ h', step { h with store := s }
      (.deletePath "f" (tombstoneLifetime + 1) (tombstoneLifetime + 1)) = some h' := by
    simp only [step, hh.clock]
    exact ⟨_, if_pos (by decide)⟩
  obtain ⟨h', hlast⟩ := hlast
  refine ⟨h', ?_, fun hr => ?_⟩
  · rw [overflowRun, exec_append, hrun]
    simp only [deleteRound, exec, Option.bind_some]
    rw [show step h (.putFile "f" _) = some { h with store := s } by rw [← hput]; rfl]
    simp [hlast]
  · have hup := (missing_step hlast).2 (by
      simp only [NoOverflowDrop, hfind, hdeque, hh.length, Option.isSome_some, forall_const,
        le_refl, not_forall]
      cases hd : h.store.deletedEntries with
      | nil => exact absurd hh.length (by rw [hd]; decide)
      | cons t rest =>
        refine ⟨t, rfl, ?_⟩
        have ht := hh.times t (by rw [hd]; exact List.mem_cons_self)
        simp [Tombstone.expired, ht])
    rw [missing_eq_zero hr] at hup
    have h0 := hh.missing
    simp only [StoreHistory.missing, hdeque] at h0 hup
    omega

end StoreHistory

end ToyDfs
