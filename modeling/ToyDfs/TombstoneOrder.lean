import ToyDfs.StoreRuns

/-!
The two tombstone cleanups, and the tombstone counter.

The deque is in the order of the deletion times, so the expired tombstones are a
prefix of it: `cleanupOldTombstones`, which stops at the first one that is not
expired, leaves the same store as the full scan (`pop_eq_sweep`).  The counter is
the length of the deque modulo `2^64`; inside `deletePath` it is one behind while
the overflow cleanup runs (`popExpired_count`).

`cleanupsAgree_of_run`: all of it in every state of every run.
-/

namespace ToyDfs

open Transition

/-! ## One deque -/

/-- Oldest first. -/
def Oldest (l : List Tombstone) : Prop := l.Pairwise fun t t' => t.deleteTime ≤ t'.deleteTime

theorem expired_of_le {now : TimePoint} {t t' : Tombstone} (h : t.deleteTime ≤ t'.deleteTime)
    (ht : t'.expired now = true) : t.expired now = true := by
  simp only [Tombstone.expired, decide_eq_true_eq] at ht ⊢
  exact lt_of_lt_of_le ht (Int.sub_le_sub_left h now)

/-- **In an ordered deque the expired tombstones come first.** -/
theorem dropWhile_expired {l : List Tombstone} (h : Oldest l) (now : TimePoint) :
    l.dropWhile (Tombstone.expired now) = l.filter fun t => !t.expired now := by
  induction l with
  | nil => rfl
  | cons t rest ih =>
    obtain ⟨hle, hrest⟩ := List.pairwise_cons.mp h
    by_cases ht : t.expired now = true
    · rw [List.dropWhile_cons_of_pos ht, List.filter_cons_of_neg (by simp [ht])]
      exact ih hrest
    · have hall : ∀ t' ∈ t :: rest, (!t'.expired now) = true := by
        intro t' ht'
        rw [Bool.not_eq_true', ← Bool.not_eq_true]
        rcases List.mem_cons.mp ht' with rfl | ht'
        · exact ht
        · exact fun hexp => ht (expired_of_le (hle t' ht') hexp)
      rw [List.dropWhile_cons_of_neg ht, List.filter_eq_self.mpr hall]

/-- The front loop keeps the distance `d` between the counter and the length. -/
theorem popExpired_count (now : TimePoint) (d : UInt64) (l : List Tombstone) (n : UInt64)
    (h : n + d = UInt64.ofNat l.length) :
    (MetadataStore.popExpired now l n).2 + d =
      UInt64.ofNat (MetadataStore.popExpired now l n).1.length := by
  induction l generalizing n with
  | nil => exact h
  | cons t rest ih =>
    unfold MetadataStore.popExpired
    split
    · apply ih
      rw [List.length_cons, UInt64.ofNat_add] at h
      grind
    · exact h

/-- And so does the scan. -/
theorem sweepExpired_length {ω : Type} (now : TimePoint) (del : Option (FileMeta → ω → ω)) (d : UInt64)
    (l : List Tombstone) (n : UInt64) (w : ω) (h : n + d = UInt64.ofNat l.length) :
    (MetadataStore.sweepExpired now del l n w).2.1 + d =
      UInt64.ofNat (MetadataStore.sweepExpired now del l n w).1.length := by
  induction l generalizing n d w with
  | nil => exact h
  | cons t rest ih =>
    rw [List.length_cons, UInt64.ofNat_add] at h
    unfold MetadataStore.sweepExpired
    by_cases ht : t.expired now = true
    · rw [if_pos ht]
      apply ih
      grind
    · have hrest := ih (d - 1) n w (by grind)
      rw [if_neg ht]
      simp only [List.length_cons, UInt64.ofNat_add]
      grind

/-- **The two cleanups leave the same store**, when the deque is ordered and counted. -/
theorem pop_eq_sweep {ω : Type} {s : MetadataStore} (hold : Oldest s.deletedEntries)
    (hcount : s.tombstoneCount = UInt64.ofNat s.deletedEntries.length) (now : TimePoint)
    (del : Option (FileMeta → ω → ω)) (w : ω) :
    s.cleanupOldTombstones now = (s.cleanupOldTombstonesInternal now del w).1 := by
  have hdeque : (MetadataStore.popExpired now s.deletedEntries s.tombstoneCount).1 =
      (MetadataStore.sweepExpired now del s.deletedEntries s.tombstoneCount w).1 := by
    rw [MetadataStore.popExpired_fst, MetadataStore.sweepExpired_fst, dropWhile_expired hold]
  have hzero : s.tombstoneCount + 0 = UInt64.ofNat s.deletedEntries.length := by
    rw [UInt64.add_zero, hcount]
  have hpop := popExpired_count now 0 s.deletedEntries s.tombstoneCount hzero
  have hsweep := sweepExpired_length now del 0 s.deletedEntries s.tombstoneCount w hzero
  rw [hdeque] at hpop
  rw [UInt64.add_zero] at hpop hsweep
  simp only [MetadataStore.cleanupOldTombstones, MetadataStore.cleanupOldTombstonesInternal, hdeque,
    hpop, hsweep]

/-! ## Runs -/

/-- What holds whenever the lock is free: the deque is ordered, none of it is from
the future, and it is counted. -/
structure QueueInv (h : StoreHistory) : Prop where
  oldest : Oldest h.store.deletedEntries
  past : ∀ t ∈ h.store.deletedEntries, t.deleteTime ≤ h.clock
  count : h.store.tombstoneCount = UInt64.ofNat h.store.deletedEntries.length

theorem QueueInv.snoc {h : StoreHistory} (hq : QueueInv h) {t : Tombstone} (ht : h.clock ≤ t.deleteTime) :
    Oldest (h.store.deletedEntries ++ [t]) := by
  refine List.pairwise_append.mpr ⟨hq.oldest, List.pairwise_singleton _ _, ?_⟩
  intro t' ht' u hu
  rw [List.mem_singleton.mp hu]
  exact le_trans (hq.past t' ht') ht

/-- The counter after `deletePath` of an active file. -/
theorem count_deletePath {s : MetadataStore} {path : String} {deleteTime now : TimePoint} {m : FileMeta}
    (hm : s.findFile path = some m) (hcount : s.tombstoneCount = UInt64.ofNat s.deletedEntries.length) :
    (s.deletePath path deleteTime now).tombstoneCount =
      UInt64.ofNat (s.deletePath path deleteTime now).deletedEntries.length := by
  have hbehind : s.tombstoneCount + 1 =
      UInt64.ofNat (s.deletedEntries ++ [Tombstone.mk path m deleteTime]).length := by
    rw [hcount, List.length_append, UInt64.ofNat_add]
    rfl
  simp only [MetadataStore.deletePath, hm]
  split
  · exact popExpired_count now 1 _ _ hbehind
  · exact hbehind

theorem queueInv_deletePath {h : StoreHistory} {path : String} {deleteTime now : TimePoint} {m : FileMeta}
    (hq : QueueInv h) (hm : h.store.findFile path = some m) (hle : h.clock ≤ deleteTime)
    (hnow : deleteTime ≤ now) (moved : List FileMeta) :
    QueueInv { h with store := h.store.deletePath path deleteTime now, clock := now, moved := moved } := by
  have hdeque := (MetadataStore.deletePath_of_some h.store path deleteTime now hm).2
  have hsub : (h.store.deletePath path deleteTime now).deletedEntries.Sublist
      (h.store.deletedEntries ++ [Tombstone.mk path m deleteTime]) := by
    rw [hdeque]
    split
    · exact List.dropWhile_sublist _
    · exact List.Sublist.refl _
  refine ⟨(hq.snoc (t := Tombstone.mk path m deleteTime) hle).sublist hsub, ?_, count_deletePath hm hq.count⟩
  intro t ht
  rcases List.mem_append.mp (hsub.subset ht) with ht | ht
  · exact le_trans (hq.past t ht) (le_trans hle hnow)
  · rw [List.mem_singleton.mp ht]
    exact hnow

/-- **One operation.** -/
theorem queueInv_step {h h' : StoreHistory} {op : StoreOp} (hs : h.step op = some h') (hq : QueueInv h) :
    QueueInv h' := by
  cases op with
  | putFile path m => cases hs; exact ⟨hq.oldest, hq.past, hq.count⟩
  | getFile path => cases hs; exact ⟨hq.oldest, hq.past, hq.count⟩
  | existsPath path => cases hs; exact ⟨hq.oldest, hq.past, hq.count⟩
  | deletePath path deleteTime now =>
    simp only [StoreHistory.step] at hs
    split at hs
    · next hclock =>
      cases hs
      cases hm : h.store.findFile path with
      | none =>
        rw [MetadataStore.deletePath_of_none _ _ _ _ hm]
        exact ⟨hq.oldest, fun t ht => le_trans (hq.past t ht) (le_trans hclock.1 hclock.2), hq.count⟩
      | some m => exact queueInv_deletePath hq hm hclock.1 hclock.2 _
    · cases hs
  | cleanupTombstones now =>
    simp only [StoreHistory.step] at hs
    split at hs
    · next hclock =>
      cases hs
      refine ⟨?_, ?_, ?_⟩
      · simp only [MetadataStore.deletedEntries_cleanupTombstones]
        exact hq.oldest.sublist List.filter_sublist
      · intro t ht
        simp only [MetadataStore.deletedEntries_cleanupTombstones] at ht
        exact le_trans (hq.past t (List.mem_filter.mp ht).1) hclock
      · have hlen := sweepExpired_length now
          (some fun fileMeta passed => passed ++ [fileMeta]) 0 h.store.deletedEntries
          h.store.tombstoneCount h.passed (by rw [UInt64.add_zero, hq.count])
        rwa [UInt64.add_zero] at hlen
    · cases hs

theorem queueInv_init (start : TimePoint) : QueueInv (.init start) :=
  ⟨List.Pairwise.nil, (fun t ht => by cases ht), rfl⟩

/-- The tombstones of a store whenever its lock is free, and after the next
`deletePath`. -/
structure CleanupsAgree (h : StoreHistory) : Prop where
  oldest : Oldest h.store.deletedEntries
  agree : ∀ (now : TimePoint) (ω : Type) (del : Option (FileMeta → ω → ω)) (w : ω),
    h.store.cleanupOldTombstones now = (h.store.cleanupOldTombstonesInternal now del w).1
  kept : ∀ now, (h.store.cleanupOldTombstones now).deletedEntries =
    h.store.deletedEntries.filter fun t => !t.expired now
  count : h.store.tombstoneCount = UInt64.ofNat h.store.deletedEntries.length
  bounded : ∀ path deleteTime now h', (h.store.findFile path).isSome →
    h.step (.deletePath path deleteTime now) = some h' →
      h'.store.deletedEntries.length ≤ maxDeletedEntries ∨
        ∀ t ∈ h'.store.deletedEntries, t.expired now = false

/-- A `deletePath` leaves the deque short enough, or with nothing expired. -/
theorem QueueInv.bounded {h h' : StoreHistory} {path : String} {deleteTime now : TimePoint}
    (hq : QueueInv h) (hfound : (h.store.findFile path).isSome)
    (hs : h.step (.deletePath path deleteTime now) = some h') :
    h'.store.deletedEntries.length ≤ maxDeletedEntries ∨
      ∀ t ∈ h'.store.deletedEntries, t.expired now = false := by
  obtain ⟨m, hm⟩ := Option.isSome_iff_exists.mp hfound
  simp only [StoreHistory.step] at hs
  split at hs
  · next hclock =>
    cases hs
    have hdeque := (MetadataStore.deletePath_of_some h.store path deleteTime now hm).2
    by_cases hlen : maxDeletedEntries ≤ h.store.deletedEntries.length
    · rw [if_pos hlen, dropWhile_expired (hq.snoc hclock.1)] at hdeque
      right
      intro t ht
      simp only [hdeque, List.mem_filter, Bool.not_eq_true'] at ht
      exact ht.2
    · rw [if_neg hlen] at hdeque
      left
      simp only [hdeque, List.length_append, List.length_singleton]
      omega
  · cases hs

/-- **The two cleanups agree and the counter is exact**, in every state of every run
from an empty store under a clock that never goes back. -/
theorem cleanupsAgree_of_run (start : TimePoint) (ops : List StoreOp) (h : StoreHistory)
    (hrun : exec StoreHistory.step (.init start) ops = some h) : CleanupsAgree h := by
  have hq : QueueInv h := exec_invariant (fun _ _ _ => queueInv_step) ops hrun (queueInv_init start)
  refine ⟨hq.oldest, fun now ω del w => pop_eq_sweep hq.oldest hq.count now del w, ?_, hq.count, ?_⟩
  · intro now
    rw [pop_eq_sweep hq.oldest hq.count now (none : Option (FileMeta → Unit → Unit)) ()]
    exact MetadataStore.sweepExpired_fst now none _ _ ()
  · intro path deleteTime now h' hfound hs
    exact hq.bounded hfound hs

/-- Three files are uploaded and deleted, with a cleanup in between; when the last one
goes, the tombstone of the first has expired. -/
def threeDeletions : List StoreOp :=
  [.putFile "f" ⟨1, 1048576, [{ chunkId := "chunk_0", nodeIds := [1] }]⟩, .deletePath "f" 0 0,
    .putFile "g" ⟨1, 1048576, [{ chunkId := "chunk_1", nodeIds := [1] }]⟩, .deletePath "g" 10 10,
    .cleanupTombstones 20,
    .putFile "h" ⟨1, 1048576, [{ chunkId := "chunk_2", nodeIds := [1] }]⟩,
    .deletePath "h" (tombstoneLifetime + 5) (tombstoneLifetime + 5)]

theorem cleanupsAgree_threeDeletions : ∃ h,
    exec StoreHistory.step (.init 0) threeDeletions = some h ∧
      h.store.deletedEntries.map (fun t => (t.path, t.expired h.clock)) =
        [("f", true), ("g", false), ("h", false)] ∧
      CleanupsAgree h := by
  have hrun : (exec StoreHistory.step (.init 0) threeDeletions).map
      (fun h => h.store.deletedEntries.map fun t => (t.path, t.expired h.clock)) =
      some [("f", true), ("g", false), ("h", false)] := by decide
  obtain ⟨h, hs, hdeque⟩ := Option.map_eq_some_iff.mp hrun
  exact ⟨h, hs, hdeque, cleanupsAgree_of_run 0 threeDeletions h hs⟩

end ToyDfs
