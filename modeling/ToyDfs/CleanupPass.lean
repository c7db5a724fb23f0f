import ToyDfs.Coordinator

/-!
One cleanup pass, run without interference: what it sends to the datanodes, and
what becomes of the replicas it could not delete.

`passReplicas` is the work of the pass, the replicas of the expired tombstones
from the front of the deque on; `cleanupPass_attempts` says that the deleter
comes to each of them once, in this order.

* `notForgotten_iff_allConfirmed`: the pass forgets no failed deletion if and only
  if none fails.  The tombstones go whatever the datanodes answered.
-/

namespace ToyDfs

/-! ## What refers to a replica -/

/-- The metadata of an active file or of a tombstone. -/
def MetadataStore.Holds (s : MetadataStore) (fileMeta : FileMeta) : Prop :=
  (∃ path, s.findFile path = some fileMeta) ∨ ∃ t ∈ s.deletedEntries, t.fileMeta = fileMeta

/-- `home` says where the datanode of each node id is, also of the unregistered
ones; the registry agrees with it. -/
def HomesAgree (home : Int32 → Endpoint) (registry : Registry) : Prop :=
  ∀ nodeId info, registry.lookup nodeId = some info → info.endpoint = home nodeId

/-- Some metadata lists the chunk on a node whose datanode is at `ep`. -/
def Referenced (home : Int32 → Endpoint) (s : MetadataStore) (ep : Endpoint) (chunkId : String) : Prop :=
  ∃ fileMeta, s.Holds fileMeta ∧ ∃ nodeId, (chunkId, nodeId) ∈ fileMeta.replicas ∧ home nodeId = ep

/-- Every chunk on a datanode is one that some metadata lists there. -/
def NoOrphans (config : Endpoint → DataNodeConfig) (home : Int32 → Endpoint) (s : MetadataStore)
    (disks : Disks) : Prop :=
  ∀ ep n, (stored (config ep) (disks ep) (chunkName n)).isSome → Referenced home s ep (chunkName n)

/-! ## The work of a pass -/

/-- The replicas of the expired tombstones. -/
def passReplicas (now : TimePoint) (s : MetadataStore) : List (String × Int32) :=
  (s.deletedEntries.filter (Tombstone.expired now)).flatMap fun t => t.fileMeta.replicas

section
variable (config : Endpoint → DataNodeConfig)

/-- A deletion brings no chunk back. -/
theorem deleteReplica_none (registry : Registry) (fault : DeleteFault) (r : String × Int32)
    {disks : Disks} {ep : Endpoint} {chunkId : String} (h : stored (config ep) (disks ep) chunkId = none) :
    stored (config ep) (deleteReplica config registry fault r disks ep) chunkId = none := by
  unfold deleteReplica
  cases registry.lookup r.2 with
  | none => exact h
  | some info =>
    simp only
    by_cases hep : ep = info.endpoint
    · subst hep
      rw [Function.update_self]
      rcases stubDeleteChunk_disk (config info.endpoint) fault r.1 (disks info.endpoint) with
        hd | ⟨path, -, hd⟩
      · rw [hd]
        exact h
      · rw [hd]
        unfold stored at h ⊢
        cases hp : getChunkPath chunkId (config info.endpoint) with
        | error e => rfl
        | ok q =>
          rw [hp] at h
          by_cases hq : q = path
          · rw [hq]
            exact Function.update_self ..
          · exact (Function.update_of_ne hq ..).trans h
    · simp only [Function.update_of_ne hep]
      exact h

/-- It touches no other chunk. -/
theorem deleteReplica_other {n m : Nat} (hnm : m ≠ n) (registry : Registry) (fault : DeleteFault)
    (d : Int32) (disks : Disks) (ep : Endpoint) :
    stored (config ep) (deleteReplica config registry fault (chunkName n, d) disks ep) (chunkName m) =
      stored (config ep) (disks ep) (chunkName m) := by
  unfold deleteReplica
  cases registry.lookup d with
  | none => rfl
  | some info =>
    simp only
    by_cases hep : ep = info.endpoint
    · subst hep
      rw [Function.update_self]
      exact stubDeleteChunk_other hnm fault _
    · rw [Function.update_of_ne hep]

/-- Nor does it touch another datanode. -/
theorem deleteReplica_elsewhere {registry : Registry} (fault : DeleteFault) {r : String × Int32}
    (disks : Disks) {ep : Endpoint} (h : ∀ info, registry.lookup r.2 = some info → info.endpoint ≠ ep) :
    deleteReplica config registry fault r disks ep = disks ep := by
  unfold deleteReplica
  cases hl : registry.lookup r.2 with
  | none => rfl
  | some info => exact Function.update_of_ne (h info hl).symm ..

theorem deleteReplica_confirmed {registry : Registry} {fault : DeleteFault} {r : String × Int32}
    {info : DataNodeInfo} (disks : Disks) (hr : registry.lookup r.2 = some info)
    (hc : fault.confirms (config info.endpoint) r.1 = true) :
    stored (config info.endpoint) (deleteReplica config registry fault r disks info.endpoint) r.1 =
      none := by
  simp only [deleteReplica, hr, Function.update_self]
  exact stubDeleteChunk_confirmed _ hc

variable (env : CleanupEnv) (registry : Registry)

/-- The registry the deleter finds at replica `n` of a pass, when it has come to
`w.attempts.length` replicas already. -/
def Follows (w : CleanupWorld) : Prop :=
  env.change w.attempts.length w.registry = registryAt env.change registry w.attempts.length

theorem follows_deleterStep {w : CleanupWorld} (r : String × Int32) (h : Follows env registry w) :
    Follows env registry (deleterStep config env w r) := by
  unfold Follows at h ⊢
  simp only [deleterStep, List.length_append, List.length_singleton]
  rw [h]
  rfl

/-- The deleter's loop makes one attempt for each replica, in order. -/
theorem foldl_deleterStep_attempts (rs : List (String × Int32)) {w : CleanupWorld}
    (hw : Follows env registry w) :
    (rs.foldl (deleterStep config env) w).attempts =
      w.attempts ++ (rs.zipIdx w.attempts.length).map fun p =>
        deleteAttempt config (registryAt env.change registry p.2) (env.fault p.2) p.1 := by
  induction rs generalizing w with
  | nil => simp
  | cons r rs ih =>
    rw [List.foldl_cons, ih (follows_deleterStep config env registry r hw), List.zipIdx_cons,
      List.map_cons, ← hw]
    simp [deleterStep]

theorem foldl_deleterStep_none (rs : List (String × Int32)) (w : CleanupWorld) {ep : Endpoint}
    {chunkId : String} (h : stored (config ep) (w.disks ep) chunkId = none) :
    stored (config ep) ((rs.foldl (deleterStep config env) w).disks ep) chunkId = none := by
  induction rs generalizing w with
  | nil => exact h
  | cons r rs ih => exact ih _ (deleteReplica_none config _ _ r h)

/-- A confirmed deletion is one for the rest of the loop. -/
theorem foldl_deleterStep_confirmed (rs : List (String × Int32)) {w : CleanupWorld}
    (hw : Follows env registry w) {n : Nat} {r : String × Int32} {info : DataNodeInfo}
    (hn : rs[n]? = some r)
    (hr : (registryAt env.change registry (w.attempts.length + n)).lookup r.2 = some info)
    (hc : (env.fault (w.attempts.length + n)).confirms (config info.endpoint) r.1 = true) :
    stored (config info.endpoint)
      ((rs.foldl (deleterStep config env) w).disks info.endpoint) r.1 = none := by
  induction rs generalizing w n with
  | nil => cases hn
  | cons r' rs ih =>
    rw [List.foldl_cons]
    cases n with
    | zero =>
      cases hn
      rw [Nat.add_zero, ← hw] at hr
      exact foldl_deleterStep_none config env rs _ (deleteReplica_confirmed config w.disks hr hc)
    | succ n =>
      have hlen : (deleterStep config env w r').attempts.length + n = w.attempts.length + (n + 1) := by
        simp [deleterStep]
        omega
      apply ih (follows_deleterStep config env registry r' hw) hn
      · rw [hlen]
        exact hr
      · rw [hlen]
        exact hc

end

section
variable (config : Endpoint → DataNodeConfig) (env : CleanupEnv) (now : TimePoint) (c : Cluster)

/-- What the pass starts from. -/
def passStart : CleanupWorld :=
  { registry := c.registeredNodes, disks := c.disks, attempts := [] }

theorem follows_passStart : Follows env c.registeredNodes (passStart c) := rfl

/-- The deleter runs over the replicas of the expired tombstones. -/
theorem cleanupTombstones_chunkDeleter (s : MetadataStore) (w : CleanupWorld) :
    (s.cleanupTombstones now (some (chunkDeleter config env)) w).2 =
      (passReplicas now s).foldl (deleterStep config env) w := by
  simp only [MetadataStore.cleanupTombstones_world, passReplicas, List.foldl_flatMap,
    List.foldl_map, chunkDeleter]

theorem cleanupPass_disks :
    (cleanupPass config env now c).1.disks =
      ((passReplicas now c.store).foldl (deleterStep config env) (passStart c)).disks := by
  rw [← cleanupTombstones_chunkDeleter]
  rfl

/-- **A pass comes to every replica of every expired tombstone.** -/
theorem cleanupPass_attempts :
    (cleanupPass config env now c).2 =
      (passReplicas now c.store).zipIdx.map fun p =>
        deleteAttempt config (registryAt env.change c.registeredNodes p.2) (env.fault p.2) p.1 := by
  have h : (cleanupPass config env now c).2 =
      ((passReplicas now c.store).foldl (deleterStep config env) (passStart c)).attempts := by
    rw [← cleanupTombstones_chunkDeleter]
    rfl
  rw [h, foldl_deleterStep_attempts config env c.registeredNodes _ (follows_passStart env c)]
  simp [passStart]

/-- It drops the expired tombstones, whatever came of the deletions. -/
theorem cleanupPass_deletedEntries :
    (cleanupPass config env now c).1.store.deletedEntries =
      c.store.deletedEntries.filter fun t => !t.expired now := by
  simp only [cleanupPass, MetadataStore.deletedEntries_cleanupTombstones]

theorem cleanupPass_findFile (path : String) :
    (cleanupPass config env now c).1.store.findFile path = c.store.findFile path := by
  simp only [cleanupPass, MetadataStore.findFile, MetadataStore.entries_cleanupTombstones]

theorem cleanupPass_none {ep : Endpoint} {chunkId : String}
    (h : stored (config ep) (c.disks ep) chunkId = none) :
    stored (config ep) ((cleanupPass config env now c).1.disks ep) chunkId = none := by
  rw [cleanupPass_disks]
  exact foldl_deleterStep_none config env _ (passStart c) h

theorem cleanupPass_confirmed {n : Nat} {r : String × Int32} {info : DataNodeInfo}
    (hn : (passReplicas now c.store)[n]? = some r)
    (hr : (registryAt env.change c.registeredNodes n).lookup r.2 = some info)
    (hc : (env.fault n).confirms (config info.endpoint) r.1 = true) :
    stored (config info.endpoint) ((cleanupPass config env now c).1.disks info.endpoint) r.1 =
      none := by
  rw [cleanupPass_disks]
  exact foldl_deleterStep_confirmed config env c.registeredNodes _ (follows_passStart env c) hn
    (by simpa [passStart] using hr) (by simpa [passStart] using hc)

end

/-! ## Failed deletions -/

/-- Tombstones go only when every replica they list was confirmed deleted, and no
replica is left behind. -/
structure NotForgotten (config : Endpoint → DataNodeConfig) (home : Int32 → Endpoint)
    (env : CleanupEnv) (now : TimePoint) (c : Cluster) : Prop where
  removed_confirmed : ∀ t ∈ c.store.deletedEntries,
    t ∉ (cleanupPass config env now c).1.store.deletedEntries →
      ∀ r ∈ t.fileMeta.replicas, ∃ a ∈ (cleanupPass config env now c).2,
        (a.chunkId, a.nodeId) = r ∧ a.confirmed = true
  no_orphans : NoOrphans config home c.store c.disks →
    NoOrphans config home (cleanupPass config env now c).1.store
      (cleanupPass config env now c).1.disks

/-- Every replica of an expired tombstone is on a registered node, and one of the
`DeleteChunk` calls for it is delivered, carried out and answered with success. -/
def AllConfirmed (config : Endpoint → DataNodeConfig) (env : CleanupEnv) (now : TimePoint)
    (c : Cluster) : Prop :=
  ∀ r ∈ passReplicas now c.store, ∃ n, (passReplicas now c.store)[n]? = some r ∧
    ∃ info, (registryAt env.change c.registeredNodes n).lookup r.2 = some info ∧
      (env.fault n).confirms (config info.endpoint) r.1 = true

theorem mem_passReplicas {now : TimePoint} {s : MetadataStore} {r : String × Int32} :
    r ∈ passReplicas now s ↔
      ∃ t ∈ s.deletedEntries, t.expired now = true ∧ r ∈ t.fileMeta.replicas := by
  simp only [passReplicas, List.mem_flatMap, List.mem_filter, and_assoc]

/-- The attempts that were confirmed, in terms of the outcomes. -/
theorem mem_cleanupPass_confirmed {config : Endpoint → DataNodeConfig} {env : CleanupEnv}
    {now : TimePoint} {c : Cluster} {r : String × Int32} :
    (∃ a ∈ (cleanupPass config env now c).2, (a.chunkId, a.nodeId) = r ∧ a.confirmed = true) ↔
      ∃ n, (passReplicas now c.store)[n]? = some r ∧
        ∃ info, (registryAt env.change c.registeredNodes n).lookup r.2 = some info ∧
          (env.fault n).confirms (config info.endpoint) r.1 = true := by
  rw [cleanupPass_attempts]
  constructor
  · rintro ⟨a, ha, hr, hc⟩
    obtain ⟨⟨r', n⟩, hp, rfl⟩ := List.mem_map.mp ha
    rw [List.mk_mem_zipIdx_iff_getElem?] at hp
    cases hl : (registryAt env.change c.registeredNodes n).lookup r'.2 with
    | none => simp [deleteAttempt, hl] at hc
    | some info =>
      simp only [deleteAttempt, hl] at hr hc
      subst hr
      exact ⟨n, hp, info, hl, hc⟩
  · rintro ⟨n, hn, info, hl, hc⟩
    refine ⟨deleteAttempt config (registryAt env.change c.registeredNodes n) (env.fault n) r,
      List.mem_map.mpr ⟨(r, n), List.mk_mem_zipIdx_iff_getElem?.mpr hn, rfl⟩, ?_, ?_⟩
    · simp only [deleteAttempt, hl]
    · simp only [deleteAttempt, hl, hc]

/-- With every deletion confirmed, the pass leaves no orphan. -/
theorem noOrphans_cleanupPass {config : Endpoint → DataNodeConfig} {home : Int32 → Endpoint}
    {env : CleanupEnv} {now : TimePoint} {c : Cluster}
    (hhome : ∀ n, HomesAgree home (registryAt env.change c.registeredNodes n))
    (hall : AllConfirmed config env now c) (h : NoOrphans config home c.store c.disks) :
    NoOrphans config home (cleanupPass config env now c).1.store
      (cleanupPass config env now c).1.disks := by
  intro ep n hs
  have hbefore : (stored (config ep) (c.disks ep) (chunkName n)).isSome := by
    rw [Option.isSome_iff_ne_none] at hs ⊢
    exact fun hnone => hs (cleanupPass_none config env now c hnone)
  obtain ⟨fileMeta, hholds, nodeId, hmem, rfl⟩ := h ep n hbefore
  refine ⟨fileMeta, ?_, nodeId, hmem, rfl⟩
  rcases hholds with ⟨path, hpath⟩ | ⟨t, ht, rfl⟩
  · left
    exact ⟨path, by rw [cleanupPass_findFile, hpath]⟩
  · right
    refine ⟨t, ?_, rfl⟩
    rw [cleanupPass_deletedEntries, List.mem_filter]
    refine ⟨ht, ?_⟩
    -- an expired tombstone had this replica deleted
    by_contra hexp
    have hr := mem_passReplicas.mpr ⟨t, ht, by simpa using hexp, hmem⟩
    obtain ⟨k, hk, info, hl, hc⟩ := hall _ hr
    have hgone := cleanupPass_confirmed config env now c hk hl hc
    rw [hhome _ _ _ hl] at hgone
    rw [hgone] at hs
    cases hs

/-! ## Top theorem -/

/-- **A pass forgets no failed deletion iff there is none.** -/
theorem notForgotten_iff_allConfirmed (config : Endpoint → DataNodeConfig) (home : Int32 → Endpoint)
    (env : CleanupEnv) (now : TimePoint) (c : Cluster)
    (hhome : ∀ n, HomesAgree home (registryAt env.change c.registeredNodes n)) :
    NotForgotten config home env now c ↔ AllConfirmed config env now c := by
  constructor
  · intro h r hr
    obtain ⟨t, ht, hexp, hmem⟩ := mem_passReplicas.mp hr
    have hgone : t ∉ (cleanupPass config env now c).1.store.deletedEntries := by
      rw [cleanupPass_deletedEntries, List.mem_filter]
      simp [hexp]
    exact mem_cleanupPass_confirmed.mp (h.removed_confirmed t ht hgone r hmem)
  · intro hall
    refine ⟨?_, noOrphans_cleanupPass hhome hall⟩
    intro t ht hgone r hr
    rw [cleanupPass_deletedEntries, List.mem_filter] at hgone
    have hexp : t.expired now = true := by
      by_contra hexp
      exact hgone ⟨ht, by simpa using hexp⟩
    exact mem_cleanupPass_confirmed.mpr (hall r (mem_passReplicas.mpr ⟨t, ht, hexp, hr⟩))

/-- One datanode, registered as node 1, with the chunk of a file deleted at time 0. -/
def oneTombstone : Cluster where
  store := { MetadataStore.empty with
    deletedEntries := [⟨"f", ⟨1, 1048576, [{ chunkId := "chunk_0", nodeIds := [1] }]⟩, 0⟩]
    tombstoneCount := 1 }
  registeredNodes := (∅ : Registry).insert 1 ⟨1, "a", 1⟩
  nextNodeId := 2
  nextNodeIndex := 1
  chunkIdCounter := 1
  running := true
  disks := fun ep path =>
    if ep = ⟨"a", 1⟩ ∧ path = "/tmp/dfs_chunks/0/0/0.cfile" then some [7] else none

theorem homesAgree_oneTombstone (n : Nat) :
    HomesAgree (fun _ => ⟨"a", 1⟩) (registryAt (fun _ r => r) oneTombstone.registeredNodes n) := by
  intro nodeId info h
  rw [registryAt_unchanged] at h
  by_cases hn : nodeId = 1
  · subst hn
    simp only [oneTombstone, AList.lookup_insert] at h
    cases h
    rfl
  · simp only [oneTombstone, AList.lookup_insert_ne hn, AList.lookup_empty] at h
    cases h

/-- With every call answered with success, the tombstone's replica is gone. -/
theorem notForgotten_oneTombstone :
    NotForgotten (fun _ => {}) (fun _ => ⟨"a", 1⟩) { fault := fun _ => {} } (tombstoneLifetime + 1)
      oneTombstone := by
  rw [notForgotten_iff_allConfirmed _ _ _ _ _ homesAgree_oneTombstone]
  intro r hr
  have hw : passReplicas (tombstoneLifetime + 1) oneTombstone.store = [("chunk_0", 1)] := by decide
  rw [hw, List.mem_singleton] at hr
  subst hr
  refine ⟨0, by rw [hw]; rfl, ⟨1, "a", 1⟩, ?_, by decide⟩
  exact AList.lookup_insert _

/-- A datanode that answers `success = false`: the tombstone goes, the chunk stays. -/
theorem forgotten_oneTombstone :
    ¬ NotForgotten (fun _ => {}) (fun _ => ⟨"a", 1⟩)
      { fault := fun _ => { removeFails := some "Permission denied" } } (tombstoneLifetime + 1)
      oneTombstone := by
  intro h
  have hgone := h.removed_confirmed
    ⟨"f", ⟨1, 1048576, [{ chunkId := "chunk_0", nodeIds := [1] }]⟩, 0⟩ (by decide) (by decide)
    ("chunk_0", 1) (by decide)
  revert hgone
  decide

end ToyDfs
