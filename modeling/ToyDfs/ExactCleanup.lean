import ToyDfs.Replicas
import ToyDfs.CheckThenAct

/-!
One cleanup pass while uploads and deletions go on.

`PassInv`: the pass works off the replicas of the tombstones that were expired when it
read the clock, issues a deletion for each that is on a registered node, and what was
confirmed deleted stays away, since no upload in progress has these chunk ids.
`exactPass_of_reachable` puts together what a pass does and what it leaves alone.
-/

namespace ToyDfs

open Transition

/-! ## A pass -/

/-- What may happen during a pass: steps of `PutFile` and `DeleteFile`, and of the pass
itself.  The registry stays as it is. -/
def DuringPass : Action → Prop
  | .registerInsert _ => False
  | .unregister _ => False
  | .cleanupEnd => False
  | _ => True

/-- The step is a replica write of this chunk. -/
def WritesChunk (chunkId : String) (s : System) (a : Action) : Prop :=
  ∃ h j fault call nodeIds results, a = .putStore h j fault ∧ s.puts h = some call ∧
    call.phase = .placed chunkId nodeIds results

/-- `DeleteChunk` was issued for this chunk to this node. -/
def Pass.IssuedTo (p : Pass) (chunkId : String) (nodeId : Int32) : Prop :=
  ∃ a ∈ p.attempts, a.chunkId = chunkId ∧ a.nodeId = nodeId ∧ a.issued = true

section
variable (config : Endpoint → DataNodeConfig) (s₀ : System)

/-- How far a pass is that began in `s₀`. -/
structure PassInv (s : System) (p : Pass) : Prop where
  now : p.now = s₀.clock
  files : ∀ path, s.store.findFile path = s₀.store.findFile path
  tombstones : s.store.deletedEntries = s₀.store.deletedEntries
  registry : s.registeredNodes = s₀.registeredNodes
  visited : passReplicas s₀.clock s₀.store =
    p.attempts.map (fun a => (a.chunkId, a.nodeId)) ++ p.todo
  issued : ∀ a ∈ p.attempts, a.issued = (s₀.registeredNodes.lookup a.nodeId).isSome
  gone : ∀ a ∈ p.attempts, a.confirmed = true → ∀ info,
    s₀.registeredNodes.lookup a.nodeId = some info →
      stored (config info.endpoint) (s.disks info.endpoint) a.chunkId = none

/-- Chunk `n` is where it was, but for the nodes it was deleted on. -/
def KeptBut (n : Nat) (s : System) (p : Pass) : Prop :=
  ∀ ep, (∀ d info, p.IssuedTo (chunkName n) d → s₀.registeredNodes.lookup d = some info →
    info.endpoint ≠ ep) →
      stored (config ep) (s.disks ep) (chunkName n) = stored (config ep) (s₀.disks ep) (chunkName n)

end

section
variable {config : Endpoint → DataNodeConfig} {s₀ s t : System} {p : Pass}

theorem mem_replicas {fileMeta : FileMeta} {chunkId : String} {d : Int32} :
    (chunkId, d) ∈ fileMeta.replicas ↔
      ∃ chunk ∈ fileMeta.chunks, chunk.chunkId = chunkId ∧ d ∈ chunk.nodeIds := by
  simp only [FileMeta.replicas, List.mem_flatMap, List.mem_map, Prod.mk.injEq]
  constructor
  · rintro ⟨chunk, hchunk, d', hd, rfl, rfl⟩
    exact ⟨chunk, hchunk, rfl, hd⟩
  · rintro ⟨chunk, hchunk, rfl, hd⟩
    exact ⟨chunk, hchunk, d, hd, rfl, rfl⟩

theorem passInv_begin (hpass : s₀.cleanupBegin = some s) :
    ∃ p, s.pass = some p ∧ PassInv config s₀ s p ∧ ∀ n, KeptBut config s₀ n s p := by
  unfold System.cleanupBegin at hpass
  split at hpass
  · cases hpass
  · split at hpass
    · cases hpass
      refine ⟨_, rfl, ⟨rfl, fun _ => rfl, rfl, rfl, rfl, ?_, ?_⟩, fun _ _ _ => rfl⟩
      · exact fun a ha => nomatch ha
      · exact fun a ha => nomatch ha
    · cases hpass

/-- Steps of other handlers. -/
theorem PassInv.frame (h : PassInv config s₀ s p)
    (hfiles : ∀ path, t.store.findFile path = s.store.findFile path)
    (htombs : t.store.deletedEntries = s.store.deletedEntries)
    (hregistry : t.registeredNodes = s.registeredNodes)
    (hkeep : ∀ a ∈ p.attempts, Keeps config s t a.chunkId) : PassInv config s₀ t p := by
  refine ⟨h.now, fun path => (hfiles path).trans (h.files path), htombs.trans h.tombstones,
    hregistry.trans h.registry, h.visited, h.issued, ?_⟩
  intro a ha hc info hl
  exact (hkeep a ha info.endpoint).trans (h.gone a ha hc info hl)

/-- What a pass comes to belongs to a tombstone. -/
theorem PassInv.owner_of_replica {owner : String → Owner} (h : PassInv config s₀ s p)
    (ho : Owned s owner) {r : String × Int32} (hr : r ∈ passReplicas s₀.clock s₀.store) :
    ∃ deleteTime, owner r.1 = .tombstones deleteTime := by
  obtain ⟨x, hx, -, hmem⟩ := mem_passReplicas.mp hr
  rw [← h.tombstones] at hx
  refine ⟨x.deleteTime, ho.tombstones x hx _ ?_⟩
  obtain ⟨chunk, hchunk, hmem⟩ := List.mem_flatMap.mp hmem
  obtain ⟨d, -, rfl⟩ := List.mem_map.mp hmem
  exact List.mem_map_of_mem hchunk

theorem PassInv.mem_of_attempt (h : PassInv config s₀ s p) {a : DeleteAttempt} (ha : a ∈ p.attempts) :
    (a.chunkId, a.nodeId) ∈ passReplicas s₀.clock s₀.store := by
  rw [h.visited]
  exact List.mem_append_left _ (List.mem_map_of_mem ha)

theorem PassInv.mem_of_todo (h : PassInv config s₀ s p) {r : String × Int32} (hr : r ∈ p.todo) :
    r ∈ passReplicas s₀.clock s₀.store := by
  rw [h.visited]
  exact List.mem_append_right _ hr

theorem deleteAttempt_replica (registry : Registry) (fault : DeleteFault) (r : String × Int32) :
    (deleteAttempt config registry fault r).chunkId = r.1 ∧
      (deleteAttempt config registry fault r).nodeId = r.2 ∧
      (deleteAttempt config registry fault r).issued = (registry.lookup r.2).isSome := by
  unfold deleteAttempt
  cases registry.lookup r.2 <;> exact ⟨rfl, rfl, rfl⟩

theorem PassInv.chunkName_of_todo {owner : String → Owner} (h : PassInv config s₀ s p) (ho : Owned s owner)
    {r : String × Int32} (hr : r ∈ p.todo) : ∃ m, r.1 = chunkName m := by
  obtain ⟨deleteTime, howner⟩ := h.owner_of_replica ho (h.mem_of_todo hr)
  obtain ⟨m, -, hm⟩ := ho.drawn r.1 (by rw [howner]; nofun)
  exact ⟨m, hm⟩

/-- The pass comes to its next replica. -/
theorem passInv_chunkDeleted {now : TimePoint} {r : String × Int32} {todo : List (String × Int32)}
    {attempts : List DeleteAttempt} {fault : DeleteFault} (h : PassInv config s₀ s ⟨now, r :: todo, attempts⟩)
    (hstore : t.store = s.store) (hregistry : t.registeredNodes = s.registeredNodes)
    (hdisks : t.disks = deleteReplica config s.registeredNodes fault r s.disks) :
    PassInv config s₀ t ⟨now, todo, attempts ++ [deleteAttempt config s.registeredNodes fault r]⟩ := by
  obtain ⟨hid, hnode, hissued⟩ := @deleteAttempt_replica config s.registeredNodes fault r
  refine ⟨h.now, ?_, ?_, hregistry.trans h.registry, ?_, ?_, ?_⟩
  · rw [hstore]
    exact h.files
  · rw [hstore]
    exact h.tombstones
  · have hvisited := h.visited
    simp only at hvisited
    rw [hvisited, List.map_append, List.map_singleton, hid, hnode, List.append_assoc,
      List.singleton_append]
  · intro a ha
    rcases List.mem_append.mp ha with ha | ha
    · exact h.issued a ha
    · rw [List.mem_singleton.mp ha, hissued, hnode, h.registry]
  · intro a ha hc info hl
    rw [hdisks]
    rcases List.mem_append.mp ha with ha | ha
    · exact deleteReplica_none config _ _ _ (h.gone a ha hc info hl)
    · rw [← h.registry] at hl
      rw [List.mem_singleton.mp ha] at hc hl ⊢
      rw [hnode] at hl
      rw [hid]
      refine deleteReplica_confirmed config s.disks hl ?_
      simpa only [deleteAttempt, hl] using hc

/-- **One step** during a pass. -/
theorem passInv_move {a : Action} {owner : String → Owner} (ho : Owned s owner) (hpass : s.pass = some p)
    (ha : DuringPass a) (hm : Move config s a t) (h : PassInv config s₀ s p) :
    ∃ p', t.pass = some p' ∧ PassInv config s₀ t p' := by
  cases hm with
  | putFailed k call status store nextNodeIndex hput hprog hstatus hstore =>
    exact ⟨p, hpass, h.frame hstore.findFile hstore.deletedEntries rfl fun _ _ _ => rfl⟩
  | putAccepted k call store hput hphase hacc hstore =>
    exact ⟨p, hpass, h.frame hstore.findFile hstore.deletedEntries rfl fun _ _ _ => rfl⟩
  | putStored k j call chunkId nodeIds results fault hput hphase hj hnew =>
    refine ⟨p, hpass, h.frame (fun _ => rfl) rfl rfl fun a ha => ?_⟩
    -- the written chunk is an upload's, so the pass did not come to it
    obtain ⟨deleteTime, hattempt⟩ := h.owner_of_replica ho (h.mem_of_attempt ha)
    have hchunk := ho.owner_placed hput hphase
    refine keeps_putStore ho (by simp [hchunk]) (by simp [hattempt]) ?_ rfl
    intro he
    rw [he, hchunk] at hattempt
    cases hattempt
  | putCommitted k call hput hnone hphase hlen => cases hnone.symm.trans hpass
  | deleteMoved d call store hold hanswer hstore =>
    exact ⟨p, hpass, h.frame hstore.findFile hstore.deletedEntries rfl fun _ _ _ => rfl⟩
  | pathDeleted d path now hdel hnone hnow => cases hnone.symm.trans hpass
  | registered => exact absurd ha id
  | unregistered => exact absurd ha id
  | cleanupBegun hnone hrun => cases hnone.symm.trans hpass
  | chunkDeleted now r todo attempts fault hp =>
    rw [hpass] at hp
    cases hp
    exact ⟨_, rfl, passInv_chunkDeleted h rfl rfl rfl⟩
  | cleanupEnded => exact absurd ha id
  | _ => exact ⟨p, hpass, h.frame (fun _ => rfl) rfl rfl fun _ _ _ => rfl⟩

/-- A deletion leaves chunk `n` alone on a datanode it is not sent to. -/
theorem deleteReplica_kept {registry : Registry} (fault : DeleteFault) {r : String × Int32} {n : Nat}
    (hr : ∃ m, r.1 = chunkName m) (disks : Disks) {ep : Endpoint}
    (h : r.1 = chunkName n → ∀ info, registry.lookup r.2 = some info → info.endpoint ≠ ep) :
    stored (config ep) (deleteReplica config registry fault r disks ep) (chunkName n) =
      stored (config ep) (disks ep) (chunkName n) := by
  obtain ⟨m, hm⟩ := hr
  by_cases hnm : n = m
  · subst hnm
    rw [deleteReplica_elsewhere config fault disks (h hm)]
  · obtain ⟨chunkId, d⟩ := r
    simp only at hm
    subst hm
    exact deleteReplica_other config hnm _ fault d _ ep

theorem keptBut_move {a : Action} {owner : String → Owner} {n : Nat} (ho : Owned s owner)
    (hpass : s.pass = some p) (hinv : PassInv config s₀ s p) (ha : DuringPass a)
    (hwrites : ¬ WritesChunk (chunkName n) s a) (hm : Move config s a t) (h : KeptBut config s₀ n s p) :
    ∀ p', t.pass = some p' → KeptBut config s₀ n t p' := by
  -- steps that touch no datanode
  have hsame : t.disks = s.disks → t.pass = s.pass → ∀ p', t.pass = some p' → KeptBut config s₀ n t p' := by
    intro hdisks hp p' hp' ep hep
    rw [hp, hpass] at hp'
    cases hp'
    rw [hdisks]
    exact h ep hep
  cases hm with
  | putStored k j call chunkId nodeIds results fault hput hphase hj hnew =>
    rintro p' hp' ep hep
    cases hpass.symm.trans hp'
    have hchunk := ho.owner_placed hput hphase
    obtain ⟨m, -, rfl⟩ := ho.drawn chunkId (by simp [hchunk])
    have hne : n ≠ m := by
      rintro rfl
      exact hwrites ⟨k, j, fault, call, nodeIds, results, rfl, hput, hphase⟩
    exact (distributeChunkToSingleNode_other config _ hne fault _ _ _ ep).trans (h ep hep)
  | chunkDeleted now r todo attempts fault hp =>
    rintro p' ⟨⟩ ep hep
    rw [hpass] at hp
    cases hp
    obtain ⟨hid, hnode, hissued⟩ := @deleteAttempt_replica config s.registeredNodes fault r
    have hold : stored (config ep) (s.disks ep) (chunkName n) =
        stored (config ep) (s₀.disks ep) (chunkName n) := by
      refine h ep ?_
      rintro d info ⟨a, hmem, hrest⟩
      exact hep d info ⟨a, List.mem_append_left _ hmem, hrest⟩
    have hname := hinv.chunkName_of_todo ho List.mem_cons_self
    refine (deleteReplica_kept fault hname s.disks fun hn info hl => ?_).trans hold
    have hl₀ := hl
    rw [hinv.registry] at hl₀
    refine hep r.2 info ⟨_, List.mem_append_right _ (List.mem_singleton_self _), hid.trans hn, hnode, ?_⟩ hl₀
    rw [hissued, hl]
    rfl
  | cleanupBegun hnone hrun => cases hnone.symm.trans hpass
  | cleanupEnded => exact absurd ha id
  | _ => exact hsame rfl rfl

/-! ## Runs -/

/-- In the middle of a pass that began in `s₀`. -/
def InPass (config : Endpoint → DataNodeConfig) (s₀ s : System) : Prop :=
  Reachable (System.step config) Initial (fun _ _ => True) s ∧
    ∃ p, s.pass = some p ∧ (s.chunkIdsDrawn < 2 ^ 64 → PassInv config s₀ s p)

theorem inPass_step {a : Action} (ha : DuringPass a) (ht : System.step config s a = some t)
    (h : InPass config s₀ s) : InPass config s₀ t := by
  obtain ⟨hs, p, hp, hinv⟩ := h
  have hr : Reachable (System.step config) Initial (fun _ _ => True) t := .step a hs trivial ht
  refine ⟨hr, ?_⟩
  by_cases hb : t.chunkIdsDrawn < 2 ^ 64
  · have hbs : s.chunkIdsDrawn < 2 ^ 64 := Nat.lt_of_le_of_lt (chunkIdsDrawn_mono s a t ht) hb
    obtain ⟨owner, ho⟩ := owned_of_reachable hs hbs
    obtain ⟨p', hp', hinv'⟩ := passInv_move ho hp ha (step_move ht) (hinv hbs)
    exact ⟨p', hp', fun _ => hinv'⟩
  · -- beyond the bound only the pass itself counts
    have hpass : ∃ p', t.pass = some p' := by
      cases step_move ht with
      | cleanupBegun hnone hrun => exact ⟨_, rfl⟩
      | chunkDeleted => exact ⟨_, rfl⟩
      | cleanupEnded => exact absurd ha id
      | _ => exact ⟨p, hp⟩
    obtain ⟨p', hp'⟩ := hpass
    exact ⟨p', hp', fun hb' => absurd hb' hb⟩

/-- **The run of a pass.** -/
theorem inPass_exec {as : List Action} (hs₀ : Reachable (System.step config) Initial (fun _ _ => True) s₀)
    (hrun : exec (System.step config) s₀ (.cleanupBegin :: as) = some s) (hduring : ∀ a ∈ as, DuringPass a) :
    InPass config s₀ s := by
  obtain ⟨s₁, hbegin, hrun⟩ := Option.bind_eq_some_iff.mp hrun
  obtain ⟨p, hp, hinv, -⟩ := @passInv_begin config s₀ s₁ hbegin
  have hstart : InPass config s₀ s₁ := ⟨.step .cleanupBegin hs₀ trivial hbegin, p, hp, fun _ => hinv⟩
  exact exec_along (P := fun _ a => DuringPass a) (fun s a t ha ht h => inPass_step ha ht h) as hrun
    (along_of_forall_mem (fun a ha _ => hduring a ha) s₁) hstart

theorem keptBut_exec {as : List Action} {n : Nat}
    (hs₀ : Reachable (System.step config) Initial (fun _ _ => True) s₀)
    (hrun : exec (System.step config) s₀ (.cleanupBegin :: as) = some s) (hduring : ∀ a ∈ as, DuringPass a)
    (hwrites : Along (System.step config) (fun s a => ¬ WritesChunk (chunkName n) s a) s₀
      (.cleanupBegin :: as)) (hb : s.chunkIdsDrawn < 2 ^ 64) :
    ∀ p, s.pass = some p → KeptBut config s₀ n s p := by
  obtain ⟨s₁, hbegin, hrun⟩ := Option.bind_eq_some_iff.mp hrun
  obtain ⟨p, hp, hinv, hkept⟩ := @passInv_begin config s₀ s₁ hbegin
  have hstart : InPass config s₀ s₁ := ⟨.step .cleanupBegin hs₀ trivial hbegin, p, hp, fun _ => hinv⟩
  have hend := exec_along (P := fun s a => DuringPass a ∧ ¬ WritesChunk (chunkName n) s a)
    (R := fun s => InPass config s₀ s ∧
      (s.chunkIdsDrawn < 2 ^ 64 → ∀ p, s.pass = some p → KeptBut config s₀ n s p)) ?_ as hrun
    ((along_of_forall_mem (fun a ha _ => hduring a ha) s₁).and (hwrites.2 s₁ hbegin)) ⟨hstart, ?_⟩
  · exact hend.2 hb
  · rintro s a t ⟨ha, hnw⟩ ht ⟨h, hk⟩
    refine ⟨inPass_step ha ht h, fun hb => ?_⟩
    obtain ⟨hs, p, hp, hinv⟩ := h
    have hbs : s.chunkIdsDrawn < 2 ^ 64 := Nat.lt_of_le_of_lt (chunkIdsDrawn_mono s a t ht) hb
    obtain ⟨owner, ho⟩ := owned_of_reachable hs hbs
    exact keptBut_move ho hp (hinv hbs) ha hnw (step_move ht) (hk hbs p hp)
  · intro _ p' hp'
    cases hp.symm.trans hp'
    exact hkept n

end

/-! ## Top theorem -/

/-- What a pass that began in `s₀` has come to in `s`, after the steps `as`. -/
structure ExactPass (config : Endpoint → DataNodeConfig) (s₀ : System) (as : List Action) (s : System)
    (p : Pass) : Prop where
  clock : p.now = s₀.clock
  /-- at the end: `DeleteChunk` was issued for the replicas of expired tombstones on
  registered nodes, and for no others -/
  issued : p.todo = [] → ∀ chunkId d, p.IssuedTo chunkId d ↔
    (∃ x ∈ s₀.store.deletedEntries, tombstoneLifetime < s₀.clock - x.deleteTime ∧
      ∃ chunk ∈ x.fileMeta.chunks, chunk.chunkId = chunkId ∧ d ∈ chunk.nodeIds) ∧
    (s₀.registeredNodes.lookup d).isSome
  /-- at any time: nothing else has the chunk ids the pass deletes -/
  unshared : ∀ x ∈ s₀.store.deletedEntries, tombstoneLifetime < s₀.clock - x.deleteTime →
    ∀ id ∈ x.fileMeta.chunkIds,
      (∀ path fileMeta, s.store.findFile path = some fileMeta → id ∉ fileMeta.chunkIds) ∧
      (∀ y ∈ s.store.deletedEntries, s₀.clock - y.deleteTime ≤ tombstoneLifetime →
        id ∉ y.fileMeta.chunkIds) ∧
      ∀ h call, s.puts h = some call → call.inProgress → id ∉ call.chunkIds
  gone : (∀ a ∈ p.attempts, a.issued = true → a.confirmed = true) → ∀ chunkId d info,
    p.IssuedTo chunkId d → s₀.registeredNodes.lookup d = some info →
      stored (config info.endpoint) (s.disks info.endpoint) chunkId = none
  /-- a chunk no upload wrote meanwhile is unchanged on every other datanode -/
  kept : ∀ n, Along (System.step config) (fun s a => ¬ WritesChunk (chunkName n) s a) s₀
      (.cleanupBegin :: as) → KeptBut config s₀ n s p
  /-- one of its deletions touches at most the replica it has come to -/
  deletes : ∀ fault t, System.step config s (.cleanupDelete fault) = some t → ∃ r rest, p.todo = r :: rest ∧
    ∀ n ep, (r.1 = chunkName n → ∀ info, s₀.registeredNodes.lookup r.2 = some info → info.endpoint ≠ ep) →
      stored (config ep) (t.disks ep) (chunkName n) = stored (config ep) (s.disks ep) (chunkName n)
  /-- the pass ends when it has come to everything, and that touches no datanode -/
  ends : ∀ t, System.step config s .cleanupEnd = some t → p.todo = [] ∧ t.disks = s.disks

/-- **Cleanup deletes exactly the expired chunks.** -/
theorem exactPass_of_reachable (config : Endpoint → DataNodeConfig) (s₀ s : System) (as : List Action)
    (p : Pass) (hs₀ : Reachable (System.step config) Initial (fun _ _ => True) s₀)
    (hrun : exec (System.step config) s₀ (.cleanupBegin :: as) = some s) (hduring : ∀ a ∈ as, DuringPass a)
    (hb : s.chunkIdsDrawn < 2 ^ 64) (hp : s.pass = some p) : ExactPass config s₀ as s p := by
  obtain ⟨hs, p', hp', hinv⟩ := inPass_exec hs₀ hrun hduring
  cases hp.symm.trans hp'
  have hinv := hinv hb
  obtain ⟨owner, ho⟩ := owned_of_reachable hs hb
  refine ⟨hinv.now, ?_, ?_, ?_, ?_, ?_, ?_⟩
  · intro htodo chunkId d
    have hvisited := hinv.visited
    rw [htodo, List.append_nil] at hvisited
    have hreplica : (chunkId, d) ∈ passReplicas s₀.clock s₀.store ↔
        ∃ x ∈ s₀.store.deletedEntries, tombstoneLifetime < s₀.clock - x.deleteTime ∧
          ∃ chunk ∈ x.fileMeta.chunks, chunk.chunkId = chunkId ∧ d ∈ chunk.nodeIds := by
      simp only [mem_passReplicas, Tombstone.expired, decide_eq_true_eq, mem_replicas]
    rw [← hreplica]
    constructor
    · rintro ⟨a, ha, rfl, rfl, hissued⟩
      refine ⟨hinv.mem_of_attempt ha, ?_⟩
      rw [← hinv.issued a ha, hissued]
    · rintro ⟨hmem, hreg⟩
      rw [hvisited] at hmem
      obtain ⟨a, ha, hae⟩ := List.mem_map.mp hmem
      cases hae
      exact ⟨a, ha, rfl, rfl, (hinv.issued a ha).trans hreg⟩
  · intro x hx hexp id hid
    rw [← hinv.tombstones] at hx
    have howner := ho.tombstones x hx id hid
    refine ⟨?_, ?_, ?_⟩
    · intro path fileMeta hf hmem
      exact nomatch howner.symm.trans (ho.files path fileMeta hf id hmem)
    · intro y hy hyoung hmem
      have htime := Owner.tombstones.inj (howner.symm.trans (ho.tombstones y hy id hmem))
      rw [htime] at hexp
      exact absurd hexp (Int.not_lt.mpr hyoung)
    · intro h call hput hprog hmem
      exact nomatch howner.symm.trans (ho.uploads h call hput hprog id hmem)
  · rintro hall chunkId d info ⟨a, ha, rfl, rfl, hissued⟩ hl
    exact hinv.gone a ha (hall a ha hissued) info hl
  · exact fun n hwrites => keptBut_exec hs₀ hrun hduring hwrites hb p hp
  · intro fault t ht
    simp only [System.step, System.cleanupDelete] at ht
    split at ht
    · next now r rest attempts hpass =>
      cases hp.symm.trans hpass
      cases ht
      refine ⟨r, rest, rfl, fun n ep hr => ?_⟩
      rw [← hinv.registry] at hr
      exact deleteReplica_kept fault (hinv.chunkName_of_todo ho List.mem_cons_self) s.disks hr
    · cases ht
  · intro t ht
    simp only [System.step, System.cleanupEnd] at ht
    split at ht
    · next now attempts hpass =>
      cases hp.symm.trans hpass
      cases ht
      exact ⟨rfl, rfl⟩
    · cases ht

/-- A one-byte file is uploaded and deleted, and its tombstone is over five minutes
old. -/
def deletedFile : List Action :=
  oneNode ++ [.startPut 0 [⟨"f", [1]⟩]] ++ upload 0 ++
    [.putCommit 0, .startDelete 0 "f", .deleteCheck 0, .deletePath 0 0, .tick 300000000001]

/-- The pass sends three deletions to the one datanode. -/
theorem exactPass_deletedFile : ∃ s₀ s p,
    exec (System.step plainConfig) (System.start fun _ _ => none) deletedFile = some s₀ ∧
      s.pass = some p ∧ p.todo = [] ∧ p.IssuedTo "chunk_0" 1 ∧
      ExactPass plainConfig s₀ [.cleanupDelete {}, .cleanupDelete {}, .cleanupDelete {}] s p := by
  have hpass : (exec (System.step plainConfig) (System.start fun _ _ => none)
      (deletedFile ++ [.cleanupBegin, .cleanupDelete {}, .cleanupDelete {}, .cleanupDelete {}])).map
        (fun s => (s.chunkIdsDrawn, s.pass)) =
      some (1, some ⟨300000000001, [], List.replicate 3 ⟨"chunk_0", 1, true, true⟩⟩) := by decide
  obtain ⟨s, hrun, hpass⟩ := Option.map_eq_some_iff.mp hpass
  rw [exec_append] at hrun
  obtain ⟨s₀, hs₀, hrun⟩ := Option.bind_eq_some_iff.mp hrun
  injection hpass with hdrawn hpass
  refine ⟨s₀, s, _, hs₀, hpass, rfl, ⟨_, List.mem_cons_self, rfl, rfl, rfl⟩, ?_⟩
  refine exactPass_of_reachable plainConfig s₀ s _ _ ?_ hrun ?_ (by rw [hdrawn]; decide) hpass
  · exact Reachable.exec_of_forall deletedFile (.init ⟨_, rfl⟩) (fun _ _ _ => trivial) hs₀
  · intro a ha
    simp only [List.mem_cons, List.not_mem_nil, or_false] at ha
    rcases ha with rfl | rfl | rfl
    all_goals trivial

end ToyDfs
