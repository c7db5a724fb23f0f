import ToyDfs.Progress
import ToyDfs.Replicas
import ToyDfs.ExactCleanup

/-!
The chunk files on the datanodes, and the records of them.

A chunk is on record in an upload in progress that has placed it, in an active file, or
in a tombstone (`OnRecord`).  `nothingLeaked_of_tidy`: when the datanodes start
empty, every chunk file is on record at its node, as long as the run is `Tidy`.  It is
not when an upload fails after it placed a chunk, a commit replaces an active file, an
overfull deque drops a tombstone, or a deletion of the cleanup pass is not confirmed.

The invariant of a pass (`PassCleans`): the replicas it has come to are gone.
-/

namespace ToyDfs

open Transition

/-! ## Records -/

def ChunkInfo.placement (chunk : ChunkInfo) : String × List Int32 := (chunk.chunkId, chunk.nodeIds)

def PutPhase.placements : PutPhase → List (String × List Int32)
  | .placed chunkId nodeIds _ => [(chunkId, nodeIds)]
  | _ => []

/-- The chunks an upload has placed, with their nodes. -/
def PutCall.placements (call : PutCall) : List (String × List Int32) :=
  call.chunks.map ChunkInfo.placement ++ call.phase.placements

def FileMeta.placements (fileMeta : FileMeta) : List (String × List Int32) :=
  fileMeta.chunks.map ChunkInfo.placement

/-- The chunk is recorded on these nodes. -/
inductive OnRecord (s : System) (r : String × List Int32) : Prop
  | upload (h : Nat) (call : PutCall) (hput : s.puts h = some call) (hprog : call.inProgress)
    (hmem : r ∈ call.placements)
  | file (path : String) (fileMeta : FileMeta) (hfile : s.store.findFile path = some fileMeta)
    (hmem : r ∈ fileMeta.placements)
  | tombstone (t : Tombstone) (ht : t ∈ s.store.deletedEntries) (hmem : r ∈ t.fileMeta.placements)

section
variable (config : Endpoint → DataNodeConfig)

/-- Every chunk file is on record, on a node of that datanode. -/
def Accounted (s : System) : Prop :=
  ∀ ep n, (stored (config ep) (s.disks ep) (chunkName n)).isSome →
    ∃ nodeIds, OnRecord s (chunkName n, nodeIds) ∧ ∃ d ∈ nodeIds, s.home d = some ep

/-- No chunk file is left over: all are on record, and with the last record the last
chunk file is gone. -/
structure NothingLeaked (s : System) : Prop where
  accounted : Accounted config s
  reclaimed : (∀ r, ¬ OnRecord s r) → ∀ ep n, stored (config ep) (s.disks ep) (chunkName n) = none

/-- The datanodes hold no chunk. -/
def StartsEmpty (s : System) : Prop :=
  ∃ disks, s = System.start disks ∧ ∀ ep n, stored (config ep) (disks ep) (chunkName n) = none

/-! ## Ways to leak a chunk -/

def PutPhase.failed : PutPhase → Bool
  | .answered status _ => !status.isOk
  | _ => false

/-- The step fails an upload that has placed a chunk. -/
def failsPlaced (s : System) (a : Action) : Bool :=
  match a.call? with
  | some (.put h) =>
    match s.puts h, (s.step config a).bind fun t => t.puts h with
    | some call, some call' => !call.placements.isEmpty && call'.phase.failed
    | _, _ => false
  | _ => false

/-- The step commits an upload over an active file. -/
def replacesFile (s : System) : Action → Bool
  | .putCommit h =>
    match s.puts h with
    | some call => (s.store.findFile (uploadName call.messages)).isSome
    | none => false
  | _ => false

/-- The step drops a tombstone from the overfull deque. -/
def dropsTombstone (s : System) : Action → Bool
  | .deletePath d now =>
    match s.deletes d with
    | some ⟨path, .checked⟩ => s.store.deletedEntries.any fun x =>
        decide (x ∉ (s.store.deletePath path s.clock now).deletedEntries)
    | _ => false
  | _ => false

/-- The step is a deletion of the cleanup pass that is not confirmed. -/
def leavesReplica (s : System) : Action → Bool
  | .cleanupDelete fault =>
    match s.pass with
    | some ⟨_, r :: _, _⟩ => !(deleteAttempt config s.registeredNodes fault r).confirmed
    | _ => false
  | _ => false

/-- The step leaks no chunk. -/
def Tidy (s : System) (a : Action) : Prop :=
  failsPlaced config s a = false ∧ replacesFile s a = false ∧ dropsTombstone s a = false ∧
    leavesReplica config s a = false

instance (s : System) (a : Action) : Decidable (Tidy config s a) := inferInstanceAs (Decidable (_ ∧ _))

/-- A pass has deleted the replicas it has come to. -/
structure PassCleans (s : System) (p : Pass) : Prop where
  visited : passReplicas p.now s.store = p.attempts.map (fun a => (a.chunkId, a.nodeId)) ++ p.todo
  gone : ∀ a ∈ p.attempts, ∃ ep, s.home a.nodeId = some ep ∧
    stored (config ep) (s.disks ep) a.chunkId = none

structure TidyInv (s : System) : Prop where
  accounted : Accounted config s
  pass : ∀ p, s.pass = some p → PassCleans config s p

end

/-! ## What carries over -/

section
variable {config : Endpoint → DataNodeConfig} {s t : System}

theorem OnRecord.kept {r : String × List Int32} (h : OnRecord s r)
    (hputs : ∀ k call, s.puts k = some call → call.inProgress → r ∈ call.placements → OnRecord t r)
    (hfiles : ∀ path, t.store.findFile path = s.store.findFile path)
    (htombs : t.store.deletedEntries = s.store.deletedEntries) : OnRecord t r := by
  cases h with
  | upload k call hput hprog hmem => exact hputs k call hput hprog hmem
  | file path fileMeta hfile hmem => exact .file path fileMeta ((hfiles path).trans hfile) hmem
  | tombstone x hx hmem => exact .tombstone x (htombs ▸ hx) hmem

theorem OnRecord.same {r : String × List Int32} (h : OnRecord s r) (hputs : t.puts = s.puts)
    (hfiles : ∀ path, t.store.findFile path = s.store.findFile path)
    (htombs : t.store.deletedEntries = s.store.deletedEntries) : OnRecord t r :=
  h.kept (fun k call hput hprog hmem => .upload k call (by rw [hputs, hput]) hprog hmem) hfiles htombs

/-- Upload `k` takes a step, and keeps what it has placed. -/
theorem OnRecord.advance {r : String × List Int32} {k : Nat} {call call' : PutCall} (h : OnRecord s r)
    (hput : s.puts k = some call) (hputs : t.puts = Function.update s.puts k (some call'))
    (hmem : r ∈ call.placements → call'.inProgress ∧ r ∈ call'.placements)
    (hfiles : ∀ path, t.store.findFile path = s.store.findFile path)
    (htombs : t.store.deletedEntries = s.store.deletedEntries) : OnRecord t r := by
  refine h.kept ?_ hfiles htombs
  intro k' c hput' hprog hr
  by_cases hk : k' = k
  · subst hk
    cases hput.symm.trans hput'
    obtain ⟨hprog', hr'⟩ := hmem hr
    exact .upload k' call' (by rw [hputs, Function.update_self]) hprog' hr'
  · exact .upload k' c (by rw [hputs, Function.update_of_ne hk, hput']) hprog hr

/-- Steps that bring no chunk file and lose no record. -/
theorem Accounted.kept (h : Accounted config s) (hhome : HomesKept s t)
    (hdisks : ∀ ep n, (stored (config ep) (t.disks ep) (chunkName n)).isSome →
      (stored (config ep) (s.disks ep) (chunkName n)).isSome)
    (hrecords : ∀ r, OnRecord s r → OnRecord t r) : Accounted config t := by
  intro ep n hs
  obtain ⟨nodeIds, hrec, d, hd, hep⟩ := h ep n (hdisks ep n hs)
  exact ⟨nodeIds, hrecords _ hrec, d, hd, hhome d ep hep⟩

theorem PassCleans.kept {p : Pass} (h : PassCleans config s p) (hhome : HomesKept s t)
    (htombs : t.store.deletedEntries = s.store.deletedEntries)
    (hkeep : ∀ a ∈ p.attempts, Keeps config s t a.chunkId) : PassCleans config t p := by
  refine ⟨?_, ?_⟩
  · rw [passReplicas, htombs]
    exact h.visited
  · intro a ha
    obtain ⟨ep, hep, hgone⟩ := h.gone a ha
    exact ⟨ep, hhome _ _ hep, (hkeep a ha ep).trans hgone⟩

/-- Steps that leave the disks, the files and the tombstones alone. -/
theorem TidyInv.frame (h : TidyInv config s) (hdisks : t.disks = s.disks) (hhome : HomesKept s t)
    (htombs : t.store.deletedEntries = s.store.deletedEntries) (hpass : t.pass = s.pass)
    (hrecords : ∀ r, OnRecord s r → OnRecord t r) : TidyInv config t := by
  refine ⟨h.accounted.kept hhome (fun ep n hs => by rwa [hdisks] at hs) hrecords, ?_⟩
  intro p hp
  rw [hpass] at hp
  exact (h.pass p hp).kept hhome htombs fun a _ => Keeps.of_eq hdisks a.chunkId

/-- Steps of an upload that leave the disks alone. -/
theorem TidyInv.advance (h : TidyInv config s) {k : Nat} {call call' : PutCall}
    (hput : s.puts k = some call) (hdisks : t.disks = s.disks) (hhome : t.home = s.home)
    (hputs : t.puts = Function.update s.puts k (some call'))
    (hmem : ∀ r ∈ call.placements, call'.inProgress ∧ r ∈ call'.placements)
    (hfiles : ∀ path, t.store.findFile path = s.store.findFile path)
    (htombs : t.store.deletedEntries = s.store.deletedEntries) (hpass : t.pass = s.pass) :
    TidyInv config t :=
  h.frame hdisks (fun d ep hd => by rw [hhome, hd]) htombs hpass
    fun r hr => hr.advance hput hputs (hmem r) hfiles htombs

/-! ## Steps -/

/-- A replica write brings the chunk it writes, which is on record, to a registered node. -/
theorem accounted_putStored {k j : Nat} {call : PutCall} {chunkId : String} {nodeIds : List Int32}
    {results results' : Nat → Option Status} {fault : PutFault} {owner : String → Owner}
    (hnodes : NodeInv s) (ho : Owned s owner) (hput : s.puts k = some call)
    (hphase : call.phase = .placed chunkId nodeIds results) (hj : j < nodeIds.length) {data : Bytes}
    (hhome : t.home = s.home) (hputs : t.puts = Function.update s.puts k
      (some { call with phase := .placed chunkId nodeIds results' }))
    (hstore : t.store = s.store)
    (hdisks : t.disks = (distributeChunkToSingleNode config s.registeredNodes fault chunkId data
      (nodeIds.getD j 0) s.disks).2) (h : Accounted config s) : Accounted config t := by
  have hrecords : ∀ r, OnRecord s r → OnRecord t r := by
    intro r hr
    refine hr.advance hput hputs (fun hmem => ?_) (fun path => by rw [hstore]) (by rw [hstore])
    refine ⟨PutCall.inProgress_of_phase rfl rfl, ?_⟩
    rw [PutCall.placements, hphase] at hmem
    exact hmem
  have hchunk := ho.owner_placed hput hphase
  obtain ⟨m, -, rfl⟩ := ho.drawn chunkId (by simp [hchunk])
  intro ep n hs
  rw [hdisks] at hs
  by_cases hnm : n = m
  · subst hnm
    rw [distributeChunkToSingleNode_stored] at hs
    by_cases hc : nodeCreates config s.registeredNodes fault (chunkName n) ep (nodeIds.getD j 0) = true
    · -- the file is new: its node is the one that is written to
      obtain ⟨info, hl, rfl⟩ := nodeCreates_lookup hc
      have hmem : nodeIds.getD j 0 ∈ nodeIds := by
        rw [List.getD_eq_getElem?_getD, List.getElem?_eq_getElem hj]
        exact List.getElem_mem hj
      refine ⟨nodeIds, .upload k _ (by rw [hputs, Function.update_self]) ?_ ?_, _, hmem, ?_⟩
      · exact PutCall.inProgress_of_phase rfl rfl
      · exact List.mem_append_right _ (List.mem_singleton_self _)
      · rw [hhome]
        exact hnodes.registered _ _ hl
    · rw [if_neg hc] at hs
      obtain ⟨ids, hrec, d, hd, hep⟩ := h ep n hs
      exact ⟨ids, hrecords _ hrec, d, hd, by rw [hhome, hep]⟩
  · rw [distributeChunkToSingleNode_other config _ hnm] at hs
    obtain ⟨ids, hrec, d, hd, hep⟩ := h ep n hs
    exact ⟨ids, hrecords _ hrec, d, hd, by rw [hhome, hep]⟩

/-- What a pass has deleted belongs to a tombstone. -/
theorem PassCleans.owner_of_attempt {owner : String → Owner} {p : Pass} (h : PassCleans config s p)
    (ho : Owned s owner) {a : DeleteAttempt} (ha : a ∈ p.attempts) :
    ∃ deleteTime, owner a.chunkId = .tombstones deleteTime := by
  have hmem : (a.chunkId, a.nodeId) ∈ passReplicas p.now s.store := by
    rw [h.visited]
    exact List.mem_append_left _ (List.mem_map_of_mem ha)
  obtain ⟨x, hx, -, hmem⟩ := mem_passReplicas.mp hmem
  obtain ⟨chunk, hchunk, he, -⟩ := mem_replicas.mp hmem
  exact ⟨x.deleteTime, ho.tombstones x hx _ (he ▸ List.mem_map_of_mem hchunk)⟩

/-- The file of the upload takes over its records. -/
theorem onRecord_committed {k : Nat} {call : PutCall} {fileMeta : FileMeta} {log : List Event}
    {r : String × List Int32} (hput : s.puts k = some call) (hphase : call.phase = .looping)
    (hfresh : s.store.findFile (uploadName call.messages) = none) (hchunks : fileMeta.chunks = call.chunks)
    (h : OnRecord s r) :
    OnRecord ({ s with
      store := s.store.putFile (uploadName call.messages) fileMeta, log := log }.setPut k
        { call with phase := .answered Status.OK { success := true } }) r := by
  cases h with
  | upload k' c hput' hprog hmem =>
    by_cases hk : k' = k
    · subst hk
      cases hput.symm.trans hput'
      refine .file (uploadName call.messages) fileMeta (MetadataStore.findFile_putFile ..) ?_
      rw [PutCall.placements, hphase] at hmem
      rw [FileMeta.placements, hchunks]
      exact (List.append_nil _).subst hmem
    · exact .upload k' c ((Function.update_of_ne hk ..).trans hput') hprog hmem
  | file path m hfile hmem =>
    have hne : path ≠ uploadName call.messages := by
      rintro rfl
      cases hfresh.symm.trans hfile
    exact .file path m ((MetadataStore.findFile_putFile_ne _ _ hne).trans hfile) hmem
  | tombstone x hx hmem => exact .tombstone x hx hmem

/-- What a list ends with is in every suffix of it that is not empty. -/
theorem mem_of_suffix_snoc {α : Type} {l suffix : List α} {x a : α} (h : suffix <:+ l ++ [a])
    (hx : x ∈ suffix) : a ∈ suffix := by
  obtain ⟨front, h⟩ := h
  rcases List.eq_nil_or_concat suffix with rfl | ⟨init, last, rfl⟩
  · cases hx
  · rw [List.concat_eq_append, ← List.append_assoc] at h
    have hlast := (List.append_inj' h rfl).2
    cases hlast
    rw [List.concat_eq_append]
    exact List.mem_append_right _ (List.mem_singleton_self _)

/-- A deletion that drops no tombstone keeps the new one. -/
theorem mem_deletePath_of_kept {store : MetadataStore} {path : String} {deleteTime now : TimePoint}
    {fileMeta : FileMeta} (hfile : store.findFile path = some fileMeta)
    (hkept : ∀ x ∈ store.deletedEntries, x ∈ (store.deletePath path deleteTime now).deletedEntries) :
    Tombstone.mk path fileMeta deleteTime ∈ (store.deletePath path deleteTime now).deletedEntries := by
  rw [(store.deletePath_of_some path deleteTime now hfile).2] at hkept ⊢
  split at hkept
  · next hfull =>
    rw [if_pos hfull]
    -- the deque was full, so something is left of it
    obtain ⟨first, hfirst⟩ : ∃ x, x ∈ store.deletedEntries :=
      List.exists_mem_of_length_pos (Nat.lt_of_lt_of_le (by decide) hfull)
    exact mem_of_suffix_snoc (List.dropWhile_suffix _) (hkept first hfirst)
  · next hroom =>
    rw [if_neg hroom]
    exact List.mem_append_right _ (List.mem_singleton_self _)

/-- The tombstone takes over the records of the file. -/
theorem onRecord_deleted {d : Nat} {path : String} {now : TimePoint} {log : List Event}
    {call : DeleteCall} {r : String × List Int32}
    (hkept : ∀ x ∈ s.store.deletedEntries, x ∈ (s.store.deletePath path s.clock now).deletedEntries)
    (h : OnRecord s r) :
    OnRecord ({ s with
      store := s.store.deletePath path s.clock now
      running := true
      clock := now
      log := log }.setDelete d call) r := by
  cases h with
  | upload k c hput hprog hmem => exact .upload k c hput hprog hmem
  | file q m hfile hmem =>
    by_cases hq : q = path
    · subst hq
      exact .tombstone _ (mem_deletePath_of_kept hfile hkept) hmem
    · exact .file q m ((MetadataStore.findFile_deletePath_ne _ _ _ hq).trans hfile) hmem
  | tombstone x hx hmem => exact .tombstone x (hkept x hx) hmem

/-- When a pass ends, the expired tombstones have no chunk file left. -/
theorem accounted_cleanupEnded {now : TimePoint} {attempts : List DeleteAttempt}
    (hpass : PassCleans config s ⟨now, [], attempts⟩) (h : Accounted config s) :
    Accounted config { s with
      store := (s.store.cleanupTombstones now (none : Option (FileMeta → Unit → Unit)) ()).1
      pass := none } := by
  intro ep n hs
  obtain ⟨nodeIds, hrec, d, hd, hep⟩ := h ep n hs
  refine ⟨nodeIds, ?_, d, hd, hep⟩
  cases hrec with
  | upload k c hput hprog hmem => exact .upload k c hput hprog hmem
  | file q m hfile hmem => exact .file q m hfile hmem
  | tombstone x hx hmem =>
    refine .tombstone x ?_ hmem
    simp only [MetadataStore.deletedEntries_cleanupTombstones]
    refine List.mem_filter.mpr ⟨hx, ?_⟩
    by_contra hexp
    -- the pass has deleted this replica
    obtain ⟨chunk, hchunk, he⟩ := List.mem_map.mp hmem
    injection he with hid hnodes
    subst hnodes
    have hreplica := mem_passReplicas.mpr
      ⟨x, hx, by simpa using hexp, mem_replicas.mpr ⟨chunk, hchunk, hid, hd⟩⟩
    have hvisited := hpass.visited
    simp only [List.append_nil] at hvisited
    rw [hvisited] at hreplica
    obtain ⟨a, ha, he⟩ := List.mem_map.mp hreplica
    injection he with hid hnode
    obtain ⟨ep', hep', hgone⟩ := hpass.gone a ha
    rw [hnode, hep] at hep'
    cases hep'
    rw [← hid, hgone] at hs
    cases hs

/-- The pass comes to its next replica. -/
theorem passCleans_chunkDeleted {now : TimePoint} {r : String × Int32} {todo : List (String × Int32)}
    {attempts : List DeleteAttempt} {fault : DeleteFault} (hnodes : NodeInv s)
    (hconfirmed : (deleteAttempt config s.registeredNodes fault r).confirmed = true)
    (hhome : t.home = s.home) (hstore : t.store = s.store)
    (hdisks : t.disks = deleteReplica config s.registeredNodes fault r s.disks)
    (h : PassCleans config s ⟨now, r :: todo, attempts⟩) :
    PassCleans config t ⟨now, todo, attempts ++ [deleteAttempt config s.registeredNodes fault r]⟩ := by
  obtain ⟨hid, hnode, -⟩ := @deleteAttempt_replica config s.registeredNodes fault r
  refine ⟨?_, ?_⟩
  · have hvisited := h.visited
    simp only at hvisited
    rw [hstore, hvisited, List.map_append, List.map_singleton, hid, hnode, List.append_assoc,
      List.singleton_append]
  · intro a ha
    rw [hhome, hdisks]
    rcases List.mem_append.mp ha with ha | ha
    · obtain ⟨ep, hep, hgone⟩ := h.gone a ha
      exact ⟨ep, hep, deleteReplica_none config _ _ _ hgone⟩
    · rw [List.mem_singleton.mp ha, hid, hnode]
      cases hl : s.registeredNodes.lookup r.2 with
      | none =>
        simp only [deleteAttempt, hl] at hconfirmed
        cases hconfirmed
      | some info =>
        simp only [deleteAttempt, hl] at hconfirmed
        refine ⟨info.endpoint, hnodes.registered _ _ hl, ?_⟩
        exact deleteReplica_confirmed config s.disks hl hconfirmed

/-- An upload that a tidy step fails has placed nothing. -/
theorem placements_of_failed {a : Action} {k : Nat} {call : PutCall} {status : Status}
    {response : PutFileResponse} (ht : s.step config a = some t) (hput : s.puts k = some call)
    (hprog : call.inProgress) (hput' : t.puts k = some { call with phase := .answered status response })
    (hstatus : status.isOk = false) (hclean : failsPlaced config s a = false) : call.placements = [] := by
  have hown : a.call? = some (.put k) := by
    by_contra hne
    have hsame := puts_of_step ht hne hput
    rw [hput'] at hsame
    injection hsame with hsame
    exact hprog status response (congrArg PutCall.phase hsame).symm
  simp only [failsPlaced, hown, hput, ht, Option.bind_some, hput', PutPhase.failed, hstatus, Bool.not_false,
    Bool.and_true, Bool.not_eq_false', List.isEmpty_iff] at hclean
  exact hclean

/-- **One tidy step** loses no chunk file. -/
theorem tidyInv_step {a : Action} {owner : String → Owner} (hnodes : NodeInv s) (ho : Owned s owner)
    (htidy : Tidy config s a) (ht : s.step config a = some t) (h : TidyInv config s) : TidyInv config t := by
  obtain ⟨hclean, hcommit, hdrop, hleave⟩ := htidy
  cases step_move ht with
  | putStarted k messages hput =>
    refine h.frame rfl (fun _ _ hd => hd) rfl rfl fun r hr => hr.kept ?_ (fun _ => rfl) rfl
    intro k' c hput' hprog hmem
    have hk : k' ≠ k := by
      rintro rfl
      cases hput.symm.trans hput'
    exact .upload k' c ((Function.update_of_ne hk ..).trans hput') hprog hmem
  | putFailed k call status store nextNodeIndex hput hprog hstatus hstore =>
    have hnone := placements_of_failed ht hput hprog (Function.update_self ..) hstatus hclean
    refine h.advance hput rfl rfl rfl ?_ hstore.findFile hstore.deletedEntries rfl
    rw [hnone]
    exact fun r hr => nomatch hr
  | putAccepted k call store hput hphase hacc hstore =>
    refine h.advance hput rfl rfl rfl ?_ hstore.findFile hstore.deletedEntries rfl
    intro r hr
    rw [PutCall.placements, hphase] at hr
    exact ⟨PutCall.inProgress_of_phase rfl rfl, hr⟩
  | putDrawn k call hput hphase hlt =>
    refine h.advance hput rfl rfl rfl ?_ (fun _ => rfl) rfl rfl
    intro r hr
    rw [PutCall.placements, hphase] at hr
    exact ⟨PutCall.inProgress_of_phase rfl rfl, hr⟩
  | putPlaced k order call chunkId hput hphase horder hne =>
    refine h.advance hput rfl rfl rfl ?_ (fun _ => rfl) rfl rfl
    intro r hr
    rw [PutCall.placements, hphase] at hr
    refine ⟨PutCall.inProgress_of_phase rfl rfl, List.mem_append_left _ ?_⟩
    exact (List.append_nil _).subst hr
  | putStored k j call chunkId nodeIds results fault hput hphase hj hnew =>
    refine ⟨accounted_putStored hnodes ho hput hphase hj rfl rfl rfl rfl h.accounted, ?_⟩
    intro p hp
    refine (h.pass p hp).kept (fun _ _ hd => hd) rfl fun a ha => ?_
    obtain ⟨deleteTime, hattempt⟩ := (h.pass p hp).owner_of_attempt ho ha
    have hchunk := ho.owner_placed hput hphase
    refine keeps_putStore ho (by simp [hchunk]) (by simp [hattempt]) ?_ rfl
    intro he
    rw [he, hchunk] at hattempt
    cases hattempt
  | putChunkDone k call chunkId nodeIds results hput hphase hok =>
    refine h.advance hput rfl rfl rfl ?_ (fun _ => rfl) rfl rfl
    intro r hr
    rw [PutCall.placements, hphase] at hr
    refine ⟨PutCall.inProgress_of_phase rfl rfl, List.mem_append_left _ ?_⟩
    rw [List.map_append]
    exact hr
  | putCommitted k call hput hpass hphase hlen =>
    have hfresh : s.store.findFile (uploadName call.messages) = none := by
      simp only [replacesFile, hput] at hcommit
      rwa [Option.isSome_eq_false_iff, Option.isNone_iff_eq_none] at hcommit
    refine ⟨h.accounted.kept (fun _ _ hd => hd) (fun _ _ hs => hs)
      fun r hr => onRecord_committed hput hphase hfresh rfl hr, ?_⟩
    intro p hp
    cases hpass.symm.trans hp
  | deleteMoved d call store hold hanswer hstore =>
    exact h.frame rfl (fun _ _ hd => hd) hstore.deletedEntries rfl fun r hr =>
      hr.same rfl hstore.findFile hstore.deletedEntries
  | pathDeleted d path now hdel hpass hnow =>
    have hkept : ∀ x ∈ s.store.deletedEntries,
        x ∈ (s.store.deletePath path s.clock now).deletedEntries := by
      intro x hx
      simp only [dropsTombstone, hdel, List.any_eq_false, decide_eq_true_eq, not_not] at hdrop
      exact hdrop x hx
    refine ⟨h.accounted.kept (fun _ _ hd => hd) (fun _ _ hs => hs)
      fun r hr => onRecord_deleted hkept hr, ?_⟩
    intro p hp
    cases hpass.symm.trans hp
  | registered r ep assignedId hreg =>
    have hnone := (hnodes.pending r _ assignedId hreg rfl).1
    refine h.frame rfl ?_ rfl rfl fun r hr =>
      hr.same rfl (fun _ => rfl) rfl
    intro d ep' hd
    have hne : d ≠ assignedId := by
      rintro rfl
      cases hnone.symm.trans hd
    exact (Function.update_of_ne hne ..).trans hd
  | cleanupBegun hpass hrun =>
    refine ⟨h.accounted.kept (fun _ _ hd => hd) (fun _ _ hs => hs) fun r hr =>
      hr.same rfl (fun _ => rfl) rfl, ?_⟩
    rintro p ⟨⟩
    exact ⟨rfl, fun a ha => nomatch ha⟩
  | chunkDeleted now r todo attempts fault hpass =>
    have hconfirmed : (deleteAttempt config s.registeredNodes fault r).confirmed = true := by
      simpa only [leavesReplica, hpass, Bool.not_eq_false'] using hleave
    refine ⟨h.accounted.kept (fun _ _ hd => hd) ?_ fun r hr =>
      hr.same rfl (fun _ => rfl) rfl, ?_⟩
    · intro ep n hs
      rw [Option.isSome_iff_ne_none] at hs ⊢
      exact fun hnone => hs (deleteReplica_none config _ _ _ hnone)
    · rintro p ⟨⟩
      exact passCleans_chunkDeleted hnodes hconfirmed rfl rfl rfl (h.pass _ hpass)
  | cleanupEnded now attempts hpass =>
    refine ⟨accounted_cleanupEnded (h.pass _ hpass) h.accounted, ?_⟩
    rintro p ⟨⟩
  | _ =>
    exact h.frame rfl (fun _ _ hd => hd) rfl rfl fun r hr =>
      hr.same rfl (fun _ => rfl) rfl

/-! ## Runs -/

theorem tidyInv_start (h : StartsEmpty config s) : TidyInv config s := by
  obtain ⟨disks, rfl, hempty⟩ := h
  refine ⟨?_, fun p hp => nomatch hp⟩
  intro ep n hs
  rw [show (System.start disks).disks = disks from rfl, hempty] at hs
  cases hs

theorem tidyInv_of_reachable (hs : Reachable (System.step config) (StartsEmpty config) (Tidy config) s)
    (hb : WithinCounters s) : TidyInv config s := by
  refine hs.invariant_within (P := TidyInv config) (B := WithinCounters)
    (fun s a t ht hb => withinCounters_back ht hb) (fun s h => tidyInv_start h) ?_ hb
  intro s a t hs htidy ht hb h
  have hbs := withinCounters_back ht hb
  have hany : Reachable (System.step config) Initial (Tidy config) s :=
    hs.mono_init fun s ⟨disks, he, _⟩ => ⟨disks, he⟩
  obtain ⟨owner, ho⟩ := owned_of_reachable hany hbs.1
  exact tidyInv_step (nodeInv_of_reachable hany hbs.2) ho htidy ht h

end

/-! ## Top theorem -/

/-- **A tidy run leaks no chunk.** -/
theorem nothingLeaked_of_tidy (config : Endpoint → DataNodeConfig) (s : System)
    (hs : Reachable (System.step config) (StartsEmpty config) (Tidy config) s) (hb : WithinCounters s) :
    NothingLeaked config s := by
  have haccounted := (tidyInv_of_reachable hs hb).accounted
  refine ⟨haccounted, ?_⟩
  intro hnone ep n
  by_contra hstored
  obtain ⟨nodeIds, hrec, -⟩ := haccounted ep n (Option.isSome_iff_ne_none.mpr hstored)
  exact hnone _ hrec

/-- A file is uploaded and deleted, and cleaned up after five minutes. -/
def wholeLife : List Action :=
  deletedFile ++ [.cleanupBegin, .cleanupDelete {}, .cleanupDelete {}, .cleanupDelete {}, .cleanupEnd]

theorem nothingLeaked_wholeLife : ∃ s,
    exec (System.step plainConfig) (System.start fun _ _ => none) wholeLife = some s ∧
      NothingLeaked plainConfig s := by
  have hrun : (exec (System.step plainConfig) (System.start fun _ _ => none) wholeLife).map
      (fun s => (s.chunkIdsDrawn, s.nodeIdsDrawn)) = some (1, 1) := by decide
  have htidy : Along (System.step plainConfig) (Tidy plainConfig) (System.start fun _ _ => none)
      wholeLife := by decide
  obtain ⟨s, hs, hrun⟩ := Option.map_eq_some_iff.mp hrun
  injection hrun with hchunks hnodes
  have hempty : StartsEmpty plainConfig (System.start fun _ _ => none) := by
    refine ⟨_, rfl, fun ep n => ?_⟩
    unfold stored
    split <;> rfl
  exact ⟨s, hs, nothingLeaked_of_tidy plainConfig s (Reachable.exec_along (.init hempty) hs htidy)
    ⟨by rw [hchunks]; decide, by rw [hnodes]; decide⟩⟩

end ToyDfs
