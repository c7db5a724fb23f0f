import ToyDfs.NodeIds
import ToyDfs.ChunkOwners

/-!
What the datanodes hold for the uploads in progress and for the active files.

`DataInv`: the replicas that were answered OK hold their chunks, and a name denotes
what the upload that committed last under it sent (`lastWrite`).  It holds in every
state of a run of honest datanodes (`dataInv_of_reachable`).  A step that writes to
a datanode only touches the chunk id of one upload or tombstone, and that id has no
other owner.
-/

namespace ToyDfs

open Transition

/-! ## Invariant -/

/-- The commit or `deletePath` this event is, if it is one on `path`. -/
def Event.write (path : String) : Event → Option (Option Nat)
  | .committed h p _ => if p = path then some (some h) else none
  | .deletedPath p _ => if p = path then some none else none

/-- The last commit or `deletePath` on `path`. -/
def lastWrite (path : String) (log : List Event) : Option (Option Nat) :=
  log.findSome? (Event.write path)

theorem lastWrite_committed {path name : String} (k : Nat) (replaced : Bool) (log : List Event)
    (h : path = name) : lastWrite path (.committed k name replaced :: log) = some (some k) := by
  rw [lastWrite, List.findSome?_cons, Event.write, if_pos h.symm]

theorem lastWrite_committed_ne {path name : String} (k : Nat) (replaced : Bool) (log : List Event)
    (h : path ≠ name) : lastWrite path (.committed k name replaced :: log) = lastWrite path log := by
  rw [lastWrite, List.findSome?_cons, Event.write, if_neg h.symm]
  rfl

theorem lastWrite_deletedPath (path : String) (found : Bool) (log : List Event) :
    lastWrite path (.deletedPath path found :: log) = some none := by
  rw [lastWrite, List.findSome?_cons, Event.write, if_pos rfl]

theorem lastWrite_deletedPath_ne {path name : String} (found : Bool) (log : List Event)
    (h : path ≠ name) : lastWrite path (.deletedPath name found :: log) = lastWrite path log := by
  rw [lastWrite, List.findSome?_cons, Event.write, if_neg h.symm]
  rfl

section
variable (config : Endpoint → DataNodeConfig)

/-- The datanode of node `d` keeps this content under the chunk id. -/
def Holds (s : System) (chunkId : String) (d : Int32) (data : Bytes) : Prop :=
  ∃ ep, s.home d = some ep ∧ stored (config ep) (s.disks ep) chunkId = some data

/-- All replicas of these chunks of `content` are there. -/
def ChunksStored (s : System) (chunks : List ChunkInfo) (content : Bytes) : Prop :=
  ∀ i chunk, chunks[i]? = some chunk → ∀ d ∈ chunk.nodeIds,
    Holds config s chunk.chunkId d (chunkData content i)

/-- An upload in progress. -/
structure UploadOk (s : System) (call : PutCall) : Prop where
  room : call.chunks.length + call.phase.chunkIds.length ≤ chunkCount (uploadData call.messages)
  chunks : ChunksStored config s call.chunks (uploadData call.messages)
  results : ∀ chunkId nodeIds results, call.phase = .placed chunkId nodeIds results →
    (∀ j < nodeIds.length, ∀ status, results j = some status → status.isOk = true) →
      ∀ j < nodeIds.length, (results j).isSome →
        Holds config s chunkId (nodeIds.getD j 0)
          (chunkData (uploadData call.messages) call.chunks.length)

/-- The active file `path` is what call `h` uploaded. -/
def Uploaded (s : System) (path : String) (h : Nat) : Prop :=
  ∃ call, s.puts h = some call ∧ call.phase = .answered Status.OK { success := true } ∧
    uploadName call.messages = path ∧
    call.chunks.length = chunkCount (uploadData call.messages) ∧
    s.store.findFile path =
      some { emptyMeta (uploadData call.messages).length with chunks := call.chunks } ∧
    ChunksStored config s call.chunks (uploadData call.messages)

def EntryOk (s : System) (path : String) : Option (Option Nat) → Prop
  | some (some h) => Uploaded config s path h
  | _ => s.store.findFile path = none

structure DataInv (s : System) : Prop where
  uploads : ∀ h call, s.puts h = some call → call.inProgress → UploadOk config s call
  entries : ∀ path, EntryOk config s path (lastWrite path s.log)

end

/-! ## What carries over from state to state -/

section
variable {config : Endpoint → DataNodeConfig} {s t : System}

/-- Nodes that have a home keep it. -/
def HomesKept (s t : System) : Prop := ∀ d ep, s.home d = some ep → t.home d = some ep

/-- The files of this chunk are the same. -/
def Keeps (config : Endpoint → DataNodeConfig) (s t : System) (chunkId : String) : Prop :=
  ∀ ep, stored (config ep) (t.disks ep) chunkId = stored (config ep) (s.disks ep) chunkId

theorem Holds.kept {chunkId : String} {d : Int32} {data : Bytes} (h : Holds config s chunkId d data)
    (hhome : HomesKept s t) (hkeep : Keeps config s t chunkId) : Holds config t chunkId d data := by
  obtain ⟨ep, hep, hst⟩ := h
  exact ⟨ep, hhome d ep hep, (hkeep ep).trans hst⟩

theorem ChunksStored.kept {chunks : List ChunkInfo} {content : Bytes}
    (h : ChunksStored config s chunks content) (hhome : HomesKept s t)
    (hkeep : ∀ id ∈ chunks.map ChunkInfo.chunkId, Keeps config s t id) :
    ChunksStored config t chunks content := by
  intro i chunk hi d hd
  refine (h i chunk hi d hd).kept hhome (hkeep _ ?_)
  exact List.mem_map_of_mem (List.mem_of_getElem? hi)

theorem UploadOk.kept {call : PutCall} (h : UploadOk config s call) (hhome : HomesKept s t)
    (hkeep : ∀ id ∈ call.chunkIds, Keeps config s t id) : UploadOk config t call := by
  refine ⟨h.room, h.chunks.kept hhome fun id hid => hkeep id (List.mem_append_left _ hid), ?_⟩
  intro chunkId nodeIds results hphase hok j hj hsome
  refine (h.results chunkId nodeIds results hphase hok j hj hsome).kept hhome (hkeep _ ?_)
  exact PutCall.mem_chunkIds_placed hphase

theorem UploadOk.same {call : PutCall} (h : UploadOk config s call) (hhome : t.home = s.home)
    (hdisks : t.disks = s.disks) : UploadOk config t call := by
  refine h.kept (fun d ep hd => by rw [hhome, hd]) fun id _ ep => ?_
  rw [hdisks]

/-- An active file, through a step that leaves its upload's record and its entry. -/
theorem Uploaded.kept {path : String} {h : Nat} (hu : Uploaded config s path h)
    (hputs : ∀ call, s.puts h = some call → ¬ call.inProgress → t.puts h = some call)
    (hfind : t.store.findFile path = s.store.findFile path) (hhome : HomesKept s t)
    (hkeep : ∀ fileMeta, s.store.findFile path = some fileMeta →
      ∀ id ∈ fileMeta.chunkIds, Keeps config s t id) : Uploaded config t path h := by
  obtain ⟨call, hput, hphase, hname, hlen, hfile, hchunks⟩ := hu
  refine ⟨call, hputs call hput (fun hprog => hprog _ _ hphase), hphase, hname, hlen,
    hfind.trans hfile, hchunks.kept hhome fun id hid => hkeep _ hfile id hid⟩

theorem EntryOk.kept {path : String} {write : Option (Option Nat)} (h : EntryOk config s path write)
    (hputs : ∀ k call, s.puts k = some call → ¬ call.inProgress → t.puts k = some call)
    (hfind : t.store.findFile path = s.store.findFile path) (hhome : HomesKept s t)
    (hkeep : ∀ fileMeta, s.store.findFile path = some fileMeta →
      ∀ id ∈ fileMeta.chunkIds, Keeps config s t id) : EntryOk config t path write := by
  match write, h with
  | some (some k), h => exact Uploaded.kept h (hputs k) hfind hhome hkeep
  | some none, h => exact hfind.trans h
  | none, h => exact hfind.trans h

/-- Steps of other handlers. -/
theorem DataInv.frame (h : DataInv config s) (hputs : t.puts = s.puts) (hlog : t.log = s.log)
    (hfind : ∀ path, t.store.findFile path = s.store.findFile path) (hhome : HomesKept s t)
    (hkeep : ∀ k call, s.puts k = some call → call.inProgress →
      ∀ id ∈ call.chunkIds, Keeps config s t id)
    (hkeepFile : ∀ path fileMeta, s.store.findFile path = some fileMeta →
      ∀ id ∈ fileMeta.chunkIds, Keeps config s t id) : DataInv config t := by
  refine ⟨?_, ?_⟩
  · rw [hputs]
    exact fun k call hput hprog => (h.uploads k call hput hprog).kept hhome (hkeep k call hput hprog)
  · intro path
    rw [hlog]
    exact (h.entries path).kept (fun k call hput _ => by rw [hputs, hput]) (hfind path) hhome
      (hkeepFile path)

/-- Upload `k` takes a step. -/
theorem DataInv.advance (h : DataInv config s) {k : Nat} {call' : PutCall}
    (hputs : t.puts = Function.update s.puts k (some call')) (hlog : t.log = s.log)
    (hfind : ∀ path, t.store.findFile path = s.store.findFile path) (hhome : t.home = s.home)
    (hprog : ∀ call, s.puts k = some call → call.inProgress)
    (hkeep : ∀ k' call, k' ≠ k → s.puts k' = some call → call.inProgress →
      ∀ id ∈ call.chunkIds, Keeps config s t id)
    (hkeepFile : ∀ path fileMeta, s.store.findFile path = some fileMeta →
      ∀ id ∈ fileMeta.chunkIds, Keeps config s t id)
    (hnew : call'.inProgress → UploadOk config t call') : DataInv config t := by
  have hhomes : HomesKept s t := fun d ep hd => by rw [hhome, hd]
  refine ⟨?_, ?_⟩
  · intro k' call hput hp
    rw [hputs] at hput
    rcases update_some_iff.mp hput with ⟨-, rfl⟩ | ⟨hne, hput⟩
    · exact hnew hp
    · exact (h.uploads k' call hput hp).kept hhomes (hkeep k' call hne hput hp)
  · intro path
    rw [hlog]
    refine (h.entries path).kept ?_ (hfind path) hhomes (hkeepFile path)
    intro k' call hput hnot
    have hne : k' ≠ k := by
      rintro rfl
      exact hnot (hprog call hput)
    rw [hputs, Function.update_of_ne hne, hput]

theorem Keeps.of_eq (h : t.disks = s.disks) (chunkId : String) : Keeps config s t chunkId := by
  intro ep
  rw [h]

/-- Steps that leave the disks alone. -/
theorem DataInv.frame_disks (h : DataInv config s) (hdisks : t.disks = s.disks) (hputs : t.puts = s.puts)
    (hlog : t.log = s.log) (hfind : ∀ path, t.store.findFile path = s.store.findFile path)
    (hhome : HomesKept s t) : DataInv config t :=
  h.frame hputs hlog hfind hhome (fun _ _ _ _ id _ => Keeps.of_eq hdisks id)
    fun _ _ _ id _ => Keeps.of_eq hdisks id

theorem DataInv.advance_disks (h : DataInv config s) {k : Nat} {call' : PutCall}
    (hdisks : t.disks = s.disks) (hputs : t.puts = Function.update s.puts k (some call'))
    (hlog : t.log = s.log) (hfind : ∀ path, t.store.findFile path = s.store.findFile path)
    (hhome : t.home = s.home) (hprog : ∀ call, s.puts k = some call → call.inProgress)
    (hnew : call'.inProgress → UploadOk config t call') : DataInv config t :=
  h.advance hputs hlog hfind hhome hprog (fun _ _ _ _ _ id _ => Keeps.of_eq hdisks id)
    (fun _ _ _ id _ => Keeps.of_eq hdisks id) hnew

/-- A replica write touches no other owned chunk. -/
theorem keeps_putStore {owner : String → Owner} (ho : Owned s owner) {chunkId id : String}
    (hc : owner chunkId ≠ .nobody) (hi : owner id ≠ .nobody) (hne : id ≠ chunkId) {fault : PutFault}
    {data : Bytes} {nodeId : Int32}
    (hd : t.disks =
      (distributeChunkToSingleNode config s.registeredNodes fault chunkId data nodeId s.disks).2) :
    Keeps config s t id := by
  obtain ⟨n, -, rfl⟩ := ho.drawn _ hc
  obtain ⟨m, -, rfl⟩ := ho.drawn _ hi
  intro ep
  rw [hd]
  exact distributeChunkToSingleNode_other config _ (fun he => hne (congrArg chunkName he)) fault data
    nodeId _ ep

/-- Nor does a deletion. -/
theorem keeps_chunkDelete {owner : String → Owner} (ho : Owned s owner) {r : String × Int32}
    {id : String} (hr : owner r.1 ≠ .nobody) (hi : owner id ≠ .nobody) (hne : id ≠ r.1)
    {fault : DeleteFault}
    (hd : t.disks = deleteReplica config s.registeredNodes fault r s.disks) : Keeps config s t id := by
  obtain ⟨n, -, hn⟩ := ho.drawn _ hr
  obtain ⟨m, -, rfl⟩ := ho.drawn _ hi
  obtain ⟨chunkId, d⟩ := r
  simp only at hn
  subst hn
  intro ep
  rw [hd]
  exact deleteReplica_other config (fun he => hne (congrArg chunkName he)) _ fault d _ ep

/-- The tombstone a pass got a replica from. -/
theorem owner_of_todo {owner : String → Owner} (ho : Owned s owner) {p : Pass}
    (hsuf : p.todo <:+ passReplicas p.now s.store) {r : String × Int32} (hr : r ∈ p.todo) :
    ∃ x ∈ s.store.deletedEntries, x.expired p.now = true ∧ r ∈ x.fileMeta.replicas ∧
      owner r.1 = .tombstones x.deleteTime := by
  obtain ⟨x, hx, hexp, hmem⟩ := mem_passReplicas.mp (hsuf.subset hr)
  refine ⟨x, hx, hexp, hmem, ho.tombstones x hx r.1 ?_⟩
  obtain ⟨chunk, hchunk, hr⟩ := List.mem_flatMap.mp hmem
  obtain ⟨d, -, rfl⟩ := List.mem_map.mp hr
  exact List.mem_map_of_mem hchunk

/-! ## Steps -/

theorem prog_of_put {k : Nat} {call : PutCall} (hput : s.puts k = some call) (hprog : call.inProgress) :
    ∀ call', s.puts k = some call' → call'.inProgress := by
  intro call' hput'
  rw [hput] at hput'
  cases hput'
  exact hprog

/-- One replica write, answered OK or not. -/
theorem uploadOk_putStored {k j : Nat} {call : PutCall} {chunkId : String} {nodeIds : List Int32}
    {results : Nat → Option Status} {fault : PutFault} {owner : String → Owner}
    (hnodes : NodeInv s) (ho : Owned s owner) (h : UploadOk config s call)
    (hput : s.puts k = some call) (hphase : call.phase = .placed chunkId nodeIds results)
    (hj : j < nodeIds.length) (hnew : results j = none) (hhonest : fault.Complete)
    (hhome : t.home = s.home) {status : Status}
    (hsent : (status, t.disks) = distributeChunkToSingleNode config s.registeredNodes fault chunkId
      (chunkData (uploadData call.messages) call.chunks.length) (nodeIds.getD j 0) s.disks) :
    UploadOk config t
      { call with phase := .placed chunkId nodeIds (Function.update results j (some status)) } := by
  have hprog := PutCall.inProgress_of_phase hphase rfl
  have hids : call.chunkIds = call.chunks.map ChunkInfo.chunkId ++ [chunkId] := by
    rw [PutCall.chunkIds, hphase]
    rfl
  have howner := ho.uploads k call hput hprog
  rw [hids] at howner
  have hdistinct := ho.distinct k call hput hprog
  rw [hids] at hdistinct
  have hc := ho.owner_placed hput hphase
  have hhomes : HomesKept s t := fun d ep hd => by rw [hhome, hd]
  have hroom := h.room
  rw [hphase] at hroom
  refine ⟨hroom, h.chunks.kept hhomes ?_, ?_⟩
  · intro id hid
    have hi := howner id (List.mem_append_left _ hid)
    refine keeps_putStore ho (by simp [hc]) (by simp [hi]) ?_ (congrArg Prod.snd hsent)
    rintro rfl
    exact (List.nodup_append.mp hdistinct).2.2 id hid id (List.mem_singleton_self _) rfl
  · intro chunkId' nodeIds' results' hphase' hok j' hj' hsome
    cases hphase'
    -- the new status is OK, so the write kept all its data
    have hjok := hok j hj status (Function.update_self ..)
    have hok' : (distributeChunkToSingleNode config s.registeredNodes fault chunkId
        (chunkData (uploadData call.messages) call.chunks.length) (nodeIds.getD j 0) s.disks).1.isOk =
        true := by
      rw [← hsent]
      exact hjok
    obtain ⟨⟨info, hl, hcreates⟩, hst⟩ := distributeChunkToSingleNode_complete hhonest hok'
    rw [← hsent] at hst
    by_cases hjj : j' = j
    · subst hjj
      refine ⟨info.endpoint, hhomes _ _ (hnodes.registered _ _ hl), ?_⟩
      rw [hst, if_pos hcreates]
    · rw [Function.update_of_ne hjj] at hsome
      have hold : ∀ i < nodeIds.length, ∀ st, results i = some st → st.isOk = true := by
        intro i hi st hres
        refine hok i hi st ?_
        have hij : i ≠ j := by
          rintro rfl
          rw [hnew] at hres
          cases hres
        rwa [Function.update_of_ne hij]
      obtain ⟨ep, hep, hs⟩ := h.results chunkId nodeIds results hphase hold j' hj' hsome
      refine ⟨ep, hhomes _ _ hep, ?_⟩
      rw [hst]
      split
      · rfl
      · exact hs

/-- All replica writes of a chunk were answered OK. -/
theorem uploadOk_chunkDone {call : PutCall} {chunkId : String} {nodeIds : List Int32}
    {results : Nat → Option Status} (h : UploadOk config s call)
    (hphase : call.phase = .placed chunkId nodeIds results)
    (hok : ∀ j < nodeIds.length, ∃ status, results j = some status ∧ status.isOk = true) :
    UploadOk config s { call with
      chunks := call.chunks ++ [{ chunkId := chunkId, nodeIds := nodeIds, replicationFactor := 3 }]
      phase := .looping } := by
  have hroom := h.room
  rw [hphase] at hroom
  refine ⟨?_, ?_, ?_⟩
  · simpa [PutPhase.chunkIds] using hroom
  · intro i chunk hi d hd
    rcases Nat.lt_or_ge i call.chunks.length with hlt | hge
    · rw [List.getElem?_append_left hlt] at hi
      exact h.chunks i chunk hi d hd
    · obtain ⟨hile, hget⟩ := List.getElem?_eq_some_iff.mp hi
      have hlen : i = call.chunks.length := by
        simp at hile
        omega
      subst hlen
      rw [List.getElem_append_right (Nat.le_refl _)] at hget
      simp only [Nat.sub_self, List.getElem_cons_zero] at hget
      subst hget
      obtain ⟨j, hj, rfl⟩ := List.getElem_of_mem hd
      have hgetD : nodeIds.getD j 0 = nodeIds[j] := by
        rw [List.getD_eq_getElem?_getD, List.getElem?_eq_getElem hj, Option.getD_some]
      rw [← hgetD]
      refine h.results chunkId nodeIds results hphase ?_ j hj ?_
      · intro i hi status hst
        obtain ⟨status', hst', hisOk⟩ := hok i hi
        rw [hst'] at hst
        cases hst
        exact hisOk
      · obtain ⟨status, hst, -⟩ := hok j hj
        rw [hst]
        rfl
  · rintro _ _ _ ⟨⟩

theorem dataInv_committed {k : Nat} {call : PutCall} {replaced : Bool} (h : DataInv config s)
    (hput : s.puts k = some call) (hphase : call.phase = .looping)
    (hlen : ¬ call.chunks.length < chunkCount (uploadData call.messages)) :
    DataInv config ({ s with
      store := s.store.putFile (uploadName call.messages)
        { emptyMeta (uploadData call.messages).length with chunks := call.chunks }
      log := .committed k (uploadName call.messages) replaced :: s.log }.setPut k
        { call with phase := .answered Status.OK { success := true } }) := by
  have hprog := PutCall.inProgress_of_phase hphase rfl
  have hup := h.uploads k call hput hprog
  have hroom := hup.room
  refine ⟨?_, ?_⟩
  · intro k' call' hput' hp
    rcases update_some_iff.mp hput' with ⟨-, rfl⟩ | ⟨-, hput'⟩
    · exact absurd rfl (hp _ _)
    · exact (h.uploads k' call' hput' hp).same rfl rfl
  · intro path
    show EntryOk config _ path (lastWrite path (.committed k (uploadName call.messages) replaced :: s.log))
    by_cases hpath : path = uploadName call.messages
    · rw [lastWrite_committed k replaced s.log hpath]
      refine ⟨_, Function.update_self .., rfl, hpath.symm, ?_, ?_, hup.chunks⟩
      · show call.chunks.length = chunkCount (uploadData call.messages)
        omega
      · rw [hpath]
        exact MetadataStore.findFile_putFile ..
    · rw [lastWrite_committed_ne k replaced s.log hpath]
      refine (h.entries path).kept ?_ (MetadataStore.findFile_putFile_ne _ _ hpath) (fun _ _ hd => hd)
        fun _ _ id _ => Keeps.of_eq rfl id
      intro k' call' hput' hnot
      have hne : k' ≠ k := by
        rintro rfl
        exact hnot (prog_of_put hput hprog call' hput')
      exact (Function.update_of_ne hne ..).trans hput'

theorem dataInv_deleted {path : String} {now : TimePoint} {d : Nat} {call : DeleteCall} {found : Bool}
    (h : DataInv config s) :
    DataInv config ({ s with
      store := s.store.deletePath path s.clock now
      running := true
      clock := now
      log := .deletedPath path found :: s.log }.setDelete d call) := by
  refine ⟨fun k call hput hp => (h.uploads k call hput hp).same rfl rfl, ?_⟩
  intro q
  show EntryOk config _ q (lastWrite q (.deletedPath path found :: s.log))
  by_cases hq : q = path
  · subst hq
    rw [lastWrite_deletedPath]
    exact MetadataStore.findFile_deletePath ..
  · rw [lastWrite_deletedPath_ne found s.log hq]
    exact (h.entries q).kept (fun _ _ hput _ => hput) (MetadataStore.findFile_deletePath_ne _ _ _ hq)
      (fun _ _ hd => hd) fun _ _ id _ => Keeps.of_eq rfl id

/-- **One step** of honest datanodes keeps the invariant. -/
theorem dataInv_move {a : Action} {owner : String → Owner} (hnodes : NodeInv s) (ho : Owned s owner)
    (hpass : ∀ p, s.pass = some p → p.todo <:+ passReplicas p.now s.store) (hhonest : Honest s a)
    (hm : Move config s a t) (h : DataInv config s) : DataInv config t := by
  cases hm with
  | putStarted k messages hput =>
    refine h.advance_disks rfl rfl rfl (fun _ => rfl) rfl (by intro call hc; cases hput.symm.trans hc)
      fun _ => ?_
    exact ⟨Nat.zero_le _, fun i chunk hi => by simp at hi, by rintro _ _ _ ⟨⟩⟩
  | putFailed k call status store nextNodeIndex hput hprog hstatus hstore =>
    exact h.advance_disks rfl rfl rfl hstore.findFile rfl (prog_of_put hput hprog)
      fun hp => absurd rfl (hp _ _)
  | putAccepted k call store hput hphase hacc hstore =>
    have hprog := PutCall.inProgress_of_phase hphase rfl
    have hup := h.uploads k call hput hprog
    have hroom := hup.room
    refine h.advance_disks rfl rfl rfl hstore.findFile rfl (prog_of_put hput hprog) fun _ => ?_
    exact ⟨Nat.le_of_add_right_le hroom, hup.chunks, by rintro _ _ _ ⟨⟩⟩
  | putDrawn k call hput hphase hlt =>
    have hprog := PutCall.inProgress_of_phase hphase rfl
    have hup := h.uploads k call hput hprog
    refine h.advance_disks rfl rfl rfl (fun _ => rfl) rfl (prog_of_put hput hprog) fun _ => ?_
    exact ⟨hlt, hup.chunks, by rintro _ _ _ ⟨⟩⟩
  | putPlaced k order call chunkId hput hphase horder hne =>
    have hprog := PutCall.inProgress_of_phase hphase rfl
    have hup := h.uploads k call hput hprog
    have hroom := hup.room
    rw [hphase] at hroom
    refine h.advance_disks rfl rfl rfl (fun _ => rfl) rfl (prog_of_put hput hprog) fun _ => ?_
    refine ⟨hroom, hup.chunks, ?_⟩
    intro _ _ _ hp _ j _ hsome
    cases hp
    cases hsome
  | putStored k j call chunkId nodeIds results fault hput hphase hj hnew =>
    have hprog := PutCall.inProgress_of_phase hphase rfl
    have hc := ho.owner_placed hput hphase
    have hothers : ∀ id, owner id ≠ .nobody → owner id ≠ .upload k → Keeps config s
        ({ s with disks := (distributeChunkToSingleNode config s.registeredNodes fault chunkId
          (chunkData (uploadData call.messages) call.chunks.length) (nodeIds.getD j 0) s.disks).2 }) id :=
      fun id hi hk => keeps_putStore ho (by simp [hc]) hi (fun he => hk (he ▸ hc)) rfl
    refine h.advance rfl rfl (fun _ => rfl) rfl (prog_of_put hput hprog) ?_ ?_ fun _ => ?_
    · intro k' call' hne hput' hprog' id hid
      have hi := ho.uploads k' call' hput' hprog' id hid
      exact hothers id (by simp [hi]) (by rw [hi]; exact fun he => hne (Owner.upload.inj he))
    · intro path fileMeta hf id hid
      have hi := ho.files path fileMeta hf id hid
      exact hothers id (by simp [hi]) (by simp [hi])
    · apply uploadOk_putStored hnodes ho (h.uploads k call hput hprog) hput hphase hj hnew hhonest
      · rfl
      · rfl
  | putChunkDone k call chunkId nodeIds results hput hphase hok =>
    have hprog := PutCall.inProgress_of_phase hphase rfl
    exact h.advance_disks rfl rfl rfl (fun _ => rfl) rfl (prog_of_put hput hprog)
      fun _ => (uploadOk_chunkDone (h.uploads k call hput hprog) hphase hok).same rfl rfl
  | putCommitted k call hput hpass hphase hlen => exact dataInv_committed h hput hphase hlen
  | deleteMoved d call store hold hanswer hstore =>
    exact h.frame_disks rfl rfl rfl hstore.findFile fun _ _ hd => hd
  | pathDeleted d path now hdel hpass hnow => exact dataInv_deleted h
  | registered r ep assignedId hreg =>
    have hnone := (hnodes.pending r _ assignedId hreg rfl).1
    refine h.frame_disks rfl rfl rfl (fun _ => rfl) ?_
    intro d ep' hd
    have hne : d ≠ assignedId := by
      rintro rfl
      rw [hnone] at hd
      cases hd
    exact (Function.update_of_ne hne ..).trans hd
  | chunkDeleted now r todo attempts fault hp =>
    obtain ⟨x, -, -, -, hr⟩ := owner_of_todo ho (hpass _ hp) List.mem_cons_self
    have hothers : ∀ id, owner id ≠ .nobody → (∀ time, owner id ≠ .tombstones time) → Keeps config s
        { s with
          disks := deleteReplica config s.registeredNodes fault r s.disks
          pass := some ⟨now, todo, attempts ++ [deleteAttempt config s.registeredNodes fault r]⟩ } id :=
      fun id hi hk => keeps_chunkDelete ho (by simp [hr]) hi (fun he => hk _ (he ▸ hr)) rfl
    refine h.frame rfl rfl (fun _ => rfl) (fun _ _ hd => hd) ?_ ?_
    · intro k call hput hprog id hid
      have hi := ho.uploads k call hput hprog id hid
      exact hothers id (by simp [hi]) fun _ => by simp [hi]
    · intro path fileMeta hf id hid
      have hi := ho.files path fileMeta hf id hid
      exact hothers id (by simp [hi]) fun _ => by simp [hi]
  | _ =>
    exact h.frame_disks rfl rfl rfl (fun _ => rfl) fun _ _ hd => hd

/-! ## Runs -/

theorem dataInv_start (disks : Disks) : DataInv config (.start disks) :=
  ⟨fun _ _ hput => (nomatch hput), fun _ => rfl⟩

/-- Neither id counter has wrapped around. -/
def WithinCounters (s : System) : Prop := s.chunkIdsDrawn < 2 ^ 64 ∧ s.nodeIdsDrawn < 2 ^ 31 - 1

theorem withinCounters_back {a : Action} (ht : s.step config a = some t) (h : WithinCounters t) :
    WithinCounters s :=
  ⟨Nat.lt_of_le_of_lt (chunkIdsDrawn_mono s a t ht) h.1,
    Nat.lt_of_le_of_lt (nodeIdsDrawn_mono s a t ht) h.2⟩

/-- **The datanodes hold what the metadata says**, in every state of a run of honest
datanodes. -/
theorem dataInv_of_reachable {ok : System → Action → Prop} (hok : ∀ s a, ok s a → Honest s a)
    (hs : Reachable (System.step config) Initial ok s) (hb : WithinCounters s) : DataInv config s := by
  refine hs.invariant_within (P := DataInv config) (B := WithinCounters)
    (fun s a t ht hb => withinCounters_back ht hb) ?_ ?_ hb
  · rintro s ⟨disks, rfl⟩
    exact dataInv_start disks
  · intro s a t hs hoka ht hb h
    have hbs := withinCounters_back ht hb
    obtain ⟨owner, ho⟩ := owned_of_reachable hs hbs.1
    exact dataInv_move (nodeInv_of_reachable hs hbs.2) ho (pass_suffix_of_reachable hs) (hok s a hoka)
      (step_move ht) h

end

end ToyDfs
