import ToyDfs.Upload
import ToyDfs.CleanupPass
import ToyDfs.Lib.Transition

/-!
The coordinator and its datanodes while any number of handlers run at once.

A `System` is a `Cluster` with the calls in progress: `puts`, `deletes` and
`registers` by call number, and the cleanup pass if there is one.  An `Action` is
one atomic step of one of them, made of the same pieces as the handlers in
`ToyDfs.Coordinator`:

* `PutFile`: existence check (with the rest of the stream), drawing a chunk id,
  selecting nodes, one replica write each, collecting the statuses, commit;
* `DeleteFile`: existence check, `deletePath`;
* `RegisterDataNode`: scan, drawing an id, insertion; `UnregisterDataNode`;
* the cleanup pass: begin, one deletion each, end.  It holds the store's lock all
  the time, so no other step on the store is enabled meanwhile.

What an action cannot know (iteration order, faults, the clock) it carries.
`chunkIdsDrawn`, `nodeIdsDrawn`, `home` and `log` are history, read by no step.

`Move` lists what a step can do, `step_move` is the inversion lemma every
invariant below is proved from.
-/

namespace ToyDfs

open Transition

/-! ## Calls in progress -/

/-- How far a `PutFile` is. -/
inductive PutPhase
  | started
  /-- between two chunks -/
  | looping
  | drawn (chunkId : String)
  /-- `results j`: the status of replica write `j`, once it is there -/
  | placed (chunkId : String) (nodeIds : List Int32) (results : Nat → Option Status)
  | answered (status : Status) (response : PutFileResponse)

structure PutCall where
  messages : List PutFileRequest
  /-- the chunks stored so far -/
  chunks : List ChunkInfo := []
  phase : PutPhase := .started

inductive DeletePhase
  | started
  | checked
  | answered (status : Status) (response : DeleteFileResponse)
deriving DecidableEq, Repr

structure DeleteCall where
  path : String
  phase : DeletePhase := .started
deriving DecidableEq, Repr

inductive RegisterPhase
  | started
  /-- no node has the address and port -/
  | scanned
  | drawn (nodeId : Int32)
  | answered (response : RegisterDataNodeResponse)
deriving DecidableEq, Repr

structure RegisterCall where
  endpoint : Endpoint
  phase : RegisterPhase := .started
deriving DecidableEq, Repr

/-- A cleanup pass that read the clock at `now`: the replicas it still has to visit,
and what it did so far. -/
structure Pass where
  now : TimePoint
  todo : List (String × Int32)
  attempts : List DeleteAttempt := []
deriving DecidableEq, Repr

/-- What happened to the entries. -/
inductive Event
  /-- `putFile` by call `h`; was there an entry under the name? -/
  | committed (h : Nat) (path : String) (replaced : Bool)
  /-- `deletePath`; was there a file? -/
  | deletedPath (path : String) (found : Bool)
deriving DecidableEq, Repr

structure System extends Cluster where
  clock : TimePoint
  puts : Nat → Option PutCall
  deletes : Nat → Option DeleteCall
  registers : Nat → Option RegisterCall
  pass : Option Pass
  chunkIdsDrawn : Nat
  nodeIdsDrawn : Nat
  /-- the datanode each node id was handed to -/
  home : Int32 → Option Endpoint
  /-- newest first -/
  log : List Event

namespace System

/-- A coordinator as constructed. -/
def start (disks : Disks) : System where
  toCluster := Cluster.start disks
  clock := 0
  puts _ := none
  deletes _ := none
  registers _ := none
  pass := none
  chunkIdsDrawn := 0
  nodeIdsDrawn := 0
  home _ := none
  log := []

def setPut (s : System) (h : Nat) (call : PutCall) : System :=
  { s with puts := Function.update s.puts h (some call) }

def setDelete (s : System) (d : Nat) (call : DeleteCall) : System :=
  { s with deletes := Function.update s.deletes d (some call) }

def setRegister (s : System) (r : Nat) (call : RegisterCall) : System :=
  { s with registers := Function.update s.registers r (some call) }

/-! ## PutFile -/

def startPut (s : System) (h : Nat) (messages : List PutFileRequest) : Option System :=
  match s.puts h with
  | some _ => none
  | none => some (s.setPut h { messages := messages })

/-- The existence check on the first message, and the rest of the stream. -/
def putCheck (s : System) (h : Nat) : Option System :=
  match s.puts h, s.pass with
  | some ⟨messages, chunks, .started⟩, none =>
    match readUpload messages true "" [] s.store with
    | (.error status, store) =>
      some ({ s with store := store }.setPut h ⟨messages, chunks, .answered status {}⟩)
    | (.ok (filename, _), store) =>
      if filename.isEmpty then
        some ({ s with store := store }.setPut h ⟨messages, chunks, .answered
          { code := .invalidArgument, errorMessage := "Filename not provided" } {}⟩)
      else some ({ s with store := store }.setPut h ⟨messages, chunks, .looping⟩)
  | _, _ => none

/-- `chunk_id_counter++`. -/
def putDraw (s : System) (h : Nat) : Option System :=
  match s.puts h with
  | some ⟨messages, chunks, .looping⟩ =>
    if chunks.length < chunkCount (uploadData messages) then
      some ({ s with
        chunkIdCounter := s.chunkIdCounter + 1
        chunkIdsDrawn := s.chunkIdsDrawn + 1 }.setPut h
          ⟨messages, chunks, .drawn (chunkName s.chunkIdCounter.toNat)⟩)
    else none
  | _ => none

/-- `selectNodesForReplication`, with the registry iterated in this order. -/
def putSelect (s : System) (h : Nat) (order : List Int32) : Option System :=
  match s.puts h with
  | some ⟨messages, chunks, .drawn chunkId⟩ =>
    if order.Perm s.registeredNodes.keys then
      let (nodeIds, nextNodeIndex) := selectNodesForReplication 3 order s.nextNodeIndex
      let s := { s with nextNodeIndex := nextNodeIndex }
      if nodeIds.isEmpty then
        some (s.setPut h ⟨messages, chunks, .answered noNodesAvailable {}⟩)
      else some (s.setPut h ⟨messages, chunks, .placed chunkId nodeIds fun _ => none⟩)
    else none
  | _ => none

/-- Replica write `j`. -/
def putStore (config : Endpoint → DataNodeConfig) (s : System) (h j : Nat) (fault : PutFault) :
    Option System :=
  match s.puts h with
  | some ⟨messages, chunks, .placed chunkId nodeIds results⟩ =>
    if j < nodeIds.length ∧ results j = none then
      let (status, disks) := distributeChunkToSingleNode config s.registeredNodes fault chunkId
        (chunkData (uploadData messages) chunks.length) (nodeIds.getD j 0) s.disks
      some ({ s with disks := disks }.setPut h
        ⟨messages, chunks, .placed chunkId nodeIds (Function.update results j (some status))⟩)
    else none
  | _ => none

/-- Collect the statuses of all replica writes of the chunk. -/
def putJoin (s : System) (h : Nat) : Option System :=
  match s.puts h with
  | some ⟨messages, chunks, .placed chunkId nodeIds results⟩ =>
    if ∀ j < nodeIds.length, (results j).isSome then
      let status := combineStatuses nodeIds
        ((List.range nodeIds.length).map fun j => (results j).getD Status.OK)
      if !status.isOk then some (s.setPut h ⟨messages, chunks, .answered status {}⟩)
      else
        let chunk : ChunkInfo := { chunkId := chunkId, nodeIds := nodeIds, replicationFactor := 3 }
        some (s.setPut h ⟨messages, chunks ++ [chunk], .looping⟩)
    else none
  | _ => none

/-- `store_.putFile`, and the answer. -/
def putCommit (s : System) (h : Nat) : Option System :=
  match s.puts h, s.pass with
  | some ⟨messages, chunks, .looping⟩, none =>
    if chunks.length < chunkCount (uploadData messages) then none
    else
      let filename := uploadName messages
      let fileMeta := { emptyMeta (uploadData messages).length with chunks := chunks }
      some ({ s with
        store := s.store.putFile filename fileMeta
        log := .committed h filename (s.store.findFile filename).isSome :: s.log }.setPut h
          ⟨messages, chunks, .answered Status.OK { success := true }⟩)
  | _, _ => none

/-! ## DeleteFile -/

def startDelete (s : System) (d : Nat) (path : String) : Option System :=
  match s.deletes d with
  | some _ => none
  | none => some (s.setDelete d { path := path })

def deleteCheck (s : System) (d : Nat) : Option System :=
  match s.deletes d, s.pass with
  | some ⟨path, .started⟩, none =>
    let (found, store) := s.store.getFile path
    let s := { s with store := store }
    if found.isNone then some (s.setDelete d ⟨path, .answered fileNotFound {}⟩)
    else some (s.setDelete d ⟨path, .checked⟩)
  | _, _ => none

/-- `store_.deletePath`, and the answer; `now` is the clock its overflow cleanup
reads. -/
def deletePath (s : System) (d : Nat) (now : TimePoint) : Option System :=
  match s.deletes d, s.pass with
  | some ⟨path, .checked⟩, none =>
    if s.clock ≤ now then
      some ({ s with
        store := s.store.deletePath path s.clock now
        running := true
        clock := now
        log := .deletedPath path (s.store.findFile path).isSome :: s.log }.setDelete d
          ⟨path, .answered Status.OK { success := true }⟩)
    else none
  | _, _ => none

/-! ## RegisterDataNode, UnregisterDataNode -/

def startRegister (s : System) (r : Nat) (peer : String) (port : Int32) : Option System :=
  match s.registers r with
  | some _ => none
  | none => some (s.setRegister r { endpoint := ⟨extractClientAddress peer, port⟩ })

def registerScan (s : System) (r : Nat) : Option System :=
  match s.registers r with
  | some ⟨ep, .started⟩ =>
    match findConflict s.registeredNodes ep with
    | some existingId => some (s.setRegister r ⟨ep, .answered (alreadyRegistered ep existingId)⟩)
    | none => some (s.setRegister r ⟨ep, .scanned⟩)
  | _ => none

/-- `next_node_id_.fetch_add(1)`. -/
def registerDraw (s : System) (r : Nat) : Option System :=
  match s.registers r with
  | some ⟨ep, .scanned⟩ =>
    some ({ s with
      nextNodeId := s.nextNodeId + 1
      nodeIdsDrawn := s.nodeIdsDrawn + 1 }.setRegister r ⟨ep, .drawn s.nextNodeId⟩)
  | _ => none

def registerInsert (s : System) (r : Nat) : Option System :=
  match s.registers r with
  | some ⟨ep, .drawn assignedId⟩ =>
    let info : DataNodeInfo := { nodeId := assignedId, address := ep.address, port := ep.port }
    some ({ s with
      registeredNodes := s.registeredNodes.insert assignedId info
      home := Function.update s.home assignedId (some ep) }.setRegister r
        ⟨ep, .answered { success := true, nodeId := assignedId }⟩)
  | _ => none

def unregister (s : System) (nodeId : Int32) : System :=
  { s with toCluster := (unregisterDataNode nodeId s.toCluster).2.2 }

/-! ## The cleanup pass -/

/-- The worker takes the store's lock, reads the clock and finds what is expired. -/
def cleanupBegin (s : System) : Option System :=
  match s.pass with
  | some _ => none
  | none =>
    if s.running then
      some { s with pass := some { now := s.clock, todo := passReplicas s.clock s.store } }
    else none

def cleanupDelete (config : Endpoint → DataNodeConfig) (s : System) (fault : DeleteFault) :
    Option System :=
  match s.pass with
  | some ⟨now, r :: todo, attempts⟩ =>
    some { s with
      disks := deleteReplica config s.registeredNodes fault r s.disks
      pass := some ⟨now, todo, attempts ++ [deleteAttempt config s.registeredNodes fault r]⟩ }
  | _ => none

/-- The expired tombstones are gone, and the lock is released. -/
def cleanupEnd (s : System) : Option System :=
  match s.pass with
  | some ⟨now, [], _⟩ =>
    some { s with
      store := (s.store.cleanupTombstones now (none : Option (FileMeta → Unit → Unit)) ()).1
      pass := none }
  | _ => none

end System

/-! ## Steps -/

inductive Action
  | tick (d : Nat)
  | startPut (h : Nat) (messages : List PutFileRequest)
  | putCheck (h : Nat)
  | putDraw (h : Nat)
  | putSelect (h : Nat) (order : List Int32)
  | putStore (h j : Nat) (fault : PutFault)
  | putJoin (h : Nat)
  | putCommit (h : Nat)
  | startDelete (d : Nat) (path : String)
  | deleteCheck (d : Nat)
  | deletePath (d : Nat) (now : TimePoint)
  | startRegister (r : Nat) (peer : String) (port : Int32)
  | registerScan (r : Nat)
  | registerDraw (r : Nat)
  | registerInsert (r : Nat)
  | unregister (nodeId : Int32)
  | cleanupBegin
  | cleanupDelete (fault : DeleteFault)
  | cleanupEnd

namespace System

def step (config : Endpoint → DataNodeConfig) (s : System) : Action → Option System
  | .tick d => some { s with clock := s.clock + d }
  | .startPut h messages => s.startPut h messages
  | .putCheck h => s.putCheck h
  | .putDraw h => s.putDraw h
  | .putSelect h order => s.putSelect h order
  | .putStore h j fault => s.putStore config h j fault
  | .putJoin h => s.putJoin h
  | .putCommit h => s.putCommit h
  | .startDelete d path => s.startDelete d path
  | .deleteCheck d => s.deleteCheck d
  | .deletePath d now => s.deletePath d now
  | .startRegister r peer port => s.startRegister r peer port
  | .registerScan r => s.registerScan r
  | .registerDraw r => s.registerDraw r
  | .registerInsert r => s.registerInsert r
  | .unregister nodeId => some (s.unregister nodeId)
  | .cleanupBegin => s.cleanupBegin
  | .cleanupDelete fault => s.cleanupDelete config fault
  | .cleanupEnd => s.cleanupEnd

end System

/-- A `PutChunk` that a datanode answers OK was performed completely. -/
def Honest (_ : System) : Action → Prop
  | .putStore _ _ fault => fault.Complete
  | _ => True

/-! ## What a step can do -/

/-- A store that has the same files and tombstones. -/
structure SameFiles (s s' : MetadataStore) : Prop where
  entries : s'.entries = s.entries
  deletedEntries : s'.deletedEntries = s.deletedEntries

theorem SameFiles.findFile {s s' : MetadataStore} (h : SameFiles s s') (path : String) :
    s'.findFile path = s.findFile path := by
  unfold MetadataStore.findFile
  rw [h.entries]

theorem SameFiles.refl (s : MetadataStore) : SameFiles s s := ⟨rfl, rfl⟩

/-- Has the call not been answered yet? -/
def PutCall.inProgress (call : PutCall) : Prop := ∀ status response, call.phase ≠ .answered status response

def PutPhase.isAnswered : PutPhase → Bool
  | .answered _ _ => true
  | _ => false

theorem PutCall.inProgress_of_phase {call : PutCall} {phase : PutPhase} (h : call.phase = phase)
    (hp : phase.isAnswered = false) : call.inProgress := by
  intro status response he
  rw [← h, he] at hp
  cases hp

/-- Has the call an id that it has not inserted yet? -/
def RegisterCall.pending (call : RegisterCall) (nodeId : Int32) : Prop := call.phase = .drawn nodeId

/-- One step, by what it changes. -/
inductive Move (config : Endpoint → DataNodeConfig) (s : System) : Action → System → Prop
  | tick (d : Nat) : Move config s (.tick d) { s with clock := s.clock + d }
  | putStarted (h : Nat) (messages : List PutFileRequest) (hput : s.puts h = none) :
    Move config s (.startPut h messages) (s.setPut h { messages := messages })
  | putFailed {a : Action} (h : Nat) (call : PutCall) (status : Status) (store : MetadataStore)
    (nextNodeIndex : UInt32) (hput : s.puts h = some call) (hprog : call.inProgress)
    (hstatus : status.isOk = false) (hstore : SameFiles s.store store) :
    Move config s a ({ s with store := store, nextNodeIndex := nextNodeIndex }.setPut h
      { call with phase := .answered status {} })
  | putAccepted (h : Nat) (call : PutCall) (store : MetadataStore) (hput : s.puts h = some call)
    (hphase : call.phase = .started) (hacc : Accepted s.store call.messages)
    (hstore : SameFiles s.store store) :
    Move config s (.putCheck h) ({ s with store := store }.setPut h { call with phase := .looping })
  | putDrawn (h : Nat) (call : PutCall) (hput : s.puts h = some call) (hphase : call.phase = .looping)
    (hlt : call.chunks.length < chunkCount (uploadData call.messages)) :
    Move config s (.putDraw h) ({ s with
      chunkIdCounter := s.chunkIdCounter + 1
      chunkIdsDrawn := s.chunkIdsDrawn + 1 }.setPut h
        { call with phase := .drawn (chunkName s.chunkIdCounter.toNat) })
  | putPlaced (h : Nat) (order : List Int32) (call : PutCall) (chunkId : String)
    (hput : s.puts h = some call) (hphase : call.phase = .drawn chunkId)
    (horder : order.Perm s.registeredNodes.keys)
    (hne : (selectNodesForReplication 3 order s.nextNodeIndex).1 ≠ []) :
    Move config s (.putSelect h order) ({ s with
      nextNodeIndex := (selectNodesForReplication 3 order s.nextNodeIndex).2 }.setPut h
        { call with
          phase := .placed chunkId (selectNodesForReplication 3 order s.nextNodeIndex).1 fun _ => none })
  | putStored (h j : Nat) (call : PutCall) (chunkId : String) (nodeIds : List Int32)
    (results : Nat → Option Status) (fault : PutFault) (hput : s.puts h = some call)
    (hphase : call.phase = .placed chunkId nodeIds results) (hj : j < nodeIds.length)
    (hnew : results j = none) :
    Move config s (.putStore h j fault) ({ s with
      disks := (distributeChunkToSingleNode config s.registeredNodes fault chunkId
        (chunkData (uploadData call.messages) call.chunks.length) (nodeIds.getD j 0) s.disks).2 }.setPut h
        { call with phase := .placed chunkId nodeIds (Function.update results j
            (some (distributeChunkToSingleNode config s.registeredNodes fault chunkId
              (chunkData (uploadData call.messages) call.chunks.length) (nodeIds.getD j 0)
              s.disks).1)) })
  | putChunkDone (h : Nat) (call : PutCall) (chunkId : String) (nodeIds : List Int32)
    (results : Nat → Option Status) (hput : s.puts h = some call)
    (hphase : call.phase = .placed chunkId nodeIds results)
    (hok : ∀ j < nodeIds.length, ∃ status, results j = some status ∧ status.isOk = true) :
    Move config s (.putJoin h) (s.setPut h { call with
      chunks := call.chunks ++ [{ chunkId := chunkId, nodeIds := nodeIds, replicationFactor := 3 }]
      phase := .looping })
  | putCommitted (h : Nat) (call : PutCall) (hput : s.puts h = some call) (hpass : s.pass = none)
    (hphase : call.phase = .looping)
    (hlen : ¬ call.chunks.length < chunkCount (uploadData call.messages)) :
    Move config s (.putCommit h) ({ s with
      store := s.store.putFile (uploadName call.messages)
        { emptyMeta (uploadData call.messages).length with chunks := call.chunks }
      log := .committed h (uploadName call.messages)
        (s.store.findFile (uploadName call.messages)).isSome :: s.log }.setPut h
          { call with phase := .answered Status.OK { success := true } })
  | deleteMoved {a : Action} (d : Nat) (call : DeleteCall) (store : MetadataStore)
    (hold : ∀ old, s.deletes d = some old → old = { path := call.path })
    (hanswer : ∀ status response, call.phase = .answered status response →
      status = fileNotFound ∧ response = {})
    (hstore : SameFiles s.store store) :
    Move config s a ({ s with store := store }.setDelete d call)
  | pathDeleted (d : Nat) (path : String) (now : TimePoint) (hdel : s.deletes d = some ⟨path, .checked⟩)
    (hpass : s.pass = none) (hnow : s.clock ≤ now) :
    Move config s (.deletePath d now) ({ s with
      store := s.store.deletePath path s.clock now
      running := true
      clock := now
      log := .deletedPath path (s.store.findFile path).isSome :: s.log }.setDelete d
        ⟨path, .answered Status.OK { success := true }⟩)
  | registerMoved {a : Action} (r : Nat) (call : RegisterCall) (hcall : ∀ nodeId, ¬ call.pending nodeId)
    (hold : ∀ old, s.registers r = some old → old = { endpoint := call.endpoint })
    (hanswer : ∀ response, call.phase = .answered response → response.success = false) :
    Move config s a (s.setRegister r call)
  | registerDrawn (r : Nat) (ep : Endpoint) (hreg : s.registers r = some ⟨ep, .scanned⟩) :
    Move config s (.registerDraw r) ({ s with
      nextNodeId := s.nextNodeId + 1
      nodeIdsDrawn := s.nodeIdsDrawn + 1 }.setRegister r ⟨ep, .drawn s.nextNodeId⟩)
  | registered (r : Nat) (ep : Endpoint) (assignedId : Int32)
    (hreg : s.registers r = some ⟨ep, .drawn assignedId⟩) :
    Move config s (.registerInsert r) ({ s with
      registeredNodes := s.registeredNodes.insert assignedId
        { nodeId := assignedId, address := ep.address, port := ep.port }
      home := Function.update s.home assignedId (some ep) }.setRegister r
        ⟨ep, .answered { success := true, nodeId := assignedId }⟩)
  | unregistered (nodeId : Int32) :
    Move config s (.unregister nodeId) { s with registeredNodes := s.registeredNodes.erase nodeId }
  | cleanupBegun (hpass : s.pass = none) (hrun : s.running = true) :
    Move config s .cleanupBegin
      { s with pass := some { now := s.clock, todo := passReplicas s.clock s.store } }
  | chunkDeleted (now : TimePoint) (r : String × Int32) (todo : List (String × Int32))
    (attempts : List DeleteAttempt) (fault : DeleteFault) (hpass : s.pass = some ⟨now, r :: todo, attempts⟩) :
    Move config s (.cleanupDelete fault) { s with
      disks := deleteReplica config s.registeredNodes fault r s.disks
      pass := some ⟨now, todo, attempts ++ [deleteAttempt config s.registeredNodes fault r]⟩ }
  | cleanupEnded (now : TimePoint) (attempts : List DeleteAttempt)
    (hpass : s.pass = some ⟨now, [], attempts⟩) :
    Move config s .cleanupEnd { s with
      store := (s.store.cleanupTombstones now (none : Option (FileMeta → Unit → Unit)) ()).1
      pass := none }

/-- The calls after one of them moved. -/
theorem update_some_iff {β : Type} {f : Nat → Option β} {k i : Nat} {v w : β} :
    Function.update f k (some v) i = some w ↔ (i = k ∧ v = w) ∨ (i ≠ k ∧ f i = some w) := by
  by_cases hi : i = k
  · subst hi
    simp
  · simp [hi]

section
variable {config : Endpoint → DataNodeConfig} {s t : System}

theorem putCheck_move {h : Nat} (ht : s.putCheck h = some t) : Move config s (.putCheck h) t := by
  unfold System.putCheck at ht
  split at ht
  · next messages chunks hput hpass =>
    have hprog : PutCall.inProgress ⟨messages, chunks, .started⟩ := fun _ _ => nofun
    cases messages with
    | nil =>
      cases ht
      exact .putFailed h ⟨[], chunks, .started⟩ _ s.store s.nextNodeIndex hput hprog rfl (.refl _)
    | cons req reqs =>
      have hsame : SameFiles s.store (s.store.getFile req.filename).2 := ⟨rfl, rfl⟩
      rw [readUpload_first] at ht
      by_cases hf : (s.store.findFile req.filename).isSome = true
      · rw [if_pos hf] at ht
        cases ht
        exact .putFailed h ⟨req :: reqs, chunks, .started⟩ _ _ s.nextNodeIndex hput hprog rfl hsame
      · rw [if_neg hf] at ht
        simp only at ht
        split at ht
        · cases ht
          exact .putFailed h ⟨req :: reqs, chunks, .started⟩ _ _ s.nextNodeIndex hput hprog rfl hsame
        · next hne =>
          cases ht
          rw [String.isEmpty_iff] at hne
          exact .putAccepted h ⟨req :: reqs, chunks, .started⟩ _ hput rfl
            ⟨hne, Option.not_isSome_iff_eq_none.mp hf⟩ hsame
  · cases ht

theorem putSelect_move {h : Nat} {order : List Int32} (ht : s.putSelect h order = some t) :
    Move config s (.putSelect h order) t := by
  unfold System.putSelect at ht
  split at ht
  · next messages chunks chunkId hput =>
    split at ht
    · next horder =>
      simp only at ht
      split at ht
      · cases ht
        exact .putFailed h ⟨messages, chunks, .drawn chunkId⟩ _ s.store _ hput
          (fun _ _ => nofun) rfl (.refl _)
      · next hne =>
        cases ht
        exact .putPlaced h order ⟨messages, chunks, .drawn chunkId⟩ chunkId hput rfl horder
          (fun he => hne (by rw [he]; rfl))
    · cases ht
  · cases ht

theorem putStore_move {h j : Nat} {fault : PutFault} (ht : s.putStore config h j fault = some t) :
    Move config s (.putStore h j fault) t := by
  unfold System.putStore at ht
  split at ht
  · next messages chunks chunkId nodeIds results hput =>
    split at ht
    · next hj =>
      cases ht
      exact .putStored h j ⟨messages, chunks, .placed chunkId nodeIds results⟩ chunkId nodeIds results fault hput rfl
        hj.1 hj.2
    · cases ht
  · cases ht

theorem putJoin_move {h : Nat} (ht : s.putJoin h = some t) : Move config s (.putJoin h) t := by
  unfold System.putJoin at ht
  split at ht
  · next messages chunks chunkId nodeIds results hput =>
    split at ht
    · next hall =>
      simp only at ht
      split at ht
      · next hfail =>
        cases ht
        exact .putFailed h ⟨messages, chunks, .placed chunkId nodeIds results⟩ _ s.store
          s.nextNodeIndex hput (fun _ _ => nofun) (by simpa using hfail) (.refl _)
      · next hok =>
        cases ht
        refine .putChunkDone h ⟨messages, chunks, .placed chunkId nodeIds results⟩ chunkId nodeIds results hput rfl ?_
        intro j hj
        obtain ⟨status, hstatus⟩ := Option.isSome_iff_exists.mp (hall j hj)
        refine ⟨status, hstatus, ?_⟩
        have hcomb : (combineStatuses nodeIds
            ((List.range nodeIds.length).map fun j => (results j).getD Status.OK)).isOk = true := by
          simpa using hok
        rw [combineStatuses_isOk, List.all_map, List.all_eq_true] at hcomb
        have := hcomb j (List.mem_range.mpr hj)
        rwa [Function.comp_apply, hstatus, Option.getD_some] at this
    · cases ht
  · cases ht

theorem registerScan_move {r : Nat} (ht : s.registerScan r = some t) :
    Move config s (.registerScan r) t := by
  unfold System.registerScan at ht
  split at ht
  · next ep hreg =>
    have hold : ∀ old, s.registers r = some old → old = { endpoint := ep } := by
      intro old ho
      rw [hreg] at ho
      cases ho
      rfl
    split at ht
    · next existingId _ =>
      cases ht
      refine .registerMoved r _ (fun _ => nofun) hold fun response hr => ?_
      cases hr
      rfl
    · cases ht
      exact .registerMoved r _ (fun _ => nofun) hold fun response => nofun
  · cases ht

theorem unregister_move (nodeId : Int32) : Move config s (.unregister nodeId) (s.unregister nodeId) := by
  have heq : s.unregister nodeId =
      { s with registeredNodes := s.registeredNodes.erase nodeId } := by
    unfold System.unregister unregisterDataNode
    split
    · next hnone =>
      have habsent : nodeId ∉ s.registeredNodes := by
        rw [← AList.lookup_eq_none]
        exact Option.isNone_iff_eq_none.mp hnone
      have herase : s.registeredNodes.erase nodeId = s.registeredNodes :=
        AList.ext (List.kerase_of_notMem_keys habsent)
      rw [herase]
    · rfl
  rw [heq]
  exact .unregistered nodeId

/-- **Inversion.**  Every step is one of the moves. -/
theorem step_move {a : Action} (ht : s.step config a = some t) : Move config s a t := by
  cases a with
  | tick d => cases ht; exact .tick d
  | startPut h messages =>
    simp only [System.step, System.startPut] at ht
    split at ht
    · cases ht
    · next hput => cases ht; exact .putStarted h messages hput
  | putCheck h => exact putCheck_move ht
  | putDraw h =>
    simp only [System.step, System.putDraw] at ht
    split at ht
    · next messages chunks hput =>
      split at ht
      · next hlt => cases ht; exact .putDrawn h ⟨messages, chunks, .looping⟩ hput rfl hlt
      · cases ht
    · cases ht
  | putSelect h order => exact putSelect_move ht
  | putStore h j fault => exact putStore_move ht
  | putJoin h => exact putJoin_move ht
  | putCommit h =>
    simp only [System.step, System.putCommit] at ht
    split at ht
    · next messages chunks hput hpass =>
      split at ht
      · cases ht
      · next hlen =>
        cases ht
        exact .putCommitted h ⟨messages, chunks, .looping⟩ hput hpass rfl hlen
    · cases ht
  | startDelete d path =>
    simp only [System.step, System.startDelete] at ht
    split at ht
    · cases ht
    · next hdel =>
      cases ht
      exact .deleteMoved d _ s.store (fun old ho => nomatch hdel.symm.trans ho) (fun _ _ => nofun) (.refl _)
  | deleteCheck d =>
    simp only [System.step, System.deleteCheck] at ht
    split at ht
    · next path hdel hpass =>
      have hold : ∀ old, s.deletes d = some old → old = { path := path } := by
        intro old ho
        rw [hdel] at ho
        cases ho
        rfl
      split at ht
      · cases ht
        refine .deleteMoved d _ _ hold (fun status response hr => ?_) ⟨rfl, rfl⟩
        cases hr
        exact ⟨rfl, rfl⟩
      · cases ht
        exact .deleteMoved d _ _ hold (fun _ _ => nofun) ⟨rfl, rfl⟩
    · cases ht
  | deletePath d now =>
    simp only [System.step, System.deletePath] at ht
    split at ht
    · next path hdel hpass =>
      split at ht
      · next hnow => cases ht; exact .pathDeleted d path now hdel hpass hnow
      · cases ht
    · cases ht
  | startRegister r peer port =>
    simp only [System.step, System.startRegister] at ht
    split at ht
    · cases ht
    · next hreg =>
      cases ht
      exact .registerMoved r _ (fun _ => nofun) (fun old ho => nomatch hreg.symm.trans ho)
        fun response => nofun
  | registerScan r => exact registerScan_move ht
  | registerDraw r =>
    simp only [System.step, System.registerDraw] at ht
    split at ht
    · next ep hreg => cases ht; exact .registerDrawn r ep hreg
    · cases ht
  | registerInsert r =>
    simp only [System.step, System.registerInsert] at ht
    split at ht
    · next ep assignedId hreg => cases ht; exact .registered r ep assignedId hreg
    · cases ht
  | unregister nodeId => cases ht; exact unregister_move nodeId
  | cleanupBegin =>
    simp only [System.step, System.cleanupBegin] at ht
    split at ht
    · cases ht
    · next hpass =>
      split at ht
      · next hrun => cases ht; exact .cleanupBegun hpass hrun
      · cases ht
  | cleanupDelete fault =>
    simp only [System.step, System.cleanupDelete] at ht
    split at ht
    · next now r todo attempts hpass => cases ht; exact .chunkDeleted now r todo attempts fault hpass
    · cases ht
  | cleanupEnd =>
    simp only [System.step, System.cleanupEnd] at ht
    split at ht
    · next now attempts hpass => cases ht; exact .cleanupEnded now attempts hpass
    · cases ht

/-! ## Runs -/

/-- A coordinator as constructed, over any disks. -/
def Initial (s : System) : Prop := ∃ disks, s = System.start disks

theorem nodeIdsDrawn_mono : Monotone (System.step config) System.nodeIdsDrawn := by
  intro s a t ht
  cases step_move ht with
  | registerDrawn => exact Nat.le_succ _
  | _ => exact Nat.le_refl _

theorem chunkIdsDrawn_mono : Monotone (System.step config) System.chunkIdsDrawn := by
  intro s a t ht
  cases step_move ht with
  | putDrawn => exact Nat.le_succ _
  | _ => exact Nat.le_refl _

end

end ToyDfs
