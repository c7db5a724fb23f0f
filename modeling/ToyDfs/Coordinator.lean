import Mathlib.Data.List.AList
import ToyDfs.MetadataStore
import ToyDfs.DataNode

/-!
`CoordinatorServiceImpl`: the node registry, chunk placement, and the handlers
`PutFile`, `GetFile`, `DeleteFile`, `RegisterDataNode`, `UnregisterDataNode` and
the cleanup pass, each run as one function.

A `Cluster` is the coordinator's state together with the disks of all datanodes.
A datanode is named by its `Endpoint`; `config` says how the one there was
started.  What a handler does not decide itself comes in an environment:
`PutEnv` (iteration order of the registry, order and faults of the asynchronous
replica writes), `GetEnv` (faults of the replica reads, client writes) and
`CleanupEnv` (faults of the deletions).  The two that may run for long also say
what the other handlers do to the registry meanwhile.

The interleavings of the handlers are in `ToyDfs.System`, over the same pieces.
-/

namespace ToyDfs

/-! ## Data -/

structure Endpoint where
  address : String
  port : Int32
deriving DecidableEq, Repr

structure DataNodeInfo where
  nodeId : Int32
  address : String
  port : Int32
deriving DecidableEq, Repr

def DataNodeInfo.endpoint (info : DataNodeInfo) : Endpoint := ⟨info.address, info.port⟩

/-- `registered_nodes_`. -/
abbrev Registry := AList fun _ : Int32 => DataNodeInfo

/-- The disks of all datanodes. -/
abbrev Disks := Endpoint → Disk

/-- The registry before round `n` of a handler, when `change i` is what other
handlers do to it before round `i`, the first one included. -/
def registryAt (change : Nat → Registry → Registry) (registry : Registry) : Nat → Registry
  | 0 => change 0 registry
  | n + 1 => change (n + 1) (registryAt change registry n)

theorem registryAt_unchanged (registry : Registry) (n : Nat) :
    registryAt (fun _ r => r) registry n = registry := by
  induction n with
  | zero => rfl
  | succ n ih => exact ih

structure Cluster where
  store : MetadataStore
  registeredNodes : Registry
  nextNodeId : Int32
  nextNodeIndex : UInt32
  chunkIdCounter : UInt64
  /-- `running_`: the cleanup thread has been started -/
  running : Bool
  disks : Disks

/-- A coordinator as constructed, over these disks. -/
def Cluster.start (disks : Disks) : Cluster :=
  { store := .empty
    registeredNodes := ∅
    nextNodeId := 1
    nextNodeIndex := 0
    chunkIdCounter := 0
    running := false
    disks := disks }

/-! ## Placement -/

/-- `node_ids[node_index]`; out of bounds is undefined in C++, 0 here. -/
def nodeAt (nodeIds : List Int32) (nodeIndex : Int32) : Int32 :=
  nodeIds.getD (nodeIndex.toInt % 2 ^ 64).toNat 0

/-- Round-robin placement; `nodeIds` are the registry's keys in iteration order. -/
def selectNodesForReplication (replicationFactor : Int32) (nodeIds : List Int32)
    (nextNodeIndex : UInt32) : List Int32 × UInt32 :=
  if replicationFactor ≤ 0 then ([], nextNodeIndex)
  else if nodeIds.isEmpty then ([], nextNodeIndex)
  else
    let numNodes := Int32.ofNat nodeIds.length
    let startIndex := (nextNodeIndex % numNodes.toUInt32).toInt32
    let selected := (List.range replicationFactor.toInt.toNat).map fun i =>
      nodeAt nodeIds ((startIndex + Int32.ofNat i) % numNodes)
    (selected, nextNodeIndex + 1)

/-! ## Writing a chunk -/

section
variable (config : Endpoint → DataNodeConfig) (registry : Registry)

def nodeNotFound (nodeId : Int32) : Status :=
  { code := .notFound, errorMessage := "Node ID " ++ toString nodeId ++ " not found in registry" }

def distributeChunkToSingleNode (fault : PutFault) (chunkId : String) (chunkData : Bytes)
    (nodeId : Int32) (disks : Disks) : Status × Disks :=
  match registry.lookup nodeId with
  | none => (nodeNotFound nodeId, disks)
  | some info =>
    let ep := info.endpoint
    let (clientStatus, disk) := stubPutChunk (config ep) fault chunkId chunkData (disks ep)
    (if clientStatus.isOk then Status.OK else clientStatus, Function.update disks ep disk)

/-- The answer to a fan-out: OK if every replica is, else all the errors. -/
def combineStatuses (nodeIds : List Int32) (statuses : List Status) : Status :=
  if statuses.all Status.isOk then Status.OK
  else
    let errors := (nodeIds.zip statuses).filterMap fun (nodeId, status) =>
      if status.isOk then none else some ("Node " ++ toString nodeId ++ ": " ++ status.errorMessage)
    { code := .internal
      errorMessage := "Failed to distribute chunk to nodes: " ++ String.intercalate "; " errors }

/-- The asynchronous tasks of one chunk, in the order they take effect; task `j`
writes the replica on `nodeIds[j]`.  Each is one step here: `ToyDfs.ReplicaTasks` has the
steps of their handlers. -/
def runTasks (fault : Nat → PutFault) (chunkId : String) (chunkData : Bytes) (nodeIds : List Int32) :
    List Nat → (Nat → Status) → Disks → (Nat → Status) × Disks
  | [], statuses, disks => (statuses, disks)
  | j :: js, statuses, disks =>
    let (status, disks) := distributeChunkToSingleNode config registry (fault j) chunkId chunkData
      (nodeIds.getD j 0) disks
    runTasks fault chunkId chunkData nodeIds js (Function.update statuses j status) disks

def distributeChunkToNodes (schedule : List Nat) (fault : Nat → PutFault) (chunkId : String)
    (chunkData : Bytes) (nodeIds : List Int32) (disks : Disks) : Status × Disks :=
  if nodeIds.isEmpty then
    ({ code := .internal, errorMessage := "No nodes specified for chunk distribution" }, disks)
  else
    let (statuses, disks) :=
      runTasks config registry fault chunkId chunkData nodeIds schedule (fun _ => Status.OK) disks
    (combineStatuses nodeIds ((List.range nodeIds.length).map statuses), disks)

/-! ## Reading a chunk -/

/-- The loop of `readChunkWithFallback`, from replica `j` on. -/
def readReplicas (fault : Nat → GetFault) (chunkId : String) (disks : Disks) :
    Nat → List Int32 → Status × Bytes
  | _, [] =>
    ({ code := .internal, errorMessage := "Failed to read chunk from any replica node" }, [])
  | j, nodeId :: rest =>
    match registry.lookup nodeId with
    | none => readReplicas fault chunkId disks (j + 1) rest
    | some info =>
      let ep := info.endpoint
      let (clientStatus, tempData) := stubGetChunk (config ep) (fault j) chunkId (disks ep)
      if clientStatus.isOk then (Status.OK, tempData.getD [])
      else readReplicas fault chunkId disks (j + 1) rest

def readChunkWithFallback (fault : Nat → GetFault) (chunkId : String) (nodeIds : List Int32)
    (disks : Disks) : Status × Bytes :=
  if nodeIds.isEmpty then
    ({ code := .internal, errorMessage := "No nodes specified for chunk read" }, [])
  else readReplicas config registry fault chunkId disks 0 nodeIds

end

/-! ## PutFile -/

structure PutFileRequest where
  filename : String
  data : Bytes
deriving DecidableEq, Repr

structure PutFileResponse where
  success : Bool := false
deriving DecidableEq, Repr

/-- What happens around one `PutFile`.  `change i` is what other handlers do to the
registry before chunk `i` is placed; `order i` the registry's iteration order at
that selection; `schedule i k` the order in which the `k` replica writes of chunk
`i` take effect; `fault i j` what goes wrong at replica `j` of chunk `i`. -/
structure PutEnv where
  change : Nat → Registry → Registry := fun _ r => r
  order : Nat → Registry → List Int32
  order_perm : ∀ i r, (order i r).Perm r.keys
  schedule : Nat → Nat → List Nat
  schedule_perm : ∀ i k, (schedule i k).Perm (List.range k)
  fault : Nat → Nat → PutFault

/-- The `Read` loop: the existence check on the first message, then all the data. -/
def readUpload : List PutFileRequest → Bool → String → Bytes → MetadataStore →
    Except Status (String × Bytes) × MetadataStore
  | [], _, filename, fileData, store => (.ok (filename, fileData), store)
  | req :: reqs, true, _, fileData, store =>
    let (found, store) := store.getFile req.filename
    if found.isSome then
      (.error { code := .alreadyExists, errorMessage := "File exists" }, store)
    else readUpload reqs false req.filename (fileData ++ req.data) store
  | req :: reqs, false, filename, fileData, store =>
    readUpload reqs false filename (fileData ++ req.data) store

/-- `chunk_size`: 1 MB. -/
def chunkSize : Int32 := 1024 * 1024

/-- `num_chunks`. -/
def numChunks (size : Nat) : Int32 := Int32.ofNat ((1024 * 1024 + size - 1) % 2 ^ 64 / (1024 * 1024))

/-- How often the chunk loop runs. -/
def chunkCount (fileData : Bytes) : Nat := (numChunks fileData.length).toInt.toNat

/-- `size_t start = i * chunk_size`: an `int` product, converted. -/
def chunkStart (i : Nat) : Nat := ((Int32.ofNat i * chunkSize).toInt % 2 ^ 64).toNat

def chunkEnd (size i : Nat) : Nat := min ((1024 * 1024 + chunkStart i) % 2 ^ 64) size

/-- The slice from `start` to `end`.  From chunk 2048 on `start` has overflowed and the
range is invalid; the empty slice that stands for it says nothing about the source. -/
def chunkData (fileData : Bytes) (i : Nat) : Bytes :=
  (fileData.drop (chunkStart i)).take (chunkEnd fileData.length i - chunkStart i)

def noNodesAvailable : Status :=
  { code := .internal, errorMessage := "No nodes available for replication" }

/-- How the replica writes of chunk `i` go: what `distributeChunkToNodes` answers, and
what they leave on the disks. -/
abbrev SendChunk := (i : Nat) → Registry → (chunkId : String) → (chunkData : Bytes) →
  (nodeIds : List Int32) → Disks → Status × Disks

/-- One write after the other, in the order of `env.schedule`. -/
def PutEnv.inTurn (config : Endpoint → DataNodeConfig) (env : PutEnv) : SendChunk :=
  fun i registry chunkId chunkData nodeIds disks =>
    distributeChunkToNodes config registry (env.schedule i nodeIds.length) (env.fault i) chunkId chunkData
      nodeIds disks

/-- The body of the chunk loop of `PutFile`, for chunk `i`. -/
def putFileChunkWith (send : SendChunk) (env : PutEnv) (fileData : Bytes) (i : Nat) (c : Cluster) :
    Except Status ChunkInfo × Cluster :=
  let c := { c with registeredNodes := env.change i c.registeredNodes }
  let chunkId := chunkName c.chunkIdCounter.toNat
  let (nodeIds, nextNodeIndex) :=
    selectNodesForReplication 3 (env.order i c.registeredNodes) c.nextNodeIndex
  let c := { c with chunkIdCounter := c.chunkIdCounter + 1, nextNodeIndex := nextNodeIndex }
  if nodeIds.isEmpty then (.error noNodesAvailable, c)
  else
    let chunk : ChunkInfo := { chunkId := chunkId, nodeIds := nodeIds, replicationFactor := 3 }
    let (status, disks) := send i c.registeredNodes chunkId (chunkData fileData i) nodeIds c.disks
    let c := { c with disks := disks }
    if !status.isOk then (.error status, c) else (.ok chunk, c)

/-- The chunk loop: `n` chunks from `i` on. -/
def putFileLoopWith (send : SendChunk) (env : PutEnv) (fileData : Bytes) :
    Nat → Nat → FileMeta → Cluster → Except Status FileMeta × Cluster
  | 0, _, fileMeta, c => (.ok fileMeta, c)
  | n + 1, i, fileMeta, c =>
    match putFileChunkWith send env fileData i c with
    | (.error status, c) => (.error status, c)
    | (.ok chunk, c) =>
      putFileLoopWith send env fileData n (i + 1) { fileMeta with chunks := fileMeta.chunks ++ [chunk] } c

def emptyMeta (size : Nat) : FileMeta :=
  { size := Int64.ofNat size, chunkSize := chunkSize, chunks := [] }

/-- The end of `PutFile`: the error of the loop, or the commit. -/
def finishPut (filename : String) : Except Status FileMeta × Cluster → Status × PutFileResponse × Cluster
  | (.error status, c) => (status, {}, c)
  | (.ok fileMeta, c) =>
    (Status.OK, { success := true }, { c with store := c.store.putFile filename fileMeta })

def putFileWith (send : SendChunk) (env : PutEnv) (reader : ServerReader PutFileRequest) (c : Cluster) :
    Status × PutFileResponse × Cluster :=
  match readUpload reader.messages true "" [] c.store with
  | (.error status, store) => (status, {}, { c with store := store })
  | (.ok (filename, fileData), store) =>
    let c := { c with store := store }
    if filename.isEmpty then
      ({ code := .invalidArgument, errorMessage := "Filename not provided" }, {}, c)
    else
      finishPut filename
        (putFileLoopWith send env fileData (chunkCount fileData) 0 (emptyMeta fileData.length) c)

section
variable (config : Endpoint → DataNodeConfig) (env : PutEnv)

def putFileChunk : Bytes → Nat → Cluster → Except Status ChunkInfo × Cluster :=
  putFileChunkWith (env.inTurn config) env

def putFileLoop : Bytes → Nat → Nat → FileMeta → Cluster → Except Status FileMeta × Cluster :=
  putFileLoopWith (env.inTurn config) env

def putFile : ServerReader PutFileRequest → Cluster → Status × PutFileResponse × Cluster :=
  putFileWith (env.inTurn config) env

variable {config env}

theorem putFile_def {reader : ServerReader PutFileRequest} {c : Cluster} :
    putFile config env reader c =
      match readUpload reader.messages true "" [] c.store with
      | (.error status, store) => (status, {}, { c with store := store })
      | (.ok (filename, fileData), store) =>
        let c := { c with store := store }
        if filename.isEmpty then
          ({ code := .invalidArgument, errorMessage := "Filename not provided" }, {}, c)
        else
          finishPut filename
            (putFileLoop config env fileData (chunkCount fileData) 0 (emptyMeta fileData.length) c) :=
  rfl

theorem putFileLoop_zero {fileData : Bytes} {i : Nat} {fileMeta : FileMeta} {c : Cluster} :
    putFileLoop config env fileData 0 i fileMeta c = (.ok fileMeta, c) := rfl

theorem putFileLoop_succ {fileData : Bytes} {n i : Nat} {fileMeta : FileMeta} {c : Cluster} :
    putFileLoop config env fileData (n + 1) i fileMeta c =
      match putFileChunk config env fileData i c with
      | (.error status, c) => (.error status, c)
      | (.ok chunk, c) =>
        putFileLoop config env fileData n (i + 1) { fileMeta with chunks := fileMeta.chunks ++ [chunk] } c :=
  rfl

end

/-! ## GetFile -/

structure GetFileResponse where
  data : Bytes
deriving DecidableEq, Repr

/-- What happens around one `GetFile`: `fault i j` at replica `j` of chunk `i`, and
whether the `i`-th message reaches the client. -/
structure GetEnv where
  fault : Nat → Nat → GetFault
  write : Nat → Bool := fun _ => true

def fileNotFound : Status := { code := .notFound, errorMessage := "File not found" }

/-- The chunk loop of `GetFile`, from chunk `i` on: the status and what was sent. -/
def getFileLoop (config : Endpoint → DataNodeConfig) (env : GetEnv) (registry : Registry)
    (disks : Disks) : Nat → List ChunkInfo → Status × List GetFileResponse
  | _, [] => (Status.OK, [])
  | i, chunk :: rest =>
    let (readStatus, data) :=
      readChunkWithFallback config registry (env.fault i) chunk.chunkId chunk.nodeIds disks
    if !readStatus.isOk then
      ({ code := .internal
         errorMessage := "Failed to read chunk " ++ chunk.chunkId ++ ": " ++ readStatus.errorMessage },
        [])
    else if !env.write i then
      ({ code := .internal, errorMessage := "Failed to write response" }, [])
    else
      let (status, sent) := getFileLoop config env registry disks (i + 1) rest
      (status, ⟨data⟩ :: sent)

def getFile (config : Endpoint → DataNodeConfig) (env : GetEnv) (filename : String) (c : Cluster) :
    Status × List GetFileResponse × Cluster :=
  let (found, store) := c.store.getFile filename
  let c := { c with store := store }
  match found with
  | none => (fileNotFound, [], c)
  | some fileMeta =>
    let (status, sent) := getFileLoop config env c.registeredNodes c.disks 0 fileMeta.chunks
    (status, sent, c)

/-! ## DeleteFile -/

structure DeleteFileResponse where
  success : Bool := false
deriving DecidableEq, Repr

/-- `deleteTime` and `now` are the clock values `deletePath` reads. -/
def deleteFile (path : String) (deleteTime now : TimePoint) (c : Cluster) :
    Status × DeleteFileResponse × Cluster :=
  let (found, store) := c.store.getFile path
  let c := { c with store := store }
  if found.isNone then (fileNotFound, {}, c)
  else
    (Status.OK, { success := true },
      { c with store := c.store.deletePath path deleteTime now, running := true })

/-! ## RegisterDataNode, UnregisterDataNode -/

structure RegisterDataNodeResponse where
  success : Bool := false
  nodeId : Int32 := 0
  errorMessage : String := ""
deriving DecidableEq, Repr

structure UnregisterDataNodeResponse where
  success : Bool := false
  errorMessage : String := ""
deriving DecidableEq, Repr

/-- The peer without its port. -/
def extractClientAddress (peer : String) : String :=
  match Cpp.rfindChar peer ':' with
  | none => peer
  | some colonPos => Cpp.prefixTo peer colonPos

/-- The scan for a node that already has this address and port. -/
def findConflict (registry : Registry) (ep : Endpoint) : Option Int32 :=
  (registry.entries.find? fun e => decide (e.2.endpoint = ep)).map Sigma.fst

def alreadyRegistered (ep : Endpoint) (existingId : Int32) : RegisterDataNodeResponse :=
  { success := false
    errorMessage := "Address:port " ++ ep.address ++ ":" ++ toString ep.port ++
      " already registered with node ID " ++ toString existingId }

def registerDataNode (peer : String) (port : Int32) (c : Cluster) :
    Status × RegisterDataNodeResponse × Cluster :=
  let ep : Endpoint := ⟨extractClientAddress peer, port⟩
  match findConflict c.registeredNodes ep with
  | some existingId => (Status.OK, alreadyRegistered ep existingId, c)
  | none =>
    let assignedId := c.nextNodeId
    let info : DataNodeInfo := { nodeId := assignedId, address := ep.address, port := ep.port }
    (Status.OK, { success := true, nodeId := assignedId },
      { c with
        nextNodeId := c.nextNodeId + 1
        registeredNodes := c.registeredNodes.insert assignedId info })

def unregisterDataNode (nodeId : Int32) (c : Cluster) :
    Status × UnregisterDataNodeResponse × Cluster :=
  if (c.registeredNodes.lookup nodeId).isNone then
    ({ code := .notFound, errorMessage := "Node not found" },
      { success := false
        errorMessage := "Node ID " ++ toString nodeId ++ " not found in registry" }, c)
  else
    (Status.OK, { success := true }, { c with registeredNodes := c.registeredNodes.erase nodeId })

/-! ## The cleanup pass -/

/-- One replica the chunk deleter came to: whether a `DeleteChunk` was sent, and
whether the datanode confirmed it. -/
structure DeleteAttempt where
  chunkId : String
  nodeId : Int32
  issued : Bool
  confirmed : Bool
deriving DecidableEq, Repr

/-- What happens around one cleanup pass: `change n` is what other handlers do to the
registry before the deleter comes to the `n`-th replica of the pass, `fault n`
what goes wrong there. -/
structure CleanupEnv where
  change : Nat → Registry → Registry := fun _ r => r
  fault : Nat → DeleteFault

/-- What the chunk deleter works on: registry and disks, and what it did so far. -/
structure CleanupWorld where
  registry : Registry
  disks : Disks
  attempts : List DeleteAttempt

/-- The replicas a file's metadata lists, in the order the deleter visits them. -/
def FileMeta.replicas (fileMeta : FileMeta) : List (String × Int32) :=
  fileMeta.chunks.flatMap fun chunk => chunk.nodeIds.map fun nodeId => (chunk.chunkId, nodeId)

/-- How the deleter's loop body ends for one replica. -/
def deleteAttempt (config : Endpoint → DataNodeConfig) (registry : Registry) (fault : DeleteFault)
    (r : String × Int32) : DeleteAttempt :=
  match registry.lookup r.2 with
  | none => { chunkId := r.1, nodeId := r.2, issued := false, confirmed := false }
  | some info =>
    { chunkId := r.1, nodeId := r.2, issued := true
      confirmed := fault.confirms (config info.endpoint) r.1 }

/-- What it does to the disks.  The status of the call is only logged. -/
def deleteReplica (config : Endpoint → DataNodeConfig) (registry : Registry) (fault : DeleteFault)
    (r : String × Int32) (disks : Disks) : Disks :=
  match registry.lookup r.2 with
  | none => disks
  | some info =>
    let ep := info.endpoint
    let (_, disk) := stubDeleteChunk (config ep) fault r.1 (disks ep)
    Function.update disks ep disk

/-- One replica of the pass. -/
def deleterStep (config : Endpoint → DataNodeConfig) (env : CleanupEnv) (w : CleanupWorld)
    (r : String × Int32) : CleanupWorld :=
  let n := w.attempts.length
  let registry := env.change n w.registry
  { registry := registry
    disks := deleteReplica config registry (env.fault n) r w.disks
    attempts := w.attempts ++ [deleteAttempt config registry (env.fault n) r] }

/-- The callback `cleanupWorker` hands to `cleanupTombstones`. -/
def chunkDeleter (config : Endpoint → DataNodeConfig) (env : CleanupEnv) (fileMeta : FileMeta)
    (w : CleanupWorld) : CleanupWorld :=
  fileMeta.replicas.foldl (deleterStep config env) w

/-- One round of `cleanupWorker`, with the clock at `now`. -/
def cleanupPass (config : Endpoint → DataNodeConfig) (env : CleanupEnv) (now : TimePoint)
    (c : Cluster) : Cluster × List DeleteAttempt :=
  let (store, w) := c.store.cleanupTombstones now (some (chunkDeleter config env))
    { registry := c.registeredNodes, disks := c.disks, attempts := [] }
  ({ c with store := store, registeredNodes := w.registry, disks := w.disks }, w.attempts)

end ToyDfs
