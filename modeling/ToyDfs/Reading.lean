import ToyDfs.AnyClient
import ToyDfs.Slicing

/-!
One `GetFile` from start to end.

A replica answers a read with some data or not at all (`replicaAnswer`).  The
fallback loop takes the first answer (`readChunkWithFallback_eq`), and `GetFile`
sends the first answers of all chunks (`getFileLoop_isOk`, `getFileLoop_message`).
Nothing looks at their length.

`downloaded_of_chunks`: the file comes back when every chunk does.
-/

namespace ToyDfs

section
variable (config : Endpoint → DataNodeConfig) (registry : Registry) (disks : Disks)

/-! ## One chunk -/

/-- What the node with this id answers, `none` when it is skipped or fails. -/
def nodeAnswer (fault : GetFault) (chunkId : String) (nodeId : Int32) : Option Bytes :=
  match registry.lookup nodeId with
  | none => none
  | some info =>
    let (clientStatus, tempData) := stubGetChunk (config info.endpoint) fault chunkId (disks info.endpoint)
    if clientStatus.isOk then some (tempData.getD []) else none

/-- What replica `j` of the chunk answers. -/
def replicaAnswer (fault : Nat → GetFault) (chunk : ChunkInfo) (j : Nat) : Option Bytes :=
  chunk.nodeIds[j]?.bind (nodeAnswer config registry disks (fault j) chunk.chunkId)

/-- The first answer, in the order the nodes are recorded. -/
def firstAnswer (fault : Nat → GetFault) (chunk : ChunkInfo) : Option Bytes :=
  (List.range chunk.nodeIds.length).findSome? (replicaAnswer config registry disks fault chunk)

/-- The clients of datanodes with these disks. -/
def stubClient (fault : Nat → Nat → GetFault) : GetChunkClient := fun i j ep chunkId =>
  let (clientStatus, tempData) := stubGetChunk (config ep) (fault i j) chunkId (disks ep)
  (clientStatus, tempData.getD [])

theorem readReplicas_client (fault : Nat → Nat → GetFault) (i : Nat) (chunkId : String)
    (nodeIds : List Int32) (j : Nat) :
    readReplicas config registry (fault i) chunkId disks j nodeIds =
      AnyClient.readReplicas (stubClient config disks fault) registry i chunkId j nodeIds := by
  induction nodeIds generalizing j with
  | nil => rfl
  | cons nodeId rest ih =>
    rw [readReplicas, AnyClient.readReplicas, ih]
    rfl

theorem readChunkWithFallback_client (fault : Nat → Nat → GetFault) (i : Nat) (chunkId : String)
    (nodeIds : List Int32) :
    readChunkWithFallback config registry (fault i) chunkId nodeIds disks =
      AnyClient.readChunkWithFallback (stubClient config disks fault) registry i chunkId nodeIds := by
  rw [readChunkWithFallback, AnyClient.readChunkWithFallback, readReplicas_client]

theorem firstAnswer_client (fault : Nat → Nat → GetFault) (i : Nat) (chunk : ChunkInfo) :
    firstAnswer config registry disks (fault i) chunk =
      AnyClient.firstAnswer (stubClient config disks fault) registry i chunk := rfl

theorem getFileLoop_client (env : GetEnv) (i : Nat) (chunks : List ChunkInfo) :
    getFileLoop config env registry disks i chunks =
      AnyClient.getFileLoop (stubClient config disks env.fault) registry env.write i chunks := by
  induction chunks generalizing i with
  | nil => rfl
  | cons chunk rest ih =>
    rw [getFileLoop, AnyClient.getFileLoop, readChunkWithFallback_client, ih]

/-- **The fallback loop** takes the first answer. -/
theorem readChunkWithFallback_eq (fault : Nat → GetFault) (chunk : ChunkInfo) :
    readChunkWithFallback config registry fault chunk.chunkId chunk.nodeIds disks =
      match firstAnswer config registry disks fault chunk with
      | some data => (Status.OK, data)
      | none => ({ code := .internal
                   errorMessage := if chunk.nodeIds.isEmpty then "No nodes specified for chunk read"
                     else "Failed to read chunk from any replica node" }, []) := by
  rw [readChunkWithFallback_client config registry disks (fun _ => fault) 0,
    AnyClient.readChunkWithFallback_eq]
  rfl

variable {config registry disks}

/-- When all answers are the same, that is the first one. -/
theorem firstAnswer_eq {fault : Nat → GetFault} {chunk : ChunkInfo} {data : Bytes}
    (hsame : ∀ j x, replicaAnswer config registry disks fault chunk j = some x → x = data)
    (hsome : ∃ j, (replicaAnswer config registry disks fault chunk j).isSome) :
    firstAnswer config registry disks fault chunk = some data := by
  obtain ⟨j, hj⟩ := hsome
  have hlt : j < chunk.nodeIds.length := by
    by_contra hge
    rw [replicaAnswer, List.getElem?_eq_none (Nat.le_of_not_lt hge)] at hj
    cases hj
  have hfirst : (firstAnswer config registry disks fault chunk).isSome := by
    rw [firstAnswer, List.findSome?_isSome_iff]
    exact ⟨j, List.mem_range.mpr hlt, hj⟩
  obtain ⟨x, hx⟩ := Option.isSome_iff_exists.mp hfirst
  obtain ⟨k, -, hk⟩ := List.exists_of_findSome?_eq_some hx
  rw [hx, hsame k x hk]

theorem firstAnswer_isSome {fault : Nat → GetFault} {chunk : ChunkInfo} :
    (firstAnswer config registry disks fault chunk).isSome ↔
      ∃ j, (replicaAnswer config registry disks fault chunk j).isSome := by
  have hclient := firstAnswer_client config registry disks (fun _ => fault) 0 chunk
  rw [hclient]
  exact AnyClient.firstAnswer_isSome

/-! ## All chunks -/

/-- `GetFile` succeeds iff every chunk is answered and every message is sent. -/
theorem getFileLoop_isOk (env : GetEnv) (chunks : List ChunkInfo) (i : Nat) :
    (getFileLoop config env registry disks i chunks).1.isOk = true ↔
      ∀ k chunk, chunks[k]? = some chunk →
        (firstAnswer config registry disks (env.fault (i + k)) chunk).isSome ∧ env.write (i + k) = true := by
  rw [getFileLoop_client]
  exact AnyClient.getFileLoop_isOk

theorem getFileLoop_code (env : GetEnv) (chunks : List ChunkInfo) (i : Nat) :
    (getFileLoop config env registry disks i chunks).1.isOk = true ∨
      (getFileLoop config env registry disks i chunks).1.code = .internal := by
  rw [getFileLoop_client]
  rcases @AnyClient.getFileLoop_end (stubClient config disks env.fault) registry env.write chunks i with
    ⟨-, hok⟩ | ⟨_, _, -, -, -, hcode⟩
  · rw [hok]
    exact .inl rfl
  · exact .inr hcode

theorem getFileLoop_length {env : GetEnv} {chunks : List ChunkInfo} {i : Nat}
    (h : (getFileLoop config env registry disks i chunks).1.isOk = true) :
    (getFileLoop config env registry disks i chunks).2.length = chunks.length := by
  rw [getFileLoop_client] at h ⊢
  exact AnyClient.getFileLoop_length h

/-- What a `GetFile` that succeeds sends of a chunk. -/
theorem getFileLoop_message {env : GetEnv} {chunks : List ChunkInfo} {i k : Nat} {chunk : ChunkInfo}
    (h : (getFileLoop config env registry disks i chunks).1.isOk = true) (hk : chunks[k]? = some chunk) :
    ∃ x, (getFileLoop config env registry disks i chunks).2[k]? = some ⟨x⟩ ∧
      firstAnswer config registry disks (env.fault (i + k)) chunk = some x := by
  have hlt : k < (getFileLoop config env registry disks i chunks).2.length := by
    rw [getFileLoop_length h]
    exact (List.getElem?_eq_some_iff.mp hk).1
  obtain ⟨⟨x⟩, hx⟩ : ∃ resp, (getFileLoop config env registry disks i chunks).2[k]? = some resp :=
    ⟨_, List.getElem?_eq_getElem hlt⟩
  have hclient := hx
  rw [getFileLoop_client] at hclient
  obtain ⟨chunk', hk', hfirst, -⟩ := AnyClient.getFileLoop_sent hclient
  cases hk.symm.trans hk'
  exact ⟨x, hx, hfirst⟩

/-- The messages of a `GetFile` put together. -/
def downloaded (sent : List GetFileResponse) : Bytes := (sent.map GetFileResponse.data).flatten

/-- **The file comes back** when the first answer for every chunk is its slice and
every message is sent. -/
theorem downloaded_of_chunks (env : GetEnv) {chunks : List ChunkInfo} {content : Bytes}
    (hlen : content.length ≤ 2 ^ 31) (hcount : chunks.length = chunkCount content)
    (hdata : ∀ k chunk, chunks[k]? = some chunk →
      firstAnswer config registry disks (env.fault k) chunk = some (chunkData content k))
    (hwrite : ∀ k, env.write k = true) :
    (getFileLoop config env registry disks 0 chunks).1.isOk = true ∧
      downloaded (getFileLoop config env registry disks 0 chunks).2 = content := by
  have hok : (getFileLoop config env registry disks 0 chunks).1.isOk = true := by
    rw [getFileLoop_isOk]
    intro k chunk hk
    rw [Nat.zero_add, hdata k chunk hk]
    exact ⟨rfl, hwrite k⟩
  have hslices : (getFileLoop config env registry disks 0 chunks).2.map GetFileResponse.data =
      (List.range (chunkCount content)).map (chunkData content) := by
    apply List.ext_getElem?
    intro k
    rw [List.getElem?_map, List.getElem?_map]
    by_cases hk : k < chunks.length
    · obtain ⟨x, hx, hfirst⟩ := getFileLoop_message hok (List.getElem?_eq_getElem hk)
      rw [Nat.zero_add, hdata k _ (List.getElem?_eq_getElem hk)] at hfirst
      cases hfirst
      rw [hx, List.getElem?_range (by omega)]
      rfl
    · rw [List.getElem?_eq_none (by rw [getFileLoop_length hok]; omega),
        List.getElem?_eq_none (by rw [List.length_range]; omega)]
      rfl
  refine ⟨hok, ?_⟩
  rw [downloaded, hslices]
  exact flatten_chunkData hlen

/-- `GetFile` of an active file. -/
theorem getFile_eq {env : GetEnv} {path : String} {c : Cluster} {fileMeta : FileMeta}
    (h : c.store.findFile path = some fileMeta) :
    (getFile config env path c).1 =
        (getFileLoop config env c.registeredNodes c.disks 0 fileMeta.chunks).1 ∧
      (getFile config env path c).2.1 =
        (getFileLoop config env c.registeredNodes c.disks 0 fileMeta.chunks).2 := by
  simp only [getFile, MetadataStore.getFile, h]
  exact ⟨trivial, trivial⟩

/-- `GetFile` of anything else. -/
theorem getFile_absent {env : GetEnv} {path : String} {c : Cluster} (h : c.store.findFile path = none) :
    (getFile config env path c).1 = fileNotFound ∧ (getFile config env path c).2.1 = [] := by
  simp only [getFile, MetadataStore.getFile, h]
  exact ⟨trivial, trivial⟩

end

end ToyDfs
