import ToyDfs.Client
import ToyDfs.Reading

/-!
A download when replicas fail.

Whatever the datanodes say to `GetChunk`, a download is decided by the replicas that
serve their chunk (`Serves`): `GetFile` sends of each chunk what the first one serves,
up to the first chunk that none serves, and the client returns a file if and only if
there is no such chunk (`downloaded_of_getFile`).
-/

namespace ToyDfs

/-! ## Statement -/

section
variable (client : GetChunkClient) (registry : Registry)

/-- Replica `j` of chunk `i` is on a registered node, and its `GetChunk` is OK, with
`data`. -/
def Serves (i : Nat) (chunk : ChunkInfo) (j : Nat) (data : Bytes) : Prop :=
  ∃ nodeId info, chunk.nodeIds[j]? = some nodeId ∧ registry.lookup nodeId = some info ∧
    (client i j info.endpoint chunk.chunkId).1.isOk = true ∧
    (client i j info.endpoint chunk.chunkId).2 = data

/-- The first replica that serves the chunk does so with `data`. -/
def ServesFirst (i : Nat) (chunk : ChunkInfo) (data : Bytes) : Prop :=
  ∃ j, Serves client registry i chunk j data ∧ ∀ k < j, ∀ x, ¬ Serves client registry i chunk k x

/-- What `GetFile` answers for these chunks, and what the client makes of it. -/
structure Downloaded (chunks : List ChunkInfo) (status : Status) (messages : List GetFileResponse) :
    Prop where
  isOk : status.isOk = true ↔
    ∀ i chunk, chunks[i]? = some chunk → ∃ j data, Serves client registry i chunk j data
  sent : ∀ i resp, messages[i]? = some resp →
    ∃ chunk, chunks[i]? = some chunk ∧ ServesFirst client registry i chunk resp.data
  all : status.isOk = true → messages.length = chunks.length
  failed : status.isOk = false → status.code = .internal ∧
    ∃ chunk, chunks[messages.length]? = some chunk ∧
      ∀ j data, ¬ Serves client registry messages.length chunk j data
  returned : status.isOk = true →
    getFileSync messages status = .ok (messages.map GetFileResponse.data).flatten
  thrown : status.isOk = false → getFileSync messages status = .error (.runtimeError status.errorMessage)

end

/-! ## Lemmas -/

section
variable {client : GetChunkClient} {registry : Registry}

theorem replicaAnswer_eq_some {i j : Nat} {chunk : ChunkInfo} {data : Bytes} :
    AnyClient.replicaAnswer client registry i chunk j = some data ↔ Serves client registry i chunk j data := by
  rw [AnyClient.replicaAnswer, Option.bind_eq_some_iff]
  constructor
  · rintro ⟨nodeId, hnode, hanswer⟩
    unfold AnyClient.nodeAnswer at hanswer
    cases hl : registry.lookup nodeId with
    | none => simp [hl] at hanswer
    | some info =>
      simp only [hl, Option.ite_none_right_eq_some, Option.some.injEq] at hanswer
      exact ⟨nodeId, info, hnode, hl, hanswer⟩
  · rintro ⟨nodeId, info, hnode, hl, hok, hdata⟩
    refine ⟨nodeId, hnode, ?_⟩
    simp only [AnyClient.nodeAnswer, hl, hok, if_true, hdata]

theorem replicaAnswer_eq_none {i j : Nat} {chunk : ChunkInfo} :
    AnyClient.replicaAnswer client registry i chunk j = none ↔
      ∀ data, ¬ Serves client registry i chunk j data := by
  rw [Option.eq_none_iff_forall_ne_some]
  exact forall_congr' fun data => not_congr replicaAnswer_eq_some

theorem servesFirst_iff {i : Nat} {chunk : ChunkInfo} {data : Bytes} :
    AnyClient.firstAnswer client registry i chunk = some data ↔ ServesFirst client registry i chunk data := by
  rw [AnyClient.firstAnswer_eq_some]
  exact exists_congr fun j => and_congr replicaAnswer_eq_some
    (forall₂_congr fun k _ => replicaAnswer_eq_none)

theorem firstAnswer_isSome_iff {i : Nat} {chunk : ChunkInfo} :
    (AnyClient.firstAnswer client registry i chunk).isSome ↔
      ∃ j data, Serves client registry i chunk j data := by
  rw [AnyClient.firstAnswer_isSome]
  refine exists_congr fun j => ?_
  rw [Option.isSome_iff_exists]
  exact exists_congr fun data => replicaAnswer_eq_some

theorem getFileSync_of_isOk {messages : List GetFileResponse} {status : Status} (h : status.isOk = true) :
    getFileSync messages status = .ok (messages.map GetFileResponse.data).flatten := by
  rw [getFileSync_eq, if_pos h]

theorem getFileSync_of_internal {messages : List GetFileResponse} {status : Status}
    (h : status.code = .internal) :
    getFileSync messages status = .error (.runtimeError status.errorMessage) := by
  have hok : ¬ status.isOk = true := by
    rw [Status.isOk, h]
    decide
  have hfound : ¬ status.code = .notFound := by
    rw [h]
    decide
  rw [getFileSync_eq, if_neg hok, if_neg hfound]

/-- A chunk loop that fails, though the client takes every message, has come to a chunk
that no replica serves. -/
theorem unserved_of_getFileLoop {chunks : List ChunkInfo}
    (h : (AnyClient.getFileLoop client registry (fun _ => true) 0 chunks).1.isOk = false) :
    (AnyClient.getFileLoop client registry (fun _ => true) 0 chunks).1.code = .internal ∧
      ∃ k chunk, (AnyClient.getFileLoop client registry (fun _ => true) 0 chunks).2.length = k ∧
        chunks[k]? = some chunk ∧ ∀ j data, ¬ Serves client registry k chunk j data := by
  rcases @AnyClient.getFileLoop_end client registry (fun _ => true) chunks 0 with
    ⟨-, hok⟩ | ⟨k, chunk, hk, hchunk, hnone, hcode⟩
  · rw [hok] at h
    cases h
  · refine ⟨hcode, k, chunk, hk, hchunk, fun j data hserves => hnone ⟨?_, rfl⟩⟩
    rw [Nat.zero_add, firstAnswer_isSome_iff]
    exact ⟨j, data, hserves⟩

/-- The chunk loop, when the client takes every message. -/
theorem downloaded_of_getFileLoop (chunks : List ChunkInfo) :
    Downloaded client registry chunks
      (AnyClient.getFileLoop client registry (fun _ => true) 0 chunks).1
      (AnyClient.getFileLoop client registry (fun _ => true) 0 chunks).2 := by
  refine ⟨?_, ?_, AnyClient.getFileLoop_length, ?_, getFileSync_of_isOk, ?_⟩
  · rw [AnyClient.getFileLoop_isOk]
    simp only [Nat.zero_add, and_true, firstAnswer_isSome_iff]
  · intro i resp hi
    obtain ⟨chunk, hchunk, hfirst, -⟩ := AnyClient.getFileLoop_sent hi
    rw [Nat.zero_add] at hfirst
    exact ⟨chunk, hchunk, servesFirst_iff.mp hfirst⟩
  · intro hnot
    obtain ⟨hcode, k, chunk, rfl, hchunk, hunserved⟩ := unserved_of_getFileLoop hnot
    exact ⟨hcode, chunk, hchunk, hunserved⟩
  · intro hnot
    exact getFileSync_of_internal (unserved_of_getFileLoop hnot).1

/-! ## The datanodes -/

/-- `GetFile` on a cluster is the one over the clients of its datanodes. -/
theorem getFile_client (config : Endpoint → DataNodeConfig) (env : GetEnv) (filename : String) (c : Cluster) :
    (getFile config env filename c).1 =
        (AnyClient.getFile (stubClient config c.disks env.fault) c.registeredNodes env.write filename
          c.store).1 ∧
      (getFile config env filename c).2.1 =
        (AnyClient.getFile (stubClient config c.disks env.fault) c.registeredNodes env.write filename
          c.store).2.1 := by
  cases h : c.store.findFile filename with
  | none =>
    simp only [getFile, AnyClient.getFile, MetadataStore.getFile, h]
    exact ⟨trivial, trivial⟩
  | some fileMeta =>
    simp only [getFile, AnyClient.getFile, MetadataStore.getFile, h, getFileLoop_client]
    exact ⟨trivial, trivial⟩

/-- A name without a file. -/
theorem getFile_notFound {filename : String} {store : MetadataStore} (h : store.findFile filename = none) :
    (AnyClient.getFile client registry (fun _ => true) filename store).1 = fileNotFound ∧
      (AnyClient.getFile client registry (fun _ => true) filename store).2.1 = [] ∧
      getFileSync [] fileNotFound = .error (.systemError "ENOENT" "No such file or directory") := by
  simp only [AnyClient.getFile, MetadataStore.getFile, h]
  exact ⟨trivial, trivial, rfl⟩

end

/-! ## Top theorem -/

/-- **A download succeeds iff every chunk is served.** -/
theorem downloaded_of_getFile (client : GetChunkClient) (registry : Registry) (filename : String)
    (store : MetadataStore) {fileMeta : FileMeta} (h : store.findFile filename = some fileMeta) :
    Downloaded client registry fileMeta.chunks
      (AnyClient.getFile client registry (fun _ => true) filename store).1
      (AnyClient.getFile client registry (fun _ => true) filename store).2.1 := by
  have hloop := @downloaded_of_getFileLoop client registry fileMeta.chunks
  simp only [AnyClient.getFile, MetadataStore.getFile, h]
  exact hloop

/-- Node 2 has gone; node 1 has lost the second chunk, and node 3 never answers. -/
def oneOfThree : GetChunkClient := fun _ _ ep chunkId =>
  if ep = ⟨"a", 1⟩ ∧ chunkId = "chunk_0" then (Status.OK, [7, 8]) else (⟨.unavailable, ""⟩, [])

def threeReplicas : FileMeta :=
  ⟨3, 2, [{ chunkId := "chunk_0", nodeIds := [2, 3, 1] }, { chunkId := "chunk_1", nodeIds := [1, 2, 3] }]⟩

theorem downloaded_oneOfThree : Downloaded oneOfThree
    (((∅ : Registry).insert 1 ⟨1, "a", 1⟩).insert 3 ⟨3, "c", 1⟩) threeReplicas.chunks
    ⟨.internal, "Failed to read chunk chunk_1: Failed to read chunk from any replica node"⟩
    [⟨[7, 8]⟩] := by
  have hfind : (MetadataStore.empty.putFile "f" threeReplicas).findFile "f" = some threeReplicas := by
    decide
  exact downloaded_of_getFile oneOfThree _ "f" (MetadataStore.empty.putFile "f" threeReplicas) hfind

end ToyDfs
