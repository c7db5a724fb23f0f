import ToyDfs.Coordinator

/-!
`GetFile` over any `client_factory_`.

The coordinator knows a datanode only through the client its factory makes for the
address and port.  Here `client i j ep id` is all such a client says when it is asked
for replica `j` of chunk `i`.

The fallback loop takes the first answer (`readChunkWithFallback_eq`), and `GetFile`
sends the first answers of the chunks (`getFileLoop_sent`), up to one that has none
(`getFileLoop_end`).
-/

namespace ToyDfs

/-- `node_client->GetChunk(chunk_id, &temp_data)`: its status, and `temp_data` after it. -/
abbrev GetChunkClient := Nat → Nat → Endpoint → String → Status × Bytes

namespace AnyClient

section
variable (client : GetChunkClient) (registry : Registry)

/-! ## Algorithm -/

/-- The loop of `readChunkWithFallback` for chunk `i`, from replica `j` on. -/
def readReplicas (i : Nat) (chunkId : String) : Nat → List Int32 → Status × Bytes
  | _, [] =>
    ({ code := .internal, errorMessage := "Failed to read chunk from any replica node" }, [])
  | j, nodeId :: rest =>
    match registry.lookup nodeId with
    | none => readReplicas i chunkId (j + 1) rest
    | some info =>
      let (clientStatus, tempData) := client i j info.endpoint chunkId
      if clientStatus.isOk then (Status.OK, tempData) else readReplicas i chunkId (j + 1) rest

def readChunkWithFallback (i : Nat) (chunkId : String) (nodeIds : List Int32) : Status × Bytes :=
  if nodeIds.isEmpty then
    ({ code := .internal, errorMessage := "No nodes specified for chunk read" }, [])
  else readReplicas client registry i chunkId 0 nodeIds

/-- The chunk loop of `GetFile`, from chunk `i` on. -/
def getFileLoop (write : Nat → Bool) : Nat → List ChunkInfo → Status × List GetFileResponse
  | _, [] => (Status.OK, [])
  | i, chunk :: rest =>
    let (readStatus, chunkData) := readChunkWithFallback client registry i chunk.chunkId chunk.nodeIds
    if !readStatus.isOk then
      ({ code := .internal
         errorMessage := "Failed to read chunk " ++ chunk.chunkId ++ ": " ++ readStatus.errorMessage },
        [])
    else if !write i then
      ({ code := .internal, errorMessage := "Failed to write response" }, [])
    else
      let (status, sent) := getFileLoop write (i + 1) rest
      (status, ⟨chunkData⟩ :: sent)

def getFile (write : Nat → Bool) (filename : String) (store : MetadataStore) :
    Status × List GetFileResponse × MetadataStore :=
  match store.getFile filename with
  | (none, store) => (fileNotFound, [], store)
  | (some fileMeta, store) =>
    let (status, sent) := getFileLoop client registry write 0 fileMeta.chunks
    (status, sent, store)

/-! ## One chunk -/

/-- What the node with this id answers, `none` when it is skipped or fails. -/
def nodeAnswer (i j : Nat) (chunkId : String) (nodeId : Int32) : Option Bytes :=
  match registry.lookup nodeId with
  | none => none
  | some info =>
    let (clientStatus, tempData) := client i j info.endpoint chunkId
    if clientStatus.isOk then some tempData else none

/-- What replica `j` of chunk `i` answers. -/
def replicaAnswer (i : Nat) (chunk : ChunkInfo) (j : Nat) : Option Bytes :=
  chunk.nodeIds[j]?.bind (nodeAnswer client registry i j chunk.chunkId)

/-- The first answer, in the order the nodes are recorded. -/
def firstAnswer (i : Nat) (chunk : ChunkInfo) : Option Bytes :=
  (List.range chunk.nodeIds.length).findSome? (replicaAnswer client registry i chunk)

theorem readReplicas_eq (i : Nat) (chunkId : String) (nodeIds : List Int32) (j : Nat) :
    readReplicas client registry i chunkId j nodeIds =
      match (List.range nodeIds.length).findSome? fun k =>
          nodeIds[k]?.bind (nodeAnswer client registry i (j + k) chunkId) with
      | some data => (Status.OK, data)
      | none => ({ code := .internal, errorMessage := "Failed to read chunk from any replica node" }, []) := by
  induction nodeIds generalizing j with
  | nil => rfl
  | cons nodeId rest ih =>
    have htail : ((List.range rest.length).map Nat.succ).findSome? (fun k =>
        (nodeId :: rest)[k]?.bind (nodeAnswer client registry i (j + k) chunkId)) =
        (List.range rest.length).findSome? fun k =>
          rest[k]?.bind (nodeAnswer client registry i (j + 1 + k) chunkId) := by
      rw [List.findSome?_map]
      congr 1
      funext k
      rw [Function.comp_apply, List.getElem?_cons_succ, Nat.succ_eq_add_one, Nat.add_comm k 1,
        ← Nat.add_assoc]
    rw [List.length_cons, List.range_succ_eq_map, List.findSome?_cons, htail]
    simp only [List.getElem?_cons_zero, Option.bind_some, Nat.add_zero]
    rw [readReplicas, nodeAnswer]
    cases registry.lookup nodeId with
    | none => exact ih (j + 1)
    | some info =>
      simp only
      by_cases hok : (client i j info.endpoint chunkId).1.isOk = true
      · rw [if_pos hok, if_pos hok]
      · rw [if_neg hok, if_neg hok]
        exact ih (j + 1)

/-- **The fallback loop** takes the first answer. -/
theorem readChunkWithFallback_eq (i : Nat) (chunk : ChunkInfo) :
    readChunkWithFallback client registry i chunk.chunkId chunk.nodeIds =
      match firstAnswer client registry i chunk with
      | some data => (Status.OK, data)
      | none => ({ code := .internal
                   errorMessage := if chunk.nodeIds.isEmpty then "No nodes specified for chunk read"
                     else "Failed to read chunk from any replica node" }, []) := by
  unfold readChunkWithFallback firstAnswer
  by_cases hempty : chunk.nodeIds.isEmpty = true
  · have hnil : chunk.nodeIds = [] := List.isEmpty_iff.mp hempty
    simp only [hnil, List.isEmpty_nil, if_true, List.length_nil, List.range_zero, List.findSome?_nil]
  · rw [if_neg hempty, if_neg hempty, readReplicas_eq]
    simp only [Nat.zero_add]
    rfl

variable {client registry}

theorem findSome?_range {α : Type} {f : Nat → Option α} {n : Nat} {a : α} :
    (List.range n).findSome? f = some a ↔ ∃ j < n, f j = some a ∧ ∀ k < j, f k = none := by
  induction n with
  | zero => simp
  | succ n ih =>
    rw [List.range_succ, List.findSome?_append, Option.or_eq_some_iff, ih]
    constructor
    · rintro (⟨j, hj, hf, hbefore⟩ | ⟨hnone, hlast⟩)
      · exact ⟨j, by omega, hf, hbefore⟩
      · rw [List.findSome?_eq_none_iff] at hnone
        exact ⟨n, by omega, by simpa using hlast, fun k hk => hnone k (List.mem_range.mpr hk)⟩
    · rintro ⟨j, hj, hf, hbefore⟩
      by_cases hjn : j = n
      · subst hjn
        refine .inr ⟨?_, by simpa using hf⟩
        rw [List.findSome?_eq_none_iff]
        exact fun k hk => hbefore k (List.mem_range.mp hk)
      · exact .inl ⟨j, by omega, hf, hbefore⟩

theorem replicaAnswer_lt {i j : Nat} {chunk : ChunkInfo} {data : Bytes}
    (h : replicaAnswer client registry i chunk j = some data) : j < chunk.nodeIds.length := by
  by_contra hge
  rw [replicaAnswer, List.getElem?_eq_none (Nat.le_of_not_lt hge)] at h
  cases h

theorem firstAnswer_eq_some {i : Nat} {chunk : ChunkInfo} {data : Bytes} :
    firstAnswer client registry i chunk = some data ↔
      ∃ j, replicaAnswer client registry i chunk j = some data ∧
        ∀ k < j, replicaAnswer client registry i chunk k = none := by
  rw [firstAnswer, findSome?_range]
  constructor
  · rintro ⟨j, -, hj⟩
    exact ⟨j, hj⟩
  · rintro ⟨j, hj⟩
    exact ⟨j, replicaAnswer_lt hj.1, hj⟩

theorem firstAnswer_isSome {i : Nat} {chunk : ChunkInfo} :
    (firstAnswer client registry i chunk).isSome ↔
      ∃ j, (replicaAnswer client registry i chunk j).isSome := by
  rw [firstAnswer, List.findSome?_isSome_iff]
  constructor
  · rintro ⟨j, -, hj⟩
    exact ⟨j, hj⟩
  · rintro ⟨j, hj⟩
    obtain ⟨data, hdata⟩ := Option.isSome_iff_exists.mp hj
    exact ⟨j, List.mem_range.mpr (replicaAnswer_lt hdata), hj⟩

/-! ## All chunks -/

variable {write : Nat → Bool}

/-- One round of the chunk loop, when the chunk is answered and sent. -/
theorem getFileLoop_answered {chunk : ChunkInfo} {rest : List ChunkInfo} {i : Nat} {data : Bytes}
    (hdata : firstAnswer client registry i chunk = some data) (hwrite : write i = true) :
    getFileLoop client registry write i (chunk :: rest) =
      ((getFileLoop client registry write (i + 1) rest).1,
        ⟨data⟩ :: (getFileLoop client registry write (i + 1) rest).2) := by
  rw [getFileLoop, readChunkWithFallback_eq, hdata]
  simp [hwrite]

/-- And when it is not. -/
theorem getFileLoop_failed {chunk : ChunkInfo} {rest : List ChunkInfo} {i : Nat}
    (h : ¬ ((firstAnswer client registry i chunk).isSome ∧ write i = true)) :
    (getFileLoop client registry write i (chunk :: rest)).1.code = .internal ∧
      (getFileLoop client registry write i (chunk :: rest)).2 = [] := by
  rw [getFileLoop, readChunkWithFallback_eq]
  cases hf : firstAnswer client registry i chunk with
  | none => simp [Status.isOk]
  | some data =>
    have hwrite : write i = false := by
      rw [hf] at h
      simpa using h
    simp [hwrite]

/-- **What the chunk loop sends**: each message is the first answer for its chunk. -/
theorem getFileLoop_sent {chunks : List ChunkInfo} {i k : Nat} {resp : GetFileResponse}
    (h : (getFileLoop client registry write i chunks).2[k]? = some resp) :
    ∃ chunk, chunks[k]? = some chunk ∧
      firstAnswer client registry (i + k) chunk = some resp.data ∧ write (i + k) = true := by
  induction chunks generalizing i k with
  | nil => cases h
  | cons chunk rest ih =>
    by_cases hhead : (firstAnswer client registry i chunk).isSome ∧ write i = true
    · obtain ⟨data, hdata⟩ := Option.isSome_iff_exists.mp hhead.1
      rw [getFileLoop_answered hdata hhead.2] at h
      cases k with
      | zero =>
        cases h
        exact ⟨chunk, rfl, hdata, hhead.2⟩
      | succ k =>
        have hrest := ih h
        rwa [Nat.add_assoc, Nat.add_comm 1 k] at hrest
    · rw [(getFileLoop_failed hhead).2] at h
      cases h

/-- **Where it ends**: after the last chunk, or at one without an answer or that cannot
be sent. -/
theorem getFileLoop_end (chunks : List ChunkInfo) (i : Nat) :
    ((getFileLoop client registry write i chunks).2.length = chunks.length ∧
        (getFileLoop client registry write i chunks).1 = Status.OK) ∨
      ∃ k chunk, (getFileLoop client registry write i chunks).2.length = k ∧ chunks[k]? = some chunk ∧
        ¬ ((firstAnswer client registry (i + k) chunk).isSome ∧ write (i + k) = true) ∧
        (getFileLoop client registry write i chunks).1.code = .internal := by
  induction chunks generalizing i with
  | nil => exact .inl ⟨rfl, rfl⟩
  | cons chunk rest ih =>
    by_cases hhead : (firstAnswer client registry i chunk).isSome ∧ write i = true
    · obtain ⟨data, hdata⟩ := Option.isSome_iff_exists.mp hhead.1
      rw [getFileLoop_answered hdata hhead.2]
      rcases ih (i + 1) with ⟨hall, hok⟩ | ⟨k, failed, hk, hchunk, hfail, hcode⟩
      · exact .inl ⟨congrArg Nat.succ hall, hok⟩
      · rw [Nat.add_assoc, Nat.add_comm 1 k] at hfail
        exact .inr ⟨k + 1, failed, congrArg Nat.succ hk, hchunk, hfail, hcode⟩
    · obtain ⟨hcode, hsent⟩ := @getFileLoop_failed client registry write chunk rest i hhead
      exact .inr ⟨0, chunk, congrArg List.length hsent, rfl, hhead, hcode⟩

/-- `GetFile` succeeds iff every chunk is answered and every message is sent. -/
theorem getFileLoop_isOk {chunks : List ChunkInfo} {i : Nat} :
    (getFileLoop client registry write i chunks).1.isOk = true ↔
      ∀ k chunk, chunks[k]? = some chunk →
        (firstAnswer client registry (i + k) chunk).isSome ∧ write (i + k) = true := by
  rcases @getFileLoop_end client registry write chunks i with ⟨hall, hok⟩ | ⟨k, chunk, -, hk, hfail, hcode⟩
  · rw [hok]
    refine ⟨fun _ k chunk hk => ?_, fun _ => rfl⟩
    have hlt : k < (getFileLoop client registry write i chunks).2.length := by
      rw [hall]
      exact (List.getElem?_eq_some_iff.mp hk).1
    obtain ⟨chunk', hk', hfirst, hwrite⟩ := getFileLoop_sent (List.getElem?_eq_getElem hlt)
    cases hk.symm.trans hk'
    rw [hfirst]
    exact ⟨rfl, hwrite⟩
  · rw [Status.isOk, hcode]
    refine ⟨fun h => ?_, fun h => absurd (h k chunk hk) hfail⟩
    cases h

/-- A `GetFile` that succeeds sends a message for each chunk. -/
theorem getFileLoop_length {chunks : List ChunkInfo} {i : Nat}
    (h : (getFileLoop client registry write i chunks).1.isOk = true) :
    (getFileLoop client registry write i chunks).2.length = chunks.length := by
  rcases @getFileLoop_end client registry write chunks i with ⟨hall, -⟩ | ⟨k, chunk, -, -, -, hcode⟩
  · exact hall
  · rw [Status.isOk, hcode] at h
    cases h

end

end AnyClient

end ToyDfs
