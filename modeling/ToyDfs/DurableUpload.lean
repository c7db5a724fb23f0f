import Mathlib.Data.List.Perm.Basic
import ToyDfs.UploadOutcomes
import ToyDfs.ReplicaTasks

/-!
What an OK answer of `PutFile` promises, with the replica writes interleaved.

`putFile` runs the replica writes of a chunk one after the other.  Here they take the
steps of their handlers in any order (`PutEnv.interleaved`), which `putFile` is a case of
(`putFile_turns`).

* `putFileWith_status`: what is answered does not depend on the order.
* `putFileWith_complete`: neither do the disks, when no write loses a byte.
* `durable_iff_noSilentLoss`: an OK answer means in every order that the replicas are
  stored iff no replica write loses bytes without an error.
-/

namespace ToyDfs

/-! ## Algorithm -/

/-- The `k` replica writes of chunk `i` take `steps i k` before they are waited for. -/
def PutEnv.interleaved (config : Endpoint → DataNodeConfig) (env : PutEnv)
    (steps : (i k : Nat) → List (Fin k × Nat)) : SendChunk :=
  fun i registry chunkId chunkData nodeIds disks =>
    distributeInterleaved config registry (env.fault i) chunkId chunkData nodeIds (steps i nodeIds.length)
      disks

/-- One write after the other, in the order of `env.schedule`. -/
def PutEnv.turns (env : PutEnv) (i k : Nat) : List (Fin k × Nat) :=
  inTurnSteps ((env.schedule i k).pmap Fin.mk fun _ hj =>
    List.mem_range.mp ((env.schedule_perm i k).mem_iff.mp hj))

section
variable (config : Endpoint → DataNodeConfig) (env : PutEnv) (reader : ServerReader PutFileRequest)
  (c : Cluster)

/-- If the answer is OK, then every block of the file has a chunk, and every replica
recorded holds its block. -/
def AllStored (result : Status × PutFileResponse × Cluster) : Prop :=
  result.1.isOk = true → result.2.1.success = true →
    ∃ fileMeta, result.2.2.store.findFile (uploadName reader.messages) = some fileMeta ∧
      (∀ i, i * (1024 * 1024) < (uploadData reader.messages).length → i < fileMeta.chunks.length) ∧
      ∀ i chunk, fileMeta.chunks[i]? = some chunk → ∀ nodeId ∈ chunk.nodeIds,
        ∃ info, (registryOf env c i).lookup nodeId = some info ∧
          stored (config info.endpoint) (result.2.2.disks info.endpoint) chunk.chunkId =
            some (Blocks.block (1024 * 1024) (uploadData reader.messages) i)

/-- An OK answer of `PutFile` means stored, in whatever order the replica writes go. -/
def Durable : Prop :=
  ∀ steps, AllStored config env reader c (putFileWith (env.interleaved config steps) env reader c)

/-- If the upload gets through, then each of its replica writes leaves its whole block in
the file. -/
def NoSilentLoss : Prop :=
  GetsThrough config env c reader.messages →
    ∀ i, i * (1024 * 1024) < (uploadData reader.messages).length → ∀ j < (placement env c i).length,
      (env.fault i j).disk.kept (Blocks.block (1024 * 1024) (uploadData reader.messages) i) =
        Blocks.block (1024 * 1024) (uploadData reader.messages) i

end

/-! ## Lemmas -/

section
variable {config : Endpoint → DataNodeConfig} {env : PutEnv} {reader : ServerReader PutFileRequest}
  {c : Cluster}

theorem map_val_pmap_mk {k : Nat} {js : List Nat} (h : ∀ j ∈ js, j < k) :
    (js.pmap Fin.mk h).map Fin.val = js := by
  rw [List.map_pmap, List.pmap_eq_map, List.map_id']

/-- **In turn** the writes are those of `putFile`. -/
theorem PutEnv.interleaved_turns : env.interleaved config env.turns = env.inTurn config := by
  funext i registry chunkId chunkData nodeIds disks
  have hval := map_val_pmap_mk fun j hj =>
    List.mem_range.mp ((env.schedule_perm i nodeIds.length).mem_iff.mp hj)
  refine (distributeInterleaved_inTurn _ _ _ _ _ _ ?_ disks).trans ?_
  · rw [← List.map_perm_map_iff (fun _ _ => Fin.ext), hval, List.map_coe_finRange_eq_range]
    exact env.schedule_perm i nodeIds.length
  · rw [hval]
    rfl

theorem putFile_turns :
    putFileWith (env.interleaved config env.turns) env reader c = putFile config env reader c := by
  rw [PutEnv.interleaved_turns]
  rfl

/-! ### What is answered -/

/-- Two ways the replica writes go that answer the same. -/
def SameAnswers (send send' : SendChunk) : Prop :=
  ∀ i registry chunkId chunkData nodeIds disks disks',
    (send' i registry chunkId chunkData nodeIds disks').1 = (send i registry chunkId chunkData nodeIds disks).1

variable {send send' : SendChunk}

/-- The body of the chunk loop then differs on the disks only. -/
theorem putFileChunkWith_status (h : SameAnswers send send') (fileData : Bytes) (i : Nat) (c : Cluster)
    (disks : Disks) :
    ∃ disks', putFileChunkWith send' env fileData i { c with disks := disks } =
      ((putFileChunkWith send env fileData i c).1,
        { (putFileChunkWith send env fileData i c).2 with disks := disks' }) := by
  unfold putFileChunkWith
  simp only [h i _ _ _ _ c.disks disks]
  split
  · exact ⟨disks, rfl⟩
  · split
    · exact ⟨_, rfl⟩
    · exact ⟨_, rfl⟩

theorem putFileLoopWith_status (h : SameAnswers send send') (fileData : Bytes) (n i : Nat)
    (fileMeta : FileMeta) (c : Cluster) (disks : Disks) :
    (putFileLoopWith send' env fileData n i fileMeta { c with disks := disks }).1 =
      (putFileLoopWith send env fileData n i fileMeta c).1 := by
  induction n generalizing i fileMeta c disks with
  | zero => rfl
  | succ n ih =>
    obtain ⟨disks', hchunk⟩ := @putFileChunkWith_status env _ _ h fileData i c disks
    rw [putFileLoopWith, putFileLoopWith, hchunk]
    cases putFileChunkWith send env fileData i c with
    | mk res d =>
      cases res with
      | error status => rfl
      | ok chunk => exact ih _ _ d disks'

theorem finishPut_status {filename : String} {r r' : Except Status FileMeta × Cluster} (h : r'.1 = r.1) :
    (finishPut filename r').1 = (finishPut filename r).1 := by
  obtain ⟨res, d⟩ := r
  obtain ⟨res', d'⟩ := r'
  cases h
  cases res <;> rfl

/-- **What `PutFile` answers** depends on what the replica writes answer. -/
theorem putFileWith_status (h : SameAnswers send send') :
    (putFileWith send' env reader c).1 = (putFileWith send env reader c).1 := by
  unfold putFileWith
  cases readUpload reader.messages true "" [] c.store with
  | mk res store =>
    cases res with
    | error status => rfl
    | ok upload =>
      simp only
      split
      · rfl
      · exact finishPut_status (putFileLoopWith_status h upload.2 _ 0 _ { c with store := store } c.disks)

theorem sameAnswers_interleaved (steps : (i k : Nat) → List (Fin k × Nat)) :
    SameAnswers (env.inTurn config) (env.interleaved config steps) :=
  fun i _ _ _ _ _ _ => distributeInterleaved_status _ _ _ _ _ _ (env.schedule_perm i _) _ _ _

/-! ### What is stored -/

/-- Replica writes that do for the planned chunks what those of `putFile` do. -/
def OnPlannedChunks (config : Endpoint → DataNodeConfig) (env : PutEnv) (fileData : Bytes) (c : Cluster)
    (send : SendChunk) : Prop :=
  ∀ i < chunkCount fileData, ∀ disks,
    send i (registryOf env c i) (chunkName (chunkNumber c i)) (chunkData fileData i) (placement env c i) disks =
      env.inTurn config i (registryOf env c i) (chunkName (chunkNumber c i)) (chunkData fileData i)
        (placement env c i) disks

theorem putFileChunkWith_eq {fileData : Bytes} {i : Nat} {d : Cluster} (hd : OnPlan env c i d)
    (hsend : ∀ disks, send i (registryOf env c i) (chunkName (chunkNumber c i)) (chunkData fileData i)
      (placement env c i) disks = env.inTurn config i (registryOf env c i) (chunkName (chunkNumber c i))
        (chunkData fileData i) (placement env c i) disks) :
    putFileChunkWith send env fileData i d = putFileChunk config env fileData i d := by
  have hsent := hsend d.disks
  simp only [placement, chunkNumber] at hsent
  unfold putFileChunk putFileChunkWith
  simp only [hd.registry, hd.index, hd.counter, hsent]

theorem putFileLoopWith_eq {fileData : Bytes} (hsend : OnPlannedChunks config env fileData c send)
    (hok : ∀ k < chunkCount fileData, ChunkOk config env c k) (n : Nat) {i : Nat}
    (hi : i + n ≤ chunkCount fileData) (fileMeta : FileMeta) :
    putFileLoopWith send env fileData n i fileMeta (clusterAt config env fileData c i) =
      putFileLoop config env fileData n i fileMeta (clusterAt config env fileData c i) := by
  induction n generalizing i fileMeta with
  | zero => rfl
  | succ n ih =>
    have hplan := onPlan_clusterAt fileData fun k (hk : k < i) => hok k (by omega)
    rw [putFileLoop_succ, putFileLoopWith, putFileChunkWith_eq hplan (hsend i (by omega))]
    cases hres : putFileChunk config env fileData i (clusterAt config env fileData c i) with
    | mk res d =>
      have hd : d = clusterAt config env fileData c (i + 1) := by rw [clusterAt, hres]
      cases res with
      | error status => rfl
      | ok chunk =>
        simp only [hd]
        exact ih (by omega) _

/-- **Without a loss** every order is as good as one write after the other. -/
theorem putFileWith_complete (hthrough : GetsThrough config env c reader.messages)
    (hsize : (uploadData reader.messages).length ≤ 2 ^ 31) (hkept : NoSilentLoss config env reader c)
    (steps : (i k : Nat) → List (Fin k × Nat)) :
    putFileWith (env.interleaved config steps) env reader c = putFile config env reader c := by
  obtain ⟨hacc, hok⟩ := (getsThrough_iff hsize).mp hthrough
  have hsend : OnPlannedChunks config env (uploadData reader.messages) (checked c reader.messages)
      (env.interleaved config steps) := by
    intro i hi disks
    have hsame : ∀ j < (placement env c i).length, (env.fault i j).disk.kept
        (chunkData (uploadData reader.messages) i) = chunkData (uploadData reader.messages) i := by
      rw [chunkData_eq_block hsize hi]
      exact hkept hthrough i ((lt_chunkCount_iff hsize).mp hi)
    rw [← PutEnv.interleaved_turns]
    exact distributeInterleaved_complete hsame _ _ disks
  rw [putFileWith_accepted hacc, putFile_accepted hacc]
  exact congrArg _ (putFileLoopWith_eq hsend hok _ (Nat.le_of_eq (Nat.zero_add _)) _)

/-! ### One write last -/

/-- The same upload, with replica write `j` of each chunk the last one. -/
def PutEnv.withLast (env : PutEnv) (j : Nat) : PutEnv :=
  { env with
    schedule := fun _ k => if j < k then (List.range k).erase j ++ [j] else List.range k
    schedule_perm := by
      intro _ k
      split
      · next hj =>
        exact (List.perm_append_singleton j _).trans
          (List.perm_cons_erase (List.mem_range.mpr hj)).symm
      · exact .refl _ }

theorem putFileLoopWith_withLast {send : SendChunk} (j : Nat) (fileData : Bytes) (n i : Nat)
    (fileMeta : FileMeta) (c : Cluster) :
    putFileLoopWith send (env.withLast j) fileData n i fileMeta c =
      putFileLoopWith send env fileData n i fileMeta c := by
  induction n generalizing i fileMeta c with
  | zero => rfl
  | succ n ih =>
    have hchunk : putFileChunkWith send (env.withLast j) fileData i c =
        putFileChunkWith send env fileData i c := rfl
    rw [putFileLoopWith, putFileLoopWith, hchunk]
    cases putFileChunkWith send env fileData i c with
    | mk res d =>
      cases res with
      | error status => rfl
      | ok chunk => exact ih _ _ d

/-- **It is one of the orders** of the upload. -/
theorem putFile_withLast (hacc : Accepted c.store reader.messages) (j : Nat) :
    putFileWith (env.interleaved config (env.withLast j).turns) env reader c =
      putFile config (env.withLast j) reader c := by
  rw [← putFile_turns, putFileWith_accepted hacc, putFileWith_accepted hacc, putFileLoopWith_withLast]
  rfl

theorem decidingTask_withLast {i j : Nat} (hj : j < (placement env c i).length) {info : DataNodeInfo}
    (hcreates : taskCreates config (registryOf env c i) (env.fault i) (chunkName (chunkNumber c i))
      (placement env c i) info.endpoint j = true) :
    decidingTask config (env.withLast j) c i info.endpoint = some j := by
  have hschedule : (env.withLast j).schedule i (placement env c i).length =
      (List.range (placement env c i).length).erase j ++ [j] := if_pos hj
  show lastTask config (registryOf env c i) (env.fault i) (chunkName (chunkNumber c i)) (placement env c i)
    ((env.withLast j).schedule i (placement env c i).length) info.endpoint = some j
  rw [hschedule, lastTask, List.filter_append, List.filter_cons_of_pos hcreates, List.filter_nil,
    List.getLast?_concat]

/-! ## Top theorem -/

/-- **Success means stored, unless a datanode loses bytes silently.** -/
theorem durable_iff_noSilentLoss (config : Endpoint → DataNodeConfig) (env : PutEnv)
    (reader : ServerReader PutFileRequest) (c : Cluster)
    (hsize : (uploadData reader.messages).length ≤ 2 ^ 31) :
    Durable config env reader c ↔ NoSilentLoss config env reader c := by
  constructor
  · intro h hthrough i hi j hj
    obtain ⟨hacc, hok⟩ := (getsThrough_iff hsize).mp hthrough
    have hi' := (lt_chunkCount_iff hsize).mpr hi
    obtain ⟨info, hl, hcreates⟩ := nodeOk_lookup ((hok i hi').2 j hj)
    have hput := @putFile_committed config (env.withLast j) reader c hacc hok
    have hall := h (env.withLast j).turns
    rw [putFile_withLast hacc] at hall
    obtain ⟨fileMeta, hfind, -, hall⟩ := hall (by rw [hput]; rfl) (by rw [hput])
    rw [hput, MetadataStore.findFile_putFile] at hfind
    cases hfind
    have hchunk : (uploadMeta env c reader.messages).chunks[i]? = some (plannedChunk env c i) := by
      simp [uploadMeta, hi']
    have hmem : (placement env c i).getD j 0 ∈ (plannedChunk env c i).nodeIds := by
      rw [List.getD_eq_getElem?_getD, List.getElem?_eq_getElem hj]
      exact List.getElem_mem hj
    obtain ⟨info', hl', hst⟩ := hall i _ hchunk _ hmem
    cases hl.symm.trans hl'
    have hkept := @putFile_stored config (env.withLast j) reader c hacc hok i hi' info.endpoint j
      (decidingTask_withLast hj hcreates)
    rw [← chunkData_eq_block hsize hi'] at hst ⊢
    exact Option.some.inj (hkept.symm.trans hst)
  · intro h steps hOk _
    rw [putFileWith_status (sameAnswers_interleaved steps)] at hOk
    obtain ⟨hacc, hok⟩ := accepted_of_isOk hOk
    have hthrough := (getsThrough_iff hsize).mpr ⟨hacc, hok⟩
    rw [putFileWith_complete hthrough hsize h]
    refine ⟨uploadMeta env c reader.messages, ?_, ?_, ?_⟩
    · rw [putFile_committed hacc hok, MetadataStore.findFile_putFile]
    · intro i hi
      simp [uploadMeta, (lt_chunkCount_iff hsize).mpr hi]
    · intro i chunk hchunk nodeId hn
      obtain ⟨hi, rfl⟩ : i < chunkCount (uploadData reader.messages) ∧ chunk = plannedChunk env c i := by
        simp only [uploadMeta, List.getElem?_map, Option.map_eq_some_iff] at hchunk
        obtain ⟨k, hk, rfl⟩ := hchunk
        obtain ⟨hlt, rfl⟩ := List.getElem?_eq_some_iff.mp hk
        rw [List.length_range] at hlt
        rw [List.getElem_range]
        exact ⟨hlt, rfl⟩
      obtain ⟨info, j, hl, hj⟩ := exists_decidingTask (hok i hi) hn
      have hkept := h hthrough i ((lt_chunkCount_iff hsize).mp hi) j (decidingTask_spec hj).1
      refine ⟨info, hl, ?_⟩
      rw [← chunkData_eq_block hsize hi] at hkept ⊢
      exact (putFile_stored hacc hok hi hj).trans (congrArg some hkept)

/-- The second write to node 2 fails, but only after the last byte. -/
def writeFailsLate : PutEnv :=
  .inOrder fun _ j => if j = 2 then { disk := { write := fun _ => some 2 } } else {}

theorem durable_writeFailsLate :
    (putFile (fun _ => {}) writeFailsLate { messages := [⟨"f", [7, 8]⟩] } twoNodes).1.isOk = true ∧
      Durable (fun _ => {}) writeFailsLate { messages := [⟨"f", [7, 8]⟩] } twoNodes := by
  refine ⟨by decide, (durable_iff_noSilentLoss _ _ _ _ (by decide)).mpr ?_⟩
  intro _ i hi j _
  have hlen : (uploadData [⟨"f", [7, 8]⟩]).length = 2 := by decide
  obtain rfl : i = 0 := by
    rw [hlen] at hi
    omega
  by_cases hj : j = 2
  · subst hj
    decide
  · have hfault : (writeFailsLate.fault 0 j).disk = {} := by
      simp only [writeFailsLate, PutEnv.inOrder, if_neg hj]
    rw [hfault]
    rfl

/-- The disk at `a` is full: the write to node 1 stores no byte. -/
def diskFull : PutEnv :=
  .inOrder fun _ j => if j = 1 then { disk := { write := fun _ => some 0 } } else {}

/-- `PutFile` answers OK, and the file on node 1 is empty. -/
theorem not_durable_diskFull :
    ¬ Durable (fun _ => {}) diskFull { messages := [⟨"f", [7]⟩] } twoNodes := by
  intro h
  have hall := h diskFull.turns
  rw [putFile_turns] at hall
  obtain ⟨fileMeta, hfind, -, hall⟩ := hall (by decide) (by decide)
  have hmeta : fileMeta = ⟨1, 1048576, [{ chunkId := "chunk_0", nodeIds := [2, 1, 2] }]⟩ := by
    apply Option.some.inj
    rw [← hfind]
    decide
  subst hmeta
  obtain ⟨info, hl, hst⟩ := hall 0 _ rfl 1 (by decide)
  have hinfo : info = ⟨1, "a", 1⟩ := by
    apply Option.some.inj
    rw [← hl]
    decide
  subst hinfo
  revert hst
  decide

end

end ToyDfs
