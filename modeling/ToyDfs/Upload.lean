import ToyDfs.FanOut
import ToyDfs.Slicing

/-!
One `PutFile` from start to end.

What it does is decided by its inputs alone: the checks (`Accepted`), and for each
chunk the nodes it is placed on (`placement`) and whether their writes are
answered OK (`ChunkOk`).  `putFile_refused`, `putFile_committed` and
`putFile_failed` give the result in the three cases; `clusterAt_stored` says what
the datanodes hold in between.
-/

namespace ToyDfs

/-! ## The request stream -/

/-- `filename` after the `Read` loop. -/
def uploadName : List PutFileRequest → String
  | [] => ""
  | req :: _ => req.filename

/-- `file_data` after the `Read` loop. -/
def uploadData (messages : List PutFileRequest) : Bytes :=
  (messages.map PutFileRequest.data).flatten

/-- The file has a name, and no active file has it. -/
def Accepted (s : MetadataStore) (messages : List PutFileRequest) : Prop :=
  uploadName messages ≠ "" ∧ s.findFile (uploadName messages) = none

theorem readUpload_rest (messages : List PutFileRequest) (filename : String) (fileData : Bytes)
    (s : MetadataStore) :
    readUpload messages false filename fileData s =
      (.ok (filename, fileData ++ uploadData messages), s) := by
  induction messages generalizing fileData with
  | nil => simp [readUpload, uploadData]
  | cons req reqs ih => simp [readUpload, ih, uploadData]

theorem readUpload_first (req : PutFileRequest) (reqs : List PutFileRequest) (s : MetadataStore) :
    readUpload (req :: reqs) true "" [] s =
      if (s.findFile req.filename).isSome then
        (.error { code := .alreadyExists, errorMessage := "File exists" }, (s.getFile req.filename).2)
      else (.ok (req.filename, uploadData (req :: reqs)), (s.getFile req.filename).2) := by
  unfold readUpload
  simp only [readUpload_rest]
  rfl

theorem readUpload_ok {messages : List PutFileRequest} {filename : String} {fileData : Bytes}
    {s s' : MetadataStore} (h : readUpload messages true "" [] s = (.ok (filename, fileData), s')) :
    filename = uploadName messages ∧ fileData = uploadData messages := by
  cases messages with
  | nil =>
    cases h
    exact ⟨rfl, rfl⟩
  | cons req reqs =>
    rw [readUpload_first] at h
    split at h
    · cases h
    · cases h
      exact ⟨rfl, rfl⟩

/-! ## The plan of the chunk loop -/

section
variable (config : Endpoint → DataNodeConfig) (env : PutEnv) (fileData : Bytes) (c : Cluster)

/-- The registry while chunk `i` is stored. -/
def registryOf (i : Nat) : Registry := registryAt env.change c.registeredNodes i

/-- The nodes of chunk `i`. -/
def placement (i : Nat) : List Int32 :=
  (selectNodesForReplication 3 (env.order i (registryOf env c i)) (c.nextNodeIndex + UInt32.ofNat i)).1

/-- The number of chunk `i`'s id. -/
def chunkNumber (i : Nat) : Nat := (c.chunkIdCounter + UInt64.ofNat i).toNat

/-- What is recorded of chunk `i`. -/
def plannedChunk (i : Nat) : ChunkInfo :=
  { chunkId := chunkName (chunkNumber c i), nodeIds := placement env c i, replicationFactor := 3 }

/-- There are nodes for chunk `i`, and all of them answer OK. -/
def ChunkOk (i : Nat) : Prop :=
  placement env c i ≠ [] ∧ ∀ j < (placement env c i).length,
    nodeOk config (registryOf env c i) (env.fault i j) (chunkName (chunkNumber c i))
      ((placement env c i).getD j 0) = true

/-- The replica write that decides what chunk `i`'s file at `ep` holds. -/
def decidingTask (i : Nat) (ep : Endpoint) : Option Nat :=
  lastTask config (registryOf env c i) (env.fault i) (chunkName (chunkNumber c i)) (placement env c i)
    (env.schedule i (placement env c i).length) ep

/-- Before round `i` of the chunk loop. -/
def clusterAt : Nat → Cluster
  | 0 => c
  | i + 1 => (putFileChunk config env fileData i (clusterAt i)).2

end

/-! ## Lemmas -/

/-- Different rounds of one upload draw different chunk ids. -/
theorem chunkNumber_inj {c : Cluster} {i k : Nat} (hi : i < 2 ^ 32) (hk : k < 2 ^ 32)
    (h : chunkNumber c i = chunkNumber c k) : i = k := by
  have h64 : c.chunkIdCounter + UInt64.ofNat i = c.chunkIdCounter + UInt64.ofNat k :=
    UInt64.toNat_inj.mp h
  have hsize : UInt64.size = 2 ^ 64 := rfl
  have hofNat := congrArg UInt64.toNat (UInt64.add_right_inj c.chunkIdCounter |>.mp h64)
  rw [UInt64.toNat_ofNat_of_lt' (by omega), UInt64.toNat_ofNat_of_lt' (by omega)] at hofNat
  exact hofNat

/-- With nodes to place on, the round-robin counter goes up by one. -/
theorem selectNodesForReplication_snd {nodeIds : List Int32} {next : UInt32}
    (h : (selectNodesForReplication 3 nodeIds next).1 ≠ []) :
    (selectNodesForReplication 3 nodeIds next).2 = next + 1 := by
  unfold selectNodesForReplication at h ⊢
  rw [if_neg (by decide)] at h ⊢
  split
  · next he => simp [he] at h
  · rfl

section
variable {config : Endpoint → DataNodeConfig} {env : PutEnv} {fileData : Bytes} {c : Cluster}

/-- What the loop body does in state `d`, when the plan is made for state `c`. -/
structure OnPlan (env : PutEnv) (c : Cluster) (i : Nat) (d : Cluster) : Prop where
  store : d.store = c.store
  registry : env.change i d.registeredNodes = registryOf env c i
  index : d.nextNodeIndex = c.nextNodeIndex + UInt32.ofNat i
  counter : d.chunkIdCounter = c.chunkIdCounter + UInt64.ofNat i

theorem onPlan_start : OnPlan env c 0 c :=
  ⟨rfl, rfl, by simp, by simp⟩

/-- **The loop body on plan.** -/
theorem putFileChunk_eq {i : Nat} {d : Cluster} (hd : OnPlan env c i d) :
    putFileChunk config env fileData i d =
      let drawn : Cluster := { d with
        registeredNodes := registryOf env c i
        chunkIdCounter := d.chunkIdCounter + 1
        nextNodeIndex := (selectNodesForReplication 3 (env.order i (registryOf env c i))
          (c.nextNodeIndex + UInt32.ofNat i)).2 }
      let sent := distributeChunkToNodes config (registryOf env c i)
        (env.schedule i (placement env c i).length) (env.fault i) (chunkName (chunkNumber c i))
        (chunkData fileData i) (placement env c i) d.disks
      if placement env c i = [] then (.error noNodesAvailable, drawn)
      else if sent.1.isOk then (.ok (plannedChunk env c i), { drawn with disks := sent.2 })
      else (.error sent.1, { drawn with disks := sent.2 }) := by
  unfold putFileChunk putFileChunkWith
  simp only [hd.registry, hd.index, hd.counter]
  by_cases he : placement env c i = []
  · rw [if_pos he]
    exact if_pos (List.isEmpty_iff.mpr he)
  · rw [if_neg he]
    refine (if_neg (fun h => he (List.isEmpty_iff.mp h))).trans ?_
    simp only [Bool.not_eq_true']
    split
    · next h => exact (if_neg (Bool.eq_false_iff.mp h)).symm
    · next h => exact (if_pos (Bool.not_eq_false _ ▸ h)).symm

theorem putFileChunk_store (i : Nat) (d : Cluster) :
    (putFileChunk config env fileData i d).2.store = d.store := by
  unfold putFileChunk putFileChunkWith
  simp only
  split
  · rfl
  · split <;> rfl

/-- The disks after the body: the fan-out of the planned chunk. -/
theorem putFileChunk_disks {i : Nat} {d : Cluster} (hd : OnPlan env c i d) :
    (putFileChunk config env fileData i d).2.disks =
      (distributeChunkToNodes config (registryOf env c i) (env.schedule i (placement env c i).length)
        (env.fault i) (chunkName (chunkNumber c i)) (chunkData fileData i) (placement env c i)
        d.disks).2 := by
  rw [putFileChunk_eq hd]
  simp only
  split
  · next he =>
    unfold distributeChunkToNodes
    rw [if_pos (List.isEmpty_iff.mpr he)]
  · split <;> rfl

variable (fileData) in
theorem putFileChunk_ok {i : Nat} {d : Cluster} (hd : OnPlan env c i d)
    (hok : ChunkOk config env c i) :
    (putFileChunk config env fileData i d).1 = .ok (plannedChunk env c i) := by
  rw [putFileChunk_eq hd]
  simp only
  rw [if_neg hok.1, if_pos]
  exact (distributeChunkToNodes_isOk _ _ _ _ _ _ _ (env.schedule_perm i _)).mpr hok

variable (fileData) in
theorem putFileChunk_error {i : Nat} {d : Cluster} (hd : OnPlan env c i d)
    (hok : ¬ ChunkOk config env c i) :
    ∃ status, status.isOk = false ∧ (putFileChunk config env fileData i d).1 = .error status := by
  rw [putFileChunk_eq hd]
  simp only
  split
  · exact ⟨_, rfl, rfl⟩
  · have hfail : ¬ _ := fun h => hok ((distributeChunkToNodes_isOk config (registryOf env c i)
      (env.fault i) (chunkName (chunkNumber c i)) (chunkData fileData i) (placement env c i) d.disks
      (env.schedule_perm i _)).mp h)
    rw [if_neg hfail]
    exact ⟨_, Bool.eq_false_iff.mpr hfail, rfl⟩

/-- A chunk stored leaves the state on plan for the next one. -/
theorem onPlan_succ {i : Nat} {d : Cluster} (hd : OnPlan env c i d) (hok : ChunkOk config env c i) :
    OnPlan env c (i + 1) (putFileChunk config env fileData i d).2 := by
  have hsel := selectNodesForReplication_snd hok.1
  have h32 : c.nextNodeIndex + UInt32.ofNat (i + 1) = c.nextNodeIndex + UInt32.ofNat i + 1 := by
    rw [UInt32.ofNat_add, UInt32.add_assoc]
    rfl
  have h64 : c.chunkIdCounter + UInt64.ofNat (i + 1) = c.chunkIdCounter + UInt64.ofNat i + 1 := by
    rw [UInt64.ofNat_add, UInt64.add_assoc]
    rfl
  have hsent := (distributeChunkToNodes_isOk config (registryOf env c i) (env.fault i)
    (chunkName (chunkNumber c i)) (chunkData fileData i) (placement env c i) d.disks
    (env.schedule_perm i _)).mpr hok
  rw [putFileChunk_eq hd]
  simp only
  rw [if_neg hok.1, if_pos hsent]
  refine ⟨hd.store, rfl, ?_, ?_⟩
  · rw [h32, ← hsel]
  · rw [h64, ← hd.counter]

variable (fileData) in
theorem onPlan_clusterAt {i : Nat} (hok : ∀ k < i, ChunkOk config env c k) :
    OnPlan env c i (clusterAt config env fileData c i) := by
  induction i with
  | zero => exact onPlan_start
  | succ i ih => exact onPlan_succ (ih fun k hk => hok k (by omega)) (hok i (by omega))

theorem clusterAt_store (i : Nat) : (clusterAt config env fileData c i).store = c.store := by
  induction i with
  | zero => rfl
  | succ i ih => exact (putFileChunk_store i _).trans ih

/-! ### What the datanodes hold before round `i` -/

variable (config env fileData c) in
/-- A chunk the upload did not come to is as it was. -/
theorem clusterAt_other {i : Nat} (hok : ∀ k, k + 1 < i → ChunkOk config env c k) {m : Nat}
    (hm : ∀ k < i, m ≠ chunkNumber c k) (ep : Endpoint) :
    stored (config ep) ((clusterAt config env fileData c i).disks ep) (chunkName m) =
      stored (config ep) (c.disks ep) (chunkName m) := by
  induction i with
  | zero => rfl
  | succ i ih =>
    have hplan := onPlan_clusterAt fileData fun k (hk : k < i) => hok k (by omega)
    rw [clusterAt, putFileChunk_disks hplan,
      distributeChunkToNodes_other config (registryOf env c i) (env.fault i) _ (placement env c i) _
        (hm i (by omega)) _ ep]
    exact ih (fun k hk => hok k (by omega)) fun k hk => hm k (by omega)

variable (config env fileData c) in
/-- **What the file of chunk `k` at `ep` holds** after the rounds before `i`: what its
deciding replica write left, or what was there. -/
theorem clusterAt_stored {i : Nat} (hi : i < 2 ^ 32) (hok : ∀ k, k + 1 < i → ChunkOk config env c k)
    {k : Nat} (hk : k < i) (ep : Endpoint) :
    stored (config ep) ((clusterAt config env fileData c i).disks ep) (chunkName (chunkNumber c k)) =
      match decidingTask config env c k ep with
      | none => stored (config ep) (c.disks ep) (chunkName (chunkNumber c k))
      | some j => some ((env.fault k j).disk.kept (chunkData fileData k)) := by
  induction i with
  | zero => omega
  | succ i ih =>
    have hplan := onPlan_clusterAt fileData fun k (hk : k < i) => hok k (by omega)
    rw [clusterAt, putFileChunk_disks hplan]
    rcases Nat.lt_succ_iff_lt_or_eq.mp hk with hk | rfl
    · have hne : chunkNumber c k ≠ chunkNumber c i := fun h =>
        absurd (chunkNumber_inj (by omega) (by omega) h) (by omega)
      rw [distributeChunkToNodes_other config (registryOf env c i) (env.fault i) _ (placement env c i) _
        hne _ ep]
      exact ih (by omega) (fun k hk => hok k (by omega)) hk
    · rw [distributeChunkToNodes_stored _ _ _ _ _ _ _ _ (fun he => ?_)]
      · rw [clusterAt_other config env fileData c (fun k' hk' => hok k' (by omega)) (fun k' hk' h =>
          absurd (chunkNumber_inj (by omega) (by omega) h) (by omega))]
        rfl
      · have hperm := env.schedule_perm k (placement env c k).length
        rw [he] at hperm ⊢
        exact hperm.eq_nil

/-! ### The loop -/

variable (config env fileData c) in
theorem putFileLoop_ok (n : Nat) {i : Nat} (fileMeta : FileMeta)
    (hok : ∀ k < i + n, ChunkOk config env c k) :
    putFileLoop config env fileData n i fileMeta (clusterAt config env fileData c i) =
      (.ok { fileMeta with chunks := fileMeta.chunks ++ (List.range' i n).map (plannedChunk env c) },
        clusterAt config env fileData c (i + n)) := by
  induction n generalizing i fileMeta with
  | zero => simp [putFileLoop_zero]
  | succ n ih =>
    have hplan := onPlan_clusterAt fileData fun k (hk : k < i) => hok k (by omega)
    have hres := putFileChunk_ok fileData hplan (hok i (by omega))
    rw [putFileLoop_succ]
    split
    · next status d h => rw [h] at hres; cases hres
    · next chunk d h =>
      rw [h] at hres
      injection hres with hchunk
      have hd : d = clusterAt config env fileData c (i + 1) := by rw [clusterAt, h]
      rw [hd, ih _ fun k hk => hok k (by omega), hchunk, List.range'_succ, List.map_cons,
        Nat.add_assoc, Nat.add_comm 1 n, List.append_assoc]
      rfl

variable (config env fileData c) in
/-- The loop ends at the first chunk that is not stored everywhere. -/
theorem putFileLoop_error (n : Nat) {i k : Nat} (fileMeta : FileMeta) (hi : i ≤ k) (hk : k < i + n)
    (hok : ∀ k' < k, ChunkOk config env c k') (hfail : ¬ ChunkOk config env c k) :
    ∃ status, status.isOk = false ∧
      putFileLoop config env fileData n i fileMeta (clusterAt config env fileData c i) =
        (.error status, clusterAt config env fileData c (k + 1)) := by
  induction n generalizing i fileMeta with
  | zero => omega
  | succ n ih =>
    have hplan := onPlan_clusterAt fileData fun k' (hk' : k' < i) => hok k' (by omega)
    rw [putFileLoop_succ]
    by_cases hik : i = k
    · subst hik
      obtain ⟨status, hnot, hres⟩ := putFileChunk_error fileData hplan hfail
      refine ⟨status, hnot, ?_⟩
      split
      · next status' d h =>
        rw [h] at hres
        cases hres
        rw [clusterAt, h]
      · next chunk d h => rw [h] at hres; cases hres
    · have hres := putFileChunk_ok fileData hplan (hok i (by omega))
      split
      · next status d h => rw [h] at hres; cases hres
      · next chunk d h =>
        have hd : d = clusterAt config env fileData c (i + 1) := by rw [clusterAt, h]
        rw [hd]
        exact ih _ (by omega) (by omega)

variable (config env c) in
/-- An upload either stores all its chunks or has a first one it does not. -/
theorem allOk_or_firstFailing (n : Nat) :
    (∀ k < n, ChunkOk config env c k) ∨
      ∃ k < n, (∀ k' < k, ChunkOk config env c k') ∧ ¬ ChunkOk config env c k := by
  induction n with
  | zero => exact Or.inl fun k hk => absurd hk (by omega)
  | succ n ih =>
    rcases ih with hok | ⟨k, hk, hfail⟩
    · by_cases hn : ChunkOk config env c n
      · left
        intro k hk
        rcases Nat.lt_succ_iff_lt_or_eq.mp hk with hk | rfl
        · exact hok k hk
        · exact hn
      · exact Or.inr ⟨n, by omega, hok, hn⟩
    · exact Or.inr ⟨k, by omega, hfail⟩

end

/-! ## The three outcomes -/

section
variable {config : Endpoint → DataNodeConfig} {env : PutEnv} {reader : ServerReader PutFileRequest}
  {c : Cluster}

/-- The state behind the existence check. -/
def checked (c : Cluster) (messages : List PutFileRequest) : Cluster :=
  { c with store := (c.store.getFile (uploadName messages)).2 }

/-- The check changes nothing the plan depends on. -/
theorem plannedChunk_checked (messages : List PutFileRequest) :
    plannedChunk env (checked c messages) = plannedChunk env c := by
  funext i
  rfl

/-- What a successful `PutFile` records. -/
def uploadMeta (env : PutEnv) (c : Cluster) (messages : List PutFileRequest) : FileMeta :=
  { emptyMeta (uploadData messages).length with
    chunks := (List.range (chunkCount (uploadData messages))).map (plannedChunk env c) }

theorem putFileWith_accepted {send : SendChunk} (h : Accepted c.store reader.messages) :
    putFileWith send env reader c =
      finishPut (uploadName reader.messages)
        (putFileLoopWith send env (uploadData reader.messages) (chunkCount (uploadData reader.messages))
          0 (emptyMeta (uploadData reader.messages).length) (checked c reader.messages)) := by
  obtain ⟨hname, hfree⟩ := h
  unfold putFileWith
  cases hm : reader.messages with
  | nil => rw [hm] at hname; exact absurd rfl hname
  | cons req reqs =>
    rw [hm] at hname hfree
    have hne : ¬ req.filename.isEmpty = true := by
      rw [String.isEmpty_iff]
      exact hname
    have hnone : ¬ (c.store.findFile req.filename).isSome = true := by
      rw [show c.store.findFile req.filename = none from hfree]
      simp
    rw [readUpload_first, if_neg hnone]
    exact if_neg hne

theorem putFile_accepted (h : Accepted c.store reader.messages) :
    putFile config env reader c =
      finishPut (uploadName reader.messages)
        (putFileLoop config env (uploadData reader.messages) (chunkCount (uploadData reader.messages))
          0 (emptyMeta (uploadData reader.messages).length) (checked c reader.messages)) :=
  putFileWith_accepted h

/-- **Refused.**  Without a name, or with that of an active file, nothing happens. -/
theorem putFile_refused (h : ¬ Accepted c.store reader.messages) :
    (putFile config env reader c).1.isOk = false ∧
    (putFile config env reader c).2.2.store.entries = c.store.entries ∧
    (putFile config env reader c).2.2.store.deletedEntries = c.store.deletedEntries ∧
    (putFile config env reader c).2.2.disks = c.disks := by
  rw [putFile_def]
  cases hm : reader.messages with
  | nil => exact ⟨rfl, rfl, rfl, rfl⟩
  | cons req reqs =>
    rw [readUpload_first]
    by_cases hf : (c.store.findFile req.filename).isSome = true
    · rw [if_pos hf]
      exact ⟨rfl, rfl, rfl, rfl⟩
    · have hempty : req.filename.isEmpty = true := by
        rw [String.isEmpty_iff]
        by_contra hne
        rw [hm] at h
        exact h ⟨hne, Option.not_isSome_iff_eq_none.mp hf⟩
      rw [if_neg hf]
      simp only [hempty, if_true]
      exact ⟨rfl, rfl, rfl, trivial⟩

/-- **Committed.**  All chunks stored: the metadata is recorded under the name. -/
theorem putFile_committed (h : Accepted c.store reader.messages)
    (hok : ∀ k < chunkCount (uploadData reader.messages), ChunkOk config env c k) :
    putFile config env reader c =
      (Status.OK, { success := true },
        { clusterAt config env (uploadData reader.messages) (checked c reader.messages)
            (chunkCount (uploadData reader.messages)) with
          store := (checked c reader.messages).store.putFile (uploadName reader.messages)
            (uploadMeta env c reader.messages) }) := by
  have hloop := putFileLoop_ok config env (uploadData reader.messages) (checked c reader.messages)
    (i := 0) (chunkCount (uploadData reader.messages))
    (emptyMeta (uploadData reader.messages).length) (fun k hk => hok k (by omega))
  rw [putFile_accepted h]
  rw [clusterAt, Nat.zero_add] at hloop
  rw [hloop, finishPut, clusterAt_store, plannedChunk_checked, ← List.range_eq_range']
  unfold uploadMeta
  rw [show (emptyMeta (uploadData reader.messages).length).chunks = [] from rfl, List.nil_append]

/-- **Failed.**  The handler returns at the first chunk not stored everywhere. -/
theorem putFile_failed (h : Accepted c.store reader.messages) {k : Nat}
    (hk : k < chunkCount (uploadData reader.messages)) (hok : ∀ k' < k, ChunkOk config env c k')
    (hfail : ¬ ChunkOk config env c k) :
    ∃ status, status.isOk = false ∧
      putFile config env reader c =
        (status, {}, clusterAt config env (uploadData reader.messages) (checked c reader.messages)
          (k + 1)) := by
  obtain ⟨status, hnot, hloop⟩ := putFileLoop_error config env (uploadData reader.messages)
    (checked c reader.messages) (i := 0)
    (chunkCount (uploadData reader.messages)) (emptyMeta (uploadData reader.messages).length)
    (Nat.zero_le k) (by omega) hok hfail
  refine ⟨status, hnot, ?_⟩
  rw [putFile_accepted h]
  rw [clusterAt] at hloop
  rw [hloop, finishPut]

/-! ## What is answered -/

theorem putFileChunk_code {fileData : Bytes} {i : Nat} {status : Status} {d d' : Cluster}
    (hres : putFileChunk config env fileData i d = (.error status, d')) : status.code = .internal := by
  unfold putFileChunk putFileChunkWith at hres
  simp only at hres
  split at hres
  · cases hres
    rfl
  · next hnodes =>
    split at hres
    · next hfail =>
      cases hres
      simp only [PutEnv.inTurn, distributeChunkToNodes, if_neg hnodes, combineStatuses] at hfail ⊢
      split
      · next hall =>
        rw [if_pos hall] at hfail
        cases hfail
      · rfl
    · cases hres

theorem putFileLoop_code {fileData : Bytes} {n i : Nat} {fileMeta : FileMeta} {status : Status}
    {d d' : Cluster} (h : putFileLoop config env fileData n i fileMeta d = (.error status, d')) :
    status.code = .internal := by
  induction n generalizing i fileMeta d with
  | zero => cases h
  | succ n ih =>
    rw [putFileLoop_succ] at h
    cases hres : putFileChunk config env fileData i d with
    | mk res e =>
      rw [hres] at h
      cases res with
      | error status =>
        cases h
        exact putFileChunk_code hres
      | ok chunk => exact ih h

/-- **An upload that got past the checks** is committed, or fails with INTERNAL. -/
theorem putFile_accepted_answer (h : Accepted c.store reader.messages) :
    ((putFile config env reader c).1 = Status.OK ∧ (putFile config env reader c).2.1.success = true) ∨
      (putFile config env reader c).1.code = .internal := by
  rw [putFile_accepted h]
  cases hres : putFileLoop config env (uploadData reader.messages)
      (chunkCount (uploadData reader.messages)) 0 (emptyMeta (uploadData reader.messages).length)
      (checked c reader.messages) with
  | mk res d =>
    cases res with
    | error status => exact .inr (putFileLoop_code hres)
    | ok fileMeta => exact .inl ⟨rfl, rfl⟩

/-- The name is taken. -/
theorem putFile_exists (hne : reader.messages ≠ [])
    (hold : (c.store.findFile (uploadName reader.messages)).isSome = true) :
    (putFile config env reader c).1 = { code := .alreadyExists, errorMessage := "File exists" } := by
  rw [putFile_def]
  cases hm : reader.messages with
  | nil => exact absurd hm hne
  | cons req reqs =>
    rw [hm] at hold
    have hold' : (c.store.findFile req.filename).isSome = true := hold
    rw [readUpload_first, if_pos hold']

/-- There is no name. -/
theorem putFile_nameless (hname : uploadName reader.messages = "")
    (hnew : c.store.findFile "" = none) :
    (putFile config env reader c).1 =
      { code := .invalidArgument, errorMessage := "Filename not provided" } := by
  rw [putFile_def]
  cases hm : reader.messages with
  | nil => rfl
  | cons req reqs =>
    rw [hm] at hname
    have hfirst : req.filename = "" := hname
    have hfree : ¬ (c.store.findFile req.filename).isSome = true := by
      rw [hfirst, hnew]
      decide
    rw [readUpload_first, if_neg hfree, hfirst]
    rfl

/-! ## What it leaves -/

theorem putFileChunk_nodes (henv : ∀ i r, env.change i r = r) (fileData : Bytes) (i : Nat) (c : Cluster) :
    (putFileChunk config env fileData i c).2.registeredNodes = c.registeredNodes ∧
      (putFileChunk config env fileData i c).2.nextNodeId = c.nextNodeId := by
  unfold putFileChunk putFileChunkWith
  simp only [henv]
  split
  · exact ⟨rfl, rfl⟩
  · split <;> exact ⟨rfl, rfl⟩

theorem putFileLoop_nodes (henv : ∀ i r, env.change i r = r) (fileData : Bytes) (n i : Nat)
    (fileMeta : FileMeta) (c : Cluster) :
    (putFileLoop config env fileData n i fileMeta c).2.registeredNodes = c.registeredNodes ∧
      (putFileLoop config env fileData n i fileMeta c).2.nextNodeId = c.nextNodeId := by
  induction n generalizing i fileMeta c with
  | zero => exact ⟨rfl, rfl⟩
  | succ n ih =>
    have hchunk := @putFileChunk_nodes config env henv fileData i c
    rw [putFileLoop_succ]
    cases hres : putFileChunk config env fileData i c with
    | mk res d =>
      rw [hres] at hchunk
      cases res with
      | error status => exact hchunk
      | ok chunk =>
        obtain ⟨hregistry, hnext⟩ := ih (i + 1) { fileMeta with chunks := fileMeta.chunks ++ [chunk] } d
        exact ⟨hregistry.trans hchunk.1, hnext.trans hchunk.2⟩

/-- An upload leaves the registry to the other handlers. -/
theorem putFile_nodes (henv : ∀ i r, env.change i r = r) (reader : ServerReader PutFileRequest)
    (c : Cluster) :
    (putFile config env reader c).2.2.registeredNodes = c.registeredNodes ∧
      (putFile config env reader c).2.2.nextNodeId = c.nextNodeId := by
  rw [putFile_def]
  cases hread : readUpload reader.messages true "" [] c.store with
  | mk res store =>
    cases res with
    | error status => exact ⟨rfl, rfl⟩
    | ok upload =>
      obtain ⟨filename, fileData⟩ := upload
      simp only
      split
      · exact ⟨rfl, rfl⟩
      · have hloop := @putFileLoop_nodes config env henv fileData (chunkCount fileData) 0
          (emptyMeta fileData.length) { c with store := store }
        generalize putFileLoop config env fileData (chunkCount fileData) 0 (emptyMeta fileData.length)
          { c with store := store } = r at hloop ⊢
        obtain ⟨res, d⟩ := r
        cases res <;> exact hloop

/-- Files are those of before, but for the one uploaded. -/
theorem of_findFile_putFileCall {reader : ServerReader PutFileRequest} {path : String} {fileMeta : FileMeta}
    (h : (putFile config env reader c).2.2.store.findFile path = some fileMeta) :
    c.store.findFile path = some fileMeta ∨ (fileMeta = uploadMeta env c reader.messages ∧
      ∀ k < chunkCount (uploadData reader.messages), ChunkOk config env c k) := by
  by_cases hacc : Accepted c.store reader.messages
  · rcases allOk_or_firstFailing config env c (chunkCount (uploadData reader.messages)) with
      hok | ⟨k, hk, hbefore, hfail⟩
    · rw [putFile_committed hacc hok] at h
      rcases MetadataStore.of_findFile_putFile h with ⟨-, rfl⟩ | ⟨-, hold⟩
      · exact .inr ⟨rfl, hok⟩
      · exact .inl hold
    · obtain ⟨status, -, hrun⟩ := putFile_failed hacc hk hbefore hfail
      rw [hrun, clusterAt_store] at h
      exact .inl h
  · obtain ⟨-, hentries, -, -⟩ := @putFile_refused config env reader c hacc
    rw [MetadataStore.findFile, hentries] at h
    exact .inl h

end

end ToyDfs
