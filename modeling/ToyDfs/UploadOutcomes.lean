import ToyDfs.Upload

/-!
What the outcome of a `PutFile` promises, and exactly when the promise is kept.

* `accepted_of_isOk`, `putFile_stored`: what an OK answer says, and what the datanodes
  hold then.
* `cancelled_unchanged_iff`: a cancelled `PutFile` leaves the entries alone iff
  something else stops it.
* `allOrNothing_iff_failsCleanly`: a failed `PutFile` leaves no trace iff the
  replica writes it made created no file.
-/

namespace ToyDfs

section
variable {config : Endpoint → DataNodeConfig} {env : PutEnv} {reader : ServerReader PutFileRequest}
  {c : Cluster}

/-! ## An OK answer -/

/-- An OK answer says that the upload got through. -/
theorem accepted_of_isOk (h : (putFile config env reader c).1.isOk = true) :
    Accepted c.store reader.messages ∧
      ∀ i < chunkCount (uploadData reader.messages), ChunkOk config env c i := by
  by_cases hacc : Accepted c.store reader.messages
  · refine ⟨hacc, ?_⟩
    rcases allOk_or_firstFailing config env c
      (chunkCount (uploadData reader.messages)) with hok | ⟨k, hk, hok, hfail⟩
    · exact hok
    · obtain ⟨status, hnot, hput⟩ := putFile_failed hacc hk hok hfail
      rw [hput, hnot] at h
      cases h
  · rw [(putFile_refused hacc).1] at h
    cases h

/-- The deciding task of an accepted chunk is one of its replica writes, on a node
at that endpoint. -/
theorem decidingTask_spec {i : Nat} {ep : Endpoint} {j : Nat}
    (h : decidingTask config env c i ep = some j) :
    j < (placement env c i).length ∧
      ∃ info, (registryOf env c i).lookup ((placement env c i).getD j 0) = some info ∧
        info.endpoint = ep := by
  obtain ⟨hj, hc⟩ := lastTask_spec (env.schedule_perm i _) h
  exact ⟨hj, nodeCreates_lookup hc⟩

/-- Every node an accepted chunk is placed on has a deciding task. -/
theorem exists_decidingTask {i : Nat} (hok : ChunkOk config env c i) {nodeId : Int32}
    (hn : nodeId ∈ placement env c i) :
    ∃ info j, (registryOf env c i).lookup nodeId = some info ∧
      decidingTask config env c i info.endpoint = some j := by
  obtain ⟨j, hj, rfl⟩ := List.getElem_of_mem hn
  have hgetD : (placement env c i).getD j 0 = (placement env c i)[j] := by
    rw [List.getD_eq_getElem?_getD, List.getElem?_eq_getElem hj, Option.getD_some]
  obtain ⟨info, hl, hc⟩ := nodeOk_lookup (hok.2 j hj)
  have hsome := (lastTask_isSome (env.schedule_perm i _)).mpr ⟨j, hj, hc⟩
  obtain ⟨k, hk⟩ := Option.isSome_iff_exists.mp hsome
  exact ⟨info, k, hgetD ▸ hl, hk⟩

/-- What the datanodes hold of chunk `i` after a `PutFile` that got through. -/
theorem putFile_stored (hacc : Accepted c.store reader.messages)
    (hok : ∀ i < chunkCount (uploadData reader.messages), ChunkOk config env c i) {i : Nat}
    (hi : i < chunkCount (uploadData reader.messages)) {ep : Endpoint} {j : Nat}
    (hj : decidingTask config env c i ep = some j) :
    stored (config ep) ((putFile config env reader c).2.2.disks ep) (chunkName (chunkNumber c i)) =
      some ((env.fault i j).disk.kept (chunkData (uploadData reader.messages) i)) := by
  have hlt := chunkCount_lt (uploadData reader.messages)
  have hstored := clusterAt_stored config env (uploadData reader.messages) (checked c reader.messages)
    (i := chunkCount (uploadData reader.messages)) (by omega)
    (fun k hk => hok k (by omega)) hi ep
  rw [show decidingTask config env (checked c reader.messages) i ep = some j from hj] at hstored
  rw [putFile_committed hacc hok]
  exact hstored

/-! ### Two nodes -/

/-- Every choice in the plainest order. -/
def PutEnv.inOrder (fault : Nat → Nat → PutFault) : PutEnv where
  order _ r := r.keys
  order_perm _ _ := .refl _
  schedule _ k := List.range k
  schedule_perm _ _ := .refl _
  fault := fault

/-- Node 1 at `a`, node 2 at `b`, nothing stored. -/
def twoNodes : Cluster :=
  { Cluster.start (fun _ _ => none) with
    registeredNodes := ((∅ : Registry).insert 1 ⟨1, "a", 1⟩).insert 2 ⟨2, "b", 1⟩
    nextNodeId := 3 }

/-! ## Cancelled uploads -/

/-- Entries stay what they were, or the upload was committed. -/
theorem putFile_entries_iff :
    (putFile config env reader c).2.2.store.entries = c.store.entries ↔
      ¬ (Accepted c.store reader.messages ∧
        ∀ i < chunkCount (uploadData reader.messages), ChunkOk config env c i) := by
  constructor
  · rintro he ⟨hacc, hok⟩
    have hfind : (putFile config env reader c).2.2.store.findFile (uploadName reader.messages) = none := by
      unfold MetadataStore.findFile
      rw [he]
      exact hacc.2
    rw [putFile_committed hacc hok, MetadataStore.findFile_putFile] at hfind
    cases hfind
  · intro h
    by_cases hacc : Accepted c.store reader.messages
    · rcases allOk_or_firstFailing config env c
        (chunkCount (uploadData reader.messages)) with hok | ⟨k, hk, hok, hfail⟩
      · exact absurd ⟨hacc, hok⟩ h
      · obtain ⟨status, -, hput⟩ := putFile_failed hacc hk hok hfail
        rw [hput]
        show (clusterAt config env _ (checked c reader.messages) (k + 1)).store.entries = _
        rw [clusterAt_store]
        rfl
    · exact (putFile_refused hacc).2.1

/-- What the handler sees of a call that was cancelled after `k` of its messages. -/
def cutOff (intended : List PutFileRequest) (k : Nat) : ServerReader PutFileRequest :=
  { messages := intended.take k, ended := .cancelled }

/-- The upload passes the checks, and all its chunks are stored. -/
def GetsThrough (config : Endpoint → DataNodeConfig) (env : PutEnv) (c : Cluster)
    (messages : List PutFileRequest) : Prop :=
  Accepted c.store messages ∧
    ∀ i, i * (1024 * 1024) < (uploadData messages).length → ChunkOk config env c i

theorem getsThrough_iff {messages : List PutFileRequest} (hsize : (uploadData messages).length ≤ 2 ^ 31) :
    GetsThrough config env c messages ↔
      Accepted c.store messages ∧ ∀ i < chunkCount (uploadData messages), ChunkOk config env c i := by
  refine and_congr_right fun _ => forall_congr' fun i => ?_
  rw [lt_chunkCount_iff hsize]

/-- **A cancelled upload is committed, unless something else stops it.**  The call is
cut off before message `k` of the `intended` ones. -/
theorem cancelled_unchanged_iff (config : Endpoint → DataNodeConfig) (env : PutEnv) (c : Cluster)
    (intended : List PutFileRequest) (k : Fin intended.length)
    (hsize : (uploadData (intended.take k)).length ≤ 2 ^ 31) :
    (putFile config env (cutOff intended k) c).2.2.store.entries = c.store.entries ↔
      ¬ GetsThrough config env c (intended.take k) := by
  rw [getsThrough_iff hsize]
  exact putFile_entries_iff

/-- With no datanode registered, the upload cut off after its first byte is not committed. -/
theorem cancelled_unchanged_no_nodes :
    (putFile (fun _ => {}) (.inOrder fun _ _ => {}) (cutOff [⟨"f", [7]⟩, ⟨"f", [8]⟩] 1)
      (.start fun _ _ => none)).2.2.store.entries = (Cluster.start fun _ _ => none).store.entries := by
  refine (cancelled_unchanged_iff _ (.inOrder fun _ _ => {}) _ [⟨"f", [7]⟩, ⟨"f", [8]⟩] 1 (by decide)).mpr ?_
  rintro ⟨-, hok⟩
  exact (hok 0 (by decide)).1 (by decide)

/-- With two, the first half of the file is committed under its name. -/
theorem cancelled_committed : ¬ ∀ (config : Endpoint → DataNodeConfig) (env : PutEnv) (c : Cluster)
    (intended : List PutFileRequest), ∀ k < intended.length,
      (putFile config env (cutOff intended k) c).2.2.store.entries = c.store.entries := by
  intro hall
  have hkept := hall (fun _ => {}) (.inOrder fun _ _ => {}) twoNodes [⟨"f", [7]⟩, ⟨"f", [8]⟩] 1 (by decide)
  have hfile : (putFile (fun _ => {}) (.inOrder fun _ _ => {}) (cutOff [⟨"f", [7]⟩, ⟨"f", [8]⟩] 1)
      twoNodes).2.2.store.findFile "f" =
      some ⟨1, 1048576, [{ chunkId := "chunk_0", nodeIds := [2, 1, 2] }]⟩ := by decide
  rw [MetadataStore.findFile, hkept] at hfile
  cases hfile

/-! ## Failure leaves no trace -/

/-- If `PutFile` fails, then the metadata and, on the datanodes in `reachable`, the set
of stored chunks are what they were. -/
def AllOrNothing (reachable : Endpoint → Prop) (config : Endpoint → DataNodeConfig) (env : PutEnv)
    (reader : ServerReader PutFileRequest) (c : Cluster) : Prop :=
  (putFile config env reader c).1.isOk = false →
    (putFile config env reader c).2.2.store.entries = c.store.entries ∧
    (putFile config env reader c).2.2.store.deletedEntries = c.store.deletedEntries ∧
    ∀ ep, reachable ep → ∀ m,
      (stored (config ep) ((putFile config env reader c).2.2.disks ep) (chunkName m)).isSome =
        (stored (config ep) (c.disks ep) (chunkName m)).isSome

/-- When a first chunk is not stored everywhere, no replica write up to it creates a
file on a datanode in `reachable` that was not there. -/
def FailsCleanly (reachable : Endpoint → Prop) (config : Endpoint → DataNodeConfig) (env : PutEnv)
    (reader : ServerReader PutFileRequest) (c : Cluster) : Prop :=
  Accepted c.store reader.messages →
  ∀ k, k * (1024 * 1024) < (uploadData reader.messages).length → (∀ i < k, ChunkOk config env c i) →
    ¬ ChunkOk config env c k →
      ∀ i ≤ k, ∀ ep, reachable ep → ∀ j < (placement env c i).length,
        nodeCreates config (registryOf env c i) (env.fault i j) (chunkName (chunkNumber c i)) ep
            ((placement env c i).getD j 0) = true →
          (stored (config ep) (c.disks ep) (chunkName (chunkNumber c i))).isSome = true

/-- Which chunks the datanodes hold when the chunk loop stopped at chunk `k`. -/
theorem clusterAt_isSome {fileData : Bytes} {k : Nat} (hk : k < chunkCount fileData)
    (hok : ∀ i < k, ChunkOk config env c i) (ep : Endpoint) {i : Nat} (hi : i ≤ k) :
    (stored (config ep) ((clusterAt config env fileData c (k + 1)).disks ep)
        (chunkName (chunkNumber c i))).isSome = true ↔
      (∃ j < (placement env c i).length,
        nodeCreates config (registryOf env c i) (env.fault i j) (chunkName (chunkNumber c i)) ep
          ((placement env c i).getD j 0) = true) ∨
      (stored (config ep) (c.disks ep) (chunkName (chunkNumber c i))).isSome = true := by
  have hlt := chunkCount_lt fileData
  have hlast : (decidingTask config env c i ep).isSome ↔ ∃ j < (placement env c i).length,
      taskCreates config (registryOf env c i) (env.fault i) (chunkName (chunkNumber c i))
        (placement env c i) ep j = true :=
    lastTask_isSome (env.schedule_perm i (placement env c i).length)
  rw [clusterAt_stored config env fileData c (by omega) (fun k' hk' => hok k' (by omega)) (by omega)]
  cases hj : decidingTask config env c i ep with
  | none =>
    have hno : ¬ ∃ j < (placement env c i).length, _ := fun hex => by
      have := hlast.mpr hex
      rw [hj] at this
      cases this
    exact ⟨Or.inr, fun h => h.resolve_left hno⟩
  | some j =>
    have hex := hlast.mp (by rw [hj]; rfl)
    exact ⟨fun _ => Or.inl hex, fun _ => rfl⟩

/-- **A failed upload leaves no trace iff it had created no file by then.** -/
theorem allOrNothing_iff_failsCleanly (reachable : Endpoint → Prop)
    (config : Endpoint → DataNodeConfig) (env : PutEnv) (reader : ServerReader PutFileRequest)
    (c : Cluster) (hsize : (uploadData reader.messages).length ≤ 2 ^ 31) :
    AllOrNothing reachable config env reader c ↔ FailsCleanly reachable config env reader c := by
  constructor
  · intro h hacc k hk hok hfail i hi ep hep j hj hc
    rw [← lt_chunkCount_iff hsize] at hk
    obtain ⟨status, hnot, hput⟩ := putFile_failed hacc hk hok hfail
    rw [AllOrNothing, hput] at h
    rw [← (h hnot).2.2 ep hep (chunkNumber c i)]
    exact (clusterAt_isSome (c := checked c reader.messages) hk hok ep hi).mpr (Or.inl ⟨j, hj, hc⟩)
  · intro h hnotOk
    by_cases hacc : Accepted c.store reader.messages
    · rcases allOk_or_firstFailing config env c
        (chunkCount (uploadData reader.messages)) with hok | ⟨k, hk, hok, hfail⟩
      · rw [putFile_committed hacc hok] at hnotOk
        cases hnotOk
      · obtain ⟨status, -, hput⟩ := putFile_failed hacc hk hok hfail
        have hlt := chunkCount_lt (uploadData reader.messages)
        rw [hput]
        simp only [clusterAt_store]
        refine ⟨rfl, rfl, fun ep hep m => ?_⟩
        by_cases hm : ∃ i ≤ k, m = chunkNumber c i
        · obtain ⟨i, hi, rfl⟩ := hm
          rw [Bool.eq_iff_iff]
          refine (clusterAt_isSome (c := checked c reader.messages) hk hok ep hi).trans ?_
          refine ⟨fun hor => hor.elim ?_ id, Or.inr⟩
          rintro ⟨j, hj, hc⟩
          exact h hacc k ((lt_chunkCount_iff hsize).mp hk) hok hfail i hi ep hep j hj hc
        · have hother := clusterAt_other config env (uploadData reader.messages)
            (checked c reader.messages) (i := k + 1) (m := m) (fun k' hk' => hok k' (by omega))
            (fun i hi he => hm ⟨i, by omega, he⟩) ep
          rw [hother]
          rfl
    · obtain ⟨-, he, hd, hdisks⟩ := @putFile_refused config env reader c hacc
      rw [hdisks]
      exact ⟨he, hd, fun _ _ _ => rfl⟩

/-- Node 2 cannot open the file, and the request to node 1 is lost. -/
def nothingStored : PutEnv :=
  .inOrder fun _ j => if j = 1 then { rpc := .requestLost .unavailable }
    else { disk := { openFails := true } }

theorem nodeCreates_nothingStored {config : Endpoint → DataNodeConfig} {registry : Registry} {i j : Nat}
    {chunkId : String} {ep : Endpoint} {nodeId : Int32} :
    nodeCreates config registry (nothingStored.fault i j) chunkId ep nodeId = false := by
  unfold nodeCreates
  cases registry.lookup nodeId with
  | none => rfl
  | some info =>
    have hnot : (nothingStored.fault i j).creates (config ep) chunkId = false := by
      simp only [nothingStored, PutEnv.inOrder, PutFault.creates]
      by_cases hj : j = 1
      · simp [hj]
      · cases getChunkPath chunkId (config ep) <;> simp [hj]
    simp only [hnot, Bool.and_false]

theorem allOrNothing_nothingStored :
    (putFile (fun _ => {}) nothingStored { messages := [⟨"f", [7]⟩] } twoNodes).1.isOk = false ∧
      AllOrNothing (fun _ => True) (fun _ => {}) nothingStored { messages := [⟨"f", [7]⟩] } twoNodes := by
  refine ⟨by decide, (allOrNothing_iff_failsCleanly _ _ _ _ _ (by decide)).mpr ?_⟩
  intro _ k _ _ _ i _ ep _ j _ hc
  rw [nodeCreates_nothingStored] at hc
  cases hc

/-- The request to node 1 is lost. -/
def nodeDown : PutEnv :=
  .inOrder fun _ j => if j = 1 then { rpc := .requestLost .unavailable } else {}

/-- `PutFile` fails, and the chunk stays on node 2. -/
theorem not_allOrNothing_nodeDown :
    ¬ AllOrNothing (fun _ => True) (fun _ => {}) nodeDown { messages := [⟨"f", [7]⟩] } twoNodes := by
  intro h
  have hchunk := (h (by decide)).2.2 ⟨"b", 1⟩ trivial 0
  revert hchunk
  decide

end

end ToyDfs
