import ToyDfs.Coordinator

/-!
The replica writes of one chunk.

Whether a replica write is answered OK (`nodeOk`) and whether it creates the
chunk's file (`nodeCreates`) does not depend on what the datanodes hold, so the
status of a fan-out can be told from the registry and the faults alone
(`distributeChunkToNodes_isOk`).  Of several tasks that write the file on one
datanode the last one to take effect decides what is in it
(`distributeChunkToNodes_stored`); every other chunk is left alone
(`distributeChunkToNodes_other`).
-/

namespace ToyDfs

section
variable (config : Endpoint → DataNodeConfig) (registry : Registry)

/-! ## One replica -/

/-- Is the write to this node answered OK? -/
def nodeOk (fault : PutFault) (chunkId : String) (nodeId : Int32) : Bool :=
  match registry.lookup nodeId with
  | none => false
  | some info => fault.answersOk (config info.endpoint) chunkId

/-- Does the write to this node create the chunk's file at `ep`? -/
def nodeCreates (fault : PutFault) (chunkId : String) (ep : Endpoint) (nodeId : Int32) : Bool :=
  match registry.lookup nodeId with
  | none => false
  | some info => decide (info.endpoint = ep) && fault.creates (config ep) chunkId

variable {config registry}

theorem nodeOk_of_lookup {fault : PutFault} {chunkId : String} {nodeId : Int32} {info : DataNodeInfo}
    (hl : registry.lookup nodeId = some info) :
    nodeOk config registry fault chunkId nodeId = fault.answersOk (config info.endpoint) chunkId := by
  simp only [nodeOk, hl]

theorem nodeOk_lookup {fault : PutFault} {chunkId : String} {nodeId : Int32}
    (h : nodeOk config registry fault chunkId nodeId = true) :
    ∃ info, registry.lookup nodeId = some info ∧
      nodeCreates config registry fault chunkId info.endpoint nodeId = true := by
  unfold nodeOk at h
  unfold nodeCreates
  cases hl : registry.lookup nodeId with
  | none => simp [hl] at h
  | some info =>
    rw [hl] at h
    exact ⟨info, rfl, by simp [PutFault.creates_of_answersOk h]⟩

/-- A node that creates the file is registered at that endpoint. -/
theorem nodeCreates_lookup {fault : PutFault} {chunkId : String} {ep : Endpoint} {nodeId : Int32}
    (h : nodeCreates config registry fault chunkId ep nodeId = true) :
    ∃ info, registry.lookup nodeId = some info ∧ info.endpoint = ep := by
  unfold nodeCreates at h
  cases hl : registry.lookup nodeId with
  | none => simp [hl] at h
  | some info =>
    simp only [hl, Bool.and_eq_true, decide_eq_true_eq] at h
    exact ⟨info, rfl, h.1⟩

variable (config registry)

theorem distributeChunkToSingleNode_isOk (fault : PutFault) (chunkId : String) (data : Bytes)
    (nodeId : Int32) (disks : Disks) :
    (distributeChunkToSingleNode config registry fault chunkId data nodeId disks).1.isOk =
      nodeOk config registry fault chunkId nodeId := by
  unfold distributeChunkToSingleNode nodeOk
  cases registry.lookup nodeId with
  | none => rfl
  | some info =>
    simp only
    rw [← stubPutChunk_isOk (config info.endpoint) fault chunkId data (disks info.endpoint)]
    split
    · next h => rw [h]; rfl
    · next h => rfl

theorem distributeChunkToSingleNode_stored (fault : PutFault) (chunkId : String) (data : Bytes)
    (nodeId : Int32) (disks : Disks) (ep : Endpoint) :
    stored (config ep)
        ((distributeChunkToSingleNode config registry fault chunkId data nodeId disks).2 ep) chunkId =
      if nodeCreates config registry fault chunkId ep nodeId = true then some (fault.disk.kept data)
      else stored (config ep) (disks ep) chunkId := by
  unfold distributeChunkToSingleNode nodeCreates
  cases registry.lookup nodeId with
  | none => rfl
  | some info =>
    simp only
    by_cases hep : info.endpoint = ep
    · subst hep
      simp only [Function.update_self, decide_true, Bool.true_and]
      by_cases hc : fault.creates (config info.endpoint) chunkId = true
      · rw [if_pos hc, stubPutChunk_stored _ _ _ _ _ hc]
      · rw [if_neg hc, stubPutChunk_not_created _ _ _ _ _ (by simpa using hc)]
    · simp only [Function.update_of_ne (Ne.symm hep), decide_eq_false hep, Bool.false_and,
        Bool.false_eq_true, if_false]

/-- A complete write that is answered OK is in the file of a registered node. -/
theorem distributeChunkToSingleNode_complete {config : Endpoint → DataNodeConfig} {registry : Registry}
    {fault : PutFault} {chunkId : String} {data : Bytes} {nodeId : Int32} {disks : Disks}
    (hcomplete : fault.Complete)
    (hok : (distributeChunkToSingleNode config registry fault chunkId data nodeId disks).1.isOk = true) :
    (∃ info, registry.lookup nodeId = some info ∧
        nodeCreates config registry fault chunkId info.endpoint nodeId = true) ∧
      ∀ ep, stored (config ep)
          ((distributeChunkToSingleNode config registry fault chunkId data nodeId disks).2 ep) chunkId =
        if nodeCreates config registry fault chunkId ep nodeId = true then some data
        else stored (config ep) (disks ep) chunkId := by
  rw [distributeChunkToSingleNode_isOk] at hok
  refine ⟨nodeOk_lookup hok, fun ep => ?_⟩
  obtain ⟨info, hl, -⟩ := nodeOk_lookup hok
  rw [nodeOk_of_lookup hl] at hok
  rw [distributeChunkToSingleNode_stored, PutFault.kept_eq hcomplete hok]

theorem distributeChunkToSingleNode_other {n m : Nat} (hnm : m ≠ n) (fault : PutFault) (data : Bytes)
    (nodeId : Int32) (disks : Disks) (ep : Endpoint) :
    stored (config ep)
        ((distributeChunkToSingleNode config registry fault (chunkName n) data nodeId disks).2 ep)
        (chunkName m) =
      stored (config ep) (disks ep) (chunkName m) := by
  unfold distributeChunkToSingleNode
  cases registry.lookup nodeId with
  | none => rfl
  | some info =>
    simp only
    by_cases hep : ep = info.endpoint
    · subst hep
      rw [Function.update_self]
      exact stubPutChunk_other hnm fault data _
    · rw [Function.update_of_ne hep]

/-! ## All replicas -/

variable (fault : Nat → PutFault) (chunkId : String) (data : Bytes) (nodeIds : List Int32)

/-- Does task `j` create the chunk's file at `ep`? -/
def taskCreates (ep : Endpoint) (j : Nat) : Bool :=
  nodeCreates config registry (fault j) chunkId ep (nodeIds.getD j 0)

theorem runTasks_notMem (js : List Nat) (statuses : Nat → Status) (disks : Disks) {j : Nat}
    (hj : j ∉ js) :
    (runTasks config registry fault chunkId data nodeIds js statuses disks).1 j = statuses j := by
  induction js generalizing statuses disks with
  | nil => rfl
  | cons k js ih =>
    rw [List.mem_cons, not_or] at hj
    rw [runTasks, ih _ _ hj.2, Function.update_of_ne hj.1]

theorem runTasks_isOk (js : List Nat) (statuses : Nat → Status) (disks : Disks) (j : Nat) :
    ((runTasks config registry fault chunkId data nodeIds js statuses disks).1 j).isOk =
      if j ∈ js then nodeOk config registry (fault j) chunkId (nodeIds.getD j 0)
      else (statuses j).isOk := by
  induction js generalizing statuses disks with
  | nil => rfl
  | cons k js ih =>
    rw [runTasks, ih]
    by_cases hj : j ∈ js
    · rw [if_pos hj, if_pos (List.mem_cons_of_mem k hj)]
    · rw [if_neg hj]
      by_cases hjk : j = k
      · subst hjk
        rw [if_pos List.mem_cons_self, Function.update_self, distributeChunkToSingleNode_isOk]
      · rw [if_neg (by simp [hj, hjk]), Function.update_of_ne hjk]

/-- The last task that creates the file at `ep` decides its content. -/
theorem runTasks_stored (js : List Nat) (statuses : Nat → Status) (disks : Disks) (ep : Endpoint) :
    stored (config ep)
        ((runTasks config registry fault chunkId data nodeIds js statuses disks).2 ep) chunkId =
      match (js.filter (taskCreates config registry fault chunkId nodeIds ep)).getLast? with
      | none => stored (config ep) (disks ep) chunkId
      | some j => some ((fault j).disk.kept data) := by
  induction js generalizing statuses disks with
  | nil => rfl
  | cons j js ih =>
    rw [runTasks, ih]
    by_cases hc : taskCreates config registry fault chunkId nodeIds ep j = true
    · rw [List.filter_cons_of_pos hc, List.getLast?_cons]
      cases (js.filter (taskCreates config registry fault chunkId nodeIds ep)).getLast? with
      | none =>
        simp only [Option.getD_none]
        rw [distributeChunkToSingleNode_stored]
        exact if_pos hc
      | some k => rfl
    · rw [List.filter_cons_of_neg hc]
      cases (js.filter (taskCreates config registry fault chunkId nodeIds ep)).getLast? with
      | none =>
        simp only
        rw [distributeChunkToSingleNode_stored]
        exact if_neg hc
      | some k => rfl

theorem runTasks_other {n m : Nat} (hnm : m ≠ n) (js : List Nat) (statuses : Nat → Status)
    (disks : Disks) (ep : Endpoint) :
    stored (config ep)
        ((runTasks config registry fault (chunkName n) data nodeIds js statuses disks).2 ep)
        (chunkName m) =
      stored (config ep) (disks ep) (chunkName m) := by
  induction js generalizing statuses disks with
  | nil => rfl
  | cons j js ih =>
    rw [runTasks, ih]
    exact distributeChunkToSingleNode_other config registry hnm (fault j) data _ disks ep

end

theorem combineStatuses_isOk (nodeIds : List Int32) (statuses : List Status) :
    (combineStatuses nodeIds statuses).isOk = statuses.all Status.isOk := by
  unfold combineStatuses
  split
  · next h => rw [h]; rfl
  · next h => rw [Bool.eq_false_iff.mpr h]; rfl

section
variable (config : Endpoint → DataNodeConfig) (registry : Registry) {schedule : List Nat}
  (fault : Nat → PutFault) (chunkId : String) (data : Bytes) (nodeIds : List Int32) (disks : Disks)

/-- **The status of a fan-out.**  It is OK when there are nodes and each of them
answers OK. -/
theorem distributeChunkToNodes_isOk (hs : schedule.Perm (List.range nodeIds.length)) :
    (distributeChunkToNodes config registry schedule fault chunkId data nodeIds disks).1.isOk = true ↔
      nodeIds ≠ [] ∧
        ∀ j < nodeIds.length, nodeOk config registry (fault j) chunkId (nodeIds.getD j 0) = true := by
  unfold distributeChunkToNodes
  cases hn : nodeIds with
  | nil => simp [Status.isOk]
  | cons a as =>
    rw [← hn, if_neg (by simp [hn])]
    simp only [combineStatuses_isOk, List.all_map, List.all_eq_true, List.mem_range,
      Function.comp_apply]
    rw [and_iff_right (by simp [hn])]
    refine forall_congr' fun j => imp_congr_right fun hj => ?_
    rw [runTasks_isOk, if_pos (hs.mem_iff.mpr (List.mem_range.mpr hj))]

/-- The task that decides what the chunk's file at `ep` holds. -/
def lastTask (schedule : List Nat) (ep : Endpoint) : Option Nat :=
  (schedule.filter (taskCreates config registry fault chunkId nodeIds ep)).getLast?

theorem distributeChunkToNodes_stored (schedule : List Nat)
    (hs : nodeIds = [] → schedule = []) (ep : Endpoint) :
    stored (config ep)
        ((distributeChunkToNodes config registry schedule fault chunkId data nodeIds disks).2 ep)
        chunkId =
      match lastTask config registry fault chunkId nodeIds schedule ep with
      | none => stored (config ep) (disks ep) chunkId
      | some j => some ((fault j).disk.kept data) := by
  unfold distributeChunkToNodes lastTask
  by_cases hn : nodeIds = []
  · rw [if_pos (by simp [hn]), hs hn]
    rfl
  · rw [if_neg (by simpa using hn)]
    exact runTasks_stored config registry fault chunkId data nodeIds schedule _ disks ep

theorem distributeChunkToNodes_other {n m : Nat} (hnm : m ≠ n) (schedule : List Nat) (ep : Endpoint) :
    stored (config ep)
        ((distributeChunkToNodes config registry schedule fault (chunkName n) data nodeIds disks).2 ep)
        (chunkName m) =
      stored (config ep) (disks ep) (chunkName m) := by
  unfold distributeChunkToNodes
  split
  · rfl
  · exact runTasks_other config registry fault data nodeIds hnm schedule _ disks ep

variable {config registry fault chunkId nodeIds}

theorem lastTask_spec {ep : Endpoint} {j : Nat} (hs : schedule.Perm (List.range nodeIds.length))
    (h : lastTask config registry fault chunkId nodeIds schedule ep = some j) :
    j < nodeIds.length ∧ taskCreates config registry fault chunkId nodeIds ep j = true := by
  have hmem := List.mem_filter.mp (List.mem_of_getLast? h)
  exact ⟨List.mem_range.mp (hs.mem_iff.mp hmem.1), hmem.2⟩

/-- Some task decides as soon as one creates the file. -/
theorem lastTask_isSome {ep : Endpoint} (hs : schedule.Perm (List.range nodeIds.length)) :
    (lastTask config registry fault chunkId nodeIds schedule ep).isSome ↔
      ∃ j < nodeIds.length, taskCreates config registry fault chunkId nodeIds ep j = true := by
  unfold lastTask
  rw [List.getLast?_isSome, ← List.length_pos_iff, List.length_filter_pos_iff]
  refine exists_congr fun j => and_congr_left fun _ => ?_
  rw [hs.mem_iff, List.mem_range]

end

end ToyDfs
