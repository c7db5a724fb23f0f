import ToyDfs.CleanupPass
import ToyDfs.Upload
import ToyDfs.System

/-!
Handlers that nobody interferes with.

`System.step` takes the handlers apart.  Here they are put together again: when the
steps of one call follow one another, its answer and what it does to the cluster
are those of the function the steps were taken from (`run_putFile`,
`run_deleteFile`, `run_registerDataNode`, `run_cleanupPass`).
-/

namespace ToyDfs

open Transition

/-! ## The steps of one handler -/

/-- A step of upload `h`, whose replica writes go as in `env`. -/
def Action.ofPut (env : PutEnv) (h : Nat) : Action → Prop
  | .putCheck k | .putDraw k | .putSelect k _ | .putJoin k | .putCommit k => k = h
  | .putStore k _ fault => k = h ∧ ∃ i j, fault = env.fault i j
  | _ => False

def Action.ofDelete (d : Nat) : Action → Prop
  | .deleteCheck e | .deletePath e _ => e = d
  | _ => False

def Action.ofRegister (r : Nat) : Action → Prop
  | .registerScan q | .registerDraw q | .registerInsert q => q = r
  | _ => False

def Action.ofPass : Action → Prop
  | .cleanupBegin | .cleanupDelete _ | .cleanupEnd => True
  | _ => False

/-- Nothing but steps of `own` leads from `s` to `t`. -/
def RunsTo (config : Endpoint → DataNodeConfig) (own : Action → Prop) (s t : System) : Prop :=
  Reachable (System.step config) (· = s) (fun _ a => own a) t

section
variable {config : Endpoint → DataNodeConfig} {own : Action → Prop} {s t u : System}

theorem RunsTo.refl (s : System) : RunsTo config own s s := .init rfl

theorem RunsTo.snoc {a : Action} (h : RunsTo config own s t) (ha : own a)
    (ht : t.step config a = some u) : RunsTo config own s u := .step a h ha ht

theorem RunsTo.trans (h : RunsTo config own s t) (h' : RunsTo config own t u) :
    RunsTo config own s u := Reachable.trans h h'

/-- The steps of one honest handler. -/
theorem reachable_of_runsTo (hs : Reachable (System.step config) Initial Honest s)
    (hrun : RunsTo config own s t) (hown : ∀ a, own a → ∀ u, Honest u a) :
    Reachable (System.step config) Initial Honest t := by
  induction hrun with
  | init he => exact he ▸ hs
  | step a _ ha ht ih => exact .step a ih (hown a ha _) ht

/-! ## DeleteFile -/

/-- The log after a `DeleteFile` was answered with `status`. -/
def DeleteLog (path : String) (status : Status) (log log' : List Event) : Prop :=
  if status.isOk then ∃ found, log' = .deletedPath path found :: log else log' = log

/-- **DeleteFile by itself.** -/
theorem run_deleteFile {d : Nat} {path : String} {now : TimePoint}
    (hdel : s.deletes d = some { path := path }) (hpass : s.pass = none) (hnow : s.clock ≤ now) :
    let r := deleteFile path s.clock now s.toCluster
    ∃ clock log, s.clock ≤ clock ∧ clock ≤ now ∧ DeleteLog path r.1 s.log log ∧
      RunsTo config (Action.ofDelete d) s
        ({ s with toCluster := r.2.2, clock := clock, log := log }.setDelete d
          ⟨path, .answered r.1 r.2.1⟩) := by
  have hownCheck : Action.ofDelete d (.deleteCheck d) := rfl
  have hownPath : Action.ofDelete d (.deletePath d now) := rfl
  let u : System := { s with store := (s.store.getFile path).2 }
  by_cases hfound : (s.store.getFile path).1.isNone = true
  · have hcheck : s.step config (.deleteCheck d) =
        some (u.setDelete d ⟨path, .answered fileNotFound {}⟩) := by
      simp only [System.step, System.deleteCheck, hdel, hpass, if_pos hfound, u]
    have hrun : deleteFile path s.clock now s.toCluster = (fileNotFound, {}, u.toCluster) :=
      if_pos hfound
    rw [hrun]
    exact ⟨s.clock, s.log, Int.le_refl _, hnow, rfl, (RunsTo.refl s).snoc hownCheck hcheck⟩
  · have hcheck : s.step config (.deleteCheck d) = some (u.setDelete d ⟨path, .checked⟩) := by
      simp only [System.step, System.deleteCheck, hdel, hpass, if_neg hfound, u]
    have hpath : (u.setDelete d ⟨path, .checked⟩).step config (.deletePath d now) =
        some ({ u.setDelete d ⟨path, .checked⟩ with
          store := u.store.deletePath path s.clock now
          running := true
          clock := now
          log := .deletedPath path (u.store.findFile path).isSome :: s.log }.setDelete d
            ⟨path, .answered Status.OK { success := true }⟩) := by
      have hget : (u.setDelete d ⟨path, .checked⟩).deletes d = some ⟨path, .checked⟩ :=
        Function.update_self ..
      have hidle : (u.setDelete d ⟨path, .checked⟩).pass = none := hpass
      simp only [System.step, System.deletePath, hget, hidle]
      exact if_pos hnow
    have hrun : deleteFile path s.clock now s.toCluster = (Status.OK, { success := true },
        { u.toCluster with store := u.store.deletePath path s.clock now, running := true }) :=
      if_neg hfound
    have hsteps := ((RunsTo.refl s).snoc hownCheck hcheck).snoc hownPath hpath
    rw [System.setDelete, System.setDelete, Function.update_idem] at hsteps
    rw [hrun]
    exact ⟨now, _, hnow, Int.le_refl _, ⟨_, rfl⟩, hsteps⟩

/-! ## RegisterDataNode -/

/-- **RegisterDataNode by itself.** -/
theorem run_registerDataNode {r : Nat} {peer : String} {port : Int32}
    (hreg : s.registers r = some { endpoint := ⟨extractClientAddress peer, port⟩ }) :
    let result := registerDataNode peer port s.toCluster
    ∃ nodeIdsDrawn home, nodeIdsDrawn ≤ s.nodeIdsDrawn + 1 ∧
      RunsTo config (Action.ofRegister r) s
        ({ s with toCluster := result.2.2, nodeIdsDrawn := nodeIdsDrawn, home := home }.setRegister r
          ⟨⟨extractClientAddress peer, port⟩, .answered result.2.1⟩) := by
  have hownScan : Action.ofRegister r (.registerScan r) := rfl
  have hownDraw : Action.ofRegister r (.registerDraw r) := rfl
  have hownInsert : Action.ofRegister r (.registerInsert r) := rfl
  let ep : Endpoint := ⟨extractClientAddress peer, port⟩
  cases hconflict : findConflict s.registeredNodes ep with
  | some existingId =>
    have hscan : s.step config (.registerScan r) =
        some (s.setRegister r ⟨ep, .answered (alreadyRegistered ep existingId)⟩) := by
      simp only [System.step, System.registerScan, hreg]
      rw [show findConflict s.registeredNodes ⟨extractClientAddress peer, port⟩ = _ from hconflict]
    have hrun : registerDataNode peer port s.toCluster =
        (Status.OK, alreadyRegistered ep existingId, s.toCluster) := by
      unfold registerDataNode
      simp only
      rw [show findConflict s.registeredNodes ⟨extractClientAddress peer, port⟩ = _ from hconflict]
    rw [hrun]
    exact ⟨s.nodeIdsDrawn, s.home, Nat.le_succ _, (RunsTo.refl s).snoc hownScan hscan⟩
  | none =>
    let u := s.setRegister r ⟨ep, .scanned⟩
    let v := { u with
      nextNodeId := s.nextNodeId + 1
      nodeIdsDrawn := s.nodeIdsDrawn + 1 }.setRegister r ⟨ep, .drawn s.nextNodeId⟩
    have hscan : s.step config (.registerScan r) = some u := by
      simp only [System.step, System.registerScan, hreg]
      rw [show findConflict s.registeredNodes ⟨extractClientAddress peer, port⟩ = _ from hconflict]
    have hdraw : u.step config (.registerDraw r) = some v := by
      have hget : u.registers r = some ⟨ep, .scanned⟩ := Function.update_self ..
      simp only [System.step, System.registerDraw, hget]
      rfl
    have hinsert : v.step config (.registerInsert r) = some ({ v with
        registeredNodes := s.registeredNodes.insert s.nextNodeId
          { nodeId := s.nextNodeId, address := ep.address, port := ep.port }
        home := Function.update s.home s.nextNodeId (some ep) }.setRegister r
          ⟨ep, .answered { success := true, nodeId := s.nextNodeId }⟩) := by
      have hget : v.registers r = some ⟨ep, .drawn s.nextNodeId⟩ := Function.update_self ..
      simp only [System.step, System.registerInsert, hget]
      rfl
    have hrun : registerDataNode peer port s.toCluster =
        (Status.OK, { success := true, nodeId := s.nextNodeId },
          { s.toCluster with
            nextNodeId := s.nextNodeId + 1
            registeredNodes := s.registeredNodes.insert s.nextNodeId
              { nodeId := s.nextNodeId, address := ep.address, port := ep.port } }) := by
      unfold registerDataNode
      simp only
      rw [show findConflict s.registeredNodes ⟨extractClientAddress peer, port⟩ = _ from hconflict]
    have hsteps := (((RunsTo.refl s).snoc hownScan hscan).snoc hownDraw hdraw).snoc hownInsert hinsert
    simp only [System.setRegister, Function.update_idem, u, v] at hsteps
    rw [hrun]
    exact ⟨s.nodeIdsDrawn + 1, _, Nat.le_refl _, hsteps⟩

end

/-! ## PutFile -/

/-- `s` with upload `h` at `call`, over this cluster. -/
def System.atPut (s : System) (h : Nat) (c : Cluster) (drawn : Nat) (log : List Event) (call : PutCall) :
    System :=
  { s with toCluster := c, chunkIdsDrawn := drawn, log := log }.setPut h call

/-- Upload `h` gets there from `s` without interference. -/
def PutReaches (config : Endpoint → DataNodeConfig) (env : PutEnv) (s : System) (h : Nat) (c : Cluster)
    (drawn : Nat) (log : List Event) (call : PutCall) : Prop :=
  RunsTo config (Action.ofPut env h) s (s.atPut h c drawn log call)

section
variable {config : Endpoint → DataNodeConfig} {env : PutEnv} {s : System} {h : Nat} {c c' : Cluster}
  {drawn drawn' : Nat} {log log' : List Event} {call call' : PutCall} {messages : List PutFileRequest}
  {chunks : List ChunkInfo}

@[simp] theorem puts_atPut : (s.atPut h c drawn log call).puts h = some call := Function.update_self ..

@[simp] theorem pass_atPut : (s.atPut h c drawn log call).pass = s.pass := rfl

@[simp] theorem setPut_atPut (c' : Cluster) (drawn' : Nat) (log' : List Event) :
    { s.atPut h c drawn log call with toCluster := c', chunkIdsDrawn := drawn', log := log' }.setPut h call' =
      s.atPut h c' drawn' log' call' := by
  simp only [System.atPut, System.setPut, Function.update_idem]

theorem PutReaches.step {a : Action} (hr : PutReaches config env s h c drawn log call)
    (ha : a.ofPut env h)
    (hstep : (s.atPut h c drawn log call).step config a = some (s.atPut h c' drawn' log' call')) :
    PutReaches config env s h c' drawn' log' call' := hr.snoc ha hstep

theorem PutReaches.draw (hr : PutReaches config env s h c drawn log ⟨messages, chunks, .looping⟩)
    (hlt : chunks.length < chunkCount (uploadData messages)) :
    PutReaches config env s h { c with chunkIdCounter := c.chunkIdCounter + 1 } (drawn + 1) log
      ⟨messages, chunks, .drawn (chunkName c.chunkIdCounter.toNat)⟩ := by
  refine hr.step (a := .putDraw h) rfl ?_
  simp only [System.step, System.putDraw, puts_atPut, if_pos hlt]
  exact congrArg some (setPut_atPut ..)

theorem PutReaches.select {chunkId : String} {order : List Int32}
    (hr : PutReaches config env s h c drawn log ⟨messages, chunks, .drawn chunkId⟩)
    (horder : order.Perm c.registeredNodes.keys) :
    PutReaches config env s h
      { c with nextNodeIndex := (selectNodesForReplication 3 order c.nextNodeIndex).2 } drawn log
      ⟨messages, chunks,
        if (selectNodesForReplication 3 order c.nextNodeIndex).1.isEmpty
        then .answered noNodesAvailable {}
        else .placed chunkId (selectNodesForReplication 3 order c.nextNodeIndex).1 fun _ => none⟩ := by
  refine hr.step (a := .putSelect h order) rfl ?_
  have hkeys : order.Perm (s.atPut h c drawn log ⟨messages, chunks, .drawn chunkId⟩).registeredNodes.keys :=
    horder
  simp only [System.step, System.putSelect, puts_atPut, if_pos hkeys]
  by_cases hempty : (selectNodesForReplication 3 order c.nextNodeIndex).1.isEmpty = true
  · rw [if_pos hempty, if_pos (by exact hempty)]
    exact congrArg some (setPut_atPut ..)
  · rw [if_neg hempty, if_neg (by exact hempty)]
    exact congrArg some (setPut_atPut ..)

section
variable {chunkId : String} {nodeIds : List Int32} {results : Nat → Option Status}

theorem PutReaches.storeOne {j : Nat} {r : Status × Disks} (fault : PutFault)
    (hfault : ∃ i j, fault = env.fault i j)
    (hr : PutReaches config env s h c drawn log ⟨messages, chunks, .placed chunkId nodeIds results⟩)
    (hlt : j < nodeIds.length) (hnew : results j = none)
    (hwrite : distributeChunkToSingleNode config c.registeredNodes fault chunkId
      (chunkData (uploadData messages) chunks.length) (nodeIds.getD j 0) c.disks = r) :
    PutReaches config env s h { c with disks := r.2 } drawn log
      ⟨messages, chunks, .placed chunkId nodeIds (Function.update results j (some r.1))⟩ := by
  refine hr.step (a := .putStore h j fault) ⟨rfl, hfault⟩ ?_
  have hready : j < nodeIds.length ∧ results j = none := ⟨hlt, hnew⟩
  subst hwrite
  simp only [System.step, System.putStore, puts_atPut, if_pos hready]
  exact congrArg some (setPut_atPut ..)

/-- The replica writes of a chunk, in this order. -/
theorem PutReaches.store {js : List Nat} {r : (Nat → Status) × Disks} (i : Nat)
    (statuses : Nat → Status)
    (hr : PutReaches config env s h c drawn log ⟨messages, chunks, .placed chunkId nodeIds results⟩)
    (hnodup : js.Nodup) (hlt : ∀ j ∈ js, j < nodeIds.length) (hnew : ∀ j ∈ js, results j = none)
    (hwrites : runTasks config c.registeredNodes (env.fault i) chunkId
      (chunkData (uploadData messages) chunks.length) nodeIds js statuses c.disks = r) :
    PutReaches config env s h { c with disks := r.2 } drawn log
      ⟨messages, chunks, .placed chunkId nodeIds fun j => if j ∈ js then some (r.1 j) else results j⟩ := by
  induction js generalizing c statuses results with
  | nil =>
    subst hwrites
    simpa [runTasks] using hr
  | cons j js ih =>
    obtain ⟨hj, hnodup⟩ := List.nodup_cons.mp hnodup
    rw [runTasks] at hwrites
    have hone :=
      hr.storeOne (env.fault i j) ⟨i, j, rfl⟩ (hlt j List.mem_cons_self) (hnew j List.mem_cons_self) rfl
    have hrest := ih _ hone hnodup (fun k hk => hlt k (List.mem_cons_of_mem _ hk)) ?_ hwrites
    · have hresults : (fun k => if k ∈ j :: js then some (r.1 k) else results k) = fun k =>
          if k ∈ js then some (r.1 k) else Function.update results j
            (some (distributeChunkToSingleNode config c.registeredNodes (env.fault i j) chunkId
              (chunkData (uploadData messages) chunks.length) (nodeIds.getD j 0) c.disks).1) k := by
        funext k
        by_cases hk : k ∈ js
        · rw [if_pos (List.mem_cons_of_mem _ hk), if_pos hk]
        · rw [if_neg hk]
          by_cases hkj : k = j
          · subst hkj
            rw [if_pos List.mem_cons_self, Function.update_self, ← hwrites,
              runTasks_notMem _ _ _ _ _ _ _ _ _ hk, Function.update_self]
          · rw [if_neg (by simp [hk, hkj]), Function.update_of_ne hkj]
      rw [hresults]
      exact hrest
    · intro k hk
      have hkj : k ≠ j := fun he => hj (he ▸ hk)
      rw [Function.update_of_ne hkj]
      exact hnew k (List.mem_cons_of_mem _ hk)

theorem PutReaches.join
    (hr : PutReaches config env s h c drawn log ⟨messages, chunks, .placed chunkId nodeIds results⟩)
    (hall : ∀ j < nodeIds.length, (results j).isSome) {status : Status}
    (hstatus : status = combineStatuses nodeIds
      ((List.range nodeIds.length).map fun j => (results j).getD Status.OK)) :
    PutReaches config env s h c drawn log (if !status.isOk then ⟨messages, chunks, .answered status {}⟩
      else ⟨messages, chunks ++ [{ chunkId := chunkId, nodeIds := nodeIds, replicationFactor := 3 }],
        .looping⟩) := by
  refine hr.step (a := .putJoin h) rfl ?_
  simp only [System.step, System.putJoin, puts_atPut, if_pos hall, ← hstatus]
  by_cases hok : (!status.isOk) = true
  · simp only [if_pos hok]
    exact congrArg some (setPut_atPut ..)
  · simp only [if_neg hok]
    exact congrArg some (setPut_atPut ..)

end

/-- Where one round of the chunk loop leaves the call. -/
def chunkPhase (messages : List PutFileRequest) (chunks : List ChunkInfo) :
    Except Status ChunkInfo → PutCall
  | .error status => ⟨messages, chunks, .answered status {}⟩
  | .ok chunk => ⟨messages, chunks ++ [chunk], .looping⟩

/-- **One chunk by itself.** -/
theorem PutReaches.chunk (henv : ∀ i r, env.change i r = r)
    (hr : PutReaches config env s h c drawn log ⟨messages, chunks, .looping⟩)
    (hlt : chunks.length < chunkCount (uploadData messages)) :
    PutReaches config env s h (putFileChunk config env (uploadData messages) chunks.length c).2
      (drawn + 1) log (chunkPhase messages chunks
        (putFileChunk config env (uploadData messages) chunks.length c).1) := by
  have hselect := (hr.draw hlt).select (env.order_perm chunks.length c.registeredNodes)
  unfold putFileChunk putFileChunkWith
  simp only [henv]
  by_cases hempty : (selectNodesForReplication 3 (env.order chunks.length c.registeredNodes)
      c.nextNodeIndex).1.isEmpty = true
  · simp only [if_pos hempty] at hselect ⊢
    exact hselect
  · simp only [if_neg hempty] at hselect ⊢
    generalize hsel : selectNodesForReplication 3 (env.order chunks.length c.registeredNodes)
      c.nextNodeIndex = sel at hselect hempty ⊢
    have hperm := env.schedule_perm chunks.length sel.1.length
    have hmem : ∀ j, j ∈ env.schedule chunks.length sel.1.length ↔ j < sel.1.length := fun j => by
      rw [hperm.mem_iff, List.mem_range]
    have hstore := hselect.store chunks.length (fun _ => Status.OK)
      (hperm.nodup_iff.mpr List.nodup_range) (fun j hj => (hmem j).mp hj) (fun _ _ => rfl) rfl
    have hjoin := hstore.join (fun j hj => by simp [(hmem j).mpr hj]) rfl
    have hstatuses : ∀ f : Nat → Status, ((List.range sel.1.length).map fun j =>
        (if j ∈ env.schedule chunks.length sel.1.length then some (f j) else none).getD Status.OK) =
          (List.range sel.1.length).map f := by
      intro f
      refine List.map_congr_left fun j hj => ?_
      rw [if_pos ((hmem j).mpr (List.mem_range.mp hj))]
      rfl
    rw [hstatuses] at hjoin
    simp only [PutEnv.inTurn, distributeChunkToNodes, if_neg hempty]
    split
    · next hfail =>
      rw [if_pos hfail] at hjoin
      exact hjoin
    · next hok =>
      rw [if_neg hok] at hjoin
      exact hjoin

/-- The log after upload `h` was answered with `status`. -/
def PutLog (h : Nat) (filename : String) (status : Status) (log log' : List Event) : Prop :=
  if status.isOk then ∃ replaced, log' = .committed h filename replaced :: log else log' = log

theorem putLog_failed {filename : String} {status : Status} (h' : status.isOk = false) :
    PutLog h filename status log log := by
  rw [PutLog, h', if_neg Bool.false_ne_true]

theorem readUpload_not_ok {store store' : MetadataStore} {status : Status}
    (hread : readUpload messages true "" [] store = (.error status, store')) : status.isOk = false := by
  cases messages with
  | nil => cases hread
  | cons req reqs =>
    rw [readUpload_first] at hread
    split at hread
    · cases hread
      rfl
    · cases hread

/-- **The chunk loop by itself**, and the commit. -/
theorem PutReaches.loop (henv : ∀ i r, env.change i r = r) (hpass : s.pass = none) (n : Nat)
    (fileMeta : FileMeta)
    (hr : PutReaches config env s h c drawn log ⟨messages, fileMeta.chunks, .looping⟩)
    (hmeta : fileMeta = { emptyMeta (uploadData messages).length with chunks := fileMeta.chunks })
    (hn : fileMeta.chunks.length + n = chunkCount (uploadData messages)) :
    let r := finishPut (uploadName messages)
      (putFileLoop config env (uploadData messages) n fileMeta.chunks.length fileMeta c)
    ∃ chunks drawn' log', drawn' ≤ drawn + n ∧ PutLog h (uploadName messages) r.1 log log' ∧
      PutReaches config env s h r.2.2 drawn' log' ⟨messages, chunks, .answered r.1 r.2.1⟩ := by
  induction n generalizing c drawn fileMeta with
  | zero =>
    have hdone : ¬ fileMeta.chunks.length < chunkCount (uploadData messages) := by omega
    refine ⟨fileMeta.chunks, drawn, _, Nat.le_refl _, ⟨(c.store.findFile (uploadName messages)).isSome, rfl⟩,
      hr.step (a := .putCommit h) rfl ?_⟩
    simp only [System.step, System.putCommit, puts_atPut, pass_atPut, hpass, if_neg hdone]
    rw [← hmeta, ← hpass]
    exact congrArg some (setPut_atPut ..)
  | succ n ih =>
    have hchunk := hr.chunk henv (by omega)
    simp only [putFileLoop_succ]
    cases hres : putFileChunk config env (uploadData messages) fileMeta.chunks.length c with
    | mk res c' =>
      rw [hres] at hchunk
      cases res with
      | error status =>
        have hfailed : status.isOk = false := by
          rw [Status.isOk, putFileChunk_code hres]
          rfl
        exact ⟨_, _, log, by omega, putLog_failed hfailed, hchunk⟩
      | ok chunk =>
        have hlen : (fileMeta.chunks ++ [chunk]).length = fileMeta.chunks.length + 1 := by simp
        obtain ⟨chunks, drawn', log', hdrawn, hlog, hrest⟩ :=
          ih { fileMeta with chunks := fileMeta.chunks ++ [chunk] } hchunk (by rw [hmeta])
            (by rw [hlen]; omega)
        simp only [hlen] at hlog hrest
        exact ⟨chunks, drawn', log', by omega, hlog, hrest⟩

/-- **PutFile by itself**, while the registry stays as it is. -/
theorem run_putFile (henv : ∀ i r, env.change i r = r) {reader : ServerReader PutFileRequest}
    (hput : s.puts h = some { messages := reader.messages }) (hpass : s.pass = none) :
    let r := putFile config env reader s.toCluster
    ∃ chunks drawn log, drawn ≤ s.chunkIdsDrawn + chunkCount (uploadData reader.messages) ∧
      PutLog h (uploadName reader.messages) r.1 s.log log ∧
      PutReaches config env s h r.2.2 drawn log ⟨reader.messages, chunks, .answered r.1 r.2.1⟩ := by
  have hstart : PutReaches config env s h s.toCluster s.chunkIdsDrawn s.log
      ⟨reader.messages, [], .started⟩ := by
    have hsame : s.atPut h s.toCluster s.chunkIdsDrawn s.log ⟨reader.messages, [], .started⟩ = s := by
      rw [System.atPut, System.setPut, ← hput, Function.update_eq_self]
    rw [PutReaches, hsame]
    exact .refl s
  generalize s.toCluster = c at hstart ⊢
  rw [putFile_def]
  cases hread : readUpload reader.messages true "" [] c.store with
  | mk res store =>
    have hcheck : ∀ call, (s.atPut h c s.chunkIdsDrawn s.log ⟨reader.messages, [], .started⟩).step config
          (.putCheck h) = some (s.atPut h { c with store := store } s.chunkIdsDrawn s.log call) →
        PutReaches config env s h { c with store := store } s.chunkIdsDrawn s.log call :=
      fun call hstep => hstart.step (a := .putCheck h) rfl hstep
    simp only [System.step, System.putCheck, puts_atPut, pass_atPut, hpass,
      show readUpload reader.messages true "" [] (s.atPut h c s.chunkIdsDrawn s.log
        ⟨reader.messages, [], .started⟩).store = _ from hread] at hcheck
    rw [← hpass] at hcheck
    cases res with
    | error status =>
      refine ⟨[], _, s.log, Nat.le_add_right _ _, putLog_failed (readUpload_not_ok hread), hcheck _ ?_⟩
      exact congrArg some (setPut_atPut ..)
    | ok upload =>
      obtain ⟨filename, fileData⟩ := upload
      obtain ⟨rfl, rfl⟩ := readUpload_ok hread
      by_cases hempty : (uploadName reader.messages).isEmpty = true
      · simp only [if_pos hempty] at hcheck ⊢
        refine ⟨[], _, s.log, Nat.le_add_right _ _, putLog_failed rfl, hcheck _ ?_⟩
        exact congrArg some (setPut_atPut ..)
      · simp only [if_neg hempty] at hcheck ⊢
        exact (hcheck _ (congrArg some (setPut_atPut ..))).loop henv hpass _
          (emptyMeta (uploadData reader.messages).length) rfl (Nat.zero_add _)

end

/-! ## The cleanup pass -/

section
variable (config : Endpoint → DataNodeConfig) {s : System}

/-- The deletions of a pass. -/
theorem run_deletions {env : CleanupEnv} (henv : ∀ n r, env.change n r = r) {now : TimePoint}
    (rs : List (String × Int32)) {attempts : List DeleteAttempt} {w : CleanupWorld}
    (hpass : s.pass = some ⟨now, rs, attempts⟩)
    (hw : w = ⟨s.registeredNodes, s.disks, attempts⟩) :
    RunsTo config Action.ofPass s { s with
      disks := (rs.foldl (deleterStep config env) w).disks
      pass := some ⟨now, [], (rs.foldl (deleterStep config env) w).attempts⟩ } := by
  induction rs generalizing s attempts w with
  | nil =>
    subst hw
    rw [List.foldl_nil, ← hpass]
    exact .refl s
  | cons r rs ih =>
    let u : System := { s with
      disks := deleteReplica config s.registeredNodes (env.fault attempts.length) r s.disks
      pass := some ⟨now, rs, attempts ++
        [deleteAttempt config s.registeredNodes (env.fault attempts.length) r]⟩ }
    have hdelete : s.step config (.cleanupDelete (env.fault attempts.length)) = some u := by
      simp only [System.step, System.cleanupDelete, hpass, u]
    have hown : Action.ofPass (.cleanupDelete (env.fault attempts.length)) := trivial
    refine ((RunsTo.refl s).snoc hown hdelete).trans ?_
    refine @ih u _ (deleterStep config env w r) rfl ?_
    subst hw
    simp only [deleterStep, henv, u]

theorem foldl_deleterStep_registry {env : CleanupEnv} (henv : ∀ n r, env.change n r = r)
    (rs : List (String × Int32)) (w : CleanupWorld) :
    (rs.foldl (deleterStep config env) w).registry = w.registry := by
  induction rs generalizing w with
  | nil => rfl
  | cons r rs ih => rw [List.foldl_cons, ih, deleterStep, henv]

/-- A pass in which nobody else touches the registry. -/
theorem cleanupPass_registeredNodes {env : CleanupEnv}
    (henv : ∀ n r, env.change n r = r) (now : TimePoint) (c : Cluster) :
    (cleanupPass config env now c).1.registeredNodes = c.registeredNodes := by
  have hregistry := foldl_deleterStep_registry config henv (passReplicas now c.store) (passStart c)
  rw [← cleanupTombstones_chunkDeleter] at hregistry
  exact hregistry

/-- **A cleanup pass by itself**, while the registry stays as it is. -/
theorem run_cleanupPass {env : CleanupEnv} (henv : ∀ n r, env.change n r = r) (hpass : s.pass = none)
    (hrunning : s.running = true) :
    ∃ u, RunsTo config Action.ofPass s u ∧
      u.pass = some ⟨s.clock, [], (cleanupPass config env s.clock s.toCluster).2⟩ ∧
      u.step config .cleanupEnd =
        some { s with toCluster := (cleanupPass config env s.clock s.toCluster).1 } := by
  have hownBegin : Action.ofPass .cleanupBegin := trivial
  let v : System := { s with pass := some ⟨s.clock, passReplicas s.clock s.store, []⟩ }
  have hbegin : s.step config .cleanupBegin = some v := by
    simp only [System.step, System.cleanupBegin, hpass, hrunning, if_true, v]
  have hdeletions := @run_deletions config v _ henv s.clock (passReplicas s.clock s.store) []
    (passStart s.toCluster) rfl rfl
  have hworld := cleanupTombstones_chunkDeleter config env s.clock s.store (passStart s.toCluster)
  have hregistry := foldl_deleterStep_registry config henv (passReplicas s.clock s.store)
    (passStart s.toCluster)
  rw [← hworld] at hdeletions hregistry
  refine ⟨_, ((RunsTo.refl s).snoc hownBegin hbegin).trans hdeletions, rfl, ?_⟩
  have hcluster : (cleanupPass config env s.clock s.toCluster).1 = { s.toCluster with
      store := (s.store.cleanupTombstones s.clock (some (chunkDeleter config env))
        (passStart s.toCluster)).1
      registeredNodes := (s.store.cleanupTombstones s.clock (some (chunkDeleter config env))
        (passStart s.toCluster)).2.registry
      disks := (s.store.cleanupTombstones s.clock (some (chunkDeleter config env))
        (passStart s.toCluster)).2.disks } := rfl
  have hstore := MetadataStore.cleanupTombstones_store s.clock (some (chunkDeleter config env)) s.store
    (passStart s.toCluster)
  rw [hcluster, hregistry, hstore]
  simp only [System.step, System.cleanupEnd, hpass]
  rfl

end

end ToyDfs
