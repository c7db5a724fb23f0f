import ToyDfs.SessionRefinement
import ToyDfs.Placement
import ToyDfs.ServerLifecycle

/-!
A deployment in which nothing goes wrong.

When no call and no stream fails and registered datanodes stay, a `Deployment` cannot be
told from a `Reference`: a map from names to contents, and the list of the datanodes in
the order they registered (`session_eq_reference`).  Every answer is the same, error texts
and node ids included.

The answers of a call are read off the cluster (`Mirrors`); what becomes of the files
follows from what `Permitted` allows for such an answer.
-/

namespace ToyDfs

open Simulation

/-! ## Reference -/

structure Reference where
  files : Files
  /-- node `i + 1` is the `i`-th to register -/
  nodes : List Endpoint

namespace Reference

def empty : Reference := { files := fun _ => none, nodes := [] }

def perform (r : Reference) : Command → Answer × Reference
  | .putFile none filename _ _ =>
    (.put (some (.error (.runtimeError ("Failed to open file: " ++ filename)))), r)
  | .putFile (some content) filename _ _ =>
    if (r.files filename).isSome then (.put (some (.error (.systemError "EEXIST" "File exists"))), r)
    else if filename = "" then (.put (some (.error (.runtimeError "Filename not provided"))), r)
    else if r.nodes = [] ∧ content ≠ [] then
      (.put (some (.error (.runtimeError "No nodes available for replication"))), r)
    else (.put (some (.ok ())), { r with files := Function.update r.files filename (some content) })
  | .getFile filename _ _ =>
    match r.files filename with
    | some content => (.get (.ok content), r)
    | none => (.get (.error (.systemError "ENOENT" "No such file or directory")), r)
  | .deleteFile filename _ _ =>
    if (r.files filename).isSome then
      (.delete (.ok true), { r with files := Function.update r.files filename none })
    else (.delete (.error (.systemError "ENOENT" "No such file or directory")), r)
  | .registerDataNode peer port =>
    let ep : Endpoint := ⟨extractClientAddress peer, port⟩
    if ep ∈ r.nodes then (.registered (alreadyRegistered ep (Int32.ofNat (r.nodes.idxOf ep + 1))), r)
    else (.registered { success := true, nodeId := Int32.ofNat (r.nodes.length + 1) },
      { r with nodes := r.nodes ++ [ep] })
  | .unregisterDataNode nodeId =>
    (.unregistered { code := .notFound, errorMessage := "Node not found" }
      { success := false, errorMessage := "Node ID " ++ toString nodeId ++ " not found in registry" }, r)
  | .cleanupPass _ => (.nothing, r)
  | .wait _ => (.nothing, r)
  | .restart => (.nothing, empty)

theorem length_nodes (r : Reference) (command : Command) :
    (r.perform command).2.nodes.length ≤ r.nodes.length + command.nodeIds := by
  cases command with
  | registerDataNode peer port =>
    rw [perform]
    split
    · exact Nat.le_add_right _ _
    · exact Nat.le_of_eq (List.length_append ..)
  | putFile file filename stream env =>
    cases file with
    | none => exact Nat.le_refl _
    | some content =>
      rw [perform]
      split_ifs <;> exact Nat.le_add_right _ _
  | getFile filename env rpc =>
    rw [perform]
    split <;> exact Nat.le_refl _
  | deleteFile filename delay rpc =>
    rw [perform]
    split <;> exact Nat.le_refl _
  | restart => exact Nat.zero_le _
  | unregisterDataNode nodeId => exact Nat.le_refl _
  | cleanupPass env => exact Nat.le_refl _
  | wait d => exact Nat.le_refl _

end Reference

/-! ## Health -/

structure PutEnv.Healthy (env : PutEnv) : Prop where
  change : ∀ i registry, env.change i registry = registry
  delivered : ∀ i j, (env.fault i j).rpc = .none
  opened : ∀ i j, (env.fault i j).disk.openFails = false
  complete : ∀ i j, (env.fault i j).Complete

/-- Nothing goes wrong in the call, and it unregisters no datanode.  A cleanup pass may
fail as it likes. -/
def Command.Healthy : Command → Prop
  | .putFile file _ stream env => env.Healthy ∧
    ∀ content, file = some content → content.length ≤ 2 ^ 31 ∧ stream.Intact content
  | .getFile _ env rpc => env.Complete ∧ env.AllAnswer ∧ rpc = .none
  | .deleteFile _ _ rpc => rpc = .none
  | .unregisterDataNode nodeId => nodeId.toInt ≤ 0
  | .cleanupPass env => ∀ n registry, env.change n registry = registry
  | _ => True

/-- Healthy commands that stay within the numbers a datanode can store chunks under. -/
structure HealthySession (commands : List Command) : Prop where
  healthy : ∀ command ∈ commands, command.Healthy
  chunkIds : (commands.map Command.chunkIds).sum ≤ 2 ^ 31
  nodeIds : (commands.map Command.nodeIds).sum < 2 ^ 31 - 1

theorem HealthySession.of_append {past rest : List Command} (h : HealthySession (past ++ rest)) :
    HealthySession past := by
  obtain ⟨hhealthy, hchunks, hnodes⟩ := h
  rw [List.map_append, List.sum_append] at hchunks hnodes
  exact ⟨fun c hc => hhealthy c (List.mem_append_left _ hc), by omega, by omega⟩

theorem Command.Healthy.sound {command : Command} (h : command.Healthy) : command.Sound := by
  cases command with
  | putFile file filename stream env =>
    refine ⟨h.1.change, h.1.complete, fun content hfile => ⟨(h.2 content hfile).1, fun e he => ?_⟩⟩
    cases he.symm.trans (h.2 content hfile).2.1
  | getFile filename env rpc =>
    obtain ⟨hcomplete, -, rfl⟩ := h
    exact ⟨hcomplete.reads, trivial⟩
  | deleteFile filename delay rpc =>
    subst h
    trivial
  | cleanupPass env => exact h
  | _ => trivial

/-! ## What the cluster has of the reference -/

/-- The registry lists these nodes, and the chunks of active files have some of them. -/
structure Mirrors (c : Cluster) (nodes : List Endpoint) : Prop where
  next : c.nextNodeId = Int32.ofNat (nodes.length + 1)
  known : ∀ i ep, nodes[i]? = some ep → c.registeredNodes.lookup (Int32.ofNat (i + 1)) =
    some ⟨Int32.ofNat (i + 1), ep.address, ep.port⟩
  only : ∀ d info, c.registeredNodes.lookup d = some info →
    ∃ i, d = Int32.ofNat (i + 1) ∧ nodes[i]? = some info.endpoint
  nodup : nodes.Nodup
  placed : ∀ path fileMeta, c.store.findFile path = some fileMeta → ∀ chunk ∈ fileMeta.chunks,
    ∃ d ∈ chunk.nodeIds, (c.registeredNodes.lookup d).isSome

theorem mirrors_start (disks : Disks) : Mirrors (Cluster.start disks) [] := by
  refine ⟨rfl, fun i ep hi => ?_, fun d info hl => ?_, List.nodup_nil, fun path fileMeta hfile => ?_⟩
  · cases hi
  · simp [Cluster.start] at hl
  · cases hfile

section
variable {c : Cluster} {nodes : List Endpoint}

theorem int32_ofNat_inj {a b : Nat} (ha : a < 2 ^ 31) (hb : b < 2 ^ 31)
    (h : Int32.ofNat a = Int32.ofNat b) : a = b := by
  have hint := congrArg Int32.toInt h
  rw [Int32.toInt_ofNat_of_lt ha, Int32.toInt_ofNat_of_lt hb] at hint
  exact Int.ofNat_inj.mp hint

theorem Mirrors.listed_iff (h : Mirrors c nodes) (ep : Endpoint) :
    Listed c.registeredNodes ep ↔ ep ∈ nodes := by
  constructor
  · rintro ⟨d, info, hl, rfl⟩
    obtain ⟨i, -, hi⟩ := h.only d info hl
    exact List.mem_of_getElem? hi
  · intro hmem
    obtain ⟨i, hi⟩ := List.mem_iff_getElem?.mp hmem
    exact ⟨_, _, h.known i ep hi, rfl⟩

/-- The node an address is registered under. -/
theorem Mirrors.findConflict (h : Mirrors c nodes) {ep : Endpoint} (hmem : ep ∈ nodes) :
    ToyDfs.findConflict c.registeredNodes ep = some (Int32.ofNat (nodes.idxOf ep + 1)) := by
  have hsome := (findConflict_isSome_iff _ ep).mpr ((h.listed_iff ep).mpr hmem)
  obtain ⟨d, hd⟩ := Option.isSome_iff_exists.mp hsome
  obtain ⟨⟨d', info⟩, hfind, rfl⟩ := Option.map_eq_some_iff.mp hd
  have hep := List.find?_some hfind
  rw [decide_eq_true_eq] at hep
  obtain ⟨i, rfl, hi⟩ := h.only d' info (AList.mem_lookup_iff.mpr (List.mem_of_find?_eq_some hfind))
  rw [hep] at hi
  obtain ⟨hlt, hget⟩ := List.getElem?_eq_some_iff.mp hi
  have hidx : nodes.idxOf ep = i := by
    rw [← hget]
    exact h.nodup.idxOf_getElem i hlt
  rw [hd, hidx]

/-- There are as many registered nodes as in the list. -/
theorem Mirrors.length_keys (h : Mirrors c nodes) : c.registeredNodes.keys.length ≤ nodes.length := by
  have hsub : c.registeredNodes.keys ⊆ (List.range nodes.length).map fun i => Int32.ofNat (i + 1) := by
    intro d hd
    obtain ⟨info, hl⟩ := Option.isSome_iff_exists.mp (AList.lookup_isSome.mpr hd)
    obtain ⟨i, rfl, hi⟩ := h.only d info hl
    exact List.mem_map_of_mem (List.mem_range.mpr (List.getElem?_eq_some_iff.mp hi).1)
  have hle := (List.subperm_of_subset c.registeredNodes.keys_nodup hsub).length_le
  rwa [List.length_map, List.length_range] at hle

theorem Mirrors.keys_eq_nil (h : Mirrors c nodes) : c.registeredNodes.keys = [] ↔ nodes = [] := by
  constructor
  · intro hnil
    by_contra hne
    obtain ⟨ep, hep⟩ := List.exists_mem_of_ne_nil nodes hne
    obtain ⟨i, hi⟩ := List.mem_iff_getElem?.mp hep
    have hmem : Int32.ofNat (i + 1) ∈ c.registeredNodes := by
      rw [← AList.lookup_isSome, h.known i ep hi]
      rfl
    rw [AList.mem_keys, hnil] at hmem
    cases hmem
  · rintro rfl
    exact List.eq_nil_of_length_eq_zero (Nat.le_zero.mp h.length_keys)

/-- The registry is as before, and so are the files, but for ones on registered nodes. -/
theorem Mirrors.frame (h : Mirrors c nodes) {d : Cluster} (hregistry : d.registeredNodes = c.registeredNodes)
    (hnext : d.nextNodeId = c.nextNodeId)
    (hfiles : ∀ path fileMeta, d.store.findFile path = some fileMeta →
      c.store.findFile path = some fileMeta ∨
        ∀ chunk ∈ fileMeta.chunks, ∃ n ∈ chunk.nodeIds, (c.registeredNodes.lookup n).isSome) :
    Mirrors d nodes := by
  refine ⟨hnext.trans h.next, ?_, ?_, h.nodup, ?_⟩
  · rw [hregistry]
    exact h.known
  · rw [hregistry]
    exact h.only
  · rw [hregistry]
    intro path fileMeta hfile
    exact (hfiles path fileMeta hfile).elim (h.placed path fileMeta) id

/-- Ids of nodes are positive. -/
theorem Mirrors.lookup_nonpos (h : Mirrors c nodes) (hfew : nodes.length < 2 ^ 31 - 1) {nodeId : Int32}
    (hnodeId : nodeId.toInt ≤ 0) : c.registeredNodes.lookup nodeId = none := by
  cases hl : c.registeredNodes.lookup nodeId with
  | none => rfl
  | some info =>
    obtain ⟨i, rfl, hi⟩ := h.only nodeId info hl
    have hlt := (List.getElem?_eq_some_iff.mp hi).1
    rw [Int32.toInt_ofNat_of_lt (by omega)] at hnodeId
    omega

/-- One more node. -/
theorem Mirrors.insert (h : Mirrors c nodes) {ep : Endpoint} (hnew : ep ∉ nodes)
    (hfew : nodes.length < 2 ^ 31 - 2) :
    Mirrors { c with
      nextNodeId := Int32.ofNat (nodes.length + 1) + 1
      registeredNodes := c.registeredNodes.insert (Int32.ofNat (nodes.length + 1))
        ⟨Int32.ofNat (nodes.length + 1), ep.address, ep.port⟩ } (nodes ++ [ep]) := by
  have hother : ∀ {i ep'}, nodes[i]? = some ep' → Int32.ofNat (i + 1) ≠ Int32.ofNat (nodes.length + 1) := by
    intro i ep' hi he
    have hlt := (List.getElem?_eq_some_iff.mp hi).1
    have := int32_ofNat_inj (by omega) (by omega) he
    omega
  refine ⟨?_, ?_, ?_, ?_, ?_⟩
  · rw [List.length_append, List.length_singleton, Int32.ofNat_add (nodes.length + 1)]
    rfl
  · intro i ep' hi
    rcases Nat.lt_or_ge i nodes.length with hlt | hge
    · rw [List.getElem?_append_left hlt] at hi
      rw [AList.lookup_insert_ne (hother hi)]
      exact h.known i ep' hi
    · rw [List.getElem?_append_right hge] at hi
      have hlast := (List.getElem?_eq_some_iff.mp hi).1
      rw [List.length_singleton] at hlast
      obtain rfl : i = nodes.length := by omega
      rw [Nat.sub_self] at hi
      cases hi
      exact AList.lookup_insert _
  · intro d info hl
    by_cases hd : d = Int32.ofNat (nodes.length + 1)
    · subst hd
      rw [AList.lookup_insert] at hl
      cases hl
      exact ⟨nodes.length, rfl, List.getElem?_concat_length⟩
    · rw [AList.lookup_insert_ne hd] at hl
      obtain ⟨i, rfl, hi⟩ := h.only d info hl
      refine ⟨i, rfl, ?_⟩
      rw [List.getElem?_append_left (List.getElem?_eq_some_iff.mp hi).1]
      exact hi
  · rw [← List.concat_eq_append]
    exact h.nodup.concat hnew
  · intro path fileMeta hfile chunk hchunk
    obtain ⟨d, hd, hl⟩ := h.placed path fileMeta hfile chunk hchunk
    exact ⟨d, hd, AList.lookup_isSome.mpr ((AList.mem_insert _).mpr (.inr (AList.lookup_isSome.mp hl)))⟩

/-! ## Uploads -/

section
variable {config : Endpoint → DataNodeConfig} {env : PutEnv}

theorem registryOf_unchanged (henv : ∀ i r, env.change i r = r) (c : Cluster) (i : Nat) :
    registryOf env c i = c.registeredNodes := by
  rw [registryOf, show env.change = fun _ r => r from funext fun i => funext (henv i), registryAt_unchanged]

/-- Chunks go to registered nodes. -/
theorem Mirrors.registered (h : Mirrors c nodes) (hfew : nodes.length < 2 ^ 31 - 1)
    (henv : ∀ i r, env.change i r = r) {i : Nat} {d : Int32} (hd : d ∈ placement env c i) :
    (c.registeredNodes.lookup d).isSome := by
  rw [placement, registryOf_unchanged henv] at hd
  have hperm := env.order_perm i c.registeredNodes
  have hfits : FitsInt (env.order i c.registeredNodes) := by
    rw [FitsInt, hperm.length_eq]
    exact Nat.lt_of_le_of_lt h.length_keys hfew
  exact AList.lookup_isSome.mpr (hperm.mem_iff.mp (mem_of_mem_selectNodes hfits hd))

theorem Mirrors.placement_eq_nil (h : Mirrors c nodes) (henv : ∀ i r, env.change i r = r) (i : Nat) :
    placement env c i = [] ↔ nodes = [] := by
  have hperm := env.order_perm i c.registeredNodes
  rw [← h.keys_eq_nil, placement, registryOf_unchanged henv]
  constructor
  · intro he
    by_contra hne
    have horder : ¬ (env.order i c.registeredNodes).isEmpty = true := by
      rw [List.isEmpty_iff]
      exact fun hnil => hne (hnil ▸ hperm).nil_eq.symm
    unfold selectNodesForReplication at he
    rw [if_neg (by decide), if_neg horder] at he
    cases he
  · intro he
    have horder : env.order i c.registeredNodes = [] := by
      rw [he] at hperm
      exact hperm.eq_nil
    rw [horder]
    rfl

/-- **Chunks are stored**, while there are nodes, and numbers datanodes can take. -/
theorem Mirrors.chunkOk (h : Mirrors c nodes) (hfew : nodes.length < 2 ^ 31 - 1) (henv : env.Healthy)
    (hne : nodes ≠ []) {i : Nat} (hnumber : chunkNumber c i < 2 ^ 31) : ChunkOk config env c i := by
  refine ⟨fun he => hne ((h.placement_eq_nil henv.change i).mp he), fun j hj => ?_⟩
  have hmem : (placement env c i).getD j 0 ∈ placement env c i := by
    rw [List.getD_eq_getElem?_getD, List.getElem?_eq_getElem hj]
    exact List.getElem_mem hj
  obtain ⟨info, hl⟩ := Option.isSome_iff_exists.mp (h.registered hfew henv.change hmem)
  rw [registryOf_unchanged henv.change, nodeOk_of_lookup hl, PutFault.answersOk, getChunkPath_chunkName,
    if_pos hnumber, henv.delivered i j, henv.opened i j]
  rfl

/-- Without nodes the first chunk is not placed. -/
theorem Mirrors.putFile_noNodes (h : Mirrors c []) (henv : ∀ i r, env.change i r = r)
    {reader : ServerReader PutFileRequest} (hacc : Accepted c.store reader.messages)
    (hdata : chunkCount (uploadData reader.messages) ≠ 0) :
    (putFile config env reader c).1 = noNodesAvailable := by
  obtain ⟨n, hn⟩ := Nat.exists_eq_succ_of_ne_zero hdata
  rw [putFile_accepted hacc, hn, putFileLoop_succ, putFileChunk_eq onPlan_start]
  have hnil : placement env (checked c reader.messages) 0 = [] := (h.placement_eq_nil henv 0).mpr rfl
  simp only [hnil, if_true]
  rfl

theorem Mirrors.putFile (h : Mirrors c nodes) (hfew : nodes.length < 2 ^ 31 - 1)
    (henv : ∀ i r, env.change i r = r) (reader : ServerReader PutFileRequest) :
    Mirrors (ToyDfs.putFile config env reader c).2.2 nodes := by
  obtain ⟨hregistry, hnext⟩ := @putFile_nodes config env henv reader c
  refine h.frame hregistry hnext fun path fileMeta hfile => ?_
  refine (of_findFile_putFileCall hfile).imp id ?_
  rintro ⟨rfl, hok⟩ chunk hchunk
  obtain ⟨i, hi, rfl⟩ := List.mem_map.mp hchunk
  obtain ⟨d, hd⟩ := List.exists_mem_of_ne_nil _ (hok i (List.mem_range.mp hi)).1
  exact ⟨d, hd, h.registered hfew henv hd⟩

end

end

/-! ## One command -/

/-- The answer is that of the reference, and the registry its list of nodes. -/
def AnswersAlike (config : Endpoint → DataNodeConfig) (buffer : Bytes) (w : Deployment) (r : Reference)
    (command : Command) : Prop :=
  (w.perform config buffer command).1 = (r.perform command).1 ∧
    Mirrors (w.perform config buffer command).2.cluster (r.perform command).2.nodes

section
variable {config : Endpoint → DataNodeConfig} {buffer : Bytes} {c : Cluster}
  {clock chunkIds nodeIds : Nat} {r : Reference} {s : System}

theorem Quiet.chunkNumber_lt (h : Quiet config c clock chunkIds nodeIds r.files s) {i : Nat}
    (hi : chunkIds + i < 2 ^ 31) : chunkNumber c i < 2 ^ 31 := by
  have hcounter := chunkIdCounter_of_reachable h.reachable
  have hdrawn := h.chunkIds
  have hsize : UInt64.size = 2 ^ 64 := rfl
  rw [h.cluster] at hcounter
  rw [chunkNumber, hcounter, ← UInt64.ofNat_add, UInt64.toNat_ofNat_of_lt' (by omega)]
  omega

/-- The call of an upload that is not broken. -/
theorem perform_putFile (c : Cluster) (clock : Nat) {content : Bytes} {filename : String}
    {stream : UploadStream} {env : PutEnv} (reader : ServerReader PutFileRequest)
    (hreader : reader = { messages := uploadMessages filename content }) (hintact : stream.Intact content) :
    (Deployment.mk c clock).perform config buffer (.putFile (some content) filename stream env) =
      (.put (some (finishUpload ((putFile config env reader c).1, (putFile config env reader c).2.1))),
        ⟨(putFile config env reader c).2.2, clock⟩) := by
  subst hreader
  have hfinish : ∀ e, stream.finish = some e → e.Own := by
    intro e he
    cases he.symm.trans hintact.1
  rcases uploadFile_cases config env stream hfinish buffer filename content c with
    ⟨-, hupload⟩ | ⟨hbroken, -⟩
  · rw [Deployment.perform, hupload]
  · exact absurd hintact hbroken

/-- **Uploads.** -/
theorem answersAlike_putFile (hq : Quiet config c clock chunkIds nodeIds r.files s)
    (hmir : Mirrors c r.nodes) (hfew : r.nodes.length < 2 ^ 31 - 1) (hn : nodeIds < 2 ^ 31 - 1)
    {content : Bytes} {filename : String} {stream : UploadStream} {env : PutEnv} (henv : env.Healthy)
    (hsize : content.length ≤ 2 ^ 31) (hintact : stream.Intact content)
    (hm : chunkIds + chunkCount content ≤ 2 ^ 31) :
    AnswersAlike config buffer ⟨c, clock⟩ r (.putFile (some content) filename stream env) := by
  let reader : ServerReader PutFileRequest := { messages := uploadMessages filename content }
  have hdata : uploadData reader.messages = content := uploadData_uploadMessages filename content
  have hfile := hq.file_none_iff (by omega) hn filename
  have hmirrors := @Mirrors.putFile c r.nodes config env hmir hfew henv.change reader
  rw [AnswersAlike, perform_putFile c clock reader rfl hintact, Reference.perform]
  by_cases hold : (r.files filename).isSome = true
  · -- the name is taken
    have hstatus := @putFile_exists config env reader c (List.cons_ne_nil _ _)
      ((hq.file_isSome_iff (by omega) hn filename).mp hold)
    rw [if_pos hold]
    exact ⟨by rw [hstatus]; rfl, hmirrors⟩
  · have hfree := hfile.mp (Option.not_isSome_iff_eq_none.mp hold)
    rw [if_neg hold]
    by_cases hname : filename = ""
    · have hstatus := @putFile_nameless config env reader c hname (hname ▸ hfree)
      rw [if_pos hname]
      exact ⟨by rw [hstatus]; rfl, hmirrors⟩
    · have hacc : Accepted c.store reader.messages := ⟨hname, hfree⟩
      rw [if_neg hname]
      by_cases hnone : r.nodes = [] ∧ content ≠ []
      · obtain ⟨hnil, hcontent⟩ := hnone
        have hcount : chunkCount (uploadData reader.messages) ≠ 0 := by
          rw [hdata]
          exact fun hzero => hcontent ((chunkCount_eq_zero hsize).mp hzero)
        have hstatus := @Mirrors.putFile_noNodes c config env (hnil ▸ hmir) henv.change reader hacc hcount
        rw [if_pos ⟨hnil, hcontent⟩]
        exact ⟨by rw [hstatus]; rfl, hmirrors⟩
      · have hok : ∀ k < chunkCount (uploadData reader.messages), ChunkOk config env c k := by
          intro k hk
          rw [hdata] at hk
          have hne : r.nodes ≠ [] := by
            intro hnil
            have hcontent : content = [] := by
              by_contra hcontent
              exact hnone ⟨hnil, hcontent⟩
            rw [(chunkCount_eq_zero hsize).mpr hcontent] at hk
            exact absurd hk (Nat.not_lt_zero k)
          exact hmir.chunkOk hfew henv hne (hq.chunkNumber_lt (by omega))
        have hrun := putFile_committed hacc hok
        rw [if_neg hnone]
        exact ⟨by simp only [hrun]; rfl, hmirrors⟩

/-- **Downloads.** -/
theorem answersAlike_getFile (hq : Quiet config c clock chunkIds nodeIds r.files s)
    (hmir : Mirrors c r.nodes) (hm : chunkIds < 2 ^ 64) (hn : nodeIds < 2 ^ 31 - 1) {filename : String}
    {env : GetEnv} (henv : env.Complete) (hup : env.AllAnswer) :
    AnswersAlike config buffer ⟨c, clock⟩ r (.getFile filename env .none) := by
  have hdata := hq.dataInv hm hn
  have hnodes := nodeInv_of_reachable hq.reachable (Nat.lt_of_le_of_lt hq.nodeIds hn)
  have hsmall := hq.small filename
  obtain ⟨-, rfl, -, -, -, -, -, hfiles, -⟩ := hq
  have hperform : (Deployment.mk s.toCluster clock).perform config buffer (.getFile filename env .none) =
      (.get (getFileSync (getFile config env filename s.toCluster).2.1
        (getFile config env filename s.toCluster).1),
        ⟨(getFile config env filename s.toCluster).2.2, clock⟩) := rfl
  have hmirrors : Mirrors (getFile config env filename s.toCluster).2.2 r.nodes := by
    rw [getFile_cluster]
    exact hmir.frame rfl rfl fun path fileMeta hfile => .inl hfile
  have hentry := hdata.entries filename
  rw [AnswersAlike, hperform, Reference.perform, ← hfiles, getFileSync_eq]
  rcases file_cases hdata filename with ⟨hfile, hfind, -⟩ | ⟨k, call, hlast, hput, hfile, -⟩
  · obtain ⟨hstatus, -⟩ := @getFile_absent config env filename s.toCluster hfind
    rw [hfile, hstatus]
    exact ⟨rfl, hmirrors⟩
  · rw [hlast] at hentry
    obtain ⟨call', hput', -, -, hlen, hfind, hchunks⟩ := hentry
    rw [hput] at hput'
    cases hput'
    obtain ⟨hstatus, hsent⟩ := @getFile_eq config env filename s.toCluster _ hfind
    obtain ⟨hok, hcontent⟩ := downloaded_of_chunks env (hsmall _ (hfiles ▸ hfile)) hlen
      (fun k chunk hk => by
        obtain ⟨d, hd, hl⟩ := hmir.placed filename _ hfind chunk (List.mem_of_getElem? hk)
        obtain ⟨j, hj, rfl⟩ := List.getElem_of_mem hd
        exact firstAnswer_of_holds hnodes (hchunks k chunk hk) (henv.reads k)
          ⟨j, _, List.getElem?_eq_getElem hj, hl, hup k j⟩) henv.writes
    rw [downloaded] at hcontent
    rw [hfile, hstatus, hsent, if_pos hok, hcontent]
    exact ⟨rfl, hmirrors⟩

/-- **Deletions.** -/
theorem answersAlike_deleteFile (hq : Quiet config c clock chunkIds nodeIds r.files s)
    (hmir : Mirrors c r.nodes) (hm : chunkIds < 2 ^ 64) (hn : nodeIds < 2 ^ 31 - 1) {filename : String}
    {delay : Nat} : AnswersAlike config buffer ⟨c, clock⟩ r (.deleteFile filename delay .none) := by
  have hfile := hq.file_none_iff hm hn filename
  rw [AnswersAlike, Deployment.perform, Reference.perform]
  cases hfind : c.store.findFile filename with
  | none =>
    have hrun : deleteFile filename clock (clock + delay : Nat) c =
        (fileNotFound, {}, { c with store := (c.store.getFile filename).2 }) := by
      rw [deleteFile]
      simp only [MetadataStore.getFile, hfind, Option.isNone_none, if_true]
    rw [hrun, hfile.mpr hfind]
    exact ⟨rfl, hmir.frame rfl rfl fun path fileMeta hfile => .inl hfile⟩
  | some fileMeta =>
    have hrun : deleteFile filename clock (clock + delay : Nat) c =
        (Status.OK, { success := true }, { c with
          store := (c.store.getFile filename).2.deletePath filename clock (clock + delay : Nat)
          running := true }) := by
      rw [deleteFile]
      simp only [MetadataStore.getFile, hfind, Option.isNone_some, Bool.false_eq_true, if_false]
    have hold : (r.files filename).isSome = true :=
      (hq.file_isSome_iff hm hn filename).mpr (by rw [hfind]; rfl)
    rw [hrun, if_pos hold]
    refine ⟨rfl, hmir.frame rfl rfl fun path m hfile => .inl ?_⟩
    exact (MetadataStore.of_findFile_deletePath hfile).2

/-- **Registrations.** -/
theorem answersAlike_registerDataNode (hmir : Mirrors c r.nodes) (hfew : r.nodes.length < 2 ^ 31 - 2)
    (peer : String) (port : Int32) :
    AnswersAlike config buffer ⟨c, clock⟩ r (.registerDataNode peer port) := by
  let ep : Endpoint := ⟨extractClientAddress peer, port⟩
  have hreference : r.perform (.registerDataNode peer port) =
      if ep ∈ r.nodes then (.registered (alreadyRegistered ep (Int32.ofNat (r.nodes.idxOf ep + 1))), r)
      else (.registered { success := true, nodeId := Int32.ofNat (r.nodes.length + 1) },
        { r with nodes := r.nodes ++ [ep] }) := rfl
  rw [AnswersAlike, Deployment.perform, hreference]
  by_cases hmem : ep ∈ r.nodes
  · have hrun : registerDataNode peer port c =
        (Status.OK, alreadyRegistered ep (Int32.ofNat (r.nodes.idxOf ep + 1)), c) := by
      unfold registerDataNode
      simp only [hmir.findConflict hmem, ep]
    rw [hrun, if_pos hmem]
    exact ⟨rfl, hmir⟩
  · have hrun := @registerDataNode_free peer port c
      fun hlisted => hmem ((hmir.listed_iff ep).mp hlisted)
    rw [hmir.next] at hrun
    rw [hrun, if_neg hmem]
    exact ⟨rfl, hmir.insert hmem hfew⟩

/-- **Every command.** -/
theorem answersAlike (hq : Quiet config c clock chunkIds nodeIds r.files s) (hmir : Mirrors c r.nodes)
    (hfew : r.nodes.length ≤ nodeIds) {command : Command} (hhealthy : command.Healthy)
    (hm : chunkIds + command.chunkIds ≤ 2 ^ 31) (hn : nodeIds + command.nodeIds < 2 ^ 31 - 1) :
    AnswersAlike config buffer ⟨c, clock⟩ r command := by
  cases command with
  | putFile file filename stream env =>
    cases file with
    | none => exact ⟨rfl, hmir⟩
    | some content =>
      obtain ⟨henv, hfile⟩ := hhealthy
      obtain ⟨hsize, hintact⟩ := hfile content rfl
      exact answersAlike_putFile hq hmir (by omega) (by omega) henv hsize hintact hm
  | getFile filename env rpc =>
    obtain ⟨hcomplete, hup, rfl⟩ := hhealthy
    exact answersAlike_getFile hq hmir (by omega) (by omega) hcomplete hup
  | deleteFile filename delay rpc =>
    cases hhealthy
    exact answersAlike_deleteFile hq hmir (by omega) (by omega)
  | registerDataNode peer port =>
    have hone : (Command.registerDataNode peer port).nodeIds = 1 := rfl
    exact answersAlike_registerDataNode hmir (by omega) peer port
  | unregisterDataNode nodeId =>
    have hlookup := hmir.lookup_nonpos (by omega) hhealthy
    have hrun : unregisterDataNode nodeId c = ({ code := .notFound, errorMessage := "Node not found" },
        { success := false, errorMessage := "Node ID " ++ toString nodeId ++ " not found in registry" },
        c) := by
      rw [unregisterDataNode, hlookup]
      rfl
    rw [AnswersAlike, Deployment.perform, hrun]
    exact ⟨rfl, hmir⟩
  | cleanupPass env =>
    rw [AnswersAlike, Deployment.perform]
    by_cases hrunning : c.running = true
    · rw [if_pos hrunning]
      refine ⟨rfl, hmir.frame (cleanupPass_registeredNodes config hhealthy clock c) rfl ?_⟩
      intro path fileMeta hfile
      rw [cleanupPass_findFile] at hfile
      exact .inl hfile
    · rw [if_neg hrunning]
      exact ⟨rfl, hmir⟩
  | wait d => exact ⟨rfl, hmir⟩
  | restart => exact ⟨rfl, mirrors_start c.disks⟩

end

/-! ## Top theorem -/

/-- What becomes of the files follows from the answer. -/
theorem Permitted.eq_reference {r : Reference} {command : Command} {files : Files}
    (h : Permitted r.files command (r.perform command).1 files) (hhealthy : command.Healthy) :
    files = (r.perform command).2.files := by
  generalize hanswer : (r.perform command).1 = answer at h
  cases h with
  | notOpened => rfl
  | uploaded =>
    rw [Reference.perform] at hanswer ⊢
    split_ifs at hanswer ⊢ <;> first | rfl | cases hanswer
  | fileExists content filename stream env hold => rw [Reference.perform, if_pos hold]
  | uploadFailed =>
    rw [Reference.perform] at hanswer ⊢
    split_ifs at hanswer ⊢ <;> first | rfl | cases hanswer
  | uploadCut content filename stream env what k hname hnew hbroken =>
    exact absurd (hhealthy.2 content rfl).2 hbroken
  | downloaded content filename env hfile => simp only [Reference.perform, hfile]
  | notFound filename env hnone => simp only [Reference.perform, hnone]
  | downloadFailed =>
    rw [Reference.perform]
    split <;> rfl
  | deleted filename delay hsome => rw [Reference.perform, if_pos hsome]
  | nothingToDelete filename delay hnone =>
    rw [Reference.perform, if_neg (Option.not_isSome_iff_eq_none.mpr hnone)]
  | deletionFailed filename delay rpc what hrpc => exact absurd hhealthy hrpc
  | deletedUnanswered filename delay rpc what hrpc => exact absurd hhealthy hrpc
  | registered =>
    rw [Reference.perform]
    split <;> rfl
  | unregistered => rfl
  | cleaned => rfl
  | waited => rfl
  | restarted => rfl

/-- The deployment has the files and the nodes of the reference. -/
structure Mimics (config : Endpoint → DataNodeConfig) (past : List Command) (w : Deployment)
    (r : Reference) : Prop where
  quiet : ∃ s, Quiet config w.cluster w.clock (past.map Command.chunkIds).sum
    (past.map Command.nodeIds).sum r.files s
  mirrors : Mirrors w.cluster r.nodes
  few : r.nodes.length ≤ (past.map Command.nodeIds).sum

theorem mimics_perform (config : Endpoint → DataNodeConfig) (buffer : Bytes) :
    Implements HealthySession (Mimics config) (Deployment.perform config buffer)
      fun r command answer r' => r.perform command = (answer, r') := by
  rintro past ⟨c, clock⟩ r command hsession ⟨⟨s, hs⟩, hmir, hfew⟩
  have hhealthy := hsession.healthy command (by simp)
  have hchunks := hsession.chunkIds
  have hnodes := hsession.nodeIds
  rw [List.map_append, List.sum_append, List.map_singleton, List.sum_singleton] at hchunks hnodes
  obtain ⟨hanswer, hmirrors⟩ :=
    @answersAlike config buffer c clock _ _ r s hs hmir hfew command hhealthy hchunks hnodes
  obtain ⟨files', hpermitted, t, ht⟩ := @performs config buffer c clock _ _ r.files s hs (by omega) (by omega)
    command hhealthy.sound
  rw [hanswer] at hpermitted
  rw [hpermitted.eq_reference hhealthy] at ht
  refine ⟨(r.perform command).2, by rw [hanswer], ⟨t, by simpa using ht⟩, hmirrors, ?_⟩
  rw [List.map_append, List.sum_append, List.map_singleton, List.sum_singleton]
  exact Nat.le_trans (Reference.length_nodes r command) (Nat.add_le_add_right hfew _)

/-- **Healthy sessions.**  A deployment in which nothing goes wrong answers every session as
the reference does. -/
theorem session_eq_reference (config : Endpoint → DataNodeConfig) (buffer : Bytes) (disks : Disks)
    (commands : List Command) (h : HealthySession commands) :
    (run (Deployment.perform config buffer) (.start disks) commands).1 =
      (run Reference.perform .empty commands).1 := by
  have hstart : Mimics config [] (.start disks) .empty :=
    ⟨exists_quiet_start config disks 0 0 0, mirrors_start disks, Nat.zero_le _⟩
  obtain ⟨r, hpermits, -⟩ :=
    (mimics_perform config buffer).run (fun past rest h => h.of_append) [] commands h hstart
  rw [permits_iff_run.mp hpermits]

/-- An upload is tried before there is a node, and again under a name in use. -/
def sevenCalls : List Command :=
  [.putFile (some [1, 2]) "f" {} (PutEnv.inOrder fun _ _ => {}), .registerDataNode "ipv4:a:1" 50,
    .registerDataNode "ipv4:a:2" 50, .putFile (some [1, 2]) "f" {} (PutEnv.inOrder fun _ _ => {}),
    .putFile (some []) "f" {} (PutEnv.inOrder fun _ _ => {}), .getFile "f" { fault := fun _ _ => {} } .none,
    .deleteFile "f" 7 .none]

theorem session_eq_reference_sevenCalls :
    (run (Deployment.perform plainConfig []) (.start fun _ _ => none) sevenCalls).1 =
      (run Reference.perform .empty sevenCalls).1 := by
  refine session_eq_reference plainConfig [] (fun _ _ => none) sevenCalls ⟨?_, by decide, by decide⟩
  have hput : (PutEnv.inOrder fun _ _ => {}).Healthy :=
    ⟨fun _ _ => rfl, fun _ _ => rfl, fun _ _ => rfl, fun _ _ _ _ => ⟨rfl, rfl⟩⟩
  have hintact : ∀ content, UploadStream.Intact {} content := fun _ => ⟨rfl, fun _ _ => rfl⟩
  intro command hc
  simp only [sevenCalls, List.mem_cons, List.not_mem_nil, or_false] at hc
  rcases hc with rfl | rfl | rfl | rfl | rfl | rfl | rfl
  · exact ⟨hput, fun content he => by cases he; exact ⟨by decide, hintact _⟩⟩
  · trivial
  · trivial
  · exact ⟨hput, fun content he => by cases he; exact ⟨by decide, hintact _⟩⟩
  · exact ⟨hput, fun content he => by cases he; exact ⟨by decide, hintact _⟩⟩
  · exact ⟨⟨fun _ _ _ _ => rfl, fun _ => rfl⟩, fun _ _ => rfl, rfl⟩
  · rfl

end ToyDfs
