import ToyDfs.NodeIds
import ToyDfs.Placement
import ToyDfs.CheckThenAct

/-!
Node ids as names of datanodes.

`NodeNames`: the keys of the registry are the ids of their entries, every id lies
between 1 and `next_node_id_`, and no two registrations are handed the same one.
`RecordedNames`: a node id recorded in a chunk of an active file or tombstone is
not registered any more, or it still stands for the address and port it had when
the chunk was placed.  Both hold in every state of a run that drew fewer than
`2^31 - 1` node ids (`nodeNames_of_reachable`, `recordedNames_of_run`).

`ChunkInv` carries a fact about placements from the step that selects the nodes to
everything that records them (`chunkInv_move`).
-/

namespace ToyDfs

open Transition

/-! ## Ids -/

/-- The call has drawn this id, and still has it or was answered with it. -/
def RegisterCall.handed (call : RegisterCall) (nodeId : Int32) : Prop :=
  call.phase = .drawn nodeId ∨
    ∃ response, call.phase = .answered response ∧ response.success = true ∧ response.nodeId = nodeId

structure NodeNames (s : System) : Prop where
  key : ∀ d info, s.registeredNodes.lookup d = some info →
    info.nodeId = d ∧ 1 ≤ d.toInt ∧ d.toInt < s.nextNodeId.toInt
  handed_range : ∀ r call d, s.registers r = some call → call.handed d →
    1 ≤ d.toInt ∧ d.toInt < s.nextNodeId.toInt
  handed_once : ∀ r r' call call' d, s.registers r = some call → s.registers r' = some call' →
    call.handed d → call'.handed d → r = r'

section
variable {config : Endpoint → DataNodeConfig} {s t : System}

theorem nodeNames_start (disks : Disks) : NodeNames (.start disks) := by
  refine ⟨?_, fun r call d h => (nomatch h), fun r r' call call' d h => (nomatch h)⟩
  intro d info h
  simp [System.start, Cluster.start] at h

/-- A call that was handed no id moves on. -/
theorem nodeNames_setRegister {r : Nat} {call : RegisterCall} (h : NodeNames s)
    (hcall : ∀ d, ¬ call.handed d) : NodeNames (s.setRegister r call) := by
  have hold : ∀ r' call' d, (s.setRegister r call).registers r' = some call' → call'.handed d →
      s.registers r' = some call' := by
    intro r' call' d hr' hd
    rcases update_some_iff.mp hr' with ⟨-, rfl⟩ | ⟨-, hr'⟩
    · exact absurd hd (hcall d)
    · exact hr'
  refine ⟨h.key, ?_, ?_⟩
  · intro r' call' d hr' hd
    exact h.handed_range r' call' d (hold _ _ _ hr' hd) hd
  · intro r₁ r₂ call₁ call₂ d h₁ h₂ hd₁ hd₂
    exact h.handed_once r₁ r₂ call₁ call₂ d (hold _ _ _ h₁ hd₁) (hold _ _ _ h₂ hd₂) hd₁ hd₂

theorem nodeNames_registerDrawn {r : Nat} {ep : Endpoint} (h : NodeNames s) (hnodes : NodeInv s)
    (hb : s.nodeIdsDrawn + 1 < 2 ^ 31 - 1) :
    NodeNames ({ s with
      nextNodeId := s.nextNodeId + 1
      nodeIdsDrawn := s.nodeIdsDrawn + 1 }.setRegister r ⟨ep, .drawn s.nextNodeId⟩) := by
  have hnext := nextNodeId_toInt hnodes (by omega)
  have hnew := nextNodeId_toInt (@nodeInv_registerDrawn s r ep hnodes hb)
    (by show s.nodeIdsDrawn + 1 + 1 < 2 ^ 31; omega)
  have hgrow : (s.nextNodeId + 1).toInt = s.nextNodeId.toInt + 1 := by
    rw [hnext]
    exact hnew
  have hhanded : ∀ d, RegisterCall.handed ⟨ep, .drawn s.nextNodeId⟩ d → d = s.nextNodeId := by
    rintro d (hd | ⟨response, hd, -⟩)
    · injection hd with hd
      exact hd.symm
    · cases hd
  refine ⟨?_, ?_, ?_⟩
  · intro d info hl
    obtain ⟨hid, hpos, hlt⟩ := h.key d info hl
    refine ⟨hid, hpos, ?_⟩
    show d.toInt < (s.nextNodeId + 1).toInt
    omega
  · intro r' call d hr' hd
    show 1 ≤ d.toInt ∧ d.toInt < (s.nextNodeId + 1).toInt
    rcases update_some_iff.mp hr' with ⟨-, rfl⟩ | ⟨-, hr'⟩
    · rw [hhanded d hd]
      omega
    · obtain ⟨hpos, hlt⟩ := h.handed_range r' call d hr' hd
      omega
  · intro r₁ r₂ call₁ call₂ d h₁ h₂ hd₁ hd₂
    -- ids handed before are below the new one
    rcases update_some_iff.mp h₁ with ⟨he₁, rfl⟩ | ⟨-, h₁⟩
    · rcases update_some_iff.mp h₂ with ⟨he₂, rfl⟩ | ⟨-, h₂⟩
      · rw [he₁, he₂]
      · have hlt := (h.handed_range r₂ call₂ d h₂ hd₂).2
        rw [hhanded d hd₁] at hlt
        omega
    · rcases update_some_iff.mp h₂ with ⟨-, rfl⟩ | ⟨-, h₂⟩
      · have hlt := (h.handed_range r₁ call₁ d h₁ hd₁).2
        rw [hhanded d hd₂] at hlt
        omega
      · exact h.handed_once r₁ r₂ call₁ call₂ d h₁ h₂ hd₁ hd₂

theorem nodeNames_registered {r : Nat} {ep : Endpoint} {assignedId : Int32} (h : NodeNames s)
    (hreg : s.registers r = some ⟨ep, .drawn assignedId⟩) :
    NodeNames ({ s with
      registeredNodes := s.registeredNodes.insert assignedId
        { nodeId := assignedId, address := ep.address, port := ep.port }
      home := Function.update s.home assignedId (some ep) }.setRegister r
        ⟨ep, .answered { success := true, nodeId := assignedId }⟩) := by
  have hrange := h.handed_range r _ assignedId hreg (Or.inl rfl)
  -- the call keeps the id it was handed
  have hold : ∀ r' call' d, Function.update s.registers r
      (some ⟨ep, .answered { success := true, nodeId := assignedId }⟩) r' = some call' → call'.handed d →
        ∃ call'', s.registers r' = some call'' ∧ call''.handed d := by
    intro r' call' d hr' hd
    rcases update_some_iff.mp hr' with ⟨rfl, rfl⟩ | ⟨-, hr'⟩
    · refine ⟨_, hreg, ?_⟩
      rcases hd with hd | ⟨response, hd, -, hid⟩
      · cases hd
      · cases hd
        exact Or.inl (congrArg RegisterPhase.drawn hid)
    · exact ⟨call', hr', hd⟩
  refine ⟨?_, ?_, ?_⟩
  · intro d info hl
    by_cases hd : d = assignedId
    · subst hd
      simp only [System.setRegister, AList.lookup_insert, Option.some.injEq] at hl
      subst hl
      exact ⟨rfl, hrange⟩
    · simp only [System.setRegister, AList.lookup_insert_ne hd] at hl
      exact h.key d info hl
  · intro r' call' d hr' hd
    obtain ⟨call'', hr'', hd''⟩ := hold r' call' d hr' hd
    exact h.handed_range r' call'' d hr'' hd''
  · intro r₁ r₂ call₁ call₂ d h₁ h₂ hd₁ hd₂
    obtain ⟨call₁', h₁', hd₁'⟩ := hold r₁ call₁ d h₁ hd₁
    obtain ⟨call₂', h₂', hd₂'⟩ := hold r₂ call₂ d h₂ hd₂
    exact h.handed_once r₁ r₂ call₁' call₂' d h₁' h₂' hd₁' hd₂'

theorem nodeNames_move {a : Action} (hb : t.nodeIdsDrawn < 2 ^ 31 - 1) (hnodes : NodeInv s)
    (hm : Move config s a t) (h : NodeNames s) : NodeNames t := by
  cases hm with
  | registerMoved r call hcall hold hanswer =>
    refine nodeNames_setRegister h ?_
    rintro d (hd | ⟨response, hd, hsuccess, -⟩)
    · exact hcall d hd
    · rw [hanswer response hd] at hsuccess
      cases hsuccess
  | registerDrawn r ep hreg => exact nodeNames_registerDrawn h hnodes hb
  | registered r ep assignedId hreg => exact nodeNames_registered h hreg
  | unregistered nodeId =>
    refine ⟨?_, h.handed_range, h.handed_once⟩
    intro d info hl
    by_cases hd : d = nodeId
    · subst hd
      simp at hl
    · simp only [AList.lookup_erase_ne hd] at hl
      exact h.key d info hl
  | _ => exact ⟨h.key, h.handed_range, h.handed_once⟩

variable {ok : System → Action → Prop}

theorem nodeNames_of_reachable (hs : Reachable (System.step config) Initial ok s)
    (hb : s.nodeIdsDrawn < 2 ^ 31 - 1) : NodeNames s := by
  refine hs.invariant_within (B := fun s => s.nodeIdsDrawn < 2 ^ 31 - 1) ?_ ?_ ?_ hb
  · intro s a t ht hb
    exact Nat.lt_of_le_of_lt (nodeIdsDrawn_mono s a t ht) hb
  · rintro s ⟨disks, rfl⟩
    exact nodeNames_start disks
  · intro s a t hs _ ht hb h
    have hbs := Nat.lt_of_le_of_lt (nodeIdsDrawn_mono s a t ht) hb
    exact nodeNames_move hb (nodeInv_of_reachable hs hbs) (step_move ht) h

/-- **The registry is no larger than the ids drawn.** -/
theorem length_keys_le (h : NodeNames s) (hnodes : NodeInv s) (hb : s.nodeIdsDrawn < 2 ^ 31 - 1) :
    s.registeredNodes.keys.length ≤ s.nodeIdsDrawn := by
  have hnext := nextNodeId_toInt hnodes (by omega)
  have hrange : ∀ d ∈ s.registeredNodes.keys, 1 ≤ d.toInt ∧ d.toInt ≤ s.nodeIdsDrawn := by
    intro d hd
    obtain ⟨info, hl⟩ := Option.isSome_iff_exists.mp (AList.lookup_isSome.mpr (AList.mem_keys.mpr hd))
    obtain ⟨-, hpos, hlt⟩ := h.key d info hl
    omega
  have hnodup : (s.registeredNodes.keys.map fun d => d.toInt.toNat).Nodup := by
    refine List.Nodup.map_on ?_ s.registeredNodes.keys_nodup
    intro d hd d' hd' he
    have := hrange d hd
    have := hrange d' hd'
    exact Int32.toInt.inj (by omega)
  have hsub : (s.registeredNodes.keys.map fun d => d.toInt.toNat) ⊆ List.range' 1 s.nodeIdsDrawn := by
    intro n hn
    obtain ⟨d, hd, rfl⟩ := List.mem_map.mp hn
    have := hrange d hd
    exact List.mem_range'_1.mpr (by omega)
  have hle := (List.Nodup.subperm hnodup hsub).length_le
  rwa [List.length_map, List.length_range'] at hle

end

/-! ## What is recorded of placements -/

/-- Every placement the uploads, active files and tombstones record satisfies `Q`. -/
structure ChunkInv (Q : String → List Int32 → Prop) (s : System) : Prop where
  uploads : ∀ h call, s.puts h = some call → ∀ chunk ∈ call.chunks, Q chunk.chunkId chunk.nodeIds
  placed : ∀ h call chunkId nodeIds results, s.puts h = some call →
    call.phase = .placed chunkId nodeIds results → Q chunkId nodeIds
  files : ∀ path fileMeta, s.store.findFile path = some fileMeta → ∀ chunk ∈ fileMeta.chunks,
    Q chunk.chunkId chunk.nodeIds
  tombstones : ∀ x ∈ s.store.deletedEntries, ∀ chunk ∈ x.fileMeta.chunks, Q chunk.chunkId chunk.nodeIds

section
variable {config : Endpoint → DataNodeConfig} {s t : System} {Q : String → List Int32 → Prop}

theorem chunkInv_start (disks : Disks) : ChunkInv Q (.start disks) := by
  refine ⟨?_, ?_, ?_, ?_⟩
  · exact fun h call hput => nomatch hput
  · exact fun h call chunkId nodeIds results hput => nomatch hput
  · exact fun path fileMeta hf => nomatch hf
  · exact fun x hx => nomatch hx

theorem ChunkInv.frame (h : ChunkInv Q s) (hputs : t.puts = s.puts)
    (hfiles : ∀ path, t.store.findFile path = s.store.findFile path)
    (htombs : ∀ x ∈ t.store.deletedEntries, x ∈ s.store.deletedEntries) : ChunkInv Q t := by
  refine ⟨?_, ?_, ?_, fun x hx => h.tombstones x (htombs x hx)⟩
  · rw [hputs]
    exact h.uploads
  · rw [hputs]
    exact h.placed
  · intro path fileMeta hf
    rw [hfiles] at hf
    exact h.files path fileMeta hf

/-- An upload takes a step. -/
theorem ChunkInv.advance (h : ChunkInv Q s) {k : Nat} {call : PutCall}
    (hputs : t.puts = Function.update s.puts k (some call))
    (hfiles : ∀ path, t.store.findFile path = s.store.findFile path)
    (htombs : t.store.deletedEntries = s.store.deletedEntries)
    (hchunks : ∀ chunk ∈ call.chunks, Q chunk.chunkId chunk.nodeIds)
    (hplaced : ∀ chunkId nodeIds results, call.phase = .placed chunkId nodeIds results → Q chunkId nodeIds) :
    ChunkInv Q t := by
  refine ⟨?_, ?_, ?_, ?_⟩
  · intro k' c hput
    rw [hputs] at hput
    rcases update_some_iff.mp hput with ⟨-, rfl⟩ | ⟨-, hput⟩
    · exact hchunks
    · exact h.uploads k' c hput
  · intro k' c chunkId nodeIds results hput hphase
    rw [hputs] at hput
    rcases update_some_iff.mp hput with ⟨-, rfl⟩ | ⟨-, hput⟩
    · exact hplaced chunkId nodeIds results hphase
    · exact h.placed k' c chunkId nodeIds results hput hphase
  · intro path fileMeta hf
    rw [hfiles] at hf
    exact h.files path fileMeta hf
  · rw [htombs]
    exact h.tombstones

theorem ChunkInv.mono {Q' : String → List Int32 → Prop} (h : ChunkInv Q s)
    (hQ : ∀ chunkId nodeIds, Q chunkId nodeIds → Q' chunkId nodeIds) : ChunkInv Q' s :=
  ⟨fun k call hput chunk hc => hQ _ _ (h.uploads k call hput chunk hc),
    fun k call chunkId nodeIds results hput hp => hQ _ _ (h.placed k call chunkId nodeIds results hput hp),
    fun path fileMeta hf chunk hc => hQ _ _ (h.files path fileMeta hf chunk hc),
    fun x hx chunk hc => hQ _ _ (h.tombstones x hx chunk hc)⟩

/-- **One step** records nothing but the placement it makes. -/
theorem chunkInv_move {a : Action}
    (hnew : ∀ k order call chunkId, a = .putSelect k order → s.puts k = some call →
      call.phase = .drawn chunkId → order.Perm s.registeredNodes.keys →
        Q chunkId (selectNodesForReplication 3 order s.nextNodeIndex).1)
    (hm : Move config s a t) (h : ChunkInv Q s) : ChunkInv Q t := by
  cases hm with
  | putStarted k messages hput =>
    exact h.advance rfl (fun _ => rfl) rfl (fun _ hc => nomatch hc) fun _ _ _ => nofun
  | putFailed k call status store nextNodeIndex hput hprog hstatus hstore =>
    exact h.advance rfl hstore.findFile hstore.deletedEntries (h.uploads k call hput) fun _ _ _ => nofun
  | putAccepted k call store hput hphase hacc hstore =>
    exact h.advance rfl hstore.findFile hstore.deletedEntries (h.uploads k call hput) fun _ _ _ => nofun
  | putDrawn k call hput hphase hlt =>
    exact h.advance rfl (fun _ => rfl) rfl (h.uploads k call hput) fun _ _ _ => nofun
  | putPlaced k order call chunkId hput hphase horder hne =>
    refine h.advance rfl (fun _ => rfl) rfl (h.uploads k call hput) ?_
    intro _ _ _ hp
    cases hp
    exact hnew k order call chunkId rfl hput hphase horder
  | putStored k j call chunkId nodeIds results fault hput hphase hj hres =>
    refine h.advance rfl (fun _ => rfl) rfl (h.uploads k call hput) ?_
    intro _ _ _ hp
    cases hp
    exact h.placed k call chunkId nodeIds results hput hphase
  | putChunkDone k call chunkId nodeIds results hput hphase hok =>
    refine h.advance rfl (fun _ => rfl) rfl ?_ fun _ _ _ => nofun
    intro chunk hc
    rcases List.mem_append.mp hc with hc | hc
    · exact h.uploads k call hput chunk hc
    · rw [List.mem_singleton.mp hc]
      exact h.placed k call chunkId nodeIds results hput hphase
  | putCommitted k call hput hpass hphase hlen =>
    refine ⟨?_, ?_, ?_, h.tombstones⟩
    · intro k' c hput'
      rcases update_some_iff.mp hput' with ⟨-, rfl⟩ | ⟨-, hput'⟩
      · exact h.uploads k call hput
      · exact h.uploads k' c hput'
    · intro k' c chunkId nodeIds results hput' hp
      rcases update_some_iff.mp hput' with ⟨-, rfl⟩ | ⟨-, hput'⟩
      · cases hp
      · exact h.placed k' c chunkId nodeIds results hput' hp
    · intro path fileMeta hf
      rcases MetadataStore.of_findFile_putFile hf with ⟨-, rfl⟩ | ⟨-, hf⟩
      · exact h.uploads k call hput
      · exact h.files path fileMeta hf
  | deleteMoved d call store hold hanswer hstore =>
    refine h.frame rfl hstore.findFile fun x hx => ?_
    rwa [← hstore.deletedEntries]
  | pathDeleted d path now hdel hpass hnow =>
    refine ⟨h.uploads, h.placed, ?_, ?_⟩
    · intro q fileMeta hf
      exact h.files q fileMeta (MetadataStore.of_findFile_deletePath hf).2
    · intro x hx
      rcases MetadataStore.mem_deletedEntries_deletePath _ _ _ _ hx with hx | ⟨m, hm, rfl⟩
      · exact h.tombstones x hx
      · exact h.files path m hm
  | cleanupEnded now attempts hpass =>
    refine h.frame rfl (fun _ => rfl) fun x hx => ?_
    simp only [MetadataStore.deletedEntries_cleanupTombstones] at hx
    exact (List.mem_filter.mp hx).1
  | _ => exact h.frame rfl (fun _ => rfl) fun _ hx => hx

end

/-! ## Recorded ids -/

/-- In the run of `as` from `start` these nodes were selected for this chunk id, in
state `u`: they were registered, and have kept the addresses they had then. -/
def PlacedOn (config : Endpoint → DataNodeConfig) (start : System) (as : List Action) (s : System)
    (chunkId : String) (nodeIds : List Int32) : Prop :=
  ∃ before h order after u call, as = before ++ .putSelect h order :: after ∧
    exec (System.step config) start before = some u ∧ u.puts h = some call ∧ call.phase = .drawn chunkId ∧
    nodeIds = (selectNodesForReplication 3 order u.nextNodeIndex).1 ∧
    ∀ d ∈ nodeIds, ∃ info, u.registeredNodes.lookup d = some info ∧ s.home d = some info.endpoint

/-- The chunk is listed in an active file or a tombstone. -/
def Recorded (s : System) (chunk : ChunkInfo) : Prop :=
  (∃ path fileMeta, s.store.findFile path = some fileMeta ∧ chunk ∈ fileMeta.chunks) ∨
    ∃ x ∈ s.store.deletedEntries, chunk ∈ x.fileMeta.chunks

/-- The nodes of every recorded chunk were selected in a state `u` on the way from `start`
to `s`, and each of them is not registered now or still at the address and port it had
in `u`. -/
def RecordedNames (config : Endpoint → DataNodeConfig) (start : System) (as : List Action) (s : System) :
    Prop :=
  ∀ chunk, Recorded s chunk → ∃ before h order after u call, as = before ++ .putSelect h order :: after ∧
    exec (System.step config) start before = some u ∧ u.puts h = some call ∧
    call.phase = .drawn chunk.chunkId ∧
    chunk.nodeIds = (selectNodesForReplication 3 order u.nextNodeIndex).1 ∧
    ∀ d ∈ chunk.nodeIds, ∃ info, u.registeredNodes.lookup d = some info ∧
      (s.registeredNodes.lookup d = none ∨ ∃ info', s.registeredNodes.lookup d = some info' ∧
        info'.address = info.address ∧ info'.port = info.port)

section
variable {config : Endpoint → DataNodeConfig} {s t : System} {ok : System → Action → Prop}

/-- Ids keep the home they were handed to. -/
theorem home_kept {a : Action} (hnodes : NodeInv s) (hm : Move config s a t) {d : Int32} {ep : Endpoint}
    (hd : s.home d = some ep) : t.home d = some ep := by
  cases hm with
  | registered r ep' assignedId hreg =>
    have hne : d ≠ assignedId := by
      rintro rfl
      rw [(hnodes.pending r _ d hreg rfl).1] at hd
      cases hd
    exact (Function.update_of_ne hne ..).trans hd
  | _ => exact hd

theorem PlacedOn.step {start : System} {as : List Action} {a : Action} {chunkId : String}
    {nodeIds : List Int32} (hnodes : NodeInv s) (ht : s.step config a = some t)
    (h : PlacedOn config start as s chunkId nodeIds) : PlacedOn config start (as ++ [a]) t chunkId nodeIds := by
  obtain ⟨before, k, order, after, u, call, rfl, hu, hput, hphase, hids, hall⟩ := h
  refine ⟨before, k, order, after ++ [a], u, call, ?_, hu, hput, hphase, hids, ?_⟩
  · rw [List.append_assoc, List.cons_append]
  · intro d hd
    obtain ⟨info, hl, hhome⟩ := hall d hd
    exact ⟨info, hl, home_kept hnodes (step_move ht) hhome⟩

/-- Selected nodes are registered. -/
theorem lookup_of_selected (h : NodeNames s) (hnodes : NodeInv s) (hb : s.nodeIdsDrawn < 2 ^ 31 - 1)
    {order : List Int32} (horder : order.Perm s.registeredNodes.keys) {next : UInt32} {d : Int32}
    (hd : d ∈ (selectNodesForReplication 3 order next).1) :
    ∃ info, s.registeredNodes.lookup d = some info := by
  have hfits : FitsInt order := by
    unfold FitsInt
    rw [horder.length_eq]
    exact Nat.lt_of_le_of_lt (length_keys_le h hnodes hb) hb
  have hmem := horder.mem_iff.mp (mem_of_mem_selectNodes hfits hd)
  exact Option.isSome_iff_exists.mp (AList.lookup_isSome.mpr (AList.mem_keys.mpr hmem))

theorem placements_of_run (disks : Disks) (as : List Action)
    (hs : exec (System.step config) (System.start disks) as = some s) (hb : s.nodeIdsDrawn < 2 ^ 31 - 1) :
    ChunkInv (PlacedOn config (System.start disks) as s) s := by
  refine exec_history (P := fun as s => s.nodeIdsDrawn < 2 ^ 31 - 1 →
    ChunkInv (PlacedOn config (System.start disks) as s) s) (fun _ => chunkInv_start disks) ?_ as hs hb
  intro as a s t hs ht ih hb
  have hbs := Nat.lt_of_le_of_lt (nodeIdsDrawn_mono s a t ht) hb
  have hreach : Reachable (System.step config) Initial (fun _ _ => True) s :=
    Reachable.exec_of_forall as (.init ⟨disks, rfl⟩) (fun _ _ _ => trivial) hs
  have hnodes := nodeInv_of_reachable hreach hbs
  refine chunkInv_move ?_ (step_move ht) ((ih hbs).mono fun _ _ => PlacedOn.step hnodes ht)
  rintro k order call chunkId rfl hput hphase horder
  refine ⟨as, k, order, [], s, call, rfl, hs, hput, hphase, rfl, ?_⟩
  intro d hd
  obtain ⟨info, hl⟩ := lookup_of_selected (nodeNames_of_reachable hreach hbs) hnodes hbs horder hd
  exact ⟨info, hl, home_kept hnodes (step_move ht) (hnodes.registered d info hl)⟩

theorem recordedNames_of_run (disks : Disks) (as : List Action)
    (hs : exec (System.step config) (System.start disks) as = some s) (hb : s.nodeIdsDrawn < 2 ^ 31 - 1) :
    RecordedNames config (System.start disks) as s := by
  have hreach : Reachable (System.step config) Initial (fun _ _ => True) s :=
    Reachable.exec_of_forall as (.init ⟨disks, rfl⟩) (fun _ _ _ => trivial) hs
  have hnodes := nodeInv_of_reachable hreach hb
  have hplaced := placements_of_run disks as hs hb
  intro chunk hrec
  have hon : PlacedOn config (System.start disks) as s chunk.chunkId chunk.nodeIds := by
    rcases hrec with ⟨path, fileMeta, hf, hc⟩ | ⟨x, hx, hc⟩
    · exact hplaced.files path fileMeta hf chunk hc
    · exact hplaced.tombstones x hx chunk hc
  obtain ⟨before, h, order, after, u, call, has, hu, hput, hphase, hids, hall⟩ := hon
  refine ⟨before, h, order, after, u, call, has, hu, hput, hphase, hids, ?_⟩
  intro d hd
  obtain ⟨info, hl, hhome⟩ := hall d hd
  refine ⟨info, hl, ?_⟩
  cases hs' : s.registeredNodes.lookup d with
  | none => exact Or.inl rfl
  | some info' =>
    have he := hnodes.registered d info' hs'
    rw [hhome] at he
    injection he with he
    injection he with haddress hport
    exact Or.inr ⟨info', rfl, haddress.symm, hport.symm⟩

end

/-! ## Stable names -/

/-- What a refused registration and an unregistration of an unknown id change:
nothing. -/
structure RefusalsHarmless (s : System) : Prop where
  scan : ∀ r t, s.registerScan r = some t →
    t.registeredNodes = s.registeredNodes ∧ t.nextNodeId = s.nextNodeId
  refused : ∀ r ep response, s.registers r = some ⟨ep, .answered response⟩ →
    s.registerDraw r = none ∧ s.registerInsert r = none
  unknown : ∀ nodeId, s.registeredNodes.lookup nodeId = none → s.unregister nodeId = s

theorem refusalsHarmless (s : System) : RefusalsHarmless s := by
  refine ⟨?_, ?_, ?_⟩
  · intro r t ht
    unfold System.registerScan at ht
    split at ht
    · split at ht
      · cases ht
        exact ⟨rfl, rfl⟩
      · cases ht
        exact ⟨rfl, rfl⟩
    · cases ht
  · intro r ep response hr
    unfold System.registerDraw System.registerInsert
    rw [hr]
    exact ⟨rfl, rfl⟩
  · intro nodeId hnone
    unfold System.unregister unregisterDataNode
    rw [if_pos (by rw [hnone]; rfl)]

/-- **Node ids are stable names.** -/
theorem stableNames_of_run (config : Endpoint → DataNodeConfig) (disks : Disks) (as : List Action)
    (s : System) (hs : exec (System.step config) (System.start disks) as = some s)
    (hb : s.nodeIdsDrawn < 2 ^ 31 - 1) :
    NodeNames s ∧ RefusalsHarmless s ∧ RecordedNames config (System.start disks) as s := by
  have hreach : Reachable (System.step config) Initial (fun _ _ => True) s :=
    .exec_of_forall as (.init ⟨disks, rfl⟩) (fun _ _ _ => trivial) hs
  exact ⟨nodeNames_of_reachable hreach hb, refusalsHarmless s, recordedNames_of_run disks as hs hb⟩

/-- The file still lists nodes 2 and 1: node 2 is at `b`, node 1 is gone, and the datanode
at `a` is node 3. -/
theorem stableNames_restartedNode : ∃ s,
    exec (System.step plainConfig) (System.start fun _ _ => none) restartedNode = some s ∧
      s.store.findFile "f" = some ⟨1, chunkSize, [{ chunkId := "chunk_0", nodeIds := [1, 2, 1] }]⟩ ∧
      s.registeredNodes.lookup 1 = none ∧ s.registeredNodes.lookup 2 = some ⟨2, "ipv4:b", 60⟩ ∧
      s.registeredNodes.lookup 3 = some ⟨3, "ipv4:a", 50⟩ ∧ NodeNames s ∧ RefusalsHarmless s ∧
      RecordedNames plainConfig (System.start fun _ _ => none) restartedNode s := by
  have hrun : (exec (System.step plainConfig) (System.start fun _ _ => none) restartedNode).map
      (fun s => (s.nodeIdsDrawn, s.store.findFile "f", s.registeredNodes.lookup 1,
        s.registeredNodes.lookup 2, s.registeredNodes.lookup 3)) =
      some (3, some ⟨1, chunkSize, [{ chunkId := "chunk_0", nodeIds := [1, 2, 1] }]⟩, none,
        some ⟨2, "ipv4:b", 60⟩, some ⟨3, "ipv4:a", 50⟩) := by decide
  obtain ⟨s, hs, hstate⟩ := Option.map_eq_some_iff.mp hrun
  simp only [Prod.mk.injEq] at hstate
  obtain ⟨hdrawn, hfile, hgone, hkept, hback⟩ := hstate
  have hstable := stableNames_of_run plainConfig _ restartedNode s hs (by rw [hdrawn]; decide)
  exact ⟨s, hs, hfile, hgone, hkept, hback, hstable⟩

end ToyDfs
