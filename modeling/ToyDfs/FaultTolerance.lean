import Mathlib.Data.Finset.Card
import ToyDfs.Placement
import ToyDfs.Registrations
import ToyDfs.UploadOutcomes
import ToyDfs.ReadAfterWrite

/-!
How many datanodes an uploaded file survives.

Each chunk is recorded on as many different nodes as there are, up to three
(`length_dedup_selectNodes`), so fewer outages than that leave one of its datanodes
(`exists_outside`), and that one answers with the chunk.
`toleratesFaults_of_fits`: `GetFile` then returns the file.  It takes a registry whose
size fits an `int` (`not_toleratesFaults_wrapped`).
-/

namespace ToyDfs

section
variable (config : Endpoint → DataNodeConfig) (env : PutEnv) (reader : ServerReader PutFileRequest)
  (c : Cluster)

/-! ## Statement -/

/-- At least `n` datanodes are registered, each of them once, whenever a chunk of the
file is stored. -/
structure EnoughNodes (n : Nat) : Prop where
  enough : ∀ i < chunkCount (uploadData reader.messages), n ≤ (registryOf env c i).keys.length
  distinct : ∀ i < chunkCount (uploadData reader.messages), DistinctEndpoints (registryOf env c i)

/-- Their number is an `int`, as `num_nodes` and the indices are. -/
def NodesFitInt : Prop :=
  ∀ i < chunkCount (uploadData reader.messages), FitsInt (registryOf env c i).keys

/-- The datanodes in `out` fail, and the others keep their data and their registration:
`d` is the state later on and `genv` what happens around the `GetFile`. -/
structure Outage (out : Finset Endpoint) (d : Cluster) (genv : GetEnv) : Prop where
  active : d.store.findFile (uploadName reader.messages) =
    (putFile config env reader c).2.2.store.findFile (uploadName reader.messages)
  delivered : ∀ i, genv.write i = true
  /-- not registered, or not answering OK -/
  failing : ∀ i j nodeId info, (placement env c i)[j]? = some nodeId →
    (registryOf env c i).lookup nodeId = some info → info.endpoint ∈ out →
      nodeAnswer config d.registeredNodes d.disks (genv.fault i j) (chunkName (chunkNumber c i)) nodeId = none
  others : ∀ i j nodeId info, (placement env c i)[j]? = some nodeId →
    (registryOf env c i).lookup nodeId = some info → info.endpoint ∉ out →
      d.registeredNodes.lookup nodeId = some info ∧
      stored (config info.endpoint) (d.disks info.endpoint) (chunkName (chunkNumber c i)) =
        stored (config info.endpoint) ((putFile config env reader c).2.2.disks info.endpoint)
          (chunkName (chunkNumber c i)) ∧
      (genv.fault i j).answers = true ∧ (genv.fault i j).Complete

/-- What a file uploaded to `n` datanodes withstands. -/
structure Withstands (n : Nat) : Prop where
  spread : ∃ fileMeta, (putFile config env reader c).2.2.store.findFile (uploadName reader.messages) =
      some fileMeta ∧
    ∀ chunk ∈ fileMeta.chunks, min 3 n ≤ chunk.nodeIds.dedup.length
  readable : ∀ out d genv, out.card < min 3 n → Outage config env reader c out d genv →
    (getFile config genv (uploadName reader.messages) d).1.isOk = true ∧
      downloaded (getFile config genv (uploadName reader.messages) d).2.1 = uploadData reader.messages

/-- A file uploaded to `n` datanodes withstands fewer than `min 3 n` outages. -/
def ToleratesFaults (n : Nat) : Prop :=
  1 ≤ n → (putFile config env reader c).1.isOk = true → (uploadData reader.messages).length ≤ 2 ^ 31 →
    (∀ i j, (env.fault i j).Complete) → EnoughNodes env reader c n → Withstands config env reader c n

end

section
variable {config : Endpoint → DataNodeConfig} {env : PutEnv} {reader : ServerReader PutFileRequest}
  {c : Cluster}

/-! ## Proof -/

/-- Fewer outages than a chunk has nodes leave one of its datanodes. -/
theorem exists_outside {nodeIds : List Int32} {registry : Registry} {out : Finset Endpoint}
    (hdistinct : DistinctEndpoints registry)
    (hreg : ∀ d ∈ nodeIds, ∃ info, registry.lookup d = some info)
    (hcard : out.card < nodeIds.dedup.length) :
    ∃ d ∈ nodeIds, ∃ info, registry.lookup d = some info ∧ info.endpoint ∉ out := by
  by_contra hnone
  have hin : ∀ d ∈ nodeIds, ∀ info, registry.lookup d = some info → info.endpoint ∈ out := by
    intro d hd info hl
    by_contra hout
    exact hnone ⟨d, hd, info, hl, hout⟩
  -- the endpoints of the nodes, one for each
  let place : Int32 → Endpoint := fun d => ((registry.lookup d).map DataNodeInfo.endpoint).getD ⟨"", 0⟩
  have hplace : ∀ d info, registry.lookup d = some info → place d = info.endpoint := by
    intro d info hl
    simp only [place, hl, Option.map_some, Option.getD_some]
  have hle : (nodeIds.toFinset.image place).card ≤ out.card := by
    refine Finset.card_le_card fun ep hep => ?_
    obtain ⟨d, hd, rfl⟩ := Finset.mem_image.mp hep
    obtain ⟨info, hl⟩ := hreg d (List.mem_toFinset.mp hd)
    rw [hplace d info hl]
    exact hin d (List.mem_toFinset.mp hd) info hl
  have hinj : (nodeIds.toFinset.image place).card = nodeIds.toFinset.card := by
    refine Finset.card_image_of_injOn fun d hd d' hd' he => ?_
    obtain ⟨info, hl⟩ := hreg d (List.mem_toFinset.mp hd)
    obtain ⟨info', hl'⟩ := hreg d' (List.mem_toFinset.mp hd')
    rw [hplace d info hl, hplace d' info' hl'] at he
    exact hdistinct d d' info info' hl hl' he
  rw [hinj, List.card_toFinset] at hle
  omega

/-- What chunk `i`'s nodes hold after the upload. -/
theorem stored_placement (hacc : Accepted c.store reader.messages)
    (hok : ∀ i < chunkCount (uploadData reader.messages), ChunkOk config env c i)
    (hcomplete : ∀ i j, (env.fault i j).Complete) {i : Nat}
    (hi : i < chunkCount (uploadData reader.messages)) {nodeId : Int32} (hn : nodeId ∈ placement env c i) :
    ∃ info, (registryOf env c i).lookup nodeId = some info ∧
      stored (config info.endpoint) ((putFile config env reader c).2.2.disks info.endpoint)
        (chunkName (chunkNumber c i)) = some (chunkData (uploadData reader.messages) i) := by
  obtain ⟨info, j, hl, hj⟩ := exists_decidingTask (hok i hi) hn
  refine ⟨info, hl, ?_⟩
  rw [putFile_stored hacc hok hi hj]
  -- the deciding write was answered OK, so it is complete
  obtain ⟨hjlt, info', hl', hep⟩ := decidingTask_spec hj
  have hnode := (hok i hi).2 j hjlt
  have hans : (env.fault i j).answersOk (config info'.endpoint) (chunkName (chunkNumber c i)) = true := by
    rwa [nodeOk, hl'] at hnode
  rw [PutFault.kept_eq (hcomplete i j) hans]

/-- **A chunk is read** while one of its datanodes is not out. -/
theorem firstAnswer_of_outage (hacc : Accepted c.store reader.messages)
    (hok : ∀ i < chunkCount (uploadData reader.messages), ChunkOk config env c i)
    (hcomplete : ∀ i j, (env.fault i j).Complete) {out : Finset Endpoint} {d : Cluster} {genv : GetEnv}
    (hout : Outage config env reader c out d genv) {i : Nat}
    (hi : i < chunkCount (uploadData reader.messages)) (hdistinct : DistinctEndpoints (registryOf env c i))
    (hcard : out.card < (placement env c i).dedup.length) :
    firstAnswer config d.registeredNodes d.disks (genv.fault i) (plannedChunk env c i) =
      some (chunkData (uploadData reader.messages) i) := by
  refine firstAnswer_eq ?_ ?_
  · intro j x hx
    obtain ⟨nodeId, hn, hx⟩ := Option.bind_eq_some_iff.mp hx
    obtain ⟨info, hl, hst⟩ := stored_placement hacc hok hcomplete hi (List.mem_of_getElem? hn)
    by_cases hin : info.endpoint ∈ out
    · exact nomatch (hout.failing i j nodeId info hn hl hin).symm.trans hx
    · obtain ⟨hreg, hkeep, -, hc⟩ := hout.others i j nodeId info hn hl hin
      refine nodeAnswer_of_stored (fun info' hl' => ?_) hc hx
      cases hreg.symm.trans hl'
      exact hkeep.trans hst
  · obtain ⟨nodeId, hmem, info, hl, hnot⟩ := exists_outside hdistinct
      (fun d hd => (stored_placement hacc hok hcomplete hi hd).imp fun _ h => h.1) hcard
    obtain ⟨j, hj, rfl⟩ := List.getElem_of_mem hmem
    have hget := List.getElem?_eq_getElem hj
    obtain ⟨hreg, hkeep, hans, -⟩ := hout.others i j _ info hget hl hnot
    obtain ⟨info', hl', hst⟩ := stored_placement hacc hok hcomplete hi hmem
    cases hl.symm.trans hl'
    have hsome : (stored (config info.endpoint) (d.disks info.endpoint)
        (chunkName (chunkNumber c i))).isSome = true := by
      rw [hkeep, hst]
      rfl
    refine ⟨j, ?_⟩
    show ((placement env c i)[j]?.bind _).isSome
    rw [hget, Option.bind_some]
    exact nodeAnswer_isSome hreg hsome hans

/-- Every chunk has as many different nodes as there are, up to three. -/
theorem placement_spread {n i : Nat} (hfits : FitsInt (registryOf env c i).keys)
    (hn : n ≤ (registryOf env c i).keys.length) : min 3 n ≤ (placement env c i).dedup.length := by
  have hperm := env.order_perm i (registryOf env c i)
  have hfit : FitsInt (env.order i (registryOf env c i)) := by
    unfold FitsInt
    rw [hperm.length_eq]
    exact hfits
  have hnodup := hperm.nodup_iff.mpr (registryOf env c i).keys_nodup
  have hmin := length_dedup_selectNodes hfit hnodup (c.nextNodeIndex + UInt32.ofNat i)
  rw [hperm.length_eq] at hmin
  exact Nat.le_trans (by omega) hmin

/-- **Tolerance of faults.** -/
theorem toleratesFaults_of_fits (config : Endpoint → DataNodeConfig) (env : PutEnv)
    (reader : ServerReader PutFileRequest) (c : Cluster) (n : Nat) (hfits : NodesFitInt env reader c) :
    ToleratesFaults config env reader c n := by
  intro _ hOk hsize hcomplete hnodes
  obtain ⟨hacc, hok⟩ := accepted_of_isOk hOk
  have hfile : (putFile config env reader c).2.2.store.findFile (uploadName reader.messages) =
      some (uploadMeta env c reader.messages) := by
    rw [putFile_committed hacc hok, MetadataStore.findFile_putFile]
  have hspread : ∀ i < chunkCount (uploadData reader.messages), min 3 n ≤ (placement env c i).dedup.length :=
    fun i hi => placement_spread (hfits i hi) (hnodes.enough i hi)
  refine ⟨⟨_, hfile, ?_⟩, ?_⟩
  · intro chunk hchunk
    obtain ⟨i, hi, rfl⟩ := List.mem_map.mp hchunk
    exact hspread i (List.mem_range.mp hi)
  · intro out d genv hcard hout
    have hactive := hout.active.trans hfile
    obtain ⟨hstatus, hsent⟩ := @getFile_eq config genv _ d _ hactive
    rw [hstatus, hsent]
    refine downloaded_of_chunks genv hsize ?_ ?_ hout.delivered
    · rw [uploadMeta, List.length_map, List.length_range]
    · intro i chunk hchunk
      simp only [uploadMeta, List.getElem?_map, Option.map_eq_some_iff] at hchunk
      obtain ⟨k, hk, rfl⟩ := hchunk
      obtain ⟨hlt, rfl⟩ := List.getElem?_eq_some_iff.mp hk
      rw [List.length_range] at hlt
      rw [List.getElem_range]
      exact firstAnswer_of_outage hacc hok hcomplete hout hlt (hnodes.distinct i hlt)
        (Nat.lt_of_lt_of_le hcard (hspread i hlt))

end

/-! ### Two datanodes -/

/-- Nothing changes and nothing fails. -/
def calm : PutEnv := .inOrder fun _ _ => {}

theorem registryOf_calm (c : Cluster) (i : Nat) : registryOf calm c i = c.registeredNodes :=
  registryAt_unchanged _ i

theorem distinctEndpoints_empty : DistinctEndpoints ∅ := by
  intro d d' info info' hl
  simp at hl

theorem distinctEndpoints_twoNodes : DistinctEndpoints twoNodes.registeredNodes := by
  refine distinctEndpoints_insert (distinctEndpoints_insert distinctEndpoints_empty ?_) ?_
  · intro d info hl
    simp at hl
  · intro d info hl
    by_cases hd : d = 1
    · subst hd
      rw [AList.lookup_insert] at hl
      cases hl
      decide
    · rw [AList.lookup_insert_ne hd] at hl
      simp at hl

/-- One of two datanodes may fail. -/
theorem withstands_twoNodes :
    Withstands (fun _ => {}) calm { messages := [⟨"f", [7]⟩] } twoNodes 2 := by
  have hlength : twoNodes.registeredNodes.keys.length = 2 := by decide
  have hfits : NodesFitInt calm { messages := [⟨"f", [7]⟩] } twoNodes := by
    intro i _
    unfold FitsInt
    rw [registryOf_calm, hlength]
    decide
  refine toleratesFaults_of_fits _ calm _ twoNodes 2 hfits (by decide) (by decide) (by decide)
    (fun _ _ _ _ => ⟨rfl, rfl⟩) ⟨fun i _ => ?_, fun i _ => ?_⟩
  · rw [registryOf_calm, hlength]
  · rw [registryOf_calm]
    exact distinctEndpoints_twoNodes

/-! ### Too many datanodes -/

/-- `size` nodes on one address, node `i` on port `i`. -/
def manyEntries (size : Nat) : List (Sigma fun _ : Int32 => DataNodeInfo) :=
  (List.range size).map fun i => ⟨Int32.ofNat i, ⟨Int32.ofNat i, "a", Int32.ofNat i⟩⟩

theorem keys_manyEntries (size : Nat) : (manyEntries size).keys = (List.range size).map Int32.ofNat := by
  rw [manyEntries, List.keys, List.map_map]
  rfl

theorem nodupKeys_manyEntries {size : Nat} (hsize : size ≤ 2 ^ 32) : (manyEntries size).NodupKeys := by
  rw [List.NodupKeys, keys_manyEntries]
  refine List.Nodup.map_on ?_ List.nodup_range
  intro i hi j hj he
  rw [List.mem_range] at hi hj
  have hmod := congrArg (fun d => d.toUInt32.toNat) he
  simp only [Int32.toUInt32_ofNat'] at hmod
  rw [UInt32.toNat_ofNat_of_lt' (Nat.lt_of_lt_of_le hi hsize),
    UInt32.toNat_ofNat_of_lt' (Nat.lt_of_lt_of_le hj hsize)] at hmod
  exact hmod

def manyNodes (size : Nat) (hsize : size ≤ 2 ^ 32) : Registry :=
  ⟨manyEntries size, nodupKeys_manyEntries hsize⟩

/-- A new coordinator with this many nodes. -/
def crowded (size : Nat) (hsize : size ≤ 2 ^ 32) : Cluster :=
  { Cluster.start (fun _ _ => none) with registeredNodes := manyNodes size hsize }

section
variable {size : Nat} {hsize : size ≤ 2 ^ 32}

theorem lookup_manyNodes {d : Int32} {info : DataNodeInfo} :
    (manyNodes size hsize).lookup d = some info ↔ ∃ i < size, d = Int32.ofNat i ∧ info = ⟨d, "a", d⟩ := by
  rw [← Option.mem_def, AList.mem_lookup_iff]
  show _ ∈ manyEntries size ↔ _
  simp only [manyEntries, List.mem_map, List.mem_range]
  constructor
  · rintro ⟨i, hi, he⟩
    cases he
    exact ⟨i, hi, rfl, rfl⟩
  · rintro ⟨i, hi, rfl, rfl⟩
    exact ⟨i, hi, rfl⟩

theorem distinctEndpoints_manyNodes : DistinctEndpoints (manyNodes size hsize) := by
  intro d d' info info' hl hl' he
  obtain ⟨-, -, -, rfl⟩ := lookup_manyNodes.mp hl
  obtain ⟨-, -, -, rfl⟩ := lookup_manyNodes.mp hl'
  exact congrArg Endpoint.port he

/-- With `2^32 - 1` nodes, all replicas go to the first of them. -/
theorem placement_crowded (h : size = 4294967295) :
    placement calm (crowded size hsize) 0 = List.replicate 3 0 := by
  have hkeys : (manyNodes size hsize).keys = (List.range size).map Int32.ofNat := keys_manyEntries size
  have hlen : (manyNodes size hsize).keys.length = 4294967295 := by
    rw [hkeys, List.length_map, List.length_range, h]
  have hfirst : (manyNodes size hsize).keys.getD 0 0 = 0 := by
    rw [hkeys, List.getD_eq_getElem?_getD, List.getElem?_map, List.getElem?_range (by omega)]
    rfl
  have hplace : placement calm (crowded size hsize) 0 =
      (selectNodesForReplication 3 (manyNodes size hsize).keys 0).1 := by
    unfold placement
    rw [registryOf_calm]
    rfl
  rw [hplace, selectNodes_wrapped hlen, hfirst]

theorem chunkOk_crowded (h : size = 4294967295) : ChunkOk (fun _ => {}) calm (crowded size hsize) 0 := by
  have hlookup : (crowded size hsize).registeredNodes.lookup 0 = some ⟨0, "a", 0⟩ :=
    (@lookup_manyNodes size hsize _ _).mpr ⟨0, by omega, rfl, rfl⟩
  refine ⟨by rw [placement_crowded h]; decide, fun j hj => ?_⟩
  rw [placement_crowded h, List.length_replicate] at hj
  have hnode : (placement calm (crowded size hsize) 0).getD j 0 = 0 := by
    rw [placement_crowded h, List.getD_eq_getElem?_getD, List.getElem?_replicate, if_pos hj]
    rfl
  have hanswers : PutFault.answersOk {} {} (chunkName 0) = true := by decide
  rw [hnode, registryOf_calm, nodeOk_of_lookup hlookup]
  exact hanswers

theorem not_toleratesFaults_crowded (h : size = 4294967295) :
    ¬ ToleratesFaults (fun _ => {}) calm { messages := [⟨"f", [7]⟩] } (crowded size hsize) 3 := by
  intro htolerates
  have hacc : Accepted (crowded size hsize).store [⟨"f", [7]⟩] := ⟨by decide, rfl⟩
  have hcount : chunkCount (uploadData [⟨"f", [7]⟩]) = 1 := by decide
  have hok : ∀ i < chunkCount (uploadData [⟨"f", [7]⟩]), ChunkOk (fun _ => {}) calm (crowded size hsize) i := by
    intro i hi
    rw [hcount, Nat.lt_one_iff] at hi
    rw [hi]
    exact chunkOk_crowded h
  have hput := @putFile_committed (fun _ => {}) calm { messages := [⟨"f", [7]⟩] } (crowded size hsize) hacc hok
  have henough : EnoughNodes calm { messages := [⟨"f", [7]⟩] } (crowded size hsize) 3 := by
    refine ⟨fun i _ => ?_, fun i _ => ?_⟩
    · rw [registryOf_calm]
      show 3 ≤ (manyEntries size).keys.length
      rw [keys_manyEntries, List.length_map, List.length_range]
      omega
    · rw [registryOf_calm]
      exact @distinctEndpoints_manyNodes size hsize
  obtain ⟨⟨fileMeta, hfile, hspread⟩, -⟩ := htolerates (by decide) (by rw [hput]; rfl) (by decide)
    (fun _ _ _ _ => ⟨rfl, rfl⟩) henough
  rw [hput, MetadataStore.findFile_putFile] at hfile
  cases hfile
  have hmem : plannedChunk calm (crowded size hsize) 0 ∈
      (uploadMeta calm (crowded size hsize) [⟨"f", [7]⟩]).chunks := by
    refine List.mem_map_of_mem ?_
    rw [List.mem_range, hcount]
    decide
  have hle := hspread _ hmem
  have hone : (plannedChunk calm (crowded size hsize) 0).nodeIds.dedup.length = 1 := by
    show (placement calm (crowded size hsize) 0).dedup.length = 1
    rw [placement_crowded h]
    decide
  omega

end

theorem not_toleratesFaults_wrapped :
    ¬ ∀ config env reader c n, ToleratesFaults config env reader c n := by
  intro hall
  have hsize : 4294967295 ≤ 2 ^ 32 := by omega
  exact @not_toleratesFaults_crowded 4294967295 hsize rfl (hall _ _ _ _ _)

end ToyDfs
