import ToyDfs.HandlerRuns
import ToyDfs.ReadAfterWrite
import ToyDfs.UploadOutcomes

/-!
What a client has of a file when its download fails.

`GetFile` sends a chunk as soon as it has read it, and ends at the first one that no
replica answers or that it cannot send.  When the answers are complete, what was sent
by then is the beginning of the file, up to a chunk boundary (`sendsBeginning_of_reachable`).
-/

namespace ToyDfs

open Transition

/-- `sent` are the first chunks of `content`, and all of them iff the status is OK. -/
structure BeginningSent (content : Bytes) (status : Status) (sent : List GetFileResponse) : Prop where
  chunks : sent.map GetFileResponse.data =
    (List.range sent.length).map (Blocks.block (1024 * 1024) content)
  whole : status.isOk = true ↔ sent.length = chunkCount content
  beginning : downloaded sent = content.take (sent.length * (1024 * 1024))

section
variable {config : Endpoint → DataNodeConfig}

/-! ## One GetFile -/

section
variable {registry : Registry} {disks : Disks} {chunks : List ChunkInfo} {content : Bytes}

/-- Either all chunks are sent, or `GetFile` fails at one of them. -/
theorem getFileLoop_isOk_iff (env : GetEnv) :
    (getFileLoop config env registry disks 0 chunks).1.isOk = true ↔
      (getFileLoop config env registry disks 0 chunks).2.length = chunks.length := by
  refine ⟨getFileLoop_length, ?_⟩
  intro hlen
  rw [getFileLoop_client] at hlen ⊢
  rcases @AnyClient.getFileLoop_end (stubClient config disks env.fault) registry env.write chunks 0 with
    ⟨-, hok⟩ | ⟨k, chunk, hk, hchunk, -, -⟩
  · rw [hok]
    rfl
  · have hlt := (List.getElem?_eq_some_iff.mp hchunk).1
    omega

/-- **The beginning of the file**, when no answer is anything but the chunk. -/
theorem beginningSent (env : GetEnv) (hlen : content.length ≤ 2 ^ 31)
    (hcount : chunks.length = chunkCount content)
    (hdata : ∀ k chunk x, chunks[k]? = some chunk →
      firstAnswer config registry disks (env.fault k) chunk = some x → x = chunkData content k) :
    BeginningSent content (getFileLoop config env registry disks 0 chunks).1
      (getFileLoop config env registry disks 0 chunks).2 := by
  have hchunks : (getFileLoop config env registry disks 0 chunks).2.map GetFileResponse.data =
      (List.range (getFileLoop config env registry disks 0 chunks).2.length).map
        (Blocks.block (1024 * 1024) content) := by
    apply List.ext_getElem?
    intro k
    rw [List.getElem?_map, List.getElem?_map]
    cases hk : (getFileLoop config env registry disks 0 chunks).2[k]? with
    | none =>
      have hge := List.getElem?_eq_none_iff.mp hk
      rw [List.getElem?_eq_none (by rw [List.length_range]; exact hge)]
      rfl
    | some resp =>
      have hlt := (List.getElem?_eq_some_iff.mp hk).1
      rw [getFileLoop_client] at hk
      obtain ⟨chunk, hchunk, hfirst, -⟩ := AnyClient.getFileLoop_sent hk
      rw [Nat.zero_add] at hfirst
      have hslice := hdata k chunk resp.data hchunk hfirst
      have hk' : k < chunkCount content := hcount ▸ (List.getElem?_eq_some_iff.mp hchunk).1
      rw [List.getElem?_range hlt, Option.map_some, Option.map_some, hslice, chunkData_eq_block hlen hk']
  refine ⟨hchunks, ?_, ?_⟩
  · rw [getFileLoop_isOk_iff, hcount]
  · rw [downloaded, hchunks, Blocks.flatten_blocks_take]

end

/-- Of a file whose last write is the upload `h`, for any run of honest datanodes. -/
theorem beginningSent_of_lastWrite {s : System} (hs : Reachable (System.step config) Initial Honest s)
    (hb : WithinCounters s) {path : String} {h : Nat} {call : PutCall}
    (hlast : lastWrite path s.log = some (some h)) (hput : s.puts h = some call)
    (hsize : (uploadData call.messages).length ≤ 2 ^ 31) (env : GetEnv)
    (henv : ∀ i j, (env.fault i j).Complete) :
    BeginningSent (uploadData call.messages) (getFile config env path s.toCluster).1
      (getFile config env path s.toCluster).2.1 := by
  have hdata := dataInv_of_reachable (fun _ _ h => h) hs hb
  have hnodes := nodeInv_of_reachable hs hb.2
  have hentry := hdata.entries path
  rw [hlast] at hentry
  obtain ⟨call', hput', -, -, hlen, hfile, hchunks⟩ := hentry
  rw [hput] at hput'
  cases hput'
  obtain ⟨hstatus, hsent⟩ : (getFile config env path s.toCluster).1 = _ ∧
      (getFile config env path s.toCluster).2.1 = _ := getFile_eq hfile
  rw [hstatus, hsent]
  refine beginningSent env hsize hlen ?_
  intro k chunk x hk hfirst
  obtain ⟨j, -, hj⟩ := List.exists_of_findSome?_eq_some hfirst
  exact answer_of_holds hnodes (hchunks k chunk hk) (henv k) hj

/-! ## Top theorem -/

/-- `GetFile` of an active file sends its beginning, whatever fails. -/
def SendsBeginning (config : Endpoint → DataNodeConfig) (s : System) : Prop :=
  ∀ path h call, lastWrite path s.log = some (some h) → s.puts h = some call →
    (uploadData call.messages).length ≤ 2 ^ 31 →
      ∀ env : GetEnv, (∀ i j, (env.fault i j).Complete) →
        BeginningSent (uploadData call.messages) (getFile config env path s.toCluster).1
          (getFile config env path s.toCluster).2.1

/-- **Partial reads.** -/
theorem sendsBeginning_of_reachable (config : Endpoint → DataNodeConfig) (s : System)
    (hs : Reachable (System.step config) Initial Honest s) (hb : WithinCounters s) :
    SendsBeginning config s := by
  intro path h call hlast hput hsize env henv
  exact beginningSent_of_lastWrite hs hb hlast hput hsize env henv

/-! ### Two chunks -/

/-- 1 MiB and one byte. -/
def twoChunks : Bytes := List.replicate 1048577 7

theorem length_twoChunks : twoChunks.length = 1048577 := List.length_replicate

theorem chunkCount_twoChunks : chunkCount twoChunks = 2 := by
  rw [chunkCount_eq (by rw [length_twoChunks]; omega), length_twoChunks]

/-- Nobody answers for the second chunk. -/
def secondLost : GetEnv where
  fault i _ := if i = 1 then { rpc := .requestLost .unavailable } else {}

/-- The file `f` of two chunks, uploaded to one datanode. -/
theorem exists_twoChunks : ∃ s call fileMeta first second, Reachable (System.step plainConfig) Initial Honest s ∧
    WithinCounters s ∧ lastWrite "f" s.log = some (some 0) ∧ s.puts 0 = some call ∧
    uploadData call.messages = twoChunks ∧ s.store.findFile "f" = some fileMeta ∧
    fileMeta.chunks = [first, second] ∧ first.nodeIds = [1, 1, 1] ∧
    (s.registeredNodes.lookup 1).isSome := by
  have hrun : (exec (System.step plainConfig) (System.start fun _ _ => none) oneNode).map
      (fun s => ((s.puts 0).isNone, s.pass, s.chunkIdsDrawn, s.nodeIdsDrawn)) = some (true, none, 0, 1) := by
    decide
  have hplan : (exec (System.step plainConfig) (System.start fun _ _ => none) oneNode).map
      (fun s => (s.store.findFile "f", (s.registeredNodes.lookup 1).isSome,
        [0, 1].map (placement (.inOrder fun _ _ => {}) s.toCluster))) =
      some (none, true, [[1, 1, 1], [1, 1, 1]]) := by decide
  have hanswers : (exec (System.step plainConfig) (System.start fun _ _ => none) oneNode).map
      (fun s => [0, 1].map fun i => [0, 1, 2].map fun j =>
        nodeOk plainConfig (registryOf (.inOrder fun _ _ => {}) s.toCluster i) {}
          (chunkName (chunkNumber s.toCluster i)) ((placement (.inOrder fun _ _ => {}) s.toCluster i).getD j 0)) =
      some [[true, true, true], [true, true, true]] := by decide
  obtain ⟨s, hs, hrun⟩ := Option.map_eq_some_iff.mp hrun
  rw [hs, Option.map_some, Option.some.injEq] at hplan hanswers
  simp only [Prod.mk.injEq, List.map_cons, List.map_nil, List.cons.injEq, and_true] at hrun hplan hanswers
  obtain ⟨hnew, hidle, hchunks, hnodes⟩ := hrun
  obtain ⟨hfree, hreg, hplace0, hplace1⟩ := hplan
  obtain ⟨⟨h00, h01, h02⟩, h10, h11, h12⟩ := hanswers
  have hreach : Reachable (System.step plainConfig) Initial Honest s := by
    refine Reachable.exec_of_forall oneNode (.init ⟨_, rfl⟩) (fun a ha => ?_) hs
    exact fun u => honest_oneFile a (by simp only [oneFile, List.append_assoc, List.mem_append, ha, true_or]) u
  let messages : List PutFileRequest := [⟨"f", twoChunks⟩]
  have hdata : uploadData messages = twoChunks := List.append_nil _
  let u := s.setPut 0 { messages := messages }
  have hstart : s.step plainConfig (.startPut 0 messages) = some u := by
    simp only [System.step, System.startPut, Option.isNone_iff_eq_none.mp hnew, u]
  have hacc : Accepted u.store messages := ⟨by decide, hfree⟩
  have hok : ∀ k < chunkCount (uploadData messages), ChunkOk plainConfig (.inOrder fun _ _ => {}) u.toCluster k := by
    intro k hk
    rw [hdata, chunkCount_twoChunks] at hk
    have hthree : ∀ j < 3, j = 0 ∨ j = 1 ∨ j = 2 := by omega
    rcases (show k = 0 ∨ k = 1 by omega) with rfl | rfl
    · refine ⟨?_, fun j hj => ?_⟩
      · rw [show placement _ u.toCluster 0 = _ from hplace0]
        exact List.cons_ne_nil _ _
      · rw [show placement _ u.toCluster 0 = _ from hplace0] at hj
        rcases hthree j hj with rfl | rfl | rfl
        · exact h00
        · exact h01
        · exact h02
    · refine ⟨?_, fun j hj => ?_⟩
      · rw [show placement _ u.toCluster 1 = _ from hplace1]
        exact List.cons_ne_nil _ _
      · rw [show placement _ u.toCluster 1 = _ from hplace1] at hj
        rcases hthree j hj with rfl | rfl | rfl
        · exact h10
        · exact h11
        · exact h12
  have hput : u.puts 0 = some { messages := messages } := by
    simp only [u, System.setPut, Function.update_self]
  obtain ⟨chunks, drawn, log, hdrawn, hlog, hsteps⟩ := @run_putFile plainConfig (.inOrder fun _ _ => {}) u 0
    (fun _ _ => rfl) { messages := messages } hput hidle
  have hown : ∀ a, Action.ofPut (.inOrder fun _ _ => {}) 0 a → ∀ v, Honest v a := by
    intro a ha v
    cases a with
    | putStore i j fault =>
      obtain ⟨-, i', j', rfl⟩ := ha
      exact fun _ _ => ⟨rfl, rfl⟩
    | _ => trivial
  have hrun := @putFile_committed plainConfig (.inOrder fun _ _ => {}) { messages := messages } u.toCluster
    hacc hok
  rw [hrun] at hlog hsteps
  obtain ⟨replaced, rfl⟩ : ∃ replaced, log = .committed 0 "f" replaced :: u.log := hlog
  refine ⟨_, _, uploadMeta (.inOrder fun _ _ => {}) u.toCluster messages,
    plannedChunk (.inOrder fun _ _ => {}) u.toCluster 0, plannedChunk (.inOrder fun _ _ => {}) u.toCluster 1,
    reachable_of_runsTo (.step (.startPut 0 messages) hreach trivial hstart) hsteps hown, ⟨?_, ?_⟩,
    lastWrite_committed 0 replaced u.log rfl, puts_atPut, hdata, MetadataStore.findFile_putFile .., ?_, hplace0, ?_⟩
  · rw [hdata, chunkCount_twoChunks] at hdrawn
    have hle : drawn ≤ s.chunkIdsDrawn + 2 := hdrawn
    show drawn < 2 ^ 64
    omega
  · show s.nodeIdsDrawn < 2 ^ 31 - 1
    omega
  · simp only [uploadMeta, hdata, chunkCount_twoChunks]
    rfl
  · have hkept := (@putFile_nodes plainConfig (.inOrder fun _ _ => {}) (fun _ _ => rfl)
      { messages := messages } u.toCluster).1
    rw [hrun] at hkept
    exact (congrArg (fun registry => (registry.lookup 1).isSome) hkept).trans hreg

theorem nodeAnswer_secondLost {registry : Registry} {disks : Disks} {j : Nat} {chunkId : String}
    {nodeId : Int32} : nodeAnswer plainConfig registry disks (secondLost.fault 1 j) chunkId nodeId = none := by
  unfold nodeAnswer
  cases registry.lookup nodeId with
  | none => rfl
  | some info => rfl

theorem complete_secondLost (i j : Nat) : (secondLost.fault i j).Complete := by
  intro _ _
  by_cases hi : i = 1
  · simp only [secondLost, hi, if_true]
  · simp only [secondLost, hi, if_false]

/-- The second read fails: the client has the first chunk, and an error. -/
theorem sendsBeginning_secondLost : ∃ s, Reachable (System.step plainConfig) Initial Honest s ∧
    (getFile plainConfig secondLost "f" s.toCluster).1.isOk = false ∧
    downloaded (getFile plainConfig secondLost "f" s.toCluster).2.1 = twoChunks.take (1024 * 1024) := by
  obtain ⟨s, call, fileMeta, first, second, hreach, hb, hlast, hput, hdata, hfile, htwo, hplaced, hreg⟩ :=
    exists_twoChunks
  have hsize : (uploadData call.messages).length ≤ 2 ^ 31 := by
    rw [hdata, length_twoChunks]
    omega
  have hbeginning := sendsBeginning_of_reachable plainConfig s hreach hb "f" 0 call hlast hput hsize
    secondLost complete_secondLost
  obtain ⟨call', hput', -, -, -, hfile', hstored⟩ : Uploaded plainConfig s "f" 0 := by
    have hentry := (dataInv_of_reachable (fun _ _ h => h) hreach hb).entries "f"
    rwa [hlast] at hentry
  cases hfile.symm.trans hfile'
  have hread : firstAnswer plainConfig s.registeredNodes s.disks (secondLost.fault 0) first = some _ :=
    firstAnswer_of_holds (nodeInv_of_reachable hreach hb.2)
      (hstored 0 first (by rw [show call'.chunks = _ from htwo]; rfl)) (fun _ _ _ => rfl)
      ⟨0, 1, by rw [hplaced]; rfl, hreg, rfl⟩
  have hlost : ¬ ((firstAnswer plainConfig s.registeredNodes s.disks (secondLost.fault 1) second).isSome ∧
      secondLost.write 1 = true) := by
    rintro ⟨hsome, -⟩
    obtain ⟨j, hj⟩ := firstAnswer_isSome.mp hsome
    obtain ⟨x, hx⟩ := Option.isSome_iff_exists.mp hj
    obtain ⟨nodeId, -, hx⟩ := Option.bind_eq_some_iff.mp hx
    cases nodeAnswer_secondLost.symm.trans hx
  rw [firstAnswer_client] at hread hlost
  obtain ⟨hstatus, hsent⟩ := @getFile_eq plainConfig secondLost "f" s.toCluster _ hfile
  rw [htwo, getFileLoop_client, AnyClient.getFileLoop_answered hread rfl] at hstatus hsent
  obtain ⟨hcode, hnone⟩ := @AnyClient.getFileLoop_failed _ _ secondLost.write second [] 1 hlost
  have hone : (getFile plainConfig secondLost "f" s.toCluster).2.1.length = 1 := by
    rw [hsent, hnone]
    rfl
  refine ⟨s, hreach, ?_, ?_⟩
  · rw [hstatus, Status.isOk, hcode]
    rfl
  · rw [hbeginning.beginning, hone, hdata, Nat.one_mul]

end

end ToyDfs
