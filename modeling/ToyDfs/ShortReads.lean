import ToyDfs.NodeNames
import ToyDfs.ReadAfterWrite

/-!
How much a `GetFile` sends when the datanodes send what they like.

`FirstAnswersSent`: it succeeds iff some replica of every chunk answers OK and every
message is delivered, and sends for each chunk what the first such replica sent, be it
short or long.  So the file has its size when each of these has the length of its chunk
(`firstAnswersSent_of_reachable`), and not in general (`not_neverShort`).
-/

namespace ToyDfs

open Transition

/-! ## Uploads behind the files -/

/-- The active file `path` is what some upload of this content recorded. -/
def UploadedBy (s : System) (path : String) (fileMeta : FileMeta) (content : Bytes) : Prop :=
  ∃ h call, s.puts h = some call ∧ call.phase = .answered Status.OK { success := true } ∧
    uploadName call.messages = path ∧ uploadData call.messages = content ∧
    call.chunks.length = chunkCount content ∧
    fileMeta = { emptyMeta content.length with chunks := call.chunks }

/-- Active files are recorded by uploads, and uploads in progress stay within their
chunk count. -/
structure OriginInv (s : System) : Prop where
  room : ∀ h call, s.puts h = some call → call.inProgress →
    call.chunks.length + call.phase.chunkIds.length ≤ chunkCount (uploadData call.messages)
  files : ∀ path fileMeta, s.store.findFile path = some fileMeta → ∃ content, UploadedBy s path fileMeta content

section
variable {config : Endpoint → DataNodeConfig} {s t : System}

theorem originInv_start (disks : Disks) : OriginInv (.start disks) := by
  refine ⟨?_, ?_⟩
  · exact fun h call hput => nomatch hput
  · exact fun path fileMeta hf => nomatch hf

theorem UploadedBy.kept {path : String} {fileMeta : FileMeta} {content : Bytes}
    (h : UploadedBy s path fileMeta content)
    (hputs : ∀ k call, s.puts k = some call → ¬ call.inProgress → t.puts k = some call) :
    UploadedBy t path fileMeta content := by
  obtain ⟨k, call, hput, hphase, hrest⟩ := h
  exact ⟨k, call, hputs k call hput fun hprog => hprog _ _ hphase, hphase, hrest⟩

/-- Steps of other handlers, which bring no file. -/
theorem OriginInv.frame (h : OriginInv s) (hputs : t.puts = s.puts)
    (hfiles : ∀ path fileMeta, t.store.findFile path = some fileMeta →
      s.store.findFile path = some fileMeta) : OriginInv t := by
  refine ⟨?_, ?_⟩
  · rw [hputs]
    exact h.room
  · intro path fileMeta hf
    obtain ⟨content, hu⟩ := h.files path fileMeta (hfiles path fileMeta hf)
    exact ⟨content, hu.kept fun k call hput _ => by rw [hputs, hput]⟩

/-- Upload `k` takes a step. -/
theorem OriginInv.advance (h : OriginInv s) {k : Nat} {call' : PutCall}
    (hputs : t.puts = Function.update s.puts k (some call'))
    (hfiles : ∀ path, t.store.findFile path = s.store.findFile path)
    (hprog : ∀ call, s.puts k = some call → call.inProgress)
    (hroom : call'.inProgress →
      call'.chunks.length + call'.phase.chunkIds.length ≤ chunkCount (uploadData call'.messages)) :
    OriginInv t := by
  refine ⟨?_, ?_⟩
  · intro k' call hput hp
    rw [hputs] at hput
    rcases update_some_iff.mp hput with ⟨-, rfl⟩ | ⟨-, hput⟩
    · exact hroom hp
    · exact h.room k' call hput hp
  · intro path fileMeta hf
    rw [hfiles] at hf
    obtain ⟨content, hu⟩ := h.files path fileMeta hf
    refine ⟨content, hu.kept fun k' call hput hnot => ?_⟩
    have hne : k' ≠ k := by
      rintro rfl
      exact hnot (hprog call hput)
    rw [hputs, Function.update_of_ne hne, hput]

theorem originInv_move {a : Action} (hm : Move config s a t) (h : OriginInv s) : OriginInv t := by
  cases hm with
  | putStarted k messages hput =>
    exact h.advance rfl (fun _ => rfl) (fun _ ho => nomatch hput.symm.trans ho) fun _ => Nat.zero_le _
  | putFailed k call status store nextNodeIndex hput hprog hstatus hstore =>
    exact h.advance rfl hstore.findFile (prog_of_put hput hprog) fun hp => absurd rfl (hp _ _)
  | putAccepted k call store hput hphase hacc hstore =>
    have hprog := PutCall.inProgress_of_phase hphase rfl
    refine h.advance rfl hstore.findFile (prog_of_put hput hprog) fun _ => ?_
    have hroom := h.room k call hput hprog
    rwa [hphase] at hroom
  | putDrawn k call hput hphase hlt =>
    exact h.advance rfl (fun _ => rfl)
      (prog_of_put hput (PutCall.inProgress_of_phase hphase rfl)) fun _ => hlt
  | putPlaced k order call chunkId hput hphase horder hne =>
    have hprog := PutCall.inProgress_of_phase hphase rfl
    refine h.advance rfl (fun _ => rfl) (prog_of_put hput hprog) fun _ => ?_
    have hroom := h.room k call hput hprog
    rwa [hphase] at hroom
  | putStored k j call chunkId nodeIds results fault hput hphase hj hnew =>
    have hprog := PutCall.inProgress_of_phase hphase rfl
    refine h.advance rfl (fun _ => rfl) (prog_of_put hput hprog) fun _ => ?_
    have hroom := h.room k call hput hprog
    rwa [hphase] at hroom
  | putChunkDone k call chunkId nodeIds results hput hphase hok =>
    have hprog := PutCall.inProgress_of_phase hphase rfl
    refine h.advance rfl (fun _ => rfl) (prog_of_put hput hprog) fun _ => ?_
    have hroom := h.room k call hput hprog
    rw [hphase] at hroom
    simpa [PutPhase.chunkIds] using hroom
  | putCommitted k call hput hpass hphase hlen =>
    have hprog := PutCall.inProgress_of_phase hphase rfl
    have hroom := h.room k call hput hprog
    refine ⟨?_, ?_⟩
    · intro k' call' hput' hp
      rcases update_some_iff.mp hput' with ⟨-, rfl⟩ | ⟨-, hput'⟩
      · exact absurd rfl (hp _ _)
      · exact h.room k' call' hput' hp
    · intro path fileMeta hf
      rcases MetadataStore.of_findFile_putFile hf with ⟨rfl, hmeta⟩ | ⟨-, hf⟩
      · refine ⟨_, k, _, Function.update_self .., rfl, rfl, rfl, ?_, hmeta⟩
        show call.chunks.length = chunkCount (uploadData call.messages)
        omega
      · obtain ⟨content, hu⟩ := h.files path fileMeta hf
        refine ⟨content, hu.kept fun k' call' hput' hnot => ?_⟩
        have hne : k' ≠ k := by
          rintro rfl
          exact hnot (prog_of_put hput hprog call' hput')
        exact (Function.update_of_ne hne ..).trans hput'
  | deleteMoved d call store hold hanswer hstore =>
    exact h.frame rfl fun path fileMeta hf => hstore.findFile path ▸ hf
  | pathDeleted d path now hdel hpass hnow =>
    exact h.frame rfl fun q fileMeta hf => (MetadataStore.of_findFile_deletePath hf).2
  | _ => exact h.frame rfl fun _ _ hf => hf

theorem originInv_of_reachable {ok : System → Action → Prop}
    (hs : Reachable (System.step config) Initial ok s) : OriginInv s := by
  refine hs.invariant ?_ fun s a t _ _ ht h => originInv_move (step_move ht) h
  rintro s ⟨disks, rfl⟩
  exact originInv_start disks

end

/-! ## What is sent -/

/-- The first replica of the chunk that answers OK answers `x`. -/
def FirstAnswer (config : Endpoint → DataNodeConfig) (registry : Registry) (disks : Disks)
    (fault : Nat → GetFault) (chunk : ChunkInfo) (x : Bytes) : Prop :=
  ∃ j, replicaAnswer config registry disks fault chunk j = some x ∧
    ∀ j' < j, replicaAnswer config registry disks fault chunk j' = none

section
variable {config : Endpoint → DataNodeConfig} {registry : Registry} {disks : Disks}

theorem firstAnswer_of_eq_some {fault : Nat → GetFault} {chunk : ChunkInfo} {x : Bytes}
    (h : firstAnswer config registry disks fault chunk = some x) :
    FirstAnswer config registry disks fault chunk x := by
  rw [firstAnswer_client config registry disks (fun _ => fault) 0, AnyClient.firstAnswer_eq_some] at h
  exact h

/-- A `GetFile` of the file, in any behaviour of the datanodes. -/
structure FirstAnswersSent (config : Endpoint → DataNodeConfig) (registry : Registry) (disks : Disks)
    (env : GetEnv) (fileMeta : FileMeta) (content : Bytes) (status : Status) (sent : List GetFileResponse) :
    Prop where
  isOk_iff : status.isOk = true ↔ ∀ i chunk, fileMeta.chunks[i]? = some chunk →
    (∃ j, (replicaAnswer config registry disks (env.fault i) chunk j).isSome) ∧ env.write i = true
  count : status.isOk = true → sent.length = fileMeta.chunks.length
  first : status.isOk = true → ∀ i chunk, fileMeta.chunks[i]? = some chunk →
    ∃ x, sent[i]? = some ⟨x⟩ ∧ FirstAnswer config registry disks (env.fault i) chunk x
  /-- the file has its size when every chunk sent has its length -/
  total : status.isOk = true →
    (∀ i chunk x, fileMeta.chunks[i]? = some chunk →
      FirstAnswer config registry disks (env.fault i) chunk x → x.length = (chunkData content i).length) →
        ((downloaded sent).length : Int) = fileMeta.size.toInt

theorem firstAnswersSent_getFileLoop (env : GetEnv) {fileMeta : FileMeta} {content : Bytes}
    (hlen : content.length ≤ 2 ^ 31) (hcount : fileMeta.chunks.length = chunkCount content)
    (hsize : fileMeta.size = Int64.ofNat content.length) :
    FirstAnswersSent config registry disks env fileMeta content
      (getFileLoop config env registry disks 0 fileMeta.chunks).1
      (getFileLoop config env registry disks 0 fileMeta.chunks).2 := by
  have hmessages : (getFileLoop config env registry disks 0 fileMeta.chunks).1.isOk = true →
      ∀ i chunk, fileMeta.chunks[i]? = some chunk → ∃ x,
        (getFileLoop config env registry disks 0 fileMeta.chunks).2[i]? = some ⟨x⟩ ∧
        FirstAnswer config registry disks (env.fault i) chunk x := by
    intro hok i chunk hi
    obtain ⟨x, hx, hfirst⟩ := getFileLoop_message hok hi
    rw [Nat.zero_add] at hfirst
    exact ⟨x, hx, firstAnswer_of_eq_some hfirst⟩
  refine ⟨?_, getFileLoop_length, fun hok i chunk => hmessages hok i chunk, ?_⟩
  · rw [getFileLoop_isOk]
    simp only [Nat.zero_add, firstAnswer_isSome]
  · intro hok hall
    have hlengths : (getFileLoop config env registry disks 0 fileMeta.chunks).2.map
        (fun message => message.data.length) =
        (List.range (chunkCount content)).map fun i => (chunkData content i).length := by
      apply List.ext_getElem?
      intro i
      rw [List.getElem?_map, List.getElem?_map]
      by_cases hi : i < fileMeta.chunks.length
      · obtain ⟨x, hx, hfirst⟩ := hmessages hok i _ (List.getElem?_eq_getElem hi)
        rw [hx, List.getElem?_range (by omega), Option.map_some, Option.map_some,
          hall i _ x (List.getElem?_eq_getElem hi) hfirst]
      · rw [List.getElem?_eq_none (by rw [getFileLoop_length hok]; omega),
          List.getElem?_eq_none (by rw [List.length_range]; omega)]
        rfl
    have hdownloaded : (downloaded (getFileLoop config env registry disks 0 fileMeta.chunks).2).length =
        content.length := by
      calc (downloaded (getFileLoop config env registry disks 0 fileMeta.chunks).2).length
          = ((getFileLoop config env registry disks 0 fileMeta.chunks).2.map
              fun message => message.data.length).sum := by
            rw [downloaded, List.length_flatten, List.map_map]
            rfl
        _ = ((List.range (chunkCount content)).map (chunkData content)).flatten.length := by
            rw [hlengths, List.length_flatten, List.map_map]
            rfl
        _ = content.length := by rw [flatten_chunkData hlen]
    rw [hdownloaded, hsize, Int64.toInt_ofNat_of_lt (by omega)]

end

/-! ## Every behaviour of the datanodes -/

section
variable (config : Endpoint → DataNodeConfig) (s : System)

/-- `GetFile` from these disks, whatever has become of them. -/
def readFrom (disks : Disks) (env : GetEnv) (path : String) : Status × List GetFileResponse :=
  let result := getFile config env path { s.toCluster with disks := disks }
  (result.1, result.2.1)

/-- A `GetFile` that succeeds sends as much as was uploaded. -/
def NeverShort : Prop :=
  ∀ path fileMeta content, s.store.findFile path = some fileMeta → UploadedBy s path fileMeta content →
    content.length ≤ 2 ^ 31 → ∀ disks env, (readFrom config s disks env path).1.isOk = true →
      ((downloaded (readFrom config s disks env path).2).length : Int) = fileMeta.size.toInt

/-- What `GetFile` makes of the answers for an active file. -/
def SendsFirstAnswers : Prop :=
  ∀ path fileMeta, s.store.findFile path = some fileMeta → ∃ content,
    UploadedBy s path fileMeta content ∧ (content.length ≤ 2 ^ 31 → ∀ disks env,
      FirstAnswersSent config s.registeredNodes disks env fileMeta content
        (readFrom config s disks env path).1 (readFrom config s disks env path).2)

end

section
variable {config : Endpoint → DataNodeConfig} {s : System}

theorem readFrom_eq {path : String} {fileMeta : FileMeta} (h : s.store.findFile path = some fileMeta)
    (disks : Disks) (env : GetEnv) :
    readFrom config s disks env path = getFileLoop config env s.registeredNodes disks 0 fileMeta.chunks := by
  obtain ⟨hstatus, hsent⟩ := @getFile_eq config env path { s.toCluster with disks := disks } fileMeta h
  exact Prod.ext hstatus hsent

end

/-- **`GetFile` sends the first answers**, and succeeds iff there is one for every
chunk. -/
theorem firstAnswersSent_of_reachable (config : Endpoint → DataNodeConfig) (s : System)
    (hs : Reachable (System.step config) Initial (fun _ _ => True) s) : SendsFirstAnswers config s := by
  intro path fileMeta hf
  obtain ⟨content, hu⟩ := (originInv_of_reachable hs).files path fileMeta hf
  refine ⟨content, hu, fun hlen disks env => ?_⟩
  obtain ⟨h, call, -, -, -, -, hcount, hmeta⟩ := hu
  rw [readFrom_eq hf]
  refine firstAnswersSent_getFileLoop env hlen ?_ ?_
  · rw [hmeta]
    exact hcount
  · rw [hmeta]
    rfl

theorem reachable_oneFile {s : System}
    (h : exec (System.step plainConfig) (System.start fun _ _ => none) oneFile = some s) :
    Reachable (System.step plainConfig) Initial (fun _ _ => True) s :=
  Reachable.exec_of_forall oneFile (.init ⟨_, rfl⟩) (fun _ _ _ => trivial) h

theorem firstAnswersSent_oneFile : ∃ s,
    exec (System.step plainConfig) (System.start fun _ _ => none) oneFile = some s ∧
      (s.store.findFile "f").isSome ∧ SendsFirstAnswers plainConfig s := by
  have hrun : (exec (System.step plainConfig) (System.start fun _ _ => none) oneFile).map
      (fun s => (s.store.findFile "f").isSome) = some true := by
    decide
  obtain ⟨s, hs, hfile⟩ := Option.map_eq_some_iff.mp hrun
  exact ⟨s, hs, hfile, firstAnswersSent_of_reachable plainConfig s (reachable_oneFile hs)⟩

/-- The chunk files of the one-byte file are truncated. -/
theorem not_neverShort : ¬ ∀ s, Reachable (System.step plainConfig) Initial (fun _ _ => True) s →
    NeverShort plainConfig s := by
  intro hall
  have hids : (exec (System.step plainConfig) (System.start fun _ _ => none) oneFile).map
      (fun s => (s.chunkIdsDrawn, s.nodeIdsDrawn, lastWrite "f" s.log,
        (s.puts 0).map fun call => uploadData call.messages)) =
      some (1, 1, some (some 0), some [1]) := by decide
  have hread : (exec (System.step plainConfig) (System.start fun _ _ => none) oneFile).map
      (fun s => readFrom plainConfig s (fun _ _ => some []) { fault := fun _ _ => {} } "f") =
      some (Status.OK, [⟨[]⟩]) := by decide
  obtain ⟨s, hs, hids⟩ := Option.map_eq_some_iff.mp hids
  rw [hs, Option.map_some, Option.some.injEq] at hread
  simp only [Prod.mk.injEq] at hids
  obtain ⟨hchunks, hnodes, hlast, hcall⟩ := hids
  obtain ⟨call, hput, hdata⟩ := Option.map_eq_some_iff.mp hcall
  have honest : Reachable (System.step plainConfig) Initial Honest s :=
    Reachable.exec_of_forall oneFile (.init ⟨_, rfl⟩) honest_oneFile hs
  have hentry := (dataInv_of_reachable (fun _ _ h => h) honest
    ⟨by rw [hchunks]; decide, by rw [hnodes]; decide⟩).entries "f"
  rw [hlast] at hentry
  obtain ⟨call', hput', hphase, hname, hcount, hfile, -⟩ := hentry
  rw [hput] at hput'
  cases hput'
  rw [hdata] at hcount hfile
  have hsize := hall s (reachable_oneFile hs) "f" _ [1] hfile
    ⟨0, call, hput, hphase, hname, hdata, hcount, rfl⟩ (by decide) (fun _ _ => some [])
    { fault := fun _ _ => {} } (by rw [hread]; rfl)
  rw [hread] at hsize
  have hne : ((downloaded [⟨[]⟩]).length : Int) ≠ (emptyMeta [(1 : UInt8)].length).size.toInt := by decide
  exact hne hsize

end ToyDfs
