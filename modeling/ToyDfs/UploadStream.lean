import ToyDfs.Framing

/-!
An upload whose stream may break.

`putFileSync` stops at the first `Write` that fails, or its `Finish` fails, and the
coordinator, which cannot tell, goes on with the messages it has got.  So the name may
come to denote the beginning of the file (`uploadData_broken`).

`uploadFile` is the whole of it, from the local file to the coordinator's answer
(`uploadFile_cases`).
-/

namespace ToyDfs

open IStream

/-! ## Algorithm -/

/-- The stream of an upload: what its `i`-th `Write` returns, the error its `Finish` comes
back with instead of an answer, and how many messages the coordinator reads when one of
them fails. -/
structure UploadStream where
  write : Nat → Bool := fun _ => true
  finish : Option RpcError := none
  delivered : Nat := 0

/-- `WritesDone` and `Finish`, when these messages were written: what comes back, and what
the coordinator has made of them. -/
def UploadStream.close (config : Endpoint → DataNodeConfig) (env : PutEnv) (stream : UploadStream)
    (sent : List PutFileRequest) (c : Cluster) : Status × PutFileResponse × Cluster :=
  match stream.finish with
  | none => putFile config env { messages := sent } c
  | some e =>
    (e.status, {}, (putFile config env { messages := sent.take stream.delivered, ended := .cancelled } c).2.2)

/-- `putFileSync`, and what the coordinator makes of it.  `file` and `buffer` are as
there. -/
def uploadFile (config : Endpoint → DataNodeConfig) (env : PutEnv) (stream : UploadStream)
    (buffer : Bytes) (filename : String) (file : Option Bytes) (c : Cluster) :
    Option (Except Exception Unit × Cluster) :=
  match file with
  | none => some (.error (.runtimeError ("Failed to open file: " ++ filename)), c)
  | some content =>
    (sendFile stream.write filename buffer content).map fun
      | .error (e, sent) =>
        let reader := { messages := sent.take stream.delivered, ended := .cancelled }
        (.error e, (putFile config env reader c).2.2)
      | .ok up =>
        let (status, resp, c) := stream.close config env up.sent c
        (finishUpload (status, resp), c)

/-! ## Lemmas -/

/-- All messages of an upload. -/
def uploadMessages (filename : String) (content : Bytes) : List PutFileRequest :=
  ⟨filename, []⟩ :: (Blocks.readBlocks bufferSize content).map (PutFileRequest.mk filename)

/-- No `Write` of the upload fails, and `Finish` does not either. -/
def UploadStream.Intact (stream : UploadStream) (content : Bytes) : Prop :=
  stream.finish = none ∧ ∀ i ≤ (Blocks.readBlocks bufferSize content).length, stream.write i = true

/-- The client sees what `putFileSync` gives it. -/
theorem uploadFile_putFileSync (config : Endpoint → DataNodeConfig) (env : PutEnv) (stream : UploadStream)
    (buffer : Bytes) (filename : String) (file : Option Bytes) (c : Cluster) :
    (uploadFile config env stream buffer filename file c).map Prod.fst =
      (putFileSync file stream.write
        (fun sent => ((stream.close config env sent c).1, (stream.close config env sent c).2.1)) buffer
        filename).map Prod.fst := by
  cases file with
  | none => rfl
  | some content =>
    simp only [uploadFile, putFileSync, Option.map_map]
    congr 1
    funext res
    cases res <;> rfl

/-- **The loop of an upload**: everything is written, or what comes before the first
`Write` that fails. -/
theorem foldlM_writeData (write : Nat → Bool) (n : Nat) (what last : String) (blocks : List Bytes)
    (up : Uploading) :
    ((∀ i < blocks.length, write (up.sent.length + i) = true) ∧
      blocks.foldlM (onBlock n (writeData write what) (writeData write last)) up =
        .ok (blocks.foldl Uploading.written up)) ∨
    ∃ k < blocks.length, ∃ e, write (up.sent.length + k) = false ∧
      blocks.foldlM (onBlock n (writeData write what) (writeData write last)) up =
        .error (.runtimeError e, ((blocks.take k).foldl Uploading.written up).sent) := by
  induction blocks generalizing up with
  | nil => exact .inl ⟨fun i hi => absurd hi (Nat.not_lt_zero i), rfl⟩
  | cons data blocks ih =>
    have hlen : (up.written data).sent.length = up.sent.length + 1 := by simp [Uploading.written]
    have hblock : ∃ e, onBlock n (writeData write what) (writeData write last) up data =
        if write up.sent.length then .ok (up.written data) else .error (.runtimeError e, up.sent) := by
      rw [onBlock]
      split
      · exact ⟨what, rfl⟩
      · exact ⟨last, rfl⟩
    obtain ⟨e, hblock⟩ := hblock
    rw [List.foldlM_cons, hblock]
    by_cases hw : write up.sent.length = true
    · rw [if_pos hw]
      rcases ih (up.written data) with ⟨hall, hrun⟩ | ⟨k, hk, e', hfail, hrun⟩
      · refine .inl ⟨?_, hrun⟩
        intro i hi
        cases i with
        | zero => exact hw
        | succ i =>
          have := hall i (by simpa using hi)
          rwa [hlen, Nat.add_assoc, Nat.add_comm 1 i] at this
      · refine .inr ⟨k + 1, by simpa using hk, e', ?_, hrun⟩
        rwa [hlen, Nat.add_assoc, Nat.add_comm 1 k] at hfail
    · rw [if_neg hw]
      exact .inr ⟨0, by simp, e, Bool.eq_false_iff.mpr hw, rfl⟩

/-- **What is sent.** -/
theorem sendFile_cases (write : Nat → Bool) (filename : String) (buffer content : Bytes) :
    ((∀ i ≤ (Blocks.readBlocks bufferSize content).length, write i = true) ∧
      ∃ up, sendFile write filename buffer content = some (.ok up) ∧
        up.sent = uploadMessages filename content) ∨
    ∃ k ≤ (Blocks.readBlocks bufferSize content).length, ∃ e, write k = false ∧
      sendFile write filename buffer content =
        some (.error (.runtimeError e, (uploadMessages filename content).take k)) := by
  let start : Uploading := { req := { filename := filename, data := [] }, sent := [⟨filename, []⟩] }
  have hsent : ∀ blocks : List Bytes, (blocks.foldl Uploading.written start).sent =
      ⟨filename, []⟩ :: blocks.map (PutFileRequest.mk filename) :=
    fun blocks => sent_foldl_written filename blocks start rfl
  by_cases hfirst : write 0 = true
  · have hloop : sendFile write filename buffer content =
        some ((Blocks.readBlocks bufferSize content).foldlM (onBlock bufferSize
          (writeData write "Failed to send data chunk") (writeData write "Failed to send final data chunk"))
            start) := by
      rw [sendFile]
      simp only [hfirst, Bool.not_true, Bool.false_eq_true, if_false]
      exact readLoop_eq (by decide) _ _ _ buffer content
    rcases foldlM_writeData write bufferSize "Failed to send data chunk" "Failed to send final data chunk"
      (Blocks.readBlocks bufferSize content) start with ⟨hall, hrun⟩ | ⟨k, hk, e, hfail, hrun⟩
    · refine .inl ⟨?_, _, hloop.trans (congrArg some hrun), hsent _⟩
      intro i hi
      cases i with
      | zero => exact hfirst
      | succ i =>
        have := hall i (by omega)
        rwa [Nat.add_comm] at this
    · refine .inr ⟨k + 1, hk, e, ?_, ?_⟩
      · rwa [Nat.add_comm]
      · rw [hloop, hrun, hsent, uploadMessages, List.take_succ_cons, ← List.map_take]
  · refine .inr ⟨0, Nat.zero_le _, "Failed to send filename", Bool.eq_false_iff.mpr hfirst, ?_⟩
    rw [sendFile]
    simp only [Bool.eq_false_iff.mpr hfirst, Bool.not_false, if_true, List.take_zero]

theorem uploadName_uploadMessages (filename : String) (content : Bytes) :
    uploadName (uploadMessages filename content) = filename := rfl

theorem uploadData_uploadMessages (filename : String) (content : Bytes) :
    uploadData (uploadMessages filename content) = content := by
  rw [uploadMessages, uploadData, List.map_cons, List.flatten_cons, List.nil_append, List.map_map]
  exact (congrArg List.flatten (List.map_id _)).trans (Blocks.readBlocks_flatten _ (by decide) content)

/-- **A broken upload** is one of the beginning of the file, or of nothing. -/
theorem uploadData_broken (filename : String) (content : Bytes) (k : Nat) :
    (uploadMessages filename content).take k = [] ∨
      ∃ m, uploadName ((uploadMessages filename content).take k) = filename ∧
        uploadData ((uploadMessages filename content).take k) = content.take (m * bufferSize) := by
  cases k with
  | zero => exact .inl rfl
  | succ k =>
    refine .inr ⟨k, rfl, ?_⟩
    rw [uploadMessages, List.take_succ_cons, uploadData, List.map_cons, List.flatten_cons, List.nil_append,
      ← List.map_take, List.map_map]
    exact (congrArg List.flatten (List.map_id _)).trans (Blocks.flatten_take_readBlocks (by decide) content k)

/-- What the client makes of the coordinator's answer. -/
theorem finishUpload_putFile (config : Endpoint → DataNodeConfig) (env : PutEnv)
    (reader : ServerReader PutFileRequest) (c : Cluster) (hne : reader.messages ≠ []) :
    let r := putFile config env reader c
    (r.1.isOk = true ∧ finishUpload (r.1, r.2.1) = .ok ()) ∨
    (r.1.isOk = false ∧ (c.store.findFile (uploadName reader.messages)).isSome ∧
      finishUpload (r.1, r.2.1) = .error (.systemError "EEXIST" "File exists")) ∨
    (r.1.isOk = false ∧ c.store.findFile (uploadName reader.messages) = none ∧
      finishUpload (r.1, r.2.1) = .error (.runtimeError r.1.errorMessage)) := by
  intro r
  cases hfile : c.store.findFile (uploadName reader.messages) with
  | some fileMeta =>
    have hstatus : r.1 = { code := .alreadyExists, errorMessage := "File exists" } :=
      putFile_exists hne (by rw [hfile]; rfl)
    refine .inr (.inl ⟨by rw [hstatus]; rfl, rfl, ?_⟩)
    rw [finishUpload, hstatus]
    rfl
  | none =>
    by_cases hname : uploadName reader.messages = ""
    · have hstatus : r.1 = { code := .invalidArgument, errorMessage := "Filename not provided" } :=
        putFile_nameless hname (hname ▸ hfile)
      refine .inr (.inr ⟨by rw [hstatus]; rfl, rfl, ?_⟩)
      rw [finishUpload, hstatus]
      rfl
    · have hanswer : (r.1 = Status.OK ∧ r.2.1.success = true) ∨ r.1.code = .internal :=
        putFile_accepted_answer ⟨hname, hfile⟩
      rcases hanswer with ⟨hok, hsuccess⟩ | hcode
      · refine .inl ⟨by rw [hok]; rfl, ?_⟩
        rw [finishUpload, hok, hsuccess]
        rfl
      · have hnot : r.1.isOk = false := by
          rw [Status.isOk, hcode]
          rfl
        refine .inr (.inr ⟨hnot, rfl, ?_⟩)
        rw [finishUpload]
        simp only [hnot, hcode, Bool.false_and, Bool.false_eq_true, if_false, reduceCtorEq]

/-- **An upload is intact or broken.**  A broken one throws a `std::runtime_error`, and the
coordinator has got the first messages of it. -/
theorem uploadFile_cases (config : Endpoint → DataNodeConfig) (env : PutEnv) (stream : UploadStream)
    (hfinish : ∀ e, stream.finish = some e → e.Own) (buffer : Bytes) (filename : String) (content : Bytes)
    (c : Cluster) :
    (stream.Intact content ∧
      uploadFile config env stream buffer filename (some content) c =
        let (status, resp, c) := putFile config env { messages := uploadMessages filename content } c
        some (finishUpload (status, resp), c)) ∨
    (¬ stream.Intact content ∧ ∃ what k,
      uploadFile config env stream buffer filename (some content) c =
        some (.error (.runtimeError what), (putFile config env
          { messages := (uploadMessages filename content).take k, ended := .cancelled } c).2.2)) := by
  rcases sendFile_cases stream.write filename buffer content with
    ⟨hwrites, up, hsend, hsent⟩ | ⟨k, hk, e, hfail, hsend⟩
  · cases hfin : stream.finish with
    | none =>
      refine .inl ⟨⟨hfin, hwrites⟩, ?_⟩
      simp only [uploadFile, hsend, Option.map_some, UploadStream.close, hfin, hsent]
    | some e =>
      have herror : finishUpload (e.status, {}) = .error (.runtimeError e.status.errorMessage) := by
        rw [finishUpload]
        simp only [e.notOk, (hfinish e hfin).2, Bool.false_and, Bool.false_eq_true, if_false]
      refine .inr ⟨fun hintact => ?_, e.status.errorMessage, stream.delivered, ?_⟩
      · cases hfin.symm.trans hintact.1
      · simp only [uploadFile, hsend, Option.map_some, UploadStream.close, hfin, hsent, herror]
  · refine .inr ⟨fun hintact => ?_, e, min stream.delivered k, ?_⟩
    · rw [hintact.2 k hk] at hfail
      cases hfail
    · simp only [uploadFile, hsend, Option.map_some, List.take_take]

end ToyDfs
