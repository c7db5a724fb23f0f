import ToyDfs.Coordinator
import ToyDfs.Lib.IStream

/-!
`DFSClient`: how a file is uploaded, downloaded and deleted.

An upload sends the name alone, and then the file in pieces of 4096 bytes.  All these
messages are one request object, of which `set_data` changes the data only.  A download
puts the messages together.  What goes wrong comes out as an exception.

A call is what it exchanges with the coordinator: the messages of an upload, and a
function of them for its status and response; the messages and the status of a
download.
-/

namespace ToyDfs

open IStream

/-! ## Algorithm -/

/-- `std::runtime_error` and `std::system_error`. -/
inductive Exception
  | runtimeError (what : String)
  | systemError (errno : String) (what : String)
deriving DecidableEq, Repr

/-- An upload under way: the request object, and what was written. -/
structure Uploading where
  req : PutFileRequest
  sent : List PutFileRequest
deriving DecidableEq, Repr

/-- `req.set_data(buffer, file.gcount())`, and the request is written. -/
def Uploading.written (up : Uploading) (data : Bytes) : Uploading :=
  let req := { up.req with data := data }
  { req := req, sent := up.sent ++ [req] }

/-- `writer->Write(req)`, of which the `i`-th returns `write i`. -/
def writeData (write : Nat → Bool) (what : String) (up : Uploading) (data : Bytes) :
    Except (Exception × List PutFileRequest) Uploading :=
  if write up.sent.length then .ok (up.written data) else .error (.runtimeError what, up.sent)

/-- The messages of an upload. -/
def sendFile (write : Nat → Bool) (filename : String) (buffer content : Bytes) :
    Option (Except (Exception × List PutFileRequest) Uploading) :=
  let req : PutFileRequest := { filename := filename, data := [] }
  if !write 0 then some (.error (.runtimeError "Failed to send filename", []))
  else
    readLoop bufferSize (writeData write "Failed to send data chunk")
      (writeData write "Failed to send final data chunk") { req := req, sent := [req] } buffer
      { rest := content }

/-- The end of `putFileSync`. -/
def finishUpload (answer : Status × PutFileResponse) : Except Exception Unit :=
  let (status, resp) := answer
  if status.isOk && resp.success then .ok ()
  else if status.code = .alreadyExists then .error (.systemError "EEXIST" "File exists")
  else .error (.runtimeError status.errorMessage)

/-- The outcome, and the messages that were sent.  `file` is what is in the file, `none`
when it cannot be opened; `buffer` what is in the buffer at the start. -/
def putFileSync (file : Option Bytes) (write : Nat → Bool)
    (finish : List PutFileRequest → Status × PutFileResponse) (buffer : Bytes) (filename : String) :
    Option (Except Exception Unit × List PutFileRequest) :=
  match file with
  | none => some (.error (.runtimeError ("Failed to open file: " ++ filename)), [])
  | some content =>
    (sendFile write filename buffer content).map fun
      | .error (e, sent) => (.error e, sent)
      | .ok up => (finishUpload (finish up.sent), up.sent)

/-- `getFileSync`, when `Read` gives these messages and `Finish` this status. -/
def getFileSync (messages : List GetFileResponse) (status : Status) : Except Exception Bytes :=
  let content := messages.foldl (fun content resp => content ++ resp.data) []
  if status.isOk then .ok content
  else if status.code = .notFound then .error (.systemError "ENOENT" "No such file or directory")
  else .error (.runtimeError status.errorMessage)

/-- `deleteFileSync`, when the call is answered like this. -/
def deleteFileSync (answer : Status × DeleteFileResponse) : Except Exception Bool :=
  let (status, resp) := answer
  if status.isOk && resp.success then .ok true
  else if status.code = .notFound then .error (.systemError "ENOENT" "No such file or directory")
  else .error (.runtimeError
    ("gRPC error [" ++ toString status.code.toInt ++ "]: " ++ status.errorMessage))

/-! ## Lemmas -/

/-- Each message carries the name of the one before. -/
theorem sent_foldl_written (filename : String) (blocks : List Bytes) (up : Uploading)
    (hname : up.req.filename = filename) :
    (blocks.foldl Uploading.written up).sent = up.sent ++ blocks.map (PutFileRequest.mk filename) := by
  induction blocks generalizing up with
  | nil => exact (List.append_nil _).symm
  | cons data blocks ih =>
    have hsent : (up.written data).sent = up.sent ++ [⟨filename, data⟩] := by
      rw [← hname]
      rfl
    rw [List.foldl_cons, ih (up.written data) hname, hsent, List.append_assoc]
    rfl

theorem sendFile_eq (filename : String) (buffer content : Bytes) :
    ∃ up, sendFile (fun _ => true) filename buffer content = some (.ok up) ∧
      up.sent = ⟨filename, []⟩ ::
        (Blocks.readBlocks bufferSize content).map (PutFileRequest.mk filename) := by
  have hwrite : ∀ what up data, writeData (fun _ => true) what up data = .ok (up.written data) :=
    fun _ _ _ => rfl
  exact ⟨_, readLoop_eq_ok (by decide) (hwrite _) (hwrite _) _ buffer content,
    sent_foldl_written filename _ _ rfl⟩

theorem getFileSync_eq (messages : List GetFileResponse) (status : Status) :
    getFileSync messages status =
      if status.isOk then .ok (messages.map GetFileResponse.data).flatten
      else if status.code = .notFound then .error (.systemError "ENOENT" "No such file or directory")
      else .error (.runtimeError status.errorMessage) := by
  rw [getFileSync, List.foldl_append_eq_append, List.nil_append]

end ToyDfs
