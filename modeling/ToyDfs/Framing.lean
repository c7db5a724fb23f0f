import ToyDfs.Client
import ToyDfs.Upload

/-!
Files in messages of 4096 bytes.

`putFileSync` and `GetChunk` read a file with the same loop.  Both send its blocks
(`sendFile_eq`, `sendChunk_eq`), which are the file (`framed_readBlocks`), and `PutFile`
puts those of an upload together again (`framedUpload_of_sent`).
-/

namespace ToyDfs

open IStream

/-! ## Algorithm -/

/-- The body of `GetChunk`'s loop. -/
def writeChunk (write : Nat → Bool) (sent : List GetChunkResponse) (data : Bytes) :
    Except (Status × List GetChunkResponse) (List GetChunkResponse) :=
  if write sent.length then .ok (sent ++ [⟨data⟩])
  else .error (⟨.internal, "Write failed"⟩, sent)

/-- The rest of the file is sent without a look at what `Write` returns. -/
def writeRest (write : Nat → Bool) (sent : List GetChunkResponse) (data : Bytes) :
    Except (Status × List GetChunkResponse) (List GetChunkResponse) :=
  .ok (if write sent.length then sent ++ [⟨data⟩] else sent)

/-- `GetChunk` once the file is open: the status, and what was sent. -/
def sendChunk (write : Nat → Bool) (buffer content : Bytes) : Option (Status × List GetChunkResponse) :=
  (readLoop bufferSize (writeChunk write) (writeRest write) [] buffer { rest := content }).map fun
    | .error answer => answer
    | .ok sent => (Status.OK, sent)

/-! ## Messages -/

/-- Pieces of `content`, all full but the last. -/
structure Framed (content : Bytes) (pieces : List Bytes) : Prop where
  nonempty : ∀ data ∈ pieces, data ≠ []
  full : ∀ data ∈ pieces.dropLast, data.length = 4096
  short : ∀ data ∈ pieces, data.length ≤ 4096
  whole : pieces.flatten = content

/-- The name, then the file under that name; and what `PutFile` makes of it. -/
structure FramedUpload (filename : String) (content : Bytes) (messages : List PutFileRequest) : Prop where
  first : messages.head? = some ⟨filename, []⟩
  name : ∀ req ∈ messages.tail, req.filename = filename
  data : Framed content (messages.tail.map PutFileRequest.data)
  received : ∀ store : MetadataStore, readUpload messages true "" [] store =
    if (store.findFile filename).isSome then
      (.error { code := .alreadyExists, errorMessage := "File exists" }, (store.getFile filename).2)
    else (.ok (filename, content), (store.getFile filename).2)

/-- What the two loops send of a file, whatever is in their buffers at the start. -/
structure LoopsFrame (filename : String) (content : Bytes) : Prop where
  upload : ∃ messages, FramedUpload filename content messages ∧ ∀ buffer finish,
    putFileSync (some content) (fun _ => true) finish buffer filename =
      some (finishUpload (finish messages), messages)
  download : ∃ messages : List GetChunkResponse, Framed content (messages.map GetChunkResponse.data) ∧
    ∀ buffer, sendChunk (fun _ => true) buffer content = some (Status.OK, messages)

/-! ## Lemmas -/

theorem framed_readBlocks (content : Bytes) : Framed content (Blocks.readBlocks bufferSize content) where
  nonempty _ := Blocks.ne_nil_of_mem (by decide)
  full _ := Blocks.length_of_mem_dropLast (by decide)
  short _ := Blocks.length_le_of_mem (by decide)
  whole := Blocks.readBlocks_flatten bufferSize (by decide) content

theorem sendChunk_eq (buffer content : Bytes) :
    sendChunk (fun _ => true) buffer content =
      some (Status.OK, (Blocks.readBlocks bufferSize content).map GetChunkResponse.mk) := by
  have hbody : ∀ sent data, writeChunk (fun _ => true) sent data = .ok (sent ++ [⟨data⟩]) :=
    fun _ _ => rfl
  have hrest : ∀ sent data, writeRest (fun _ => true) sent data = .ok (sent ++ [⟨data⟩]) :=
    fun _ _ => rfl
  have hsent : (Blocks.readBlocks bufferSize content).foldl (fun sent data => sent ++ [⟨data⟩]) [] =
      (Blocks.readBlocks bufferSize content).map GetChunkResponse.mk := by
    rw [List.foldl_append_eq_append, List.nil_append]
    exact List.map_eq_flatMap.symm
  rw [sendChunk, readLoop_eq_ok (by decide) hbody hrest, hsent]
  rfl

/-- **GetChunk**: the loop is what `getChunk` answers with. -/
theorem getChunk_eq_sendChunk {config : DataNodeConfig} {fault : ReadFault} {chunkId path : String}
    {disk : Disk} {content : Bytes} (hpath : getChunkPath chunkId config = .ok path)
    (hopen : fault.openFails = false) (hdisk : disk path = some content) (buffer : Bytes) :
    sendChunk (fun _ => true) buffer (fault.visible content) = some (getChunk config fault chunkId disk) := by
  rw [sendChunk_eq, getChunk, hpath]
  simp only [hopen, hdisk, Bool.false_eq_true, if_false]

theorem framedUpload_of_sent (filename : String) (content : Bytes) :
    FramedUpload filename content
      (⟨filename, []⟩ :: (Blocks.readBlocks bufferSize content).map (PutFileRequest.mk filename)) := by
  have hdata : ((Blocks.readBlocks bufferSize content).map (PutFileRequest.mk filename)).map
      PutFileRequest.data = Blocks.readBlocks bufferSize content := by
    rw [List.map_map]
    exact List.map_id _
  refine ⟨rfl, ?_, ?_, ?_⟩
  · intro req hreq
    obtain ⟨data, -, rfl⟩ := List.mem_map.mp hreq
    rfl
  · rw [List.tail_cons, hdata]
    exact framed_readBlocks content
  · intro store
    rw [readUpload_first, uploadData, List.map_cons, List.flatten_cons, hdata,
      (framed_readBlocks content).whole, List.nil_append]

/-! ## Top theorem -/

/-- **The loops lose and invent nothing.** -/
theorem loopsFrame (filename : String) (content : Bytes) : LoopsFrame filename content where
  upload := by
    refine ⟨_, framedUpload_of_sent filename content, fun buffer finish => ?_⟩
    obtain ⟨up, hup, hsent⟩ := sendFile_eq filename buffer content
    rw [putFileSync, hup, ← hsent]
    rfl
  download := by
    refine ⟨_, ?_, fun buffer => sendChunk_eq buffer content⟩
    rw [List.map_map]
    show Framed content ((Blocks.readBlocks bufferSize content).map id)
    rw [List.map_id]
    exact framed_readBlocks content

end ToyDfs
