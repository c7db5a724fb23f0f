import Mathlib.Logic.Function.Basic
import ToyDfs.Grpc
import ToyDfs.ChunkPath
import ToyDfs.Lib.Blocks

/-!
The datanode service and the stub wrapper through which the coordinator calls it.

A `Disk` maps paths to the files a datanode keeps.  The handlers `putChunk`,
`getChunk` and `deleteChunk` take what the disk does to them as an argument
(`WriteFault`, `ReadFault`, an errno text); the stub functions add what the
transport does (`RpcFault`).

* `stubPutChunk_other`: a `PutChunk` touches only the file of its chunk id.
* `stubPutChunk_stored`, `PutFault.kept_eq`: a `PutChunk` stores what its write
  fault keeps, and that is all the data when it is complete and answered OK.
* `stubGetChunk_complete`: an answered, complete `GetChunk` returns exactly the
  file.
-/

namespace ToyDfs

/-- The files of one datanode, by the path they are opened under.  Paths are not resolved:
two strings that lead to one file are two entries. -/
abbrev Disk := String → Option Bytes

/-! ## Algorithm: PutChunk -/

structure PutChunkRequest where
  chunkId : String
  data : Bytes
deriving DecidableEq, Repr

structure PutChunkResponse where
  success : Bool := false
deriving DecidableEq, Repr

/-- What the disk does to the `ofstream` of one `PutChunk`: `write i = some k`
lets the `i`-th write fail after `k` bytes, `flush = some k` leaves only the
first `k` bytes of the file at the close. -/
structure WriteFault where
  openFails : Bool := false
  write : Nat → Option Nat := fun _ => none
  flush : Option Nat := none

/-- An open `std::ofstream`. -/
structure OFStream where
  path : String
  bad : Bool := false
deriving DecidableEq, Repr

/-- `file.open(path, std::ios::binary)`: an existing file is truncated. -/
def OFStream.openFile (path : String) (disk : Disk) : OFStream × Disk :=
  ({ path := path }, Function.update disk path (some []))

/-- `file.write(data)`: a stream that is bad writes nothing. -/
def OFStream.write (file : OFStream) (fault : Option Nat) (data : Bytes) (disk : Disk) :
    OFStream × Disk :=
  if file.bad then (file, disk)
  else
    let old := (disk file.path).getD []
    match fault with
    | none => (file, Function.update disk file.path (some (old ++ data)))
    | some k => ({ file with bad := true }, Function.update disk file.path (some (old ++ data.take k)))

/-- `file.close()`. -/
def OFStream.close (file : OFStream) (fault : Option Nat) (disk : Disk) : Disk :=
  match fault with
  | none => disk
  | some k => Function.update disk file.path (some (((disk file.path).getD []).take k))

/-- The `Read` loop of `PutChunk` from request `i` on; `file` is `none` while
`first` is true. -/
def putChunkLoop (config : DataNodeConfig) (fault : WriteFault) :
    Nat → Option OFStream → List PutChunkRequest → Disk → Except Status (Option OFStream) × Disk
  | _, file, [], disk => (.ok file, disk)
  | i, none, req :: reqs, disk =>
    match getChunkPath req.chunkId config with
    | .error _ => (.error Status.unexpectedError, disk)
    | .ok filePath =>
      if fault.openFails then
        (.error { code := .internal, errorMessage := "Failed to open file" }, disk)
      else
        let (file, disk) := OFStream.openFile filePath disk
        let (file, disk) := file.write (fault.write i) req.data disk
        putChunkLoop config fault (i + 1) (some file) reqs disk
  | i, some file, req :: reqs, disk =>
    let (file, disk) := file.write (fault.write i) req.data disk
    putChunkLoop config fault (i + 1) (some file) reqs disk

def putChunk (config : DataNodeConfig) (fault : WriteFault) (reader : ServerReader PutChunkRequest)
    (disk : Disk) : Status × PutChunkResponse × Disk :=
  match putChunkLoop config fault 0 none reader.messages disk with
  | (.error status, disk) => (status, {}, disk)
  | (.ok none, disk) => (Status.OK, { success := true }, disk)
  | (.ok (some file), disk) => (Status.OK, { success := true }, file.close fault.flush disk)

/-! ## Algorithm: GetChunk -/

/-- What the disk does to the `ifstream` of one `GetChunk`: `failsAfter = some k`
ends the reads after `k` bytes, as the end of the file would. -/
structure ReadFault where
  openFails : Bool := false
  failsAfter : Option Nat := none
deriving DecidableEq, Repr

structure GetChunkResponse where
  data : Bytes
deriving DecidableEq, Repr

/-- `sizeof(buffer)`. -/
def bufferSize : Nat := 4096

def ReadFault.visible (fault : ReadFault) (content : Bytes) : Bytes :=
  match fault.failsAfter with
  | none => content
  | some k => content.take k

def getChunk (config : DataNodeConfig) (fault : ReadFault) (chunkId : String) (disk : Disk) :
    Status × List GetChunkResponse :=
  match getChunkPath chunkId config with
  | .error _ => (Status.unexpectedError, [])
  | .ok filePath =>
    match (if fault.openFails then none else disk filePath) with
    | none => ({ code := .notFound, errorMessage := "Chunk not found" }, [])
    | some content =>
      (Status.OK, (Blocks.readBlocks bufferSize (fault.visible content)).map GetChunkResponse.mk)

/-! ## Algorithm: DeleteChunk -/

structure DeleteChunkResponse where
  success : Bool := false
  errorMessage : String := ""
deriving DecidableEq, Repr

/-- `removeFails` is `strerror(errno)` when `std::remove` fails for another
reason than `ENOENT`. -/
def deleteChunk (config : DataNodeConfig) (removeFails : Option String) (chunkId : String)
    (disk : Disk) : Status × DeleteChunkResponse × Disk :=
  match getChunkPath chunkId config with
  | .error _ => (Status.unexpectedError, {}, disk)
  | .ok filePath =>
    match removeFails with
    | some err => (Status.OK, { success := false, errorMessage := err }, disk)
    | none => (Status.OK, { success := true }, Function.update disk filePath none)

/-! ## Algorithm: `DataNodeStubWrapper` -/

structure PutFault where
  rpc : RpcFault := .none
  disk : WriteFault := {}

/-- `DataNodeStubWrapper::PutChunk`: one message with all the data; the response
body is dropped. -/
def stubPutChunk (config : DataNodeConfig) (fault : PutFault) (chunkId : String) (data : Bytes)
    (disk : Disk) : Status × Disk :=
  let (status, _, disk') := putChunk config fault.disk { messages := [⟨chunkId, data⟩] } disk
  match fault.rpc with
  | .none => (status, disk')
  | .requestLost e => (e.status, disk)
  | .replyLost e => (e.status, disk')

structure GetFault where
  rpc : RpcFault := .none
  disk : ReadFault := {}

/-- `DataNodeStubWrapper::GetChunk`: `*data` is set only when the call is OK and
a message came; a call that fails midway leaves it alone. -/
def stubGetChunk (config : DataNodeConfig) (fault : GetFault) (chunkId : String) (disk : Disk) :
    Status × Option Bytes :=
  let (status, messages) := getChunk config fault.disk chunkId disk
  match fault.rpc with
  | .none =>
    if status.isOk && !messages.isEmpty then
      (Status.OK, some (messages.map GetChunkResponse.data).flatten)
    else (status, none)
  | .requestLost e => (e.status, none)
  | .replyLost e => (e.status, none)

structure DeleteFault where
  rpc : RpcFault := .none
  removeFails : Option String := none

/-- `DataNodeStubWrapper::DeleteChunk`: the status only. -/
def stubDeleteChunk (config : DataNodeConfig) (fault : DeleteFault) (chunkId : String) (disk : Disk) :
    Status × Disk :=
  let (status, _, disk') := deleteChunk config fault.removeFails chunkId disk
  match fault.rpc with
  | .none => (status, disk')
  | .requestLost e => (e.status, disk)
  | .replyLost e => (e.status, disk')

/-! ## Lemmas -/

/-- The file a datanode keeps for a chunk id. -/
def stored (config : DataNodeConfig) (disk : Disk) (chunkId : String) : Option Bytes :=
  match getChunkPath chunkId config with
  | .error _ => none
  | .ok path => disk path

/-- What one silent write fault leaves of the data. -/
def WriteFault.kept (fault : WriteFault) (data : Bytes) : Bytes :=
  let written := match fault.write 0 with
    | none => data
    | some k => data.take k
  match fault.flush with
  | none => written
  | some k => written.take k

/-- **One-message `PutChunk`.**  Its three outcomes. -/
theorem putChunk_single (config : DataNodeConfig) (fault : WriteFault) (chunkId : String)
    (data : Bytes) (disk : Disk) :
    putChunk config fault { messages := [⟨chunkId, data⟩] } disk =
      match getChunkPath chunkId config with
      | .error _ => (Status.unexpectedError, {}, disk)
      | .ok path =>
        if fault.openFails then
          ({ code := .internal, errorMessage := "Failed to open file" }, {}, disk)
        else (Status.OK, { success := true }, Function.update disk path (some (fault.kept data))) := by
  simp only [putChunk, putChunkLoop]
  cases getChunkPath chunkId config with
  | error e => rfl
  | ok path =>
    simp only
    by_cases ho : fault.openFails = true
    · simp only [if_pos ho]
    · simp only [if_neg ho, OFStream.openFile, OFStream.write, OFStream.close, WriteFault.kept]
      cases fault.write 0 <;> cases fault.flush <;> simp

/-- Does the handler get as far as creating the chunk's file? -/
def PutFault.creates (config : DataNodeConfig) (fault : PutFault) (chunkId : String) : Bool :=
  (match getChunkPath chunkId config with
    | .error _ => false
    | .ok _ => !fault.disk.openFails) &&
  (match fault.rpc with
    | .requestLost _ => false
    | _ => true)

/-- Does the coordinator see the call succeed? -/
def PutFault.answersOk (config : DataNodeConfig) (fault : PutFault) (chunkId : String) : Bool :=
  (match getChunkPath chunkId config with
    | .error _ => false
    | .ok _ => !fault.disk.openFails) &&
  (match fault.rpc with
    | .none => true
    | _ => false)

theorem PutFault.creates_of_answersOk {config : DataNodeConfig} {fault : PutFault} {chunkId : String}
    (h : fault.answersOk config chunkId = true) : fault.creates config chunkId = true := by
  unfold answersOk at h
  unfold creates
  cases hr : fault.rpc <;> simp_all

theorem stubPutChunk_isOk (config : DataNodeConfig) (fault : PutFault) (chunkId : String)
    (data : Bytes) (disk : Disk) :
    (stubPutChunk config fault chunkId data disk).1.isOk = fault.answersOk config chunkId := by
  simp only [stubPutChunk, putChunk_single, PutFault.answersOk]
  cases hr : fault.rpc with
  | none =>
    cases getChunkPath chunkId config with
    | error e => simp
    | ok path => cases ho : fault.disk.openFails <;> simp [Status.isOk, Status.OK]
  | requestLost e => simp [e.notOk]
  | replyLost e => simp [e.notOk]

/-- The disk after a `PutChunk`: the kept data in the chunk's file if the handler
created it. -/
theorem stubPutChunk_disk (config : DataNodeConfig) (fault : PutFault) (chunkId : String)
    (data : Bytes) (disk : Disk) :
    (stubPutChunk config fault chunkId data disk).2 =
      match getChunkPath chunkId config with
      | .error _ => disk
      | .ok path =>
        if fault.creates config chunkId
        then Function.update disk path (some (fault.disk.kept data)) else disk := by
  cases hp : getChunkPath chunkId config with
  | error e => cases hr : fault.rpc <;> simp [stubPutChunk, putChunk_single, hp, hr]
  | ok path =>
    cases ho : fault.disk.openFails <;> cases hr : fault.rpc <;>
      simp [stubPutChunk, putChunk_single, PutFault.creates, hp, ho, hr]

theorem stubPutChunk_stored (config : DataNodeConfig) (fault : PutFault) (chunkId : String)
    (data : Bytes) (disk : Disk) (h : fault.creates config chunkId = true) :
    stored config (stubPutChunk config fault chunkId data disk).2 chunkId =
      some (fault.disk.kept data) := by
  rw [stubPutChunk_disk]
  unfold stored
  cases hp : getChunkPath chunkId config with
  | error e => simp [PutFault.creates, hp] at h
  | ok path => simp [h]

theorem stubPutChunk_not_created (config : DataNodeConfig) (fault : PutFault) (chunkId : String)
    (data : Bytes) (disk : Disk) (h : fault.creates config chunkId = false) :
    (stubPutChunk config fault chunkId data disk).2 = disk := by
  rw [stubPutChunk_disk]
  cases getChunkPath chunkId config with
  | error e => rfl
  | ok path => simp [h]

/-- A `PutChunk` that is answered OK was performed completely: none of its writes
and no flush failed. -/
def PutFault.Complete (fault : PutFault) : Prop :=
  fault.rpc = .none → fault.disk.openFails = false →
    fault.disk.write 0 = none ∧ fault.disk.flush = none

/-- **A complete `PutChunk` that is answered OK keeps all the data.** -/
theorem PutFault.kept_eq {config : DataNodeConfig} {fault : PutFault} {chunkId : String}
    (hc : fault.Complete) (h : fault.answersOk config chunkId = true) (data : Bytes) :
    fault.disk.kept data = data := by
  have hr : fault.rpc = .none := by
    unfold PutFault.answersOk at h
    cases hr : fault.rpc <;> simp_all
  have ho : fault.disk.openFails = false := by
    unfold PutFault.answersOk at h
    cases hp : getChunkPath chunkId config <;> simp_all
  obtain ⟨hw, hf⟩ := hc hr ho
  simp [WriteFault.kept, hw, hf]

/-- A `GetChunk` that is answered OK read the whole file. -/
def GetFault.Complete (fault : GetFault) : Prop :=
  fault.rpc = .none → fault.disk.openFails = false → fault.disk.failsAfter = none

/-- Does the datanode answer a `GetChunk` for a chunk it has? -/
def GetFault.answers (fault : GetFault) : Bool :=
  !fault.disk.openFails &&
  (match fault.rpc with
    | .none => true
    | _ => false)

/-- **A complete `GetChunk` that is answered OK returns the file.**  An empty file
leaves the caller's (empty) buffer as it was. -/
theorem stubGetChunk_complete {config : DataNodeConfig} {fault : GetFault} {chunkId : String}
    {disk : Disk} (hc : fault.Complete)
    (h : (stubGetChunk config fault chunkId disk).1.isOk = true) :
    stored config disk chunkId = some ((stubGetChunk config fault chunkId disk).2.getD []) := by
  have hbuf : 0 < bufferSize := by decide
  unfold stubGetChunk at h ⊢
  cases hr : fault.rpc with
  | requestLost e => simp [hr, e.notOk] at h
  | replyLost e => simp [hr, e.notOk] at h
  | none =>
    cases ho : fault.disk.openFails with
    | true =>
      cases hp : getChunkPath chunkId config with
      | error e => simp [hr, hp, getChunk] at h
      | ok path => simp [hr, ho, hp, getChunk, Status.isOk] at h
    | false =>
      have hf := hc hr ho
      unfold stored
      cases hp : getChunkPath chunkId config with
      | error e => simp [hr, hp, getChunk] at h
      | ok path =>
        cases hd : disk path with
        | none => simp [hr, ho, hp, hd, getChunk, Status.isOk] at h
        | some content =>
          simp only [getChunk, hp, ho, hd, ReadFault.visible, hf, Bool.false_eq_true, if_false]
          cases hb : Blocks.readBlocks bufferSize content with
          | nil =>
            rw [Blocks.readBlocks_eq_nil_iff _ hbuf] at hb
            simp [hb]
          | cons b bs =>
            have hflat := Blocks.readBlocks_flatten bufferSize hbuf content
            rw [hb, List.flatten_cons] at hflat
            simp [← hflat, List.map_map, Function.comp_def]

/-- A datanode that has the chunk and answers, answers OK. -/
theorem stubGetChunk_isOk {config : DataNodeConfig} {fault : GetFault} {chunkId : String} {disk : Disk}
    (hs : (stored config disk chunkId).isSome = true) (ha : fault.answers = true) :
    (stubGetChunk config fault chunkId disk).1.isOk = true := by
  unfold GetFault.answers at ha
  unfold stored at hs
  unfold stubGetChunk getChunk
  cases hr : fault.rpc with
  | requestLost e => simp [hr] at ha
  | replyLost e => simp [hr] at ha
  | none =>
    cases hp : getChunkPath chunkId config with
    | error e => simp [hp] at hs
    | ok path =>
      cases hd : disk path with
      | none => simp [hp, hd] at hs
      | some content =>
        have ho : fault.disk.openFails = false := by simpa [hr] using ha
        simp only [ho, hd, Bool.false_eq_true, if_false]
        split <;> rfl

/-- The disk after a `DeleteChunk`: at most the chunk's file is gone. -/
theorem stubDeleteChunk_disk (config : DataNodeConfig) (fault : DeleteFault) (chunkId : String)
    (disk : Disk) :
    (stubDeleteChunk config fault chunkId disk).2 = disk ∨
      ∃ path, getChunkPath chunkId config = .ok path ∧
        (stubDeleteChunk config fault chunkId disk).2 = Function.update disk path none := by
  unfold stubDeleteChunk deleteChunk
  cases getChunkPath chunkId config with
  | error e => left; cases fault.rpc <;> rfl
  | ok path =>
    cases fault.removeFails <;> cases fault.rpc <;> simp

/-- Is the chunk confirmed deleted: call delivered and answered, file removed (or
not there)? -/
def DeleteFault.confirms (config : DataNodeConfig) (fault : DeleteFault) (chunkId : String) : Bool :=
  (match getChunkPath chunkId config with
    | .error _ => false
    | .ok _ => fault.removeFails.isNone) &&
  (match fault.rpc with
    | .none => true
    | _ => false)

theorem stubDeleteChunk_confirmed {config : DataNodeConfig} {fault : DeleteFault} {chunkId : String}
    (disk : Disk) (h : fault.confirms config chunkId = true) :
    stored config (stubDeleteChunk config fault chunkId disk).2 chunkId = none := by
  unfold DeleteFault.confirms at h
  unfold stored stubDeleteChunk deleteChunk
  cases hr : fault.rpc with
  | requestLost e => simp [hr] at h
  | replyLost e => simp [hr] at h
  | none =>
    cases hp : getChunkPath chunkId config with
    | error e => rfl
    | ok path =>
      have hf : fault.removeFails = none := by simpa [hr, hp] using h
      simp [hf]

/-! ### Frames: a chunk's calls leave every other chunk alone -/

theorem stored_update_ne {config : DataNodeConfig} {disk : Disk} {n m : Nat} {path : String}
    (hnm : m ≠ n) (hp : getChunkPath (chunkName n) config = .ok path) (v : Option Bytes) :
    stored config (Function.update disk path v) (chunkName m) = stored config disk (chunkName m) := by
  unfold stored
  cases hm : getChunkPath (chunkName m) config with
  | error e => rfl
  | ok q =>
    apply Function.update_of_ne
    rintro rfl
    exact hnm (getChunkPath_inj hm hp)

theorem stubPutChunk_other {config : DataNodeConfig} {n m : Nat} (hnm : m ≠ n) (fault : PutFault)
    (data : Bytes) (disk : Disk) :
    stored config (stubPutChunk config fault (chunkName n) data disk).2 (chunkName m) =
      stored config disk (chunkName m) := by
  rw [stubPutChunk_disk]
  cases hp : getChunkPath (chunkName n) config with
  | error e => rfl
  | ok path =>
    simp only
    split
    · exact stored_update_ne hnm hp _
    · rfl

theorem stubDeleteChunk_other {config : DataNodeConfig} {n m : Nat} (hnm : m ≠ n)
    (fault : DeleteFault) (disk : Disk) :
    stored config (stubDeleteChunk config fault (chunkName n) disk).2 (chunkName m) =
      stored config disk (chunkName m) := by
  rcases stubDeleteChunk_disk config fault (chunkName n) disk with h | ⟨path, hp, h⟩
  · rw [h]
  · rw [h]
    exact stored_update_ne hnm hp none

end ToyDfs
