import ToyDfs.Lib.KeyValue
import ToyDfs.Lib.Simulation
import ToyDfs.DataNode

/-!
The chunk files of datanodes that share one chunk root: a key-value map.

A key is a node id and a chunk number below `2^31`.  Different keys have different
files (`chunkPath_inj`), a `PutChunk` in any number of messages leaves their
concatenation in the file (`putCall_eq`), and `GetChunk` returns the file.  So
every sequence of calls is answered as by the map (`chunkStore_refines_map`).

Directories are left out, and the disk works: no fault is passed to the handlers.
-/

namespace ToyDfs

open Simulation

/-! ## Calls -/

/-- A call to datanode `node` about chunk number `n`.  The data of a `put` comes in
one or more messages. -/
inductive ChunkCall
  | put (node : String) (n : Nat) (first : Bytes) (rest : List Bytes)
  | get (node : String) (n : Nat)
  | delete (node : String) (n : Nat)
deriving DecidableEq, Repr

inductive ChunkReply
  | put (status : Status) (response : PutChunkResponse)
  | get (status : Status) (data : Bytes)
  | delete (status : Status) (response : DeleteChunkResponse)
deriving DecidableEq, Repr

/-- The datanode with this `node_id` under the shared root. -/
def nodeConfig (root node : String) : DataNodeConfig := { chunkRootPath := root, nodeId := node }

section
variable (root : String)

def putCall (node : String) (n : Nat) (messages : List Bytes) (disk : Disk) :
    Status × PutChunkResponse × Disk :=
  putChunk (nodeConfig root node) {} { messages := messages.map (PutChunkRequest.mk (chunkName n)) } disk

def getCall (node : String) (n : Nat) (disk : Disk) : Status × List GetChunkResponse :=
  getChunk (nodeConfig root node) {} (chunkName n) disk

def deleteCall (node : String) (n : Nat) (disk : Disk) : Status × DeleteChunkResponse × Disk :=
  deleteChunk (nodeConfig root node) none (chunkName n) disk

/-- The datanodes, all on one disk. -/
def chunkAnswer (disk : Disk) : ChunkCall → ChunkReply × Disk
  | .put node n first rest =>
    let (status, response, disk) := putCall root node n (first :: rest) disk
    (.put status response, disk)
  | .get node n =>
    let (status, messages) := getCall root node n disk
    (.get status (messages.map GetChunkResponse.data).flatten, disk)
  | .delete node n =>
    let (status, response, disk) := deleteCall root node n disk
    (.delete status response, disk)

end

/-! ## The map -/

abbrev ChunkMap := String × Nat → Option Bytes

def chunkNotFound : Status := { code := .notFound, errorMessage := "Chunk not found" }

def mapAnswer (m : ChunkMap) : ChunkCall → ChunkReply × ChunkMap
  | .put node n first rest =>
    (.put Status.OK { success := true }, Function.update m (node, n) (some (first :: rest).flatten))
  | .get node n =>
    match m (node, n) with
    | none => (.get chunkNotFound [], m)
    | some data => (.get Status.OK data, m)
  | .delete node n => (.delete Status.OK { success := true }, Function.update m (node, n) none)

/-- An ordinary directory name. -/
structure OrdinaryName (name : String) : Prop where
  nonempty : name ≠ ""
  noSlash : '/' ∉ name.toList
  notDot : name ≠ "."
  notDotDot : name ≠ ".."

def Key (node : String) (n : Nat) : Prop := OrdinaryName node ∧ n < 2 ^ 31

def ChunkCall.Valid : ChunkCall → Prop
  | .put node n _ _ => Key node n
  | .get node n => Key node n
  | .delete node n => Key node n

/-! ## Files -/

section
variable {root : String}

/-- The file of a key. -/
def chunkPath (root node : String) (n : Nat) : String := chunkFile (root ++ "/" ++ node) n

theorem getChunkPath_key {node : String} {n : Nat} (h : Key node n) :
    getChunkPath (chunkName n) (nodeConfig root node) = .ok (chunkPath root node n) := by
  have hbase : (nodeConfig root node).basePath = root ++ "/" ++ node := if_pos h.1.nonempty
  rw [getChunkPath_chunkName, if_pos h.2, hbase]
  rfl

/-- **Different keys have different files.** -/
theorem chunkPath_inj {node node' : String} {n n' : Nat} (h : chunkPath root node n = chunkPath root node' n') :
    (node, n) = (node', n') := by
  have hn := chunkFile_inj h
  subst hn
  have hl := congrArg String.toList h
  simp only [chunkPath, chunkFile, String.toList_append, List.append_assoc,
    List.append_cancel_left_eq] at hl
  have hnode : node.toList = node'.toList := by
    simp only [← List.append_assoc, List.append_cancel_right_eq] at hl
    exact hl
  rw [String.toList_inj.mp hnode]

/-! ## Handlers on a disk that works -/

/-- The rest of a stream is appended. -/
theorem putChunkLoop_append (config : DataNodeConfig) (i : Nat) (path : String) (reqs : List PutChunkRequest)
    (disk : Disk) (old : Bytes) (hold : disk path = some old) :
    putChunkLoop config {} i (some { path := path }) reqs disk =
      (.ok (some { path := path }),
        Function.update disk path (some (old ++ (reqs.map PutChunkRequest.data).flatten))) := by
  induction reqs generalizing i disk old with
  | nil =>
    rw [putChunkLoop, List.map_nil, List.flatten_nil, List.append_nil, ← hold, Function.update_eq_self]
  | cons req reqs ih =>
    have hwrite : OFStream.write { path := path } none req.data disk =
        ({ path := path }, Function.update disk path (some (old ++ req.data))) := by
      simp only [OFStream.write, hold, Option.getD_some, Bool.false_eq_true, if_false]
    rw [putChunkLoop, hwrite]
    show putChunkLoop config {} (i + 1) (some { path := path }) reqs _ = _
    rw [ih (i + 1) _ (old ++ req.data) (Function.update_self ..), Function.update_idem, List.map_cons,
      List.flatten_cons, List.append_assoc]

/-- **PutChunk** leaves the concatenation of its messages. -/
theorem putCall_eq {node : String} {n : Nat} (h : Key node n) (first : Bytes) (rest : List Bytes)
    (disk : Disk) :
    putCall root node n (first :: rest) disk =
      (Status.OK, { success := true },
        Function.update disk (chunkPath root node n) (some (first :: rest).flatten)) := by
  have hwrite : OFStream.write { path := chunkPath root node n } none first
      (Function.update disk (chunkPath root node n) (some [])) =
      ({ path := chunkPath root node n }, Function.update disk (chunkPath root node n) (some first)) := by
    simp only [OFStream.write, Function.update_self, Option.getD_some, Bool.false_eq_true, if_false,
      List.nil_append, Function.update_idem]
  have hdata : (rest.map (PutChunkRequest.mk (chunkName n))).map PutChunkRequest.data = rest := by
    rw [List.map_map]
    exact List.map_id' rest
  unfold putCall putChunk
  rw [List.map_cons, putChunkLoop]
  simp only [getChunkPath_key h, OFStream.openFile, hwrite, Bool.false_eq_true, if_false]
  rw [putChunkLoop_append _ _ _ _ _ first (Function.update_self ..), hdata, Function.update_idem]
  rfl

/-- **GetChunk** returns the file, if there is one. -/
theorem getCall_eq {node : String} {n : Nat} (h : Key node n) (disk : Disk) :
    (getCall root node n disk).1 = (match disk (chunkPath root node n) with
      | none => chunkNotFound
      | some _ => Status.OK) ∧
    ((getCall root node n disk).2.map GetChunkResponse.data).flatten =
      (disk (chunkPath root node n)).getD [] := by
  unfold getCall getChunk
  simp only [getChunkPath_key h, Bool.false_eq_true, if_false]
  cases disk (chunkPath root node n) with
  | none => exact ⟨rfl, rfl⟩
  | some content =>
    refine ⟨rfl, ?_⟩
    show (((Blocks.readBlocks bufferSize content).map GetChunkResponse.mk).map
      GetChunkResponse.data).flatten = content
    rw [List.map_map, show GetChunkResponse.data ∘ GetChunkResponse.mk = id from rfl, List.map_id]
    exact Blocks.readBlocks_flatten bufferSize (by decide) content

/-- **DeleteChunk** removes the file. -/
theorem deleteCall_eq {node : String} {n : Nat} (h : Key node n) (disk : Disk) :
    deleteCall root node n disk =
      (Status.OK, { success := true }, Function.update disk (chunkPath root node n) none) := by
  unfold deleteCall deleteChunk
  simp only [getChunkPath_key h]

/-! ## Refinement -/

/-- The files of all keys are what the map says. -/
def FilesAre (root : String) (disk : Disk) (m : ChunkMap) : Prop :=
  ∀ node n, Key node n → disk (chunkPath root node n) = m (node, n)

/-- A write to one key. -/
theorem FilesAre.update {disk : Disk} {m : ChunkMap} (h : FilesAre root disk m) (node : String) (n : Nat)
    (v : Option Bytes) :
    FilesAre root (Function.update disk (chunkPath root node n) v) (Function.update m (node, n) v) := by
  intro node' n' hkey
  by_cases he : (node', n') = (node, n)
  · cases he
    rw [Function.update_self, Function.update_self]
  · have hpath : chunkPath root node' n' ≠ chunkPath root node n := fun hp => he (chunkPath_inj hp)
    rw [Function.update_of_ne hpath, Function.update_of_ne he]
    exact h node' n' hkey

/-- **One call.** -/
theorem chunkAnswer_simulates : Simulates ChunkCall.Valid (FilesAre root) (chunkAnswer root) mapAnswer := by
  intro disk m call hvalid h
  cases call with
  | put node n first rest =>
    simp only [chunkAnswer, mapAnswer, putCall_eq hvalid]
    exact ⟨trivial, h.update node n _⟩
  | get node n =>
    obtain ⟨hstatus, hdata⟩ := @getCall_eq root node n hvalid disk
    rw [h node n hvalid] at hstatus hdata
    simp only [chunkAnswer, mapAnswer, hstatus, hdata]
    cases m (node, n) with
    | none => exact ⟨rfl, h⟩
    | some data => exact ⟨rfl, h⟩
  | delete node n =>
    simp only [chunkAnswer, mapAnswer, deleteCall_eq hvalid]
    exact ⟨trivial, h.update node n none⟩

/-- What a call writes to the map. -/
def ChunkCall.write : ChunkCall → Option ((String × Nat) × Option Bytes)
  | .put node n first rest => some ((node, n), some (first :: rest).flatten)
  | .get _ _ => none
  | .delete node n => some ((node, n), none)

/-- A `get` leaves the map as it is. -/
theorem mapAnswer_get (m : ChunkMap) (node : String) (n : Nat) : (mapAnswer m (.get node n)).2 = m := by
  simp only [mapAnswer]
  cases m (node, n) <;> rfl

theorem mapAnswer_eq_contents (calls : List ChunkCall) :
    (run mapAnswer (fun _ => none) calls).2 = KeyValue.contents ChunkCall.write calls := by
  induction calls using List.reverseRecOn with
  | nil => rfl
  | append_singleton calls call ih =>
    rw [run_snoc, ih, KeyValue.contents_snoc]
    cases call with
    | get node n => exact mapAnswer_get ..
    | _ => rfl

end

/-- What a sequence of calls to datanodes under `root` comes to, on a disk without
chunks. -/
structure RefinesMap (root : String) (disk : Disk) (calls : List ChunkCall) : Prop where
  answers : (run (chunkAnswer root) disk calls).1 = (run mapAnswer (fun _ => none) calls).1
  /-- what was put last comes back -/
  get : ∀ node n, Key node n → ∀ data, KeyValue.LastPut ChunkCall.write (node, n) calls data →
    (getCall root node n (run (chunkAnswer root) disk calls).2).1 = Status.OK ∧
    ((getCall root node n (run (chunkAnswer root) disk calls).2).2.map GetChunkResponse.data).flatten = data
  get_absent : ∀ node n, Key node n →
    (∀ data, ¬ KeyValue.LastPut ChunkCall.write (node, n) calls data) →
      (getCall root node n (run (chunkAnswer root) disk calls).2).1 = chunkNotFound
  delete_absent : ∀ node n, Key node n →
    (∀ data, ¬ KeyValue.LastPut ChunkCall.write (node, n) calls data) →
      deleteCall root node n (run (chunkAnswer root) disk calls).2 =
        (Status.OK, { success := true }, (run (chunkAnswer root) disk calls).2)
  /-- a call on one key does not touch the file of another -/
  other : ∀ call, call.Valid → ∀ node n, Key node n → (∀ w, call.write ≠ some ((node, n), w)) →
    (chunkAnswer root (run (chunkAnswer root) disk calls).2 call).2 (chunkPath root node n) =
      (run (chunkAnswer root) disk calls).2 (chunkPath root node n)

/-- **The chunk files are a key-value map.** -/
theorem chunkStore_refines_map (root : String) (disk : Disk) (calls : List ChunkCall)
    (hvalid : ∀ call ∈ calls, call.Valid)
    (hempty : ∀ node n, Key node n → disk (chunkPath root node n) = none) : RefinesMap root disk calls := by
  have hzero : FilesAre root disk fun _ => none := hempty
  obtain ⟨hanswers, hfiles⟩ := chunkAnswer_simulates.run calls hvalid hzero
  rw [mapAnswer_eq_contents] at hfiles
  have hnone : ∀ node n, Key node n →
      (∀ data, ¬ KeyValue.LastPut ChunkCall.write (node, n) calls data) →
        (run (chunkAnswer root) disk calls).2 (chunkPath root node n) = none := by
    intro node n hkey hno
    rw [hfiles node n hkey]
    cases hc : KeyValue.contents ChunkCall.write calls (node, n) with
    | none => rfl
    | some data => exact absurd ((KeyValue.contents_eq_some_iff _ _ _ _).mp hc) (hno data)
  refine ⟨hanswers, ?_, ?_, ?_, ?_⟩
  · intro node n hkey data hlast
    obtain ⟨hstatus, hdata⟩ := @getCall_eq root node n hkey (run (chunkAnswer root) disk calls).2
    rw [hfiles node n hkey, (KeyValue.contents_eq_some_iff _ _ _ _).mpr hlast] at hstatus hdata
    exact ⟨hstatus, hdata⟩
  · intro node n hkey hno
    obtain ⟨hstatus, -⟩ := @getCall_eq root node n hkey (run (chunkAnswer root) disk calls).2
    rw [hnone node n hkey hno] at hstatus
    exact hstatus
  · intro node n hkey hno
    rw [deleteCall_eq hkey, ← hnone node n hkey hno, Function.update_eq_self]
  · intro call hcall node n hkey hother
    obtain ⟨-, hafter⟩ := chunkAnswer_simulates _ _ call hcall hfiles
    rw [hafter node n hkey]
    cases call with
    | put node' n' first rest =>
      rw [hfiles node n hkey]
      refine Function.update_of_ne ?_ ..
      rintro ⟨⟩
      exact hother _ rfl
    | get node' n' => rw [mapAnswer_get, hfiles node n hkey]
    | delete node' n' =>
      rw [hfiles node n hkey]
      refine Function.update_of_ne ?_ ..
      rintro ⟨⟩
      exact hother _ rfl

/-- Two datanodes keep chunk 7; one of them deletes it. -/
theorem chunkStore_twoNodes : RefinesMap "/tmp" (fun _ => none)
    [.put "node_1" 7 [1, 2] [[3]], .put "node_2" 7 [4] [], .delete "node_2" 7, .get "node_1" 7] := by
  have hkey : ∀ node, node = "node_1" ∨ node = "node_2" → Key node 7 := by
    rintro node (rfl | rfl)
    · exact ⟨⟨by decide, by decide, by decide, by decide⟩, by decide⟩
    · exact ⟨⟨by decide, by decide, by decide, by decide⟩, by decide⟩
  refine chunkStore_refines_map "/tmp" _ _ ?_ fun _ _ _ => rfl
  intro call hcall
  simp only [List.mem_cons, List.not_mem_nil, or_false] at hcall
  rcases hcall with rfl | rfl | rfl | rfl
  · exact hkey _ (Or.inl rfl)
  · exact hkey _ (Or.inr rfl)
  · exact hkey _ (Or.inr rfl)
  · exact hkey _ (Or.inl rfl)

end ToyDfs
