import Mathlib.Data.Set.Subsingleton
import ToyDfs.Lib.Footprint
import ToyDfs.ChunkStore

/-!
Which file a datanode touches for a chunk id.

All three handlers work on the one path `get_chunk_path` gives (`touchesOnly_putChunk`,
`touchesOnly_getChunk`, `touchesOnly_deleteChunk`), and on none when `std::stoi`
throws.  Of an id that starts with `chunk_` this path is below the base path
(`below_of_chunk`).  Every other id is itself the path (`getChunkPath_other`), wherever
that leads (`not_confined`).

A file is known by its path here.  The path is passed on as it is when no string has a
NUL in it (`cStr_of_mem_chunkFiles`); which other paths lead to the same file is left to
the file system.
-/

namespace ToyDfs

open Footprint

/-! ## Places -/

/-- `path` is `base` followed by one or more ordinary names. -/
def Below (base path : String) : Prop :=
  ∃ names : List String, names ≠ [] ∧ (∀ name ∈ names, OrdinaryName name) ∧
    path = base ++ "/" ++ String.intercalate "/" names

/-- The files `get_chunk_path` names for an id: one or none. -/
def chunkFiles (config : DataNodeConfig) (chunkId : String) : Set String :=
  { path | getChunkPath chunkId config = .ok path }

/-- A name with some other character than a dot, and no slash, is ordinary. -/
theorem ordinaryName_of_mem {name : String} {c : Char} (hc : c ∈ name.toList) (hdot : c ≠ '.')
    (hslash : '/' ∉ name.toList) : OrdinaryName name where
  nonempty := by
    rintro rfl
    exact absurd hc List.not_mem_nil
  noSlash := hslash
  notDot := by
    rintro rfl
    exact hdot (by simpa using hc)
  notDotDot := by
    rintro rfl
    exact hdot (by simpa using hc)

/-- The decimal of an `int` has a digit, and nothing but digits and a sign. -/
theorem toList_toString_int (n : Int) :
    (∃ c ∈ (toString n).toList, c.isDigit = true) ∧
      ∀ c ∈ (toString n).toList, c.isDigit = true ∨ c = '-' := by
  have digits : ∀ k : Nat, (∃ c ∈ k.repr.toList, c.isDigit = true) ∧ ∀ c ∈ k.repr.toList, c.isDigit = true := by
    intro k
    rw [Nat.toList_repr]
    have hdig : ∀ c ∈ Nat.toDigits 10 k, c.isDigit = true := fun c hc =>
      Nat.isDigit_of_mem_toDigits (by omega) (by omega) hc
    obtain ⟨c, hc⟩ := List.exists_mem_of_ne_nil (Nat.toDigits 10 k) Nat.toDigits_ne_nil
    exact ⟨⟨c, hc, hdig c hc⟩, hdig⟩
  cases n with
  | ofNat k => exact ⟨(digits k).1, fun c hc => .inl ((digits k).2 c hc)⟩
  | negSucc k =>
    obtain ⟨⟨c, hc, hdigit⟩, hall⟩ := digits (k + 1)
    have hlist : (toString (Int.negSucc k)).toList = '-' :: (k + 1).repr.toList := String.toList_append
    rw [hlist]
    refine ⟨⟨c, List.mem_cons_of_mem _ hc, hdigit⟩, fun c hc => ?_⟩
    rcases List.mem_cons.mp hc with rfl | hc
    · exact .inr rfl
    · exact .inl (hall c hc)

theorem notMem_toString_int {c : Char} (hdigit : c.isDigit = false) (hsign : c ≠ '-') (n : Int) :
    c ∉ (toString n).toList := by
  intro hc
  rcases (toList_toString_int n).2 c hc with hd | rfl
  · rw [hdigit] at hd
    cases hd
  · exact hsign rfl

theorem ordinaryName_int (n : Int) : OrdinaryName (toString n) := by
  obtain ⟨c, hc, hdigit⟩ := (toList_toString_int n).1
  refine ordinaryName_of_mem hc ?_ (notMem_toString_int (by decide) (by decide) n)
  rintro rfl
  exact absurd hdigit (by decide)

theorem ordinaryName_cfile (n : Int) : OrdinaryName (toString n ++ ".cfile") := by
  obtain ⟨c, hc, hdigit⟩ := (toList_toString_int n).1
  have hslash : '/' ∉ (toString n).toList := notMem_toString_int (by decide) (by decide) n
  refine ordinaryName_of_mem (c := c) ?_ ?_ ?_
  · rw [String.toList_append]
    exact List.mem_append_left _ hc
  · rintro rfl
    exact absurd hdigit (by decide)
  · rw [String.toList_append, List.mem_append, not_or]
    exact ⟨hslash, by decide⟩

theorem below_chunkFile (base : String) (n : Int) : Below base (chunkFile base n) := by
  refine ⟨[toString (n.tdiv (groupSize * groupSize)), toString ((n.tdiv groupSize).tmod groupSize),
    toString n ++ ".cfile"], by nofun, ?_, ?_⟩
  · intro name hname
    simp only [List.mem_cons, List.not_mem_nil, or_false] at hname
    rcases hname with rfl | rfl | rfl
    · exact ordinaryName_int _
    · exact ordinaryName_int _
    · exact ordinaryName_cfile n
  · show _ = base ++ "/" ++ (_ ++ "/" ++ _ ++ "/" ++ (_ ++ ".cfile"))
    simp only [chunkFile, String.append_assoc]

/-- **An id that starts with `chunk_` stays below the base path.** -/
theorem below_of_chunk (config : DataNodeConfig) (rest path : String)
    (h : getChunkPath ("chunk_" ++ rest) config = .ok path) : Below config.basePath path := by
  have hname : "chunk_" ++ rest = "chunk" ++ String.ofList ['_'] ++ rest := rfl
  have hfind : Cpp.findChar ("chunk_" ++ rest) '_' = some 5 := by
    rw [hname]
    exact Cpp.findChar_append "chunk" rest '_' (by decide)
  have hpre : Cpp.prefixTo ("chunk_" ++ rest) 5 = "chunk" := by
    rw [hname, String.append_assoc]
    exact Cpp.prefixTo_append "chunk" _
  simp only [getChunkPath, hfind, hpre, ne_eq, not_true_eq_false, if_false] at h
  split at h
  · cases h
  · next n _ =>
    cases h
    exact below_chunkFile config.basePath n

/-- **Every other id is taken as the path.** -/
theorem getChunkPath_other (config : DataNodeConfig) (chunkId : String)
    (h : ∀ rest, chunkId ≠ "chunk_" ++ rest) : getChunkPath chunkId config = .ok chunkId := by
  unfold getChunkPath
  cases hfind : Cpp.findChar chunkId '_' with
  | none => rfl
  | some pos =>
    by_cases hpre : Cpp.prefixTo chunkId pos = "chunk"
    · have hsplit := Cpp.eq_of_findChar hfind
      rw [hpre] at hsplit
      exact absurd hsplit (h _)
    · exact if_pos hpre

/-! ## The path as it is passed -/

/-- A NUL would end the path early for `open` and `remove`, which take it as a C string. -/
def NoNul (s : String) : Prop := '\x00' ∉ s.toList

theorem NoNul.append {s t : String} (hs : NoNul s) (ht : NoNul t) : NoNul (s ++ t) := by
  unfold NoNul
  rw [String.toList_append, List.mem_append, not_or]
  exact ⟨hs, ht⟩

theorem noNul_int (n : Int) : NoNul (toString n) := notMem_toString_int (by decide) (by decide) n

theorem noNul_basePath {config : DataNodeConfig} (hroot : NoNul config.chunkRootPath)
    (hnode : NoNul config.nodeId) : NoNul config.basePath := by
  unfold DataNodeConfig.basePath
  split
  · exact (hroot.append (by unfold NoNul; decide)).append hnode
  · exact hroot

theorem noNul_chunkFile {base : String} (hbase : NoNul base) (n : Int) : NoNul (chunkFile base n) := by
  have hslash : NoNul "/" := by unfold NoNul; decide
  have hext : NoNul ".cfile" := by unfold NoNul; decide
  exact ((((((hbase.append hslash).append (noNul_int _)).append hslash).append (noNul_int _)).append
    hslash).append (noNul_int n)).append hext

/-- **The path is passed as it is.** -/
theorem cStr_of_mem_chunkFiles {config : DataNodeConfig} {chunkId path : String} (hid : NoNul chunkId)
    (hroot : NoNul config.chunkRootPath) (hnode : NoNul config.nodeId)
    (hpath : path ∈ chunkFiles config chunkId) : Cpp.cStr path = path := by
  refine Cpp.cStr_eq ?_
  have hok : getChunkPath chunkId config = .ok path := hpath
  unfold getChunkPath at hok
  split at hok
  · cases hok
    exact hid
  · split at hok
    · cases hok
      exact hid
    · split at hok
      · cases hok
      · next n _ =>
        cases hok
        exact noNul_chunkFile (noNul_basePath hroot hnode) n

/-! ## Handlers -/

section
variable {files : Set String}

theorem touchesOnly_write {file : OFStream} (hfile : file.path ∈ files) (fault : Option Nat) (data : Bytes) :
    TouchesOnly files (file.write fault data) := by
  unfold OFStream.write
  by_cases hbad : file.bad
  · simp only [if_pos hbad]
    exact TouchesOnly.pure file
  · simp only [if_neg hbad]
    cases fault with
    | none => exact TouchesOnly.write hfile file fun old => some (old.getD [] ++ data)
    | some k =>
      exact TouchesOnly.write hfile { file with bad := true } fun old => some (old.getD [] ++ data.take k)

theorem write_path (file : OFStream) (fault : Option Nat) (data : Bytes) (disk : Disk) :
    (file.write fault data disk).1.path = file.path := by
  unfold OFStream.write
  by_cases hbad : file.bad
  · rw [if_pos hbad]
  · rw [if_neg hbad]
    cases fault <;> rfl

theorem touchesOnly_putChunkLoop (config : DataNodeConfig) (fault : WriteFault) (i : Nat) {file : OFStream}
    (hfile : file.path ∈ files) (reqs : List PutChunkRequest) :
    TouchesOnly files (putChunkLoop config fault i (some file) reqs) := by
  induction reqs generalizing i file with
  | nil => exact TouchesOnly.pure _
  | cons req reqs ih =>
    refine (touchesOnly_write hfile (fault.write i) req.data).bind
      (g := fun file => putChunkLoop config fault (i + 1) (some file) reqs) fun disk => ?_
    exact ih (i + 1) (by rwa [write_path])

theorem putChunkLoop_path (config : DataNodeConfig) (fault : WriteFault) (i : Nat) (file : OFStream)
    (reqs : List PutChunkRequest) (disk : Disk) :
    ∃ file', (putChunkLoop config fault i (some file) reqs disk).1 = .ok (some file') ∧
      file'.path = file.path := by
  induction reqs generalizing i file disk with
  | nil => exact ⟨file, rfl, rfl⟩
  | cons req reqs ih =>
    obtain ⟨file', hloop, hpath⟩ := ih (i + 1) (file.write (fault.write i) req.data disk).1
      (file.write (fault.write i) req.data disk).2
    exact ⟨file', hloop, hpath.trans (write_path ..)⟩

theorem touchesOnly_close {file : OFStream} (hfile : file.path ∈ files) (fault : Option Nat) {α : Type}
    (a : α) : TouchesOnly files fun disk => (a, file.close fault disk) := by
  unfold OFStream.close
  cases fault with
  | none => exact TouchesOnly.pure a
  | some k => exact TouchesOnly.write hfile a fun old => some ((old.getD []).take k)

/-- A handler's answer apart from the disk. -/
def answering {α β : Type} (f : Disk → α × β × Disk) (disk : Disk) : (α × β) × Disk :=
  (((f disk).1, (f disk).2.1), (f disk).2.2)

/-- `PutChunk` after the loop. -/
def putChunkEnd (fault : WriteFault) (result : Except Status (Option OFStream)) (disk : Disk) :
    (Status × PutChunkResponse) × Disk :=
  match result with
  | .error status => ((status, {}), disk)
  | .ok none => ((Status.OK, { success := true }), disk)
  | .ok (some file) => ((Status.OK, { success := true }), file.close fault.flush disk)

theorem answering_putChunk (config : DataNodeConfig) (fault : WriteFault)
    (reader : ServerReader PutChunkRequest) (disk : Disk) :
    answering (putChunk config fault reader) disk =
      putChunkEnd fault (putChunkLoop config fault 0 none reader.messages disk).1
        (putChunkLoop config fault 0 none reader.messages disk).2 := by
  unfold answering putChunk putChunkEnd
  rcases putChunkLoop config fault 0 none reader.messages disk with ⟨_ | _ | _, _⟩ <;> rfl

/-- **PutChunk**: only the first message's id counts. -/
theorem touchesOnly_putChunk (config : DataNodeConfig) (fault : WriteFault) (req : PutChunkRequest)
    (reqs : List PutChunkRequest) :
    TouchesOnly (chunkFiles config req.chunkId)
      (answering (putChunk config fault { messages := req :: reqs })) := by
  rw [funext (answering_putChunk config fault { messages := req :: reqs })]
  simp only [putChunkLoop]
  cases hpath : getChunkPath req.chunkId config with
  | error e => exact TouchesOnly.pure _
  | ok path =>
    have hmem : path ∈ chunkFiles config req.chunkId := hpath
    by_cases hopen : fault.openFails = true
    · simp only [if_pos hopen]
      exact TouchesOnly.pure _
    · simp only [if_neg hopen]
      have hloop : TouchesOnly (chunkFiles config req.chunkId) fun disk =>
          putChunkLoop config fault 0 (some { path := path }) (req :: reqs) (OFStream.openFile path disk).2 :=
        (TouchesOnly.write hmem { path := path } fun _ => some []).bind
          (g := fun file => putChunkLoop config fault 0 (some file) (req :: reqs)) fun _ =>
          touchesOnly_putChunkLoop config fault 0 hmem (req :: reqs)
      refine hloop.bind (g := putChunkEnd fault) fun disk => ?_
      obtain ⟨file, hfile, hp⟩ := putChunkLoop_path config fault 0 { path := path } (req :: reqs)
        (OFStream.openFile path disk).2
      rw [hfile]
      exact touchesOnly_close (hp ▸ hmem) _ _

/-- How `GetChunk` answers when this is in the chunk's file. -/
def readAnswer (fault : ReadFault) (content : Option Bytes) : Status × List GetChunkResponse :=
  match (if fault.openFails then none else content) with
  | none => (chunkNotFound, [])
  | some content =>
    (Status.OK, (Blocks.readBlocks bufferSize (fault.visible content)).map GetChunkResponse.mk)

/-- **GetChunk.** -/
theorem touchesOnly_getChunk (config : DataNodeConfig) (fault : ReadFault) (chunkId : String) :
    TouchesOnly (chunkFiles config chunkId) fun disk => (getChunk config fault chunkId disk, disk) := by
  unfold getChunk
  cases hpath : getChunkPath chunkId config with
  | error e => exact TouchesOnly.pure _
  | ok path =>
    have hmem : path ∈ chunkFiles config chunkId := hpath
    exact TouchesOnly.read hmem (readAnswer fault)

/-- **DeleteChunk.** -/
theorem touchesOnly_deleteChunk (config : DataNodeConfig) (removeFails : Option String) (chunkId : String) :
    TouchesOnly (chunkFiles config chunkId) (answering (deleteChunk config removeFails chunkId)) := by
  unfold answering deleteChunk
  cases hpath : getChunkPath chunkId config with
  | error e => exact TouchesOnly.pure (Status.unexpectedError, DeleteChunkResponse.mk false "")
  | ok path =>
    have hmem : path ∈ chunkFiles config chunkId := hpath
    cases removeFails with
    | some err => exact TouchesOnly.pure (Status.OK, DeleteChunkResponse.mk false err)
    | none => exact TouchesOnly.write hmem (Status.OK, DeleteChunkResponse.mk true "") fun _ => none

/-- A `PutChunk` without a message touches nothing. -/
theorem touchesOnly_putChunk_nil (config : DataNodeConfig) (fault : WriteFault) :
    TouchesOnly (∅ : Set String) (answering (putChunk config fault { messages := [] })) :=
  TouchesOnly.pure (Status.OK, PutChunkResponse.mk true)

end

/-! ## Which file -/

/-- The handlers touch only `files` for this id, whatever the disk does. -/
structure HandlersTouchOnly (config : DataNodeConfig) (chunkId : String) (files : Set String) : Prop where
  put : ∀ fault data reqs,
    TouchesOnly files (answering (putChunk config fault { messages := ⟨chunkId, data⟩ :: reqs }))
  get : ∀ fault, TouchesOnly files fun disk => (getChunk config fault chunkId disk, disk)
  delete : ∀ removeFails, TouchesOnly files (answering (deleteChunk config removeFails chunkId))

structure OwnFile (config : DataNodeConfig) (chunkId : String) : Prop where
  handlers : HandlersTouchOnly config chunkId (chunkFiles config chunkId)
  /-- and under this very path -/
  passed : ∀ path ∈ chunkFiles config chunkId, Cpp.cStr path = path
  /-- there is at most one such file -/
  one : Set.Subsingleton (chunkFiles config chunkId)
  below : ∀ rest, chunkId = "chunk_" ++ rest → ∀ path ∈ chunkFiles config chunkId, Below config.basePath path
  itself : (∀ rest, chunkId ≠ "chunk_" ++ rest) → chunkFiles config chunkId = {chunkId}

/-- **The handlers touch the one path of the id**, which is below the base path for an
id that starts with `chunk_`, and the id itself otherwise. -/
theorem ownFile_of_handlers (config : DataNodeConfig) (chunkId : String) (hid : NoNul chunkId)
    (hroot : NoNul config.chunkRootPath) (hnode : NoNul config.nodeId) : OwnFile config chunkId := by
  refine ⟨⟨?_, ?_, ?_⟩, fun _ => cStr_of_mem_chunkFiles hid hroot hnode, ?_, ?_, ?_⟩
  · intro fault data reqs
    exact touchesOnly_putChunk config fault ⟨chunkId, data⟩ reqs
  · intro fault
    exact touchesOnly_getChunk config fault chunkId
  · intro removeFails
    exact touchesOnly_deleteChunk config removeFails chunkId
  · intro path hpath path' hpath'
    exact Except.ok.inj (hpath.symm.trans hpath')
  · rintro rest rfl path hpath
    exact below_of_chunk config rest path hpath
  · intro hother
    ext path
    show getChunkPath chunkId config = .ok path ↔ path = chunkId
    rw [getChunkPath_other config chunkId hother]
    exact ⟨fun h => (Except.ok.inj h).symm, fun h => by rw [h]⟩

theorem ownFile_nodeOne :
    chunkFiles { nodeId := "n1" } "chunk_1234567" = {"/tmp/dfs_chunks/n1/1/234/1234567.cfile"} ∧
      OwnFile { nodeId := "n1" } "chunk_1234567" ∧ OwnFile { nodeId := "n1" } "/etc/passwd" := by
  refine ⟨?_, ownFile_of_handlers _ _ (by unfold NoNul; decide) (by unfold NoNul; decide)
    (by unfold NoNul; decide), ownFile_of_handlers _ _ (by unfold NoNul; decide)
    (by unfold NoNul; decide) (by unfold NoNul; decide)⟩
  have hpath : getChunkPath "chunk_1234567" { nodeId := "n1" } =
      .ok "/tmp/dfs_chunks/n1/1/234/1234567.cfile" := by decide
  ext path
  show getChunkPath "chunk_1234567" { nodeId := "n1" } = .ok path ↔ _
  rw [hpath]
  exact ⟨fun h => (Except.ok.inj h).symm, fun h => by rw [Set.mem_singleton_iff.mp h]⟩

/-- A peer can have any file removed. -/
theorem not_confined : ¬ ∀ config chunkId,
    HandlersTouchOnly config chunkId { path | Below config.basePath path } := by
  intro h
  have hout : ¬ Below "/tmp/dfs_chunks" "/etc/passwd" := by
    rintro ⟨names, -, -, hpath⟩
    have hl : "/etc/passwd".toList.take 2 = ['/', 't'] := by
      rw [hpath, String.append_assoc, String.toList_append]
      rfl
    exact absurd hl (by decide)
  have hkept := ((h {} "/etc/passwd").delete none).frame (fun _ => some []) "/etc/passwd" hout
  exact absurd hkept (by decide)

end ToyDfs
