import ToyDfs.Lib.FileTree
import ToyDfs.Lib.Transition
import ToyDfs.ChunkStore
import ToyDfs.OwnFiles

/-!
The directories of a datanode.

Before a handler opens the file of a chunk, `get_chunk_path` makes the directories above
it, one `mkdir` after another; when one fails the handler goes on and finds out at the
open.  Everywhere else a `Disk` has files only.  Here the handlers run on a tree of
files and directories, any number of them at a time, one `mkdir` a step.  What a handler
does from the open to the close is one step more, so two of them overlap in their
directories only; writes that overlap are in `ToyDfs.SameNodeReplicas`.

* `climbs_directoryPrefixes`: the loop of `create_directories_recursively` asks for the
  directories from the top down.
* `length_filePlace`, `filePlace_inj`: the files of chunks are apart from each other and
  from the directories.
* `handleOn_actsAs`: one handler acts on the tree as on a `Disk`, except that a
  `PutChunk` does not create its file when the directory is missing.

Symbolic links and the `rmdir` of `std::remove` are left out: no chunk is a directory.
-/

namespace ToyDfs

open FileTree Transition

/-! ## Algorithm -/

abbrev DiskTree := Tree (List Char) Bytes

/-- The paths `create_directories_recursively` gives to `mkdir`, in order.  `done` is
what the scan for slashes has passed; an empty `current` is skipped. -/
def directoryPrefixes (done : List Char) : List Char → List (List Char)
  | [] => [done]
  | c :: rest =>
    if c = '/' ∧ done ≠ [] then done :: directoryPrefixes (done ++ [c]) rest
    else directoryPrefixes (done ++ [c]) rest

def createDirectoriesRecursively (path : String) : List String :=
  (directoryPrefixes [] path.toList).map String.ofList

/-- `dir_path` in `get_chunk_path`. -/
def chunkDirectory (basePath : String) (n : Int) : String :=
  let level3 := n.tdiv (groupSize * groupSize)
  let level2 := (n.tdiv groupSize).tmod groupSize
  basePath ++ "/" ++ toString level3 ++ "/" ++ toString level2

/-- The directories `get_chunk_path` makes before it returns. -/
def chunkDirectories (chunkId : String) (config : DataNodeConfig) : List String :=
  match Cpp.findChar chunkId '_' with
  | none => []
  | some pos =>
    if Cpp.prefixTo chunkId pos ≠ "chunk" then []
    else
      match Cpp.stoi (Cpp.suffixFrom chunkId (pos + 1)) with
      | .error _ => []
      | .ok n => createDirectoriesRecursively (chunkDirectory config.basePath n)

/-- A call to a datanode, and what the disk does to its file. -/
inductive ChunkRequest
  | put (fault : WriteFault) (messages : List PutChunkRequest)
  | get (fault : ReadFault) (chunkId : String)
  | delete (removeFails : Option String) (chunkId : String)

inductive HandlerReply
  | put (status : Status) (response : PutChunkResponse)
  | get (status : Status) (messages : List GetChunkResponse)
  | delete (status : Status) (response : DeleteChunkResponse)
deriving DecidableEq, Repr

namespace ChunkRequest

/-- The id `get_chunk_path` is called with, if it is. -/
def chunkId? : ChunkRequest → Option String
  | .put _ messages => messages.head?.map PutChunkRequest.chunkId
  | .get _ chunkId => some chunkId
  | .delete _ chunkId => some chunkId

/-- The answer when `std::stoi` throws. -/
def thrown : ChunkRequest → HandlerReply
  | .put _ _ => .put Status.unexpectedError {}
  | .get _ _ => .get Status.unexpectedError []
  | .delete _ _ => .delete Status.unexpectedError {}

/-- The handlers on a `Disk`. -/
def handle (config : DataNodeConfig) (disk : Disk) : ChunkRequest → HandlerReply × Disk
  | .put fault messages =>
    let (status, response, disk) := putChunk config fault { messages := messages } disk
    (.put status response, disk)
  | .get fault chunkId =>
    let (status, messages) := getChunk config fault chunkId disk
    (.get status messages, disk)
  | .delete removeFails chunkId =>
    let (status, response, disk) := deleteChunk config removeFails chunkId disk
    (.delete status response, disk)

/-- The same call, with the disk refusing to create a file. -/
def refused : ChunkRequest → ChunkRequest
  | .put fault messages => .put { fault with openFails := true } messages
  | r => r

end ChunkRequest

/-! ## Handlers on a tree -/

section
variable (cwd : List (List Char))

/-- `file.open(path, std::ios::binary)`, `none` when the stream is bad. -/
def OFStream.openOn (path : String) (tree : DiskTree) : Option (OFStream × DiskTree) :=
  match tree.create (place cwd path) [] with
  | .error _ => none
  | .ok tree => some ({ path := path }, tree)

def OFStream.writeOn (file : OFStream) (fault : Option Nat) (data : Bytes) (tree : DiskTree) :
    OFStream × DiskTree :=
  if file.bad then (file, tree)
  else
    match fault with
    | none => (file, tree.write (place cwd file.path) (· ++ data))
    | some k => ({ file with bad := true }, tree.write (place cwd file.path) (· ++ data.take k))

def OFStream.closeOn (file : OFStream) (fault : Option Nat) (tree : DiskTree) : DiskTree :=
  match fault with
  | none => tree
  | some k => tree.write (place cwd file.path) (·.take k)

/-- The writes of the `Read` loop. -/
def writeMessages (fault : WriteFault) : Nat → OFStream → List PutChunkRequest → DiskTree →
    OFStream × DiskTree
  | _, file, [], tree => (file, tree)
  | i, file, req :: reqs, tree =>
    let (file, tree) := file.writeOn cwd (fault.write i) req.data tree
    writeMessages fault (i + 1) file reqs tree

def failedToOpen : HandlerReply :=
  .put { code := .internal, errorMessage := "Failed to open file" } {}

/-- `get_chunk_path` has returned `path`: the rest of the handler. -/
def ChunkRequest.handleOn (path : String) (tree : DiskTree) : ChunkRequest → HandlerReply × DiskTree
  | .put fault messages =>
    if fault.openFails then (failedToOpen, tree)
    else
      match OFStream.openOn cwd path tree with
      | none => (failedToOpen, tree)
      | some (file, tree) =>
        let (file, tree) := writeMessages cwd fault 0 file messages tree
        (.put Status.OK { success := true }, file.closeOn cwd fault.flush tree)
  | .get fault _ =>
    match (if fault.openFails then none else tree.content (place cwd path)) with
    | none => (.get { code := .notFound, errorMessage := "Chunk not found" } [], tree)
    | some content =>
      (.get Status.OK ((Blocks.readBlocks bufferSize (fault.visible content)).map GetChunkResponse.mk), tree)
  | .delete removeFails _ =>
    match removeFails with
    | some err => (.delete Status.OK { success := false, errorMessage := err }, tree)
    | none =>
      match tree.unlink (place cwd path) with
      | .ok tree => (.delete Status.OK { success := true }, tree)
      | .error .enoent => (.delete Status.OK { success := true }, tree)
      | .error .enotdir => (.delete Status.OK { success := false, errorMessage := "Not a directory" }, tree)
      | .error _ => (.delete Status.OK { success := false, errorMessage := "Is a directory" }, tree)

end

/-! ## Steps -/

inductive RequestPhase
  /-- in `get_chunk_path`, which will return `path`: the directories still to make -/
  | making (path : String) (todo : List String)
  | answered (reply : HandlerReply)

/-- The handlers of one datanode at work. -/
structure NodeTree where
  tree : DiskTree
  requests : Nat → Option (ChunkRequest × RequestPhase)
  /-- has a `mkdir` failed? -/
  failed : Bool

inductive TreeAction
  | start (k : Nat) (request : ChunkRequest)
  /-- `fails`: the `mkdir` fails for want of space, of permission -/
  | mkdir (k : Nat) (fails : Bool)
  | operate (k : Nat)

namespace NodeTree

def start (tree : DiskTree) : NodeTree where
  tree := tree
  requests _ := none
  failed := false

def set (s : NodeTree) (k : Nat) (request : ChunkRequest) (phase : RequestPhase) : NodeTree :=
  { s with requests := Function.update s.requests k (some (request, phase)) }

/-- A call without a message does not come to `get_chunk_path`. -/
def startRequest (config : DataNodeConfig) (s : NodeTree) (k : Nat) (request : ChunkRequest) :
    Option NodeTree :=
  match s.requests k with
  | some _ => none
  | none =>
    match request.chunkId? with
    | none => some (s.set k request (.answered (.put Status.OK { success := true })))
    | some chunkId =>
      match getChunkPath chunkId config with
      | .error _ => some (s.set k request (.answered request.thrown))
      | .ok path => some (s.set k request (.making path (chunkDirectories chunkId config)))

/-- An `errno` other than `EEXIST` is thrown, and caught in `get_chunk_path`. -/
def mkdir (cwd : List (List Char)) (s : NodeTree) (k : Nat) (fails : Bool) : Option NodeTree :=
  match s.requests k with
  | some (request, .making path (directory :: todo)) =>
    if fails then some ({ s with failed := true }.set k request (.making path []))
    else
      match s.tree.mkdir (place cwd directory) with
      | .ok tree => some ({ s with tree := tree }.set k request (.making path todo))
      | .error .eexist => some (s.set k request (.making path todo))
      | .error _ => some ({ s with failed := true }.set k request (.making path []))
  | _ => none

/-- The rest of the handler: its file is opened, read or written, and closed. -/
def operate (cwd : List (List Char)) (s : NodeTree) (k : Nat) : Option NodeTree :=
  match s.requests k with
  | some (request, .making path []) =>
    let (reply, tree) := request.handleOn cwd path s.tree
    some ({ s with tree := tree }.set k request (.answered reply))
  | _ => none

def step (config : DataNodeConfig) (cwd : List (List Char)) (s : NodeTree) : TreeAction → Option NodeTree
  | .start k request => s.startRequest config k request
  | .mkdir k fails => s.mkdir cwd k fails
  | .operate k => s.operate cwd k

end NodeTree

/-! ## Where the files go -/

section
variable (config : DataNodeConfig) (cwd : List (List Char))

def directoryPlace (n : Nat) : List (List Char) := place cwd (chunkDirectory config.basePath n)

def filePlace (n : Nat) : List (List Char) := place cwd (chunkFile config.basePath n)

end

section
variable {config : DataNodeConfig} {cwd : List (List Char)}

/-- The next path is the last one, or a name further up. -/
theorem climbs_next {target : List (List Char)} {q t : List Char} {paths : List (List (List Char))}
    (hq : q = [] ∨ ∃ a, q = a ++ ['/']) (ht : '/' ∉ t) (h : Climbs target (names (q ++ t)) paths) :
    Climbs target (names q) (names (q ++ t) :: paths) := by
  have hnames : names (q ++ t) = names q ++ names t := by
    rcases hq with rfl | ⟨a, rfl⟩
    · rfl
    · rw [List.append_assoc, names_snoc]
      exact names_append_cons a t
  rw [hnames] at h ⊢
  rcases names_of_not_mem ht with ht | ht
  · rw [ht, List.append_nil] at h ⊢
    exact .stay h
  · rw [ht] at h ⊢
    exact .up t h

/-- **The loop goes from the top down**: it has passed `q`, up to a slash, and `t`. -/
theorem climbs_directoryPrefixes (rest q t : List Char) (hq : q = [] ∨ ∃ a, q = a ++ ['/'])
    (ht : '/' ∉ t) :
    Climbs (names (q ++ t ++ rest)) (names q) ((directoryPrefixes (q ++ t) rest).map names) := by
  induction rest generalizing q t with
  | nil =>
    rw [List.append_nil]
    exact climbs_next hq ht .done
  | cons c rest ih =>
    have hsplit : q ++ t ++ c :: rest = q ++ t ++ [c] ++ rest := by simp
    rw [directoryPrefixes, hsplit]
    by_cases hc : c = '/'
    · subst hc
      have hrest := ih (q ++ t ++ ['/']) [] (.inr ⟨q ++ t, rfl⟩) List.not_mem_nil
      rw [List.append_nil, names_snoc] at hrest
      by_cases hdone : q ++ t = []
      · rw [if_neg fun h => h.2 hdone]
        obtain ⟨rfl, rfl⟩ := List.append_eq_nil_iff.mp hdone
        exact hrest
      · rw [if_pos ⟨rfl, hdone⟩]
        exact climbs_next hq ht hrest
    · have hslash : '/' ∉ t ++ [c] := by
        rw [List.mem_append, List.mem_singleton, not_or]
        exact ⟨ht, fun he => hc he.symm⟩
      rw [if_neg fun h => hc h.1, List.append_assoc q t [c]]
      exact ih q (t ++ [c]) hq hslash

/-- What the loop asks for begins like the path. -/
theorem head_directoryPrefixes (rest done : List Char) :
    ∀ d ∈ directoryPrefixes done rest, done ++ rest = [] ∨ d.head? = (done ++ rest).head? := by
  induction rest generalizing done with
  | nil =>
    intro d hd
    rw [List.append_nil]
    exact .inr (by rw [List.mem_singleton.mp hd])
  | cons c rest ih =>
    have hsplit : done ++ c :: rest = done ++ [c] ++ rest := by simp
    intro d hd
    rw [directoryPrefixes] at hd
    rw [hsplit]
    split at hd
    · next h =>
      rcases List.mem_cons.mp hd with rfl | hd
      · right
        rw [List.append_assoc, List.head?_append_of_ne_nil d h.2]
      · exact ih _ d hd
    · exact ih _ d hd

/-- The directories of a path, from the working directory or the root on. -/
theorem climbs_createDirectories (cwd : List (List Char)) (path : String) (hne : path.toList ≠ []) :
    ∃ top, (top = [] ∨ top = cwd) ∧
      Climbs (place cwd path) top ((createDirectoriesRecursively path).map (place cwd)) := by
  let top := if path.toList.head? = some '/' then [] else cwd
  have htop : top = [] ∨ top = cwd := by
    by_cases h : path.toList.head? = some '/'
    · exact .inl (if_pos h)
    · exact .inr (if_neg h)
  refine ⟨top, htop, ?_⟩
  have hclimbs := (climbs_directoryPrefixes path.toList [] [] (.inl rfl) List.not_mem_nil).under top
  have hplaces : (createDirectoriesRecursively path).map (place cwd) =
      ((directoryPrefixes [] path.toList).map names).map (top ++ ·) := by
    rw [createDirectoriesRecursively, List.map_map, List.map_map]
    refine List.map_congr_left fun d hd => ?_
    have hhead := (head_directoryPrefixes path.toList [] d hd).resolve_left hne
    simp only [Function.comp_apply, place, String.toList_ofList, hhead, List.nil_append]
    rfl
  rw [hplaces]
  have hnil : top ++ names [] = top := List.append_nil _
  rw [hnil] at hclimbs
  exact hclimbs

/-- An ordinary name is one name. -/
theorem names_ordinary {s : String} (h : OrdinaryName s) : names s.toList = [s.toList] := by
  refine names_eq_singleton h.noSlash (fun he => h.nonempty ?_) fun he => h.notDot ?_
  · rw [← String.toList_inj, he]
    rfl
  · rw [← String.toList_inj, he]
    rfl

/-- A path with one more name. -/
theorem place_append {path name : String} (hne : path.toList ≠ []) (hname : OrdinaryName name) :
    place cwd (path ++ "/" ++ name) = place cwd path ++ [name.toList] := by
  have hlist : (path ++ "/" ++ name).toList = path.toList ++ '/' :: name.toList := by
    simp [String.toList_append]
  simp only [place, hlist, List.head?_append_of_ne_nil _ hne, names_append_cons, names_ordinary hname,
    List.append_assoc]

/-- The top of the chunk directories. -/
def basePlace (config : DataNodeConfig) (cwd : List (List Char)) : List (List Char) :=
  place cwd (config.basePath ++ "/")

theorem directoryPlace_eq (n : Nat) : directoryPlace config cwd n = basePlace config cwd ++
    [(toString ((n : Int).tdiv (groupSize * groupSize))).toList,
      (toString (((n : Int).tdiv groupSize).tmod groupSize)).toList] := by
  have hbase : ∀ name, OrdinaryName name →
      place cwd (config.basePath ++ "/" ++ name) = basePlace config cwd ++ [name.toList] := by
    intro name hname
    have hlist : (config.basePath ++ "/" ++ name).toList = config.basePath.toList ++ '/' :: name.toList := by
      simp [String.toList_append]
    have htop : (config.basePath ++ "/").toList = config.basePath.toList ++ ['/'] := by
      simp [String.toList_append]
    have hhead : (config.basePath.toList ++ '/' :: name.toList).head? =
        (config.basePath.toList ++ ['/']).head? := by
      cases config.basePath.toList <;> rfl
    have hnil : names [] = [] := rfl
    simp only [basePlace, place, hlist, htop, hhead, names_append_cons, names_ordinary hname, hnil,
      List.nil_append, List.append_assoc]
  have hne : ∀ name, (config.basePath ++ "/" ++ name).toList ≠ [] := by simp [String.toList_append]
  rw [directoryPlace, chunkDirectory, place_append (hne _) (ordinaryName_int _), hbase _ (ordinaryName_int _),
    List.append_assoc]
  rfl

theorem filePlace_eq (n : Nat) :
    filePlace config cwd n = directoryPlace config cwd n ++ [(toString (n : Int) ++ ".cfile").toList] := by
  have hpath : chunkFile config.basePath n =
      chunkDirectory config.basePath n ++ "/" ++ (toString (n : Int) ++ ".cfile") := by
    simp only [chunkFile, chunkDirectory, String.append_assoc]
  rw [filePlace, hpath, place_append (by simp [chunkDirectory, String.toList_append]) (ordinaryName_cfile n)]
  rfl

/-- A file is further down than every directory. -/
theorem length_filePlace (n m : Nat) :
    (filePlace config cwd m).length = (directoryPlace config cwd n).length + 1 := by
  rw [filePlace_eq, directoryPlace_eq, directoryPlace_eq]
  simp

theorem filePlace_inj {n m : Nat} (h : filePlace config cwd n = filePlace config cwd m) : n = m := by
  rw [filePlace_eq, filePlace_eq] at h
  have hname := (List.append_inj' h rfl).2
  have hdigits : ∀ k : Nat, (toString (k : Int)).toList = Nat.toDigits 10 k := fun k => Nat.toList_repr
  simp only [String.toList_append, List.cons.injEq, List.append_cancel_right_eq, and_true, hdigits] at hname
  exact toDigits_inj hname

/-- The directories made for chunk `n`. -/
theorem chunkDirectories_chunkName {n : Nat} (hn : n < 2 ^ 31) :
    chunkDirectories (chunkName n) config =
      createDirectoriesRecursively (chunkDirectory config.basePath n) := by
  have hname : chunkName n = "chunk" ++ String.ofList ['_'] ++ n.repr := rfl
  have hfind : Cpp.findChar (chunkName n) '_' = some 5 := by
    rw [hname]
    exact Cpp.findChar_append "chunk" n.repr '_' (by decide)
  have hpre : Cpp.prefixTo (chunkName n) 5 = "chunk" := by
    rw [hname, String.append_assoc]
    exact Cpp.prefixTo_append "chunk" _
  have hsuf : Cpp.suffixFrom (chunkName n) 6 = n.repr := by
    rw [hname]
    exact Cpp.suffixFrom_append ("chunk" ++ String.ofList ['_']) n.repr
  simp only [chunkDirectories, hfind, hpre, hsuf, Cpp.stoi_repr n, if_pos hn, ne_eq, not_true_eq_false,
    if_false]

end

/-! ## Directories and files apart -/

/-- Nothing stands where the directories and the files of chunks go but directories and
files, and the base path has no `..`. -/
structure Usable (config : DataNodeConfig) (cwd : List (List Char)) (tree : DiskTree) : Prop where
  working : tree.isDirectory cwd = true
  directories : ∀ n < 2 ^ 31, ∀ p, p <+: directoryPlace config cwd n → tree.content p = none
  files : ∀ n < 2 ^ 31, ¬ tree.isDirectory (filePlace config cwd n) = true
  noDotDot : ∀ name ∈ names config.basePath.toList, name ≠ ['.', '.']

/-- The files of the chunks are those on the disk. -/
def Agrees (config : DataNodeConfig) (cwd : List (List Char)) (tree : DiskTree) (disk : Disk) : Prop :=
  ∀ n < 2 ^ 31, tree.content (filePlace config cwd n) = disk (chunkFile config.basePath n)

section
variable {config : DataNodeConfig} {cwd : List (List Char)} {tree tree' : DiskTree} {disk : Disk}

theorem not_filePlace_le {n m : Nat} (h : filePlace config cwd m <+: directoryPlace config cwd n) :
    False := by
  have hle := h.length_le
  rw [length_filePlace n m] at hle
  omega

/-- A directory of chunk `n` was made. -/
theorem Usable.mkdir {n : Nat} {p : List (List Char)} (h : Usable config cwd tree)
    (hp : p <+: directoryPlace config cwd n) (hmade : tree.DirectoryMade tree' p) :
    Usable config cwd tree' where
  working := (hmade.isDirectory _).mpr (.inr h.working)
  directories := by
    intro m hm q hq
    rw [hmade.content]
    exact h.directories m hm q hq
  files := by
    intro m hm hdir
    rcases (hmade.isDirectory _).mp hdir with he | hdir
    · exact not_filePlace_le (he ▸ hp)
    · exact h.files m hm hdir
  noDotDot := h.noDotDot

/-- The file of chunk `n` changed. -/
theorem Usable.changed {n : Nat} {c : Option Bytes} (h : Usable config cwd tree)
    (hchanged : tree.FileChanged tree' (filePlace config cwd n) c) : Usable config cwd tree' where
  working := by rw [hchanged.isDirectory]; exact h.working
  directories := by
    intro m hm q hq
    have hne : q ≠ filePlace config cwd n := fun he => not_filePlace_le (he ▸ hq)
    rw [hchanged.content, Function.update_of_ne hne]
    exact h.directories m hm q hq
  files := by
    rw [hchanged.isDirectory]
    exact h.files
  noDotDot := h.noDotDot

theorem Agrees.changed {n : Nat} {c : Option Bytes} (h : Agrees config cwd tree disk)
    (hchanged : tree.FileChanged tree' (filePlace config cwd n) c) :
    Agrees config cwd tree' (Function.update disk (chunkFile config.basePath n) c) := by
  intro m hm
  rw [hchanged.content]
  by_cases hmn : m = n
  · rw [hmn, Function.update_self, Function.update_self]
  · rw [Function.update_of_ne fun he => hmn (filePlace_inj he),
      Function.update_of_ne fun he => hmn (chunkFile_inj he)]
    exact h m hm

end

/-! ## One handler -/

section
variable {config : DataNodeConfig} {cwd : List (List Char)} {tree : DiskTree} {disk : Disk}

/-- One write, on both. -/
theorem write_simulates (file : OFStream) (fault : Option Nat) (data : Bytes) {c : Bytes}
    (htree : tree.content (place cwd file.path) = some c) (hdisk : disk file.path = some c) :
    ∃ file' tree' c', file.writeOn cwd fault data tree = (file', tree') ∧
      file.write fault data disk = (file', Function.update disk file.path (some c')) ∧
      file'.path = file.path ∧ tree.FileChanged tree' (place cwd file.path) (some c') := by
  have hold : (disk file.path).getD [] = c := by rw [hdisk]; rfl
  by_cases hbad : file.bad = true
  · refine ⟨file, tree, c, if_pos hbad, ?_, rfl, htree ▸ Tree.fileChanged_refl tree _⟩
    rw [← hdisk, Function.update_eq_self]
    exact if_pos hbad
  · cases fault with
    | none =>
      refine ⟨file, _, c ++ data, if_neg hbad, ?_, rfl, Tree.fileChanged_write htree _⟩
      simp only [OFStream.write, if_neg hbad, hold]
    | some k =>
      refine ⟨{ file with bad := true }, _, c ++ data.take k, if_neg hbad, ?_, rfl,
        Tree.fileChanged_write htree _⟩
      simp only [OFStream.write, if_neg hbad, hold]

/-- The writes of a stream, one message after another. -/
theorem writeMessages_simulates (config : DataNodeConfig) (fault : WriteFault) (reqs : List PutChunkRequest)
    (i : Nat) (file : OFStream) (tree : DiskTree) (disk : Disk) (c : Bytes)
    (htree : tree.content (place cwd file.path) = some c) (hdisk : disk file.path = some c) :
    ∃ file' tree' c', writeMessages cwd fault i file reqs tree = (file', tree') ∧
      putChunkLoop config fault i (some file) reqs disk =
        (.ok (some file'), Function.update disk file.path (some c')) ∧
      file'.path = file.path ∧ tree.FileChanged tree' (place cwd file.path) (some c') := by
  induction reqs generalizing i file tree disk c with
  | nil =>
    refine ⟨file, tree, c, rfl, ?_, rfl, htree ▸ Tree.fileChanged_refl tree _⟩
    rw [← hdisk, Function.update_eq_self]
    rfl
  | cons req reqs ih =>
    obtain ⟨file', tree', c', hon, hwrite, hpath, hchanged⟩ :=
      write_simulates file (fault.write i) req.data htree hdisk
    have htree' : tree'.content (place cwd file'.path) = some c' := by
      rw [hpath, hchanged.content, Function.update_self]
    obtain ⟨file'', tree'', c'', hons, hloop, hpath', hchanged'⟩ := ih (i + 1) file' tree'
      (Function.update disk file.path (some c')) c' htree' (by rw [hpath, Function.update_self])
    refine ⟨file'', tree'', c'', ?_, ?_, hpath'.trans hpath, hchanged.trans (hpath ▸ hchanged')⟩
    · rw [writeMessages, hon]
      exact hons
    · rw [putChunkLoop, hwrite]
      refine hloop.trans ?_
      rw [hpath, Function.update_idem]

/-- The close. -/
theorem close_simulates (file : OFStream) (fault : Option Nat) (tree : DiskTree) (disk : Disk) {c : Bytes}
    (htree : tree.content (place cwd file.path) = some c) (hdisk : disk file.path = some c) :
    ∃ c', tree.FileChanged (file.closeOn cwd fault tree) (place cwd file.path) (some c') ∧
      file.close fault disk = Function.update disk file.path (some c') := by
  cases fault with
  | none =>
    refine ⟨c, htree ▸ Tree.fileChanged_refl tree _, ?_⟩
    rw [← hdisk, Function.update_eq_self]
    rfl
  | some k =>
    refine ⟨c.take k, Tree.fileChanged_write htree _, ?_⟩
    rw [OFStream.close, hdisk]
    rfl

/-- The handler on the tree answers like `request'` on the disk, and both change the
same file. -/
def ActsAs (config : DataNodeConfig) (cwd : List (List Char)) (n : Nat) (tree : DiskTree) (disk : Disk)
    (request request' : ChunkRequest) : Prop :=
  (request.handleOn cwd (chunkFile config.basePath n) tree).1 = (request'.handle config disk).1 ∧
    ∃ c, tree.FileChanged (request.handleOn cwd (chunkFile config.basePath n) tree).2
        (filePlace config cwd n) c ∧
      (request'.handle config disk).2 = Function.update disk (chunkFile config.basePath n) c

theorem put_actsAs {n : Nat} (hn : n < 2 ^ 31) (fault : WriteFault) (req : PutChunkRequest)
    (reqs : List PutChunkRequest) (hid : req.chunkId = chunkName n)
    (hdir : tree.isDirectory (directoryPlace config cwd n) = true)
    (hleaf : ¬ tree.isDirectory (filePlace config cwd n) = true) (hagrees : Agrees config cwd tree disk) :
    ActsAs config cwd n tree disk (.put fault (req :: reqs)) (.put fault (req :: reqs)) := by
  have hpath : getChunkPath req.chunkId config = .ok (chunkFile config.basePath n) := by
    rw [hid, getChunkPath_chunkName, if_pos hn]
  by_cases ho : fault.openFails = true
  · have hon : (ChunkRequest.put fault (req :: reqs)).handleOn cwd (chunkFile config.basePath n) tree =
        (failedToOpen, tree) := if_pos ho
    have hflat : (ChunkRequest.put fault (req :: reqs)).handle config disk = (failedToOpen, disk) := by
      simp only [ChunkRequest.handle, putChunk, putChunkLoop, hpath, if_pos ho]
      rfl
    rw [ActsAs, hon, hflat]
    refine ⟨rfl, _, Tree.fileChanged_refl tree _, ?_⟩
    rw [hagrees n hn, Function.update_eq_self]
  · have hparent : tree.isDirectory (filePlace config cwd n).dropLast = true := by
      rw [filePlace_eq, List.dropLast_concat]
      exact hdir
    obtain ⟨tree', hcreate, hcreated⟩ := Tree.exists_create hparent hleaf ([] : Bytes)
    have htree' : tree'.content (place cwd (chunkFile config.basePath n)) = some [] := by
      rw [hcreated.content]
      exact Function.update_self ..
    obtain ⟨file', tree'', c', hons, hloop, hfile, hwritten⟩ := writeMessages_simulates config fault
      (req :: reqs) 0 { path := chunkFile config.basePath n } tree'
      (Function.update disk (chunkFile config.basePath n) (some [])) [] htree' (Function.update_self ..)
    have htree'' : tree''.content (place cwd file'.path) = some c' := by
      rw [hfile, hwritten.content, Function.update_self]
    obtain ⟨c'', hclosed, hclose⟩ := close_simulates file' fault.flush tree''
      (Function.update disk (chunkFile config.basePath n) (some c')) htree'' (by
        rw [hfile]
        exact Function.update_self ..)
    have hon : (ChunkRequest.put fault (req :: reqs)).handleOn cwd (chunkFile config.basePath n) tree =
        (.put Status.OK { success := true }, file'.closeOn cwd fault.flush tree'') := by
      have hopen : OFStream.openOn cwd (chunkFile config.basePath n) tree =
          some ({ path := chunkFile config.basePath n }, tree') := by
        unfold OFStream.openOn
        rw [show tree.create (place cwd (chunkFile config.basePath n)) [] = .ok tree' from hcreate]
      simp only [ChunkRequest.handleOn, if_neg ho, hopen, hons]
    have hflat : (ChunkRequest.put fault (req :: reqs)).handle config disk =
        (.put Status.OK { success := true },
          Function.update disk (chunkFile config.basePath n) (some c'')) := by
      have hfirst : putChunkLoop config fault 0 none (req :: reqs) disk =
          (.ok (some file'), Function.update disk (chunkFile config.basePath n) (some c')) := by
        rw [putChunkLoop]
        simp only [hpath, if_neg ho]
        refine hloop.trans ?_
        rw [Function.update_idem]
      simp only [ChunkRequest.handle, putChunk, hfirst, hclose, hfile, Function.update_idem]
    rw [ActsAs, hon, hflat]
    refine ⟨rfl, some c'', hcreated.trans (hwritten.trans ?_), rfl⟩
    rw [hfile] at hclosed
    exact hclosed

/-- Without the directory the file is not created, as when the disk refuses. -/
theorem refused_actsAs {n : Nat} (hn : n < 2 ^ 31) (fault : WriteFault) (req : PutChunkRequest)
    (reqs : List PutChunkRequest) (hid : req.chunkId = chunkName n)
    (hdir : ¬ tree.isDirectory (directoryPlace config cwd n) = true) (hagrees : Agrees config cwd tree disk) :
    ActsAs config cwd n tree disk (.put fault (req :: reqs))
      (ChunkRequest.put fault (req :: reqs)).refused := by
  have hpath : getChunkPath req.chunkId config = .ok (chunkFile config.basePath n) := by
    rw [hid, getChunkPath_chunkName, if_pos hn]
  have hon : (ChunkRequest.put fault (req :: reqs)).handleOn cwd (chunkFile config.basePath n) tree =
      (failedToOpen, tree) := by
    by_cases ho : fault.openFails = true
    · exact if_pos ho
    · have hparent : ¬ tree.isDirectory (filePlace config cwd n).dropLast = true := by
        rw [filePlace_eq, List.dropLast_concat]
        exact hdir
      obtain ⟨e, he⟩ := Tree.create_error hparent ([] : Bytes)
      have hopen : OFStream.openOn cwd (chunkFile config.basePath n) tree = none := by
        unfold OFStream.openOn
        rw [show tree.create (place cwd (chunkFile config.basePath n)) [] = .error e from he]
      simp only [ChunkRequest.handleOn, if_neg ho, hopen]
  have hflat : (ChunkRequest.put fault (req :: reqs)).refused.handle config disk = (failedToOpen, disk) := by
    simp only [ChunkRequest.refused, ChunkRequest.handle, putChunk, putChunkLoop, hpath, if_true]
    rfl
  rw [ActsAs, hon, hflat]
  refine ⟨rfl, _, Tree.fileChanged_refl tree _, ?_⟩
  rw [hagrees n hn, Function.update_eq_self]

theorem get_actsAs {n : Nat} (hn : n < 2 ^ 31) (fault : ReadFault) (hagrees : Agrees config cwd tree disk) :
    ActsAs config cwd n tree disk (.get fault (chunkName n)) (.get fault (chunkName n)) := by
  have hcontent : tree.content (place cwd (chunkFile config.basePath n)) =
      disk (chunkFile config.basePath n) := hagrees n hn
  have hpath : getChunkPath (chunkName n) config = .ok (chunkFile config.basePath n) := by
    rw [getChunkPath_chunkName, if_pos hn]
  have hon : ((ChunkRequest.get fault (chunkName n)).handleOn cwd (chunkFile config.basePath n) tree).2 =
      tree := by
    simp only [ChunkRequest.handleOn]
    split <;> rfl
  refine ⟨?_, tree.content (filePlace config cwd n), ?_, ?_⟩
  · simp only [ChunkRequest.handleOn, ChunkRequest.handle, getChunk, hpath, hcontent]
    cases (if fault.openFails = true then none else disk (chunkFile config.basePath n)) with
    | none => rfl
    | some content => rfl
  · rw [hon]
    exact Tree.fileChanged_refl tree _
  · rw [hagrees n hn, Function.update_eq_self]
    rfl

theorem delete_actsAs {n : Nat} (hn : n < 2 ^ 31) (removeFails : Option String)
    (husable : Usable config cwd tree) (hagrees : Agrees config cwd tree disk) :
    ActsAs config cwd n tree disk (.delete removeFails (chunkName n))
      (.delete removeFails (chunkName n)) := by
  have hpath : getChunkPath (chunkName n) config = .ok (chunkFile config.basePath n) := by
    rw [getChunkPath_chunkName, if_pos hn]
  have hplace : place cwd (chunkFile config.basePath n) = filePlace config cwd n := rfl
  cases removeFails with
  | some err =>
    refine ⟨?_, _, Tree.fileChanged_refl tree _, ?_⟩
    · simp only [ChunkRequest.handleOn, ChunkRequest.handle, deleteChunk, hpath]
    · rw [hagrees n hn, Function.update_eq_self]
      simp only [ChunkRequest.handle, deleteChunk, hpath]
  | none =>
    have hflat : (ChunkRequest.delete none (chunkName n)).handle config disk =
        (.delete Status.OK { success := true }, Function.update disk (chunkFile config.basePath n) none) := by
      simp only [ChunkRequest.handle, deleteChunk, hpath]
    rw [ActsAs, hflat]
    cases hc : tree.content (filePlace config cwd n) with
    | some c =>
      obtain ⟨tree', hunlink, hchanged⟩ := Tree.exists_unlink hc
      simp only [ChunkRequest.handleOn, hplace, hunlink]
      exact ⟨trivial, none, hchanged, rfl⟩
    | none =>
      have hunlink : tree.unlink (filePlace config cwd n) = .error .enoent := by
        refine Tree.unlink_absent (husable.files n hn) fun p hp => ?_
        rw [filePlace_eq] at hp
        rcases List.prefix_concat_iff.mp hp with he | hp
        · rw [he, ← filePlace_eq, hc]
        · exact husable.directories n hn p hp
      simp only [ChunkRequest.handleOn, hplace, hunlink]
      exact ⟨trivial, none, hc ▸ Tree.fileChanged_refl tree _, rfl⟩

/-- **One handler.**  Only a `PutChunk` without its directory goes another way. -/
theorem handleOn_actsAs {n : Nat} (hn : n < 2 ^ 31) {request : ChunkRequest}
    (hid : request.chunkId? = some (chunkName n)) (husable : Usable config cwd tree)
    (hagrees : Agrees config cwd tree disk) :
    ActsAs config cwd n tree disk request request ∨
      (¬ tree.isDirectory (directoryPlace config cwd n) = true ∧
        ActsAs config cwd n tree disk request request.refused) := by
  cases request with
  | put fault messages =>
    cases messages with
    | nil => cases hid
    | cons req reqs =>
      have hid : req.chunkId = chunkName n := Option.some.inj hid
      by_cases hdir : tree.isDirectory (directoryPlace config cwd n) = true
      · exact .inl (put_actsAs hn fault req reqs hid hdir (husable.files n hn) hagrees)
      · exact .inr ⟨hdir, refused_actsAs hn fault req reqs hid hdir hagrees⟩
  | get fault chunkId =>
    cases hid
    exact .inl (get_actsAs hn fault hagrees)
  | delete removeFails chunkId =>
    cases hid
    exact .inl (delete_actsAs hn removeFails husable hagrees)

end

end ToyDfs
