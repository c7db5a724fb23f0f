import ToyDfs.Lib.Cpp

/-!
`get_chunk_path`: where a datanode keeps a chunk.

A chunk id `chunk_<n>` is kept at `<base>/<n / 10^6>/<n / 1000 % 1000>/<n>.cfile`
under the datanode's base path; every other id is taken as a path itself.  The
number is read with `std::stoi`, whose exceptions leave the function.

For the ids the coordinator draws (`chunkName n`) the path is `chunkFile` of the
number below `2^31` and an exception above (`getChunkPath_chunkName`).  The file name
tells the number (`fileNumber_chunkFile`), so different numbers have different paths
(`getChunkPath_inj`).

The directories `get_chunk_path` creates on the way are left out: the paths here
name regular files only.
-/

namespace ToyDfs

/-! ## Algorithm -/

structure DataNodeConfig where
  chunkRootPath : String := "/tmp/dfs_chunks"
  nodeId : String := ""
deriving DecidableEq, Repr

def DataNodeConfig.basePath (config : DataNodeConfig) : String :=
  if config.nodeId ≠ "" then config.chunkRootPath ++ "/" ++ config.nodeId else config.chunkRootPath

def groupSize : Int := 1000

/-- The file of chunk number `n` under `basePath`. -/
def chunkFile (basePath : String) (n : Int) : String :=
  let level3 := n.tdiv (groupSize * groupSize)
  let level2 := (n.tdiv groupSize).tmod groupSize
  let dirPath := basePath ++ "/" ++ toString level3 ++ "/" ++ toString level2
  dirPath ++ "/" ++ toString n ++ ".cfile"

def getChunkPath (chunkId : String) (config : DataNodeConfig) : Except Cpp.StoiError String :=
  match Cpp.findChar chunkId '_' with
  | none => .ok chunkId
  | some pos =>
    if Cpp.prefixTo chunkId pos ≠ "chunk" then .ok chunkId
    else
      match Cpp.stoi (Cpp.suffixFrom chunkId (pos + 1)) with
      | .error e => .error e
      | .ok n => .ok (chunkFile config.basePath n)

/-- The id the coordinator gives chunk number `n`. -/
def chunkName (n : Nat) : String := "chunk_" ++ toString n

/-! ## Lemmas -/

theorem toDigits_inj {n m : Nat} (h : Nat.toDigits 10 n = Nat.toDigits 10 m) : n = m := by
  have := congrArg (fun l => Nat.ofDigitChars 10 l 0) h
  simpa using this

theorem chunkName_inj {n m : Nat} (h : chunkName n = chunkName m) : n = m := by
  have hl := congrArg String.toList h
  simp only [chunkName, String.toList_append, List.append_cancel_left_eq] at hl
  exact toDigits_inj (by simpa using hl)

/-- The path of a drawn chunk id; `std::stoi` throws from `2^31` on. -/
theorem getChunkPath_chunkName (n : Nat) (config : DataNodeConfig) :
    getChunkPath (chunkName n) config =
      if n < 2 ^ 31 then .ok (chunkFile config.basePath n) else .error .outOfRange := by
  have hname : chunkName n = "chunk" ++ String.ofList ['_'] ++ n.repr := rfl
  have hfind : Cpp.findChar (chunkName n) '_' = some 5 := by
    rw [hname]
    exact Cpp.findChar_append "chunk" n.repr '_' (by decide)
  have hpre : Cpp.prefixTo (chunkName n) 5 = "chunk" := by
    rw [hname, String.append_assoc]
    exact Cpp.prefixTo_append "chunk" _
  have hsuf : Cpp.suffixFrom (chunkName n) 6 = n.repr := by
    rw [hname]
    exact Cpp.suffixFrom_append ("chunk" ++ String.ofList ['_']) n.repr
  simp only [getChunkPath, hfind, hpre, hsuf, Cpp.stoi_repr n, ne_eq, not_true_eq_false, if_false]
  by_cases hn : n < 2 ^ 31
  · simp only [if_pos hn]
  · simp only [if_neg hn]

/-! ## Reading a number back -/

/-- What `<n>` is in `.../<n>.cfile`. -/
def fileNumber (path : String) : Nat :=
  let fileName := (path.toList.reverse.takeWhile (· ≠ '/')).reverse
  Nat.ofDigitChars 10 (fileName.takeWhile Char.isDigit) 0

theorem fileNumber_chunkFile (base : String) (n : Nat) : fileNumber (chunkFile base n) = n := by
  have hdigits : (toString (n : Int)).toList = Nat.toDigits 10 n := Nat.toList_repr
  have hdigit : ∀ c ∈ Nat.toDigits 10 n, c.isDigit = true := fun c hc =>
    Nat.isDigit_of_mem_toDigits (by omega) (by omega) hc
  have hname : ∀ c ∈ (Nat.toDigits 10 n ++ ".cfile".toList).reverse, decide (c ≠ '/') = true := by
    intro c hc
    rw [List.mem_reverse, List.mem_append] at hc
    apply decide_eq_true
    rintro rfl
    rcases hc with hc | hc
    · exact absurd (hdigit _ hc) (by decide)
    · exact absurd hc (by decide)
  have hpath : ∃ dir, (chunkFile base n).toList =
      dir ++ '/' :: (Nat.toDigits 10 n ++ ".cfile".toList) := by
    refine ⟨(base ++ "/" ++ toString ((n : Int).tdiv (groupSize * groupSize)) ++ "/" ++
      toString (((n : Int).tdiv groupSize).tmod groupSize)).toList, ?_⟩
    rw [← hdigits]
    simp only [chunkFile, String.toList_append, List.append_assoc]
    rfl
  obtain ⟨dir, hdir⟩ := hpath
  have hlast : ((chunkFile base n).toList.reverse.takeWhile (· ≠ '/')).reverse =
      Nat.toDigits 10 n ++ ".cfile".toList := by
    rw [hdir, List.reverse_append, List.reverse_cons, List.append_assoc,
      List.takeWhile_append_of_pos hname]
    simp
  have hnumber : (Nat.toDigits 10 n ++ ".cfile".toList).takeWhile Char.isDigit = Nat.toDigits 10 n := by
    rw [List.takeWhile_append_of_pos hdigit]
    have hdot : ".cfile".toList.takeWhile Char.isDigit = [] := by decide
    rw [hdot, List.append_nil]
  rw [fileNumber, hlast, hnumber]
  exact Nat.ofDigitChars_ten_toDigits

/-- **Different chunk numbers have different files.** -/
theorem chunkFile_inj {base base' : String} {n m : Nat}
    (h : chunkFile base n = chunkFile base' m) : n = m := by
  have hnumber := congrArg fileNumber h
  rwa [fileNumber_chunkFile, fileNumber_chunkFile] at hnumber

theorem getChunkPath_inj {config config' : DataNodeConfig} {n m : Nat} {path : String}
    (hn : getChunkPath (chunkName n) config = .ok path)
    (hm : getChunkPath (chunkName m) config' = .ok path) : n = m := by
  rw [getChunkPath_chunkName] at hn hm
  split at hn
  · split at hm
    · cases hn
      injection hm with hm
      exact chunkFile_inj hm.symm
    · cases hm
  · cases hn

end ToyDfs
