import Mathlib.Data.List.Basic
import Mathlib.Data.List.Infix
import Mathlib.Logic.Function.Basic

/-!
Files and directories, by the names on the way from the root.

A `Tree` has a directory above each of its entries.  There are no links, and a name `..`
stands for itself.  `mkdir`, `create` (`open` with `O_CREAT | O_TRUNC`), `write` and
`unlink` fail as the calls do.

* `mkdir_eq`, `exists_create`, `fileChanged_write`, `exists_unlink`: what they do, and
  that they do nothing else (`DirectoryMade`, `FileChanged`).
* `place`: the names in a path string.
* `Climbs`: paths from a directory up, a name at most at a time; each `mkdir` finds the
  directory it needs (`Climbs.mkdir`).
-/

namespace FileTree

variable {ν α : Type}

inductive Entry (α : Type)
  | file (content : α)
  | directory
deriving DecidableEq, Repr

/-- The values of `errno` that tell the outcomes apart. -/
inductive Errno
  | eexist
  | enoent
  | enotdir
  | eisdir
deriving DecidableEq, Repr

structure Tree (ν α : Type) where
  entry : List ν → Option (Entry α)
  root : entry [] = some .directory
  parent : ∀ path, path ≠ [] → (entry path).isSome → entry path.dropLast = some .directory

/-- Paths from `dir` up to `target`, each at most a name longer than the last. -/
inductive Climbs (target : List ν) : List ν → List (List ν) → Prop
  | done : Climbs target target []
  | stay {dir : List ν} {paths : List (List ν)} : Climbs target dir paths → Climbs target dir (dir :: paths)
  | up {dir : List ν} {paths : List (List ν)} (name : ν) :
    Climbs target (dir ++ [name]) paths → Climbs target dir ((dir ++ [name]) :: paths)

/-- The same paths from further up the tree. -/
theorem Climbs.under {target dir : List ν} {paths : List (List ν)} (top : List ν)
    (h : Climbs target dir paths) : Climbs (top ++ target) (top ++ dir) (paths.map (top ++ ·)) := by
  induction h with
  | done => exact .done
  | stay _ ih => exact .stay ih
  | up name _ ih =>
    rw [← List.append_assoc] at ih
    rw [List.map_cons, ← List.append_assoc]
    exact .up name ih

theorem Climbs.le {target dir : List ν} {paths : List (List ν)} (h : Climbs target dir paths) :
    dir <+: target ∧ ∀ p ∈ paths, p <+: target := by
  induction h with
  | done => exact ⟨List.prefix_refl _, fun p hp => absurd hp List.not_mem_nil⟩
  | stay _ ih => exact ⟨ih.1, List.forall_mem_cons.mpr ih⟩
  | up name _ ih => exact ⟨(List.prefix_append _ _).trans ih.1, List.forall_mem_cons.mpr ih⟩

/-! ## Path strings -/

/-- The names in a path; empty ones and `.` lead nowhere. -/
def names (path : List Char) : List (List Char) :=
  (path.splitOn '/').filter fun name => name ≠ [] && name ≠ ['.']

/-- What a path refers to, for a process that works in `cwd`. -/
def place (cwd : List (List Char)) (path : String) : List (List Char) :=
  (if path.toList.head? = some '/' then [] else cwd) ++ names path.toList

theorem names_append_cons (a b : List Char) : names (a ++ '/' :: b) = names a ++ names b := by
  rw [names, List.splitOn_append_cons_self, List.filter_append]
  rfl

theorem names_snoc (a : List Char) : names (a ++ ['/']) = names a := by
  rw [names_append_cons]
  exact List.append_nil _

/-- What has no slash is one name at most. -/
theorem names_of_not_mem {name : List Char} (h : '/' ∉ name) : names name = [] ∨ names name = [name] := by
  rw [names, List.splitOn_eq_singleton h, List.filter_singleton]
  cases decide (name ≠ []) && decide (name ≠ ['.']) with
  | true => exact .inr rfl
  | false => exact .inl rfl

theorem names_eq_singleton {name : List Char} (h : '/' ∉ name) (hne : name ≠ []) (hdot : name ≠ ['.']) :
    names name = [name] := by
  rw [names, List.splitOn_eq_singleton h, List.filter_singleton]
  simp [hne, hdot]

namespace Tree

def isDirectory (t : Tree ν α) (path : List ν) : Bool :=
  match t.entry path with
  | some .directory => true
  | _ => false

/-- The content of the file there. -/
def content (t : Tree ν α) (path : List ν) : Option α :=
  match t.entry path with
  | some (.file a) => some a
  | _ => none

theorem isDirectory_iff {t : Tree ν α} {path : List ν} :
    t.isDirectory path = true ↔ t.entry path = some .directory := by
  unfold isDirectory
  split
  · next h => simp [h]
  · next h => exact ⟨fun hf => (by cases hf), fun he => absurd he h⟩

theorem isDirectory_of_content {t : Tree ν α} {path : List ν} {a : α} (h : t.content path = some a) :
    ¬ t.isDirectory path = true ∧ t.isDirectory path.dropLast = true := by
  have hfile : t.entry path = some (.file a) := by
    unfold content at h
    split at h
    · next b hb =>
      cases h
      exact hb
    · cases h
  have hleaf : ¬ t.isDirectory path = true := by
    rw [isDirectory_iff, hfile]
    exact fun h => by cases h
  have hne : path ≠ [] := by
    rintro rfl
    exact hleaf (isDirectory_iff.mpr t.root)
  exact ⟨hleaf, isDirectory_iff.mpr (t.parent path hne (by rw [hfile]; rfl))⟩

theorem isDirectory_root (t : Tree ν α) : t.isDirectory [] = true := isDirectory_iff.mpr t.root

variable [DecidableEq ν]

/-- Change an entry that is no directory. -/
def set (t : Tree ν α) (path : List ν) (e : Option (Entry α)) (hdir : t.isDirectory path.dropLast = true)
    (hleaf : ¬ t.isDirectory path = true) : Tree ν α where
  entry := Function.update t.entry path e
  root := by
    rw [isDirectory_iff] at hleaf
    have hne : [] ≠ path := fun h => hleaf (h ▸ t.root)
    rw [Function.update_of_ne hne, t.root]
  parent := by
    rw [isDirectory_iff] at hdir hleaf
    intro p hp hsome
    by_cases hpath : p = path
    · have hne : p.dropLast ≠ path := by
        intro h
        have hlen := congrArg List.length h
        rw [List.length_dropLast, ← hpath] at hlen
        have hpos := List.length_pos_iff.mpr hp
        omega
      rw [Function.update_of_ne hne, hpath, hdir]
    · rw [Function.update_of_ne hpath] at hsome
      have hparent := t.parent p hp hsome
      have hne : p.dropLast ≠ path := fun h => hleaf (h ▸ hparent)
      rw [Function.update_of_ne hne, hparent]

/-- `errno` when the path does not lead anywhere. -/
def unreachable (t : Tree ν α) (path : List ν) : Errno :=
  if path.inits.any fun p => (t.content p).isSome then .enotdir else .enoent

def mkdir (t : Tree ν α) (path : List ν) : Except Errno (Tree ν α) :=
  if hleaf : t.isDirectory path then .error .eexist
  else if (t.content path).isSome then .error .eexist
  else if hdir : t.isDirectory path.dropLast then .ok (t.set path (some .directory) hdir hleaf)
  else .error (t.unreachable path)

/-- `open` for writing, with `O_CREAT` and `O_TRUNC`; the file is `a` then. -/
def create (t : Tree ν α) (path : List ν) (a : α) : Except Errno (Tree ν α) :=
  if hleaf : t.isDirectory path then .error .eisdir
  else if hdir : t.isDirectory path.dropLast then .ok (t.set path (some (.file a)) hdir hleaf)
  else .error (t.unreachable path)

/-- Write to a file that is open: `f` is what becomes of its content. -/
def write (t : Tree ν α) (path : List ν) (f : α → α) : Tree ν α :=
  match h : t.content path with
  | none => t
  | some a => t.set path (some (.file (f a))) (isDirectory_of_content h).2 (isDirectory_of_content h).1

def unlink (t : Tree ν α) (path : List ν) : Except Errno (Tree ν α) :=
  if t.isDirectory path then .error .eisdir
  else
    match h : t.content path with
    | none => .error (t.unreachable path)
    | some _ => .ok (t.set path none (isDirectory_of_content h).2 (isDirectory_of_content h).1)

/-! ## What the calls do -/

/-- A directory was made, and nothing else. -/
structure DirectoryMade (t u : Tree ν α) (path : List ν) : Prop where
  isDirectory : ∀ p, u.isDirectory p = true ↔ p = path ∨ t.isDirectory p = true
  content : u.content = t.content
  entry : ∀ p, p ≠ path → u.entry p = t.entry p

/-- The file at `path` became `c`, and nothing else changed. -/
structure FileChanged (t u : Tree ν α) (path : List ν) (c : Option α) : Prop where
  isDirectory : u.isDirectory = t.isDirectory
  content : u.content = Function.update t.content path c
  entry : ∀ p, p ≠ path → u.entry p = t.entry p

theorem fileChanged_refl (t : Tree ν α) (path : List ν) : FileChanged t t path (t.content path) where
  isDirectory := rfl
  content := (Function.update_eq_self ..).symm
  entry := fun _ _ => rfl

theorem FileChanged.trans {t u v : Tree ν α} {path : List ν} {c d : Option α} (h : FileChanged t u path c)
    (h' : FileChanged u v path d) : FileChanged t v path d where
  isDirectory := h'.isDirectory.trans h.isDirectory
  content := by rw [h'.content, h.content, Function.update_idem]
  entry := fun p hp => (h'.entry p hp).trans (h.entry p hp)

section
variable {t u : Tree ν α} {path : List ν}

theorem entry_set {e : Option (Entry α)} {hdir : t.isDirectory path.dropLast = true}
    {hleaf : ¬ t.isDirectory path = true} (p : List ν) :
    (t.set path e hdir hleaf).entry p = if p = path then e else t.entry p := by
  by_cases hp : p = path
  · rw [if_pos hp, hp]
    exact Function.update_self ..
  · rw [if_neg hp]
    exact Function.update_of_ne hp ..

/-- What `set` does to a file. -/
theorem fileChanged_set {c : Option α} {hdir : t.isDirectory path.dropLast = true}
    {hleaf : ¬ t.isDirectory path = true} :
    FileChanged t (t.set path (c.map .file) hdir hleaf) path c where
  isDirectory := by
    funext p
    rw [Bool.eq_iff_iff, isDirectory_iff, isDirectory_iff, entry_set]
    by_cases hp : p = path
    · rw [if_pos hp, hp]
      rw [isDirectory_iff] at hleaf
      cases c with
      | none => exact ⟨fun h => (by cases h), fun h => absurd h hleaf⟩
      | some a => exact ⟨fun h => (by cases h), fun h => absurd h hleaf⟩
    · rw [if_neg hp]
  content := by
    funext p
    rw [content, entry_set]
    by_cases hp : p = path
    · rw [if_pos hp, hp, Function.update_self]
      cases c <;> rfl
    · rw [if_neg hp, Function.update_of_ne hp]
      rfl
  entry := fun p hp => by rw [entry_set, if_neg hp]

theorem directoryMade_set {hdir : t.isDirectory path.dropLast = true} {hleaf : ¬ t.isDirectory path = true}
    (hfree : t.content path = none) : DirectoryMade t (t.set path (some .directory) hdir hleaf) path where
  isDirectory := by
    intro p
    rw [isDirectory_iff, isDirectory_iff, entry_set]
    by_cases hp : p = path
    · simp [hp]
    · simp [hp]
  content := by
    funext p
    rw [content, entry_set]
    by_cases hp : p = path
    · rw [if_pos hp, hp, hfree]
    · rw [if_neg hp]
      rfl
  entry := fun p hp => by rw [entry_set, if_neg hp]

/-- Where there is no file, in a directory: a directory stands there afterwards. -/
theorem mkdir_eq (hdir : t.isDirectory path.dropLast = true) (hfree : t.content path = none) :
    (t.isDirectory path = true ∧ t.mkdir path = .error .eexist) ∨
      ∃ u, t.mkdir path = .ok u ∧ DirectoryMade t u path := by
  by_cases hleaf : t.isDirectory path = true
  · exact .inl ⟨hleaf, dif_pos hleaf⟩
  · refine .inr ⟨t.set path (some .directory) hdir hleaf, ?_, directoryMade_set hfree⟩
    rw [mkdir, dif_neg hleaf, hfree]
    exact dif_pos hdir

/-- A `mkdir` makes the directory or nothing. -/
theorem directoryMade_of_mkdir (h : t.mkdir path = .ok u) : DirectoryMade t u path := by
  unfold mkdir at h
  split at h
  · cases h
  · split at h
    · cases h
    · next hfree =>
      split at h
      · cases h
        exact directoryMade_set (Option.not_isSome_iff_eq_none.mp hfree)
      · cases h

theorem exists_create (hdir : t.isDirectory path.dropLast = true) (hleaf : ¬ t.isDirectory path = true)
    (a : α) : ∃ u, t.create path a = .ok u ∧ FileChanged t u path (some a) := by
  refine ⟨t.set path (some (.file a)) hdir hleaf, ?_, @fileChanged_set ν α _ t path (some a) hdir hleaf⟩
  rw [create, dif_neg hleaf]
  exact dif_pos hdir

/-- No file is created outside a directory. -/
theorem create_error (hdir : ¬ t.isDirectory path.dropLast = true) (a : α) :
    ∃ e, t.create path a = .error e := by
  unfold create
  split
  · exact ⟨_, rfl⟩
  · exact ⟨_, rfl⟩

theorem fileChanged_write {a : α} (h : t.content path = some a) (f : α → α) :
    FileChanged t (t.write path f) path (some (f a)) := by
  unfold write
  split
  · next hnone => cases h.symm.trans hnone
  · next b hb =>
    cases h.symm.trans hb
    exact @fileChanged_set ν α _ t path (some (f a)) _ _

theorem exists_unlink {a : α} (h : t.content path = some a) :
    ∃ u, t.unlink path = .ok u ∧ FileChanged t u path none := by
  refine ⟨t.set path none (isDirectory_of_content h).2 (isDirectory_of_content h).1, ?_,
    @fileChanged_set ν α _ t path none _ _⟩
  rw [unlink, if_neg (isDirectory_of_content h).1]
  split
  · next hnone => cases h.symm.trans hnone
  · rfl

/-- Nothing is there, and no file is in the way. -/
theorem unlink_absent (hleaf : ¬ t.isDirectory path = true) (hfree : ∀ p, p <+: path → t.content p = none) :
    t.unlink path = .error .enoent := by
  have hnone : (path.inits.any fun p => (t.content p).isSome) = false := by
    rw [List.any_eq_false]
    intro p hp
    rw [hfree p ((List.mem_inits p path).mp hp)]
    exact fun h => (by cases h)
  rw [unlink, if_neg hleaf]
  split
  · rw [unreachable, hnone]
    rfl
  · next a ha => cases (hfree path (List.prefix_refl path)).symm.trans ha

end

end Tree

variable [DecidableEq ν]

/-- **The next directory.**  It stands after its `mkdir`. -/
theorem Climbs.mkdir {t : Tree ν α} {target dir path : List ν} {paths : List (List ν)}
    (h : Climbs target dir (path :: paths)) (hdir : t.isDirectory dir = true)
    (hfree : t.content path = none) :
    Climbs target path paths ∧ ((t.isDirectory path = true ∧ t.mkdir path = .error .eexist) ∨
      ∃ u, t.mkdir path = .ok u ∧ t.DirectoryMade u path) := by
  cases h with
  | stay h => exact ⟨h, .inl ⟨hdir, dif_pos hdir⟩⟩
  | up name h =>
    refine ⟨h, Tree.mkdir_eq ?_ hfree⟩
    rw [List.dropLast_concat]
    exact hdir

end FileTree
