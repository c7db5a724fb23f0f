import ToyDfs.System

/-!
Where the store keeps its chunk lists.

`getFile` hands out a pointer into an entry of `entries_`, and the chunk loop of
`GetFile` goes through that entry's `chunks` with iterators into the vector's
buffer.  Neither holds the store's lock, so what they point at may be gone:

* `putFile` over an entry keeps the entry's node; its vector frees the buffer it
  had and owns a new one;
* `deletePath` frees the node; the buffer moves on to the tombstone;
* a tombstone that is taken out frees its buffer.

`StoreMemory` is the store with the addresses of nodes and buffers.  No address is
used twice, so a stale pointer finds nothing (`cellAt`, `chunksAt`).  It follows
the store through every step (`represents_step`), and no two entries or tombstones
share memory (`separate_step`).
-/

namespace ToyDfs

/-! ## Memory -/

/-- An entry of `entries_`: its node, and the buffer of its chunk list. -/
structure EntryCell where
  node : Nat
  buffer : Nat
  entry : PathEntry
deriving DecidableEq, Repr

structure StoreMemory where
  entries : AList fun _ : String => EntryCell
  /-- each with the buffer of its chunk list -/
  deletedEntries : List (Tombstone × Nat)
  /-- the next free address -/
  next : Nat

namespace StoreMemory

def empty : StoreMemory := { entries := ∅, deletedEntries := [], next := 0 }

/-- The node of `entries_[path]`. -/
def nodeOf (m : StoreMemory) (path : String) : Nat :=
  match m.entries.lookup path with
  | none => m.next
  | some cell => cell.node

/-- `entries_[path] = PathEntry{true, meta}`. -/
def putFile (m : StoreMemory) (path : String) (fileMeta : FileMeta) : StoreMemory :=
  { m with
    entries := m.entries.insert path
      { node := m.nodeOf path, buffer := m.next, entry := { isFile := true, fileMeta := fileMeta } }
    next := m.next + 1 }

/-- The tombstones once this entry is among them. -/
def withTombstone (m : StoreMemory) (path : String) (cell : EntryCell) (deleteTime : TimePoint) :
    List (Tombstone × Nat) :=
  m.deletedEntries ++ [(⟨path, cell.entry.fileMeta, deleteTime⟩, cell.buffer)]

/-- What `cleanupOldTombstones` takes out of a deque that is overfull. -/
def overflow (now : TimePoint) (deletedEntries : List (Tombstone × Nat)) : List (Tombstone × Nat) :=
  if maxDeletedEntries < deletedEntries.length then
    deletedEntries.takeWhile fun x => x.1.expired now
  else []

/-- And what it leaves. -/
def popOverflow (now : TimePoint) (deletedEntries : List (Tombstone × Nat)) : List (Tombstone × Nat) :=
  if maxDeletedEntries < deletedEntries.length then
    deletedEntries.dropWhile fun x => x.1.expired now
  else deletedEntries

def deletePath (m : StoreMemory) (path : String) (deleteTime now : TimePoint) : StoreMemory :=
  match m.entries.lookup path with
  | none => m
  | some cell =>
    if cell.entry.isFile then
      { m with
        entries := m.entries.erase path
        deletedEntries := popOverflow now (m.withTombstone path cell deleteTime) }
    else m

def cleanupTombstones (m : StoreMemory) (now : TimePoint) : StoreMemory :=
  { m with deletedEntries := m.deletedEntries.filter fun x => !x.1.expired now }

/-- The node `getFile` returns a pointer into, `none` for `nullptr`. -/
def getFile (m : StoreMemory) (path : String) : Option Nat :=
  match m.entries.lookup path with
  | none => none
  | some cell => if cell.entry.isFile then some cell.node else none

/-- The nodes in use. -/
def cells (m : StoreMemory) : List (Σ _ : Nat, EntryCell) :=
  m.entries.entries.map fun e => ⟨e.2.node, e.2⟩

/-- The buffers in use. -/
def chunkLists (m : StoreMemory) : List (Σ _ : Nat, List ChunkInfo) :=
  m.entries.entries.map (fun e => ⟨e.2.buffer, e.2.entry.fileMeta.chunks⟩) ++
    m.deletedEntries.map fun x => ⟨x.2, x.1.fileMeta.chunks⟩

/-- The entry in this node, `none` when it is freed. -/
def cellAt (m : StoreMemory) (node : Nat) : Option EntryCell := m.cells.dlookup node

/-- The chunk list in this buffer, `none` when it is freed. -/
def chunksAt (m : StoreMemory) (buffer : Nat) : Option (List ChunkInfo) := m.chunkLists.dlookup buffer

/-- The memory after a step of the system. -/
def after (m : StoreMemory) (s : System) : Action → StoreMemory
  | .putCommit h =>
    match s.puts h with
    | none => m
    | some call =>
      m.putFile (uploadName call.messages)
        { emptyMeta (uploadData call.messages).length with chunks := call.chunks }
  | .deletePath d now =>
    match s.deletes d with
    | none => m
    | some call => m.deletePath call.path s.clock now
  | .cleanupEnd =>
    match s.pass with
    | none => m
    | some p => m.cleanupTombstones p.now
  | _ => m

/-! ## Invariants -/

/-- The same files and tombstones. -/
structure Represents (m : StoreMemory) (store : MetadataStore) : Prop where
  entries : ∀ path, store.entries.lookup path = (m.entries.lookup path).map EntryCell.entry
  deletedEntries : store.deletedEntries = m.deletedEntries.map Prod.fst

/-- Nothing is owned twice, and the next address is free. -/
structure Separate (m : StoreMemory) : Prop where
  nodes : m.cells.NodupKeys
  buffers : m.chunkLists.NodupKeys
  nodes_lt : ∀ node ∈ m.cells.keys, node < m.next
  buffers_lt : ∀ buffer ∈ m.chunkLists.keys, buffer < m.next

/-! ## Lemmas -/

section
variable {m : StoreMemory} {path : String}

/-- An entry, and the others. -/
theorem entries_perm {cell : EntryCell} (h : m.entries.lookup path = some cell) :
    m.entries.entries.Perm (⟨path, cell⟩ :: (m.entries.erase path).entries) := by
  have hkey : path ∈ m.entries.entries.keys := by
    have hsome : (m.entries.lookup path).isSome := by rw [h]; rfl
    exact AList.lookup_isSome.mp hsome
  obtain ⟨cell', l₁, l₂, -, hl, hrest⟩ := List.exists_of_kerase hkey
  have hmem : (⟨path, cell'⟩ : Σ _ : String, EntryCell) ∈ m.entries.entries := by
    rw [hl]
    exact List.mem_append_right _ List.mem_cons_self
  have hcell : m.entries.lookup path = some cell' := AList.mem_lookup_iff.mpr hmem
  rw [h] at hcell
  cases hcell
  show m.entries.entries.Perm (⟨path, cell⟩ :: m.entries.entries.kerase path)
  rw [hrest]
  nth_rewrite 1 [hl]
  exact List.perm_middle

theorem erase_of_none (h : m.entries.lookup path = none) :
    m.entries.entries.kerase path = m.entries.entries :=
  List.kerase_of_notMem_keys (AList.lookup_eq_none.mp h)

theorem overflow_append (now : TimePoint) (deletedEntries : List (Tombstone × Nat)) :
    overflow now deletedEntries ++ popOverflow now deletedEntries = deletedEntries := by
  unfold overflow popOverflow
  split
  · exact List.takeWhile_append_dropWhile
  · rfl

theorem deletePath_of_some {cell : EntryCell} (h : m.entries.lookup path = some cell)
    (hfile : cell.entry.isFile = true) (deleteTime now : TimePoint) :
    m.deletePath path deleteTime now =
      { m with
        entries := m.entries.erase path
        deletedEntries := popOverflow now (m.withTombstone path cell deleteTime) } := by
  simp only [deletePath, h, hfile, if_true]

/-- A path that is no active file. -/
theorem deletePath_of_not (h : ∀ cell, m.entries.lookup path = some cell → cell.entry.isFile = false)
    (deleteTime now : TimePoint) : m.deletePath path deleteTime now = m := by
  unfold deletePath
  cases hl : m.entries.lookup path with
  | none => rfl
  | some cell => simp only [h cell hl, Bool.false_eq_true, if_false]

/-- What `deletePath` asks about the path. -/
theorem file_or_not (m : StoreMemory) (path : String) :
    (∃ cell, m.entries.lookup path = some cell ∧ cell.entry.isFile = true) ∨
      ∀ cell, m.entries.lookup path = some cell → cell.entry.isFile = false := by
  by_cases hfile : ∃ cell, m.entries.lookup path = some cell ∧ cell.entry.isFile = true
  · exact Or.inl hfile
  · refine Or.inr fun cell hl => ?_
    by_contra hne
    exact hfile ⟨cell, hl, (Bool.not_eq_false _).mp hne⟩

theorem getFile_of_lookup {cell : EntryCell} (hl : m.entries.lookup path = some cell)
    (hfile : cell.entry.isFile = true) : m.getFile path = some cell.node := by
  simp only [getFile, hl, hfile, if_true]

theorem getFile_of_not (h : ∀ cell, m.entries.lookup path = some cell → cell.entry.isFile = false) :
    m.getFile path = none := by
  unfold getFile
  cases hl : m.entries.lookup path with
  | none => rfl
  | some cell => simp only [h cell hl, Bool.false_eq_true, if_false]

/-! ## It follows the store -/

variable {store : MetadataStore}

theorem represents_empty : Represents empty .empty := ⟨fun _ => rfl, rfl⟩

theorem Represents.findFile (h : Represents m store) (path : String) :
    store.findFile path = (m.entries.lookup path).bind fun cell =>
      if cell.entry.isFile then some cell.entry.fileMeta else none := by
  unfold MetadataStore.findFile
  rw [h.entries]
  cases m.entries.lookup path <;> rfl

theorem Represents.findFile_some (h : Represents m store) {cell : EntryCell}
    (hl : m.entries.lookup path = some cell) (hfile : cell.entry.isFile = true) :
    store.findFile path = some cell.entry.fileMeta := by
  rw [h.findFile, hl, Option.bind_some, if_pos hfile]

theorem Represents.findFile_none (h : Represents m store)
    (hnot : ∀ cell, m.entries.lookup path = some cell → cell.entry.isFile = false) :
    store.findFile path = none := by
  rw [h.findFile]
  cases hl : m.entries.lookup path with
  | none => rfl
  | some cell => simp only [Option.bind_some, hnot cell hl, Bool.false_eq_true, if_false]

theorem Represents.same {store' : MetadataStore} (h : Represents m store) (hsame : SameFiles store store') :
    Represents m store' := by
  refine ⟨?_, ?_⟩
  · rw [hsame.entries]
    exact h.entries
  · rw [hsame.deletedEntries]
    exact h.deletedEntries

theorem Represents.putFile (h : Represents m store) (path : String) (fileMeta : FileMeta) :
    Represents (m.putFile path fileMeta) (store.putFile path fileMeta) := by
  refine ⟨?_, h.deletedEntries⟩
  intro q
  show (store.entries.insert path _).lookup q = ((m.entries.insert path _).lookup q).map _
  by_cases hq : q = path
  · subst hq
    rw [AList.lookup_insert, AList.lookup_insert]
    rfl
  · rw [AList.lookup_insert_ne hq, AList.lookup_insert_ne hq]
    exact h.entries q

theorem Represents.deletePath (h : Represents m store) (path : String) (deleteTime now : TimePoint) :
    Represents (m.deletePath path deleteTime now) (store.deletePath path deleteTime now) := by
  rcases m.file_or_not path with ⟨cell, hl, hfile⟩ | hnot
  · obtain ⟨hentries, hdeleted⟩ :=
      MetadataStore.deletePath_of_some store path deleteTime now (h.findFile_some hl hfile)
    rw [deletePath_of_some hl hfile]
    refine ⟨?_, ?_⟩
    · intro q
      show _ = ((m.entries.erase path).lookup q).map _
      rw [hentries]
      by_cases hq : q = path
      · subst hq
        rw [AList.lookup_erase, AList.lookup_erase]
        rfl
      · rw [AList.lookup_erase_ne hq, AList.lookup_erase_ne hq]
        exact h.entries q
    · have hwith : store.deletedEntries ++ [Tombstone.mk path cell.entry.fileMeta deleteTime] =
          (m.withTombstone path cell deleteTime).map Prod.fst := by
        rw [h.deletedEntries, withTombstone, List.map_append]
        rfl
      have hlen : (m.withTombstone path cell deleteTime).length = store.deletedEntries.length + 1 := by
        rw [h.deletedEntries, withTombstone, List.length_append, List.length_map]
        rfl
      rw [hdeleted, hwith]
      show _ = (popOverflow now (m.withTombstone path cell deleteTime)).map Prod.fst
      unfold popOverflow
      by_cases hfull : maxDeletedEntries ≤ store.deletedEntries.length
      · rw [if_pos hfull, if_pos (by omega), List.dropWhile_map]
        rfl
      · rw [if_neg hfull, if_neg (by omega)]
  · rw [deletePath_of_not hnot,
      MetadataStore.deletePath_of_none store path deleteTime now (h.findFile_none hnot)]
    exact h

theorem Represents.cleanupTombstones {ω : Type} (h : Represents m store) (now : TimePoint)
    (del : Option (FileMeta → ω → ω)) (w : ω) :
    Represents (m.cleanupTombstones now) (store.cleanupTombstones now del w).1 := by
  refine ⟨h.entries, ?_⟩
  rw [MetadataStore.deletedEntries_cleanupTombstones, h.deletedEntries, List.filter_map]
  rfl

/-! ### A step of the system -/

section
variable {config : Endpoint → DataNodeConfig} {s t : System}

/-- The steps that change the files or the tombstones. -/
theorem sameFiles_of_step {a : Action} (hcommit : ∀ h, a ≠ .putCommit h)
    (hdelete : ∀ d now, a ≠ .deletePath d now) (hend : a ≠ .cleanupEnd)
    (ht : s.step config a = some t) : SameFiles s.store t.store := by
  cases step_move ht with
  | putFailed h call status store nextNodeIndex hput hprog hstatus hstore => exact hstore
  | putAccepted h call store hput hphase hacc hstore => exact hstore
  | putCommitted h => exact absurd rfl (hcommit h)
  | deleteMoved d call store hold hanswer hstore => exact hstore
  | pathDeleted d path now => exact absurd rfl (hdelete d now)
  | cleanupEnded => exact absurd rfl hend
  | _ => exact .refl _

theorem after_eq {a : Action} (m : StoreMemory) (s : System) (hcommit : ∀ h, a ≠ .putCommit h)
    (hdelete : ∀ d now, a ≠ .deletePath d now) (hend : a ≠ .cleanupEnd) : m.after s a = m := by
  cases a with
  | putCommit h => exact absurd rfl (hcommit h)
  | deletePath d now => exact absurd rfl (hdelete d now)
  | cleanupEnd => exact absurd rfl hend
  | _ => rfl

theorem putCommit_store {h : Nat} (ht : s.putCommit h = some t) : ∃ call, s.puts h = some call ∧
    t.store = s.store.putFile (uploadName call.messages)
      { emptyMeta (uploadData call.messages).length with chunks := call.chunks } := by
  unfold System.putCommit at ht
  split at ht
  · next messages chunks hput hpass =>
    split at ht
    · cases ht
    · cases ht
      exact ⟨_, hput, rfl⟩
  · cases ht

theorem deletePath_store {d : Nat} {now : TimePoint} (ht : s.deletePath d now = some t) :
    ∃ call, s.deletes d = some call ∧ t.store = s.store.deletePath call.path s.clock now := by
  unfold System.deletePath at ht
  split at ht
  · next path hdel hpass =>
    split at ht
    · cases ht
      exact ⟨_, hdel, rfl⟩
    · cases ht
  · cases ht

theorem cleanupEnd_store (ht : s.cleanupEnd = some t) : ∃ p, s.pass = some p ∧
    t.store = (s.store.cleanupTombstones p.now (none : Option (FileMeta → Unit → Unit)) ()).1 := by
  unfold System.cleanupEnd at ht
  split at ht
  · next now attempts hpass =>
    cases ht
    exact ⟨_, hpass, rfl⟩
  · cases ht

/-- **It follows the store.** -/
theorem represents_step {a : Action} (h : Represents m s.store) (ht : s.step config a = some t) :
    Represents (m.after s a) t.store := by
  by_cases hcommit : ∃ k, a = .putCommit k
  · obtain ⟨k, rfl⟩ := hcommit
    obtain ⟨call, hput, hstore⟩ := putCommit_store ht
    simp only [after, hput]
    rw [hstore]
    exact h.putFile _ _
  by_cases hdelete : ∃ d now, a = .deletePath d now
  · obtain ⟨d, now, rfl⟩ := hdelete
    obtain ⟨call, hdel, hstore⟩ := deletePath_store ht
    simp only [after, hdel]
    rw [hstore]
    exact h.deletePath _ _ _
  by_cases hend : a = .cleanupEnd
  · subst hend
    obtain ⟨p, hpass, hstore⟩ := cleanupEnd_store ht
    simp only [after, hpass]
    rw [hstore]
    exact h.cleanupTombstones _ _ _
  · have hcommit' : ∀ k, a ≠ .putCommit k := fun k he => hcommit ⟨k, he⟩
    have hdelete' : ∀ d now, a ≠ .deletePath d now := fun d now he => hdelete ⟨d, now, he⟩
    rw [after_eq m s hcommit' hdelete' hend]
    exact h.same (sameFiles_of_step hcommit' hdelete' hend ht)

end

/-! ## Nothing is owned twice -/

theorem separate_empty : Separate empty :=
  ⟨List.nodup_nil, List.nodup_nil, fun _ h => (nomatch h), fun _ h => (nomatch h)⟩

theorem keys_cells (m : StoreMemory) : m.cells.keys = m.entries.entries.map fun e => e.2.node := by
  unfold cells List.keys
  rw [List.map_map]
  rfl

theorem keys_chunkLists (m : StoreMemory) : m.chunkLists.keys =
    m.entries.entries.map (fun e => e.2.buffer) ++ m.deletedEntries.map Prod.snd := by
  unfold chunkLists List.keys
  rw [List.map_append, List.map_map, List.map_map]
  rfl

/-- A memory with fewer owners. -/
theorem Separate.sub {m' : StoreMemory} (h : Separate m) (hcells : m'.cells.keys.Subperm m.cells.keys)
    (hlists : m'.chunkLists.keys.Subperm m.chunkLists.keys) (hnext : m'.next = m.next) : Separate m' := by
  have hnodup : ∀ {l l' : List Nat}, l'.Nodup → l.Subperm l' → l.Nodup := by
    rintro l l' hl' ⟨l₀, hperm, hsub⟩
    exact hperm.nodup_iff.mp (hl'.sublist hsub)
  refine ⟨hnodup h.nodes hcells, hnodup h.buffers hlists, ?_, ?_⟩
  · intro node hn
    rw [hnext]
    exact h.nodes_lt node (hcells.subset hn)
  · intro buffer hb
    rw [hnext]
    exact h.buffers_lt buffer (hlists.subset hb)

theorem erase_sublist (m : StoreMemory) (path : String) :
    (m.entries.erase path).entries.Sublist m.entries.entries := List.kerase_sublist path _

/-- The node is a new one, or the one the entry has. -/
theorem separate_putFile_nodes (h : Separate m) (path : String) (fileMeta : FileMeta) :
    (m.putFile path fileMeta).cells.NodupKeys ∧
      ∀ node ∈ (m.putFile path fileMeta).cells.keys, node < m.next + 1 := by
  have hlt := h.nodes_lt
  have hnodes := h.nodes
  have hkeys : (m.putFile path fileMeta).cells.keys =
      m.nodeOf path :: (m.entries.erase path).entries.map fun e => e.2.node := keys_cells _
  unfold List.NodupKeys at hnodes ⊢
  rw [keys_cells] at hlt hnodes
  rw [hkeys]
  unfold nodeOf
  cases hl : m.entries.lookup path with
  | none =>
    have hrest : (m.entries.erase path).entries = m.entries.entries := erase_of_none hl
    rw [hrest]
    refine ⟨List.nodup_cons.mpr ⟨fun hmem => ?_, hnodes⟩, ?_⟩
    · exact Nat.lt_irrefl _ (hlt _ hmem)
    · intro node hn
      rcases List.mem_cons.mp hn with rfl | hn
      · exact Nat.lt_succ_self _
      · exact Nat.lt_succ_of_lt (hlt node hn)
  | some cell =>
    have hperm := (entries_perm hl).map fun e => e.2.node
    rw [List.map_cons] at hperm
    refine ⟨hperm.nodup_iff.mp hnodes, ?_⟩
    intro node hn
    exact Nat.lt_succ_of_lt (hlt node (hperm.mem_iff.mpr hn))

theorem Separate.putFile (h : Separate m) (path : String) (fileMeta : FileMeta) :
    Separate (m.putFile path fileMeta) := by
  obtain ⟨hnodes, hnodes_lt⟩ := separate_putFile_nodes h path fileMeta
  have hkeys : (m.putFile path fileMeta).chunkLists.keys =
      m.next :: ((m.entries.erase path).entries.map (fun e => e.2.buffer) ++ m.deletedEntries.map Prod.snd) :=
    keys_chunkLists _
  have hsub : ((m.entries.erase path).entries.map (fun e => e.2.buffer) ++
      m.deletedEntries.map Prod.snd).Sublist m.chunkLists.keys := by
    rw [keys_chunkLists]
    exact ((erase_sublist m path).map _).append (List.Sublist.refl _)
  refine ⟨hnodes, ?_, hnodes_lt, ?_⟩
  · unfold List.NodupKeys
    rw [hkeys]
    refine List.nodup_cons.mpr ⟨fun hmem => ?_, List.Nodup.sublist hsub h.buffers⟩
    exact Nat.lt_irrefl _ (h.buffers_lt _ (hsub.subset hmem))
  · intro buffer hb
    rw [hkeys] at hb
    show buffer < m.next + 1
    rcases List.mem_cons.mp hb with rfl | hb
    · exact Nat.lt_succ_self _
    · exact Nat.lt_succ_of_lt (h.buffers_lt buffer (hsub.subset hb))

/-- The chunk lists of a deleted file and the others, before the overflow cleanup. -/
theorem chunkLists_perm {cell : EntryCell} (hl : m.entries.lookup path = some cell)
    (deleteTime : TimePoint) : m.chunkLists.Perm
      ((m.entries.erase path).entries.map (fun e => ⟨e.2.buffer, e.2.entry.fileMeta.chunks⟩) ++
        (m.withTombstone path cell deleteTime).map fun x => ⟨x.2, x.1.fileMeta.chunks⟩) := by
  have hperm := (entries_perm hl).map fun e =>
    (⟨e.2.buffer, e.2.entry.fileMeta.chunks⟩ : Σ _ : Nat, List ChunkInfo)
  unfold chunkLists
  refine (hperm.append_right _).trans ?_
  rw [withTombstone, List.map_append, ← List.append_assoc]
  exact List.perm_append_singleton _ _ |>.symm

theorem Separate.deletePath (h : Separate m) (path : String) (deleteTime now : TimePoint) :
    Separate (m.deletePath path deleteTime now) := by
  rcases m.file_or_not path with ⟨cell, hl, hfile⟩ | hnot
  · rw [deletePath_of_some hl hfile]
    refine h.sub ?_ ?_ rfl
    · rw [keys_cells, keys_cells]
      exact ((erase_sublist m path).map _).subperm
    · have hperm := (chunkLists_perm hl deleteTime).map Sigma.fst
      refine List.Subperm.trans ?_ hperm.symm.subperm
      refine ((List.Sublist.append_left ?_ _).map _).subperm
      refine List.Sublist.map _ ?_
      nth_rewrite 2 [← overflow_append now (m.withTombstone path cell deleteTime)]
      exact List.sublist_append_right _ _
  · rw [deletePath_of_not hnot]
    exact h

theorem Separate.cleanupTombstones (h : Separate m) (now : TimePoint) :
    Separate (m.cleanupTombstones now) := by
  refine h.sub (List.Subperm.refl _) ?_ rfl
  rw [keys_chunkLists, keys_chunkLists]
  refine (List.Sublist.append_left ?_ _).subperm
  exact List.filter_sublist.map _

/-- **No memory is shared.** -/
theorem Separate.after (h : Separate m) (s : System) (a : Action) : Separate (m.after s a) := by
  cases a with
  | putCommit k =>
    simp only [StoreMemory.after]
    split
    · exact h
    · exact h.putFile _ _
  | deletePath d now =>
    simp only [StoreMemory.after]
    split
    · exact h
    · exact h.deletePath _ _ _
  | cleanupEnd =>
    simp only [StoreMemory.after]
    split
    · exact h
    · exact h.cleanupTombstones _
  | _ => exact h

/-! ## What stays -/

/-- A live pointer. -/
theorem cellAt_of_lookup (h : Separate m) {cell : EntryCell} (hl : m.entries.lookup path = some cell) :
    m.cellAt cell.node = some cell := by
  refine List.mem_dlookup h.nodes ?_
  exact List.mem_map.mpr ⟨⟨path, cell⟩, AList.mem_lookup_iff.mp hl, rfl⟩

theorem chunksAt_of_mem (h : Separate m) {buffer : Nat} {chunks : List ChunkInfo}
    (hmem : ⟨buffer, chunks⟩ ∈ m.chunkLists) : m.chunksAt buffer = some chunks :=
  List.mem_dlookup h.buffers hmem

/-- The list of an active entry. -/
theorem mem_chunkLists_of_lookup {cell : EntryCell} (hl : m.entries.lookup path = some cell) :
    ⟨cell.buffer, cell.entry.fileMeta.chunks⟩ ∈ m.chunkLists := by
  refine List.mem_append_left _ (List.mem_map.mpr ⟨⟨path, cell⟩, ?_, rfl⟩)
  exact AList.mem_lookup_iff.mp hl

section
variable {buffer : Nat} {chunks : List ChunkInfo}

/-- A commit frees the list of the entry it replaces, and no other. -/
theorem mem_chunkLists_putFile (hmem : ⟨buffer, chunks⟩ ∈ m.chunkLists) (fileMeta : FileMeta)
    (hother : ∀ cell, m.entries.lookup path = some cell → cell.buffer ≠ buffer) :
    ⟨buffer, chunks⟩ ∈ (m.putFile path fileMeta).chunkLists := by
  rcases List.mem_append.mp hmem with hmem | hmem
  · obtain ⟨⟨q, cell⟩, he, hcell⟩ := List.mem_map.mp hmem
    refine List.mem_append_left _ (List.mem_map.mpr ⟨⟨q, cell⟩, ?_, hcell⟩)
    have hl : m.entries.lookup q = some cell := AList.mem_lookup_iff.mpr he
    have hq : q ≠ path := by
      rintro rfl
      exact hother cell hl (congrArg Sigma.fst hcell)
    refine AList.mem_lookup_iff.mp ?_
    show (m.entries.insert path _).lookup q = some cell
    rw [AList.lookup_insert_ne hq]
    exact hl
  · exact List.mem_append_right _ hmem

/-- `deletePath` frees the lists it takes out of an overfull deque, and no others. -/
theorem mem_chunkLists_deletePath (hmem : ⟨buffer, chunks⟩ ∈ m.chunkLists) (deleteTime now : TimePoint)
    (hkept : ∀ cell, m.entries.lookup path = some cell →
      ∀ x ∈ overflow now (m.withTombstone path cell deleteTime), x.2 ≠ buffer) :
    ⟨buffer, chunks⟩ ∈ (m.deletePath path deleteTime now).chunkLists := by
  rcases m.file_or_not path with ⟨cell, hl, hfile⟩ | hnot
  · rw [deletePath_of_some hl hfile]
    have hmem := (chunkLists_perm hl deleteTime).mem_iff.mp hmem
    rcases List.mem_append.mp hmem with hmem | hmem
    · exact List.mem_append_left _ hmem
    · refine List.mem_append_right _ ?_
      rw [← overflow_append now (m.withTombstone path cell deleteTime), List.map_append] at hmem
      refine (List.mem_append.mp hmem).resolve_left fun hdropped => ?_
      obtain ⟨x, hx, he⟩ := List.mem_map.mp hdropped
      exact hkept cell hl x hx (congrArg Sigma.fst he)
  · rw [deletePath_of_not hnot]
    exact hmem

/-- The end of a pass frees the lists of expired tombstones, and no others. -/
theorem mem_chunkLists_cleanupTombstones (hmem : ⟨buffer, chunks⟩ ∈ m.chunkLists) (now : TimePoint)
    (hkept : ∀ x ∈ m.deletedEntries, x.1.expired now = true → x.1.fileMeta.chunks ≠ chunks) :
    ⟨buffer, chunks⟩ ∈ (m.cleanupTombstones now).chunkLists := by
  rcases List.mem_append.mp hmem with hmem | hmem
  · exact List.mem_append_left _ hmem
  · obtain ⟨x, hx, he⟩ := List.mem_map.mp hmem
    refine List.mem_append_right _ (List.mem_map.mpr ⟨x, List.mem_filter.mpr ⟨hx, ?_⟩, he⟩)
    by_contra hexp
    refine hkept x hx (by simpa using hexp) ?_
    cases he
    rfl

end

end

end StoreMemory

end ToyDfs
