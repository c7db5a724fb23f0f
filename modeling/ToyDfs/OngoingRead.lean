import ToyDfs.EntryMemory
import ToyDfs.NodeNames
import ToyDfs.ReadAfterWrite

/-!
One `GetFile` among the steps of all other handlers.

A `ReadRun` is a system, the memory of its store, and one call of `GetFile`.  The
call looks its file up, enters the chunk loop through the pointer it got, and then
reads one chunk a step through the loop's iterators.  Only the lookup holds the
store's lock.

`readsContent_of_undisturbed`: the call ends OK with what was stored at its lookup,
when nothing it still has to read is freed or overwritten meanwhile (`Undisturbed`).
A `deletePath` of the file alone does not disturb it once it is in the loop: the
buffer is the tombstone's then.  Before that, it reads a freed entry
(`not_deleteHarmless`).
-/

namespace ToyDfs

open Transition

/-! ## A read -/

inductive ReadPhase
  | started
  /-- `meta` points into this node -/
  | found (node : Nat)
  /-- in the chunk loop: the buffer its iterators go through, the next chunk, and the
  number of chunks when it began -/
  | looping (buffer i count : Nat)
  | answered (status : Status)
  /-- it has read freed memory -/
  | undefined
deriving DecidableEq, Repr

structure ReadRun where
  system : System
  memory : StoreMemory
  phase : ReadPhase
  sent : List GetFileResponse
  /-- history: its steps since the lookup -/
  turns : Nat

inductive ReadAction
  /-- a step of another handler -/
  | other (a : Action)
  | lookup
  /-- a step of the read: what goes wrong at the replicas of the chunk, and whether the
  client takes the message -/
  | advance (fault : Nat → GetFault) (write : Bool)

namespace ReadRun

def start (disks : Disks) : ReadRun :=
  { system := .start disks, memory := .empty, phase := .started, sent := [], turns := 0 }

/-- `store_.getFile`.  Its count of reads is left out, nothing here looks at it. -/
def lookup (path : String) (r : ReadRun) : Option ReadRun :=
  match r.phase, r.system.pass with
  | .started, none =>
    match r.memory.getFile path with
    | none => some { r with phase := .answered fileNotFound }
    | some node => some { r with phase := .found node }
  | _, _ => none

/-- The loop's body, for chunk `i`. -/
def readChunk (config : Endpoint → DataNodeConfig) (r : ReadRun) (fault : Nat → GetFault) (write : Bool)
    (buffer i count : Nat) : ReadRun :=
  match (r.memory.chunksAt buffer).bind fun chunks => chunks[i]? with
  | none => { r with phase := .undefined }
  | some chunk =>
    let (readStatus, data) := readChunkWithFallback config r.system.registeredNodes fault chunk.chunkId
      chunk.nodeIds r.system.disks
    if !readStatus.isOk then
      { r with phase := .answered ⟨.internal,
          "Failed to read chunk " ++ chunk.chunkId ++ ": " ++ readStatus.errorMessage⟩ }
    else if !write then { r with phase := .answered ⟨.internal, "Failed to write response"⟩ }
    else { r with phase := .looping buffer (i + 1) count, sent := r.sent ++ [⟨data⟩] }

def advance (config : Endpoint → DataNodeConfig) (r : ReadRun) (fault : Nat → GetFault) (write : Bool) :
    Option ReadRun :=
  let r := { r with turns := r.turns + 1 }
  match r.phase with
  | .found node =>
    -- `for (const auto& chunk : meta->chunks)` looks at `meta` here, and then no more
    match r.memory.cellAt node with
    | none => some { r with phase := .undefined }
    | some cell => some { r with phase := .looping cell.buffer 0 cell.entry.fileMeta.chunks.length }
  | .looping buffer i count =>
    if i < count then some (r.readChunk config fault write buffer i count)
    else some { r with phase := .answered Status.OK }
  | _ => none

def step (config : Endpoint → DataNodeConfig) (path : String) (r : ReadRun) : ReadAction → Option ReadRun
  | .other a =>
    (r.system.step config a).map fun s => { r with system := s, memory := r.memory.after r.system a }
  | .lookup => r.lookup path
  | .advance fault write => r.advance config fault write

def Initial (r : ReadRun) : Prop := ∃ disks, r = ReadRun.start disks

end ReadRun

/-- A datanode that answers OK did all it was asked, and the client takes what it is
sent. -/
def HonestRead (r : ReadRun) : ReadAction → Prop
  | .other a => Honest r.system a
  | .lookup => True
  | .advance fault write => (∀ j, (fault j).Complete) ∧ write = true

/-! ## What a read is promised -/

/-- The chunk a read comes to next, when it reads these. -/
def ReadPhase.nextChunk (chunks : List ChunkInfo) : ReadPhase → Option ChunkInfo
  | .looping _ i _ => chunks[i]?
  | _ => none

/-- Some recorded node of the chunk is still registered and answers. -/
def ReplicaAnswers (registry : Registry) (fault : Nat → GetFault) (chunk : ChunkInfo) : Prop :=
  ∃ j, j < chunk.nodeIds.length ∧ (registry.lookup (chunk.nodeIds.getD j 0)).isSome = true ∧
    (fault j).answers = true

def Action.beginsCleanup : Action → Bool
  | .cleanupBegin => true
  | _ => false

/-- No cleanup pass that begins here comes to these chunks. -/
def SparesChunks (ids : List String) (s : System) (a : Action) : Prop :=
  a.beginsCleanup = true → ∀ x ∈ s.store.deletedEntries, x.expired s.clock = true →
    ∀ id ∈ x.fileMeta.chunkIds, id ∉ ids

/-- Replicas of these chunks stay available, and no cleanup pass removes them. -/
def Served (chunks : List ChunkInfo) (r : ReadRun) : ReadAction → Prop
  | .other a => SparesChunks (chunks.map ChunkInfo.chunkId) r.system a
  | .lookup => True
  | .advance fault _ =>
    ∀ chunk ∈ r.phase.nextChunk chunks, ReplicaAnswers r.system.registeredNodes fault chunk

/-- The path under which this step commits a file. -/
def System.commitsPath (s : System) : Action → Option String
  | .putCommit h => (s.puts h).map fun call => uploadName call.messages
  | _ => none

/-- The path this step deletes, and the clock at its overflow cleanup. -/
def System.deletesPath (s : System) : Action → Option (String × TimePoint)
  | .deletePath d now => (s.deletes d).map fun call => (call.path, now)
  | _ => none

/-- Has the read still to look at what this entry holds? -/
def ReadPhase.Needs : ReadPhase → EntryCell → Prop
  | .found node, cell => cell.node = node
  | .looping buffer i count, cell => i < count ∧ cell.buffer = buffer
  | _, _ => False

/-- May this entry be deleted, and may the overflow cleanup take these tombstones? -/
def ReadPhase.Spares : ReadPhase → EntryCell → List (Tombstone × Nat) → Prop
  | .found node, cell, _ => cell.node ≠ node
  | .looping buffer i count, _, dropped => i < count → ∀ x ∈ dropped, x.2 ≠ buffer
  | _, _, _ => True

/-- The step frees or overwrites nothing that the read still has to look at. -/
def Undisturbed (r : ReadRun) : ReadAction → Prop
  | .other a =>
    (∀ path ∈ r.system.commitsPath a, ∀ cell ∈ r.memory.entries.lookup path, ¬ r.phase.Needs cell) ∧
    ∀ x ∈ r.system.deletesPath a, ∀ cell ∈ r.memory.entries.lookup x.1,
      r.phase.Spares cell (StoreMemory.overflow x.2 (r.memory.withTombstone x.1 cell r.system.clock))
  | _ => True

instance (chunks : List ChunkInfo) (r : ReadRun) : (a : ReadAction) → Decidable (Served chunks r a)
  | .other a => inferInstanceAs (Decidable (a.beginsCleanup = true → _))
  | .lookup => isTrue trivial
  | .advance _ _ => inferInstanceAs (Decidable (∀ chunk ∈ r.phase.nextChunk chunks,
      ∃ j, j < chunk.nodeIds.length ∧ _))

instance : (phase : ReadPhase) → (cell : EntryCell) → Decidable (phase.Needs cell)
  | .found node, cell => inferInstanceAs (Decidable (cell.node = node))
  | .looping buffer i count, cell => inferInstanceAs (Decidable (i < count ∧ cell.buffer = buffer))
  | .started, _ => isFalse id
  | .answered _, _ => isFalse id
  | .undefined, _ => isFalse id

instance : (phase : ReadPhase) → (cell : EntryCell) → (dropped : List (Tombstone × Nat)) →
    Decidable (phase.Spares cell dropped)
  | .found node, cell, _ => inferInstanceAs (Decidable (cell.node ≠ node))
  | .looping buffer i count, _, dropped =>
    inferInstanceAs (Decidable (i < count → ∀ x ∈ dropped, x.2 ≠ buffer))
  | .started, _, _ => isTrue trivial
  | .answered _, _, _ => isTrue trivial
  | .undefined, _, _ => isTrue trivial

instance (r : ReadRun) : (a : ReadAction) → Decidable (Undisturbed r a)
  | .other _ => inferInstanceAs (Decidable ((∀ path ∈ _, _) ∧ ∀ x ∈ _, _))
  | .lookup => isTrue trivial
  | .advance _ _ => isTrue trivial

/-- A read that sends this file, in so many chunks. -/
structure ReadsContent (config : Endpoint → DataNodeConfig) (path : String) (count : Nat) (data : Bytes)
    (r : ReadRun) : Prop where
  /-- it can go on until it is answered -/
  goes_on : (∀ status, r.phase ≠ .answered status) →
    ∀ fault write, (r.step config path (.advance fault write)).isSome
  /-- and that takes one step for each chunk, and one each to enter and leave the loop -/
  returns : r.turns ≤ count + 2 ∧ (r.turns = count + 2 ↔ ∃ status, r.phase = .answered status)
  content : ∀ status, r.phase = .answered status → status = Status.OK ∧
    r.sent.map GetFileResponse.data = (List.range count).map (chunkData data) ∧
    (data.length ≤ 2 ^ 31 → downloaded r.sent = data)

/-! ## A read by itself -/

section
variable {config : Endpoint → DataNodeConfig} {path : String}

/-- The steps of a read in this environment, from chunk `i` on. -/
def advances (env : GetEnv) (i n : Nat) : List ReadAction :=
  (List.range' i n).map fun k => .advance (env.fault k) (env.write k)

theorem advances_succ (env : GetEnv) (i n : Nat) :
    advances env i (n + 1) = .advance (env.fault i) (env.write i) :: advances env (i + 1) n := by
  rw [advances, List.range'_succ, List.map_cons]
  rfl

/-- The loop, when nothing happens meanwhile. -/
theorem exec_advances (env : GetEnv) {chunks : List ChunkInfo} {buffer count : Nat}
    (hcount : count = chunks.length) (rest : List ChunkInfo) :
    ∀ (i : Nat) (r : ReadRun), r.phase = .looping buffer i count →
      r.memory.chunksAt buffer = some chunks → chunks.drop i = rest →
        ∃ n r', exec (ReadRun.step config path) r (advances env i n) = some r' ∧
          r'.phase = .answered
            (getFileLoop config env r.system.registeredNodes r.system.disks i rest).1 ∧
          r'.sent = r.sent ++ (getFileLoop config env r.system.registeredNodes r.system.disks i rest).2 := by
  induction rest with
  | nil =>
    intro i r hphase hchunks hrest
    have hdone : ¬ i < count := by
      rw [hcount]
      exact Nat.not_lt.mpr (List.drop_eq_nil_iff.mp hrest)
    refine ⟨1, { r with turns := r.turns + 1, phase := .answered Status.OK }, ?_, rfl,
      (List.append_nil _).symm⟩
    simp only [advances_succ, exec, ReadRun.step, ReadRun.advance, hphase, if_neg hdone, Option.bind_some]
    rfl
  | cons chunk rest ih =>
    intro i r hphase hchunks hrest
    have hi : i < count := by
      rw [hcount]
      by_contra hge
      rw [List.drop_eq_nil_of_le (Nat.not_lt.mp hge)] at hrest
      cases hrest
    have hchunk : chunks[i]? = some chunk := by
      rw [← List.head?_drop, hrest]
      rfl
    have hnext : chunks.drop (i + 1) = rest := by
      rw [← List.tail_drop, hrest]
      rfl
    have hstep : r.step config path (.advance (env.fault i) (env.write i)) = some
        (ReadRun.readChunk config { r with turns := r.turns + 1 } (env.fault i) (env.write i) buffer i count) := by
      simp only [ReadRun.step, ReadRun.advance, hphase, if_pos hi]
    rcases hread : readChunkWithFallback config r.system.registeredNodes (env.fault i) chunk.chunkId
      chunk.nodeIds r.system.disks with ⟨readStatus, data⟩
    cases hok : readStatus.isOk with
    | false =>
      refine ⟨1, _, by rw [advances_succ, exec, hstep]; rfl, ?_, ?_⟩
      · simp [ReadRun.readChunk, getFileLoop, hchunks, hchunk, hread, hok]
      · simp [ReadRun.readChunk, getFileLoop, hchunks, hchunk, hread, hok]
    | true =>
      cases hwrite : env.write i with
      | false =>
        refine ⟨1, _, by rw [advances_succ, exec, hstep]; rfl, ?_, ?_⟩
        · simp [ReadRun.readChunk, getFileLoop, hchunks, hchunk, hread, hok, hwrite]
        · simp [ReadRun.readChunk, getFileLoop, hchunks, hchunk, hread, hok, hwrite]
      | true =>
        let u : ReadRun := { r with
          turns := r.turns + 1
          phase := .looping buffer (i + 1) count
          sent := r.sent ++ [⟨data⟩] }
        have hsent : ReadRun.readChunk config { r with turns := r.turns + 1 } (env.fault i) (env.write i)
            buffer i count = u := by
          simp [u, ReadRun.readChunk, hchunks, hchunk, hread, hok, hwrite]
        rw [hsent] at hstep
        obtain ⟨n, r', hrun, hphase', hsent'⟩ := ih (i + 1) u rfl hchunks hnext
        refine ⟨n + 1, r', ?_, ?_, ?_⟩
        · rw [advances_succ, exec, hstep]
          exact hrun
        · rw [hphase']
          simp [u, getFileLoop, hread, hok, hwrite]
        · rw [hsent']
          simp [u, getFileLoop, hread, hok, hwrite]

/-- **A read by itself** is `GetFile`. -/
theorem exec_read_alone (env : GetEnv) {r : ReadRun} (hphase : r.phase = .started)
    (hpass : r.system.pass = none) (hsent : r.sent = []) (hrep : r.memory.Represents r.system.store)
    (hsep : r.memory.Separate) :
    ∃ as r', exec (ReadRun.step config path) r (.lookup :: as) = some r' ∧
      r'.phase = .answered (getFile config env path r.system.toCluster).1 ∧
      r'.sent = (getFile config env path r.system.toCluster).2.1 := by
  have hlookup : r.step config path .lookup = some { r with phase := match r.memory.getFile path with
      | none => .answered fileNotFound
      | some node => .found node } := by
    simp only [ReadRun.step, ReadRun.lookup, hphase, hpass]
    cases r.memory.getFile path <;> rfl
  rcases r.memory.file_or_not path with ⟨cell, hl, hfile⟩ | hnot
  · obtain ⟨hstatus, hall⟩ := @getFile_eq config env path r.system.toCluster _ (hrep.findFile_some hl hfile)
    rw [StoreMemory.getFile_of_lookup hl hfile] at hlookup
    let u : ReadRun := { r with
      turns := r.turns + 1
      phase := .looping cell.buffer 0 cell.entry.fileMeta.chunks.length }
    have henter : ReadRun.step config path { r with phase := .found cell.node }
        (.advance (env.fault 0) (env.write 0)) = some u := by
      simp only [ReadRun.step, ReadRun.advance, StoreMemory.cellAt, u]
      rw [← StoreMemory.cellAt, StoreMemory.cellAt_of_lookup hsep hl]
    obtain ⟨n, r', hrun, hphase', hsent'⟩ := @exec_advances config path env _ _ _ rfl _ 0 u rfl
      (StoreMemory.chunksAt_of_mem hsep (StoreMemory.mem_chunkLists_of_lookup hl)) rfl
    refine ⟨.advance (env.fault 0) (env.write 0) :: advances env 0 n, r', ?_, ?_, ?_⟩
    · simp only [exec, hlookup, Option.bind_some, henter]
      exact hrun
    · rw [hphase', hstatus]
      rfl
    · rw [hsent', hall]
      show r.sent ++ _ = _
      rw [hsent]
      rfl
  · obtain ⟨hstatus, hall⟩ := @getFile_absent config env path r.system.toCluster (hrep.findFile_none hnot)
    rw [StoreMemory.getFile_of_not hnot] at hlookup
    refine ⟨[], { r with phase := .answered fileNotFound }, ?_, ?_, ?_⟩
    · simp only [exec, hlookup, Option.bind_some]
    · rw [hstatus]
    · rw [hall]
      exact hsent

end

/-! ## Chunk ids that stay away -/

section
variable {config : Endpoint → DataNodeConfig} {s t : System}

/-- Where the chunk ids of an upload come from. -/
theorem mem_chunkIds_move {a : Action} (hm : Move config s a t) {h : Nat} {call' : PutCall} {id : String}
    (hput' : t.puts h = some call') (hprog' : call'.inProgress) (hid : id ∈ call'.chunkIds) :
    (∃ call, s.puts h = some call ∧ call.inProgress ∧ id ∈ call.chunkIds) ∨
      id = chunkName s.chunkIdCounter.toNat := by
  -- an upload moves on with the ids it has
  have hmoved : ∀ {k : Nat} {call new : PutCall}, s.puts k = some call → call.inProgress →
      (∀ id ∈ new.chunkIds, id ∈ call.chunkIds) →
        Function.update s.puts k (some new) h = some call' →
          ∃ call, s.puts h = some call ∧ call.inProgress ∧ id ∈ call.chunkIds := by
    intro k call new hput hprog hids hnew
    rcases update_some_iff.mp hnew with ⟨rfl, rfl⟩ | ⟨-, hold⟩
    · exact ⟨call, hput, hprog, hids id hid⟩
    · exact ⟨call', hold, hprog', hid⟩
  cases hm with
  | putStarted k messages hput =>
    rcases update_some_iff.mp hput' with ⟨-, rfl⟩ | ⟨-, hold⟩
    · exact absurd hid List.not_mem_nil
    · exact Or.inl ⟨call', hold, hprog', hid⟩
  | putFailed k call status store nextNodeIndex hput hprog hstatus hstore =>
    rcases update_some_iff.mp hput' with ⟨-, rfl⟩ | ⟨-, hold⟩
    · exact absurd rfl (hprog' _ _)
    · exact Or.inl ⟨call', hold, hprog', hid⟩
  | putAccepted k call store hput hphase hacc hstore =>
    refine Or.inl (hmoved hput (PutCall.inProgress_of_phase hphase rfl) ?_ hput')
    intro id hid
    rw [PutCall.chunkIds, hphase]
    exact hid
  | putDrawn k call hput hphase hlt =>
    rcases update_some_iff.mp hput' with ⟨rfl, rfl⟩ | ⟨-, hold⟩
    · rcases List.mem_append.mp hid with hid | hid
      · exact Or.inl ⟨call, hput, PutCall.inProgress_of_phase hphase rfl, List.mem_append_left _ hid⟩
      · exact Or.inr (List.mem_singleton.mp hid)
    · exact Or.inl ⟨call', hold, hprog', hid⟩
  | putPlaced k order call chunkId hput hphase horder hne =>
    refine Or.inl (hmoved hput (PutCall.inProgress_of_phase hphase rfl) ?_ hput')
    intro id hid
    rw [PutCall.chunkIds, hphase]
    exact hid
  | putStored k j call chunkId nodeIds results fault hput hphase hj hnew =>
    refine Or.inl (hmoved hput (PutCall.inProgress_of_phase hphase rfl) ?_ hput')
    intro id hid
    rw [PutCall.chunkIds, hphase]
    exact hid
  | putChunkDone k call chunkId nodeIds results hput hphase hok =>
    refine Or.inl (hmoved hput (PutCall.inProgress_of_phase hphase rfl) ?_ hput')
    intro id hid
    rw [PutCall.chunkIds, hphase]
    simpa [PutCall.chunkIds, PutPhase.chunkIds] using hid
  | putCommitted k call hput hpass hphase hlen =>
    rcases update_some_iff.mp hput' with ⟨-, rfl⟩ | ⟨-, hold⟩
    · exact absurd rfl (hprog' _ _)
    · exact Or.inl ⟨call', hold, hprog', hid⟩
  | _ => exact Or.inl ⟨call', hput', hprog', hid⟩

/-- Chunk ids that were drawn, and that no upload in progress has. -/
structure Retired (ids : List String) (s : System) : Prop where
  drawn : ∀ id ∈ ids, ∃ n < s.chunkIdsDrawn, id = chunkName n
  unused : ∀ h call, s.puts h = some call → call.inProgress → ∀ id ∈ call.chunkIds, id ∉ ids

theorem retired_move {a : Action} {ids : List String} (hcounter : s.chunkIdCounter.toNat = s.chunkIdsDrawn)
    (ht : s.step config a = some t) (h : Retired ids s) : Retired ids t := by
  have hmono := chunkIdsDrawn_mono s a t ht
  refine ⟨?_, ?_⟩
  · intro id hid
    obtain ⟨n, hn, rfl⟩ := h.drawn id hid
    exact ⟨n, Nat.lt_of_lt_of_le hn hmono, rfl⟩
  · intro k call' hput' hprog' id hid hmem
    rcases mem_chunkIds_move (step_move ht) hput' hprog' hid with ⟨call, hput, hprog, hold⟩ | rfl
    · exact h.unused k call hput hprog id hold hmem
    · -- the id drawn next was not drawn before
      obtain ⟨n, hn, he⟩ := h.drawn _ hmem
      have := chunkName_inj he
      omega

/-- The pass in progress comes to no tombstone with these chunk ids. -/
def PassSpares (ids : List String) (s : System) : Prop :=
  ∀ p, s.pass = some p → ∀ x ∈ s.store.deletedEntries, x.expired p.now = true →
    ∀ id ∈ x.fileMeta.chunkIds, id ∉ ids

theorem passSpares_move {a : Action} {ids : List String} (hspares : SparesChunks ids s a)
    (hm : Move config s a t) (h : PassSpares ids s) : PassSpares ids t := by
  have hsame : ∀ {store : MetadataStore}, SameFiles s.store store → ∀ p, s.pass = some p →
      ∀ x ∈ store.deletedEntries, x.expired p.now = true → ∀ id ∈ x.fileMeta.chunkIds, id ∉ ids := by
    intro store hstore p hp x hx
    rw [hstore.deletedEntries] at hx
    exact h p hp x hx
  cases hm with
  | putFailed k call status store nextNodeIndex hput hprog hstatus hstore => exact hsame hstore
  | putAccepted k call store hput hphase hacc hstore => exact hsame hstore
  | deleteMoved d call store hold hanswer hstore => exact hsame hstore
  | pathDeleted d path now hdel hpass hnow => exact fun p hp => nomatch hpass.symm.trans hp
  | cleanupBegun hpass hrun =>
    intro p hp
    cases hp
    exact hspares rfl
  | chunkDeleted now r todo attempts fault hpass =>
    intro p hp
    cases hp
    have hold := h _ hpass
    exact hold
  | cleanupEnded => exact fun p hp => nomatch hp
  | _ => exact h

/-- Nobody writes or deletes these chunks. -/
theorem keeps_move {a : Action} {ids : List String} {owner : String → Owner} (ho : Owned s owner)
    (hsuffix : ∀ p, s.pass = some p → p.todo <:+ passReplicas p.now s.store) (hret : Retired ids s)
    (hspares : PassSpares ids s) (hm : Move config s a t) : ∀ id ∈ ids, Keeps config s t id := by
  intro id hid
  obtain ⟨n, -, rfl⟩ := hret.drawn id hid
  cases hm with
  | putStored k j call chunkId nodeIds results fault hput hphase hj hnew =>
    obtain ⟨m, -, rfl⟩ := ho.drawn chunkId (by simp [ho.owner_placed hput hphase])
    have hne : n ≠ m := by
      rintro rfl
      exact hret.unused k call hput (PutCall.inProgress_of_phase hphase rfl) _
        (PutCall.mem_chunkIds_placed hphase) hid
    exact fun ep => distributeChunkToSingleNode_other config _ hne fault _ _ _ ep
  | chunkDeleted now r todo attempts fault hpass =>
    obtain ⟨x, hx, hexp, hmem, howner⟩ := owner_of_todo ho (hsuffix _ hpass) List.mem_cons_self
    obtain ⟨m, -, hm⟩ := ho.drawn r.1 (by simp [howner])
    have hne : n ≠ m := by
      rintro rfl
      refine hspares _ hpass x hx hexp r.1 ?_ (hm ▸ hid)
      obtain ⟨chunk, hchunk, hr⟩ := List.mem_flatMap.mp hmem
      obtain ⟨d, -, rfl⟩ := List.mem_map.mp hr
      exact List.mem_map_of_mem hchunk
    obtain ⟨chunkId, d⟩ := r
    simp only at hm
    subst hm
    exact fun ep => deleteReplica_other config hne _ fault d _ ep
  | _ => exact Keeps.of_eq rfl _

end

/-! ## Memory that stays -/

/-- How far a read is that found `chunks` under `path`. -/
def Progress (path : String) (chunks : List ChunkInfo) (data : Bytes) (memory : StoreMemory) (turns : Nat)
    (sent : List GetFileResponse) : ReadPhase → Prop
  | .started => False
  | .found node => turns = 0 ∧ sent = [] ∧ ∃ cell, memory.entries.lookup path = some cell ∧
      cell.node = node ∧ cell.entry.fileMeta.chunks = chunks
  | .looping buffer i count => turns = i + 1 ∧ i ≤ count ∧ count = chunks.length ∧
      sent.map GetFileResponse.data = (List.range i).map (chunkData data) ∧
      (i < count → ⟨buffer, chunks⟩ ∈ memory.chunkLists)
  | .answered status => turns = chunks.length + 2 ∧ status = Status.OK ∧
      sent.map GetFileResponse.data = (List.range chunks.length).map (chunkData data)
  | .undefined => False

section
variable {config : Endpoint → DataNodeConfig} {r : ReadRun} {path : String} {chunks : List ChunkInfo}

/-- The entry a read has found stays. -/
theorem lookup_after {a : Action} {node : Nat} (hphase : r.phase = .found node)
    (hundisturbed : Undisturbed r (.other a)) {cell : EntryCell}
    (hl : r.memory.entries.lookup path = some cell) (hnode : cell.node = node) :
    (r.memory.after r.system a).entries.lookup path = some cell := by
  cases a with
  | putCommit h =>
    simp only [StoreMemory.after]
    split
    · exact hl
    · next call hput =>
      have hne : path ≠ uploadName call.messages := by
        rintro rfl
        refine hundisturbed.1 _ (congrArg (Option.map _) hput) cell hl ?_
        rw [hphase]
        exact hnode
      show (r.memory.entries.insert (uploadName call.messages) _).lookup path = some cell
      rw [AList.lookup_insert_ne hne]
      exact hl
  | deletePath d now =>
    simp only [StoreMemory.after]
    split
    · exact hl
    · next call hdel =>
      have hne : path ≠ call.path := by
        rintro rfl
        have hother := hundisturbed.2 _ (congrArg (Option.map _) hdel) cell hl
        rw [hphase] at hother
        exact hother hnode
      rcases r.memory.file_or_not call.path with ⟨cell', hl', hfile⟩ | hnot
      · rw [StoreMemory.deletePath_of_some hl' hfile]
        show (r.memory.entries.erase call.path).lookup path = some cell
        rw [AList.lookup_erase_ne hne]
        exact hl
      · rw [StoreMemory.deletePath_of_not hnot]
        exact hl
  | cleanupEnd =>
    simp only [StoreMemory.after]
    split
    · exact hl
    · exact hl
  | _ => exact hl

/-- The buffer a read goes through stays, while there is something to read in it. -/
theorem mem_chunkLists_after {a : Action} {buffer i count : Nat} (hphase : r.phase = .looping buffer i count)
    (hi : i < count) (hcount : count = chunks.length) (hundisturbed : Undisturbed r (.other a))
    (hrep : r.memory.Represents r.system.store)
    (hspares : PassSpares (chunks.map ChunkInfo.chunkId) r.system)
    (hmem : ⟨buffer, chunks⟩ ∈ r.memory.chunkLists) :
    ⟨buffer, chunks⟩ ∈ (r.memory.after r.system a).chunkLists := by
  cases a with
  | putCommit h =>
    simp only [StoreMemory.after]
    split
    · exact hmem
    · next call hput =>
      refine StoreMemory.mem_chunkLists_putFile hmem _ fun cell hl he => ?_
      refine hundisturbed.1 _ (congrArg (Option.map _) hput) cell hl ?_
      rw [hphase]
      exact ⟨hi, he⟩
  | deletePath d now =>
    simp only [StoreMemory.after]
    split
    · exact hmem
    · next call hdel =>
      refine StoreMemory.mem_chunkLists_deletePath hmem _ now fun cell hl => ?_
      have hkept := hundisturbed.2 _ (congrArg (Option.map _) hdel) cell hl
      rw [hphase] at hkept
      exact hkept hi
  | cleanupEnd =>
    simp only [StoreMemory.after]
    split
    · exact hmem
    · next p hpass =>
      refine StoreMemory.mem_chunkLists_cleanupTombstones hmem p.now fun x hx hexp he => ?_
      -- an expired tombstone with these chunks, but the pass spares them
      have hx' : x.1 ∈ r.system.store.deletedEntries := by
        rw [hrep.deletedEntries]
        exact List.mem_map_of_mem hx
      obtain ⟨chunk, hchunk⟩ := List.exists_mem_of_length_pos (by omega : 0 < chunks.length)
      refine hspares p hpass x.1 hx' hexp _ ?_ (List.mem_map_of_mem hchunk)
      rw [FileMeta.chunkIds, he]
      exact List.mem_map_of_mem hchunk
  | _ => exact hmem

end

/-! ## Steps -/

/-- What holds of every run of honest datanodes. -/
structure ReadBase (config : Endpoint → DataNodeConfig) (r : ReadRun) : Prop where
  reachable : Reachable (System.step config) Initial Honest r.system
  represents : r.memory.Represents r.system.store
  separate : r.memory.Separate
  started : r.phase = .started → r.turns = 0 ∧ r.sent = []

/-- During a read of `chunks`, found under `path`. -/
structure ReadInv (config : Endpoint → DataNodeConfig) (path : String) (chunks : List ChunkInfo)
    (data : Bytes) (r : ReadRun) : Prop where
  retired : Retired (chunks.map ChunkInfo.chunkId) r.system
  spared : PassSpares (chunks.map ChunkInfo.chunkId) r.system
  stored : ChunksStored config r.system chunks data
  progress : Progress path chunks data r.memory r.turns r.sent r.phase

section
variable {config : Endpoint → DataNodeConfig} {path : String} {chunks : List ChunkInfo} {data : Bytes}
  {r r' : ReadRun}

theorem other_step {a : Action} (h : r.step config path (.other a) = some r') :
    ∃ s, r.system.step config a = some s ∧
      r' = { r with system := s, memory := r.memory.after r.system a } := by
  obtain ⟨s, hs, he⟩ := Option.map_eq_some_iff.mp h
  exact ⟨s, hs, he.symm⟩

theorem lookup_step (h : r.step config path .lookup = some r') : r.phase = .started ∧ r.system.pass = none ∧
    r' = { r with phase := match r.memory.getFile path with
      | none => .answered fileNotFound
      | some node => .found node } := by
  simp only [ReadRun.step, ReadRun.lookup] at h
  split at h
  · next hphase hpass =>
    refine ⟨hphase, hpass, ?_⟩
    cases hfile : r.memory.getFile path with
    | none =>
      rw [hfile] at h
      exact (Option.some.inj h).symm
    | some node =>
      rw [hfile] at h
      exact (Option.some.inj h).symm
  · cases h

/-- A step of the read touches neither the system nor the memory. -/
theorem advance_step {fault : Nat → GetFault} {write : Bool}
    (h : r.step config path (.advance fault write) = some r') :
    r'.system = r.system ∧ r'.memory = r.memory ∧ r'.phase ≠ .started := by
  simp only [ReadRun.step, ReadRun.advance] at h
  split at h
  · split at h
    · cases h
      exact ⟨rfl, rfl, nofun⟩
    · cases h
      exact ⟨rfl, rfl, nofun⟩
  · split at h
    · cases h
      simp only [ReadRun.readChunk]
      split
      · exact ⟨rfl, rfl, nofun⟩
      · split
        · exact ⟨rfl, rfl, nofun⟩
        · split
          · exact ⟨rfl, rfl, nofun⟩
          · exact ⟨rfl, rfl, nofun⟩
    · cases h
      exact ⟨rfl, rfl, nofun⟩
  · cases h

theorem readBase_step {a : ReadAction} (ha : HonestRead r a) (h : r.step config path a = some r')
    (hbase : ReadBase config r) : ReadBase config r' := by
  cases a with
  | other a =>
    obtain ⟨s, hs, rfl⟩ := other_step h
    exact ⟨.step a hbase.reachable ha hs, StoreMemory.represents_step hbase.represents hs,
      hbase.separate.after r.system a, hbase.started⟩
  | lookup =>
    obtain ⟨-, -, rfl⟩ := lookup_step h
    refine ⟨hbase.reachable, hbase.represents, hbase.separate, fun hstarted => ?_⟩
    simp only at hstarted
    split at hstarted
    · cases hstarted
    · cases hstarted
  | advance fault write =>
    obtain ⟨hsystem, hmemory, hphase⟩ := advance_step h
    refine ⟨?_, ?_, ?_, fun hstarted => absurd hstarted hphase⟩
    · rw [hsystem]
      exact hbase.reachable
    · rw [hsystem, hmemory]
      exact hbase.represents
    · rw [hmemory]
      exact hbase.separate

theorem readBase_of_reachable (hr : Reachable (ReadRun.step config path) ReadRun.Initial HonestRead r) :
    ReadBase config r := by
  refine hr.invariant ?_ fun r a r' _ ha h hbase => readBase_step ha h hbase
  rintro r ⟨disks, rfl⟩
  exact ⟨.init ⟨disks, rfl⟩, StoreMemory.represents_empty, StoreMemory.separate_empty, fun _ => ⟨rfl, rfl⟩⟩

/-- **Other handlers** do not keep the read from going on. -/
theorem readInv_other {a : Action} (hbase : ReadBase config r) (hserved : Served chunks r (.other a))
    (hundisturbed : Undisturbed r (.other a)) (h : r.step config path (.other a) = some r')
    (hb : WithinCounters r'.system) (hinv : ReadInv config path chunks data r) :
    ReadInv config path chunks data r' := by
  obtain ⟨s, hs, rfl⟩ := other_step h
  have hbs : WithinCounters r.system := withinCounters_back hs hb
  have hnodes := nodeInv_of_reachable hbase.reachable hbs.2
  obtain ⟨owner, ho⟩ := owned_of_reachable hbase.reachable hbs.1
  have hcounter : r.system.chunkIdCounter.toNat = r.system.chunkIdsDrawn := by
    rw [chunkIdCounter_of_reachable hbase.reachable]
    exact UInt64.toNat_ofNat_of_lt' hbs.1
  have hkeeps := keeps_move ho (pass_suffix_of_reachable hbase.reachable) hinv.retired hinv.spared
    (step_move hs)
  refine ⟨retired_move hcounter hs hinv.retired, passSpares_move hserved (step_move hs) hinv.spared,
    hinv.stored.kept (fun d ep => home_kept hnodes (step_move hs)) hkeeps, ?_⟩
  have hprogress := hinv.progress
  show Progress path chunks data (r.memory.after r.system a) r.turns r.sent r.phase
  cases hphase : r.phase with
  | found node =>
    rw [hphase] at hprogress
    obtain ⟨hturns, hsent, cell, hl, hnode, hchunks⟩ := hprogress
    exact ⟨hturns, hsent, cell, lookup_after hphase hundisturbed hl hnode, hnode, hchunks⟩
  | looping buffer i count =>
    rw [hphase] at hprogress
    obtain ⟨hturns, hle, hcount, hsent, hmem⟩ := hprogress
    refine ⟨hturns, hle, hcount, hsent, fun hi => ?_⟩
    exact mem_chunkLists_after hphase hi hcount hundisturbed hbase.represents hinv.spared (hmem hi)
  | _ =>
    rw [hphase] at hprogress
    exact hprogress

/-- One chunk is read and sent. -/
theorem advance_chunk {fault : Nat → GetFault} {buffer i count : Nat} {chunk : ChunkInfo} {x : Bytes}
    (hphase : r.phase = .looping buffer i count) (hi : i < count)
    (hchunks : r.memory.chunksAt buffer = some chunks) (hchunk : chunks[i]? = some chunk)
    (hx : firstAnswer config r.system.registeredNodes r.system.disks fault chunk = some x) :
    r.advance config fault true = some { r with
      phase := .looping buffer (i + 1) count
      sent := r.sent ++ [⟨x⟩]
      turns := r.turns + 1 } := by
  simp only [ReadRun.advance, hphase, if_pos hi, ReadRun.readChunk, hchunks, Option.bind_some, hchunk,
    readChunkWithFallback_eq, hx, Status.isOk_OK, Bool.not_true, Bool.false_eq_true, if_false]

theorem ReplicaAnswers.exists_node {registry : Registry} {fault : Nat → GetFault} {chunk : ChunkInfo}
    (h : ReplicaAnswers registry fault chunk) : ∃ j nodeId, chunk.nodeIds[j]? = some nodeId ∧
      (registry.lookup nodeId).isSome ∧ (fault j).answers = true := by
  obtain ⟨j, hj, hreg, hans⟩ := h
  refine ⟨j, _, List.getElem?_eq_getElem hj, ?_, hans⟩
  rwa [List.getD_eq_getElem?_getD, List.getElem?_eq_getElem hj, Option.getD_some] at hreg

/-- **A step of the read** brings it on. -/
theorem readInv_advance {fault : Nat → GetFault} {write : Bool} (hbase : ReadBase config r)
    (hb : WithinCounters r.system) (hhonest : HonestRead r (.advance fault write))
    (hserved : Served chunks r (.advance fault write))
    (h : r.step config path (.advance fault write) = some r') (hinv : ReadInv config path chunks data r) :
    ReadInv config path chunks data r' := by
  obtain ⟨hsystem, hmemory, -⟩ := advance_step h
  obtain ⟨hcomplete, rfl⟩ := hhonest
  refine ⟨?_, ?_, ?_, ?_⟩
  · rw [hsystem]
    exact hinv.retired
  · rw [hsystem]
    exact hinv.spared
  · exact hinv.stored.kept (fun d ep hd => by rw [hsystem, hd]) fun id _ => Keeps.of_eq (by rw [hsystem]) id
  have hprogress := hinv.progress
  cases hphase : r.phase with
  | started =>
    rw [hphase] at hprogress
    exact hprogress.elim
  | found node =>
    rw [hphase] at hprogress
    obtain ⟨hturns, hsent, cell, hl, rfl, hchunks⟩ := hprogress
    simp only [ReadRun.step, ReadRun.advance, hphase, StoreMemory.cellAt_of_lookup hbase.separate hl] at h
    cases h
    refine ⟨?_, Nat.zero_le _, congrArg List.length hchunks, ?_, fun _ => ?_⟩
    · show r.turns + 1 = 0 + 1
      rw [hturns]
    · show r.sent.map GetFileResponse.data = _
      rw [hsent]
      rfl
    · rw [← hchunks]
      exact StoreMemory.mem_chunkLists_of_lookup hl
  | looping buffer i count =>
    rw [hphase] at hprogress
    obtain ⟨hturns, hle, hcount, hsent, hmem⟩ := hprogress
    by_cases hi : i < count
    · have hlt : i < chunks.length := by omega
      have hchunk : chunks[i]? = some chunks[i] := List.getElem?_eq_getElem hlt
      have hnext : chunks[i] ∈ r.phase.nextChunk chunks := by
        rw [hphase]
        exact hchunk
      have hanswer := firstAnswer_of_holds (nodeInv_of_reachable hbase.reachable hb.2)
        (hinv.stored i _ hchunk) hcomplete (hserved _ hnext).exists_node
      have hlive := StoreMemory.chunksAt_of_mem hbase.separate (hmem hi)
      rw [ReadRun.step, advance_chunk hphase hi hlive hchunk hanswer] at h
      cases h
      refine ⟨?_, hi, hcount, ?_, fun _ => hmem hi⟩
      · show r.turns + 1 = i + 1 + 1
        rw [hturns]
      · show (r.sent ++ [GetFileResponse.mk (chunkData data i)]).map GetFileResponse.data = _
        rw [List.map_append, hsent, List.range_succ, List.map_append]
        rfl
    · simp only [ReadRun.step, ReadRun.advance, hphase, if_neg hi] at h
      cases h
      have hdone : i = chunks.length := by omega
      refine ⟨?_, rfl, ?_⟩
      · show r.turns + 1 = chunks.length + 2
        omega
      · show r.sent.map GetFileResponse.data = _
        rw [hsent, hdone]
  | answered status =>
    simp only [ReadRun.step, ReadRun.advance, hphase] at h
    cases h
  | undefined =>
    rw [hphase] at hprogress
    exact hprogress.elim

/-- A read that has looked its file up does not do so again. -/
theorem readInv_step {a : ReadAction} (hbase : ReadBase config r) (hhonest : HonestRead r a)
    (hserved : Served chunks r a) (hundisturbed : Undisturbed r a) (h : r.step config path a = some r') (hb : WithinCounters r'.system)
    (hinv : ReadInv config path chunks data r) : ReadInv config path chunks data r' := by
  cases a with
  | other a => exact readInv_other hbase hserved hundisturbed h hb hinv
  | lookup =>
    have hstarted := (lookup_step h).1
    have hprogress := hinv.progress
    rw [hstarted] at hprogress
    exact hprogress.elim
  | advance fault write =>
    rw [(advance_step h).1] at hb
    exact readInv_advance hbase hb hhonest hserved h hinv

/-! ## Runs -/

theorem withinCounters_readStep {a : ReadAction} (h : r.step config path a = some r')
    (hb : WithinCounters r'.system) : WithinCounters r.system := by
  cases a with
  | other a =>
    obtain ⟨s, hs, rfl⟩ := other_step h
    exact withinCounters_back hs hb
  | lookup =>
    obtain ⟨-, -, rfl⟩ := lookup_step h
    exact hb
  | advance fault write =>
    rw [(advance_step h).1] at hb
    exact hb

theorem withinCounters_readRun {during : List ReadAction}
    (hrun : exec (ReadRun.step config path) r during = some r') (hb : WithinCounters r'.system) :
    WithinCounters r.system := by
  by_contra hover
  refine exec_invariant (R := fun r => ¬ WithinCounters r.system) ?_ during hrun hover hb
  exact fun r a r' h hover hb => hover (withinCounters_readStep h hb)

/-- **The run of a read.** -/
theorem readInv_exec {during : List ReadAction} (hbase : ReadBase config r)
    (hrun : exec (ReadRun.step config path) r during = some r')
    (hhonest : Along (ReadRun.step config path) HonestRead r during)
    (hserved : Along (ReadRun.step config path) (Served chunks) r during)
    (hundisturbed : Along (ReadRun.step config path) Undisturbed r during)
    (hb : WithinCounters r'.system) (hinv : ReadInv config path chunks data r) :
    ReadInv config path chunks data r' := by
  have hall := exec_along (P := fun r a => (HonestRead r a ∧ Served chunks r a) ∧ Undisturbed r a)
    (R := fun r => ReadBase config r ∧ (WithinCounters r.system → ReadInv config path chunks data r))
    ?_ during hrun ((hhonest.and hserved).and hundisturbed) ⟨hbase, fun _ => hinv⟩
  · exact hall.2 hb
  · rintro r a r' ⟨⟨hh, hav⟩, hu⟩ h ⟨hbase, hinv⟩
    refine ⟨readBase_step hh h hbase, fun hb => ?_⟩
    exact readInv_step hbase hh hav hu h hb (hinv (withinCounters_readStep h hb))

/-- A read that has just found its file. -/
theorem readInv_lookup {call : PutCall} {fileMeta : FileMeta} (hbase : ReadBase config r)
    (hb : WithinCounters r.system) (hfile : r.system.store.findFile path = some fileMeta)
    (hstored : ChunksStored config r.system fileMeta.chunks (uploadData call.messages))
    (h : r.step config path .lookup = some r') :
    ReadInv config path fileMeta.chunks (uploadData call.messages) r' := by
  obtain ⟨hstarted, hpass, rfl⟩ := lookup_step h
  obtain ⟨hturns, hsent⟩ := hbase.started hstarted
  obtain ⟨owner, ho⟩ := owned_of_reachable hbase.reachable hb.1
  refine ⟨⟨?_, ?_⟩, ?_, hstored, ?_⟩
  · intro id hid
    exact ho.drawn id (by rw [ho.files path fileMeta hfile id hid]; nofun)
  · intro k call hput hprog id hid hmem
    exact nomatch (ho.uploads k call hput hprog id hid).symm.trans (ho.files path fileMeta hfile id hmem)
  · exact fun p hp => nomatch hpass.symm.trans hp
  · rcases r.memory.file_or_not path with ⟨cell, hl, hisFile⟩ | hnot
    · rw [hbase.represents.findFile_some hl hisFile] at hfile
      cases hfile
      simp only [Progress, StoreMemory.getFile_of_lookup hl hisFile]
      exact ⟨hturns, hsent, cell, hl, rfl, rfl⟩
    · exact nomatch (hbase.represents.findFile_none hnot).symm.trans hfile

/-! ## Top theorem -/

/-- What a read in progress has come to. -/
theorem readsContent_of_inv (hcount : chunks.length = chunkCount data)
    (hinv : ReadInv config path chunks data r) : ReadsContent config path chunks.length data r := by
  have hprogress := hinv.progress
  cases hphase : r.phase with
  | started =>
    rw [hphase] at hprogress
    exact hprogress.elim
  | found node =>
    rw [hphase] at hprogress
    obtain ⟨hturns, -⟩ := hprogress
    refine ⟨fun _ fault write => ?_, ⟨by omega, ?_⟩, fun status hs => nomatch hphase.symm.trans hs⟩
    · simp only [ReadRun.step, ReadRun.advance, hphase]
      cases r.memory.cellAt node <;> rfl
    · rw [hphase]
      exact ⟨fun hdone => by omega, fun ⟨status, hs⟩ => nomatch hs⟩
  | looping buffer i count =>
    rw [hphase] at hprogress
    obtain ⟨hturns, hle, hlength, -⟩ := hprogress
    refine ⟨fun _ fault write => ?_, ⟨by omega, ?_⟩, fun status hs => nomatch hphase.symm.trans hs⟩
    · simp only [ReadRun.step, ReadRun.advance, hphase]
      split <;> rfl
    · rw [hphase]
      exact ⟨fun hdone => by omega, fun ⟨status, hs⟩ => nomatch hs⟩
  | answered status =>
    rw [hphase] at hprogress
    obtain ⟨hturns, rfl, hsent⟩ := hprogress
    refine ⟨fun hnot => absurd hphase (hnot _), ⟨by omega, fun _ => ⟨_, hphase⟩, fun _ => hturns⟩, ?_⟩
    intro status hs
    rw [hphase] at hs
    cases hs
    refine ⟨rfl, hsent, fun hsize => ?_⟩
    rw [downloaded, hsent, hcount]
    exact flatten_chunkData hsize
  | undefined =>
    rw [hphase] at hprogress
    exact hprogress.elim

end

/-- Whatever other handlers do, a read ends OK with what was stored at its lookup. -/
def DeleteHarmless (config : Endpoint → DataNodeConfig) (path : String) : Prop :=
  ∀ (r₀ r₁ r₂ : ReadRun) (fileMeta : FileMeta) (during : List ReadAction),
    Reachable (ReadRun.step config path) ReadRun.Initial HonestRead r₀ →
    r₀.system.store.findFile path = some fileMeta → r₀.step config path .lookup = some r₁ →
    exec (ReadRun.step config path) r₁ during = some r₂ →
    Along (ReadRun.step config path) HonestRead r₁ during →
    Along (ReadRun.step config path) (Served fileMeta.chunks) r₁ during → WithinCounters r₂.system →
      ∃ h call, lastWrite path r₀.system.log = some (some h) ∧ r₀.system.puts h = some call ∧
        ReadsContent config path fileMeta.chunks.length (uploadData call.messages) r₂

/-- **A deletion does not disturb a read**, and nothing else does that frees nothing it
needs. -/
theorem readsContent_of_undisturbed (config : Endpoint → DataNodeConfig) (path : String)
    (r₀ r₁ r₂ : ReadRun) (fileMeta : FileMeta) (during : List ReadAction)
    (hr₀ : Reachable (ReadRun.step config path) ReadRun.Initial HonestRead r₀)
    (hfile : r₀.system.store.findFile path = some fileMeta)
    (hlookup : r₀.step config path .lookup = some r₁)
    (hrun : exec (ReadRun.step config path) r₁ during = some r₂)
    (hhonest : Along (ReadRun.step config path) HonestRead r₁ during)
    (hserved : Along (ReadRun.step config path) (Served fileMeta.chunks) r₁ during)
    (hundisturbed : Along (ReadRun.step config path) Undisturbed r₁ during)
    (hb : WithinCounters r₂.system) :
    ∃ h call, lastWrite path r₀.system.log = some (some h) ∧ r₀.system.puts h = some call ∧
      ReadsContent config path fileMeta.chunks.length (uploadData call.messages) r₂ := by
  have hbase := readBase_of_reachable hr₀
  have hb₁ := withinCounters_readRun hrun hb
  have hb₀ := withinCounters_readStep hlookup hb₁
  -- what is stored is what the last upload sent
  have hentry := (dataInv_of_reachable (fun _ _ h => h) hbase.reachable hb₀).entries path
  match hlast : lastWrite path r₀.system.log, hentry with
  | some (some h), ⟨call, hput, _, _, hlen, hstored, hchunks⟩ =>
    rw [hfile] at hstored
    cases hstored
    refine ⟨h, call, rfl, hput, readsContent_of_inv hlen ?_⟩
    exact readInv_exec (readBase_step (by trivial) hlookup hbase) hrun hhonest hserved hundisturbed hb
      (readInv_lookup hbase hb₀ hfile hchunks hlookup)
  | some none, hnone => exact nomatch hfile.symm.trans hnone
  | none, hnone => exact nomatch hfile.symm.trans hnone

/-! ### One byte -/

/-- One chunk, read without faults. -/
def advanceRead : ReadAction := .advance (fun _ => {}) true

/-- `DeleteFile` of the file. -/
def deleteFound : List ReadAction :=
  [.other (.startDelete 0 "f"), .other (.deleteCheck 0), .other (.deletePath 0 0)]

theorem honest_oneRead : ∀ a ∈ oneFile.map ReadAction.other ++ [.lookup, advanceRead] ++ deleteFound,
    ∀ r, HonestRead r a := by
  intro a ha r
  simp only [List.mem_append, List.mem_map, deleteFound, List.mem_cons, List.not_mem_nil, or_false] at ha
  rcases ha with (⟨b, hb, rfl⟩ | rfl | rfl) | rfl | rfl | rfl
  · exact honest_oneFile b hb r.system
  · trivial
  · exact ⟨fun _ _ _ => rfl, rfl⟩
  all_goals trivial

/-- What `oneFile` stores under `f`. -/
def oneFileMeta : FileMeta := ⟨1, chunkSize, [⟨"chunk_0", [1, 1, 1], 3⟩]⟩

/-- `oneFile`, the lookup of a read, and then these steps. -/
def oneRead (during : List ReadAction) : List ReadAction :=
  oneFile.map .other ++ ([.lookup] ++ during)

theorem oneRead_split {during : List ReadAction} {r₂ : ReadRun}
    (hrun : exec (ReadRun.step plainConfig "f") (ReadRun.start fun _ _ => none) (oneRead during) = some r₂) :
    ∃ r₀ r₁, Reachable (ReadRun.step plainConfig "f") ReadRun.Initial HonestRead r₀ ∧
      r₀.system.store.findFile "f" = some oneFileMeta ∧
      r₀.step plainConfig "f" .lookup = some r₁ ∧
      exec (ReadRun.step plainConfig "f") r₁ during = some r₂ ∧
      ∀ {P : ReadRun → ReadAction → Prop}, Along (ReadRun.step plainConfig "f") P
        (ReadRun.start fun _ _ => none) (oneRead during) → Along (ReadRun.step plainConfig "f") P r₁ during := by
  have hfile : (exec (ReadRun.step plainConfig "f") (ReadRun.start fun _ _ => none)
      (oneFile.map .other)).map (fun r => r.system.store.findFile "f") = some (some oneFileMeta) := by decide
  obtain ⟨r₀, hr₀, hfile⟩ := Option.map_eq_some_iff.mp hfile
  rw [oneRead, exec_append, hr₀, Option.bind_some, exec_append] at hrun
  obtain ⟨r₁, hr₁, hrun⟩ := Option.bind_eq_some_iff.mp hrun
  obtain ⟨u, hlookup, hu⟩ := Option.bind_eq_some_iff.mp hr₁
  cases hu
  refine ⟨r₀, r₁, ?_, hfile, hlookup, hrun, fun hal => ?_⟩
  · exact Reachable.exec_of_forall _ (.init ⟨_, rfl⟩)
      (fun a ha => honest_oneRead a (List.mem_append_left _ (List.mem_append_left _ ha))) hr₀
  · exact ((along_append _ _ _).mp (((along_append _ _ _).mp hal).2 r₀ hr₀)).2 r₁ hr₁

theorem honest_during {during : List ReadAction} (h : ∀ a ∈ during, a ∈ deleteFound ∨ a = advanceRead)
    (r : ReadRun) : Along (ReadRun.step plainConfig "f") HonestRead r during := by
  refine along_of_forall_mem (fun a ha => honest_oneRead a ?_) r
  rcases h a ha with ha | rfl
  · exact List.mem_append_right _ ha
  · simp

/-- The file is deleted between the first and the second step of the loop. -/
def deletedInLoop : List ReadAction := [advanceRead] ++ deleteFound ++ [advanceRead, advanceRead]

theorem readsContent_deletedInLoop : ∃ r₂ data,
    exec (ReadRun.step plainConfig "f") (ReadRun.start fun _ _ => none) (oneRead deletedInLoop) = some r₂ ∧
    r₂.phase = .answered Status.OK ∧ r₂.system.store.findFile "f" = none ∧ r₂.sent = [⟨[1]⟩] ∧
    ReadsContent plainConfig "f" 1 data r₂ := by
  have hend : (exec (ReadRun.step plainConfig "f") (ReadRun.start fun _ _ => none)
      (oneRead deletedInLoop)).map (fun r => (r.phase, r.system.store.findFile "f", r.sent,
        r.system.chunkIdsDrawn, r.system.nodeIdsDrawn)) =
          some (.answered Status.OK, none, [⟨[1]⟩], 1, 1) := by decide
  have hserved : Along (ReadRun.step plainConfig "f") (Served oneFileMeta.chunks)
      (ReadRun.start fun _ _ => none) (oneRead deletedInLoop) := by decide
  have hundisturbed : Along (ReadRun.step plainConfig "f") Undisturbed
      (ReadRun.start fun _ _ => none) (oneRead deletedInLoop) := by decide
  obtain ⟨r₂, hr₂, hend⟩ := Option.map_eq_some_iff.mp hend
  simp only [Prod.mk.injEq] at hend
  obtain ⟨hphase, hgone, hsent, hchunks, hnodes⟩ := hend
  obtain ⟨r₀, r₁, hreach, hfile, hlookup, hrun, hlater⟩ := oneRead_split hr₂
  have hhonest := @honest_during deletedInLoop (by simp [deletedInLoop]) r₁
  obtain ⟨h, call, -, -, hreads⟩ := readsContent_of_undisturbed plainConfig "f" r₀ r₁ r₂ oneFileMeta
    deletedInLoop hreach hfile hlookup hrun hhonest (hlater hserved) (hlater hundisturbed)
    ⟨by rw [hchunks]; decide, by rw [hnodes]; decide⟩
  exact ⟨r₂, _, hr₂, hphase, hgone, hsent, hreads⟩

/-- The file is deleted between the lookup and the loop. -/
theorem not_deleteHarmless : ¬ DeleteHarmless plainConfig "f" := by
  intro hall
  have hend : (exec (ReadRun.step plainConfig "f") (ReadRun.start fun _ _ => none)
      (oneRead (deleteFound ++ [advanceRead]))).map
        (fun r => (r.phase, r.system.chunkIdsDrawn, r.system.nodeIdsDrawn)) =
          some (.undefined, 1, 1) := by decide
  have hserved : Along (ReadRun.step plainConfig "f") (Served oneFileMeta.chunks)
      (ReadRun.start fun _ _ => none) (oneRead (deleteFound ++ [advanceRead])) := by decide
  obtain ⟨r₂, hr₂, hend⟩ := Option.map_eq_some_iff.mp hend
  simp only [Prod.mk.injEq] at hend
  obtain ⟨hphase, hchunks, hnodes⟩ := hend
  obtain ⟨r₀, r₁, hreach, hfile, hlookup, hrun, hlater⟩ := oneRead_split hr₂
  have hhonest := @honest_during (deleteFound ++ [advanceRead]) (by simp) r₁
  obtain ⟨h, call, -, -, hreads⟩ := hall r₀ r₁ r₂ oneFileMeta _ hreach hfile hlookup hrun hhonest
    (hlater hserved) ⟨by rw [hchunks]; decide, by rw [hnodes]; decide⟩
  have hmore := hreads.goes_on (fun status hs => nomatch hphase.symm.trans hs) (fun _ => {}) true
  simp only [ReadRun.step, ReadRun.advance, hphase] at hmore
  cases hmore

end ToyDfs
