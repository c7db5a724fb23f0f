import ToyDfs.System

/-!
Every chunk id has one owner.

An id is drawn for one upload, moves to the active file the upload commits, and
from there to the tombstones of the time the file is deleted at.  `Owned` says so
for all uploads in progress, active files and tombstones at once, with some map
from ids to owners; it holds in every state of a run that drew fewer than `2^64`
chunk ids (`owned_of_reachable`).

`pass_suffix_of_reachable`: what a cleanup pass still has to visit are replicas of
tombstones.
-/

namespace ToyDfs

open Transition

/-! ## Owners -/

inductive Owner
  | nobody
  | upload (h : Nat)
  | file (path : String)
  | tombstones (deleteTime : TimePoint)
deriving DecidableEq, Repr

/-- The chunk id an upload has drawn and not recorded yet. -/
def PutPhase.chunkIds : PutPhase → List String
  | .drawn chunkId => [chunkId]
  | .placed chunkId _ _ => [chunkId]
  | _ => []

def PutCall.chunkIds (call : PutCall) : List String :=
  call.chunks.map ChunkInfo.chunkId ++ call.phase.chunkIds

def FileMeta.chunkIds (fileMeta : FileMeta) : List String := fileMeta.chunks.map ChunkInfo.chunkId

/-- The id of the chunk being stored. -/
theorem PutCall.mem_chunkIds_placed {call : PutCall} {chunkId : String} {nodeIds : List Int32}
    {results : Nat → Option Status} (h : call.phase = .placed chunkId nodeIds results) :
    chunkId ∈ call.chunkIds := by
  rw [PutCall.chunkIds, h]
  exact List.mem_append_right _ (List.mem_singleton_self _)

structure Owned (s : System) (owner : String → Owner) : Prop where
  drawn : ∀ id, owner id ≠ .nobody → ∃ n < s.chunkIdsDrawn, id = chunkName n
  uploads : ∀ h call, s.puts h = some call → call.inProgress →
    ∀ id ∈ call.chunkIds, owner id = .upload h
  distinct : ∀ h call, s.puts h = some call → call.inProgress → call.chunkIds.Nodup
  files : ∀ path fileMeta, s.store.findFile path = some fileMeta →
    ∀ id ∈ fileMeta.chunkIds, owner id = .file path
  tombstones : ∀ t ∈ s.store.deletedEntries,
    ∀ id ∈ t.fileMeta.chunkIds, owner id = .tombstones t.deleteTime

theorem owned_start (disks : Disks) : Owned (.start disks) fun _ => .nobody := by
  refine ⟨fun id h => absurd rfl h, ?_, ?_, ?_, ?_⟩
  · exact fun h call hput => nomatch hput
  · exact fun h call hput => nomatch hput
  · exact fun path fileMeta hf => nomatch hf
  · exact fun t ht => nomatch ht

section
variable {s t : System} {owner : String → Owner}

theorem Owned.owner_placed (h : Owned s owner) {k : Nat} {call : PutCall} {chunkId : String}
    {nodeIds : List Int32} {results : Nat → Option Status} (hput : s.puts k = some call)
    (hphase : call.phase = .placed chunkId nodeIds results) : owner chunkId = .upload k :=
  h.uploads k call hput (PutCall.inProgress_of_phase hphase rfl) chunkId (PutCall.mem_chunkIds_placed hphase)

/-- Steps that draw no id and bring no file or tombstone. -/
theorem Owned.frame (h : Owned s owner) (hdrawn : t.chunkIdsDrawn = s.chunkIdsDrawn)
    (hputs : t.puts = s.puts)
    (hfiles : ∀ path fileMeta, t.store.findFile path = some fileMeta →
      s.store.findFile path = some fileMeta)
    (htombs : ∀ x ∈ t.store.deletedEntries, x ∈ s.store.deletedEntries) : Owned t owner := by
  refine ⟨?_, ?_, ?_, ?_, ?_⟩
  · rw [hdrawn]
    exact h.drawn
  · rw [hputs]
    exact h.uploads
  · rw [hputs]
    exact h.distinct
  · exact fun path fileMeta hf => h.files path fileMeta (hfiles path fileMeta hf)
  · exact fun x hx => h.tombstones x (htombs x hx)

theorem Owned.same (h : Owned s owner) {store : MetadataStore} (hdrawn : t.chunkIdsDrawn = s.chunkIdsDrawn)
    (hputs : t.puts = s.puts) (hstore : t.store = store) (hsame : SameFiles s.store store) :
    Owned t owner := by
  refine h.frame hdrawn hputs ?_ ?_
  · intro path fileMeta hf
    rwa [hstore, hsame.findFile] at hf
  · intro x hx
    rwa [hstore, hsame.deletedEntries] at hx

/-- An upload moves on, with ids that are its own. -/
theorem Owned.setPut (h : Owned s owner) {k : Nat} {call : PutCall}
    (hids : call.inProgress → (∀ id ∈ call.chunkIds, owner id = .upload k) ∧ call.chunkIds.Nodup) :
    Owned (s.setPut k call) owner := by
  refine ⟨h.drawn, ?_, ?_, h.files, h.tombstones⟩
  · intro k' call' hput hprog
    rcases update_some_iff.mp hput with ⟨rfl, rfl⟩ | ⟨-, hput⟩
    · exact (hids hprog).1
    · exact h.uploads k' call' hput hprog
  · intro k' call' hput hprog
    rcases update_some_iff.mp hput with ⟨rfl, rfl⟩ | ⟨-, hput⟩
    · exact (hids hprog).2
    · exact h.distinct k' call' hput hprog

/-- An upload moves on with the ids it has. -/
theorem Owned.advance (h : Owned s owner) {k : Nat} {call call' : PutCall} (hput : s.puts k = some call)
    (hprog : call.inProgress) (hids : call'.chunkIds = call.chunkIds) : Owned (s.setPut k call') owner := by
  refine h.setPut fun _ => ?_
  rw [hids]
  exact ⟨h.uploads k call hput hprog, h.distinct k call hput hprog⟩

theorem Owned.ended (h : Owned s owner) {k : Nat} {call : PutCall} {status : Status}
    {response : PutFileResponse} : Owned (s.setPut k { call with phase := .answered status response }) owner :=
  h.setPut fun hprog => absurd rfl (hprog status response)

/-- The id of the next chunk has no owner yet. -/
theorem Owned.next_free (h : Owned s owner) {n : Nat} (hn : s.chunkIdsDrawn ≤ n) :
    owner (chunkName n) = .nobody := by
  by_contra hne
  obtain ⟨m, hm, he⟩ := h.drawn _ hne
  have := chunkName_inj he
  omega

theorem Owned.draw (h : Owned s owner) {k : Nat} {call : PutCall} (hput : s.puts k = some call)
    (hphase : call.phase = .looping) (hcounter : s.chunkIdCounter.toNat = s.chunkIdsDrawn) :
    Owned ({ s with
      chunkIdCounter := s.chunkIdCounter + 1
      chunkIdsDrawn := s.chunkIdsDrawn + 1 }.setPut k
        { call with phase := .drawn (chunkName s.chunkIdCounter.toNat) })
      (Function.update owner (chunkName s.chunkIdsDrawn) (.upload k)) := by
  have hfree := h.next_free (Nat.le_refl s.chunkIdsDrawn)
  have hprog : call.inProgress := PutCall.inProgress_of_phase hphase rfl
  -- ids that have an owner keep it
  have hkeep : ∀ id o, o ≠ .nobody → owner id = o →
      Function.update owner (chunkName s.chunkIdsDrawn) (.upload k) id = o := by
    intro id o ho hid
    have hne : id ≠ chunkName s.chunkIdsDrawn := by
      rintro rfl
      exact ho (hid ▸ hfree)
    rw [Function.update_of_ne hne, hid]
  have hold := h.uploads k call hput hprog
  have hnew : Owned { s with
      chunkIdCounter := s.chunkIdCounter + 1
      chunkIdsDrawn := s.chunkIdsDrawn + 1 }
      (Function.update owner (chunkName s.chunkIdsDrawn) (.upload k)) := by
    refine ⟨?_, ?_, h.distinct, ?_, ?_⟩
    · intro id hid
      by_cases he : id = chunkName s.chunkIdsDrawn
      · exact ⟨s.chunkIdsDrawn, Nat.lt_succ_self _, he⟩
      · rw [Function.update_of_ne he] at hid
        obtain ⟨n, hn, rfl⟩ := h.drawn id hid
        exact ⟨n, Nat.lt_succ_of_lt hn, rfl⟩
    · exact fun k' call' hput' hprog' id hid => hkeep id _ nofun (h.uploads k' call' hput' hprog' id hid)
    · exact fun path fileMeta hf id hid => hkeep id _ nofun (h.files path fileMeta hf id hid)
    · exact fun x hx id hid => hkeep id _ nofun (h.tombstones x hx id hid)
  refine hnew.setPut fun _ => ?_
  have hchunkIds : call.chunkIds = call.chunks.map ChunkInfo.chunkId := by
    rw [PutCall.chunkIds, hphase]
    exact List.append_nil _
  rw [hchunkIds] at hold
  have hdistinct := h.distinct k call hput hprog
  rw [hchunkIds] at hdistinct
  simp only [PutCall.chunkIds, PutPhase.chunkIds, hcounter]
  constructor
  · intro id hid
    rcases List.mem_append.mp hid with hid | hid
    · exact hkeep id _ nofun (hold id hid)
    · rw [List.mem_singleton.mp hid, Function.update_self]
  · refine hdistinct.append (List.nodup_singleton _) ?_
    intro id hid hid'
    have := hold id hid
    rw [List.mem_singleton.mp hid', hfree] at this
    cases this

/-- The ids of one upload or file change hands. -/
theorem Owned.hand_over (h : Owned s owner) {ids : List String} {o : Owner} (o' : Owner)
    (hids : ∀ id ∈ ids, owner id = o) (ho : o ≠ .nobody) :
    let owner' := fun id => if id ∈ ids then o' else owner id
    (∀ id, owner' id ≠ .nobody → ∃ n < s.chunkIdsDrawn, id = chunkName n) ∧
      ∀ id p, p ≠ o → owner id = p → owner' id = p := by
  constructor
  · intro id hid
    by_cases hmem : id ∈ ids
    · exact h.drawn id (by rw [hids id hmem]; exact ho)
    · simp only [if_neg hmem] at hid
      exact h.drawn id hid
  · intro id p hp hid
    have hmem : id ∉ ids := fun hmem => hp (hid.symm.trans (hids id hmem))
    simp only [if_neg hmem, hid]

theorem Owned.commit (h : Owned s owner) {k : Nat} {call : PutCall} {path : String} {fileMeta : FileMeta}
    {log : List Event} {response : PutFileResponse} (hput : s.puts k = some call)
    (hprog : call.inProgress) (hchunks : fileMeta.chunks = call.chunks) :
    Owned ({ s with store := s.store.putFile path fileMeta, log := log }.setPut k
        { call with phase := .answered Status.OK response })
      fun id => if id ∈ call.chunkIds then .file path else owner id := by
  obtain ⟨hdrawn, hkeep⟩ := h.hand_over (.file path) (h.uploads k call hput hprog) nofun
  refine ⟨hdrawn, ?_, ?_, ?_, ?_⟩
  · intro k' call' hput' hprog' id hid
    rcases update_some_iff.mp hput' with ⟨-, rfl⟩ | ⟨hne, hput'⟩
    · exact absurd rfl (hprog' _ _)
    · exact hkeep id _ (fun he => hne (Owner.upload.inj he)) (h.uploads k' call' hput' hprog' id hid)
  · intro k' call' hput' hprog'
    rcases update_some_iff.mp hput' with ⟨-, rfl⟩ | ⟨-, hput'⟩
    · exact absurd rfl (hprog' _ _)
    · exact h.distinct k' call' hput' hprog'
  · intro q m hf id hid
    rcases MetadataStore.of_findFile_putFile hf with ⟨rfl, rfl⟩ | ⟨-, hf⟩
    · apply if_pos
      rw [FileMeta.chunkIds, hchunks] at hid
      exact List.mem_append_left _ hid
    · exact hkeep id _ nofun (h.files q m hf id hid)
  · exact fun x hx id hid => hkeep id _ nofun (h.tombstones x hx id hid)

theorem Owned.deletePath (h : Owned s owner) {path : String} {now : TimePoint} {d : Nat}
    {call : DeleteCall} {log : List Event} :
    ∃ owner', Owned ({ s with
      store := s.store.deletePath path s.clock now
      running := true
      clock := now
      log := log }.setDelete d call) owner' := by
  cases hf : s.store.findFile path with
  | none =>
    refine ⟨owner, h.frame rfl rfl ?_ ?_⟩
    · intro q m hq
      simpa only [System.setDelete, MetadataStore.deletePath_of_none _ _ _ _ hf] using hq
    · intro x hx
      simpa only [System.setDelete, MetadataStore.deletePath_of_none _ _ _ _ hf] using hx
  | some fileMeta =>
    obtain ⟨hdrawn, hkeep⟩ := h.hand_over (.tombstones s.clock) (h.files path fileMeta hf) nofun
    refine ⟨_, hdrawn, ?_, h.distinct, ?_, ?_⟩
    · exact fun k call hput hprog id hid => hkeep id _ nofun (h.uploads k call hput hprog id hid)
    · intro q m hq id hid
      obtain ⟨hne, hq⟩ := MetadataStore.of_findFile_deletePath hq
      exact hkeep id _ (fun heq => hne (Owner.file.inj heq)) (h.files q m hq id hid)
    · intro x hx id hid
      rcases MetadataStore.mem_deletedEntries_deletePath _ _ _ _ hx with hx | ⟨m, hm, rfl⟩
      · exact hkeep id _ nofun (h.tombstones x hx id hid)
      · rw [hf] at hm
        cases hm
        exact if_pos hid

end

/-! ## Runs -/

section
variable {config : Endpoint → DataNodeConfig} {ok : System → Action → Prop}

theorem chunkIdCounter_of_reachable {s : System}
    (hs : Reachable (System.step config) Initial ok s) :
    s.chunkIdCounter = UInt64.ofNat s.chunkIdsDrawn := by
  refine hs.invariant (P := fun s => s.chunkIdCounter = UInt64.ofNat s.chunkIdsDrawn) ?_ ?_
  · rintro s ⟨disks, rfl⟩
    rfl
  · intro s a t _ _ ht h
    cases step_move ht with
    | putDrawn =>
      show s.chunkIdCounter + 1 = UInt64.ofNat (s.chunkIdsDrawn + 1)
      rw [h, UInt64.ofNat_add]
      rfl
    | _ => exact h

theorem owned_move {s t : System} {a : Action} {owner : String → Owner}
    (hcounter : s.chunkIdCounter.toNat = s.chunkIdsDrawn) (hm : Move config s a t)
    (h : Owned s owner) : ∃ owner', Owned t owner' := by
  cases hm with
  | putStarted k messages hput =>
    refine ⟨owner, h.setPut fun _ => ⟨?_, List.nodup_nil⟩⟩
    exact fun id hid => nomatch hid
  | putFailed k call status store nextNodeIndex hput hprog hstatus hstore =>
    exact ⟨owner, (h.same (t := { s with store := store, nextNodeIndex := nextNodeIndex }) rfl rfl rfl
      hstore).ended⟩
  | putAccepted k call store hput hphase hacc hstore =>
    refine ⟨owner, (h.same (t := { s with store := store }) rfl rfl rfl hstore).advance hput ?_ ?_⟩
    · exact PutCall.inProgress_of_phase hphase rfl
    · rw [PutCall.chunkIds, PutCall.chunkIds, hphase]
      rfl
  | putDrawn k call hput hphase hlt => exact ⟨_, h.draw hput hphase hcounter⟩
  | putPlaced k order call chunkId hput hphase horder hne =>
    have hframe : Owned { s with
        nextNodeIndex := (selectNodesForReplication 3 order s.nextNodeIndex).2 } owner :=
      h.frame rfl rfl (fun _ _ hf => hf) fun _ hx => hx
    refine ⟨owner, hframe.advance hput ?_ ?_⟩
    · exact PutCall.inProgress_of_phase hphase rfl
    · rw [PutCall.chunkIds, PutCall.chunkIds, hphase]
      rfl
  | putStored k j call chunkId nodeIds results fault hput hphase hj hnew =>
    have hframe : Owned { s with
        disks := (distributeChunkToSingleNode config s.registeredNodes fault chunkId
          (chunkData (uploadData call.messages) call.chunks.length) (nodeIds.getD j 0) s.disks).2 } owner :=
      h.frame rfl rfl (fun _ _ hf => hf) fun _ hx => hx
    refine ⟨owner, hframe.advance hput ?_ ?_⟩
    · exact PutCall.inProgress_of_phase hphase rfl
    · rw [PutCall.chunkIds, PutCall.chunkIds, hphase]
      rfl
  | putChunkDone k call chunkId nodeIds results hput hphase hok =>
    refine ⟨owner, h.advance hput ?_ ?_⟩
    · exact PutCall.inProgress_of_phase hphase rfl
    · rw [PutCall.chunkIds, PutCall.chunkIds, hphase]
      simp [PutPhase.chunkIds]
  | putCommitted k call hput hpass hphase hlen =>
    exact ⟨_, h.commit hput (PutCall.inProgress_of_phase hphase rfl) rfl⟩
  | deleteMoved d call store hold hanswer hstore =>
    exact ⟨owner, h.same rfl rfl rfl hstore⟩
  | pathDeleted d path now hdel hpass hnow => exact h.deletePath
  | cleanupEnded now attempts hpass =>
    refine ⟨owner, h.frame rfl rfl (fun _ _ hf => hf) fun x hx => ?_⟩
    simp only [MetadataStore.deletedEntries_cleanupTombstones] at hx
    exact (List.mem_filter.mp hx).1
  | _ => exact ⟨owner, h.frame rfl rfl (fun _ _ hf => hf) fun _ hx => hx⟩

/-- **Every chunk id has one owner.** -/
theorem owned_of_reachable {s : System} (hs : Reachable (System.step config) Initial ok s)
    (hb : s.chunkIdsDrawn < 2 ^ 64) : ∃ owner, Owned s owner := by
  refine hs.invariant_within (P := fun s => ∃ owner, Owned s owner)
    (B := fun s => s.chunkIdsDrawn < 2 ^ 64) ?_ ?_ ?_ hb
  · intro s a t ht hb
    exact Nat.lt_of_le_of_lt (chunkIdsDrawn_mono s a t ht) hb
  · rintro s ⟨disks, rfl⟩
    exact ⟨_, owned_start disks⟩
  · rintro s a t hs _ ht hb ⟨owner, h⟩
    have hle := chunkIdsDrawn_mono s a t ht
    refine owned_move ?_ (step_move ht) h
    rw [chunkIdCounter_of_reachable hs]
    exact UInt64.toNat_ofNat_of_lt' (Nat.lt_of_le_of_lt hle hb)

/-- What a pass has to visit are replicas of expired tombstones that are still
there. -/
theorem pass_suffix_of_reachable {s : System} (hs : Reachable (System.step config) Initial ok s) :
    ∀ p, s.pass = some p → p.todo <:+ passReplicas p.now s.store := by
  refine hs.invariant (P := fun s => ∀ p, s.pass = some p → p.todo <:+ passReplicas p.now s.store) ?_ ?_
  · rintro s ⟨disks, rfl⟩ p hp
    cases hp
  · intro s a t _ _ ht h
    cases step_move ht with
    | putFailed k call status store nextNodeIndex hput hprog hstatus hstore =>
      intro p hp
      show p.todo <:+ passReplicas p.now store
      rw [passReplicas, hstore.deletedEntries]
      exact h p hp
    | putAccepted k call store hput hphase hacc hstore =>
      intro p hp
      show p.todo <:+ passReplicas p.now store
      rw [passReplicas, hstore.deletedEntries]
      exact h p hp
    | putCommitted k call hput hpass hphase hlen =>
      intro p hp
      cases hpass.symm.trans hp
    | deleteMoved d call store hold hanswer hstore =>
      intro p hp
      show p.todo <:+ passReplicas p.now store
      rw [passReplicas, hstore.deletedEntries]
      exact h p hp
    | pathDeleted d path now hdel hpass hnow =>
      intro p hp
      cases hpass.symm.trans hp
    | cleanupBegun hpass hrun =>
      intro p hp
      cases hp
      exact List.suffix_refl _
    | chunkDeleted now r todo attempts fault hpass =>
      intro p hp
      cases hp
      exact (List.suffix_cons _ _).trans (h _ hpass)
    | cleanupEnded now attempts hpass =>
      intro p hp
      cases hp
    | _ => exact h

end

end ToyDfs
