import ToyDfs.ChunkOwners
import ToyDfs.Progress
import ToyDfs.CheckThenAct
import ToyDfs.UploadOutcomes

/-!
What happens when the chunk numbers outgrow an `int`.

The coordinator counts chunks in 64 bits, and a datanode reads the number with
`std::stoi`.  From `2^31` on the handlers of the datanodes throw, so no replica write is
answered OK.

* `servable_of_reachable`: every chunk on record is one a datanode can name, on three
  nodes.
* `withinHeld_of_run`: once `2^31` ids are drawn, an upload gets no more chunks than it
  had ids for.

`refusesData_of_exhausted`: the coordinator takes no more data then, and nothing it has
is harmed.
-/

namespace ToyDfs

open Transition MetadataStore

/-! ## Chunks on record -/

/-- A chunk as an upload records it. -/
structure ServableChunk (chunk : ChunkInfo) : Prop where
  number : ∃ n < 2 ^ 31, chunk.chunkId = chunkName n
  nodes : chunk.nodeIds.length = 3
  factor : chunk.replicationFactor = 3

/-- The chunk that is being stored: no replica write is answered OK when its number is
too large. -/
def PutPhase.Servable : PutPhase → Prop
  | .drawn chunkId => ∃ n, chunkId = chunkName n
  | .placed chunkId nodeIds results => nodeIds.length = 3 ∧ ∃ n, chunkId = chunkName n ∧
    (2 ^ 31 ≤ n → ∀ j status, results j = some status → status.isOk = false)
  | _ => True

structure ServableUpload (call : PutCall) : Prop where
  chunks : ∀ chunk ∈ call.chunks, ServableChunk chunk
  phase : call.phase.Servable
  stored : ∀ status response, call.phase = .answered status response → status.isOk = true →
    chunkCount (uploadData call.messages) ≤ call.chunks.length

structure Servable (s : System) : Prop where
  uploads : ∀ h call, s.puts h = some call → ServableUpload call
  files : ∀ path fileMeta, s.store.findFile path = some fileMeta →
    ∀ chunk ∈ fileMeta.chunks, ServableChunk chunk
  tombstones : ∀ t ∈ s.store.deletedEntries, ∀ chunk ∈ t.fileMeta.chunks, ServableChunk chunk

section
variable {config : Endpoint → DataNodeConfig} {s t : System}

theorem servable_start (disks : Disks) : Servable (.start disks) where
  uploads := fun h call hput => by cases hput
  files := fun path fileMeta hf => by cases hf
  tombstones := fun x hx => absurd hx List.not_mem_nil

/-- A datanode does not store a chunk whose number is too large. -/
theorem not_isOk_of_large {registry : Registry} {fault : PutFault} {n : Nat} {data : Bytes} {nodeId : Int32}
    {disks : Disks} (hn : 2 ^ 31 ≤ n) :
    (distributeChunkToSingleNode config registry fault (chunkName n) data nodeId disks).1.isOk = false := by
  rw [distributeChunkToSingleNode_isOk]
  unfold nodeOk
  cases registry.lookup nodeId with
  | none => rfl
  | some info =>
    simp only [PutFault.answersOk, getChunkPath_chunkName, if_neg (Nat.not_lt.mpr hn), Bool.false_and]

/-- Steps that touch neither uploads nor files. -/
theorem Servable.frame (h : Servable s) (hputs : t.puts = s.puts) (hstore : SameFiles s.store t.store) :
    Servable t where
  uploads := by rw [hputs]; exact h.uploads
  files := fun path fileMeta hf => h.files path fileMeta (by rwa [hstore.findFile] at hf)
  tombstones := by rw [hstore.deletedEntries]; exact h.tombstones

/-- One upload moves. -/
theorem Servable.setPut (h : Servable s) {k : Nat} {call : PutCall} {u : System} (hputs : u.puts = s.puts)
    (hstore : SameFiles s.store u.store) (hcall : ServableUpload call) : Servable (u.setPut k call) where
  uploads := by
    intro i c hput
    rcases update_some_iff.mp hput with ⟨-, rfl⟩ | ⟨-, hput⟩
    · exact hcall
    · exact h.uploads i c (hputs ▸ hput)
  files := fun path fileMeta hf => h.files path fileMeta ((hstore.findFile path).symm.trans hf)
  tombstones := fun x hx => h.tombstones x (hstore.deletedEntries ▸ hx)

theorem servable_move {a : Action} (hm : Move config s a t) (h : Servable s) : Servable t := by
  cases hm with
  | putStarted k messages hput =>
    exact h.setPut rfl (.refl _) ⟨fun chunk hchunk => absurd hchunk List.not_mem_nil, trivial, nofun⟩
  | putFailed k call status store nextNodeIndex hput hprog hstatus hstore =>
    refine h.setPut rfl hstore ⟨(h.uploads k call hput).chunks, trivial, ?_⟩
    intro status' response he hok
    cases he
    exact absurd hok (Bool.eq_false_iff.mp hstatus)
  | putAccepted k call store hput hphase hacc hstore =>
    exact h.setPut rfl hstore ⟨(h.uploads k call hput).chunks, trivial, nofun⟩
  | putDrawn k call hput hphase hlt =>
    exact h.setPut rfl (.refl _) ⟨(h.uploads k call hput).chunks, ⟨_, rfl⟩, nofun⟩
  | putPlaced k order call chunkId hput hphase horder hne =>
    have hcall := h.uploads k call hput
    have hid := hcall.phase
    rw [hphase] at hid
    obtain ⟨n, hn⟩ := hid
    exact h.setPut rfl (.refl _)
      ⟨hcall.chunks, ⟨length_selectNodes hne, n, hn, fun _ _ _ => nofun⟩, nofun⟩
  | putStored k j call chunkId nodeIds results fault hput hphase hj hnew =>
    have hcall := h.uploads k call hput
    have hid := hcall.phase
    rw [hphase] at hid
    obtain ⟨hlen, n, rfl, hlarge⟩ := hid
    refine h.setPut rfl (.refl _) ⟨hcall.chunks, ⟨hlen, n, rfl, fun hn i status hi => ?_⟩, nofun⟩
    by_cases hij : i = j
    · rw [hij, Function.update_self] at hi
      cases hi
      exact not_isOk_of_large hn
    · rw [Function.update_of_ne hij] at hi
      exact hlarge hn i status hi
  | putChunkDone k call chunkId nodeIds results hput hphase hok =>
    have hcall := h.uploads k call hput
    have hid := hcall.phase
    rw [hphase] at hid
    obtain ⟨hlen, n, rfl, hlarge⟩ := hid
    have hn : n < 2 ^ 31 := by
      refine Nat.lt_of_not_le fun hn => ?_
      obtain ⟨status, hresult, hstatus⟩ := hok 0 (by omega)
      rw [hlarge hn 0 status hresult] at hstatus
      cases hstatus
    refine h.setPut rfl (.refl _) ⟨?_, trivial, nofun⟩
    intro chunk hchunk
    rcases List.mem_append.mp hchunk with hchunk | hchunk
    · exact hcall.chunks chunk hchunk
    · rw [List.mem_singleton.mp hchunk]
      exact ⟨⟨n, hn, rfl⟩, hlen, rfl⟩
  | putCommitted k call hput hpass hphase hlen =>
    have hcall := h.uploads k call hput
    refine ⟨?_, ?_, h.tombstones⟩
    · intro i c hput'
      rcases update_some_iff.mp hput' with ⟨-, rfl⟩ | ⟨-, hput'⟩
      · exact ⟨hcall.chunks, trivial, fun _ _ _ _ => Nat.not_lt.mp hlen⟩
      · exact h.uploads i c hput'
    · intro path fileMeta hf
      rcases of_findFile_putFile hf with ⟨-, rfl⟩ | ⟨-, hf⟩
      · exact hcall.chunks
      · exact h.files path fileMeta hf
  | pathDeleted d path now hdel hpass hnow =>
    refine ⟨h.uploads, fun q fileMeta hf => h.files q fileMeta (of_findFile_deletePath hf).2, ?_⟩
    intro x hx
    rcases mem_deletedEntries_deletePath s.store path s.clock now hx with hx | ⟨fileMeta, hf, rfl⟩
    · exact h.tombstones x hx
    · exact h.files path fileMeta hf
  | cleanupEnded now attempts hpass =>
    refine ⟨h.uploads, h.files, fun x hx => h.tombstones x ?_⟩
    rw [deletedEntries_cleanupTombstones] at hx
    exact List.mem_of_mem_filter hx
  | deleteMoved d call store hold hanswer hstore => exact h.frame rfl hstore
  | _ => exact h.frame rfl (.refl _)

theorem servable_of_reachable {ok : System → Action → Prop}
    (hs : Reachable (System.step config) Initial ok s) : Servable s :=
  hs.invariant (fun _ ⟨disks, he⟩ => he ▸ servable_start disks)
    fun _ _ _ _ _ ht => servable_move (step_move ht)

end

/-! ## Ids that come too late -/

/-- The chunk ids upload `h` has got. -/
def System.idsHeld (s : System) (h : Nat) : Nat :=
  match s.puts h with
  | some call => call.chunks.length + call.phase.chunkIds.length
  | none => 0

/-- Since `s`, the upload has stored no more chunks than it had ids for, and what it has
drawn since is too large. -/
structure HeldSince (s : System) (h : Nat) (call : PutCall) : Prop where
  stored : call.chunks.length ≤ s.idsHeld h
  drawn : ∀ chunkId ∈ call.phase.chunkIds, call.chunks.length < s.idsHeld h ∨
    ∃ n, 2 ^ 31 ≤ n ∧ chunkId = chunkName n

def WithinHeld (s t : System) : Prop := ∀ h call, t.puts h = some call → HeldSince s h call

/-- No more data than there are ids for. -/
structure Exhausted (u : System) : Prop where
  servable : Servable u
  counter : u.chunkIdCounter = UInt64.ofNat u.chunkIdsDrawn
  drawn : 2 ^ 31 ≤ u.chunkIdsDrawn

section
variable {config : Endpoint → DataNodeConfig} {s t u : System}

theorem withinHeld_self (s : System) : WithinHeld s s := by
  intro h call hput
  have hheld : s.idsHeld h = call.chunks.length + call.phase.chunkIds.length := by
    rw [System.idsHeld, hput]
  refine ⟨by omega, fun chunkId hid => .inl ?_⟩
  have hpos := List.length_pos_of_mem hid
  omega

/-- One upload moves. -/
theorem WithinHeld.setPut (h : WithinHeld s t) {k : Nat} {call : PutCall} (hputs : u.puts = t.puts)
    (hcall : HeldSince s k call) : WithinHeld s (u.setPut k call) := by
  intro i c hput
  rcases update_some_iff.mp hput with ⟨rfl, rfl⟩ | ⟨-, hput⟩
  · exact hcall
  · exact h i c (hputs ▸ hput)

theorem withinHeld_move {a : Action} (hm : Move config t a u) (hex : Exhausted t)
    (hwrap : u.chunkIdsDrawn ≤ 2 ^ 64) (h : WithinHeld s t) : WithinHeld s u := by
  cases hm with
  | putStarted k messages hput =>
    exact h.setPut rfl ⟨Nat.zero_le _, fun chunkId hid => absurd hid List.not_mem_nil⟩
  | putFailed k call status store nextNodeIndex hput =>
    exact h.setPut rfl ⟨(h k call hput).stored, fun chunkId hid => absurd hid List.not_mem_nil⟩
  | putAccepted k call store hput =>
    exact h.setPut rfl ⟨(h k call hput).stored, fun chunkId hid => absurd hid List.not_mem_nil⟩
  | putDrawn k call hput hphase hlt =>
    refine h.setPut rfl ⟨(h k call hput).stored, fun chunkId hid => .inr ⟨t.chunkIdsDrawn, hex.drawn, ?_⟩⟩
    have hlt : t.chunkIdsDrawn < 2 ^ 64 := hwrap
    rw [List.mem_singleton.mp hid, hex.counter, UInt64.toNat_ofNat_of_lt' hlt]
  | putPlaced k order call chunkId hput hphase =>
    refine h.setPut rfl ⟨(h k call hput).stored, fun id hid => (h k call hput).drawn id ?_⟩
    rw [hphase]
    exact hid
  | putStored k j call chunkId nodeIds results fault hput hphase =>
    refine h.setPut rfl ⟨(h k call hput).stored, fun id hid => (h k call hput).drawn id ?_⟩
    rw [hphase]
    exact hid
  | putChunkDone k call chunkId nodeIds results hput hphase hok =>
    refine h.setPut rfl ⟨?_, fun id hid => absurd hid List.not_mem_nil⟩
    have hid := (h k call hput).drawn chunkId (by rw [hphase]; exact List.mem_singleton_self _)
    rw [List.length_append, List.length_singleton]
    refine hid.elim id fun ⟨n, hn, hname⟩ => ?_
    -- its replica writes have failed
    have hphase' := (hex.servable.uploads k call hput).phase
    rw [hphase] at hphase'
    obtain ⟨hlen, m, hm, hlarge⟩ := hphase'
    have hnm : m = n := chunkName_inj (hm.symm.trans hname)
    obtain ⟨status, hresult, hstatus⟩ := hok 0 (by omega)
    rw [hlarge (hnm ▸ hn) 0 status hresult] at hstatus
    cases hstatus
  | putCommitted k call hput =>
    exact h.setPut rfl ⟨(h k call hput).stored, fun chunkId hid => absurd hid List.not_mem_nil⟩
  | _ => exact h

theorem exhausted_step {a : Action} (ht : t.step config a = some u) (h : Exhausted t) : Exhausted u where
  servable := servable_move (step_move ht) h.servable
  counter := by
    cases step_move ht with
    | putDrawn =>
      show t.chunkIdCounter + 1 = UInt64.ofNat (t.chunkIdsDrawn + 1)
      rw [h.counter, UInt64.ofNat_add]
      rfl
    | _ => exact h.counter
  drawn := Nat.le_trans h.drawn (chunkIdsDrawn_mono t a u ht)

/-- **From then on** no upload gets further than its ids. -/
theorem withinHeld_of_run (hs : Exhausted s) {as : List Action}
    (hrun : exec (System.step config) s as = some t) (hwrap : t.chunkIdsDrawn ≤ 2 ^ 64) :
    Exhausted t ∧ WithinHeld s t := by
  have hreach : Reachable (System.step config) (fun u => u = s) (fun _ _ => True) t :=
    Reachable.exec (fun _ _ _ => trivial) as (.init rfl) hrun
  refine hreach.invariant_within (P := fun u => Exhausted u ∧ WithinHeld s u)
    (B := fun u => u.chunkIdsDrawn ≤ 2 ^ 64) ?_ ?_ ?_ hwrap
  · exact fun u a v hv hb => Nat.le_trans (chunkIdsDrawn_mono u a v hv) hb
  · exact fun u hu => ⟨hu ▸ hs, hu ▸ withinHeld_self s⟩
  · exact fun u a v _ _ hv hb h => ⟨exhausted_step hv h.1, withinHeld_move (step_move hv) h.1 hb h.2⟩

end

/-! ## Top theorem -/

/-- What the coordinator still accepts at `t`, when all ids a datanode can read were
drawn at `s`. -/
structure RefusesData (s t : System) : Prop where
  /-- an upload that is answered OK had the ids of all its chunks -/
  held : ∀ h messages chunks status response,
    t.puts h = some ⟨messages, chunks, .answered status response⟩ → status.isOk = true →
      chunkCount (uploadData messages) ≤ s.idsHeld h
  /-- a new one has no data -/
  new : ∀ h messages chunks status response, s.puts h = none →
    t.puts h = some ⟨messages, chunks, .answered status response⟩ → status.isOk = true →
      (uploadData messages).length ≤ 2 ^ 31 → uploadData messages = []
  /-- what is on record can be read -/
  files : ∀ path fileMeta, t.store.findFile path = some fileMeta →
    ∀ chunk ∈ fileMeta.chunks, ServableChunk chunk
  tombstones : ∀ x ∈ t.store.deletedEntries, ∀ chunk ∈ x.fileMeta.chunks, ServableChunk chunk

/-- **Out of ids.** -/
theorem refusesData_of_exhausted (config : Endpoint → DataNodeConfig) (s t : System) (as : List Action)
    (hs : Reachable (System.step config) Initial (fun _ _ => True) s)
    (hexhausted : 2 ^ 31 ≤ s.chunkIdsDrawn) (hrun : exec (System.step config) s as = some t)
    (hwrap : t.chunkIdsDrawn ≤ 2 ^ 64) : RefusesData s t := by
  obtain ⟨hex, hheld⟩ :=
    withinHeld_of_run ⟨servable_of_reachable hs, chunkIdCounter_of_reachable hs, hexhausted⟩ hrun hwrap
  have hle : ∀ h messages chunks status response,
      t.puts h = some ⟨messages, chunks, .answered status response⟩ → status.isOk = true →
        chunkCount (uploadData messages) ≤ s.idsHeld h := by
    intro h messages chunks status response hput hok
    exact Nat.le_trans ((hex.servable.uploads h _ hput).stored status response rfl hok)
      (hheld h _ hput).stored
  refine ⟨hle, ?_, hex.servable.files, hex.servable.tombstones⟩
  intro h messages chunks status response hnone hput hok hsize
  have hzero := hle h messages chunks status response hput hok
  rw [System.idsHeld, hnone] at hzero
  exact (chunkCount_eq_zero hsize).mp (Nat.le_zero.mp hzero)

/-- Upload `k` of `f` has passed the existence check. -/
def System.uploading (s : System) (k : Nat) (data : Bytes) : System :=
  s.atPut k { s.toCluster with store := (s.store.getFile "f").2 } s.chunkIdsDrawn s.log
    ⟨[⟨"f", data⟩], [], .looping⟩

theorem exec_uploading {s : System} {k : Nat} (data : Bytes) (hput : s.puts k = none) (hpass : s.pass = none)
    (hname : s.store.findFile "f" = none) :
    exec (System.step plainConfig) s [.startPut k [⟨"f", data⟩], .putCheck k] =
      some (s.uploading k data) := by
  simp only [exec, System.step, System.startPut, hput, Option.bind_some]
  simp only [System.putCheck, System.setPut, Function.update_self, hpass, readUpload]
  simp only [MetadataStore.getFile, hname]
  simp [System.uploading, System.atPut, System.setPut, hpass, MetadataStore.getFile]

/-- `n` uploads have drawn an id and found no nodes, and nothing else happened. -/
structure Drained (n : Nat) (s : System) : Prop where
  reachable : Reachable (System.step plainConfig) Initial (fun _ _ => True) s
  drawn : s.chunkIdsDrawn = n
  pass : s.pass = none
  registry : s.registeredNodes = ∅
  name : s.store.findFile "f" = none
  calls : ∀ k, n ≤ k → s.puts k = none

theorem exists_drained (n : Nat) : ∃ s, Drained n s := by
  induction n with
  | zero => exact ⟨.start fun _ _ => none, .init ⟨_, rfl⟩, rfl, rfl, rfl, rfl, fun k _ => rfl⟩
  | succ n ih =>
    obtain ⟨s, h⟩ := ih
    have hstarted := h.reachable.exec (fun _ _ _ => trivial) _
      (exec_uploading [1] (h.calls n (Nat.le_refl n)) h.pass h.name)
    have hcheck : PutReaches plainConfig (.inOrder fun _ _ => {}) (s.uploading n [1]) n
        (s.uploading n [1]).toCluster s.chunkIdsDrawn s.log ⟨[⟨"f", [1]⟩], [], .looping⟩ := by
      have hself : (s.uploading n [1]).atPut n (s.uploading n [1]).toCluster s.chunkIdsDrawn s.log
          ⟨[⟨"f", [1]⟩], [], .looping⟩ = s.uploading n [1] := by
        simp only [System.uploading, System.atPut, System.setPut, Function.update_idem]
      rw [PutReaches, hself]
      exact .refl _
    have horder : List.Perm [] s.registeredNodes.keys := by
      rw [h.registry]
      exact .refl []
    have hselect := (hcheck.draw (by decide)).select horder
    refine ⟨_, hselect.invariant (fun u hu => hu ▸ hstarted) fun u a v _ _ hv hu => .step a hu trivial hv,
      congrArg (· + 1) h.drawn, h.pass, h.registry, h.name, fun k hk => ?_⟩
    have hkn : k ≠ n := by omega
    exact (Function.update_of_ne hkn ..).trans ((Function.update_of_ne hkn ..).trans (h.calls k (by omega)))

/-- A file without data is accepted. -/
theorem refusesData_afterAllIds : ∃ s t,
    exec (System.step plainConfig) s ([.startPut (2 ^ 31) [⟨"f", []⟩], .putCheck (2 ^ 31)] ++
      [.putCommit (2 ^ 31)]) = some t ∧ (t.store.findFile "f").isSome = true ∧ RefusesData s t := by
  obtain ⟨s, h⟩ := exists_drained (2 ^ 31)
  have hstarted := exec_uploading [] (h.calls (2 ^ 31) (Nat.le_refl _)) h.pass h.name
  have hall : ¬ ([] : List ChunkInfo).length < chunkCount (uploadData [⟨"f", []⟩]) := by decide
  obtain ⟨t, ht, hfile, hdrawn⟩ : ∃ t,
      (s.uploading (2 ^ 31) []).step plainConfig (.putCommit (2 ^ 31)) = some t ∧
      (t.store.findFile "f").isSome = true ∧ t.chunkIdsDrawn = s.chunkIdsDrawn := by
    simp only [System.step, System.putCommit, System.uploading, puts_atPut, pass_atPut, h.pass, if_neg hall]
    refine ⟨_, rfl, ?_, rfl⟩
    show ((MetadataStore.putFile _ "f" _).findFile "f").isSome = true
    rw [findFile_putFile]
    rfl
  have hrun : exec (System.step plainConfig) s ([.startPut (2 ^ 31) [⟨"f", []⟩], .putCheck (2 ^ 31)] ++
      [.putCommit (2 ^ 31)]) = some t := by
    rw [exec_append, hstarted]
    exact congrArg (·.bind some) ht
  have hwrap : t.chunkIdsDrawn ≤ 2 ^ 64 := by
    rw [hdrawn, h.drawn]
    decide
  exact ⟨s, t, hrun, hfile,
    refusesData_of_exhausted plainConfig s t _ h.reachable (Nat.le_of_eq h.drawn.symm) hrun hwrap⟩

end ToyDfs
