import ToyDfs.HandlerRuns
import ToyDfs.Lib.Measure

/-!
Handlers come to an end.

Every step of a handler uses up one of the steps it has left (`PutCall.stepsLeft`,
`DeleteCall.stepsLeft`, `RegisterCall.stepsLeft`), whatever the others do.  And one of
its steps is enabled until it has answered, unless it waits for the store's lock and a
cleanup pass has it; the pass ends by itself.

`noneStuck`: in no state does a handler wait for another one forever, and none runs
forever.  A `PutChunk` or `DeleteChunk` is a step that is always possible: every RPC returns.
Of uploads beyond 2 GiB, where the chunk loop is undefined, this says nothing.
-/

namespace ToyDfs

open Transition

/-! ## Steps of a call -/

inductive CallId
  | put (h : Nat)
  | delete (d : Nat)
  | register (r : Nat)
  | pass
deriving DecidableEq, Repr

/-- The call this is a step of. -/
def Action.call? : Action → Option CallId
  | .putCheck h | .putDraw h | .putSelect h _ | .putStore h _ _ | .putJoin h | .putCommit h => some (.put h)
  | .deleteCheck d | .deletePath d _ => some (.delete d)
  | .registerScan r | .registerDraw r | .registerInsert r => some (.register r)
  | .cleanupBegin | .cleanupDelete _ | .cleanupEnd => some .pass
  | _ => none

/-- The replica writes of a chunk that have not returned. -/
def writesLeft (nodeIds : List Int32) (results : Nat → Option Status) : Nat :=
  (List.range nodeIds.length).countP fun j => (results j).isNone

/-- Each chunk takes six steps: its id, its nodes, three replica writes, their results. -/
def PutCall.stepsLeft (call : PutCall) : Nat :=
  let chunksLeft := chunkCount (uploadData call.messages) - call.chunks.length
  match call.phase with
  | .started => 2 + 6 * chunksLeft
  | .looping => 1 + 6 * chunksLeft
  | .drawn _ => 6 + 6 * (chunksLeft - 1)
  | .placed _ nodeIds results => writesLeft nodeIds results + 2 + 6 * (chunksLeft - 1)
  | .answered _ _ => 0

def DeleteCall.stepsLeft (call : DeleteCall) : Nat :=
  match call.phase with
  | .started => 2
  | .checked => 1
  | .answered _ _ => 0

def RegisterCall.stepsLeft (call : RegisterCall) : Nat :=
  match call.phase with
  | .started => 3
  | .scanned => 2
  | .drawn _ => 1
  | .answered _ => 0

/-! ## Other calls -/

section
variable {config : Endpoint → DataNodeConfig} {s t : System} {a : Action}

theorem setPut_puts_self (s : System) (h : Nat) (call : PutCall) : (s.setPut h call).puts h = some call :=
  Function.update_self ..

theorem setDelete_deletes_self (s : System) (d : Nat) (call : DeleteCall) :
    (s.setDelete d call).deletes d = some call := Function.update_self ..

theorem setPut_puts_ne {h k : Nat} (hne : h ≠ k) (call : PutCall) :
    (s.setPut k call).puts h = s.puts h := Function.update_of_ne hne ..

theorem setDelete_deletes_ne {d e : Nat} (hne : d ≠ e) (call : DeleteCall) :
    (s.setDelete e call).deletes d = s.deletes d := Function.update_of_ne hne ..

theorem setRegister_registers_ne {r q : Nat} (hne : r ≠ q) (call : RegisterCall) :
    (s.setRegister q call).registers r = s.registers r := Function.update_of_ne hne ..

/-- A call stays as it is through the steps of others. -/
theorem puts_of_step {h : Nat} {call : PutCall} (ht : s.step config a = some t)
    (hown : a.call? ≠ some (.put h)) (hput : s.puts h = some call) : t.puts h = some call := by
  cases a with
  | startPut k messages =>
    simp only [System.step, System.startPut] at ht
    grind [setPut_puts_ne]
  | putCheck k | putDraw k | putSelect k order | putStore k j fault | putJoin k | putCommit k =>
    have hne : h ≠ k := fun he => hown (he ▸ rfl)
    simp only [System.step, System.putCheck, System.putDraw, System.putSelect, System.putStore,
      System.putJoin, System.putCommit] at ht
    grind [setPut_puts_ne]
  | startDelete d path | deleteCheck d | deletePath d now =>
    simp only [System.step, System.startDelete, System.deleteCheck, System.deletePath] at ht
    grind [System.setDelete]
  | startRegister r peer port | registerScan r | registerDraw r | registerInsert r =>
    simp only [System.step, System.startRegister, System.registerScan, System.registerDraw,
      System.registerInsert] at ht
    grind [System.setRegister]
  | cleanupBegin | cleanupDelete fault | cleanupEnd =>
    simp only [System.step, System.cleanupBegin, System.cleanupDelete, System.cleanupEnd] at ht
    grind
  | tick d | unregister nodeId =>
    cases ht
    exact hput

theorem deletes_of_step {d : Nat} {call : DeleteCall} (ht : s.step config a = some t)
    (hown : a.call? ≠ some (.delete d)) (hdel : s.deletes d = some call) : t.deletes d = some call := by
  cases a with
  | startDelete e path =>
    simp only [System.step, System.startDelete] at ht
    grind [setDelete_deletes_ne]
  | deleteCheck e | deletePath e now =>
    have hne : d ≠ e := fun he => hown (he ▸ rfl)
    simp only [System.step, System.deleteCheck, System.deletePath] at ht
    grind [setDelete_deletes_ne]
  | startPut k messages | putCheck k | putDraw k | putSelect k order | putStore k j fault | putJoin k
  | putCommit k =>
    simp only [System.step, System.startPut, System.putCheck, System.putDraw, System.putSelect,
      System.putStore, System.putJoin, System.putCommit] at ht
    grind [System.setPut]
  | startRegister r peer port | registerScan r | registerDraw r | registerInsert r =>
    simp only [System.step, System.startRegister, System.registerScan, System.registerDraw,
      System.registerInsert] at ht
    grind [System.setRegister]
  | cleanupBegin | cleanupDelete fault | cleanupEnd =>
    simp only [System.step, System.cleanupBegin, System.cleanupDelete, System.cleanupEnd] at ht
    grind
  | tick e | unregister nodeId =>
    cases ht
    exact hdel

/-- Other steps start the deletion at most. -/
theorem deletes_of_step_back {d : Nat} {call : DeleteCall} (ht : s.step config a = some t)
    (hown : a.call? ≠ some (.delete d)) (hdel : t.deletes d = some call) :
    s.deletes d = some call ∨ call.phase = .started := by
  cases a with
  | startDelete e path =>
    simp only [System.step, System.startDelete] at ht
    split at ht
    · cases ht
    · cases ht
      rcases update_some_iff.mp hdel with ⟨-, rfl⟩ | ⟨-, hold⟩
      · exact .inr rfl
      · exact .inl hold
  | deleteCheck e | deletePath e now =>
    have hne : d ≠ e := fun he => hown (he ▸ rfl)
    simp only [System.step, System.deleteCheck, System.deletePath] at ht
    grind [setDelete_deletes_ne]
  | startPut k messages | putCheck k | putDraw k | putSelect k order | putStore k j fault | putJoin k
  | putCommit k =>
    simp only [System.step, System.startPut, System.putCheck, System.putDraw, System.putSelect,
      System.putStore, System.putJoin, System.putCommit] at ht
    grind [System.setPut]
  | startRegister r peer port | registerScan r | registerDraw r | registerInsert r =>
    simp only [System.step, System.startRegister, System.registerScan, System.registerDraw,
      System.registerInsert] at ht
    grind [System.setRegister]
  | cleanupBegin | cleanupDelete fault | cleanupEnd =>
    simp only [System.step, System.cleanupBegin, System.cleanupDelete, System.cleanupEnd] at ht
    grind
  | tick e | unregister nodeId =>
    cases ht
    exact .inl hdel

theorem registers_of_step {r : Nat} {call : RegisterCall} (ht : s.step config a = some t)
    (hown : a.call? ≠ some (.register r)) (hreg : s.registers r = some call) :
    t.registers r = some call := by
  cases a with
  | startRegister q peer port =>
    simp only [System.step, System.startRegister] at ht
    grind [setRegister_registers_ne]
  | registerScan q | registerDraw q | registerInsert q =>
    have hne : r ≠ q := fun he => hown (he ▸ rfl)
    simp only [System.step, System.registerScan, System.registerDraw, System.registerInsert] at ht
    grind [setRegister_registers_ne]
  | startPut k messages | putCheck k | putDraw k | putSelect k order | putStore k j fault | putJoin k
  | putCommit k =>
    simp only [System.step, System.startPut, System.putCheck, System.putDraw, System.putSelect,
      System.putStore, System.putJoin, System.putCommit] at ht
    grind [System.setPut]
  | startDelete d path | deleteCheck d | deletePath d now =>
    simp only [System.step, System.startDelete, System.deleteCheck, System.deletePath] at ht
    grind [System.setDelete]
  | cleanupBegin | cleanupDelete fault | cleanupEnd =>
    simp only [System.step, System.cleanupBegin, System.cleanupDelete, System.cleanupEnd] at ht
    grind
  | tick e | unregister nodeId =>
    cases ht
    exact hreg

/-! ## Own steps -/

theorem stepsLeft_pos {call : PutCall} (hprog : call.inProgress) : 0 < call.stepsLeft := by
  unfold PutCall.stepsLeft
  cases hphase : call.phase with
  | answered status response => exact absurd hphase (hprog status response)
  | _ => simp only; omega

theorem writesLeft_none (nodeIds : List Int32) : writesLeft nodeIds (fun _ => none) = nodeIds.length := by
  simp [writesLeft]

/-- A replica write returns. -/
theorem writesLeft_update {nodeIds : List Int32} {results : Nat → Option Status} {j : Nat}
    (hj : j < nodeIds.length) (hnew : results j = none) (status : Status) :
    writesLeft nodeIds (Function.update results j (some status)) + 1 = writesLeft nodeIds results := by
  have hperm := List.perm_cons_erase (List.mem_range.mpr hj)
  have hrest : ∀ i ∈ (List.range nodeIds.length).erase j,
      (Function.update results j (some status) i).isNone = true ↔ (results i).isNone = true := by
    intro i hi
    have hij : i ≠ j := ((List.Nodup.mem_erase_iff List.nodup_range).mp hi).1
    rw [Function.update_of_ne hij]
  rw [writesLeft, writesLeft, hperm.countP_eq, hperm.countP_eq, List.countP_cons, List.countP_cons,
    List.countP_congr hrest, Function.update_self, hnew]
  rfl

theorem length_selectNodes {order : List Int32} {next : UInt32}
    (hne : (selectNodesForReplication 3 order next).1 ≠ []) :
    (selectNodesForReplication 3 order next).1.length = 3 := by
  unfold selectNodesForReplication at hne ⊢
  split
  · next h => exact absurd h (by decide)
  · split
    · next h h' => simp [h, h'] at hne
    · simp only [List.length_map, List.length_range]
      decide

/-- **Each step of an upload uses one up.** -/
theorem stepsLeft_put {h : Nat} {call : PutCall} (ht : s.step config a = some t)
    (hown : a.call? = some (.put h)) (hput : s.puts h = some call) :
    ∃ call', t.puts h = some call' ∧ call'.messages = call.messages ∧
      call'.stepsLeft < call.stepsLeft := by
  have hself : ∀ (u : System) (c : PutCall), (u.setPut h c).puts h = some c :=
    fun u c => Function.update_self ..
  cases a with
  | putCheck k =>
    cases hown
    simp only [System.step, System.putCheck] at ht
    split at ht
    · next messages chunks hput' hpass =>
      cases hput.symm.trans hput'
      split at ht
      · cases ht
        exact ⟨_, hself .., rfl, stepsLeft_pos (PutCall.inProgress_of_phase rfl rfl)⟩
      · split at ht
        · cases ht
          exact ⟨_, hself .., rfl, stepsLeft_pos (PutCall.inProgress_of_phase rfl rfl)⟩
        · cases ht
          refine ⟨_, hself .., rfl, ?_⟩
          simp only [PutCall.stepsLeft]
          omega
    · cases ht
  | putDraw k =>
    cases hown
    simp only [System.step, System.putDraw] at ht
    split at ht
    · next messages chunks hput' =>
      cases hput.symm.trans hput'
      split at ht
      · next hlt =>
        cases ht
        refine ⟨_, hself .., rfl, ?_⟩
        simp only [PutCall.stepsLeft]
        omega
      · cases ht
    · cases ht
  | putSelect k order =>
    cases hown
    simp only [System.step, System.putSelect] at ht
    split at ht
    · next messages chunks chunkId hput' =>
      cases hput.symm.trans hput'
      split at ht
      · split at ht
        · cases ht
          exact ⟨_, hself .., rfl, stepsLeft_pos (PutCall.inProgress_of_phase rfl rfl)⟩
        · next hne =>
          cases ht
          refine ⟨_, hself .., rfl, ?_⟩
          have hlen := length_selectNodes fun he => hne (List.isEmpty_iff.mpr he)
          simp only [PutCall.stepsLeft, writesLeft_none, hlen]
          omega
      · cases ht
    · cases ht
  | putStore k j fault =>
    cases hown
    simp only [System.step, System.putStore] at ht
    split at ht
    · next messages chunks chunkId nodeIds results hput' =>
      cases hput.symm.trans hput'
      split at ht
      · next hj =>
        cases ht
        refine ⟨_, hself .., rfl, ?_⟩
        have hleft := writesLeft_update hj.1 hj.2 (distributeChunkToSingleNode config s.registeredNodes fault
          chunkId (chunkData (uploadData messages) chunks.length) (nodeIds.getD j 0) s.disks).1
        simp only [PutCall.stepsLeft]
        omega
      · cases ht
    · cases ht
  | putJoin k =>
    cases hown
    simp only [System.step, System.putJoin] at ht
    split at ht
    · next messages chunks chunkId nodeIds results hput' =>
      cases hput.symm.trans hput'
      split at ht
      · split at ht
        · cases ht
          exact ⟨_, hself .., rfl, stepsLeft_pos (PutCall.inProgress_of_phase rfl rfl)⟩
        · cases ht
          refine ⟨_, hself .., rfl, ?_⟩
          simp only [PutCall.stepsLeft, List.length_append, List.length_singleton]
          omega
      · cases ht
    · cases ht
  | putCommit k =>
    cases hown
    simp only [System.step, System.putCommit] at ht
    split at ht
    · next messages chunks hput' hpass =>
      cases hput.symm.trans hput'
      split at ht
      · cases ht
      · cases ht
        exact ⟨_, hself .., rfl, stepsLeft_pos (PutCall.inProgress_of_phase rfl rfl)⟩
    · cases ht
  | _ => cases hown

theorem stepsLeft_delete {d : Nat} {call : DeleteCall} (ht : s.step config a = some t)
    (hown : a.call? = some (.delete d)) (hdel : s.deletes d = some call) :
    ∃ call', t.deletes d = some call' ∧ call'.stepsLeft < call.stepsLeft := by
  have hself : ∀ (u : System) (c : DeleteCall), (u.setDelete d c).deletes d = some c :=
    fun u c => Function.update_self ..
  cases a with
  | deleteCheck e =>
    cases hown
    simp only [System.step, System.deleteCheck] at ht
    split at ht
    · next path hdel' hpass =>
      cases hdel.symm.trans hdel'
      split at ht
      · cases ht
        exact ⟨_, hself .., by simp [DeleteCall.stepsLeft]⟩
      · cases ht
        exact ⟨_, hself .., by simp [DeleteCall.stepsLeft]⟩
    · cases ht
  | deletePath e now =>
    cases hown
    simp only [System.step, System.deletePath] at ht
    split at ht
    · next path hdel' hpass =>
      cases hdel.symm.trans hdel'
      split at ht
      · cases ht
        exact ⟨_, hself .., by simp [DeleteCall.stepsLeft]⟩
      · cases ht
    · cases ht
  | _ => cases hown

theorem stepsLeft_register {r : Nat} {call : RegisterCall} (ht : s.step config a = some t)
    (hown : a.call? = some (.register r)) (hreg : s.registers r = some call) :
    ∃ call', t.registers r = some call' ∧ call'.stepsLeft < call.stepsLeft := by
  have hself : ∀ (u : System) (c : RegisterCall), (u.setRegister r c).registers r = some c :=
    fun u c => Function.update_self ..
  cases a with
  | registerScan q =>
    cases hown
    simp only [System.step, System.registerScan] at ht
    split at ht
    · next ep hreg' =>
      cases hreg.symm.trans hreg'
      split at ht
      · cases ht
        exact ⟨_, hself .., by simp [RegisterCall.stepsLeft]⟩
      · cases ht
        exact ⟨_, hself .., by simp [RegisterCall.stepsLeft]⟩
    · cases ht
  | registerDraw q =>
    cases hown
    simp only [System.step, System.registerDraw] at ht
    split at ht
    · next ep hreg' =>
      cases hreg.symm.trans hreg'
      cases ht
      exact ⟨_, hself .., by simp [RegisterCall.stepsLeft]⟩
    · cases ht
  | registerInsert q =>
    cases hown
    simp only [System.step, System.registerInsert] at ht
    split at ht
    · next ep assignedId hreg' =>
      cases hreg.symm.trans hreg'
      cases ht
      exact ⟨_, hself .., by simp [RegisterCall.stepsLeft]⟩
    · cases ht
  | _ => cases hown

/-! ## Enabled steps -/

/-- An upload in progress can take a step of its own while no pass has the lock. -/
theorem exists_step_put {h : Nat} {call : PutCall} (hput : s.puts h = some call) (hprog : call.inProgress)
    (hpass : s.pass = none) :
    ∃ a t, a.call? = some (.put h) ∧ s.step config a = some t ∧ t.pass = none := by
  obtain ⟨messages, chunks, phase⟩ := call
  cases phase with
  | started =>
    refine ⟨.putCheck h, ?_⟩
    simp only [System.step, System.putCheck, hput, hpass]
    split
    · exact ⟨_, rfl, rfl, rfl⟩
    · split
      · exact ⟨_, rfl, rfl, rfl⟩
      · exact ⟨_, rfl, rfl, rfl⟩
  | looping =>
    by_cases hlt : chunks.length < chunkCount (uploadData messages)
    · refine ⟨.putDraw h, ?_⟩
      simp only [System.step, System.putDraw, hput, if_pos hlt]
      exact ⟨_, rfl, rfl, hpass⟩
    · refine ⟨.putCommit h, ?_⟩
      simp only [System.step, System.putCommit, hput, hpass, if_neg hlt]
      exact ⟨_, rfl, rfl, rfl⟩
  | drawn chunkId =>
    refine ⟨.putSelect h s.registeredNodes.keys, ?_⟩
    simp only [System.step, System.putSelect, hput, List.Perm.refl, if_true]
    split
    · exact ⟨_, rfl, rfl, hpass⟩
    · exact ⟨_, rfl, rfl, hpass⟩
  | placed chunkId nodeIds results =>
    by_cases hall : ∀ j < nodeIds.length, (results j).isSome
    · refine ⟨.putJoin h, ?_⟩
      simp only [System.step, System.putJoin, hput, if_pos hall]
      split
      · exact ⟨_, rfl, rfl, hpass⟩
      · exact ⟨_, rfl, rfl, hpass⟩
    · simp only [not_forall, Option.not_isSome_iff_eq_none] at hall
      obtain ⟨j, hj, hnew⟩ := hall
      refine ⟨.putStore h j {}, ?_⟩
      have hready : j < nodeIds.length ∧ results j = none := ⟨hj, hnew⟩
      simp only [System.step, System.putStore, hput, if_pos hready]
      exact ⟨_, rfl, rfl, hpass⟩
  | answered status response => exact absurd rfl (hprog status response)

theorem exists_step_delete {d : Nat} {call : DeleteCall} (hdel : s.deletes d = some call)
    (hprog : 0 < call.stepsLeft) (hpass : s.pass = none) :
    ∃ a t, a.call? = some (.delete d) ∧ s.step config a = some t ∧ t.pass = none := by
  obtain ⟨path, phase⟩ := call
  cases phase with
  | started =>
    refine ⟨.deleteCheck d, ?_⟩
    simp only [System.step, System.deleteCheck, hdel, hpass]
    split
    · exact ⟨_, rfl, rfl, rfl⟩
    · exact ⟨_, rfl, rfl, rfl⟩
  | checked =>
    refine ⟨.deletePath d s.clock, ?_⟩
    simp only [System.step, System.deletePath, hdel, hpass, Int.le_refl, if_true]
    exact ⟨_, rfl, rfl, rfl⟩
  | answered status response => exact absurd hprog (Nat.lt_irrefl 0)

theorem exists_step_register {r : Nat} {call : RegisterCall} (hreg : s.registers r = some call)
    (hprog : 0 < call.stepsLeft) :
    ∃ a t, a.call? = some (.register r) ∧ s.step config a = some t := by
  obtain ⟨ep, phase⟩ := call
  cases phase with
  | started =>
    refine ⟨.registerScan r, ?_⟩
    simp only [System.step, System.registerScan, hreg]
    split
    · exact ⟨_, rfl, rfl⟩
    · exact ⟨_, rfl, rfl⟩
  | scanned =>
    refine ⟨.registerDraw r, ?_⟩
    simp only [System.step, System.registerDraw, hreg]
    exact ⟨_, rfl, rfl⟩
  | drawn assignedId =>
    refine ⟨.registerInsert r, ?_⟩
    simp only [System.step, System.registerInsert, hreg]
    exact ⟨_, rfl, rfl⟩
  | answered response => exact absurd hprog (Nat.lt_irrefl 0)

/-- **A pass comes to its end by itself**, and leaves the calls alone. -/
theorem exists_pass_end (config : Endpoint → DataNodeConfig) (s : System) :
    ∃ as t, exec (System.step config) s as = some t ∧ (∀ a ∈ as, a.call? = some .pass) ∧
      t.pass = none ∧ t.puts = s.puts ∧ t.deletes = s.deletes := by
  cases hpass : s.pass with
  | none => exact ⟨[], s, rfl, fun a ha => (nomatch ha), hpass, rfl, rfl⟩
  | some p =>
    obtain ⟨now, todo, attempts⟩ := p
    induction todo generalizing s attempts with
    | nil =>
      let u : System := { s with
        store := (s.store.cleanupTombstones now (none : Option (FileMeta → Unit → Unit)) ()).1
        pass := none }
      refine ⟨[.cleanupEnd], u, ?_, ?_, rfl, rfl, rfl⟩
      · simp only [exec, System.step, System.cleanupEnd, hpass, Option.bind_some, u]
      · intro a ha
        rw [List.mem_singleton.mp ha]
        rfl
    | cons r todo ih =>
      obtain ⟨as, t, hrun, hall, hnone, hputs, hdeletes⟩ := ih { s with
        disks := deleteReplica config s.registeredNodes {} r s.disks
        pass := some ⟨now, todo, attempts ++ [deleteAttempt config s.registeredNodes {} r]⟩ } _ rfl
      refine ⟨.cleanupDelete {} :: as, t, ?_, ?_, hnone, hputs, hdeletes⟩
      · simp only [exec, System.step, System.cleanupDelete, hpass, Option.bind_some]
        exact hrun
      · intro a ha
        rcases List.mem_cons.mp ha with rfl | ha
        · rfl
        · exact hall a ha

end

/-! ## Top theorem -/

/-- Some steps of this call, and of the cleanup pass, lead to a state in `P`. -/
def CanReach (config : Endpoint → DataNodeConfig) (s : System) (c : CallId) (P : System → Prop) : Prop :=
  ∃ as t, exec (System.step config) s as = some t ∧ (∀ a ∈ as, a.call? = some c ∨ a.call? = some .pass) ∧ P t

/-- The steps of call `c` in `as`. -/
def stepsOf (c : CallId) (as : List Action) : Nat := as.countP fun a => decide (a.call? = some c)

/-- Every call can be answered, and takes no more steps than it has left. -/
structure NoneStuck (config : Endpoint → DataNodeConfig) (s : System) : Prop where
  pass : CanReach config s .pass fun t => t.pass = none
  puts : ∀ h call, s.puts h = some call →
    CanReach config s (.put h) (fun t => ∃ call', t.puts h = some call' ∧ ¬ call'.inProgress) ∧
    ∀ as t, exec (System.step config) s as = some t → stepsOf (.put h) as ≤ call.stepsLeft
  deletes : ∀ d call, s.deletes d = some call →
    CanReach config s (.delete d) (fun t => ∃ path status response,
      t.deletes d = some ⟨path, .answered status response⟩) ∧
    ∀ as t, exec (System.step config) s as = some t → stepsOf (.delete d) as ≤ call.stepsLeft
  registers : ∀ r call, s.registers r = some call →
    CanReach config s (.register r) (fun t => ∃ ep response,
      t.registers r = some ⟨ep, .answered response⟩) ∧
    ∀ as t, exec (System.step config) s as = some t → stepsOf (.register r) as ≤ call.stepsLeft

/-- What a new upload has ahead of it. -/
theorem stepsLeft_new (messages : List PutFileRequest) :
    PutCall.stepsLeft { messages := messages } = 2 + 6 * chunkCount (uploadData messages) := rfl

section
variable {config : Endpoint → DataNodeConfig} {s t : System}

/-- The measure of upload `h`. -/
def System.putSteps (h : Nat) (s : System) : Nat := ((s.puts h).map PutCall.stepsLeft).getD 0

def System.deleteSteps (d : Nat) (s : System) : Nat := ((s.deletes d).map DeleteCall.stepsLeft).getD 0

def System.registerSteps (r : Nat) (s : System) : Nat :=
  ((s.registers r).map RegisterCall.stepsLeft).getD 0

theorem putSteps_eq {h : Nat} {call : PutCall} (hput : s.puts h = some call) :
    s.putSteps h = call.stepsLeft := by
  rw [System.putSteps, hput]
  rfl

theorem deleteSteps_eq {d : Nat} {call : DeleteCall} (hdel : s.deletes d = some call) :
    s.deleteSteps d = call.stepsLeft := by
  rw [System.deleteSteps, hdel]
  rfl

theorem registerSteps_eq {r : Nat} {call : RegisterCall} (hreg : s.registers r = some call) :
    s.registerSteps r = call.stepsLeft := by
  rw [System.registerSteps, hreg]
  rfl

/-- How a step changes the measure of an upload. -/
theorem putSteps_step {a : Action} {h : Nat} (ht : s.step config a = some t)
    (hput : (s.puts h).isSome) : (t.puts h).isSome ∧
      (a.call? = some (.put h) → t.putSteps h < s.putSteps h) ∧ t.putSteps h ≤ s.putSteps h := by
  obtain ⟨call, hput⟩ := Option.isSome_iff_exists.mp hput
  rw [putSteps_eq hput]
  by_cases hown : a.call? = some (.put h)
  · obtain ⟨call', hput', -, hlt⟩ := stepsLeft_put ht hown hput
    rw [putSteps_eq hput', hput']
    exact ⟨rfl, fun _ => hlt, Nat.le_of_lt hlt⟩
  · have hsame := puts_of_step ht hown hput
    rw [putSteps_eq hsame, hsame]
    exact ⟨rfl, fun he => absurd he hown, Nat.le_refl _⟩

theorem deleteSteps_step {a : Action} {d : Nat} (ht : s.step config a = some t)
    (hdel : (s.deletes d).isSome) : (t.deletes d).isSome ∧
      (a.call? = some (.delete d) → t.deleteSteps d < s.deleteSteps d) ∧ t.deleteSteps d ≤ s.deleteSteps d := by
  obtain ⟨call, hdel⟩ := Option.isSome_iff_exists.mp hdel
  rw [deleteSteps_eq hdel]
  by_cases hown : a.call? = some (.delete d)
  · obtain ⟨call', hdel', hlt⟩ := stepsLeft_delete ht hown hdel
    rw [deleteSteps_eq hdel', hdel']
    exact ⟨rfl, fun _ => hlt, Nat.le_of_lt hlt⟩
  · have hsame := deletes_of_step ht hown hdel
    rw [deleteSteps_eq hsame, hsame]
    exact ⟨rfl, fun he => absurd he hown, Nat.le_refl _⟩

theorem registerSteps_step {a : Action} {r : Nat} (ht : s.step config a = some t)
    (hreg : (s.registers r).isSome) : (t.registers r).isSome ∧
      (a.call? = some (.register r) → t.registerSteps r < s.registerSteps r) ∧
      t.registerSteps r ≤ s.registerSteps r := by
  obtain ⟨call, hreg⟩ := Option.isSome_iff_exists.mp hreg
  rw [registerSteps_eq hreg]
  by_cases hown : a.call? = some (.register r)
  · obtain ⟨call', hreg', hlt⟩ := stepsLeft_register ht hown hreg
    rw [registerSteps_eq hreg', hreg']
    exact ⟨rfl, fun _ => hlt, Nat.le_of_lt hlt⟩
  · have hsame := registers_of_step ht hown hreg
    rw [registerSteps_eq hsame, hsame]
    exact ⟨rfl, fun he => absurd he hown, Nat.le_refl _⟩

/-- Once the pass has ended, the call goes on by itself. -/
theorem canReach_of_idle {c : CallId} {P : System → Prop}
    (h : ∀ t, t.pass = none → t.puts = s.puts → t.deletes = s.deletes →
      ∃ as u, exec (System.step config) t as = some u ∧ (∀ a ∈ as, a.call? = some c) ∧ P u) :
    CanReach config s c P := by
  obtain ⟨as, t, hrun, hall, hnone, hputs, hdeletes⟩ := exists_pass_end config s
  obtain ⟨bs, u, hrun', hall', hu⟩ := h t hnone hputs hdeletes
  refine ⟨as ++ bs, u, ?_, ?_, hu⟩
  · rw [exec_append, hrun, Option.bind_some, hrun']
  · intro a ha
    rcases List.mem_append.mp ha with ha | ha
    · exact .inr (hall a ha)
    · exact .inl (hall' a ha)

theorem put_finishes {h : Nat} (hput : (s.puts h).isSome) (hpass : s.pass = none) :
    ∃ as t, exec (System.step config) s as = some t ∧ (∀ a ∈ as, a.call? = some (.put h)) ∧
      ∃ call, t.puts h = some call ∧ ¬ call.inProgress := by
  have hfinish := exists_finish (System.step config) (fun a => a.call? = some (.put h))
    (System.putSteps h) (fun s => (s.puts h).isSome ∧ s.pass = none)
    (fun s a t ht hs ha => (putSteps_step ht hs.1).2.1 ha) ?_ s ⟨hput, hpass⟩
  · obtain ⟨as, t, hrun, hall, ⟨hsome, -⟩, hzero⟩ := hfinish
    obtain ⟨call, hcall⟩ := Option.isSome_iff_exists.mp hsome
    rw [putSteps_eq hcall] at hzero
    exact ⟨as, t, hrun, hall, call, hcall, fun hprog => Nat.ne_of_gt (stepsLeft_pos hprog) hzero⟩
  · rintro s ⟨hsome, hnone⟩ hpos
    obtain ⟨call, hcall⟩ := Option.isSome_iff_exists.mp hsome
    rw [putSteps_eq hcall] at hpos
    have hprog : call.inProgress := by
      intro status response hphase
      rw [PutCall.stepsLeft, hphase] at hpos
      exact Nat.lt_irrefl 0 hpos
    obtain ⟨a, t, ha, ht, hnone'⟩ := @exists_step_put config s h call hcall hprog hnone
    exact ⟨a, t, ha, ht, (putSteps_step ht hsome).1, hnone'⟩

theorem delete_finishes {d : Nat} (hdel : (s.deletes d).isSome) (hpass : s.pass = none) :
    ∃ as t, exec (System.step config) s as = some t ∧ (∀ a ∈ as, a.call? = some (.delete d)) ∧
      ∃ path status response, t.deletes d = some ⟨path, .answered status response⟩ := by
  have hfinish := exists_finish (System.step config) (fun a => a.call? = some (.delete d))
    (System.deleteSteps d) (fun s => (s.deletes d).isSome ∧ s.pass = none)
    (fun s a t ht hs ha => (deleteSteps_step ht hs.1).2.1 ha) ?_ s ⟨hdel, hpass⟩
  · obtain ⟨as, t, hrun, hall, ⟨hsome, -⟩, hzero⟩ := hfinish
    obtain ⟨⟨path, phase⟩, hcall⟩ := Option.isSome_iff_exists.mp hsome
    rw [deleteSteps_eq hcall] at hzero
    cases phase with
    | answered status response => exact ⟨as, t, hrun, hall, path, status, response, hcall⟩
    | started => cases hzero
    | checked => cases hzero
  · rintro s ⟨hsome, hnone⟩ hpos
    obtain ⟨call, hcall⟩ := Option.isSome_iff_exists.mp hsome
    rw [deleteSteps_eq hcall] at hpos
    obtain ⟨a, t, ha, ht, hnone'⟩ := @exists_step_delete config s d call hcall hpos hnone
    exact ⟨a, t, ha, ht, (deleteSteps_step ht hsome).1, hnone'⟩

theorem register_finishes {r : Nat} (hreg : (s.registers r).isSome) :
    ∃ as t, exec (System.step config) s as = some t ∧ (∀ a ∈ as, a.call? = some (.register r)) ∧
      ∃ ep response, t.registers r = some ⟨ep, .answered response⟩ := by
  have hfinish := exists_finish (System.step config) (fun a => a.call? = some (.register r))
    (System.registerSteps r) (fun s => (s.registers r).isSome)
    (fun s a t ht hs ha => (registerSteps_step ht hs).2.1 ha) ?_ s hreg
  · obtain ⟨as, t, hrun, hall, hsome, hzero⟩ := hfinish
    obtain ⟨⟨ep, phase⟩, hcall⟩ := Option.isSome_iff_exists.mp hsome
    rw [registerSteps_eq hcall] at hzero
    cases phase with
    | answered response => exact ⟨as, t, hrun, hall, ep, response, hcall⟩
    | started => cases hzero
    | scanned => cases hzero
    | drawn nodeId => cases hzero
  · intro s hsome hpos
    obtain ⟨call, hcall⟩ := Option.isSome_iff_exists.mp hsome
    rw [registerSteps_eq hcall] at hpos
    obtain ⟨a, t, ha, ht⟩ := @exists_step_register config s r call hcall hpos
    exact ⟨a, t, ha, ht, (registerSteps_step ht hsome).1⟩

end

/-- **No handler is stuck**, in any state. -/
theorem noneStuck (config : Endpoint → DataNodeConfig) (s : System) : NoneStuck config s := by
  refine ⟨?_, ?_, ?_, ?_⟩
  · obtain ⟨as, t, hrun, hall, hnone, -⟩ := exists_pass_end config s
    exact ⟨as, t, hrun, fun a ha => .inl (hall a ha), hnone⟩
  · intro h call hput
    have hsome : (s.puts h).isSome := by rw [hput]; rfl
    refine ⟨canReach_of_idle fun t hnone hputs _ => put_finishes (hputs ▸ hsome) hnone, ?_⟩
    intro as t hrun
    have hle := countP_le (System.step config) (fun a => a.call? = some (.put h))
      (System.putSteps h) (fun s => (s.puts h).isSome) (fun s a t ht hs => (putSteps_step ht hs).1)
      (fun s a t ht hs => (putSteps_step ht hs).2.1) (fun s a t ht hs => (putSteps_step ht hs).2.2) as
      hrun hsome
    rw [putSteps_eq hput] at hle
    exact Nat.le_trans (Nat.le_add_right _ _) hle
  · intro d call hdel
    have hsome : (s.deletes d).isSome := by rw [hdel]; rfl
    refine ⟨canReach_of_idle fun t hnone _ hdeletes => delete_finishes (hdeletes ▸ hsome) hnone, ?_⟩
    intro as t hrun
    have hle := countP_le (System.step config) (fun a => a.call? = some (.delete d))
      (System.deleteSteps d) (fun s => (s.deletes d).isSome) (fun s a t ht hs => (deleteSteps_step ht hs).1)
      (fun s a t ht hs => (deleteSteps_step ht hs).2.1) (fun s a t ht hs => (deleteSteps_step ht hs).2.2)
      as hrun hsome
    rw [deleteSteps_eq hdel] at hle
    exact Nat.le_trans (Nat.le_add_right _ _) hle
  · intro r call hreg
    have hsome : (s.registers r).isSome := by rw [hreg]; rfl
    obtain ⟨as, t, hrun, hall, hdone⟩ := @register_finishes config s r hsome
    refine ⟨⟨as, t, hrun, fun a ha => .inl (hall a ha), hdone⟩, ?_⟩
    intro as t hrun
    have hle := countP_le (System.step config) (fun a => a.call? = some (.register r))
      (System.registerSteps r) (fun s => (s.registers r).isSome)
      (fun s a t ht hs => (registerSteps_step ht hs).1)
      (fun s a t ht hs => (registerSteps_step ht hs).2.1) (fun s a t ht hs => (registerSteps_step ht hs).2.2)
      as hrun hsome
    rw [registerSteps_eq hreg] at hle
    exact Nat.le_trans (Nat.le_add_right _ _) hle

end ToyDfs
