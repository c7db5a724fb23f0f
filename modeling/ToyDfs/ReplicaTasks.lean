import ToyDfs.FanOut
import ToyDfs.SameNodeReplicas

/-!
The replica writes of one chunk, with the steps of their handlers interleaved.

`runTasks` takes each `PutChunk` as one step.  Here every datanode is a `ChunkWriters`, and
a step of a task is one step of its handler: it opens the file, some bytes reach the file,
or it closes it (`ChunkWriters.advance`).  The tasks take such steps in any order, and
`distributeInterleaved` waits for all of them.

* `distributeInterleaved_status`: the answer is the same in every order.
* `distributeInterleaved_inTurn`: one task after the other it is `distributeChunkToNodes`.
* `distributeInterleaved_complete`: when no write loses a byte, it is that in every order.
-/

namespace ToyDfs

open Transition SharedFile

/-! ## Algorithm -/

section
variable {r : Nat} (config : DataNodeConfig) (fault : WriteFault) (chunkId : String) (data : Bytes)

/-- What a handler does next.  Of the bytes that are due the last `held` stay behind; what
a write or the flush at the close loses does not become due. -/
def PutChunkPhase.next (k : Fin r) (held : Nat) : PutChunkPhase → Option (WriterAction r)
  | .started => some (.openFile k fault.openFails)
  | .writing file pos =>
    if file.bad ∨ pos = data.length then some (.close k)
    else if pos < (fault.kept data).length then some (.write k ((fault.kept data).length - pos - held))
    else some (.writeFails k)
  | .answered _ _ => none

/-- One step of handler `k`, nothing when it is through. -/
def ChunkWriters.advance (s : ChunkWriters r) (k : Fin r) (held : Nat) : ChunkWriters r :=
  match (s.handlers k).next fault data k held with
  | none => s
  | some a => (s.step config chunkId data a).getD s

end

section
variable (config : Endpoint → DataNodeConfig) (registry : Registry) (fault : Nat → PutFault)
  (chunkId : String) (data : Bytes) (nodeIds : List Int32)

/-- Where the handler of task `j` runs, if its request gets to a datanode. -/
def taskEndpoint (j : Nat) : Option Endpoint :=
  match registry.lookup (nodeIds.getD j 0) with
  | none => none
  | some info =>
    match (fault j).rpc with
    | .requestLost _ => none
    | _ => some info.endpoint

section
variable {r : Nat}

/-- The disks, while the tasks write to them. -/
def disksOf (s : Endpoint → ChunkWriters r) : Disks := fun ep => (s ep).disk

/-- One step of a task. -/
def taskStep (s : Endpoint → ChunkWriters r) (step : Fin r × Nat) : Endpoint → ChunkWriters r :=
  match taskEndpoint registry fault nodeIds step.1 with
  | none => s
  | some ep =>
    Function.update s ep ((s ep).advance (config ep) (fault step.1).disk chunkId data step.1 step.2)

def runSteps (steps : List (Fin r × Nat)) (s : Endpoint → ChunkWriters r) : Endpoint → ChunkWriters r :=
  steps.foldl (taskStep config registry fault chunkId data nodeIds) s

/-- All that is left of these tasks, one after the other. -/
def inTurnSteps (tasks : List (Fin r)) : List (Fin r × Nat) :=
  tasks.flatMap fun k => List.replicate 4 (k, 0)

/-- What `futures[j].get()` returns. -/
def taskStatus (s : Endpoint → ChunkWriters r) (j : Fin r) : Status :=
  match registry.lookup (nodeIds.getD j 0) with
  | none => nodeNotFound (nodeIds.getD j 0)
  | some info =>
    match (fault j).rpc with
    | .none =>
      match (s info.endpoint).handlers j with
      | .answered clientStatus _ => if clientStatus.isOk then Status.OK else clientStatus
      -- not before it is through
      | _ => Status.OK
    | .requestLost e => e.status
    | .replyLost e => e.status

end

/-- Before the first step. -/
def writersAt (r : Nat) (disks : Disks) : Endpoint → ChunkWriters r :=
  fun ep => ⟨disks ep, fun _ => .started⟩

/-- `distributeChunkToNodes`, with `steps` of the tasks before it waits for the rest. -/
def distributeInterleaved (steps : List (Fin nodeIds.length × Nat)) (disks : Disks) : Status × Disks :=
  if nodeIds.isEmpty then
    ({ code := .internal, errorMessage := "No nodes specified for chunk distribution" }, disks)
  else
    let s := runSteps config registry fault chunkId data nodeIds
      (steps ++ inTurnSteps (List.finRange nodeIds.length)) (writersAt nodeIds.length disks)
    (combineStatuses nodeIds ((List.finRange nodeIds.length).map (taskStatus registry fault nodeIds s)),
      disksOf s)

end

/-! ## One handler -/

section
variable {r : Nat} {config : DataNodeConfig} {fault : WriteFault} {chunkId : String} {data : Bytes}
  {s : ChunkWriters r} {k : Fin r}

/-- What is kept is the beginning of the data. -/
theorem WriteFault.kept_take (fault : WriteFault) (data : Bytes) :
    fault.kept data = data.take (fault.kept data).length := by
  have hpre : fault.kept data <+: data := by
    unfold WriteFault.kept
    cases fault.write 0 with
    | none =>
      cases fault.flush with
      | none => exact List.prefix_refl data
      | some k => exact List.take_prefix k data
    | some n =>
      cases fault.flush with
      | none => exact List.take_prefix n data
      | some k => exact (List.take_prefix k _).trans (List.take_prefix n data)
  exact List.prefix_iff_eq_take.mp hpre

theorem WriteFault.length_kept_le (fault : WriteFault) (data : Bytes) :
    (fault.kept data).length ≤ data.length := by
  rw [fault.kept_take data, List.length_take]
  exact Nat.min_le_right _ _

namespace ChunkWriters

/-! ### What a step of a handler is -/

theorem advance_refused (hk : s.handlers k = .started) {e : Cpp.StoiError}
    (hpath : getChunkPath chunkId config = .error e) (held : Nat) :
    s.advance config fault chunkId data k held = s.move k (.answered Status.unexpectedError none) := by
  simp only [advance, hk, PutChunkPhase.next, step, hpath, Option.getD_some]

theorem advance_notOpened (hk : s.handlers k = .started) {path : String}
    (hpath : getChunkPath chunkId config = .ok path) (hfails : fault.openFails = true) (held : Nat) :
    s.advance config fault chunkId data k held =
      s.move k (.answered { code := .internal, errorMessage := "Failed to open file" } none) := by
  simp only [advance, hk, PutChunkPhase.next, step, hpath, hfails, if_true, Option.getD_some]

theorem advance_opened (hk : s.handlers k = .started) {path : String}
    (hpath : getChunkPath chunkId config = .ok path) (hopen : fault.openFails = false) (held : Nat) :
    s.advance config fault chunkId data k held =
      (s.setFile path []).move k (.writing { path := path } 0) := by
  simp only [advance, hk, PutChunkPhase.next, step, hpath, hopen, Bool.false_eq_true, if_false,
    OFStream.openFile, Option.getD_some, setFile]

theorem advance_closed {file : OFStream} {pos : Nat} (hk : s.handlers k = .writing file pos)
    (hend : file.bad = true ∨ pos = data.length) (held : Nat) :
    s.advance config fault chunkId data k held = s.move k (.answered Status.OK (some pos)) := by
  simp only [advance, hk, PutChunkPhase.next, if_pos hend, step, Option.getD_some]

theorem advance_wrote {file : OFStream} {pos : Nat} (hk : s.handlers k = .writing file pos)
    (hend : ¬ (file.bad = true ∨ pos = data.length)) (hmore : pos < (fault.kept data).length) (held : Nat) :
    s.advance config fault chunkId data k held =
      (s.setFile file.path (writeAt 0 ((s.disk file.path).getD []) pos
        ((data.drop pos).take ((fault.kept data).length - pos - held)))).move k
          (.writing file (pos + ((fault.kept data).length - pos - held))) := by
  have hlen := fault.length_kept_le data
  have hgood : ¬ file.bad = true := fun hb => hend (.inl hb)
  have hpiece : ((data.drop pos).take ((fault.kept data).length - pos - held)).length =
      (fault.kept data).length - pos - held := by
    rw [List.length_take, List.length_drop]
    omega
  simp only [advance, hk, PutChunkPhase.next, if_neg hend, if_pos hmore, step, if_neg hgood,
    Option.getD_some, hpiece]

theorem advance_failed {file : OFStream} {pos : Nat} (hk : s.handlers k = .writing file pos)
    (hend : ¬ (file.bad = true ∨ pos = data.length)) (hkept : ¬ pos < (fault.kept data).length) (held : Nat) :
    s.advance config fault chunkId data k held = s.move k (.writing { file with bad := true } pos) := by
  simp only [advance, hk, PutChunkPhase.next, if_neg hend, if_neg hkept, step, Option.getD_some]

theorem advance_answered {status : Status} {pos : Option Nat} (hk : s.handlers k = .answered status pos)
    (held : Nat) : s.advance config fault chunkId data k held = s := by
  simp only [advance, hk, PutChunkPhase.next]

end ChunkWriters

/-- How a handler ends. -/
def finalPhase (config : DataNodeConfig) (fault : WriteFault) (chunkId : String) (data : Bytes) :
    PutChunkPhase :=
  match getChunkPath chunkId config with
  | .error _ => .answered Status.unexpectedError none
  | .ok _ =>
    if fault.openFails then .answered { code := .internal, errorMessage := "Failed to open file" } none
    else .answered Status.OK (some (fault.kept data).length)

/-- Where a handler can be. -/
def OnTrack (config : DataNodeConfig) (fault : WriteFault) (chunkId : String) (data : Bytes) :
    PutChunkPhase → Prop
  | .started => True
  | .writing file pos => (∃ path, getChunkPath chunkId config = .ok path) ∧ fault.openFails = false ∧
      pos ≤ (fault.kept data).length ∧ (file.bad = true → pos = (fault.kept data).length)
  | .answered status pos => PutChunkPhase.answered status pos = finalPhase config fault chunkId data

/-- How many steps a handler has left that holds nothing back. -/
def PutChunkPhase.left (fault : WriteFault) (data : Bytes) : PutChunkPhase → Nat
  | .started => 4
  | .writing file pos =>
    if file.bad ∨ pos = data.length then 1 else if pos < (fault.kept data).length then 3 else 2
  | .answered _ _ => 0

theorem PutChunkPhase.left_writing (file : OFStream) (pos : Nat) :
    (writing file pos).left fault data =
      if file.bad ∨ pos = data.length then 1 else if pos < (fault.kept data).length then 3 else 2 := rfl

theorem PutChunkPhase.left_writing_le (fault : WriteFault) (data : Bytes) (file : OFStream) (pos : Nat) :
    (writing file pos).left fault data ≤ 3 := by
  rw [left_writing]
  split
  · decide
  · split <;> decide

theorem PutChunkPhase.left_le (phase : PutChunkPhase) (fault : WriteFault) (data : Bytes) :
    phase.left fault data ≤ 4 := by
  cases phase with
  | started => exact Nat.le_refl 4
  | writing file pos => exact Nat.le_succ_of_le (left_writing_le fault data file pos)
  | answered status pos => exact Nat.zero_le 4

/-- What one step does to a handler. -/
structure Advanced (config : DataNodeConfig) (fault : WriteFault) (chunkId : String) (data : Bytes)
    (held : Nat) (before after : PutChunkPhase) : Prop where
  onTrack : OnTrack config fault chunkId data after
  le : after.left fault data ≤ before.left fault data
  pred : held = 0 → after.left fault data ≤ before.left fault data - 1

theorem Advanced.answered {held : Nat} {before : PutChunkPhase} {status : Status} {pos : Option Nat}
    (h : PutChunkPhase.answered status pos = finalPhase config fault chunkId data) :
    Advanced config fault chunkId data held before (.answered status pos) :=
  ⟨h, Nat.zero_le _, fun _ => Nat.zero_le _⟩

/-- **One step of a handler** that is on track moves it on, and no other. -/
theorem ChunkWriters.advance_spec (h : OnTrack config fault chunkId data (s.handlers k)) (held : Nat) :
    ∃ phase, (s.advance config fault chunkId data k held).handlers = Function.update s.handlers k phase ∧
      Advanced config fault chunkId data held (s.handlers k) phase := by
  cases hk : s.handlers k with
  | started =>
    cases hpath : getChunkPath chunkId config with
    | error e =>
      refine ⟨_, congrArg handlers (advance_refused hk hpath held), .answered ?_⟩
      simp only [finalPhase, hpath]
    | ok path =>
      cases hopen : fault.openFails with
      | true =>
        refine ⟨_, congrArg handlers (advance_notOpened hk hpath hopen held), .answered ?_⟩
        simp only [finalPhase, hpath, hopen, if_true]
      | false =>
        have hleft := PutChunkPhase.left_writing_le fault data { path := path } 0
        refine ⟨_, congrArg handlers (advance_opened hk hpath hopen held),
          ⟨⟨path, hpath⟩, hopen, Nat.zero_le _, ?_⟩, Nat.le_succ_of_le hleft, fun _ => hleft⟩
        rintro ⟨⟩
  | writing file pos =>
    rw [hk] at h
    obtain ⟨⟨path, hpath⟩, hopen, hpos, hbad⟩ := h
    by_cases hend : file.bad = true ∨ pos = data.length
    · have hkept : pos = (fault.kept data).length := by
        have hlen := fault.length_kept_le data
        rcases hend with hb | hp
        · exact hbad hb
        · omega
      refine ⟨_, congrArg handlers (advance_closed hk hend held), .answered ?_⟩
      simp only [finalPhase, hpath, hopen, Bool.false_eq_true, if_false, hkept]
    · have hgood : ¬ file.bad = true := fun hb => hend (.inl hb)
      by_cases hmore : pos < (fault.kept data).length
      · have hbefore : (PutChunkPhase.writing file pos).left fault data = 3 := by
          rw [PutChunkPhase.left_writing, if_neg hend, if_pos hmore]
        refine ⟨_, congrArg handlers (advance_wrote hk hend hmore held),
          ⟨⟨path, hpath⟩, hopen, by omega, fun hb => absurd hb hgood⟩, ?_, fun hheld => ?_⟩
        · rw [hbefore]
          exact PutChunkPhase.left_writing_le ..
        · rw [hbefore, PutChunkPhase.left_writing]
          split
          · omega
          · rw [if_neg (by omega)]
      · have hafter : (PutChunkPhase.writing { file with bad := true } pos).left fault data = 1 := by
          rw [PutChunkPhase.left_writing, if_pos (.inl rfl)]
        have hbefore : (PutChunkPhase.writing file pos).left fault data = 2 := by
          rw [PutChunkPhase.left_writing, if_neg hend, if_neg hmore]
        refine ⟨_, congrArg handlers (advance_failed hk hend hmore held),
          ⟨⟨path, hpath⟩, hopen, hpos, fun _ => by omega⟩, ?_, fun _ => ?_⟩
        · rw [hafter, hbefore]
          exact Nat.le_succ 1
        · rw [hafter, hbefore]
  | answered status pos =>
    rw [hk] at h
    refine ⟨.answered status pos, ?_, .answered h⟩
    rw [advance_answered hk, ← hk, Function.update_eq_self]

/-- A handler that is through has ended as it had to. -/
theorem OnTrack.final {phase : PutChunkPhase} (h : OnTrack config fault chunkId data phase)
    (hleft : phase.left fault data = 0) : phase = finalPhase config fault chunkId data := by
  cases phase with
  | started => cases hleft
  | writing file pos =>
    rw [PutChunkPhase.left_writing] at hleft
    split at hleft
    · cases hleft
    · split at hleft <;> cases hleft
  | answered status pos => exact h

/-- What is answered is what `putChunk` answers. -/
theorem finalPhase_status (config : DataNodeConfig) (fault : WriteFault) (chunkId : String) (data : Bytes)
    (disk : Disk) : ∃ pos, finalPhase config fault chunkId data =
      .answered (putChunk config fault { messages := [⟨chunkId, data⟩] } disk).1 pos := by
  rw [putChunk_single]
  unfold finalPhase
  cases getChunkPath chunkId config with
  | error e => exact ⟨_, rfl⟩
  | ok path =>
    by_cases hfails : fault.openFails = true
    · simp only [hfails, if_true]
      exact ⟨_, rfl⟩
    · simp only [hfails, Bool.false_eq_true, if_false]
      exact ⟨_, rfl⟩

/-- Only steps of the datanode. -/
theorem ChunkWriters.reachable_advance {disk : Disk} {k : Fin r}
    (h : Reachable (step config chunkId data) (Initial disk) (fun _ _ => True) s) (held : Nat) :
    Reachable (step config chunkId data) (Initial disk) (fun _ _ => True)
      (s.advance config fault chunkId data k held) := by
  unfold advance
  cases (s.handlers k).next fault data k held with
  | none => exact h
  | some a =>
    simp only
    cases hstep : s.step config chunkId data a with
    | none => exact h
    | some t => exact .step a h trivial hstep

/-! ### A handler by itself -/

namespace ChunkWriters

theorem move_self (phase : PutChunkPhase) : (s.move k phase).handlers k = phase :=
  Function.update_self ..

theorem iterate_answered {status : Status} {pos : Option Nat} (hk : s.handlers k = .answered status pos)
    (n : Nat) : (fun t => t.advance config fault chunkId data k 0)^[n] s = s :=
  Function.iterate_fixed (advance_answered hk 0) n

theorem iterate_closed {file : OFStream} {pos : Nat} (hk : s.handlers k = .writing file pos)
    (hend : file.bad = true ∨ pos = data.length) (n : Nat) :
    ((fun t => t.advance config fault chunkId data k 0)^[n + 1] s).disk = s.disk := by
  rw [Function.iterate_succ_apply, advance_closed hk hend, iterate_answered (move_self _)]
  rfl

/-- All that is kept is in the file. -/
theorem iterate_kept {file : OFStream} {pos : Nat} (hk : s.handlers k = .writing file pos)
    (hpos : pos = (fault.kept data).length) (n : Nat) :
    ((fun t => t.advance config fault chunkId data k 0)^[n + 2] s).disk = s.disk := by
  by_cases hend : file.bad = true ∨ pos = data.length
  · exact iterate_closed hk hend (n + 1)
  · rw [Function.iterate_succ_apply, advance_failed hk hend (by omega),
      iterate_closed (move_self _) (.inl rfl)]
    rfl

theorem iterate_opened {path : String} (hk : s.handlers k = .writing { path := path } 0)
    (hempty : s.disk path = some []) (n : Nat) :
    ((fun t => t.advance config fault chunkId data k 0)^[n + 3] s).disk =
      Function.update s.disk path (some (fault.kept data)) := by
  by_cases hmore : 0 < (fault.kept data).length
  · have hlen := fault.length_kept_le data
    have hend : ¬ (false = true ∨ 0 = data.length) := by
      rintro (h | h)
      · cases h
      · omega
    have hfile : writeAt 0 ((s.disk path).getD []) 0 ((data.drop 0).take (fault.kept data).length) =
        fault.kept data := by
      rw [hempty, List.drop_zero, ← fault.kept_take data, Option.getD_some, writeAt,
        if_neg (fun h => by rw [List.isEmpty_iff.mp h] at hmore; cases hmore)]
      simp
    rw [Function.iterate_succ_apply, advance_wrote hk hend hmore, iterate_kept (move_self _) (by omega)]
    exact congrArg (fun content => Function.update s.disk path (some content)) hfile
  · have hnil : fault.kept data = [] := List.eq_nil_of_length_eq_zero (by omega)
    rw [iterate_kept hk (by omega), hnil, ← hempty, Function.update_eq_self]

/-- **A handler by itself** does what `putChunk` does. -/
theorem iterate_alone (hk : s.handlers k = .started) :
    ((fun t => t.advance config fault chunkId data k 0)^[4] s).disk =
      (putChunk config fault { messages := [⟨chunkId, data⟩] } s.disk).2.2 := by
  rw [putChunk_single, Function.iterate_succ_apply]
  cases hpath : getChunkPath chunkId config with
  | error e =>
    rw [advance_refused hk hpath, iterate_answered (move_self _)]
    rfl
  | ok path =>
    cases hopen : fault.openFails with
    | true =>
      rw [advance_notOpened hk hpath hopen, iterate_answered (move_self _)]
      rfl
    | false =>
      have hempty : ((s.setFile path []).move k (.writing { path := path } 0)).disk path = some [] :=
        Function.update_self ..
      rw [advance_opened hk hpath hopen, iterate_opened (move_self _) hempty]
      exact Function.update_idem ..

end ChunkWriters

/-- **Handlers that are through with all the data** leave the same, however they came there. -/
theorem ChunkWriters.disk_eq_of_positions {disk : Disk} {s t : ChunkWriters r}
    (hs : Reachable (step config chunkId data) (Initial disk) (fun _ _ => True) s)
    (ht : Reachable (step config chunkId data) (Initial disk) (fun _ _ => True) t)
    (hpos : s.positions = t.positions) (hfull : ∀ k n, s.positions k = some n → n = data.length) :
    s.disk = t.disk := by
  have hwhole : ∀ {content : Bytes}, HoldsLast data content s.positions → content = data := by
    intro content hholds
    obtain ⟨k, n, hk, hsame⟩ := hholds.last
    rw [hfull k n hk] at hsame
    exact hsame.eq hholds.short
  rcases (inv_of_reachable hs).disk with ⟨hdisk, hnone⟩ | ⟨path, content, hpath, hdisk, hholds⟩
  · rcases (inv_of_reachable ht).disk with ⟨hdisk', -⟩ | ⟨path', content', -, -, hholds'⟩
    · rw [hdisk, hdisk']
    · obtain ⟨k, n, hk, -⟩ := hholds'.last
      rw [← hpos, hnone k] at hk
      cases hk
  · rcases (inv_of_reachable ht).disk with ⟨-, hnone'⟩ | ⟨path', content', hpath', hdisk', hholds'⟩
    · obtain ⟨k, n, hk, -⟩ := hholds.last
      rw [hpos, hnone' k] at hk
      cases hk
    · rw [← hpos] at hholds'
      cases hpath.symm.trans hpath'
      rw [hdisk, hdisk', hwhole hholds, hwhole hholds']

end

/-! ## The tasks of a chunk -/

section
variable {r : Nat} {config : Endpoint → DataNodeConfig} {registry : Registry} {fault : Nat → PutFault}
  {chunkId : String} {data : Bytes} {nodeIds : List Int32} {s : Endpoint → ChunkWriters r}

theorem runSteps_append (steps steps' : List (Fin r × Nat)) :
    runSteps config registry fault chunkId data nodeIds (steps ++ steps') s =
      runSteps config registry fault chunkId data nodeIds steps'
        (runSteps config registry fault chunkId data nodeIds steps s) :=
  List.foldl_append

/-- A task has a handler on its own datanode, and none elsewhere. -/
structure Tracked (config : Endpoint → DataNodeConfig) (registry : Registry) (fault : Nat → PutFault)
    (chunkId : String) (data : Bytes) (nodeIds : List Int32) (s : Endpoint → ChunkWriters r) : Prop where
  own : ∀ (k : Fin r) ep, taskEndpoint registry fault nodeIds k = some ep →
    OnTrack (config ep) (fault k).disk chunkId data ((s ep).handlers k)
  other : ∀ (k : Fin r) ep, taskEndpoint registry fault nodeIds k ≠ some ep →
    (s ep).handlers k = .started

theorem Tracked.start (disks : Disks) :
    Tracked config registry fault chunkId data nodeIds (writersAt r disks) :=
  ⟨fun _ _ _ => trivial, fun _ _ _ => rfl⟩

/-- A step is one of its own task. -/
theorem taskStep_other (h : Tracked config registry fault chunkId data nodeIds s) {j k : Fin r}
    {ep : Endpoint} (hne : j ≠ k ∨ taskEndpoint registry fault nodeIds k ≠ some ep) (held : Nat) :
    (taskStep config registry fault chunkId data nodeIds s (k, held) ep).handlers j =
      (s ep).handlers j := by
  unfold taskStep
  cases hk : taskEndpoint registry fault nodeIds k with
  | none => rfl
  | some ep₀ =>
    obtain ⟨phase, hphase, -⟩ := ChunkWriters.advance_spec (h.own k ep₀ hk) held
    by_cases hep : ep = ep₀
    · subst hep
      simp only [Function.update_self]
      rw [hphase, Function.update_of_ne (hne.resolve_right fun hn => hn hk)]
    · simp only [Function.update_of_ne hep]

/-- **One step** keeps every task on track and brings its own nearer to the end. -/
theorem taskStep_spec (h : Tracked config registry fault chunkId data nodeIds s) (k : Fin r) (held : Nat) :
    Tracked config registry fault chunkId data nodeIds
        (taskStep config registry fault chunkId data nodeIds s (k, held)) ∧
      ∀ (j : Fin r) ep, taskEndpoint registry fault nodeIds j = some ep →
        ((taskStep config registry fault chunkId data nodeIds s (k, held) ep).handlers j).left
            (fault j).disk data ≤
          ((s ep).handlers j).left (fault j).disk data - [(k, held)].count (j, 0) := by
  have hown : ∀ ep, taskEndpoint registry fault nodeIds k = some ep →
      Advanced (config ep) (fault k).disk chunkId data held ((s ep).handlers k)
        ((taskStep config registry fault chunkId data nodeIds s (k, held) ep).handlers k) := by
    intro ep hk
    obtain ⟨phase, hphase, hadvanced⟩ := ChunkWriters.advance_spec (h.own k ep hk) held
    simp only [taskStep, hk, Function.update_self, hphase]
    exact hadvanced
  refine ⟨⟨fun j ep hj => ?_, fun j ep hj => ?_⟩, fun j ep hj => ?_⟩
  · by_cases hjk : j = k
    · subst hjk
      exact (hown ep hj).onTrack
    · rw [taskStep_other h (.inl hjk)]
      exact h.own j ep hj
  · have hne : j ≠ k ∨ taskEndpoint registry fault nodeIds k ≠ some ep := by
      by_cases hjk : j = k
      · exact .inr (hjk ▸ hj)
      · exact .inl hjk
    rw [taskStep_other h hne]
    exact h.other j ep hj
  · by_cases hjk : j = k
    · subst hjk
      by_cases hheld : held = 0
      · subst hheld
        rw [List.count_singleton_self]
        exact (hown ep hj).pred rfl
      · rw [List.count_eq_zero_of_not_mem (by simp [Ne.symm hheld])]
        exact (hown ep hj).le
    · rw [taskStep_other h (.inl hjk), List.count_eq_zero_of_not_mem (by simp [hjk])]
      exact Nat.le_refl _

theorem runSteps_other (h : Tracked config registry fault chunkId data nodeIds s)
    {steps : List (Fin r × Nat)} {j : Fin r} (hj : ∀ held, (j, held) ∉ steps) (ep : Endpoint) :
    (runSteps config registry fault chunkId data nodeIds steps s ep).handlers j = (s ep).handlers j := by
  induction steps generalizing s with
  | nil => rfl
  | cons step steps ih =>
    obtain ⟨k, held⟩ := step
    have hne : j ≠ k := by
      rintro rfl
      exact hj held List.mem_cons_self
    rw [← taskStep_other h (.inl hne) held]
    exact ih (taskStep_spec h k held).1 fun held' hmem => hj held' (List.mem_cons_of_mem _ hmem)

/-- **Any steps.** -/
theorem runSteps_spec (h : Tracked config registry fault chunkId data nodeIds s)
    (steps : List (Fin r × Nat)) :
    Tracked config registry fault chunkId data nodeIds
        (runSteps config registry fault chunkId data nodeIds steps s) ∧
      ∀ (j : Fin r) ep, taskEndpoint registry fault nodeIds j = some ep →
        ((runSteps config registry fault chunkId data nodeIds steps s ep).handlers j).left
            (fault j).disk data ≤
          ((s ep).handlers j).left (fault j).disk data - steps.count (j, 0) := by
  induction steps generalizing s with
  | nil => exact ⟨h, fun _ _ _ => Nat.le_refl _⟩
  | cons step steps ih =>
    obtain ⟨k, held⟩ := step
    obtain ⟨hnext, hstep⟩ := taskStep_spec h k held
    obtain ⟨hend, hrest⟩ := ih hnext
    refine ⟨hend, fun j ep hj => (hrest j ep hj).trans ?_⟩
    have hone := hstep j ep hj
    have hcount : ((k, held) :: steps).count (j, 0) = [(k, held)].count (j, 0) + steps.count (j, 0) :=
      @List.count_append _ _ _ [(k, held)] steps
    rw [hcount]
    omega

/-- After any steps from the start. -/
theorem Tracked.run (disks : Disks) (steps : List (Fin r × Nat)) :
    Tracked config registry fault chunkId data nodeIds
      (runSteps config registry fault chunkId data nodeIds steps (writersAt r disks)) :=
  (runSteps_spec (.start disks) steps).1

theorem four_le_count_inTurnSteps {tasks : List (Fin r)} {k : Fin r} (hk : k ∈ tasks) :
    4 ≤ (inTurnSteps tasks).count (k, 0) := by
  obtain ⟨before, after, rfl⟩ := List.append_of_mem hk
  rw [inTurnSteps, List.flatMap_append, List.flatMap_cons, List.count_append, List.count_append,
    List.count_replicate_self]
  omega

/-- **Waiting** for a task brings it to its end. -/
theorem runSteps_final (h : Tracked config registry fault chunkId data nodeIds s)
    {tasks : List (Fin r)} {k : Fin r} (hk : k ∈ tasks) {ep : Endpoint}
    (hep : taskEndpoint registry fault nodeIds k = some ep) :
    (runSteps config registry fault chunkId data nodeIds (inTurnSteps tasks) s ep).handlers k =
      finalPhase (config ep) (fault k).disk chunkId data := by
  obtain ⟨htracked, hleft⟩ := runSteps_spec h (inTurnSteps tasks)
  refine (htracked.own k ep hep).final ?_
  have hfour := four_le_count_inTurnSteps hk
  have hbefore := ((s ep).handlers k).left_le (fault k).disk data
  have hk := hleft k ep hep
  omega

/-- What a datanode goes through are steps of its handlers. -/
theorem reachable_runSteps {disks : Disks} {ep : Endpoint}
    (h : Reachable (ChunkWriters.step (config ep) chunkId data) (ChunkWriters.Initial (disks ep))
      (fun _ _ => True) (s ep)) (steps : List (Fin r × Nat)) :
    Reachable (ChunkWriters.step (config ep) chunkId data) (ChunkWriters.Initial (disks ep))
      (fun _ _ => True) (runSteps config registry fault chunkId data nodeIds steps s ep) := by
  induction steps generalizing s with
  | nil => exact h
  | cons step steps ih =>
    apply ih
    unfold taskStep
    cases taskEndpoint registry fault nodeIds step.1 with
    | none => exact h
    | some ep₀ =>
      simp only
      by_cases hep : ep = ep₀
      · subst hep
        rw [Function.update_self]
        exact ChunkWriters.reachable_advance h step.2
      · rw [Function.update_of_ne hep]
        exact h

/-! ### The answer -/

/-- Where a task's request gets to. -/
theorem taskEndpoint_of_lookup {j : Nat} {info : DataNodeInfo}
    (hl : registry.lookup (nodeIds.getD j 0) = some info)
    (hsent : ∀ e, (fault j).rpc ≠ .requestLost e) :
    taskEndpoint registry fault nodeIds j = some info.endpoint := by
  unfold taskEndpoint
  rw [hl]
  cases hr : (fault j).rpc with
  | none => rfl
  | requestLost e => exact absurd hr (hsent e)
  | replyLost e => rfl

/-- **What a task that was waited for returns** does not depend on the order. -/
theorem taskStatus_eq (h : Tracked config registry fault chunkId data nodeIds s) {tasks : List (Fin r)}
    {k : Fin r} (hk : k ∈ tasks) (disks : Disks) :
    taskStatus registry fault nodeIds
        (runSteps config registry fault chunkId data nodeIds (inTurnSteps tasks) s) k =
      (distributeChunkToSingleNode config registry (fault k) chunkId data (nodeIds.getD k 0) disks).1 := by
  unfold taskStatus distributeChunkToSingleNode
  cases hl : registry.lookup (nodeIds.getD k 0) with
  | none => rfl
  | some info =>
    cases hr : (fault k).rpc with
    | none =>
      have hep := taskEndpoint_of_lookup hl fun e he => by rw [hr] at he; cases he
      obtain ⟨pos, hfinal⟩ := finalPhase_status (config info.endpoint) (fault k).disk chunkId data
        (disks info.endpoint)
      simp only [stubPutChunk, hr, runSteps_final h hk hep, hfinal]
    | requestLost e => simp only [stubPutChunk, hr, e.notOk, Bool.false_eq_true, if_false]
    | replyLost e => simp only [stubPutChunk, hr, e.notOk, Bool.false_eq_true, if_false]

/-! ### One after the other -/

theorem runSteps_alone {k : Fin r} {ep : Endpoint}
    (hep : taskEndpoint registry fault nodeIds k = some ep) (n : Nat) :
    runSteps config registry fault chunkId data nodeIds (List.replicate n (k, 0)) s =
      Function.update s ep ((fun t => t.advance (config ep) (fault k).disk chunkId data k 0)^[n] (s ep)) := by
  induction n generalizing s with
  | zero => exact (Function.update_eq_self ep s).symm
  | succ n ih =>
    rw [List.replicate_succ, runSteps, List.foldl_cons]
    refine ih.trans ?_
    simp only [taskStep, hep, Function.update_self, Function.update_idem, Function.iterate_succ_apply]

theorem runSteps_nowhere {k : Fin r} (hep : taskEndpoint registry fault nodeIds k = none) (n : Nat) :
    runSteps config registry fault chunkId data nodeIds (List.replicate n (k, 0)) s = s := by
  induction n with
  | zero => rfl
  | succ n ih =>
    rw [List.replicate_succ, runSteps, List.foldl_cons, taskStep]
    simp only [hep]
    exact ih

theorem disksOf_update (s : Endpoint → ChunkWriters r) (ep : Endpoint) (t : ChunkWriters r) :
    disksOf (Function.update s ep t) = Function.update (disksOf s) ep t.disk := by
  funext ep'
  by_cases h : ep' = ep
  · subst h
    simp only [disksOf, Function.update_self]
  · simp only [disksOf, Function.update_of_ne h]

/-- **A task by itself** is `distributeChunkToSingleNode`. -/
theorem disksOf_alone {k : Fin r} (hk : ∀ ep, (s ep).handlers k = .started) :
    disksOf (runSteps config registry fault chunkId data nodeIds (List.replicate 4 (k, 0)) s) =
      (distributeChunkToSingleNode config registry (fault k) chunkId data (nodeIds.getD k 0)
        (disksOf s)).2 := by
  unfold distributeChunkToSingleNode
  cases hl : registry.lookup (nodeIds.getD k 0) with
  | none =>
    rw [runSteps_nowhere (by rw [taskEndpoint, hl])]
  | some info =>
    cases hr : (fault k).rpc with
    | requestLost e =>
      rw [runSteps_nowhere (by simp only [taskEndpoint, hl, hr])]
      simp only [stubPutChunk, hr]
      exact (Function.update_eq_self info.endpoint (disksOf s)).symm
    | none =>
      have hep := taskEndpoint_of_lookup hl fun e he => by rw [hr] at he; cases he
      rw [runSteps_alone hep, disksOf_update, ChunkWriters.iterate_alone (hk info.endpoint)]
      simp only [stubPutChunk, hr]
      rfl
    | replyLost e =>
      have hep := taskEndpoint_of_lookup hl fun e he => by rw [hr] at he; cases he
      rw [runSteps_alone hep, disksOf_update, ChunkWriters.iterate_alone (hk info.endpoint)]
      simp only [stubPutChunk, hr]
      rfl

/-- **Tasks in turn** are `runTasks`. -/
theorem disksOf_inTurn (h : Tracked config registry fault chunkId data nodeIds s) {tasks : List (Fin r)}
    (hnodup : tasks.Nodup) (hstarted : ∀ k ∈ tasks, ∀ ep, (s ep).handlers k = .started)
    (statuses : Nat → Status) :
    disksOf (runSteps config registry fault chunkId data nodeIds (inTurnSteps tasks) s) =
      (runTasks config registry fault chunkId data nodeIds (tasks.map Fin.val) statuses (disksOf s)).2 := by
  induction tasks generalizing s statuses with
  | nil => rfl
  | cons k tasks ih =>
    obtain ⟨hk, hnodup⟩ := List.nodup_cons.mp hnodup
    have hnext : Tracked config registry fault chunkId data nodeIds
        (runSteps config registry fault chunkId data nodeIds (List.replicate 4 (k, 0)) s) :=
      (runSteps_spec h _).1
    rw [inTurnSteps, List.flatMap_cons, runSteps_append, List.map_cons, runTasks]
    simp only
    rw [← disksOf_alone (hstarted k List.mem_cons_self)]
    refine ih hnext hnodup ?_ _
    intro j hj ep
    have hne : ∀ held, (j, held) ∉ List.replicate 4 (k, 0) := by
      intro held hmem
      cases List.eq_of_mem_replicate hmem
      exact hk hj
    rw [runSteps_other h hne]
    exact hstarted j (List.mem_cons_of_mem k hj) ep

/-- With all tasks through, there is nothing to wait for. -/
theorem runSteps_through (h : ∀ (k : Fin r) ep, taskEndpoint registry fault nodeIds k = some ep →
      (s ep).handlers k = finalPhase (config ep) (fault k).disk chunkId data)
    (steps : List (Fin r × Nat)) :
    runSteps config registry fault chunkId data nodeIds steps s = s := by
  induction steps with
  | nil => rfl
  | cons step steps ih =>
    have hsame : taskStep config registry fault chunkId data nodeIds s step = s := by
      unfold taskStep
      cases hep : taskEndpoint registry fault nodeIds step.1 with
      | none => rfl
      | some ep =>
        obtain ⟨pos, hfinal⟩ := finalPhase_status (config ep) (fault step.1).disk chunkId data fun _ => none
        simp only [ChunkWriters.advance_answered ((h step.1 ep hep).trans hfinal)]
        exact Function.update_eq_self ep s
    rw [runSteps, List.foldl_cons, hsame]
    exact ih

end

/-! ## The fan-out -/

section
variable (config : Endpoint → DataNodeConfig) (registry : Registry) (fault : Nat → PutFault)
  (chunkId : String) (data : Bytes) (nodeIds : List Int32)

theorem distributeChunkToSingleNode_status (fault : PutFault) (nodeId : Int32) (disks disks' : Disks) :
    (distributeChunkToSingleNode config registry fault chunkId data nodeId disks).1 =
      (distributeChunkToSingleNode config registry fault chunkId data nodeId disks').1 := by
  unfold distributeChunkToSingleNode
  cases registry.lookup nodeId with
  | none => rfl
  | some info =>
    have hput : ∀ disk : Disk,
        (stubPutChunk (config info.endpoint) fault chunkId data disk).1 =
          (stubPutChunk (config info.endpoint) fault chunkId data fun _ => none).1 := by
      intro disk
      simp only [stubPutChunk, putChunk_single]
      cases fault.rpc with
      | none =>
        cases getChunkPath chunkId (config info.endpoint) with
        | error e => rfl
        | ok path => cases fault.disk.openFails <;> rfl
      | requestLost e => rfl
      | replyLost e => rfl
    simp only
    rw [hput (disks info.endpoint), hput (disks' info.endpoint)]

theorem runTasks_status {schedule : List Nat} (hnodup : schedule.Nodup) {j : Nat} (hj : j ∈ schedule)
    (statuses : Nat → Status) (disks disks' : Disks) :
    (runTasks config registry fault chunkId data nodeIds schedule statuses disks).1 j =
      (distributeChunkToSingleNode config registry (fault j) chunkId data (nodeIds.getD j 0) disks').1 := by
  induction schedule generalizing statuses disks with
  | nil => cases hj
  | cons k schedule ih =>
    obtain ⟨hk, hnodup⟩ := List.nodup_cons.mp hnodup
    rw [runTasks]
    rcases List.mem_cons.mp hj with rfl | hj
    · rw [runTasks_notMem _ _ _ _ _ _ _ _ _ hk, Function.update_self]
      exact distributeChunkToSingleNode_status ..
    · exact ih hnodup hj _ _

/-- **The answer** is the same in every order. -/
theorem distributeInterleaved_status {schedule : List Nat} (hs : schedule.Perm (List.range nodeIds.length))
    (steps : List (Fin nodeIds.length × Nat)) (disks disks' : Disks) :
    (distributeInterleaved config registry fault chunkId data nodeIds steps disks).1 =
      (distributeChunkToNodes config registry schedule fault chunkId data nodeIds disks').1 := by
  unfold distributeInterleaved distributeChunkToNodes
  by_cases hnone : nodeIds.isEmpty = true
  · rw [if_pos hnone, if_pos hnone]
  · rw [if_neg hnone, if_neg hnone]
    simp only
    congr 1
    rw [← List.map_coe_finRange_eq_range, List.map_map]
    refine List.map_congr_left fun k hk => ?_
    rw [runSteps_append, taskStatus_eq (.run disks steps) hk disks']
    refine (runTasks_status config registry fault chunkId data nodeIds
      (hs.nodup_iff.mpr List.nodup_range) ?_ _ disks' disks').symm
    exact hs.mem_iff.mpr (List.mem_range.mpr k.isLt)

/-- **In turn** it is `distributeChunkToNodes`. -/
theorem distributeInterleaved_inTurn {schedule : List (Fin nodeIds.length)}
    (hs : schedule.Perm (List.finRange nodeIds.length)) (disks : Disks) :
    distributeInterleaved config registry fault chunkId data nodeIds (inTurnSteps schedule) disks =
      distributeChunkToNodes config registry (schedule.map Fin.val) fault chunkId data nodeIds disks := by
  have hrange : (schedule.map Fin.val).Perm (List.range nodeIds.length) := by
    rw [← List.map_coe_finRange_eq_range]
    exact hs.map Fin.val
  refine Prod.ext (distributeInterleaved_status config registry fault chunkId data nodeIds hrange _ disks disks) ?_
  unfold distributeInterleaved distributeChunkToNodes
  by_cases hnone : nodeIds.isEmpty = true
  · rw [if_pos hnone, if_pos hnone]
  · rw [if_neg hnone, if_neg hnone]
    simp only
    rw [runSteps_append, runSteps_through (fun k ep hep => ?_)]
    · exact disksOf_inTurn (.start disks) (hs.nodup_iff.mpr (List.nodup_finRange _)) (fun _ _ _ => rfl) _
    · exact runSteps_final (.start disks) (hs.mem_iff.mpr (List.mem_finRange k)) hep

variable {config registry fault chunkId data nodeIds}

/-- The positions of handlers that are through. -/
theorem positions_final {r : Nat} {s : Endpoint → ChunkWriters r}
    (h : Tracked config registry fault chunkId data nodeIds s) (ep : Endpoint) (k : Fin r) :
    (runSteps config registry fault chunkId data nodeIds (inTurnSteps (List.finRange r)) s ep).positions k =
      if taskEndpoint registry fault nodeIds k = some ep
      then (finalPhase (config ep) (fault k).disk chunkId data).written else none := by
  unfold ChunkWriters.positions
  split
  · next hep => rw [runSteps_final h (List.mem_finRange k) hep]
  · next hep =>
    rw [(runSteps_spec h _).1.other k ep hep]
    rfl

theorem written_finalPhase {config : DataNodeConfig} {fault : WriteFault} {n : Nat}
    (h : (finalPhase config fault chunkId data).written = some n) : n = (fault.kept data).length := by
  unfold finalPhase at h
  cases hpath : getChunkPath chunkId config with
  | error e =>
    rw [hpath] at h
    cases h
  | ok path =>
    rw [hpath] at h
    cases hopen : fault.openFails with
    | true =>
      rw [hopen] at h
      cases h
    | false =>
      rw [hopen] at h
      exact (Option.some.inj h).symm

/-- **Without a loss** every order does the same. -/
theorem distributeInterleaved_complete (hkept : ∀ j < nodeIds.length, (fault j).disk.kept data = data)
    (steps steps' : List (Fin nodeIds.length × Nat)) (disks : Disks) :
    distributeInterleaved config registry fault chunkId data nodeIds steps disks =
      distributeInterleaved config registry fault chunkId data nodeIds steps' disks := by
  have hs := List.Perm.refl (List.range nodeIds.length)
  refine Prod.ext ((distributeInterleaved_status config registry fault chunkId data nodeIds hs steps disks
    disks).trans (distributeInterleaved_status config registry fault chunkId data nodeIds hs steps' disks
      disks).symm) ?_
  unfold distributeInterleaved
  by_cases hnone : nodeIds.isEmpty = true
  · rw [if_pos hnone, if_pos hnone]
  · rw [if_neg hnone, if_neg hnone]
    simp only
    funext ep
    have hstart : Reachable (ChunkWriters.step (config ep) chunkId data) (ChunkWriters.Initial (disks ep))
        (fun _ _ => True) (writersAt nodeIds.length disks ep) := .init ⟨rfl, fun _ => rfl⟩
    refine ChunkWriters.disk_eq_of_positions (reachable_runSteps hstart _) (reachable_runSteps hstart _) ?_ ?_
    · funext k
      rw [runSteps_append, runSteps_append, positions_final (.run disks steps),
        positions_final (.run disks steps')]
    · intro k n hn
      rw [runSteps_append, positions_final (.run disks steps)] at hn
      split at hn
      · rw [written_finalPhase hn, hkept k k.isLt]
      · cases hn

end

end ToyDfs
