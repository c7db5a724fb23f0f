import ToyDfs.Progress

/-!
The cleanup thread, from the first `DeleteFile` to the destructor.

In a `System` a cleanup pass may begin at any time once a file was deleted.  A `Process`
is a `System` with what lets one begin: the flag `running_`, the thread that the first
`DeleteFile` starts and that sleeps a minute before each pass, and the destructor, which
clears the flag and joins the thread.  One step is one access to the flag or to the
thread, or a step of the system.

* `threadInv_of_reachable`: the thread is started once and joined once, and nobody else
  makes a pass, when the service is destroyed while no `DeleteFile` is under way (the
  server that called its handlers is gone by then).
* `refines_of_reachable`: what the process does to the system is a run of it.
-/

namespace ToyDfs

open Transition

/-! ## Data -/

/-- How far a `DeleteFile` is that has called `deletePath`. -/
inductive StarterPhase
  | deleted
  /-- `running_` was clear -/
  | sawClear
  /-- this call set `running_` -/
  | mustStart
  | done
deriving DecidableEq, Repr

/-- Where the thread is in `cleanupWorker`. -/
inductive WorkerPhase
  /-- at `while (running_.test())` -/
  | test
  /-- at the head of the `for` -/
  | counting (i : Nat)
  | sleeping (i : Nat) (wake : TimePoint)
  /-- at `if (!running_.test()) break;` -/
  | rested
  /-- at the call of `cleanupTombstones` -/
  | calling
  | passing
  | ended
deriving DecidableEq, Repr

inductive DestructorPhase
  | absent
  /-- at `if (running_.test())` -/
  | test
  | clearing
  | joining
  | destroyed
deriving DecidableEq, Repr

structure Process where
  system : System
  /-- `running_` -/
  running : Bool
  /-- `cleanup_thread_`, `none` when it is not joinable -/
  thread : Option WorkerPhase
  starters : Nat → Option StarterPhase
  destructor : DestructorPhase
  /-- was `std::terminate` called? -/
  terminated : Bool
  /-- when the thread last came to the `for` -/
  restingSince : TimePoint
  /-- for each pass, newest first: when the thread came to the `for` before it, and when
  it began -/
  passes : List (TimePoint × TimePoint)

/-- `std::chrono::seconds(1)`. -/
def second : TimePoint := 1000000000

namespace Process

def start (disks : Disks) : Process where
  system := .start disks
  running := false
  thread := none
  starters _ := none
  destructor := .absent
  terminated := false
  restingSince := 0
  passes := []

/-! ## DeleteFile -/

def setStarter (p : Process) (d : Nat) (phase : StarterPhase) : Process :=
  { p with starters := Function.update p.starters d (some phase) }

/-- A step of a handler; the thread is started by the calls that get to `deletePath`. -/
def handler (config : Endpoint → DataNodeConfig) (p : Process) (a : Action) : Option Process :=
  if p.destructor = .absent then
    match a with
    | .tick _ | .cleanupBegin | .cleanupDelete _ | .cleanupEnd => none
    | .deletePath d now =>
      (p.system.deletePath d now).map fun s => { p with system := s }.setStarter d .deleted
    | a => (p.system.step config a).map fun s => { p with system := s }
  else none

/-- `if (!running_.test())`. -/
def starterTest (p : Process) (d : Nat) : Option Process :=
  match p.starters d with
  | some .deleted => some (p.setStarter d (if p.running then .done else .sawClear))
  | _ => none

/-- `if (!running_.test_and_set())`. -/
def starterSet (p : Process) (d : Nat) : Option Process :=
  match p.starters d with
  | some .sawClear =>
    if p.running then some (p.setStarter d .done)
    else some ({ p with running := true }.setStarter d .mustStart)
  | _ => none

/-- `cleanup_thread_ = std::thread(...)`; assigning to a joinable thread terminates. -/
def starterStart (p : Process) (d : Nat) : Option Process :=
  match p.starters d with
  | some .mustStart =>
    match p.thread with
    | some _ => some ({ p with terminated := true }.setStarter d .done)
    | none => some ({ p with thread := some .test }.setStarter d .done)
  | _ => none

/-! ## cleanupWorker -/

def workerTest (p : Process) : Option Process :=
  match p.thread with
  | some .test =>
    if p.running then some { p with thread := some (.counting 0), restingSince := p.system.clock }
    else some { p with thread := some .ended }
  | _ => none

/-- `i < 60 && running_.test()`. -/
def workerCount (p : Process) : Option Process :=
  match p.thread with
  | some (.counting i) =>
    if i < 60 && p.running then some { p with thread := some (.sleeping i (p.system.clock + second)) }
    else some { p with thread := some .rested }
  | _ => none

def workerWake (p : Process) : Option Process :=
  match p.thread with
  | some (.sleeping i wake) =>
    if wake ≤ p.system.clock then some { p with thread := some (.counting (i + 1)) } else none
  | _ => none

def workerRested (p : Process) : Option Process :=
  match p.thread with
  | some .rested =>
    if p.running then some { p with thread := some .calling } else some { p with thread := some .ended }
  | _ => none

/-- The steps of `cleanupTombstones`. -/
def workerBegin (p : Process) : Option Process :=
  match p.thread with
  | some .calling =>
    p.system.cleanupBegin.map fun s => { p with
      system := s
      thread := some .passing
      passes := (p.restingSince, p.system.clock) :: p.passes }
  | _ => none

def workerDelete (config : Endpoint → DataNodeConfig) (p : Process) (fault : DeleteFault) :
    Option Process :=
  match p.thread with
  | some .passing => (p.system.cleanupDelete config fault).map fun s => { p with system := s }
  | _ => none

def workerEnd (p : Process) : Option Process :=
  match p.thread with
  | some .passing => p.system.cleanupEnd.map fun s => { p with system := s, thread := some .test }
  | _ => none

/-! ## The destructor -/

/-- The members are destroyed; a joinable thread terminates. -/
def destroyed (p : Process) : Process :=
  { p with destructor := .destroyed, terminated := p.terminated || p.thread.isSome }

def destructorStart (p : Process) : Option Process :=
  if p.destructor = .absent then some { p with destructor := .test } else none

def destructorTest (p : Process) : Option Process :=
  if p.destructor = .test then
    if p.running then some { p with destructor := .clearing } else some p.destroyed
  else none

/-- `running_.clear()` and `joinable()`; only a call that starts the thread assigns it. -/
def destructorClear (p : Process) : Option Process :=
  if p.destructor = .clearing then
    match p.thread with
    | some _ => some { p with running := false, destructor := .joining }
    | none => some { p with running := false }.destroyed
  else none

def destructorJoin (p : Process) : Option Process :=
  if p.destructor = .joining then
    match p.thread with
    | some .ended => some { p with thread := none }.destroyed
    | _ => none
  else none

end Process

/-! ## Steps -/

inductive ProcessAction
  | tick (d : Nat)
  | handler (a : Action)
  | starterTest (d : Nat)
  | starterSet (d : Nat)
  | starterStart (d : Nat)
  | workerTest
  | workerCount
  | workerWake
  | workerRested
  | workerBegin
  | workerDelete (fault : DeleteFault)
  | workerEnd
  | destructorStart
  | destructorTest
  | destructorClear
  | destructorJoin

def Process.step (config : Endpoint → DataNodeConfig) (p : Process) : ProcessAction → Option Process
  | .tick d => some { p with system := { p.system with clock := p.system.clock + d } }
  | .handler a => p.handler config a
  | .starterTest d => p.starterTest d
  | .starterSet d => p.starterSet d
  | .starterStart d => p.starterStart d
  | .workerTest => p.workerTest
  | .workerCount => p.workerCount
  | .workerWake => p.workerWake
  | .workerRested => p.workerRested
  | .workerBegin => p.workerBegin
  | .workerDelete fault => p.workerDelete config fault
  | .workerEnd => p.workerEnd
  | .destructorStart => p.destructorStart
  | .destructorTest => p.destructorTest
  | .destructorClear => p.destructorClear
  | .destructorJoin => p.destructorJoin

/-- No `DeleteFile` is starting the thread. -/
def Process.Settled (p : Process) : Prop := ∀ d, p.starters d = none ∨ p.starters d = some .done

def ProcessAction.isDestructorStart : ProcessAction → Bool
  | .destructorStart => true
  | _ => false

/-- The service is destroyed when no `DeleteFile` is under way. -/
def Orderly (p : Process) (a : ProcessAction) : Prop := a.isDestructorStart = true → p.Settled

def Constructed (p : Process) : Prop := ∃ disks, p = .start disks

/-- What the thread does by itself between two passes. -/
inductive WorkerMove (running : Bool) (clock : TimePoint) : WorkerPhase → WorkerPhase → Prop
  | left (h : running = false) : WorkerMove running clock .test .ended
  | sleeps (i : Nat) (hi : i < 60) (h : running = true) :
    WorkerMove running clock (.counting i) (.sleeping i (clock + second))
  | counted (i : Nat) (h : 60 ≤ i ∨ running = false) : WorkerMove running clock (.counting i) .rested
  | wakes (i : Nat) (wake : TimePoint) (h : wake ≤ clock) :
    WorkerMove running clock (.sleeping i wake) (.counting (i + 1))
  | calls (h : running = true) : WorkerMove running clock .rested .calling
  | breaks (h : running = false) : WorkerMove running clock .rested .ended

/-- One step, by what it changes. -/
inductive ProcessMove (config : Endpoint → DataNodeConfig) (p : Process) : ProcessAction → Process → Prop
  | tick (d : Nat) :
    ProcessMove config p (.tick d) { p with system := { p.system with clock := p.system.clock + d } }
  | handled (a : Action) (s : System) (hopen : p.destructor = .absent)
    (hs : p.system.step config a = some s) (hpass : a.call? ≠ some .pass)
    (hdel : ∀ d now, a ≠ .deletePath d now) : ProcessMove config p (.handler a) { p with system := s }
  | deleted (d : Nat) (now : TimePoint) (s : System) (hopen : p.destructor = .absent)
    (hs : p.system.deletePath d now = some s) :
    ProcessMove config p (.handler (.deletePath d now)) ({ p with system := s }.setStarter d .deleted)
  | tested {a : ProcessAction} (d : Nat) (old phase : StarterPhase) (hold : p.starters d = some old)
    (hactive : old ≠ .done) (hnot : old ≠ .mustStart) (hphase : phase ≠ .mustStart)
    (hdone : phase = .done → p.running = true) (ha : a = .starterTest d ∨ a = .starterSet d) :
    ProcessMove config p a (p.setStarter d phase)
  | set (d : Nat) (hold : p.starters d = some .sawClear) (hflag : p.running = false) :
    ProcessMove config p (.starterSet d) ({ p with running := true }.setStarter d .mustStart)
  | started (d : Nat) (hold : p.starters d = some .mustStart) (hthread : p.thread = none) :
    ProcessMove config p (.starterStart d) ({ p with thread := some .test }.setStarter d .done)
  | overwritten (d : Nat) (w : WorkerPhase) (hold : p.starters d = some .mustStart)
    (hthread : p.thread = some w) :
    ProcessMove config p (.starterStart d) ({ p with terminated := true }.setStarter d .done)
  | rests (hthread : p.thread = some .test) (hflag : p.running = true) :
    ProcessMove config p .workerTest
      { p with thread := some (.counting 0), restingSince := p.system.clock }
  | worked {a : ProcessAction} (w w' : WorkerPhase) (hthread : p.thread = some w)
    (hmove : WorkerMove p.running p.system.clock w w') :
    ProcessMove config p a { p with thread := some w' }
  | begun (s : System) (hthread : p.thread = some .calling) (hs : p.system.cleanupBegin = some s) :
    ProcessMove config p .workerBegin { p with
      system := s
      thread := some .passing
      passes := (p.restingSince, p.system.clock) :: p.passes }
  | deletes (fault : DeleteFault) (s : System) (hthread : p.thread = some .passing)
    (hs : p.system.cleanupDelete config fault = some s) :
    ProcessMove config p (.workerDelete fault) { p with system := s }
  | passed (s : System) (hthread : p.thread = some .passing) (hs : p.system.cleanupEnd = some s) :
    ProcessMove config p .workerEnd { p with system := s, thread := some .test }
  | destroys (hat : p.destructor = .absent) :
    ProcessMove config p .destructorStart { p with destructor := .test }
  | clears (hat : p.destructor = .test) (hflag : p.running = true) :
    ProcessMove config p .destructorTest { p with destructor := .clearing }
  | neverStarted (hat : p.destructor = .test) (hflag : p.running = false) :
    ProcessMove config p .destructorTest p.destroyed
  | cleared (w : WorkerPhase) (hat : p.destructor = .clearing) (hthread : p.thread = some w) :
    ProcessMove config p .destructorClear { p with running := false, destructor := .joining }
  | notJoinable (hat : p.destructor = .clearing) (hthread : p.thread = none) :
    ProcessMove config p .destructorClear { p with running := false }.destroyed
  | joined (hat : p.destructor = .joining) (hthread : p.thread = some .ended) :
    ProcessMove config p .destructorJoin { p with thread := none }.destroyed

section
variable {config : Endpoint → DataNodeConfig} {p q : Process}

theorem handler_move {a : Action} (hq : p.handler config a = some q) :
    ProcessMove config p (.handler a) q := by
  unfold Process.handler at hq
  split at hq
  · next hopen =>
    cases a with
    | tick d | cleanupBegin | cleanupDelete fault | cleanupEnd => cases hq
    | deletePath d now =>
      obtain ⟨s, hs, rfl⟩ := Option.map_eq_some_iff.mp hq
      exact .deleted d now s hopen hs
    | _ =>
      obtain ⟨s, hs, rfl⟩ := Option.map_eq_some_iff.mp hq
      exact .handled _ s hopen hs nofun nofun
  · cases hq

theorem starter_move {a : ProcessAction} {d : Nat}
    (ha : a = .starterTest d ∨ a = .starterSet d ∨ a = .starterStart d) (hq : p.step config a = some q) :
    ProcessMove config p a q := by
  rcases ha with rfl | rfl | rfl
  · simp only [Process.step, Process.starterTest] at hq
    split at hq
    · next hold =>
      cases hq
      cases hflag : p.running with
      | true => exact .tested d .deleted .done hold nofun nofun nofun (fun _ => hflag) (.inl rfl)
      | false => exact .tested d .deleted .sawClear hold nofun nofun nofun nofun (.inl rfl)
    · cases hq
  · simp only [Process.step, Process.starterSet] at hq
    split at hq
    · next hold =>
      split at hq
      · next hflag =>
        cases hq
        exact .tested d .sawClear .done hold nofun nofun nofun (fun _ => hflag) (.inr rfl)
      · next hflag =>
        cases hq
        exact .set d hold (Bool.eq_false_iff.mpr hflag)
    · cases hq
  · simp only [Process.step, Process.starterStart] at hq
    split at hq
    · next hold =>
      split at hq
      · next w hthread =>
        cases hq
        exact .overwritten d w hold hthread
      · next hthread =>
        cases hq
        exact .started d hold hthread
    · cases hq

theorem destructor_move {a : ProcessAction}
    (ha : a = .destructorStart ∨ a = .destructorTest ∨ a = .destructorClear ∨ a = .destructorJoin)
    (hq : p.step config a = some q) : ProcessMove config p a q := by
  rcases ha with rfl | rfl | rfl | rfl
  · simp only [Process.step, Process.destructorStart] at hq
    split at hq
    · next hat =>
      cases hq
      exact .destroys hat
    · cases hq
  · simp only [Process.step, Process.destructorTest] at hq
    split at hq
    · next hat =>
      split at hq
      · next hflag =>
        cases hq
        exact .clears hat hflag
      · next hflag =>
        cases hq
        exact .neverStarted hat (Bool.eq_false_iff.mpr hflag)
    · cases hq
  · simp only [Process.step, Process.destructorClear] at hq
    split at hq
    · next hat =>
      split at hq
      · next w hthread =>
        cases hq
        exact .cleared w hat hthread
      · next hthread =>
        cases hq
        exact .notJoinable hat hthread
    · cases hq
  · simp only [Process.step, Process.destructorJoin] at hq
    split at hq
    · next hat =>
      split at hq
      · next hthread =>
        cases hq
        exact .joined hat hthread
      · cases hq
    · cases hq

theorem process_move {a : ProcessAction} (hq : p.step config a = some q) : ProcessMove config p a q := by
  cases a with
  | tick d => cases hq; exact .tick d
  | handler a => exact handler_move hq
  | starterTest d => exact starter_move (.inl rfl) hq
  | starterSet d => exact starter_move (.inr (.inl rfl)) hq
  | starterStart d => exact starter_move (.inr (.inr rfl)) hq
  | workerTest =>
    simp only [Process.step, Process.workerTest] at hq
    split at hq
    · next hthread =>
      split at hq
      · next hflag => cases hq; exact .rests hthread hflag
      · next hflag => cases hq; exact .worked _ _ hthread (.left (Bool.eq_false_iff.mpr hflag))
    · cases hq
  | workerCount =>
    simp only [Process.step, Process.workerCount] at hq
    split at hq
    · next i hthread =>
      split at hq
      · next hgo =>
        cases hq
        rw [Bool.and_eq_true, decide_eq_true_eq] at hgo
        exact .worked _ _ hthread (.sleeps i hgo.1 hgo.2)
      · next hstop =>
        cases hq
        refine .worked _ _ hthread (.counted i ?_)
        rw [Bool.and_eq_true, decide_eq_true_eq] at hstop
        rcases Nat.lt_or_ge i 60 with hi | hi
        · exact .inr (Bool.eq_false_iff.mpr fun hflag => hstop ⟨hi, hflag⟩)
        · exact .inl hi
    · cases hq
  | workerWake =>
    simp only [Process.step, Process.workerWake] at hq
    split at hq
    · next i wake hthread =>
      split at hq
      · next hwake => cases hq; exact .worked _ _ hthread (.wakes i wake hwake)
      · cases hq
    · cases hq
  | workerRested =>
    simp only [Process.step, Process.workerRested] at hq
    split at hq
    · next hthread =>
      split at hq
      · next hflag => cases hq; exact .worked _ _ hthread (.calls hflag)
      · next hflag => cases hq; exact .worked _ _ hthread (.breaks (Bool.eq_false_iff.mpr hflag))
    · cases hq
  | workerBegin =>
    simp only [Process.step, Process.workerBegin] at hq
    split at hq
    · next hthread =>
      obtain ⟨s, hs, rfl⟩ := Option.map_eq_some_iff.mp hq
      exact .begun s hthread hs
    · cases hq
  | workerDelete fault =>
    simp only [Process.step, Process.workerDelete] at hq
    split at hq
    · next hthread =>
      obtain ⟨s, hs, rfl⟩ := Option.map_eq_some_iff.mp hq
      exact .deletes fault s hthread hs
    · cases hq
  | workerEnd =>
    simp only [Process.step, Process.workerEnd] at hq
    split at hq
    · next hthread =>
      obtain ⟨s, hs, rfl⟩ := Option.map_eq_some_iff.mp hq
      exact .passed s hthread hs
    · cases hq
  | destructorStart => exact destructor_move (.inl rfl) hq
  | destructorTest => exact destructor_move (.inr (.inl rfl)) hq
  | destructorClear => exact destructor_move (.inr (.inr (.inl rfl))) hq
  | destructorJoin => exact destructor_move (.inr (.inr (.inr rfl))) hq

end

/-! ## The flag and the thread -/

/-- The thread is there once, after the flag was set and until it is joined. -/
inductive InMode (p : Process) : Prop
  | idle (hflag : p.running = false) (hthread : p.thread = none)
    (hstarters : ∀ d, p.starters d ≠ some .mustStart ∧ p.starters d ≠ some .done)
    (hdestructor : p.destructor = .absent ∨ p.destructor = .test ∧ p.Settled)
  | starting (d : Nat) (hflag : p.running = true) (hthread : p.thread = none)
    (hstart : p.starters d = some .mustStart) (hothers : ∀ e, p.starters e = some .mustStart → e = d)
    (hdestructor : p.destructor = .absent)
  | working (w : WorkerPhase) (hflag : p.running = true) (hthread : p.thread = some w) (hw : w ≠ .ended)
    (hstarters : ∀ d, p.starters d ≠ some .mustStart)
    (hdestructor : p.destructor = .absent ∨
      (p.destructor = .test ∨ p.destructor = .clearing) ∧ p.Settled)
  | stopping (w : WorkerPhase) (hflag : p.running = false) (hthread : p.thread = some w)
    (hdestructor : p.destructor = .joining) (hsettled : p.Settled)
  | gone (hflag : p.running = false) (hthread : p.thread = none)
    (hdestructor : p.destructor = .destroyed) (hsettled : p.Settled)

section
variable {config : Endpoint → DataNodeConfig} {p q : Process}

theorem setStarter_starters_self (d : Nat) (phase : StarterPhase) :
    (p.setStarter d phase).starters d = some phase := Function.update_self ..

theorem setStarter_starters_ne {d e : Nat} (phase : StarterPhase) (h : e ≠ d) :
    (p.setStarter d phase).starters e = p.starters e := Function.update_of_ne h ..

/-- A call that has its way before it. -/
theorem Process.Settled.not_active {d : Nat} {old : StarterPhase} (h : p.Settled)
    (hold : p.starters d = some old) : old = .done := by
  rcases h d with hd | hd
  · cases hold.symm.trans hd
  · exact Option.some.inj (hold.symm.trans hd)

theorem inMode_start (disks : Disks) : InMode (.start disks) :=
  .idle rfl rfl (fun _ => ⟨nofun, nofun⟩) (.inl rfl)

/-- Steps that leave flag, thread and starters alone. -/
theorem InMode.frame (h : InMode p) (hrunning : q.running = p.running) (hthread : q.thread = p.thread)
    (hstarters : q.starters = p.starters) (hdestructor : q.destructor = p.destructor) : InMode q := by
  cases h with
  | idle hf ht hs hd =>
    refine .idle (hrunning.trans hf) (hthread.trans ht) (hstarters ▸ hs) ?_
    rw [Process.Settled, hdestructor, hstarters]
    exact hd
  | starting d hf ht hs ho hd =>
    exact .starting d (hrunning.trans hf) (hthread.trans ht) (hstarters ▸ hs) (hstarters ▸ ho)
      (hdestructor.trans hd)
  | working w hf ht hw hs hd =>
    refine .working w (hrunning.trans hf) (hthread.trans ht) hw (hstarters ▸ hs) ?_
    rw [Process.Settled, hdestructor, hstarters]
    exact hd
  | stopping w hf ht hd hs =>
    refine .stopping w (hrunning.trans hf) (hthread.trans ht) (hdestructor.trans hd) ?_
    rw [Process.Settled, hstarters]
    exact hs
  | gone hf ht hd hs =>
    refine .gone (hrunning.trans hf) (hthread.trans ht) (hdestructor.trans hd) ?_
    rw [Process.Settled, hstarters]
    exact hs

/-- Steps of the thread. -/
theorem InMode.worker (h : InMode p) {w w' : WorkerPhase} (hw : p.thread = some w) 
    (hended : p.running = true → w' ≠ .ended) (hrunning : q.running = p.running)
    (hthread : q.thread = some w') (hstarters : q.starters = p.starters)
    (hdestructor : q.destructor = p.destructor) : InMode q := by
  cases h with
  | idle hf ht hs hd => cases hw.symm.trans ht
  | starting d hf ht hs ho hd => cases hw.symm.trans ht
  | working w hf ht hw hs hd =>
    refine .working w' (hrunning.trans hf) hthread (hended hf) (hstarters ▸ hs) ?_
    rw [Process.Settled, hdestructor, hstarters]
    exact hd
  | stopping w hf ht hd hs =>
    refine .stopping w' (hrunning.trans hf) hthread (hdestructor.trans hd) ?_
    rw [Process.Settled, hstarters]
    exact hs
  | gone hf ht hd hs => cases hw.symm.trans ht

/-- While a call may start the thread, the service stands. -/
theorem InMode.absent (h : InMode p) {d : Nat} {old : StarterPhase} (hold : p.starters d = some old)
    (hactive : old ≠ .done) : p.destructor = .absent := by
  have hunsettled : ¬ p.Settled := fun hs => hactive (hs.not_active hold)
  cases h with
  | idle hf ht hs hd => exact hd.resolve_right fun hd => hunsettled hd.2
  | starting d hf ht hs ho hd => exact hd
  | working w hf ht hw hs hd => exact hd.resolve_right fun hd => hunsettled hd.2
  | stopping w hf ht hd hs => exact absurd hs hunsettled
  | gone hf ht hd hs => exact absurd hs hunsettled

/-- A call goes on to `phase`, which is not `mustStart`. -/
theorem InMode.starter (h : InMode p) {d : Nat} {phase : StarterPhase} (hopen : p.destructor = .absent)
    (hnot : p.starters d ≠ some .mustStart) (hphase : phase ≠ .mustStart)
    (hdone : phase = .done → p.running = true) : InMode (p.setStarter d phase) := by
  have hother : ∀ e, (p.setStarter d phase).starters e = some .mustStart →
      p.starters e = some .mustStart := by
    intro e he
    by_cases hed : e = d
    · rw [hed, setStarter_starters_self] at he
      cases he
      exact absurd rfl hphase
    · rwa [setStarter_starters_ne phase hed] at he
  cases h with
  | idle hf ht hs hd =>
    refine .idle hf ht (fun e => ⟨fun he => (hs e).1 (hother e he), fun he => ?_⟩) (.inl hopen)
    by_cases hed : e = d
    · rw [hed, setStarter_starters_self] at he
      cases he
      exact absurd (hdone rfl) (Bool.eq_false_iff.mp hf)
    · rw [setStarter_starters_ne phase hed] at he
      exact (hs e).2 he
  | starting e hf ht hs ho hd =>
    have hed : e ≠ d := fun he => hnot (he ▸ hs)
    exact .starting e hf ht ((setStarter_starters_ne phase hed).trans hs)
      (fun i hi => ho i (hother i hi)) hd
  | working w hf ht hw hs hd =>
    exact .working w hf ht hw (fun e he => hs e (hother e he)) (.inl hopen)
  | stopping w hf ht hd hs => cases hopen.symm.trans hd
  | gone hf ht hd hs => cases hopen.symm.trans hd

/-- The call that finds the flag clear will start the thread. -/
theorem InMode.set (h : InMode p) {d : Nat} (hold : p.starters d = some .sawClear)
    (hflag : p.running = false) : InMode ({ p with running := true }.setStarter d .mustStart) := by
  have hopen : p.destructor = .absent := h.absent hold nofun
  cases h with
  | idle hf ht hs hd =>
    refine .starting d rfl ht (setStarter_starters_self ..) (fun e he => ?_) hopen
    refine Classical.not_not.mp fun hed => (hs e).1 ?_
    rwa [setStarter_starters_ne .mustStart hed] at he
  | starting e hf => cases hflag.symm.trans hf
  | working w hf => cases hflag.symm.trans hf
  | stopping w hf ht hd hs => cases hopen.symm.trans hd
  | gone hf ht hd hs => cases hopen.symm.trans hd

/-- There is no thread yet, and no other call will start one. -/
theorem InMode.start (h : InMode p) {d : Nat} (hold : p.starters d = some .mustStart) :
    p.thread = none ∧ InMode ({ p with thread := some .test }.setStarter d .done) := by
  have hopen : p.destructor = .absent := h.absent hold nofun
  cases h with
  | idle hf ht hs hd => exact absurd hold (hs d).1
  | starting e hf ht hs ho hd =>
    refine ⟨ht, .working .test hf rfl nofun (fun i hi => ?_) (.inl hd)⟩
    by_cases hid : i = d
    · rw [hid, setStarter_starters_self] at hi
      cases hi
    · rw [setStarter_starters_ne .done hid] at hi
      exact hid ((ho i hi).trans (ho d hold).symm)
  | working w hf ht hw hs hd => exact absurd hold (hs d)
  | stopping w hf ht hd hs => cases hopen.symm.trans hd
  | gone hf ht hd hs => cases hopen.symm.trans hd

/-- The destructor goes on before it joins. -/
theorem InMode.destroys (h : InMode p) (hat : p.destructor = .absent) (hs : p.Settled) :
    InMode { p with destructor := .test } := by
  cases h with
  | idle hf ht hst hd => exact .idle hf ht hst (.inr ⟨rfl, hs⟩)
  | starting d hf ht hst ho hd => cases hs.not_active hst
  | working w hf ht hw hst hd => exact .working w hf ht hw hst (.inr ⟨.inl rfl, hs⟩)
  | stopping w hf ht hd => cases hat.symm.trans hd
  | gone hf ht hd => cases hat.symm.trans hd

theorem InMode.clears (h : InMode p) (hat : p.destructor = .test) (hflag : p.running = true) :
    InMode { p with destructor := .clearing } := by
  cases h with
  | idle hf => cases hf.symm.trans hflag
  | starting d hf ht hs ho hd => cases hat.symm.trans hd
  | working w hf ht hw hs hd =>
    rcases hd with hd | ⟨-, hsettled⟩
    · cases hat.symm.trans hd
    · exact .working w hf ht hw hs (.inr ⟨.inr rfl, hsettled⟩)
  | stopping w hf => cases hf.symm.trans hflag
  | gone hf => cases hf.symm.trans hflag

/-- No thread was started. -/
theorem InMode.neverStarted (h : InMode p) (hat : p.destructor = .test) (hflag : p.running = false) :
    p.thread = none ∧ InMode p.destroyed := by
  cases h with
  | idle hf ht hs hd =>
    rcases hd with hd | ⟨-, hsettled⟩
    · cases hat.symm.trans hd
    · exact ⟨ht, .gone hf ht rfl hsettled⟩
  | starting d hf => cases hflag.symm.trans hf
  | working w hf => cases hflag.symm.trans hf
  | stopping w hf ht hd => cases hat.symm.trans hd
  | gone hf ht hd => cases hat.symm.trans hd

/-- The thread is there to be joined. -/
theorem InMode.cleared (h : InMode p) (hat : p.destructor = .clearing) :
    ∃ w, p.thread = some w ∧ InMode { p with running := false, destructor := .joining } := by
  cases h with
  | idle hf ht hs hd =>
    rcases hd with hd | ⟨hd, -⟩
    · cases hat.symm.trans hd
    · cases hat.symm.trans hd
  | starting d hf ht hs ho hd => cases hat.symm.trans hd
  | working w hf ht hw hs hd =>
    rcases hd with hd | ⟨-, hsettled⟩
    · cases hat.symm.trans hd
    · exact ⟨w, ht, .stopping w rfl ht rfl hsettled⟩
  | stopping w hf ht hd => cases hat.symm.trans hd
  | gone hf ht hd => cases hat.symm.trans hd

theorem InMode.joined (h : InMode p) (hat : p.destructor = .joining) :
    InMode { p with thread := none }.destroyed := by
  cases h with
  | idle hf ht hs hd =>
    rcases hd with hd | ⟨hd, -⟩
    · cases hat.symm.trans hd
    · cases hat.symm.trans hd
  | starting d hf ht hs ho hd => cases hat.symm.trans hd
  | working w hf ht hw hs hd =>
    rcases hd with hd | ⟨hd | hd, -⟩
    · cases hat.symm.trans hd
    · cases hat.symm.trans hd
    · cases hat.symm.trans hd
  | stopping w hf ht hd hs => exact .gone hf rfl rfl hs
  | gone hf ht hd => cases hat.symm.trans hd

end

/-! ## The thread and the system -/

section
variable {config : Endpoint → DataNodeConfig} {s t : System} {p q : Process}

/-- Handlers leave the pass alone. -/
theorem pass_of_step {a : Action} (ht : s.step config a = some t) (ha : a.call? ≠ some .pass) :
    t.pass = s.pass := by
  cases step_move ht with
  | cleanupBegun | chunkDeleted | cleanupEnded => exact absurd rfl ha
  | _ => rfl

/-- Once set, the flag stays. -/
theorem running_of_step {a : Action} (ht : s.step config a = some t) (h : s.running = true) :
    t.running = true := by
  cases step_move ht with
  | pathDeleted => rfl
  | _ => exact h

theorem clock_le_of_step {a : Action} (ht : s.step config a = some t) : s.clock ≤ t.clock := by
  cases step_move ht with
  | tick d => exact Int.le_add_of_nonneg_right (Int.natCast_nonneg d)
  | pathDeleted d path now hdel hpass hnow => exact hnow
  | _ => exact Int.le_refl _

/-- The thread and the passes of the system. -/
structure ThreadInv (p : Process) : Prop where
  mode : InMode p
  terminated : p.terminated = false
  pass : p.system.pass.isSome ↔ p.thread = some .passing
  starters : ∀ d, p.starters d ≠ none →
    p.system.running = true ∧ (p.system.deletes d).isSome ∧ p.system.deleteSteps d = 0
  thread : p.thread ≠ none → p.system.running = true

theorem threadInv_start (disks : Disks) : ThreadInv (.start disks) where
  mode := inMode_start disks
  terminated := rfl
  pass := ⟨nofun, nofun⟩
  starters := fun _ h => absurd rfl h
  thread := fun h => absurd rfl h

/-- A handler that is not at `deletePath`. -/
theorem ThreadInv.handled (h : ThreadInv p) {a : Action} (hs : p.system.step config a = some s)
    (hpass : a.call? ≠ some .pass) : ThreadInv { p with system := s } where
  mode := h.mode.frame rfl rfl rfl rfl
  terminated := h.terminated
  pass := by rw [pass_of_step hs hpass]; exact h.pass
  starters := by
    intro d hd
    obtain ⟨hrun, hsome, hzero⟩ := h.starters d hd
    obtain ⟨hsome', -, hle⟩ := deleteSteps_step hs hsome
    exact ⟨running_of_step hs hrun, hsome', Nat.eq_zero_of_le_zero (hzero ▸ hle)⟩
  thread := fun hthread => running_of_step hs (h.thread hthread)

/-- This call has not been at `deletePath` before. -/
theorem ThreadInv.deleted (h : ThreadInv p) {d : Nat} {now : TimePoint} (hopen : p.destructor = .absent)
    (hs : p.system.step config (.deletePath d now) = some s) :
    ThreadInv ({ p with system := s }.setStarter d .deleted) := by
  obtain ⟨path, hdel, hrun⟩ : ∃ path, p.system.deletes d = some ⟨path, .checked⟩ ∧ s.running = true := by
    simp only [System.step, System.deletePath] at hs
    split at hs
    · next path hdel hpass =>
      split at hs
      · cases hs
        exact ⟨path, hdel, rfl⟩
      · cases hs
    · cases hs
  have hstands : (p.system.deletes d).isSome := by rw [hdel]; rfl
  obtain ⟨hsome, hlt, -⟩ := deleteSteps_step hs hstands
  have hone : p.system.deleteSteps d = 1 := deleteSteps_eq hdel
  have hzero : s.deleteSteps d = 0 := Nat.lt_one_iff.mp (hone ▸ hlt rfl)
  have hnew : p.starters d = none := by
    refine Classical.not_not.mp fun hd => ?_
    exact absurd (hone.symm.trans (h.starters d hd).2.2) Nat.one_ne_zero
  refine ⟨?_, h.terminated, ?_, ?_, fun _ => hrun⟩
  · have hmode : InMode { p with system := s } := h.mode.frame rfl rfl rfl rfl
    exact hmode.starter hopen (by rw [hnew]; decide) (by decide) (fun hdone => absurd hdone (by decide))
  · have hpass : (Action.deletePath d now).call? ≠ some .pass := fun he => by cases he
    rw [Process.setStarter, pass_of_step hs hpass]
    exact h.pass
  · intro e he
    by_cases hed : e = d
    · rw [hed]
      exact ⟨hrun, hsome, hzero⟩
    · rw [setStarter_starters_ne .deleted hed] at he
      obtain ⟨-, hsome, hzero⟩ := h.starters e he
      obtain ⟨hsome', -, hle⟩ := deleteSteps_step hs hsome
      exact ⟨hrun, hsome', Nat.eq_zero_of_le_zero (hzero ▸ hle)⟩

/-- A step of the thread that leaves the pass alone. -/
theorem ThreadInv.worker (h : ThreadInv p) {w w' : WorkerPhase} {passes : List (TimePoint × TimePoint)}
    {since : TimePoint} (hthread : p.thread = some w) (hw : w ≠ .passing) (hw' : w' ≠ .passing)
    (hended : p.running = true → w' ≠ .ended) :
    ThreadInv { p with thread := some w', restingSince := since, passes := passes } where
  mode := h.mode.worker hthread hended rfl rfl rfl rfl
  terminated := h.terminated
  pass := by
    have hnot : p.thread ≠ some .passing := fun he => hw (Option.some.inj (hthread.symm.trans he))
    exact ⟨fun hsome => absurd (h.pass.mp hsome) hnot, fun he => absurd (Option.some.inj he) hw'⟩
  starters := h.starters
  thread := fun _ => h.thread (by rw [hthread]; exact Option.some_ne_none w)

/-- The calls that start the thread have run `deletePath`. -/
theorem ThreadInv.starter (h : ThreadInv p) {d : Nat} {phase : StarterPhase} {thread : Option WorkerPhase}
    {running : Bool} (hold : p.starters d ≠ none)
    (hmode : InMode ({ p with thread := thread, running := running }.setStarter d phase))
    (hthread : thread = some .passing ↔ p.thread = some .passing) :
    ThreadInv ({ p with thread := thread, running := running }.setStarter d phase) where
  mode := hmode
  terminated := h.terminated
  pass := h.pass.trans hthread.symm
  starters := by
    intro e he
    by_cases hed : e = d
    · rw [hed]
      exact h.starters d hold
    · rw [setStarter_starters_ne phase hed] at he
      exact h.starters e he
  thread := fun _ => (h.starters d hold).1

theorem passing_ne_of_worked {running : Bool} {clock : TimePoint} {w w' : WorkerPhase}
    (hm : WorkerMove running clock w w') :
    w ≠ .passing ∧ w' ≠ .passing ∧ (running = true → w' ≠ .ended) := by
  cases hm with
  | left hflag | breaks hflag => exact ⟨nofun, nofun, fun h => absurd h (Bool.eq_false_iff.mp hflag)⟩
  | sleeps | counted | wakes | calls => exact ⟨nofun, nofun, fun _ => nofun⟩

theorem threadInv_step {a : ProcessAction} (hm : ProcessMove config p a q) (hok : Orderly p a)
    (h : ThreadInv p) : ThreadInv q := by
  have hhas : ∀ d old, p.starters d = some old → p.starters d ≠ none := by
    intro d old hold
    rw [hold]
    exact Option.some_ne_none old
  cases hm with
  | tick d => exact ⟨h.mode.frame rfl rfl rfl rfl, h.terminated, h.pass, h.starters, h.thread⟩
  | handled a s hopen hs hpass hdel => exact h.handled hs hpass
  | deleted d now s hopen hs =>
    have hs : p.system.step config (.deletePath d now) = some s := hs
    exact h.deleted hopen hs
  | tested d old phase hold hactive hnot hphase hdone =>
    refine h.starter (hhas d old hold) (h.mode.starter (h.mode.absent hold hactive) ?_ hphase hdone) Iff.rfl
    exact fun he => hnot (Option.some.inj (hold.symm.trans he))
  | set d hold hflag => exact h.starter (hhas d _ hold) (h.mode.set hold hflag) Iff.rfl
  | started d hold hthread =>
    refine h.starter (hhas d _ hold) (h.mode.start hold).2 ?_
    rw [hthread]
    decide
  | overwritten d w hold hthread => cases (h.mode.start hold).1.symm.trans hthread
  | rests hthread hflag => exact h.worker hthread (by decide) (by decide) fun _ => by decide
  | worked w w' hthread hmove =>
    obtain ⟨hw, hw', hended⟩ := passing_ne_of_worked hmove
    exact h.worker hthread hw hw' hended
  | begun s hthread hs =>
    simp only [System.cleanupBegin] at hs
    split at hs
    · cases hs
    · next hpass =>
      split at hs
      · next hrun =>
        cases hs
        have hpassing : WorkerPhase.passing ≠ .ended := by decide
        exact ⟨h.mode.worker hthread (fun _ => hpassing) rfl rfl rfl rfl, h.terminated,
          ⟨fun _ => rfl, fun _ => rfl⟩, h.starters, fun _ => hrun⟩
      · cases hs
  | deletes fault s hthread hs =>
    simp only [System.cleanupDelete] at hs
    split at hs
    · cases hs
      exact ⟨h.mode.frame rfl rfl rfl rfl, h.terminated, ⟨fun _ => hthread, fun _ => rfl⟩, h.starters,
        h.thread⟩
    · cases hs
  | passed s hthread hs =>
    simp only [System.cleanupEnd] at hs
    split at hs
    · cases hs
      have htest : WorkerPhase.test ≠ .ended := by decide
      exact ⟨h.mode.worker hthread (fun _ => htest) rfl rfl rfl rfl, h.terminated, by simp,
        h.starters, fun _ => h.thread (by rw [hthread]; exact Option.some_ne_none _)⟩
    · cases hs
  | destroys hat => exact ⟨h.mode.destroys hat (hok rfl), h.terminated, h.pass, h.starters, h.thread⟩
  | clears hat hflag => exact ⟨h.mode.clears hat hflag, h.terminated, h.pass, h.starters, h.thread⟩
  | neverStarted hat hflag =>
    obtain ⟨hnone, hmode⟩ := h.mode.neverStarted hat hflag
    refine ⟨hmode, ?_, h.pass, h.starters, h.thread⟩
    rw [Process.destroyed, h.terminated, hnone]
    rfl
  | cleared w hat hthread =>
    obtain ⟨w, -, hmode⟩ := h.mode.cleared hat
    exact ⟨hmode, h.terminated, h.pass, h.starters, h.thread⟩
  | notJoinable hat hthread =>
    obtain ⟨w, hw, -⟩ := h.mode.cleared hat
    cases hthread.symm.trans hw
  | joined hat hthread =>
    refine ⟨h.mode.joined hat, ?_, ⟨fun hsome => ?_, fun he => ?_⟩, h.starters, fun hne => absurd rfl hne⟩
    · rw [Process.destroyed, h.terminated]
      rfl
    · cases hthread.symm.trans (h.pass.mp hsome)
    · cases he

/-- One step of the process is one of the system, or none. -/
theorem system_of_move {a : ProcessAction} (hm : ProcessMove config p a q) :
    q.system = p.system ∨ ∃ b, p.system.step config b = some q.system := by
  cases hm with
  | tick d => exact .inr ⟨.tick d, rfl⟩
  | handled a s hopen hs => exact .inr ⟨a, hs⟩
  | deleted d now s hopen hs => exact .inr ⟨.deletePath d now, hs⟩
  | begun s hthread hs => exact .inr ⟨.cleanupBegin, hs⟩
  | deletes fault s hthread hs => exact .inr ⟨.cleanupDelete fault, hs⟩
  | passed s hthread hs => exact .inr ⟨.cleanupEnd, hs⟩
  | _ => exact .inl rfl

theorem refines_of_reachable (hp : Reachable (Process.step config) Constructed Orderly p) :
    Reachable (System.step config) Initial (fun _ _ => True) p.system := by
  refine hp.invariant (P := fun p => Reachable _ _ _ p.system) ?_ fun p a q _ _ hq ih => ?_
  · rintro p ⟨disks, rfl⟩
    exact .init ⟨disks, rfl⟩
  · rcases system_of_move (process_move hq) with he | ⟨b, hb⟩
    · rw [he]
      exact ih
    · exact .step b ih trivial hb

theorem threadInv_of_reachable (hp : Reachable (Process.step config) Constructed Orderly p) : ThreadInv p :=
  hp.invariant (fun _ ⟨disks, he⟩ => he ▸ threadInv_start disks)
    fun _ _ _ _ hok hq => threadInv_step (process_move hq) hok

end

end ToyDfs
