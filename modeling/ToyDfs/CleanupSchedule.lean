import Mathlib.Data.List.Flatten
import ToyDfs.CleanupThread

/-!
How long the cleanup thread rests, and how long the destructor waits for it.

* `rested_of_reachable`: the thread counts sixty sleeps of a second before each pass.
* `endsWithin_of_joining`: once `running_` is clear, the thread is at its end after the
  sleep and the pass it is in.

`wellManaged_of_reachable` states both together with the invariant of the thread.
-/

namespace ToyDfs

open Transition

/-! ## The rest before a pass -/

/-- What the thread has slept at each place of the loop. -/
def slept (running : Bool) (since clock : TimePoint) : WorkerPhase → Prop
  | .counting i => i ≤ 60 ∧ since + i * second ≤ clock
  | .sleeping i wake => i < 60 ∧ since + (i + 1) * second ≤ wake ∧ wake ≤ clock + second
  | .rested => running = true → since + 60 * second ≤ clock
  | .calling => since + 60 * second ≤ clock
  | _ => True

/-- Is the thread between the head of the `while` and the pass? -/
def WorkerPhase.rests : WorkerPhase → Bool
  | .counting _ | .sleeping _ _ | .rested | .calling => true
  | _ => false

/-- The thread rests a minute before each pass. -/
structure Rested (p : Process) : Prop where
  long : ∀ r ∈ p.passes, r.1 + 60 * second ≤ r.2
  apart : p.passes.Pairwise fun newer older => older.2 ≤ newer.1
  past : ∀ r ∈ p.passes, r.2 ≤ p.system.clock
  phase : ∀ w, p.thread = some w → slept p.running p.restingSince p.system.clock w ∧
    (w.rests = true → ∀ r ∈ p.passes, r.2 ≤ p.restingSince)

section
variable {config : Endpoint → DataNodeConfig} {p q : Process} {running : Bool} {since clock : TimePoint}

/-- Time goes by. -/
theorem slept_later {later : TimePoint} {w : WorkerPhase} (h : slept running since clock w)
    (hclock : clock ≤ later) : slept running since later w := by
  cases w with
  | counting i => exact ⟨h.1, Int.le_trans h.2 hclock⟩
  | sleeping i wake => exact ⟨h.1, h.2.1, Int.le_trans h.2.2 (Int.add_le_add_right hclock _)⟩
  | rested => exact fun hrun => Int.le_trans (h hrun) hclock
  | calling => exact Int.le_trans h hclock
  | test | passing | ended => trivial

/-- The flag is cleared. -/
theorem slept_cleared {w : WorkerPhase} (h : slept running since clock w) : slept false since clock w := by
  cases w with
  | rested => exact nofun
  | counting i | sleeping i wake | calling | test | passing | ended => exact h

/-- Sixty sleeps of a second. -/
theorem slept_move {w w' : WorkerPhase} (hm : WorkerMove running clock w w')
    (h : slept running since clock w) : slept running since clock w' := by
  cases hm with
  | left | breaks => trivial
  | sleeps i hi hflag =>
    refine ⟨hi, ?_, Int.le_refl _⟩
    have hsum : since + ((i : Int) + 1) * second = since + i * second + second := by
      rw [Int.add_mul, Int.one_mul, Int.add_assoc]
    rw [hsum]
    exact Int.add_le_add_right h.2 _
  | counted i hi =>
    intro hrun
    rcases hi with hi | hi
    · have hsixty : i = 60 := Nat.le_antisymm h.1 hi
      have hslept := h.2
      rw [hsixty] at hslept
      exact hslept
    · cases hrun.symm.trans hi
  | wakes i wake hwake => exact ⟨h.1, by simpa using Int.le_trans h.2.1 hwake⟩
  | calls hflag => exact h hflag

theorem rests_of_worked {w w' : WorkerPhase} (hm : WorkerMove running clock w w') (h : w'.rests = true) :
    w.rests = true := by
  cases hm with
  | left | breaks => cases h
  | sleeps | counted | wakes | calls => rfl

theorem rested_start (disks : Disks) : Rested (.start disks) where
  long := nofun
  apart := .nil
  past := nofun
  phase := nofun

/-- Steps that let time go by at most. -/
theorem Rested.later (h : Rested p) (hpasses : q.passes = p.passes)
    (hclock : p.system.clock ≤ q.system.clock) (hphase : ∀ w, q.thread = some w →
      slept q.running q.restingSince p.system.clock w ∧
        (w.rests = true → ∀ r ∈ p.passes, r.2 ≤ q.restingSince)) : Rested q where
  long := by rw [hpasses]; exact h.long
  apart := by rw [hpasses]; exact h.apart
  past := by
    rw [hpasses]
    exact fun r hr => Int.le_trans (h.past r hr) hclock
  phase := by
    intro w hw
    obtain ⟨hslept, hsince⟩ := hphase w hw
    rw [hpasses]
    exact ⟨slept_later hslept hclock, hsince⟩

theorem rested_step {a : ProcessAction} (hm : ProcessMove config p a q) (hinv : ThreadInv p) (h : Rested p) :
    Rested q := by
  cases hm with
  | tick d => exact h.later rfl (Int.le_add_of_nonneg_right (Int.natCast_nonneg d)) h.phase
  | handled a s hopen hs => exact h.later rfl (clock_le_of_step hs) h.phase
  | deleted d now s hopen hs =>
    have hs : p.system.step config (.deletePath d now) = some s := hs
    exact h.later rfl (clock_le_of_step hs) h.phase
  | set d hold hflag =>
    refine h.later rfl (Int.le_refl _) fun w hw => ?_
    cases hinv.mode.set hold hflag with
    | starting e hf ht => cases ht.symm.trans hw
    | working w hf ht hw hs => exact absurd (setStarter_starters_self ..) (hs d)
    | idle hf | stopping w hf | gone hf => cases hf
  | started d hold hthread =>
    refine h.later rfl (Int.le_refl _) fun w hw => ?_
    cases hw
    exact ⟨trivial, nofun⟩
  | rests hthread hflag =>
    refine h.later rfl (Int.le_refl _) fun w hw => ?_
    cases hw
    refine ⟨⟨Nat.zero_le _, ?_⟩, fun _ => h.past⟩
    simp
  | worked w w' hthread hmove =>
    refine h.later rfl (Int.le_refl _) fun v hv => ?_
    cases hv
    obtain ⟨hslept, hsince⟩ := h.phase w hthread
    exact ⟨slept_move hmove hslept, fun hrests => hsince (rests_of_worked hmove hrests)⟩
  | begun s hthread hs =>
    obtain ⟨hslept, hsince⟩ := h.phase .calling hthread
    have hclock := @clock_le_of_step config _ _ .cleanupBegin hs
    refine ⟨?_, ?_, ?_, ?_⟩
    · exact List.forall_mem_cons.mpr ⟨hslept, h.long⟩
    · exact List.pairwise_cons.mpr ⟨hsince rfl, h.apart⟩
    · exact List.forall_mem_cons.mpr ⟨hclock, fun r hr => Int.le_trans (h.past r hr) hclock⟩
    · intro w hw
      cases hw
      exact ⟨trivial, nofun⟩
  | deletes fault s hthread hs =>
    exact h.later rfl (@clock_le_of_step config _ _ (.cleanupDelete fault) hs) h.phase
  | passed s hthread hs =>
    refine h.later rfl (@clock_le_of_step config _ _ .cleanupEnd hs) fun w hw => ?_
    cases hw
    exact ⟨trivial, nofun⟩
  | cleared w hat hthread =>
    refine h.later rfl (Int.le_refl _) fun v hv => ?_
    exact ⟨slept_cleared (h.phase v hv).1, (h.phase v hv).2⟩
  | notJoinable hat hthread =>
    refine h.later rfl (Int.le_refl _) fun v hv => ?_
    exact ⟨slept_cleared (h.phase v hv).1, (h.phase v hv).2⟩
  | joined hat hthread => exact h.later rfl (Int.le_refl _) nofun
  | tested | overwritten | destroys | clears | neverStarted => exact h.later rfl (Int.le_refl _) h.phase

theorem rested_of_reachable (hp : Reachable (Process.step config) Constructed Orderly p) : Rested p :=
  hp.invariant (fun _ ⟨disks, he⟩ => he ▸ rested_start disks)
    fun _ _ _ hp _ hq => rested_step (process_move hq) (threadInv_of_reachable hp)

end

/-! ## The end -/

/-- The replicas a pass could have to visit. -/
def tombstoneReplicas (s : MetadataStore) : List (String × Int32) :=
  s.deletedEntries.flatMap fun t => t.fileMeta.replicas

/-- The steps to `ended` once the flag is clear. -/
def WorkerPhase.stepsLeft (s : System) : WorkerPhase → Nat
  | .ended => 0
  | .test | .rested => 1
  | .counting _ => 2
  | .sleeping _ _ => 3
  | .passing => ((s.pass.map fun pass => pass.todo.length).getD 0) + 2
  | .calling => (tombstoneReplicas s.store).length + 3

/-- The steps before the destructor returns. -/
def Process.stepsLeft (p : Process) : Nat :=
  match p.destructor, p.thread with
  | .joining, some w => w.stepsLeft p.system + 1
  | _, _ => 0

/-- The flag is clear, and the thread is waited for or joined. -/
def Process.closing (p : Process) : Prop := p.destructor = .joining ∨ p.destructor = .destroyed

def ProcessAction.isTick : ProcessAction → Bool
  | .tick _ => true
  | _ => false

/-- The destructor returns after at most `stepsLeft` steps, of the thread and of its
own, and has to wait for a second at most. -/
structure EndsWithin (config : Endpoint → DataNodeConfig) (p : Process) : Prop where
  bounded : ∀ as q, exec (Process.step config) p as = some q →
    as.countP (fun a => !a.isTick) ≤ p.stepsLeft
  ends : ∃ as q, exec (Process.step config) p as = some q ∧ q.destructor = .destroyed ∧
    q.system.clock ≤ p.system.clock + second

section
variable {config : Endpoint → DataNodeConfig} {p q : Process}

theorem passReplicas_length_le (now : TimePoint) (s : MetadataStore) :
    (passReplicas now s).length ≤ (tombstoneReplicas s).length :=
  (List.filter_sublist.flatMap _).length_le

theorem stepsLeft_joining {w : WorkerPhase} (hat : p.destructor = .joining) (hthread : p.thread = some w) :
    p.stepsLeft = w.stepsLeft p.system + 1 := by
  rw [Process.stepsLeft, hat, hthread]

/-- While it waits, the thread is there and the flag clear. -/
theorem ThreadInv.closing (h : ThreadInv p) (hclosing : p.closing) :
    p.running = false ∧ p.Settled ∧ p.destructor ≠ .absent ∧
      ((p.destructor = .joining ∧ ∃ w, p.thread = some w) ∨ p.destructor = .destroyed ∧ p.thread = none) := by
  cases h.mode with
  | idle hf ht hs hd => rcases hd with hd | ⟨hd, -⟩ <;> simp [Process.closing, hd] at hclosing
  | starting d hf ht hs ho hd => simp [Process.closing, hd] at hclosing
  | working w hf ht hw hs hd => rcases hd with hd | ⟨hd | hd, -⟩ <;> simp [Process.closing, hd] at hclosing
  | stopping w hf ht hd hs => exact ⟨hf, hs, by rw [hd]; nofun, .inl ⟨hd, w, ht⟩⟩
  | gone hf ht hd hs => exact ⟨hf, hs, by rw [hd]; nofun, .inr ⟨hd, ht⟩⟩

theorem ThreadInv.joinable (h : ThreadInv p) (hat : p.destructor = .joining) : ∃ w, p.thread = some w := by
  rcases (h.closing (.inl hat)).2.2.2 with ⟨-, hthread⟩ | ⟨hdestroyed, -⟩
  · exact hthread
  · cases hat.symm.trans hdestroyed

/-- Each step of the thread is one less. -/
theorem stepsLeft_worked {w w' : WorkerPhase} {clock : TimePoint} (hm : WorkerMove false clock w w')
    (s : System) : w'.stepsLeft s < w.stepsLeft s := by
  cases hm with
  | sleeps i hi hflag | calls hflag => cases hflag
  | left | counted | wakes | breaks => simp [WorkerPhase.stepsLeft]

/-- Once the flag is clear, every step but a tick is one of those left. -/
theorem closing_step {a : ProcessAction} (hm : ProcessMove config p a q) (hinv : ThreadInv p)
    (hclosing : p.closing) :
    q.closing ∧ q.stepsLeft ≤ p.stepsLeft ∧ (a.isTick = false → q.stepsLeft < p.stepsLeft) := by
  obtain ⟨hflag, hsettled, hopen, hmode⟩ := hinv.closing hclosing
  have hjoining : ∀ w, p.thread = some w → p.destructor = .joining := fun w hw =>
    (hmode.resolve_right fun h => by cases h.2.symm.trans hw).1
  have hless : ∀ {q : Process} {w w' : WorkerPhase}, p.thread = some w → q.destructor = p.destructor →
      q.thread = some w' → w'.stepsLeft q.system < w.stepsLeft p.system →
      q.closing ∧ q.stepsLeft ≤ p.stepsLeft ∧ (a.isTick = false → q.stepsLeft < p.stepsLeft) := by
    intro q w w' hthread hsame hthread' hlt
    have hat := hjoining w hthread
    have hlt' : q.stepsLeft < p.stepsLeft := by
      rw [stepsLeft_joining hat hthread, stepsLeft_joining (hsame.trans hat) hthread']
      exact Nat.succ_lt_succ hlt
    exact ⟨.inl (hsame.trans hat), Nat.le_of_lt hlt', fun _ => hlt'⟩
  cases hm with
  | tick d => exact ⟨hclosing, Nat.le_refl _, nofun⟩
  | handled a s hat => exact absurd hat hopen
  | deleted d now s hat => exact absurd hat hopen
  | tested d old phase hold hactive => exact absurd (hsettled.not_active hold) hactive
  | set d hold => cases hsettled.not_active hold
  | started d hold => cases hsettled.not_active hold
  | overwritten d w hold => cases hsettled.not_active hold
  | rests hthread hrun => cases hflag.symm.trans hrun
  | worked w w' hthread hmove =>
    rw [hflag] at hmove
    exact hless hthread rfl rfl (stepsLeft_worked hmove p.system)
  | begun s hthread hs =>
    refine hless hthread rfl rfl ?_
    simp only [System.cleanupBegin] at hs
    split at hs
    · cases hs
    · split at hs
      · cases hs
        exact Nat.succ_le_succ (Nat.add_le_add_right (passReplicas_length_le _ _) 2)
      · cases hs
  | deletes fault s hthread hs =>
    refine hless hthread rfl hthread ?_
    simp only [System.cleanupDelete] at hs
    split at hs
    · next now r todo attempts hpass =>
      cases hs
      simp [WorkerPhase.stepsLeft, hpass]
    · cases hs
  | passed s hthread hs => exact hless hthread rfl rfl (by simp [WorkerPhase.stepsLeft])
  | destroys hat => exact absurd hat hopen
  | clears hat => rcases hclosing with h | h <;> cases hat.symm.trans h
  | neverStarted hat => rcases hclosing with h | h <;> cases hat.symm.trans h
  | cleared w hat => rcases hclosing with h | h <;> cases hat.symm.trans h
  | notJoinable hat => rcases hclosing with h | h <;> cases hat.symm.trans h
  | joined hat hthread =>
    have hlt : Process.stepsLeft { p with thread := none }.destroyed < p.stepsLeft := by
      rw [stepsLeft_joining hat hthread]
      exact Nat.succ_pos _
    exact ⟨.inr rfl, Nat.le_of_lt hlt, fun _ => hlt⟩

/-- A thread that sleeps is due. -/
def Process.awake (p : Process) : Prop :=
  ∀ i wake, p.thread = some (.sleeping i wake) → wake ≤ p.system.clock

theorem awake_of_thread {w : WorkerPhase} (hthread : p.thread = some w)
    (hw : ∀ i wake, w ≠ .sleeping i wake) : p.awake := fun i wake hsleep => absurd (Option.some.inj (hthread.symm.trans hsleep)) (hw i wake)

/-- The thread is not held up, and its steps take no time. -/
theorem exists_closing_step (config : Endpoint → DataNodeConfig) (hinv : ThreadInv p)
    (hat : p.destructor = .joining) (hawake : p.awake) :
    ∃ a q, a.isTick = false ∧ p.step config a = some q ∧ q.awake ∧ q.system.clock = p.system.clock := by
  have hflag : p.running = false := (hinv.closing (.inl hat)).1
  obtain ⟨w, hthread⟩ := hinv.joinable hat
  cases w with
  | test =>
    exact ⟨.workerTest, { p with thread := some .ended }, rfl,
      by simp only [Process.step, Process.workerTest, hthread, hflag]; rfl,
      awake_of_thread rfl fun i wake he => (by cases he), rfl⟩
  | counting i =>
    exact ⟨.workerCount, { p with thread := some .rested }, rfl,
      by simp only [Process.step, Process.workerCount, hthread, hflag, Bool.and_false]; rfl,
      awake_of_thread rfl fun i wake he => (by cases he), rfl⟩
  | sleeping i wake =>
    exact ⟨.workerWake, { p with thread := some (.counting (i + 1)) }, rfl,
      by simp only [Process.step, Process.workerWake, hthread, if_pos (hawake i wake hthread)],
      awake_of_thread rfl fun i wake he => (by cases he), rfl⟩
  | rested =>
    exact ⟨.workerRested, { p with thread := some .ended }, rfl,
      by simp only [Process.step, Process.workerRested, hthread, hflag]; rfl,
      awake_of_thread rfl fun i wake he => (by cases he), rfl⟩
  | calling =>
    have hrun : p.system.running = true := hinv.thread (by rw [hthread]; exact Option.some_ne_none _)
    have hpass : p.system.pass = none := by
      refine Option.not_isSome_iff_eq_none.mp fun hsome => ?_
      cases hthread.symm.trans (hinv.pass.mp hsome)
    let t : System := { p.system with
      pass := some { now := p.system.clock, todo := passReplicas p.system.clock p.system.store } }
    have ht : p.system.cleanupBegin = some t := by
      simp only [System.cleanupBegin, hpass, hrun, if_true, t]
    exact ⟨.workerBegin, { p with
        system := t
        thread := some .passing
        passes := (p.restingSince, p.system.clock) :: p.passes }, rfl,
      by simp only [Process.step, Process.workerBegin, hthread, ht, Option.map_some],
      awake_of_thread rfl fun i wake he => (by cases he), rfl⟩
  | passing =>
    obtain ⟨⟨now, todo, attempts⟩, hpass⟩ := Option.isSome_iff_exists.mp (hinv.pass.mpr hthread)
    cases todo with
    | nil =>
      let t : System := { p.system with
        store := (p.system.store.cleanupTombstones now (none : Option (FileMeta → Unit → Unit)) ()).1
        pass := none }
      have ht : p.system.cleanupEnd = some t := by simp only [System.cleanupEnd, hpass, t]
      refine ⟨.workerEnd, { p with system := t, thread := some .test }, rfl,
        by simp only [Process.step, Process.workerEnd, hthread, ht, Option.map_some],
        awake_of_thread rfl fun i wake he => (by cases he), rfl⟩
    | cons r todo =>
      let t : System := { p.system with
        disks := deleteReplica config p.system.registeredNodes {} r p.system.disks
        pass := some ⟨now, todo, attempts ++ [deleteAttempt config p.system.registeredNodes {} r]⟩ }
      have ht : p.system.cleanupDelete config {} = some t := by simp only [System.cleanupDelete, hpass, t]
      refine ⟨.workerDelete {}, { p with system := t }, rfl,
        by simp only [Process.step, Process.workerDelete, hthread, ht, Option.map_some],
        awake_of_thread hthread fun i wake he => (by cases he), rfl⟩
  | ended =>
    refine ⟨.destructorJoin, { p with thread := none }.destroyed, rfl,
      by simp only [Process.step, Process.destructorJoin, hat, if_true, hthread],
      fun i wake hsleep => (by cases hsleep), rfl⟩

/-- A sleeping thread is due within a second. -/
theorem exists_awake (h : Rested p) :
    ∃ d, ({ p with system := { p.system with clock := p.system.clock + (d : Nat) } } : Process).awake ∧
      p.system.clock + (d : Nat) ≤ p.system.clock + second := by
  by_cases hawake : p.awake
  · exact ⟨0, by simpa [Process.awake] using hawake, Int.add_le_add_left (by decide) _⟩
  · refine ⟨second.toNat, ?_, Int.le_of_eq rfl⟩
    intro i wake hthread
    exact (h.phase _ hthread).1.2.2

theorem endsWithin_of_joining (config : Endpoint → DataNodeConfig) (hinv : ThreadInv p) (hrested : Rested p)
    (hat : p.destructor = .joining) : EndsWithin config p := by
  have hkeeps : ∀ p a q, p.step config a = some q → ThreadInv p ∧ p.closing → ThreadInv q ∧ q.closing := by
    rintro p a q hq ⟨hinv, hclosing⟩
    exact ⟨threadInv_step (process_move hq) (fun _ => (hinv.closing hclosing).2.1) hinv,
      (closing_step (process_move hq) hinv hclosing).1⟩
  refine ⟨?_, ?_⟩
  · intro as q hrun
    have hle := countP_le (Process.step config) (fun a => a.isTick = false) Process.stepsLeft
      (fun p => ThreadInv p ∧ p.closing) hkeeps
      (fun p a q hq hp => (closing_step (process_move hq) hp.1 hp.2).2.2)
      (fun p a q hq hp => (closing_step (process_move hq) hp.1 hp.2).2.1) as hrun ⟨hinv, .inl hat⟩
    simpa using Nat.le_trans (Nat.le_add_right _ _) hle
  · -- one tick, and the rest by itself
    obtain ⟨d, hawake, hclock⟩ := exists_awake hrested
    have htick : p.step config (.tick d) =
        some { p with system := { p.system with clock := p.system.clock + d } } := rfl
    obtain ⟨hinv', hclosing'⟩ := hkeeps _ _ _ htick ⟨hinv, .inl hat⟩
    have hfinish := exists_finish (Process.step config) (fun a => a.isTick = false) Process.stepsLeft
      (fun q => ThreadInv q ∧ q.closing ∧ q.awake ∧ q.system.clock = p.system.clock + d)
      (fun p a q hq hp => (closing_step (process_move hq) hp.1 hp.2.1).2.2) ?_ _
      ⟨hinv', hclosing', hawake, rfl⟩
    · obtain ⟨as, q, hrun, -, ⟨hinvq, hclosingq, -, hclockq⟩, hzero⟩ := hfinish
      refine ⟨.tick d :: as, q, ?_, ?_, hclockq ▸ hclock⟩
      · rw [exec, htick, Option.bind_some]
        exact hrun
      · rcases hclosingq with hjoining | hdestroyed
        · obtain ⟨w, hthread⟩ := hinvq.joinable hjoining
          rw [stepsLeft_joining hjoining hthread] at hzero
          cases hzero
        · exact hdestroyed
    · rintro q ⟨hinvq, hclosingq, hawakeq, hclockq⟩ hpos
      have hjoining : q.destructor = .joining := by
        refine hclosingq.resolve_right fun h => ?_
        rw [Process.stepsLeft, h] at hpos
        cases hpos
      obtain ⟨a, r, ha, hr, hawaker, hclockr⟩ := exists_closing_step config hinvq hjoining hawakeq
      obtain ⟨hinvr, hclosingr⟩ := hkeeps _ _ _ hr ⟨hinvq, hclosingq⟩
      exact ⟨a, r, ha, hr, hinvr, hclosingr, hawaker, hclockr.trans hclockq⟩

end

/-! ## Top theorem -/

/-- The thread runs, or one call is about to start it. -/
def Process.cleaning (p : Process) : Prop :=
  p.running = true ∧ ((∃ w, p.thread = some w ∧ w ≠ .ended) ∨
    p.thread = none ∧ ∃ e, p.starters e = some .mustStart ∧ ∀ i, p.starters i = some .mustStart → i = e)

/-- What holds between the calls, the thread and the destructor. -/
structure WellManaged (config : Endpoint → DataNodeConfig) (p : Process) : Prop where
  refines : Reachable (System.step config) Initial (fun _ _ => True) p.system
  notTerminated : p.terminated = false
  passes : p.system.pass.isSome ↔ p.thread = some .passing
  /-- a `DeleteFile` has returned -/
  cleaning : ∀ d, p.starters d = some .done → p.destructor = .absent → p.cleaning
  rests : ∀ r ∈ p.passes, r.1 + 60 * second ≤ r.2
  apart : p.passes.Pairwise fun newer older => older.2 ≤ newer.1
  ends : p.destructor = .joining → EndsWithin config p
  joined : p.destructor = .destroyed → p.thread = none

theorem InMode.cleaning {p : Process} (h : InMode p) {d : Nat} (hdone : p.starters d = some .done)
    (hopen : p.destructor = .absent) : p.cleaning := by
  cases h with
  | idle hf ht hs hd => exact absurd hdone (hs d).2
  | starting e hf ht hs ho hd => exact ⟨hf, .inr ⟨ht, e, hs, ho⟩⟩
  | working w hf ht hw hs hd => exact ⟨hf, .inl ⟨w, ht, hw⟩⟩
  | stopping w hf ht hd => cases hopen.symm.trans hd
  | gone hf ht hd => cases hopen.symm.trans hd

/-- **The cleanup thread is well managed.** -/
theorem wellManaged_of_reachable (config : Endpoint → DataNodeConfig) (p : Process)
    (hp : Reachable (Process.step config) Constructed Orderly p) : WellManaged config p := by
  have hinv := threadInv_of_reachable hp
  have hrested := rested_of_reachable hp
  refine ⟨refines_of_reachable hp, hinv.terminated, hinv.pass, fun d => hinv.mode.cleaning, hrested.long,
    hrested.apart, fun hat => endsWithin_of_joining config hinv hrested hat, fun hat => ?_⟩
  rcases (hinv.closing (.inr hat)).2.2.2 with ⟨hjoining, -⟩ | ⟨-, hnone⟩
  · cases hat.symm.trans hjoining
  · exact hnone

/-- A file is uploaded and deleted, and the thread makes a pass and rests again. -/
def onePass : List ProcessAction :=
  [.handler (.startPut 0 [⟨"f", []⟩]), .handler (.putCheck 0), .handler (.putCommit 0),
    .handler (.startDelete 0 "f"), .handler (.deleteCheck 0), .handler (.deletePath 0 0),
    .starterTest 0, .starterSet 0, .starterStart 0, .workerTest] ++
  (List.replicate 60 [.workerCount, .tick 1000000000, .workerWake]).flatten ++
  [.workerCount, .workerRested, .workerBegin, .workerEnd, .workerTest, .workerCount]

theorem reachable_onePass {p : Process}
    (hp : exec (Process.step fun _ => {}) (.start fun _ _ => none) onePass = some p) :
    Reachable (Process.step fun _ => {}) Constructed Orderly p := by
  refine Reachable.exec_of_forall onePass (.init ⟨_, rfl⟩) ?_ hp
  have hnot : onePass.all (fun a => !a.isDestructorStart) = true := by decide
  intro a ha s hstart
  have hnot := List.all_eq_true.mp hnot a ha
  rw [hstart] at hnot
  cases hnot

/-- The destructor waits for it. -/
def destruction : List ProcessAction := [.destructorStart, .destructorTest, .destructorClear]

theorem wellManaged_onePass : ∃ p q,
    exec (Process.step fun _ => {}) (.start fun _ _ => none) onePass = some p ∧
      exec (Process.step fun _ => {}) p destruction = some q ∧ q.destructor = .joining ∧
        q.thread = some (.sleeping 0 61000000000) ∧ WellManaged (fun _ => {}) q := by
  have hrun : ((exec (Process.step fun _ => {}) (.start fun _ _ => none) onePass).bind fun p =>
      (exec (Process.step fun _ => {}) p destruction).map fun q =>
        (p.starters 0, q.destructor, q.thread)) =
          some (some .done, .joining, some (.sleeping 0 61000000000)) := by decide
  have hothers : ∀ d, (exec (Process.step fun _ => {}) (.start fun _ _ => none) onePass).map
      (fun p => p.starters (d + 1)) = some none := fun d => rfl
  obtain ⟨p, hp, hrun⟩ := Option.bind_eq_some_iff.mp hrun
  obtain ⟨q, hq, hrun⟩ := Option.map_eq_some_iff.mp hrun
  injection hrun with hdone hrun
  injection hrun with hat hthread
  have hsettled : p.Settled := by
    intro d
    cases d with
    | zero => exact .inr hdone
    | succ d =>
      have hnone := hothers d
      rw [hp] at hnone
      exact .inl (Option.some.inj hnone)
  refine ⟨p, q, hp, hq, hat, hthread,
    wellManaged_of_reachable _ q ((reachable_onePass hp).exec_along hq ?_)⟩
  exact ⟨fun _ => hsettled, fun _ _ => ⟨fun h => (by cases h), fun _ _ =>
    ⟨fun h => (by cases h), fun _ _ => trivial⟩⟩⟩

end ToyDfs
