import ToyDfs.CleanupSchedule
import ToyDfs.ExactCleanup
import ToyDfs.IdExhaustion

/-!
How long a deleted file stays.

A pass takes the tombstones that are older than five minutes when it begins, and the
thread rests for at least a minute between two passes.

* `young_of_reachable`: between passes, every tombstone is at least as young as the
  sixth-last pass.
* `countP_workerSteps_le`: the thread begins a pass in every 125 of its steps, not counting
  deletions.
* `leadsTo_emptied`: left alone, it can have removed all of them within 361 seconds.

`reclaimed_of_reachable` puts these together, over all runs of the process.
-/

namespace ToyDfs

open Transition MetadataStore

/-! ## What a pass leaves -/

/-- The passes that have ended. -/
def Process.ended (p : Process) : List (TimePoint × TimePoint) :=
  if p.system.pass.isSome then p.passes.tail else p.passes

/-- No tombstone was older than five minutes when an ended pass began. -/
structure Swept (p : Process) : Prop where
  past : ∀ x ∈ p.system.store.deletedEntries, x.deleteTime ≤ p.system.clock
  left : ∀ r ∈ p.ended, ∀ x ∈ p.system.store.deletedEntries, r.2 ≤ x.deleteTime + tombstoneLifetime
  now : ∀ pass, p.system.pass = some pass → ∃ since rest, p.passes = (since, pass.now) :: rest

section
variable {config : Endpoint → DataNodeConfig} {s t : System} {p q : Process}

/-- Only `deletePath` makes tombstones. -/
theorem mem_deletedEntries_of_step {a : Action} (ht : s.step config a = some t) {x : Tombstone}
    (hx : x ∈ t.store.deletedEntries) : x ∈ s.store.deletedEntries ∨ x.deleteTime = s.clock := by
  cases step_move ht with
  | pathDeleted d path now hdel hpass hnow =>
    rcases mem_deletedEntries_deletePath s.store path s.clock now hx with hx | ⟨fileMeta, -, rfl⟩
    · exact .inl hx
    · exact .inr rfl
  | cleanupEnded now attempts hpass =>
    rw [deletedEntries_cleanupTombstones] at hx
    exact .inl (List.mem_of_mem_filter hx)
  | putFailed k call status store nextNodeIndex hput hprog hstatus hstore =>
    exact .inl (hstore.deletedEntries ▸ hx)
  | putAccepted k call store hput hphase hacc hstore => exact .inl (hstore.deletedEntries ▸ hx)
  | deleteMoved d call store hold hanswer hstore => exact .inl (hstore.deletedEntries ▸ hx)
  | _ => exact .inl hx

theorem mem_passes_of_ended {r : TimePoint × TimePoint} (h : r ∈ p.ended) : r ∈ p.passes := by
  rw [Process.ended] at h
  split at h
  · exact List.mem_of_mem_tail h
  · exact h

theorem swept_start (disks : Disks) : Swept (.start disks) where
  past := fun x hx => absurd hx List.not_mem_nil
  left := fun r hr => absurd hr List.not_mem_nil
  now := fun pass hpass => by cases hpass

/-- Steps that begin and end no pass. -/
theorem Swept.later (h : Swept p) (hrested : Rested p) (hpasses : q.passes = p.passes)
    (hpass : q.system.pass.map Pass.now = p.system.pass.map Pass.now)
    (hclock : p.system.clock ≤ q.system.clock)
    (htombstones : ∀ x ∈ q.system.store.deletedEntries,
      x ∈ p.system.store.deletedEntries ∨ x.deleteTime = p.system.clock) : Swept q := by
  have hended : q.ended = p.ended := by
    have hsome : q.system.pass.isSome = p.system.pass.isSome := by
      rw [← Option.isSome_map, hpass, Option.isSome_map]
    rw [Process.ended, Process.ended, hsome, hpasses]
  refine ⟨fun x hx => ?_, ?_, fun pass hq => ?_⟩
  · rcases htombstones x hx with hx | hx
    · exact Int.le_trans (h.past x hx) hclock
    · exact hx ▸ hclock
  · rw [hended]
    intro r hr x hx
    rcases htombstones x hx with hx | hx
    · exact h.left r hr x hx
    · rw [hx]
      exact Int.le_trans (hrested.past r (mem_passes_of_ended hr)) (Int.le_add_of_nonneg_right (by decide))
  · rw [hq] at hpass
    obtain ⟨pass', hp, hnow⟩ := Option.map_eq_some_iff.mp hpass.symm
    rw [hpasses, ← hnow]
    exact h.now pass' hp

theorem swept_step {a : ProcessAction} (hm : ProcessMove config p a q) (hrested : Rested p) (h : Swept p) :
    Swept q := by
  cases hm with
  | tick d =>
    exact h.later hrested rfl rfl (Int.le_add_of_nonneg_right (Int.natCast_nonneg d)) fun x hx => .inl hx
  | handled a s hopen hs hpass =>
    exact h.later hrested rfl (by rw [pass_of_step hs hpass]) (clock_le_of_step hs)
      fun x hx => mem_deletedEntries_of_step hs hx
  | deleted d now s hopen hs =>
    have hs : p.system.step config (.deletePath d now) = some s := hs
    have hpass : s.pass = p.system.pass := pass_of_step hs fun he => by cases he
    exact h.later hrested rfl (congrArg (Option.map Pass.now) hpass) (clock_le_of_step hs)
      fun x hx => mem_deletedEntries_of_step hs hx
  | begun s hthread hs =>
    simp only [System.cleanupBegin] at hs
    split at hs
    · cases hs
    · next hpass =>
      split at hs
      · cases hs
        have hended : p.ended = p.passes := by simp [Process.ended, hpass]
        refine ⟨h.past, fun r hr => h.left r (hended ▸ hr), fun pass hq => ?_⟩
        cases hq
        exact ⟨_, _, rfl⟩
      · cases hs
  | deletes fault s hthread hs =>
    simp only [System.cleanupDelete] at hs
    split at hs
    · next now r todo attempts hpass =>
      cases hs
      exact h.later hrested rfl (by rw [hpass]; rfl) (Int.le_refl _) fun x hx => .inl hx
    · cases hs
  | passed s hthread hs =>
    simp only [System.cleanupEnd] at hs
    split at hs
    · next now attempts hpass =>
      cases hs
      obtain ⟨since, rest, hpasses⟩ := h.now _ hpass
      have hended : p.ended = rest := by simp [Process.ended, hpass, hpasses]
      have hkept : ∀ x ∈ (p.system.store.cleanupTombstones now (none : Option (FileMeta → Unit → Unit))
          ()).1.deletedEntries,
          x ∈ p.system.store.deletedEntries ∧ now ≤ x.deleteTime + tombstoneLifetime := by
        intro x hx
        rw [deletedEntries_cleanupTombstones] at hx
        obtain ⟨hx, hnot⟩ := List.mem_filter.mp hx
        refine ⟨hx, ?_⟩
        have hage : ¬ tombstoneLifetime < now - x.deleteTime := by simpa [Tombstone.expired] using hnot
        exact sub_le_iff_le_add'.mp (not_lt.mp hage)
      refine ⟨fun x hx => h.past x (hkept x hx).1, fun r hr x hx => ?_, fun pass hq => by cases hq⟩
      have hr : r ∈ p.passes := hr
      rw [hpasses] at hr
      rcases List.mem_cons.mp hr with rfl | hr
      · exact (hkept x hx).2
      · exact h.left r (hended ▸ hr) x (hkept x hx).1
    · cases hs
  | _ => exact h.later hrested rfl rfl (Int.le_refl _) fun x hx => .inl hx

theorem swept_of_reachable (hp : Reachable (Process.step config) Constructed Orderly p) : Swept p :=
  hp.invariant (fun _ ⟨disks, he⟩ => he ▸ swept_start disks)
    fun _ _ _ hp _ hq => swept_step (process_move hq) (rested_of_reachable hp)

end

/-- Passes are a minute apart. -/
theorem apart_getElem (k : Nat) {passes : List (TimePoint × TimePoint)} {r last : TimePoint × TimePoint}
    (hlong : ∀ r ∈ passes, r.1 + 60 * second ≤ r.2)
    (hapart : passes.Pairwise fun newer older => older.2 ≤ newer.1)
    (hlast : passes.head? = some last) (hr : passes[k]? = some r) : r.2 + k * (60 * second) ≤ last.2 := by
  induction k generalizing passes last with
  | zero =>
    rw [List.head?_eq_getElem?, hr] at hlast
    cases hlast
    simp
  | succ k ih =>
    match passes, hlast with
    | newer :: older, rfl =>
      cases older with
      | nil => cases hr
      | cons next older =>
        have hnext := ih (fun r hr => hlong r (List.mem_cons_of_mem _ hr)) hapart.of_cons rfl hr
        have hstep : next.2 ≤ newer.1 := (List.pairwise_cons.mp hapart).1 next List.mem_cons_self
        have hrest := hlong newer List.mem_cons_self
        calc r.2 + ((k + 1 : Nat) : Int) * (60 * second)
            = r.2 + k * (60 * second) + 60 * second := by rw [Nat.cast_succ, add_mul, one_mul, add_assoc]
          _ ≤ next.2 + 60 * second := Int.add_le_add_right hnext _
          _ ≤ newer.1 + 60 * second := Int.add_le_add_right hstep _
          _ ≤ newer.2 := hrest

section
variable {config : Endpoint → DataNodeConfig} {p q : Process}

theorem young_of_reachable (hp : Reachable (Process.step config) Constructed Orderly p)
    (hpass : p.system.pass = none) {r : TimePoint × TimePoint} (hr : p.passes[5]? = some r) :
    ∀ x ∈ p.system.store.deletedEntries, r.2 ≤ x.deleteTime := by
  intro x hx
  have hrested := rested_of_reachable hp
  have hended : p.ended = p.passes := by simp [Process.ended, hpass]
  cases hpasses : p.passes with
  | nil =>
    rw [hpasses] at hr
    cases hr
  | cons last older =>
    have hlast : p.passes.head? = some last := by rw [hpasses]; rfl
    have hgap := apart_getElem 5 hrested.long hrested.apart hlast hr
    have hleft := (swept_of_reachable hp).left last (by rw [hended, hpasses]; exact List.mem_cons_self) x hx
    exact Int.le_of_add_le_add_right (Int.le_trans hgap hleft)

end

/-! ## How often the thread gets there -/

def ProcessAction.isWorkerStep : ProcessAction → Bool
  | .workerTest | .workerCount | .workerWake | .workerRested | .workerBegin | .workerEnd => true
  | _ => false

/-- The steps to the end of the rest, or to `ended`. -/
def WorkerPhase.rank : WorkerPhase → Nat
  | .passing => 125
  | .test => 124
  | .counting i => 123 - 2 * i
  | .sleeping i _ => 122 - 2 * i
  | .rested => 2
  | .calling => 1
  | .ended => 0

/-- A thread that is not there yet has its loop before it. -/
def Process.rank (p : Process) : Nat :=
  match p.thread with
  | some w => w.rank
  | none => if p.destructor = .destroyed then 0 else 124

section
variable {config : Endpoint → DataNodeConfig} {p q : Process}

theorem rank_of_thread {w : WorkerPhase} (h : p.thread = some w) : p.rank = w.rank := by
  rw [Process.rank, h]

theorem WorkerPhase.rank_le (w : WorkerPhase) : w.rank ≤ 125 := by
  cases w <;> simp only [rank] <;> omega

theorem Process.rank_le (p : Process) : p.rank ≤ 125 := by
  rw [rank]
  split
  · exact WorkerPhase.rank_le _
  · split <;> omega

theorem rank_worked {w w' : WorkerPhase} {running : Bool} {since clock : TimePoint}
    (hm : WorkerMove running clock w w') (hslept : slept running since clock w) : w'.rank < w.rank := by
  cases hm with
  | left | calls | breaks => decide
  | sleeps i hi => simp only [WorkerPhase.rank]; omega
  | counted i hi =>
    have hle : i ≤ 60 := hslept.1
    simp only [WorkerPhase.rank]
    omega
  | wakes i wake =>
    have hlt : i < 60 := hslept.1
    simp only [WorkerPhase.rank]
    omega

/-- A step uses up the loop but for the passes it begins, and a step of the thread does so
strictly. -/
def UsesUp (p q : Process) (a : ProcessAction) : Prop :=
  q.rank + 125 * p.passes.length ≤ p.rank + 125 * q.passes.length ∧
    (a.isWorkerStep = true → q.rank + 125 * p.passes.length < p.rank + 125 * q.passes.length)

theorem usesUp_other {a : ProcessAction} (hpasses : q.passes = p.passes) (hle : q.rank ≤ p.rank)
    (hnot : a.isWorkerStep = false) : UsesUp p q a := by
  rw [UsesUp, hpasses, hnot]
  exact ⟨Nat.add_le_add_right hle _, fun h => by cases h⟩

theorem usesUp_worker {a : ProcessAction} {w w' : WorkerPhase} (hthread : p.thread = some w)
    (hthread' : q.thread = some w') (hpasses : q.passes = p.passes) (hlt : w'.rank < w.rank) :
    UsesUp p q a := by
  rw [UsesUp, hpasses, rank_of_thread hthread, rank_of_thread hthread']
  exact ⟨by omega, fun _ => by omega⟩

/-- Only the begin of a pass fills up what is left of the loop. -/
theorem usesUp_step {a : ProcessAction} (hm : ProcessMove config p a q) (hinv : ThreadInv p) (hr : Rested p) :
    UsesUp p q a := by
  cases hm with
  | tick d => exact usesUp_other rfl (Nat.le_refl _) rfl
  | handled b s hopen hs => exact usesUp_other rfl (Nat.le_refl _) rfl
  | deleted d now s hopen hs => exact usesUp_other rfl (Nat.le_refl _) rfl
  | tested d old phase hold hactive hnot hphase hdone ha =>
    refine usesUp_other rfl (Nat.le_refl _) ?_
    rcases ha with rfl | rfl <;> rfl
  | set d hold hflag => exact usesUp_other rfl (Nat.le_refl _) rfl
  | started d hold hthread =>
    have hopen : p.destructor = .absent := hinv.mode.absent hold (by decide)
    have hrank : p.rank = 124 := by simp [Process.rank, hthread, hopen]
    exact usesUp_other rfl (Nat.le_of_eq hrank.symm) rfl
  | overwritten d w hold hthread => exact usesUp_other rfl (Nat.le_refl _) rfl
  | rests hthread hflag => exact usesUp_worker hthread rfl rfl (by decide)
  | worked w w' hthread hmove => exact usesUp_worker hthread rfl rfl (rank_worked hmove (hr.phase w hthread).1)
  | begun s hthread hs =>
    have hfilled : (125 : Nat) + 125 * p.passes.length < 1 + 125 * (p.passes.length + 1) := by omega
    rw [UsesUp, rank_of_thread hthread]
    exact ⟨Nat.le_of_lt hfilled, fun _ => hfilled⟩
  | deletes fault s hthread hs => exact usesUp_other rfl (Nat.le_refl _) rfl
  | passed s hthread hs => exact usesUp_worker hthread rfl rfl (by decide)
  | destroys hat => exact usesUp_other rfl (by simp [Process.rank, hat]) rfl
  | clears hat hflag => exact usesUp_other rfl (by simp [Process.rank, hat]) rfl
  | neverStarted hat hflag =>
    have hnone := (hinv.mode.neverStarted hat hflag).1
    exact usesUp_other rfl (by simp [Process.rank, Process.destroyed, hnone]) rfl
  | cleared w hat hthread => exact usesUp_other rfl (by simp [Process.rank, hthread]) rfl
  | notJoinable hat hthread => exact usesUp_other rfl (by simp [Process.rank, Process.destroyed, hthread]) rfl
  | joined hat hthread => exact usesUp_other rfl (by simp [Process.rank, Process.destroyed]) rfl

theorem countP_workerSteps_le {as : List ProcessAction}
    (hp : Reachable (Process.step config) Constructed Orderly p)
    (hrun : exec (Process.step config) p as = some q) (hok : Along (Process.step config) Orderly p as) :
    as.countP (·.isWorkerStep) + 125 * p.passes.length ≤ 125 + 125 * q.passes.length := by
  have hle := countP_le_refilled (Process.step config) (fun a => a.isWorkerStep = true) Process.rank
    (fun p => ThreadInv p ∧ Rested p) (fun p => 125 * p.passes.length)
    (fun p a q hq hok h => ⟨threadInv_step (process_move hq) hok h.1, rested_step (process_move hq) h.1 h.2⟩)
    (fun p a q hq h => (usesUp_step (process_move hq) h.1 h.2).2)
    (fun p a q hq h => (usesUp_step (process_move hq) h.1 h.2).1) as hrun hok
    ⟨threadInv_of_reachable hp, rested_of_reachable hp⟩
  simp only [Bool.decide_eq_true] at hle
  have hrank := p.rank_le
  omega

/-- The passes of a run begin during the run. -/
theorem passes_of_move {a : ProcessAction} (hm : ProcessMove config p a q) :
    p.system.clock ≤ q.system.clock ∧
      (q.passes = p.passes ∨ ∃ since, q.passes = (since, p.system.clock) :: p.passes) := by
  constructor
  · rcases system_of_move hm with he | ⟨b, hb⟩
    · rw [he]
    · exact clock_le_of_step hb
  · cases hm with
    | begun s hthread hs => exact .inr ⟨_, rfl⟩
    | _ => exact .inl rfl

theorem passes_since {as : List ProcessAction} (hrun : exec (Process.step config) p as = some q) :
    p.system.clock ≤ q.system.clock ∧
      ∃ passes, q.passes = passes ++ p.passes ∧ ∀ r ∈ passes, p.system.clock ≤ r.2 := by
  refine exec_invariant (R := fun q => p.system.clock ≤ q.system.clock ∧
    ∃ passes, q.passes = passes ++ p.passes ∧ ∀ r ∈ passes, p.system.clock ≤ r.2) ?_ as hrun
    ⟨Int.le_refl _, [], rfl, fun r hr => absurd hr List.not_mem_nil⟩
  rintro s a t ht ⟨hclock, passes, hpasses, hsince⟩
  obtain ⟨hle, hmove⟩ := passes_of_move (process_move ht)
  refine ⟨Int.le_trans hclock hle, ?_⟩
  rcases hmove with he | ⟨since, he⟩
  · exact ⟨passes, he.trans hpasses, hsince⟩
  · refine ⟨(since, s.system.clock) :: passes, by rw [he, hpasses]; rfl, ?_⟩
    exact List.forall_mem_cons.mpr ⟨hclock, hsince⟩

/-- **Six passes later.** -/
theorem young_of_workerSteps {as : List ProcessAction}
    (hp : Reachable (Process.step config) Constructed Orderly p)
    (hrun : exec (Process.step config) p as = some q) (hok : Along (Process.step config) Orderly p as)
    (hsteps : 750 < as.countP (·.isWorkerStep)) (hpass : q.system.pass = none) :
    ∀ x ∈ q.system.store.deletedEntries, p.system.clock ≤ x.deleteTime := by
  obtain ⟨-, passes, hpasses, hsince⟩ := passes_since hrun
  have hcount := countP_workerSteps_le hp hrun hok
  rw [hpasses, List.length_append] at hcount
  have hsix : 5 < passes.length := by omega
  have hr : q.passes[5]? = some passes[5] := by
    rw [hpasses, List.getElem?_append_left hsix, List.getElem?_eq_getElem hsix]
  intro x hx
  exact Int.le_trans (hsince _ (List.getElem_mem hsix))
    (young_of_reachable (hp.exec_along hrun hok) hpass hr x hx)

end

/-! ## The thread by itself -/

/-- Time, the start of the thread, and its steps. -/
def ProcessAction.byThread : ProcessAction → Bool
  | .tick _ | .starterStart _ | .workerTest | .workerCount | .workerWake | .workerRested | .workerBegin
  | .workerDelete _ | .workerEnd => true
  | _ => false

/-- From `p` to `q` without handlers and destructor. -/
def LeadsTo (config : Endpoint → DataNodeConfig) (p q : Process) : Prop :=
  Reachable (Process.step config) (· = p) (fun _ a => a.byThread = true) q

/-- The thread is at `w` at this time. -/
def Process.atPhase (p : Process) (w : WorkerPhase) (clock : TimePoint) : Process :=
  { p with thread := some w, system := { p.system with clock := clock } }

section
variable {config : Endpoint → DataNodeConfig} {p q : Process}

theorem LeadsTo.refl (p : Process) : LeadsTo config p p := .init rfl

theorem LeadsTo.snoc {a : ProcessAction} {r : Process} (h : LeadsTo config p q) (ha : a.byThread = true)
    (hr : q.step config a = some r) : LeadsTo config p r := .step a h ha hr

theorem LeadsTo.trans {r : Process} (h : LeadsTo config p q) (h' : LeadsTo config q r) : LeadsTo config p r :=
  Reachable.trans h h'

theorem step_worker {a : ProcessAction} {r : Process} (ha : a.byThread = true)
    (hr : p.step config a = some r) : LeadsTo config p r := (LeadsTo.refl p).snoc ha hr

/-- `n` more seconds. -/
theorem leadsTo_rested (hflag : p.running = true) (n : Nat) {i : Nat} (clock : TimePoint)
    (hi : i + n = 60) :
    LeadsTo config (p.atPhase (.counting i) clock) (p.atPhase .rested (clock + n * second)) := by
  induction n generalizing i clock with
  | zero =>
    refine step_worker (a := .workerCount) rfl ?_
    have hsixty : i = 60 := hi
    simp [Process.step, Process.workerCount, Process.atPhase, hsixty]
  | succ n ih =>
    have hlt : i < 60 := by omega
    have hcount : (p.atPhase (.counting i) clock).step config .workerCount =
        some (p.atPhase (.sleeping i (clock + second)) clock) := by
      simp [Process.step, Process.workerCount, Process.atPhase, hflag, hlt]
    have htick : (p.atPhase (.sleeping i (clock + second)) clock).step config (.tick 1000000000) =
        some (p.atPhase (.sleeping i (clock + second)) (clock + second)) := rfl
    have hwake : (p.atPhase (.sleeping i (clock + second)) (clock + second)).step config .workerWake =
        some (p.atPhase (.counting (i + 1)) (clock + second)) := by
      simp [Process.step, Process.workerWake, Process.atPhase]
    have hrest := @ih (i + 1) (clock + second) (by omega)
    have hsum : clock + second + n * second = clock + ((n + 1 : Nat) : Int) * second := by
      rw [Nat.cast_succ, add_mul, one_mul, add_assoc, add_comm second]
    rw [hsum] at hrest
    exact (((step_worker rfl hcount).snoc rfl htick).snoc rfl hwake).trans hrest

/-- The thread comes to the call within a minute, and does nothing else. -/
structure ComesToCall (p q : Process) : Prop where
  thread : q.thread = some .calling
  running : q.running = true
  system : ∃ clock, p.system.clock ≤ clock ∧ clock ≤ p.system.clock + 60 * second ∧
    q.system = { p.system with clock := clock }

theorem step_rested (config : Endpoint → DataNodeConfig) (clock : TimePoint) (hflag : p.running = true) :
    (p.atPhase .rested clock).step config .workerRested = some (p.atPhase .calling clock) := by
  simp [Process.step, Process.workerRested, Process.atPhase, hflag]

/-- From the count of `i` at this time on. -/
theorem comesToCall_counting {clock : TimePoint} {i n : Nat} (hflag : p.running = true) (hi : i + n = 60)
    (hlow : p.system.clock ≤ clock) (hhigh : clock + n * second ≤ p.system.clock + 60 * second)
    (hq : LeadsTo config p (p.atPhase (.counting i) clock)) : ∃ q, LeadsTo config p q ∧ ComesToCall p q := by
  have hrested := hq.trans (leadsTo_rested hflag n clock hi)
  have hpos : (0 : Int) ≤ n * second := Int.mul_nonneg (Int.natCast_nonneg n) (by decide)
  exact ⟨_, hrested.snoc rfl (step_rested config _ hflag), rfl, hflag, _,
    Int.le_trans hlow (Int.le_add_of_nonneg_right hpos), hhigh, rfl⟩

theorem comesToCall_test (hflag : p.running = true) (hthread : p.thread = some .test) :
    ∃ q, LeadsTo config p q ∧ ComesToCall p q := by
  let r : Process := { p with restingSince := p.system.clock }
  have htest : p.step config .workerTest = some (r.atPhase (.counting 0) p.system.clock) := by
    simp [Process.step, Process.workerTest, Process.atPhase, hthread, hflag, r]
  have hrested := @leadsTo_rested config r hflag 60 0 p.system.clock rfl
  exact ⟨_, ((step_worker rfl htest).trans hrested).snoc rfl (step_rested config _ hflag), rfl, hflag, _,
    Int.le_add_of_nonneg_right (by decide), Int.le_refl _, rfl⟩

/-- Wherever the thread is in its rest. -/
theorem exists_comesToCall {w : WorkerPhase} (hflag : p.running = true) (hthread : p.thread = some w)
    (hw : w ≠ .ended) (hpassing : w ≠ .passing) (hslept : slept p.running p.restingSince p.system.clock w) :
    ∃ q, LeadsTo config p q ∧ ComesToCall p q := by
  cases w with
  | test => exact comesToCall_test hflag hthread
  | counting i =>
    have hself : p.atPhase (.counting i) p.system.clock = p := by rw [Process.atPhase, ← hthread]
    refine comesToCall_counting (i := i) (n := 60 - i) hflag (Nat.add_sub_cancel' hslept.1) (Int.le_refl _)
      ?_ (by rw [hself]; exact .refl p)
    exact Int.add_le_add_left
      (Int.mul_le_mul_of_nonneg_right (Int.ofNat_le.mpr (Nat.sub_le 60 i)) (by decide)) _
  | sleeping i wake =>
    obtain ⟨hi, -, hwake⟩ := hslept
    have htick : p.step config (.tick 1000000000) =
        some (p.atPhase (.sleeping i wake) (p.system.clock + second)) := by
      rw [Process.atPhase, ← hthread]
      rfl
    have hwoken : (p.atPhase (.sleeping i wake) (p.system.clock + second)).step config .workerWake =
        some (p.atPhase (.counting (i + 1)) (p.system.clock + second)) := by
      simp [Process.step, Process.workerWake, Process.atPhase, hwake]
    refine comesToCall_counting (i := i + 1) (n := 59 - i) hflag (by omega)
      (Int.le_add_of_nonneg_right (by decide)) ?_ ((step_worker rfl htick).snoc rfl hwoken)
    calc p.system.clock + second + ((59 - i : Nat) : Int) * second
        ≤ p.system.clock + second + 59 * second :=
          Int.add_le_add_left (Int.mul_le_mul_of_nonneg_right (by omega) (by decide)) _
      _ = p.system.clock + 60 * second := by rw [add_assoc]; rfl
  | rested =>
    have hself : p.atPhase .rested p.system.clock = p := by rw [Process.atPhase, ← hthread]
    have hstep := step_rested config p.system.clock hflag
    rw [hself] at hstep
    exact ⟨_, step_worker rfl hstep, rfl, hflag, _, Int.le_refl _, Int.le_add_of_nonneg_right (by decide),
      rfl⟩
  | calling =>
    exact ⟨p, .refl p, hthread, hflag, _, Int.le_refl _, Int.le_add_of_nonneg_right (by decide), rfl⟩
  | passing => exact absurd rfl hpassing
  | ended => exact absurd rfl hw

/-! ## A pass by itself -/

theorem foldl_deleteReplica_none (config : Endpoint → DataNodeConfig) (registry : Registry)
    (rs : List (String × Int32)) {disks : Disks} {ep : Endpoint} {chunkId : String}
    (h : stored (config ep) (disks ep) chunkId = none) :
    stored (config ep) (rs.foldl (fun disks r => deleteReplica config registry {} r disks) disks ep) chunkId =
      none := by
  induction rs generalizing disks with
  | nil => exact h
  | cons r rs ih => exact ih (deleteReplica_none config registry {} r h)

theorem foldl_deleteReplica_mem (config : Endpoint → DataNodeConfig) (registry : Registry)
    {rs : List (String × Int32)} (disks : Disks) {r : String × Int32} {info : DataNodeInfo} (hr : r ∈ rs)
    (hinfo : registry.lookup r.2 = some info)
    (hc : (DeleteFault.confirms (config info.endpoint) {} r.1) = true) :
    stored (config info.endpoint)
      (rs.foldl (fun disks r => deleteReplica config registry {} r disks) disks info.endpoint) r.1 =
        none := by
  induction rs generalizing disks with
  | nil => cases hr
  | cons first rs ih =>
    rw [List.foldl_cons]
    rcases List.mem_cons.mp hr with rfl | hr
    · exact foldl_deleteReplica_none config registry rs (deleteReplica_confirmed config disks hinfo hc)
    · exact ih _ hr

/-- A chunk on record can be deleted. -/
theorem ServableChunk.confirms {chunk : ChunkInfo} (h : ServableChunk chunk) (config : DataNodeConfig) :
    DeleteFault.confirms config {} chunk.chunkId = true := by
  obtain ⟨n, hn, hname⟩ := h.number
  rw [DeleteFault.confirms, hname, getChunkPath_chunkName, if_pos hn]
  rfl

theorem leadsTo_deleted (todo : List (String × Int32)) {now : TimePoint} {attempts : List DeleteAttempt}
    (hthread : p.thread = some .passing) (hpass : p.system.pass = some ⟨now, todo, attempts⟩) :
    ∃ attempts', LeadsTo config p { p with system := { p.system with
      disks := todo.foldl (fun disks r => deleteReplica config p.system.registeredNodes {} r disks)
        p.system.disks
      pass := some ⟨now, [], attempts'⟩ } } := by
  induction todo generalizing p attempts with
  | nil =>
    refine ⟨attempts, ?_⟩
    rw [← hpass]
    exact .refl p
  | cons r todo ih =>
    have hdelete : p.step config (.workerDelete {}) = some { p with system := { p.system with
        disks := deleteReplica config p.system.registeredNodes {} r p.system.disks
        pass := some ⟨now, todo, attempts ++ [deleteAttempt config p.system.registeredNodes {} r]⟩ } } := by
      simp only [Process.step, Process.workerDelete, hthread, System.cleanupDelete, hpass, Option.map_some]
    obtain ⟨attempts', hrest⟩ := @ih { p with system := { p.system with
        disks := deleteReplica config p.system.registeredNodes {} r p.system.disks
        pass := some ⟨now, todo, attempts ++ [deleteAttempt config p.system.registeredNodes {} r]⟩ } } _
      hthread rfl
    exact ⟨attempts', (step_worker rfl hdelete).trans hrest⟩

/-- The whole pass. -/
theorem exists_passed (hthread : p.thread = some .calling) (hpass : p.system.pass = none)
    (hrun : p.system.running = true) :
    ∃ q, LeadsTo config p q ∧ q.system = { p.system with
      disks := (passReplicas p.system.clock p.system.store).foldl
        (fun disks r => deleteReplica config p.system.registeredNodes {} r disks) p.system.disks
      store := (p.system.store.cleanupTombstones p.system.clock (none : Option (FileMeta → Unit → Unit)) ()).1
      pass := none } := by
  let begun : Process := { p with
    system := { p.system with
      pass := some { now := p.system.clock, todo := passReplicas p.system.clock p.system.store } }
    thread := some .passing
    passes := (p.restingSince, p.system.clock) :: p.passes }
  have hbegin : p.step config .workerBegin = some begun := by
    simp only [Process.step, Process.workerBegin, hthread, System.cleanupBegin, hpass, hrun, if_true,
      Option.map_some, begun]
  obtain ⟨attempts, hdeleted⟩ := @leadsTo_deleted config begun _ p.system.clock [] rfl rfl
  refine ⟨_, ((step_worker rfl hbegin).trans hdeleted).snoc (a := .workerEnd) rfl rfl, rfl⟩

/-! ## All of it -/

/-- The thread is there, or the call that starts it goes on. -/
theorem exists_started (hp : Reachable (Process.step config) Constructed Orderly p) (hcleaning : p.cleaning)
    (hpass : p.system.pass = none) :
    ∃ q w, LeadsTo config p q ∧ q.running = true ∧ q.system = p.system ∧ q.thread = some w ∧ w ≠ .ended ∧
      w ≠ .passing ∧ slept q.running q.restingSince q.system.clock w := by
  obtain ⟨hflag, ⟨w, hthread, hw⟩ | ⟨hthread, e, hstart, -⟩⟩ := hcleaning
  · refine ⟨p, w, .refl p, hflag, rfl, hthread, hw, ?_, ((rested_of_reachable hp).phase w hthread).1⟩
    rintro rfl
    have hsome := (threadInv_of_reachable hp).pass.mpr hthread
    rw [hpass] at hsome
    cases hsome
  · have hstep : p.step config (.starterStart e) =
        some ({ p with thread := some .test }.setStarter e .done) := by
      simp only [Process.step, Process.starterStart, hstart, hthread]
    exact ⟨_, .test, step_worker rfl hstep, hflag, rfl, rfl, by decide, by decide, trivial⟩

theorem expired_of_later {x : Tombstone} {clock now : TimePoint} (hx : x.deleteTime ≤ clock)
    (hnow : clock + 300000000001 ≤ now) : x.expired now = true := by
  have hlt : tombstoneLifetime + x.deleteTime < now :=
    calc tombstoneLifetime + x.deleteTime
        ≤ tombstoneLifetime + clock := Int.add_le_add_left hx _
      _ = clock + tombstoneLifetime := add_comm ..
      _ < clock + 300000000001 := Int.add_lt_add_left (by decide) _
      _ ≤ now := hnow
  exact decide_eq_true (lt_sub_iff_add_lt.mpr hlt)

/-- What is left when the thread has been alone. -/
structure Emptied (config : Endpoint → DataNodeConfig) (p q : Process) : Prop where
  clock : q.system.clock ≤ p.system.clock + 361 * second
  pass : q.system.pass = none
  tombstones : q.system.store.deletedEntries = []
  files : ∀ path, q.system.store.findFile path = p.system.store.findFile path
  chunks : ∀ x ∈ p.system.store.deletedEntries, ∀ r ∈ x.fileMeta.replicas, ∀ info,
    p.system.registeredNodes.lookup r.2 = some info →
      stored (config info.endpoint) (q.system.disks info.endpoint) r.1 = none

/-- **Left alone.** -/
theorem leadsTo_emptied (hp : Reachable (Process.step config) Constructed Orderly p) {d : Nat}
    (hopen : p.destructor = .absent) (hdone : p.starters d = some .done) (hpass : p.system.pass = none) :
    ∃ q, LeadsTo config p q ∧ Emptied config p q := by
  have hinv := threadInv_of_reachable hp
  have hrun : p.system.running = true := (hinv.starters d (by rw [hdone]; exact Option.some_ne_none _)).1
  -- five minutes go by, then the rest, then the pass
  obtain ⟨started, w, hstarted, hflag, hsystem, hthread, hw, hpassing, hslept⟩ :=
    exists_started hp (hinv.mode.cleaning hdone hopen) hpass
  let late : Process :=
    { started with system := { started.system with clock := started.system.clock + (300000000001 : Nat) } }
  have htick : started.step config (.tick 300000000001) = some late := rfl
  have hlater : slept late.running late.restingSince late.system.clock w :=
    slept_later hslept (Int.le_add_of_nonneg_right (by decide))
  obtain ⟨called, hcalled, hcalling, -, now, hlow, hhigh, hnow⟩ :=
    @exists_comesToCall config late w hflag hthread hw hpassing hlater
  have hcalledSystem : called.system = { p.system with clock := now } := by rw [hnow, ← hsystem]
  obtain ⟨q, hq, hqsystem⟩ := @exists_passed config called hcalling (by rw [hcalledSystem]; exact hpass)
    (by rw [hcalledSystem]; exact hrun)
  rw [hcalledSystem] at hqsystem
  have hclock : late.system.clock = p.system.clock + 300000000001 := by
    show started.system.clock + 300000000001 = _
    rw [hsystem]
  rw [hclock] at hlow hhigh
  have hexpired : ∀ x ∈ p.system.store.deletedEntries, x.expired now = true := fun x hx =>
    expired_of_later ((swept_of_reachable hp).past x hx) hlow
  refine ⟨q, ((hstarted.snoc rfl htick).trans hcalled).trans hq, ?_, ?_, ?_, ?_, ?_⟩
  · rw [hqsystem]
    refine Int.le_trans hhigh ?_
    rw [add_assoc]
    exact Int.add_le_add_left (by decide) _
  · rw [hqsystem]
  · rw [hqsystem, deletedEntries_cleanupTombstones, List.filter_eq_nil_iff]
    intro x hx
    simp [hexpired x hx]
  · intro path
    rw [hqsystem, findFile, findFile, entries_cleanupTombstones]
  · intro x hx r hr info hinfo
    rw [hqsystem]
    obtain ⟨chunkId, nodeId⟩ := r
    obtain ⟨chunk, hchunk, rfl, -⟩ := mem_replicas.mp hr
    have hservable := (servable_of_reachable (refines_of_reachable hp)).tombstones x hx chunk hchunk
    exact foldl_deleteReplica_mem config p.system.registeredNodes p.system.disks
      (mem_passReplicas.mpr ⟨x, hx, hexpired x hx, hr⟩) hinfo (hservable.confirms _)

end

/-! ## Top theorem -/

/-- A deleted file does not stay. -/
structure Reclaimed (config : Endpoint → DataNodeConfig) (p : Process) : Prop where
  /-- whatever else goes on, after 750 more steps of the thread what is left is not older
  than the clock was -/
  young : ∀ as q, exec (Process.step config) p as = some q → Along (Process.step config) Orderly p as →
    750 < as.countP (·.isWorkerStep) → q.system.pass = none →
      ∀ x ∈ q.system.store.deletedEntries, p.system.clock ≤ x.deleteTime
  /-- a `DeleteFile` has returned, and nothing else goes on -/
  empties : ∀ d, p.destructor = .absent → p.starters d = some .done → p.system.pass = none →
    ∃ q, LeadsTo config p q ∧ Emptied config p q

/-- **Reclamation.** -/
theorem reclaimed_of_reachable (config : Endpoint → DataNodeConfig) (p : Process)
    (hp : Reachable (Process.step config) Constructed Orderly p) : Reclaimed config p :=
  ⟨fun _ _ hrun hok hsteps hpass => young_of_workerSteps hp hrun hok hsteps hpass,
    fun _ hopen hdone hpass => leadsTo_emptied hp hopen hdone hpass⟩

theorem reclaimed_onePass : ∃ p,
    exec (Process.step fun _ => {}) (.start fun _ _ => none) onePass = some p ∧
      p.system.store.deletedEntries.length = 1 ∧ p.system.pass = none ∧ p.destructor = .absent ∧
        p.starters 0 = some .done ∧ Reclaimed (fun _ => {}) p := by
  have hrun : (exec (Process.step fun _ => {}) (.start fun _ _ => none) onePass).map (fun p =>
      (p.system.store.deletedEntries.length, p.system.pass, p.destructor, p.starters 0)) =
        some (1, none, .absent, some .done) := by decide
  obtain ⟨p, hp, hrun⟩ := Option.map_eq_some_iff.mp hrun
  injection hrun with hlength hrun
  injection hrun with hpass hrun
  injection hrun with hopen hdone
  exact ⟨p, hp, hlength, hpass, hopen, hdone, reclaimed_of_reachable _ p (reachable_onePass hp)⟩

end ToyDfs
