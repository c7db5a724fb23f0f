import ToyDfs.Progress
import ToyDfs.SessionRefinement
import ToyDfs.Lib.Linearization

/-!
Uploads and deletions that run at once take effect one after another.

`FileSpec` says what one `PutFile` or `DeleteFile` by itself may be answered, given the
files there are.  It lets a `PutFile` replace a file, and a `DeleteFile` remove none: both
look for the file first, but have let go of the store's lock when they change it.

Every run of the system has an order of the answered calls in which all of them are
answered like that, and in which calls that do not overlap are as they were made
(`callOrder`).  This asks nothing of the datanodes, of the registry or of the counters;
only of uploads beyond 2 GiB, where the chunk loop is undefined, it says nothing.
-/

namespace ToyDfs

open Transition Simulation Linearization

/-! ## Calls -/

inductive FileCall
  | put (h : Nat)
  | delete (d : Nat)
deriving DecidableEq

inductive FileOp
  | put (filename : String) (content : Bytes)
  | delete (filename : String)

inductive FileAnswer
  | put (status : Status) (response : PutFileResponse)
  | delete (status : Status) (response : DeleteFileResponse)

def PutCall.op (call : PutCall) : FileOp := .put (uploadName call.messages) (uploadData call.messages)

def PutCall.answer (call : PutCall) : Option FileAnswer :=
  match call.phase with
  | .answered status response => some (.put status response)
  | _ => none

def DeleteCall.answer (call : DeleteCall) : Option FileAnswer :=
  match call.phase with
  | .answered status response => some (.delete status response)
  | _ => none

namespace System

def asked (s : System) : FileCall → Option FileOp
  | .put h => (s.puts h).map PutCall.op
  | .delete d => (s.deletes d).map fun call => .delete call.path

def answered (s : System) : FileCall → Option FileAnswer
  | .put h => (s.puts h).bind PutCall.answer
  | .delete d => (s.deletes d).bind DeleteCall.answer

end System

def fileCalls : Calls System FileCall FileOp FileAnswer where
  asked := System.asked
  answered := System.answered

/-- What may be answered, and what becomes of the files. -/
inductive FileSpec (files : Files) : FileOp → FileAnswer → Files → Prop
  | stored (filename : String) (content : Bytes) (hname : filename ≠ "") :
    FileSpec files (.put filename content) (.put Status.OK { success := true })
      (Function.update files filename (some content))
  | fileExists (filename : String) (content : Bytes) (hold : (files filename).isSome) :
    FileSpec files (.put filename content)
      (.put { code := .alreadyExists, errorMessage := "File exists" } {}) files
  | nameless (content : Bytes) :
    FileSpec files (.put "" content)
      (.put { code := .invalidArgument, errorMessage := "Filename not provided" } {}) files
  | failed (filename : String) (content : Bytes) (status : Status) (hname : filename ≠ "")
    (hcode : status.code = .internal) : FileSpec files (.put filename content) (.put status {}) files
  | deleted (filename : String) :
    FileSpec files (.delete filename) (.delete Status.OK { success := true })
      (Function.update files filename none)
  | notFound (filename : String) (hnone : files filename = none) :
    FileSpec files (.delete filename) (.delete fileNotFound {}) files

/-! ## The entries are those of the log -/

/-- Past the checks, and not answered yet. -/
def PutPhase.isAccepted : PutPhase → Bool
  | .started | .answered _ _ => false
  | _ => true

def EntryRecorded (s : System) (path : String) : Option (Option Nat) → Prop
  | some (some h) => (s.store.findFile path).isSome ∧ ∃ call, s.puts h = some call
  | _ => s.store.findFile path = none

structure AnswersRecorded (s : System) : Prop where
  entry : ∀ path, EntryRecorded s path (lastWrite path s.log)
  named : ∀ h call, s.puts h = some call → call.phase.isAccepted → uploadName call.messages ≠ ""

/-- Uploads that have started go on with the same stream. -/
def PutsKept (s t : System) : Prop :=
  ∀ h call, s.puts h = some call → ∃ call', t.puts h = some call' ∧ call'.messages = call.messages

section
variable {config : Endpoint → DataNodeConfig} {s t : System}

theorem answersRecorded_start (disks : Disks) : AnswersRecorded (.start disks) :=
  ⟨fun _ => rfl, fun _ _ hput => by cases hput⟩

theorem EntryRecorded.kept {path : String} {write : Option (Option Nat)} (h : EntryRecorded s path write)
    (hfind : t.store.findFile path = s.store.findFile path) (hputs : PutsKept s t) :
    EntryRecorded t path write := by
  match write, h with
  | some (some k), ⟨hsome, call, hput⟩ =>
    obtain ⟨call', hput', -⟩ := hputs k call hput
    exact ⟨by rwa [hfind], call', hput'⟩
  | some none, h => exact hfind.trans h
  | none, h => exact hfind.trans h

/-- Steps that change no entry. -/
theorem AnswersRecorded.frame (h : AnswersRecorded s) (hlog : t.log = s.log)
    (hfind : ∀ path, t.store.findFile path = s.store.findFile path) (hputs : PutsKept s t)
    (hnamed : ∀ k call, t.puts k = some call → call.phase.isAccepted → uploadName call.messages ≠ "") :
    AnswersRecorded t := by
  refine ⟨fun path => ?_, hnamed⟩
  rw [hlog]
  exact (h.entry path).kept (hfind path) hputs

theorem PutsKept.of_eq (h : t.puts = s.puts) : PutsKept s t := fun k call hput => ⟨call, by rw [h, hput], rfl⟩

theorem PutsKept.update {k : Nat} {call : PutCall} (hputs : t.puts = Function.update s.puts k (some call))
    (hold : ∀ old, s.puts k = some old → old.messages = call.messages) : PutsKept s t := by
  intro j old hput
  rw [hputs]
  by_cases hj : j = k
  · subst hj
    exact ⟨call, Function.update_self .., (hold old hput).symm⟩
  · exact ⟨old, by rw [Function.update_of_ne hj, hput], rfl⟩

theorem PutsKept.advance {k : Nat} {old call : PutCall}
    (hputs : t.puts = Function.update s.puts k (some call)) (hput : s.puts k = some old)
    (hmessages : old.messages = call.messages) : PutsKept s t := by
  refine .update hputs fun old' hput' => ?_
  rw [hput] at hput'
  cases hput'
  exact hmessages

theorem AnswersRecorded.named_update (h : AnswersRecorded s) {k : Nat} {call : PutCall}
    (hputs : t.puts = Function.update s.puts k (some call))
    (hcall : call.phase.isAccepted → uploadName call.messages ≠ "") :
    ∀ j call', t.puts j = some call' → call'.phase.isAccepted → uploadName call'.messages ≠ "" := by
  intro j call' hput hacc
  rw [hputs] at hput
  rcases update_some_iff.mp hput with ⟨-, rfl⟩ | ⟨-, hput⟩
  · exact hcall hacc
  · exact h.named j call' hput hacc

/-- A step of upload `k` that changes no entry. -/
theorem AnswersRecorded.advance (h : AnswersRecorded s) {k : Nat} {old call : PutCall} (hlog : t.log = s.log)
    (hfind : ∀ path, t.store.findFile path = s.store.findFile path)
    (hputs : t.puts = Function.update s.puts k (some call)) (hput : s.puts k = some old)
    (hmessages : old.messages = call.messages)
    (hcall : call.phase.isAccepted → uploadName call.messages ≠ "") : AnswersRecorded t :=
  h.frame hlog hfind (.advance hputs hput hmessages) (h.named_update hputs hcall)

/-- **One step** keeps the entries those of the log. -/
theorem answersRecorded_move {a : Action} (hm : Move config s a t) (h : AnswersRecorded s) :
    AnswersRecorded t := by
  cases hm with
  | putStarted k messages hput =>
    refine h.frame rfl (fun _ => rfl) (.update rfl fun old hput' => ?_)
      (h.named_update rfl fun hacc => by cases hacc)
    rw [hput] at hput'
    cases hput'
  | putFailed k call status store nextNodeIndex hput hprog hstatus hstore =>
    exact h.advance rfl hstore.findFile rfl hput rfl fun hacc => by cases hacc
  | putAccepted k call store hput hphase hacc hstore =>
    exact h.advance rfl hstore.findFile rfl hput rfl fun _ => hacc.1
  | putDrawn k call hput hphase hlt =>
    exact h.advance rfl (fun _ => rfl) rfl hput rfl
      fun _ => h.named k call hput (by rw [hphase]; rfl)
  | putPlaced k order call chunkId hput hphase horder hne =>
    exact h.advance rfl (fun _ => rfl) rfl hput rfl
      fun _ => h.named k call hput (by rw [hphase]; rfl)
  | putStored k j call chunkId nodeIds results fault hput hphase hj hnew =>
    exact h.advance rfl (fun _ => rfl) rfl hput rfl
      fun _ => h.named k call hput (by rw [hphase]; rfl)
  | putChunkDone k call chunkId nodeIds results hput hphase hok =>
    exact h.advance rfl (fun _ => rfl) rfl hput rfl
      fun _ => h.named k call hput (by rw [hphase]; rfl)
  | putCommitted k call hput hpass hphase hlen =>
    refine ⟨fun path => ?_, h.named_update rfl fun hacc => by cases hacc⟩
    by_cases hpath : path = uploadName call.messages
    · rw [System.setPut, lastWrite_committed k _ s.log hpath]
      refine ⟨?_, _, Function.update_self ..⟩
      rw [hpath]
      exact Option.isSome_iff_exists.mpr ⟨_, MetadataStore.findFile_putFile ..⟩
    · rw [System.setPut, lastWrite_committed_ne k _ s.log hpath]
      exact (h.entry path).kept (MetadataStore.findFile_putFile_ne _ _ hpath)
        (.advance rfl hput rfl)
  | deleteMoved d call store hold hanswer hstore =>
    exact h.frame rfl hstore.findFile (.of_eq rfl) h.named
  | pathDeleted d path now hdel hpass hnow =>
    refine ⟨fun q => ?_, h.named⟩
    by_cases hq : q = path
    · rw [hq, System.setDelete, lastWrite_deletedPath path _ s.log]
      exact MetadataStore.findFile_deletePath ..
    · rw [System.setDelete, lastWrite_deletedPath_ne _ s.log hq]
      exact (h.entry q).kept (MetadataStore.findFile_deletePath_ne _ _ _ hq) (.of_eq rfl)
  | _ => exact h.frame rfl (fun _ => rfl) (.of_eq rfl) h.named

/-! ## The files of the log -/

theorem AnswersRecorded.isSome_iff (h : AnswersRecorded s) (path : String) :
    (s.files path).isSome ↔ (s.store.findFile path).isSome := by
  have hentry := h.entry path
  rw [System.files]
  rcases hlast : lastWrite path s.log with _ | _ | k
  · rw [hlast] at hentry
    rw [show s.store.findFile path = none from hentry]
    exact Iff.rfl
  · rw [hlast] at hentry
    rw [show s.store.findFile path = none from hentry]
    exact Iff.rfl
  · rw [hlast] at hentry
    obtain ⟨hsome, call, hput⟩ := hentry
    simp only [hput, Option.map_some, Option.isSome_some, hsome]

theorem AnswersRecorded.none_iff (h : AnswersRecorded s) (path : String) :
    s.files path = none ↔ s.store.findFile path = none := by
  rw [← Option.not_isSome_iff_eq_none, ← Option.not_isSome_iff_eq_none, h.isSome_iff]

/-- A name that is not written keeps its content. -/
theorem AnswersRecorded.files_eq (h : AnswersRecorded s) (hputs : PutsKept s t) {path : String}
    (hlast : lastWrite path t.log = lastWrite path s.log) : t.files path = s.files path := by
  have hentry := h.entry path
  rw [System.files, System.files, hlast]
  rcases hw : lastWrite path s.log with _ | _ | k
  · rfl
  · rfl
  · rw [hw] at hentry
    obtain ⟨-, call, hput⟩ := hentry
    obtain ⟨call', hput', hmessages⟩ := hputs k call hput
    simp only [hput, hput', Option.map_some, hmessages]

theorem AnswersRecorded.files_frame (h : AnswersRecorded s) (hlog : t.log = s.log) (hputs : PutsKept s t) :
    t.files = s.files := by
  funext path
  exact h.files_eq hputs (by rw [hlog])

/-! ## Steps -/

/-- Steps that answer no call. -/
theorem stepAnswers_none (h : AnswersRecorded s) (hlog : t.log = s.log) (hputs : PutsKept s t)
    (hasked : KeepsAsked fileCalls s t) (hanswered : t.answered = s.answered) :
    StepAnswers fileCalls FileSpec s t s.files t.files :=
  .none hasked hanswered (h.files_frame hlog hputs)

theorem asked_congr {u : System} (hputs : u.puts = s.puts) (hdeletes : u.deletes = s.deletes) :
    u.asked = s.asked := by
  funext i
  cases i with
  | put k => rw [System.asked, System.asked, hputs]
  | delete d => rw [System.asked, System.asked, hdeletes]

theorem answered_congr {u : System} (hputs : u.puts = s.puts) (hdeletes : u.deletes = s.deletes) :
    u.answered = s.answered := by
  funext i
  cases i with
  | put k => rw [System.answered, System.answered, hputs]
  | delete d => rw [System.answered, System.answered, hdeletes]

theorem asked_setPut {k : Nat} {old call : PutCall} (hput : s.puts k = some old)
    (hmessages : old.messages = call.messages) : (s.setPut k call).asked = s.asked := by
  funext i
  cases i with
  | put j =>
    by_cases hj : j = k
    · rw [hj, System.asked, System.asked, hput, setPut_puts_self, Option.map_some, Option.map_some,
        PutCall.op, PutCall.op, hmessages]
    · rw [System.asked, System.asked, setPut_puts_ne hj]
  | delete d => rfl

theorem answered_setPut (s : System) (k : Nat) (call : PutCall) :
    (s.setPut k call).answered = Function.update s.answered (.put k) call.answer := by
  funext i
  cases i with
  | put j =>
    by_cases hj : j = k
    · rw [hj, Function.update_self, System.answered, setPut_puts_self, Option.bind_some]
    · rw [Function.update_of_ne fun he => hj (FileCall.put.inj he), System.answered, System.answered,
        setPut_puts_ne hj]
  | delete d => rw [Function.update_of_ne fun he => by cases he]; rfl

theorem asked_setDelete {d : Nat} {old call : DeleteCall} (hdel : s.deletes d = some old)
    (hpath : old.path = call.path) : (s.setDelete d call).asked = s.asked := by
  funext i
  cases i with
  | put k => rfl
  | delete j =>
    by_cases hj : j = d
    · rw [hj, System.asked, System.asked, hdel, setDelete_deletes_self, Option.map_some, Option.map_some,
        hpath]
    · rw [System.asked, System.asked, setDelete_deletes_ne hj]

theorem answered_setDelete (s : System) (d : Nat) (call : DeleteCall) :
    (s.setDelete d call).answered = Function.update s.answered (.delete d) call.answer := by
  funext i
  cases i with
  | put k => rw [Function.update_of_ne fun he => by cases he]; rfl
  | delete j =>
    by_cases hj : j = d
    · rw [hj, Function.update_self, System.answered, setDelete_deletes_self, Option.bind_some]
    · rw [Function.update_of_ne fun he => hj (FileCall.delete.inj he), System.answered, System.answered,
        setDelete_deletes_ne hj]

/-- What a step of a call does to the files, when this is its answer afterwards. -/
def Outcome (files : Files) (op : FileOp) : Option FileAnswer → Files → Prop
  | none, files' => files' = files
  | some answer, files' => FileSpec files op answer files'

/-- A step of call `i`, which is not answered yet. -/
theorem stepAnswers_own {i : FileCall} {op : FileOp} {answer : Option FileAnswer} {files : Files}
    (hop : s.asked i = some op) (hnew : s.answered i = none) (hasked : t.asked = s.asked)
    (hanswered : t.answered = Function.update s.answered i answer) (hfiles : t.files = files)
    (hspec : Outcome s.files op answer files) :
    StepAnswers fileCalls FileSpec s t s.files t.files := by
  have hkept : KeepsAsked fileCalls s t := by
    intro j op' hop'
    change t.asked j = some op'
    rw [hasked]
    exact hop'
  cases answer with
  | none =>
    refine .none hkept ?_ (hfiles.trans hspec)
    change t.answered = s.answered
    rw [hanswered]
    exact Function.update_eq_self_iff.mpr hnew.symm
  | some answer => exact .one hkept i op answer hop hnew hanswered (hfiles ▸ hspec)

/-- A step of upload `k`. -/
theorem stepAnswers_put {u : System} {k : Nat} {old call : PutCall} (hput : s.puts k = some old)
    (hu : u.puts = s.puts) (hdeletes : u.deletes = s.deletes) (hmessages : old.messages = call.messages)
    (hnew : old.answer = none) {files : Files} (hfiles : (u.setPut k call).files = files)
    (hspec : Outcome s.files old.op call.answer files) :
    StepAnswers fileCalls FileSpec s (u.setPut k call) s.files (u.setPut k call).files := by
  have hput' : u.puts k = some old := by rw [hu, hput]
  refine stepAnswers_own (i := .put k) ?_ ?_
    ((asked_setPut hput' hmessages).trans (asked_congr hu hdeletes)) ?_ hfiles hspec
  · rw [System.asked, hput]
    rfl
  · rw [System.answered, hput]
    exact hnew
  · rw [answered_setPut, answered_congr hu hdeletes]

/-- A step of deletion `d`. -/
theorem stepAnswers_delete {u : System} {d : Nat} {old call : DeleteCall} (hdel : s.deletes d = some old)
    (hu : u.deletes = s.deletes) (hputs : u.puts = s.puts) (hpath : old.path = call.path)
    (hnew : old.answer = none) {files : Files} (hfiles : (u.setDelete d call).files = files)
    (hspec : Outcome s.files (.delete old.path) call.answer files) :
    StepAnswers fileCalls FileSpec s (u.setDelete d call) s.files (u.setDelete d call).files := by
  have hdel' : u.deletes d = some old := by rw [hu, hdel]
  refine stepAnswers_own (i := .delete d) ?_ ?_
    ((asked_setDelete hdel' hpath).trans (asked_congr hputs hu)) ?_ hfiles hspec
  · rw [System.asked, hdel]
    rfl
  · rw [System.answered, hdel]
    exact hnew
  · rw [answered_setDelete, answered_congr hputs hu]

theorem putCheck_answers {k : Nat} (h : AnswersRecorded s) (ht : s.putCheck k = some t) :
    StepAnswers fileCalls FileSpec s t s.files t.files := by
  unfold System.putCheck at ht
  split at ht
  · next messages chunks hput hpass =>
    cases messages with
    | nil =>
      cases ht
      exact stepAnswers_put hput rfl rfl rfl rfl (h.files_frame rfl (.advance rfl hput rfl)) (.nameless [])
    | cons req reqs =>
      rw [readUpload_first] at ht
      by_cases hold : (s.store.findFile req.filename).isSome = true
      · rw [if_pos hold] at ht
        cases ht
        exact stepAnswers_put hput rfl rfl rfl rfl (h.files_frame rfl (.advance rfl hput rfl))
          (.fileExists _ _ ((h.isSome_iff req.filename).mpr hold))
      · rw [if_neg hold] at ht
        simp only at ht
        split at ht
        · next hempty =>
          cases ht
          rw [String.isEmpty_iff] at hempty
          refine stepAnswers_put hput rfl rfl rfl rfl (h.files_frame rfl (.advance rfl hput rfl)) ?_
          have hop : PutCall.op ⟨req :: reqs, chunks, .started⟩ = .put "" (uploadData (req :: reqs)) := by
            rw [PutCall.op, uploadName, hempty]
          simp only [PutCall.answer, hop]
          exact .nameless _
        · cases ht
          exact stepAnswers_put hput rfl rfl rfl rfl (h.files_frame rfl (.advance rfl hput rfl)) rfl
  · cases ht

/-- An upload fails past the checks. -/
theorem putInternal_answers {u : System} {k : Nat} (call : PutCall) {status : Status} (h : AnswersRecorded s)
    (hput : s.puts k = some call) (hacc : call.phase.isAccepted) (hu : u.puts = s.puts)
    (hdeletes : u.deletes = s.deletes) (hlog : u.log = s.log) (hcode : status.code = .internal) :
    StepAnswers fileCalls FileSpec s (u.setPut k { call with phase := .answered status {} }) s.files
      (u.setPut k { call with phase := .answered status {} }).files := by
  have hnew : call.answer = none := by
    rw [PutCall.answer]
    cases hphase : call.phase with
    | answered status response =>
      rw [hphase] at hacc
      cases hacc
    | _ => rfl
  have hputs : (u.setPut k { call with phase := .answered status {} }).puts =
      Function.update s.puts k (some { call with phase := .answered status {} }) := by
    rw [System.setPut, hu]
  have hfiles : (u.setPut k { call with phase := .answered status {} }).files = s.files :=
    h.files_frame hlog (.advance hputs hput rfl)
  exact stepAnswers_put hput hu hdeletes rfl hnew hfiles
    (.failed _ _ status (h.named k call hput hacc) hcode)

theorem putSelect_answers {k : Nat} {order : List Int32} (h : AnswersRecorded s)
    (ht : s.putSelect k order = some t) : StepAnswers fileCalls FileSpec s t s.files t.files := by
  unfold System.putSelect at ht
  split at ht
  · next messages chunks chunkId hput =>
    split at ht
    · simp only at ht
      split at ht
      · cases ht
        exact putInternal_answers ⟨messages, chunks, .drawn chunkId⟩ h hput rfl rfl rfl rfl rfl
      · cases ht
        exact stepAnswers_put hput rfl rfl rfl rfl (h.files_frame rfl (.advance rfl hput rfl)) rfl
    · cases ht
  · cases ht

theorem combineStatuses_code {nodeIds : List Int32} {statuses : List Status}
    (h : (combineStatuses nodeIds statuses).isOk = false) :
    (combineStatuses nodeIds statuses).code = .internal := by
  rw [combineStatuses] at h ⊢
  split
  · next hall =>
    rw [if_pos hall] at h
    cases h
  · rfl

theorem putJoin_answers {k : Nat} (h : AnswersRecorded s) (ht : s.putJoin k = some t) :
    StepAnswers fileCalls FileSpec s t s.files t.files := by
  unfold System.putJoin at ht
  split at ht
  · next messages chunks chunkId nodeIds results hput =>
    split at ht
    · simp only at ht
      split at ht
      · next hfail =>
        cases ht
        exact putInternal_answers ⟨messages, chunks, .placed chunkId nodeIds results⟩ h hput rfl rfl
          rfl rfl (combineStatuses_code (by simpa using hfail))
      · cases ht
        exact stepAnswers_put hput rfl rfl rfl rfl (h.files_frame rfl (.advance rfl hput rfl)) rfl
    · cases ht
  · cases ht

/-- **A commit** stores the file. -/
theorem putCommit_answers {k : Nat} (h : AnswersRecorded s) (ht : s.putCommit k = some t) :
    StepAnswers fileCalls FileSpec s t s.files t.files := by
  unfold System.putCommit at ht
  split at ht
  · next messages chunks hput hpass =>
    split at ht
    · cases ht
    · cases ht
      have hfiles : ∀ {u : System}, u.puts = Function.update s.puts k (some
          ⟨messages, chunks, .answered Status.OK { success := true }⟩) →
          u.log = .committed k (uploadName messages) (s.store.findFile (uploadName messages)).isSome :: s.log →
            u.files = Function.update s.files (uploadName messages) (some (uploadData messages)) := by
        intro u hputs hlog
        funext path
        by_cases hpath : path = uploadName messages
        · rw [hpath, Function.update_self, System.files, hlog, lastWrite_committed k _ s.log rfl]
          simp only [hputs, Function.update_self, Option.map_some]
        · rw [Function.update_of_ne hpath]
          refine h.files_eq (.advance hputs hput rfl) ?_
          rw [hlog, lastWrite_committed_ne k _ s.log hpath]
      exact stepAnswers_put hput rfl rfl rfl rfl (hfiles rfl rfl) (.stored _ _ (h.named k _ hput rfl))
  · cases ht

theorem deleteCheck_answers {d : Nat} (h : AnswersRecorded s) (ht : s.deleteCheck d = some t) :
    StepAnswers fileCalls FileSpec s t s.files t.files := by
  unfold System.deleteCheck at ht
  split at ht
  · next path hdel hpass =>
    cases hfile : s.store.findFile path with
    | none =>
      simp only [MetadataStore.getFile, hfile, Option.isNone_none, if_true, Option.some.injEq] at ht
      subst ht
      exact stepAnswers_delete hdel rfl rfl rfl rfl (h.files_frame rfl (.of_eq rfl))
        (.notFound path ((h.none_iff path).mpr hfile))
    | some fileMeta =>
      simp only [MetadataStore.getFile, hfile, Option.isNone_some, Bool.false_eq_true, if_false,
        Option.some.injEq] at ht
      subst ht
      exact stepAnswers_delete hdel rfl rfl rfl rfl (h.files_frame rfl (.of_eq rfl)) rfl
  · cases ht

/-- **`deletePath`** removes the file, if there is one. -/
theorem deletePath_answers {d : Nat} {now : TimePoint} (h : AnswersRecorded s)
    (ht : s.deletePath d now = some t) : StepAnswers fileCalls FileSpec s t s.files t.files := by
  unfold System.deletePath at ht
  split at ht
  · next path hdel hpass =>
    split at ht
    · cases ht
      have hfiles : ∀ {u : System}, u.puts = s.puts →
          u.log = .deletedPath path (s.store.findFile path).isSome :: s.log →
            u.files = Function.update s.files path none := by
        intro u hputs hlog
        funext p
        by_cases hp : p = path
        · rw [hp, Function.update_self, System.files, hlog, lastWrite_deletedPath]
        · rw [Function.update_of_ne hp]
          refine h.files_eq (.of_eq hputs) ?_
          rw [hlog, lastWrite_deletedPath_ne _ s.log hp]
      exact stepAnswers_delete hdel rfl rfl rfl rfl (hfiles rfl rfl) (.deleted path)
    · cases ht
  · cases ht

theorem startPut_answers {k : Nat} {messages : List PutFileRequest} (h : AnswersRecorded s)
    (ht : s.startPut k messages = some t) : StepAnswers fileCalls FileSpec s t s.files t.files := by
  unfold System.startPut at ht
  split at ht
  · cases ht
  · next hput =>
    cases ht
    refine stepAnswers_none h rfl (.update rfl fun old hput' => ?_) (fun i op hop => ?_) ?_
    · rw [hput] at hput'
      cases hput'
    · cases i with
      | delete d => exact hop
      | put j =>
        have hj : j ≠ k := by
          rintro rfl
          change (s.puts j).map _ = some op at hop
          rw [hput] at hop
          cases hop
        change ((s.setPut k _).puts j).map _ = some op
        rw [setPut_puts_ne hj]
        exact hop
    · rw [answered_setPut]
      refine Function.update_eq_self_iff.mpr ?_
      rw [System.answered, hput]
      rfl

theorem startDelete_answers {d : Nat} {path : String} (h : AnswersRecorded s)
    (ht : s.startDelete d path = some t) : StepAnswers fileCalls FileSpec s t s.files t.files := by
  unfold System.startDelete at ht
  split at ht
  · cases ht
  · next hdel =>
    cases ht
    refine stepAnswers_none h rfl (.of_eq rfl) (fun i op hop => ?_) ?_
    · cases i with
      | put k => exact hop
      | delete j =>
        have hj : j ≠ d := by
          rintro rfl
          change (s.deletes j).map _ = some op at hop
          rw [hdel] at hop
          cases hop
        change ((s.setDelete d _).deletes j).map _ = some op
        rw [setDelete_deletes_ne hj]
        exact hop
    · rw [answered_setDelete]
      refine Function.update_eq_self_iff.mpr ?_
      rw [System.answered, hdel]
      rfl

/-- The other handlers work on no file. -/
theorem stepAnswers_other (h : AnswersRecorded s) (hputs : t.puts = s.puts) (hdeletes : t.deletes = s.deletes)
    (hlog : t.log = s.log) : StepAnswers fileCalls FileSpec s t s.files t.files := by
  refine stepAnswers_none h hlog (.of_eq hputs) (fun i op hop => ?_) (answered_congr hputs hdeletes)
  change t.asked i = some op
  rw [asked_congr hputs hdeletes]
  exact hop

/-- **Every step** answers one upload or deletion as specified, or none. -/
theorem step_answers {a : Action} (h : AnswersRecorded s) (ht : s.step config a = some t) :
    StepAnswers fileCalls FileSpec s t s.files t.files := by
  cases a with
  | startPut k messages => exact startPut_answers h ht
  | putCheck k => exact putCheck_answers h ht
  | putSelect k order => exact putSelect_answers h ht
  | putJoin k => exact putJoin_answers h ht
  | putCommit k => exact putCommit_answers h ht
  | startDelete d path => exact startDelete_answers h ht
  | deleteCheck d => exact deleteCheck_answers h ht
  | deletePath d now => exact deletePath_answers h ht
  | putDraw k =>
    simp only [System.step, System.putDraw] at ht
    split at ht
    · next messages chunks hput =>
      split at ht
      · cases ht
        exact stepAnswers_put hput rfl rfl rfl rfl (h.files_frame rfl (.advance rfl hput rfl)) rfl
      · cases ht
    · cases ht
  | putStore k j fault =>
    simp only [System.step, System.putStore] at ht
    split at ht
    · next messages chunks chunkId nodeIds results hput =>
      split at ht
      · cases ht
        exact stepAnswers_put hput rfl rfl rfl rfl (h.files_frame rfl (.advance rfl hput rfl)) rfl
      · cases ht
    · cases ht
  | tick e | unregister nodeId =>
    cases ht
    exact stepAnswers_other h rfl rfl rfl
  | startRegister r peer port | registerScan r | registerDraw r | registerInsert r =>
    simp only [System.step, System.startRegister, System.registerScan, System.registerDraw,
      System.registerInsert] at ht
    refine stepAnswers_other h ?_ ?_ ?_ <;> grind [System.setRegister]
  | cleanupBegin | cleanupDelete fault | cleanupEnd =>
    simp only [System.step, System.cleanupBegin, System.cleanupDelete, System.cleanupEnd] at ht
    refine stepAnswers_other h ?_ ?_ ?_ <;> grind

/-! ## The checks -/

/-- What `PutFile` and `DeleteFile` look for first. -/
def Ready (files : Files) : FileOp → Prop
  | .put filename _ => files filename = none
  | .delete filename => (files filename).isSome

def PutPhase.passed : PutPhase → Bool
  | .started => false
  | .answered status _ => status.isOk
  | _ => true

def DeletePhase.passed : DeletePhase → Bool
  | .started => false
  | .checked => true
  | .answered status _ => status.isOk

def FileAnswer.isOk : FileAnswer → Bool
  | .put status _ | .delete status _ => status.isOk

/-- The call got past its check. -/
def System.passed (s : System) : FileCall → Prop
  | .put h => ∃ call, s.puts h = some call ∧ call.phase.passed
  | .delete d => ∃ call, s.deletes d = some call ∧ call.phase.passed

/-- The call is about this, and gets past its check with the next step. -/
structure Passing (i : FileCall) (op : FileOp) (s : System) : Prop where
  asked : s.asked i = some op
  notAnswered : s.answered i = none
  ready : Ready s.files op

theorem passing_put {k : Nat} {call : PutCall} (hput : s.puts k = some call) (hphase : call.phase = .started)
    (hfree : s.files (uploadName call.messages) = none) : Passing (.put k) call.op s := by
  refine ⟨?_, ?_, hfree⟩
  · rw [System.asked, hput]
    rfl
  · rw [System.answered, hput, Option.bind_some, PutCall.answer, hphase]

theorem put_passed {a : Action} {k : Nat} (h : AnswersRecorded s) (hm : Move config s a t)
    (hpassed : t.passed (.put k)) : s.passed (.put k) ∨ ∃ op, Passing (.put k) op s := by
  obtain ⟨call', hput', hphase'⟩ := hpassed
  have hsame : s.puts k = some call' → s.passed (.put k) := fun hput => ⟨call', hput, hphase'⟩
  -- a step of upload `j`, which was past its check before
  have hstep : ∀ {j : Nat} {old call : PutCall}, s.puts j = some old → old.phase.passed →
      Function.update s.puts j (some call) k = some call' → s.passed (.put k) := by
    intro j old call hput hold hupdate
    rcases update_some_iff.mp hupdate with ⟨rfl, -⟩ | ⟨-, hput'⟩
    · exact ⟨old, hput, hold⟩
    · exact hsame hput'
  cases hm with
  | putStarted j messages hput =>
    rcases update_some_iff.mp hput' with ⟨-, rfl⟩ | ⟨-, hput'⟩
    · cases hphase'
    · exact .inl (hsame hput')
  | putFailed j call status store nextNodeIndex hput hprog hstatus hstore =>
    rcases update_some_iff.mp hput' with ⟨-, rfl⟩ | ⟨-, hput'⟩
    · rw [PutPhase.passed, hstatus] at hphase'
      cases hphase'
    · exact .inl (hsame hput')
  | putAccepted j call store hput hphase hacc hstore =>
    rcases update_some_iff.mp hput' with ⟨rfl, -⟩ | ⟨-, hput'⟩
    · exact .inr ⟨_, passing_put hput hphase ((h.none_iff _).mpr hacc.2)⟩
    · exact .inl (hsame hput')
  | putDrawn j call hput hphase hlt => exact .inl (hstep hput (by rw [hphase]; rfl) hput')
  | putPlaced j order call chunkId hput hphase horder hne =>
    exact .inl (hstep hput (by rw [hphase]; rfl) hput')
  | putStored j i call chunkId nodeIds results fault hput hphase hj hnew =>
    exact .inl (hstep hput (by rw [hphase]; rfl) hput')
  | putChunkDone j call chunkId nodeIds results hput hphase hok =>
    exact .inl (hstep hput (by rw [hphase]; rfl) hput')
  | putCommitted j call hput hpass hphase hlen => exact .inl (hstep hput (by rw [hphase]; rfl) hput')
  | _ => exact .inl (hsame hput')

theorem delete_passed {a : Action} {d : Nat} (h : AnswersRecorded s) (ht : s.step config a = some t)
    (hpassed : t.passed (.delete d)) : s.passed (.delete d) ∨ ∃ op, Passing (.delete d) op s := by
  obtain ⟨call, hdel, hphase⟩ := hpassed
  by_cases hown : a.call? = some (.delete d)
  · cases a with
    | deleteCheck e =>
      cases hown
      simp only [System.step, System.deleteCheck] at ht
      split at ht
      · next path hold hpass =>
        cases hfile : s.store.findFile path with
        | none =>
          simp only [MetadataStore.getFile, hfile, Option.isNone_none, if_true, Option.some.injEq] at ht
          subst ht
          rcases update_some_iff.mp hdel with ⟨-, rfl⟩ | ⟨hne, -⟩
          · cases hphase
          · exact absurd rfl hne
        | some fileMeta =>
          refine .inr ⟨.delete path, ?_, ?_, ?_⟩
          · rw [System.asked, hold]
            rfl
          · rw [System.answered, hold]
            rfl
          · exact (h.isSome_iff path).mpr (by rw [hfile]; rfl)
      · cases ht
    | deletePath e now =>
      cases hown
      simp only [System.step, System.deletePath] at ht
      split at ht
      · next path hold hpass => exact .inl ⟨_, hold, rfl⟩
      · cases ht
    | _ => cases hown
  · rcases deletes_of_step_back ht hown hdel with hold | hstarted
    · exact .inl ⟨call, hold, hphase⟩
    · rw [hstarted] at hphase
      cases hphase

theorem asked_of_passed {i : FileCall} (h : s.passed i) : ∃ op, s.asked i = some op := by
  cases i with
  | put k =>
    obtain ⟨call, hput, -⟩ := h
    exact ⟨_, by rw [System.asked, hput]; rfl⟩
  | delete d =>
    obtain ⟨call, hdel, -⟩ := h
    exact ⟨_, by rw [System.asked, hdel]; rfl⟩

theorem step_passed {a : Action} {i : FileCall} (h : AnswersRecorded s) (ht : s.step config a = some t)
    (hpassed : t.passed i) : s.passed i ∨ ∃ op, Passing i op s := by
  cases i with
  | put k => exact put_passed h (step_move ht) hpassed
  | delete d => exact delete_passed h ht hpassed

theorem keepsAsked_step {a : Action} (h : AnswersRecorded s) (ht : s.step config a = some t) :
    KeepsAsked fileCalls s t := by
  cases step_answers h ht with
  | none hasked => exact hasked
  | one hasked => exact hasked

theorem passed_of_isOk {i : FileCall} {answer : FileAnswer} (hanswer : s.answered i = some answer)
    (hok : answer.isOk) : s.passed i := by
  cases i with
  | put k =>
    obtain ⟨call, hput, hcall⟩ := Option.bind_eq_some_iff.mp hanswer
    refine ⟨call, hput, ?_⟩
    rw [PutCall.answer] at hcall
    split at hcall
    · next status response hphase =>
      cases hcall
      rw [hphase]
      exact hok
    · cases hcall
  | delete d =>
    obtain ⟨call, hdel, hcall⟩ := Option.bind_eq_some_iff.mp hanswer
    refine ⟨call, hdel, ?_⟩
    rw [DeleteCall.answer] at hcall
    split at hcall
    · next status response hphase =>
      cases hcall
      rw [hphase]
      exact hok
    · cases hcall

end

/-! ## Top theorem -/

/-- The answered uploads and deletions of a run, in an order they could have been made in
one by one. -/
structure CallOrder (config : Endpoint → DataNodeConfig) (start : System) (as : List Action) (s : System)
    (points : List (Point FileCall FileOp FileAnswer)) : Prop where
  orders : Orders fileCalls FileSpec (fun _ => none) s points s.files
  realTime : RealTime fileCalls (System.step config) start as points
  /-- what was answered OK, was fit to be at some time during the call -/
  checked : ∀ i op answer, s.asked i = some op → s.answered i = some answer → answer.isOk →
    ∃ before after u, as = before ++ after ∧ exec (System.step config) start before = some u ∧
      Passing i op u
  /-- the names in use are those of the store -/
  names : ∀ path, (s.files path).isSome ↔ (s.store.findFile path).isSome

/-- **One after another.** -/
theorem callOrder (config : Endpoint → DataNodeConfig) (disks : Disks) (as : List Action) (s : System)
    (hrun : exec (System.step config) (.start disks) as = some s) :
    ∃ points, CallOrder config (.start disks) as s points := by
  have hnone : ∀ i, (System.start disks).answered i = none := by
    intro i
    cases i <;> rfl
  obtain ⟨points, files, ⟨hrecorded, rfl⟩, horders, hreal⟩ := linearizable
    (R := fun s files => AnswersRecorded s ∧ s.files = files)
    (fun s a t files hR ht => by
      obtain ⟨hrecorded, rfl⟩ := hR
      exact ⟨t.files, ⟨answersRecorded_move (step_move ht) hrecorded, rfl⟩, step_answers hrecorded ht⟩)
    as hrun ⟨answersRecorded_start disks, rfl⟩ (orders_nil hnone)
  refine ⟨points, horders, hreal, ?_, hrecorded.isSome_iff⟩
  intro i op answer hasked hanswer hok
  refine exec_since (Q := fun s => s.passed i ∧ s.asked i = some op) (R := AnswersRecorded)
    (fun s a t ht hs => answersRecorded_move (step_move ht) hs) ?_ as hrun (answersRecorded_start disks) ?_
    ⟨passed_of_isOk hanswer hok, hasked⟩
  · rintro s a t hs ht ⟨hpassed, hasked⟩
    have hback : ∀ op', s.asked i = some op' → op' = op := by
      intro op' hop
      have hkept : t.asked i = some op' := keepsAsked_step hs ht i op' hop
      rw [hasked] at hkept
      exact (Option.some.inj hkept).symm
    rcases step_passed hs ht hpassed with hold | ⟨op', hpassing⟩
    · obtain ⟨op', hop⟩ := asked_of_passed hold
      exact .inl ⟨hold, hback op' hop ▸ hop⟩
    · rw [← hback op' hpassing.asked]
      exact .inr hpassing
  · rintro ⟨-, hstart⟩
    cases i <;> cases hstart

/-- Two uploads under one name, and a deletion that comes in between. -/
def racingCalls : List Action :=
  [.startPut 0 [⟨"f", []⟩], .startPut 1 [⟨"f", []⟩], .putCheck 0, .putCheck 1, .putCommit 0,
    .startDelete 0 "f", .deleteCheck 0, .putCommit 1, .deletePath 0 0]

theorem callOrder_racingCalls : ∃ s points,
    exec (System.step plainConfig) (.start fun _ _ => none) racingCalls = some s ∧
      CallOrder plainConfig (.start fun _ _ => none) racingCalls s points := by
  have hrun : (exec (System.step plainConfig) (.start fun _ _ => none) racingCalls).isSome = true := by
    decide
  obtain ⟨s, hs⟩ := Option.isSome_iff_exists.mp hrun
  obtain ⟨points, horder⟩ := callOrder plainConfig (fun _ _ => none) racingCalls s hs
  exact ⟨s, points, hs, horder⟩

end ToyDfs
