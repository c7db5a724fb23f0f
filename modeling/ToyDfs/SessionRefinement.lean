import ToyDfs.Session
import ToyDfs.UploadOutcomes

/-!
Sessions are answered as permitted.

`System.files` tells the files of a system from the commits and deletions of its run.
Between two calls of a session the deployment is the cluster of such a system, in which
no call is under way (`Quiet`).  Each call is the steps of its handler, one after another,
so it leads from one quiet system to the next (`Quiet.putFile`, `Quiet.deleteFile`, ...).

`session_permitted` puts them together.
-/

namespace ToyDfs

open Transition Simulation

/-! ## The files of a system -/

/-- What the last commit under each name uploaded. -/
def System.files (s : System) : Files := fun path =>
  match lastWrite path s.log with
  | some (some h) => (s.puts h).map fun call => uploadData call.messages
  | _ => none

section
variable {config : Endpoint → DataNodeConfig} {s t : System}

/-- What is known of a file. -/
theorem file_cases (hdata : DataInv config s) (path : String) :
    (s.files path = none ∧ s.store.findFile path = none ∧ ∀ h, lastWrite path s.log ≠ some (some h)) ∨
    ∃ h call, lastWrite path s.log = some (some h) ∧ s.puts h = some call ∧
      s.files path = some (uploadData call.messages) ∧ (s.store.findFile path).isSome := by
  have hentry := hdata.entries path
  rcases hlast : lastWrite path s.log with _ | _ | h
  · rw [hlast] at hentry
    exact .inl ⟨by rw [System.files, hlast], hentry, fun h hne => by cases hne⟩
  · rw [hlast] at hentry
    exact .inl ⟨by rw [System.files, hlast], hentry, fun h hne => by cases hne⟩
  · rw [hlast] at hentry
    obtain ⟨call, hput, -, -, -, hfile, -⟩ := hentry
    refine .inr ⟨h, call, rfl, hput, ?_, ?_⟩
    · rw [System.files, hlast]
      simp only [hput, Option.map_some]
    · rw [hfile]
      rfl

theorem files_eq_none_iff (hdata : DataInv config s) (path : String) :
    s.files path = none ↔ s.store.findFile path = none := by
  rcases file_cases hdata path with ⟨hfiles, hfind, -⟩ | ⟨h, call, -, -, hfiles, hfind⟩
  · exact iff_of_true hfiles hfind
  · refine iff_of_false (fun he => ?_) (fun he => ?_)
    · cases hfiles.symm.trans he
    · rw [he] at hfind
      cases hfind

/-- A name that is not written keeps its content. -/
theorem files_kept (hdata : DataInv config s) (hputs : ∀ k call, s.puts k = some call → t.puts k = some call)
    {path : String} (hlast : lastWrite path t.log = lastWrite path s.log) : t.files path = s.files path := by
  rcases file_cases hdata path with ⟨hfiles, -, hnone⟩ | ⟨h, call, hwrite, hput, hfiles, -⟩
  · rw [hfiles, System.files, hlast]
    rcases hw : lastWrite path s.log with _ | _ | h
    · rfl
    · rfl
    · exact absurd hw (hnone h)
  · rw [hfiles, System.files, hlast, hwrite]
    simp only [hputs h call hput, Option.map_some]

end

/-! ## Between two calls -/

/-- The system has this cluster, clock and files, and no call is under way. -/
structure Quiet (config : Endpoint → DataNodeConfig) (c : Cluster) (clock chunkIds nodeIds : Nat)
    (files : Files) (s : System) : Prop where
  reachable : Reachable (System.step config) Initial Honest s
  cluster : s.toCluster = c
  clock : s.clock = clock
  idle : s.pass = none
  fresh : ∃ n, ∀ k, n ≤ k → s.puts k = none ∧ s.deletes k = none ∧ s.registers k = none
  chunkIds : s.chunkIdsDrawn ≤ chunkIds
  nodeIds : s.nodeIdsDrawn ≤ nodeIds
  files : s.files = files
  small : ∀ path content, s.files path = some content → content.length ≤ 2 ^ 31

section
variable {config : Endpoint → DataNodeConfig} {own : Action → Prop} {c : Cluster}
  {clock chunkIds nodeIds : Nat} {files : Files} {s t : System}

theorem Quiet.dataInv (h : Quiet config c clock chunkIds nodeIds files s) (hm : chunkIds < 2 ^ 64)
    (hn : nodeIds < 2 ^ 31 - 1) : DataInv config s :=
  dataInv_of_reachable (fun _ _ h => h) h.reachable
    ⟨Nat.lt_of_le_of_lt h.chunkIds hm, Nat.lt_of_le_of_lt h.nodeIds hn⟩

theorem Quiet.mono (h : Quiet config c clock chunkIds nodeIds files s) {chunkIds' nodeIds' : Nat}
    (hm : chunkIds ≤ chunkIds') (hn : nodeIds ≤ nodeIds') : Quiet config c clock chunkIds' nodeIds' files s :=
  { h with chunkIds := Nat.le_trans h.chunkIds hm, nodeIds := Nat.le_trans h.nodeIds hn }

/-- The clock can be read at any later time. -/
theorem exists_tick (config : Endpoint → DataNodeConfig) (s : System) {now : TimePoint} (h : s.clock ≤ now) :
    ∃ d, s.step config (.tick d) = some { s with clock := now } := by
  refine ⟨(now - s.clock).toNat, ?_⟩
  rw [System.step, Int.toNat_of_nonneg (Int.sub_nonneg.mpr h), add_sub_cancel]

/-- **An upload between two quiet states.** -/
theorem Quiet.putFile (h : Quiet config c clock chunkIds nodeIds files s) (hm : chunkIds < 2 ^ 64)
    (hn : nodeIds < 2 ^ 31 - 1) (env : PutEnv) (henv : ∀ i r, env.change i r = r)
    (hfault : ∀ i j, (env.fault i j).Complete) (reader : ServerReader PutFileRequest)
    (hsize : (uploadData reader.messages).length ≤ 2 ^ 31) :
    ∃ t, Quiet config (ToyDfs.putFile config env reader c).2.2 clock
      (chunkIds + chunkCount (uploadData reader.messages)) nodeIds
      (if (ToyDfs.putFile config env reader c).1.isOk
        then Function.update files (uploadName reader.messages) (some (uploadData reader.messages))
        else files) t := by
  have hdata := h.dataInv hm hn
  obtain ⟨hreach, rfl, hclock, hidle, ⟨k, hfresh⟩, hchunks, hnodes, rfl, hsmall⟩ := h
  have hnew := (hfresh k (Nat.le_refl k)).1
  let u := s.setPut k { messages := reader.messages }
  let r := ToyDfs.putFile config env reader s.toCluster
  have hstart : s.step config (.startPut k reader.messages) = some u := by
    simp only [System.step, System.startPut, hnew, u]
  obtain ⟨chunks, drawn, log, hdrawn, hlog, hrun⟩ := @run_putFile config env u k henv reader
    (Function.update_self ..) hidle
  have hown : ∀ a, Action.ofPut env k a → ∀ v, Honest v a := by
    intro a ha v
    cases a with
    | putStore i j fault =>
      obtain ⟨-, i', j', rfl⟩ := ha
      exact hfault i' j'
    | _ => trivial
  let t := u.atPut k r.2.2 drawn log ⟨reader.messages, chunks, .answered r.1 r.2.1⟩
  have hputs : ∀ j, j ≠ k → t.puts j = s.puts j := fun j hj =>
    (Function.update_of_ne hj ..).trans (Function.update_of_ne hj ..)
  have hold : ∀ j call, s.puts j = some call → t.puts j = some call := by
    intro j call hput
    have hj : j ≠ k := by
      rintro rfl
      rw [hnew] at hput
      cases hput
    rw [hputs j hj, hput]
  have hfiles : t.files = if r.1.isOk
      then Function.update s.files (uploadName reader.messages) (some (uploadData reader.messages))
      else s.files := by
    change PutLog k (uploadName reader.messages) r.1 s.log log at hlog
    rw [PutLog] at hlog
    split at hlog
    · next hok =>
      obtain ⟨replaced, rfl⟩ := hlog
      rw [if_pos hok]
      funext path
      by_cases hpath : path = uploadName reader.messages
      · rw [System.files, hpath, Function.update_self]
        have hlast : lastWrite (uploadName reader.messages) t.log = some (some k) :=
          lastWrite_committed k replaced s.log rfl
        have hput : t.puts k = some ⟨reader.messages, chunks, .answered r.1 r.2.1⟩ := puts_atPut
        rw [hlast]
        simp only [hput, Option.map_some]
      · rw [Function.update_of_ne hpath]
        exact files_kept hdata hold (lastWrite_committed_ne k replaced s.log hpath)
    · next hnot =>
      subst hlog
      rw [if_neg hnot]
      funext path
      exact files_kept hdata hold rfl
  refine ⟨t, reachable_of_runsTo (.step (.startPut k reader.messages) hreach trivial hstart) hrun hown,
    rfl, hclock, hidle,
    ⟨k + 1, fun j hj => ⟨(hputs j (by omega)).trans (hfresh j (by omega)).1, (hfresh j (by omega)).2⟩⟩,
    Nat.le_trans hdrawn (Nat.add_le_add_right hchunks _), hnodes, hfiles, ?_⟩
  intro path content hfile
  rw [hfiles] at hfile
  split at hfile
  · by_cases hpath : path = uploadName reader.messages
    · rw [hpath, Function.update_self] at hfile
      cases hfile
      exact hsize
    · rw [Function.update_of_ne hpath] at hfile
      exact hsmall path content hfile
  · exact hsmall path content hfile

/-- **A deletion between two quiet states.** -/
theorem Quiet.deleteFile (h : Quiet config c clock chunkIds nodeIds files s) (hm : chunkIds < 2 ^ 64)
    (hn : nodeIds < 2 ^ 31 - 1) (path : String) (delay : Nat) :
    let r := ToyDfs.deleteFile path clock (clock + delay : Nat) c
    ∃ t, Quiet config r.2.2 (clock + delay) chunkIds nodeIds
      (if r.1.isOk then Function.update files path none else files) t := by
  have hdata := h.dataInv hm hn
  obtain ⟨hreach, rfl, hclock, hidle, ⟨k, hfresh⟩, hchunks, hnodes, rfl, hsmall⟩ := h
  rw [← hclock]
  have hnew := (hfresh k (Nat.le_refl k)).2.1
  let u := s.setDelete k { path := path }
  let r := ToyDfs.deleteFile path s.clock (clock + delay : Nat) s.toCluster
  have hstart : s.step config (.startDelete k path) = some u := by
    simp only [System.step, System.startDelete, hnew, u]
  have hnow : s.clock ≤ (clock + delay : Nat) := hclock ▸ Int.ofNat_le.mpr (Nat.le_add_right clock delay)
  obtain ⟨clock', log, -, hle, hlog, hrun⟩ := @run_deleteFile config u k path _
    (Function.update_self ..) hidle hnow
  have hown : ∀ a, Action.ofDelete k a → ∀ v, Honest v a := by
    intro a ha v
    cases a with
    | putStore => cases ha
    | _ => trivial
  let t : System := { u with toCluster := r.2.2, clock := (clock + delay : Nat), log := log }.setDelete k
    ⟨path, .answered r.1 r.2.1⟩
  obtain ⟨d, htick⟩ := exists_tick config
    ({ u with toCluster := r.2.2, clock := clock', log := log }.setDelete k ⟨path, .answered r.1 r.2.1⟩) hle
  have hreach' : Reachable (System.step config) Initial Honest t :=
    .step (.tick d) (reachable_of_runsTo (.step (.startDelete k path) hreach trivial hstart) hrun hown)
      trivial htick
  have hfiles : t.files = if r.1.isOk then Function.update s.files path none else s.files := by
    change DeleteLog path r.1 s.log log at hlog
    rw [DeleteLog] at hlog
    split at hlog
    · next hok =>
      obtain ⟨found, rfl⟩ := hlog
      rw [if_pos hok]
      funext p
      by_cases hp : p = path
      · have hlast : lastWrite p t.log = some none := hp ▸ lastWrite_deletedPath path found s.log
        rw [System.files, hlast, hp, Function.update_self]
      · rw [Function.update_of_ne hp]
        exact files_kept (t := t) hdata (fun _ _ hput => hput) (lastWrite_deletedPath_ne found s.log hp)
    · next hnot =>
      subst hlog
      rw [if_neg hnot]
      funext p
      exact files_kept (t := t) hdata (fun _ _ hput => hput) rfl
  refine ⟨t, hreach', rfl, rfl, hidle, ⟨k + 1, fun j hj => ⟨(hfresh j (by omega)).1, ?_,
    (hfresh j (by omega)).2.2⟩⟩, hchunks, hnodes, hfiles, ?_⟩
  · have hj' : j ≠ k := by omega
    exact ((Function.update_of_ne hj' ..).trans (Function.update_of_ne hj' ..)).trans (hfresh j (by omega)).2.1
  · intro p content hfile
    rw [hfiles] at hfile
    split at hfile
    · by_cases hp : p = path
      · rw [hp, Function.update_self] at hfile
        cases hfile
      · rw [Function.update_of_ne hp] at hfile
        exact hsmall p content hfile
    · exact hsmall p content hfile

/-- The store was looked at. -/
theorem Quiet.lookup (h : Quiet config c clock chunkIds nodeIds files s) (hm : chunkIds < 2 ^ 64)
    (hn : nodeIds < 2 ^ 31 - 1) (path : String) :
    ∃ t, Quiet config { c with store := (c.store.getFile path).2 } clock chunkIds nodeIds files t := by
  cases hfile : c.store.findFile path with
  | none =>
    -- a `DeleteFile` that finds nothing
    obtain ⟨t, ht⟩ := h.deleteFile hm hn path 0
    have hrun : ToyDfs.deleteFile path clock (clock + 0 : Nat) c =
        (fileNotFound, {}, { c with store := (c.store.getFile path).2 }) := by
      rw [ToyDfs.deleteFile]
      simp only [MetadataStore.getFile, hfile, Option.isNone_none, if_true]
    rw [hrun] at ht
    exact ⟨t, ht⟩
  | some fileMeta =>
    -- a `PutFile` of a file that exists
    have hcomplete : ∀ i j : Nat, ((fun _ _ => {} : Nat → Nat → PutFault) i j).Complete :=
      fun _ _ _ _ => ⟨rfl, rfl⟩
    obtain ⟨t, ht⟩ := h.putFile hm hn (PutEnv.inOrder fun _ _ => {}) (fun _ _ => rfl) hcomplete
      { messages := [⟨path, []⟩] } (Nat.zero_le _)
    have hrun : ToyDfs.putFile config (PutEnv.inOrder fun _ _ => {}) { messages := [⟨path, []⟩] } c =
        ({ code := .alreadyExists, errorMessage := "File exists" }, {},
          { c with store := (c.store.getFile path).2 }) := by
      rw [putFile_def, readUpload_first]
      simp only [hfile, Option.isSome_some, if_true]
    have hzero : chunkCount [] = 0 := by decide
    rw [hrun, show uploadData [PutFileRequest.mk path []] = [] from rfl, hzero] at ht
    exact ⟨t, ht⟩

theorem Quiet.registerDataNode (h : Quiet config c clock chunkIds nodeIds files s) (peer : String)
    (port : Int32) :
    ∃ t, Quiet config (ToyDfs.registerDataNode peer port c).2.2 clock chunkIds (nodeIds + 1) files t := by
  obtain ⟨hreach, rfl, hclock, hidle, ⟨k, hfresh⟩, hchunks, hnodes, rfl, hsmall⟩ := h
  have hnew := (hfresh k (Nat.le_refl k)).2.2
  let u := s.setRegister k { endpoint := ⟨extractClientAddress peer, port⟩ }
  have hstart : s.step config (.startRegister k peer port) = some u := by
    simp only [System.step, System.startRegister, hnew, u]
  obtain ⟨drawn, home, hdrawn, hrun⟩ := @run_registerDataNode config u k peer port (Function.update_self ..)
  have hown : ∀ a, Action.ofRegister k a → ∀ v, Honest v a := by
    intro a ha v
    cases a with
    | putStore => cases ha
    | _ => trivial
  refine ⟨_, reachable_of_runsTo (.step (.startRegister k peer port) hreach trivial hstart) hrun hown, rfl,
    hclock, hidle, ⟨k + 1, fun j hj => ⟨(hfresh j (by omega)).1, (hfresh j (by omega)).2.1, ?_⟩⟩, hchunks,
    Nat.le_trans hdrawn (Nat.add_le_add_right hnodes 1), ?_, hsmall⟩
  · have hj' : j ≠ k := by omega
    exact ((Function.update_of_ne hj' ..).trans (Function.update_of_ne hj' ..)).trans (hfresh j (by omega)).2.2
  · rfl

theorem Quiet.unregisterDataNode (h : Quiet config c clock chunkIds nodeIds files s) (nodeId : Int32) :
    ∃ t, Quiet config (ToyDfs.unregisterDataNode nodeId c).2.2 clock chunkIds nodeIds files t := by
  obtain ⟨hreach, rfl, hclock, hidle, hfresh, hchunks, hnodes, rfl, hsmall⟩ := h
  exact ⟨s.unregister nodeId, .step (.unregister nodeId) hreach trivial rfl, rfl, hclock, hidle, hfresh,
    hchunks, hnodes, rfl, hsmall⟩

theorem Quiet.wait (h : Quiet config c clock chunkIds nodeIds files s) (d : Nat) :
    ∃ t, Quiet config c (clock + d) chunkIds nodeIds files t := by
  obtain ⟨hreach, rfl, hclock, hidle, hfresh, hchunks, hnodes, rfl, hsmall⟩ := h
  have htick : s.step config (.tick d) = some { s with clock := s.clock + d } := rfl
  exact ⟨_, .step (.tick d) hreach trivial htick, rfl, congrArg (· + (d : Int)) hclock, hidle, hfresh,
    hchunks, hnodes, rfl, hsmall⟩

/-- **A cleanup pass between two quiet states.** -/
theorem Quiet.cleanupPass (h : Quiet config c clock chunkIds nodeIds files s) {env : CleanupEnv}
    (henv : ∀ n r, env.change n r = r) (hrunning : c.running = true) :
    ∃ t, Quiet config (ToyDfs.cleanupPass config env clock c).1 clock chunkIds nodeIds files t := by
  obtain ⟨hreach, rfl, hclock, hidle, hfresh, hchunks, hnodes, rfl, hsmall⟩ := h
  obtain ⟨u, hrun, -, hend⟩ := run_cleanupPass config henv hidle hrunning
  have hown : ∀ a, Action.ofPass a → ∀ v, Honest v a := by
    intro a ha v
    cases a with
    | putStore => cases ha
    | _ => trivial
  rw [← hclock]
  exact ⟨_, .step .cleanupEnd (reachable_of_runsTo hreach hrun hown) trivial hend, rfl, hclock, hidle, hfresh,
    hchunks, hnodes, rfl, hsmall⟩

/-- A new coordinator over old disks. -/
theorem exists_quiet_start (config : Endpoint → DataNodeConfig) (disks : Disks)
    (clock chunkIds nodeIds : Nat) :
    ∃ t, Quiet config (Cluster.start disks) clock chunkIds nodeIds (fun _ => none) t := by
  obtain ⟨d, htick⟩ := exists_tick config (System.start disks) (Int.natCast_nonneg clock)
  exact ⟨_, .step (.tick d) (.init ⟨disks, rfl⟩) trivial htick, rfl, rfl, rfl,
    ⟨0, fun _ _ => ⟨rfl, rfl, rfl⟩⟩, Nat.zero_le _, Nat.zero_le _, rfl, fun _ _ hfile => nomatch hfile⟩

end

/-! ## One command -/

/-- The command is answered as permitted, and leads to a quiet state. -/
def Performs (config : Endpoint → DataNodeConfig) (buffer : Bytes) (w : Deployment) (chunkIds nodeIds : Nat)
    (files : Files) (command : Command) : Prop :=
  ∃ files', Permitted files command (w.perform config buffer command).1 files' ∧
    ∃ t, Quiet config (w.perform config buffer command).2.cluster (w.perform config buffer command).2.clock
      (chunkIds + command.chunkIds) (nodeIds + command.nodeIds) files' t

section
variable {config : Endpoint → DataNodeConfig} {buffer : Bytes} {c : Cluster} {clock chunkIds nodeIds : Nat}
  {files : Files} {s : System}

theorem Quiet.file_none_iff (h : Quiet config c clock chunkIds nodeIds files s) (hm : chunkIds < 2 ^ 64)
    (hn : nodeIds < 2 ^ 31 - 1) (path : String) : files path = none ↔ c.store.findFile path = none := by
  rw [← h.files, ← h.cluster]
  exact files_eq_none_iff (h.dataInv hm hn) path

theorem Quiet.file_isSome_iff (h : Quiet config c clock chunkIds nodeIds files s) (hm : chunkIds < 2 ^ 64)
    (hn : nodeIds < 2 ^ 31 - 1) (path : String) :
    (files path).isSome ↔ (c.store.findFile path).isSome := by
  rw [Option.isSome_iff_ne_none, Option.isSome_iff_ne_none, ne_eq, ne_eq, h.file_none_iff hm hn]

theorem chunkCount_take {content : Bytes} (h : content.length ≤ 2 ^ 31) (k : Nat) :
    chunkCount (content.take k) ≤ chunkCount content := by
  have hle : (content.take k).length ≤ content.length := List.length_take_le' k content
  rw [chunkCount_eq h, chunkCount_eq (Nat.le_trans hle h)]
  exact Nat.div_le_div_right (Nat.sub_le_sub_right (Nat.add_le_add_left hle _) 1)

/-- **Uploads.** -/
theorem performs_putFile (h : Quiet config c clock chunkIds nodeIds files s) (hm : chunkIds < 2 ^ 64)
    (hn : nodeIds < 2 ^ 31 - 1) {file : Option Bytes} {filename : String} {stream : UploadStream}
    {env : PutEnv} (hsound : (Command.putFile file filename stream env).Sound) :
    Performs config buffer ⟨c, clock⟩ chunkIds nodeIds files (.putFile file filename stream env) := by
  obtain ⟨henv, hfault, hfile⟩ := hsound
  cases file with
  | none => exact ⟨files, .notOpened filename stream env, s, h⟩
  | some content =>
    obtain ⟨hsize, hfinish⟩ := hfile content rfl
    rcases uploadFile_cases config env stream hfinish buffer filename content c with
      ⟨hintact, hupload⟩ | ⟨hbroken, e, k, hupload⟩
    · let reader : ServerReader PutFileRequest := { messages := uploadMessages filename content }
      let r := ToyDfs.putFile config env reader c
      have hperform : (Deployment.mk c clock).perform config buffer
          (.putFile (some content) filename stream env) =
            (.put (some (finishUpload (r.1, r.2.1))), ⟨r.2.2, clock⟩) := by
        rw [Deployment.perform, hupload]
      have hdata : uploadData reader.messages = content := uploadData_uploadMessages filename content
      obtain ⟨t, ht⟩ := h.putFile hm hn env henv hfault reader (hdata ▸ hsize)
      rw [hdata] at ht
      rw [Performs, hperform]
      have hanswer := finishUpload_putFile config env reader c (List.cons_ne_nil _ _)
      rcases hanswer with ⟨hok, hres⟩ | ⟨hnot, hold, hres⟩ | ⟨hnot, hnew, hres⟩
      · rw [if_pos hok] at ht
        obtain ⟨⟨hname, hfree⟩, -⟩ := accepted_of_isOk hok
        refine ⟨_, ?_, t, ht⟩
        rw [show finishUpload (r.1, r.2.1) = _ from hres]
        exact .uploaded content filename stream env hname ((h.file_none_iff hm hn filename).mpr hfree) hintact
      · rw [hnot, if_neg Bool.false_ne_true] at ht
        refine ⟨files, ?_, t, ht⟩
        rw [show finishUpload (r.1, r.2.1) = _ from hres]
        exact .fileExists content filename stream env ((h.file_isSome_iff hm hn filename).mpr hold) hintact
      · rw [hnot, if_neg Bool.false_ne_true] at ht
        refine ⟨files, ?_, t, ht⟩
        rw [show finishUpload (r.1, r.2.1) = _ from hres]
        exact .uploadFailed content filename stream env _ fun _ => (h.file_none_iff hm hn filename).mpr hnew
    · let reader : ServerReader PutFileRequest :=
        { messages := (uploadMessages filename content).take k, ended := .cancelled }
      let r := ToyDfs.putFile config env reader c
      have hperform : (Deployment.mk c clock).perform config buffer
          (.putFile (some content) filename stream env) =
            (.put (some (.error (.runtimeError e))), ⟨r.2.2, clock⟩) := by
        rw [Deployment.perform, hupload]
      rw [Performs, hperform]
      have hcut : reader.messages = [] ∨ ∃ m, uploadName reader.messages = filename ∧
          uploadData reader.messages = content.take (m * bufferSize) := uploadData_broken filename content _
      have hprefix : ∃ m, uploadData reader.messages = content.take m := by
        rcases hcut with hnil | ⟨m, -, hdata⟩
        · exact ⟨0, by rw [hnil]; rfl⟩
        · exact ⟨_, hdata⟩
      obtain ⟨m, hm'⟩ := hprefix
      obtain ⟨t, ht⟩ := h.putFile hm hn env henv hfault reader
        (by rw [hm']; exact Nat.le_trans (List.length_take_le' _ _) hsize)
      have ht := ht.mono (Nat.add_le_add_left (hm' ▸ chunkCount_take hsize m) chunkIds) (Nat.le_refl nodeIds)
      cases hok : r.1.isOk with
      | false =>
        rw [show (ToyDfs.putFile config env reader c).1.isOk = false from hok,
          if_neg Bool.false_ne_true] at ht
        exact ⟨files, .uploadFailed content filename stream env e fun hintact => absurd hintact hbroken,
          t, ht⟩
      | true =>
        rw [show (ToyDfs.putFile config env reader c).1.isOk = true from hok, if_pos rfl] at ht
        obtain ⟨⟨hname, hfree⟩, -⟩ := accepted_of_isOk hok
        rcases hcut with hnil | ⟨m, hcutName, hcutData⟩
        · rw [hnil] at hname
          exact absurd rfl hname
        · rw [hcutName] at hname hfree
          rw [hcutName, hcutData] at ht
          exact ⟨_, .uploadCut content filename stream env e m hname
            ((h.file_none_iff hm hn filename).mpr hfree) hbroken, t, ht⟩

theorem getFile_cluster (config : Endpoint → DataNodeConfig) (env : GetEnv) (path : String) (c : Cluster) :
    (ToyDfs.getFile config env path c).2.2 = { c with store := (c.store.getFile path).2 } := by
  simp only [ToyDfs.getFile, MetadataStore.getFile]
  split <;> rfl

theorem length_le_chunks {content : Bytes} (h : content.length ≤ 2 ^ 31) :
    content.length ≤ chunkCount content * (1024 * 1024) := by
  rw [chunkCount_eq h]
  omega

/-- Downloads that are answered. -/
theorem performs_getFile_answered (h : Quiet config c clock chunkIds nodeIds files s)
    (hm : chunkIds < 2 ^ 64) (hn : nodeIds < 2 ^ 31 - 1) {filename : String} {env : GetEnv}
    (hfault : ∀ i j, (env.fault i j).Complete) :
    Performs config buffer ⟨c, clock⟩ chunkIds nodeIds files (.getFile filename env .none) := by
  obtain ⟨t, ht⟩ := h.lookup hm hn filename
  have hdata := h.dataInv hm hn
  have hb : WithinCounters s := ⟨Nat.lt_of_le_of_lt h.chunkIds hm, Nat.lt_of_le_of_lt h.nodeIds hn⟩
  obtain ⟨hreach, rfl, -, -, -, -, -, rfl, hsmall⟩ := h
  let r := ToyDfs.getFile config env filename s.toCluster
  have hperform : (Deployment.mk s.toCluster clock).perform config buffer (.getFile filename env .none) =
      (.get (getFileSync r.2.1 r.1), ⟨r.2.2, clock⟩) := rfl
  rw [← getFile_cluster config env] at ht
  rw [Performs, hperform]
  refine ⟨s.files, ?_, t, ht⟩
  rw [getFileSync_eq]
  rcases file_cases hdata filename with ⟨hfile, hfind, -⟩ | ⟨k, call, hlast, hput, hfile, hfind⟩
  · obtain ⟨hstatus, -⟩ : r.1 = fileNotFound ∧ r.2.1 = [] := getFile_absent hfind
    rw [hstatus]
    exact .notFound filename env hfile
  · obtain ⟨-, hwhole, hbeginning⟩ := @beginningSent_of_lastWrite config s hreach hb filename k call
      hlast hput (hsmall filename _ hfile) env hfault
    by_cases hok : r.1.isOk = true
    · have hcontent : (r.2.1.map GetFileResponse.data).flatten = uploadData call.messages := by
        rw [← downloaded, hbeginning, hwhole.mp hok]
        exact List.take_of_length_le (length_le_chunks (hsmall filename _ hfile))
      rw [if_pos hok, hcontent]
      exact .downloaded _ filename env hfile
    · have hcode : r.1.code = .internal := by
        obtain ⟨fileMeta, hmeta⟩ := Option.isSome_iff_exists.mp hfind
        have hstatus : r.1 = (getFileLoop config env s.registeredNodes s.disks 0 fileMeta.chunks).1 :=
          (getFile_eq hmeta).1
        rw [hstatus] at hok ⊢
        exact (getFileLoop_code env fileMeta.chunks 0).resolve_left hok
      rw [if_neg hok, hcode]
      exact .downloadFailed filename env .none _ fun _ => by rw [hfile]; rfl

theorem getFileSync_lost (messages : List GetFileResponse) {e : RpcError} (he : e.Own) :
    getFileSync messages e.status = .error (.runtimeError e.status.errorMessage) := by
  rw [getFileSync_eq, e.notOk, if_neg Bool.false_ne_true, if_neg he.1]

/-- **Downloads.** -/
theorem performs_getFile (h : Quiet config c clock chunkIds nodeIds files s) (hm : chunkIds < 2 ^ 64)
    (hn : nodeIds < 2 ^ 31 - 1) {filename : String} {env : GetEnv} {rpc : RpcFault}
    (hsound : (Command.getFile filename env rpc).Sound) :
    Performs config buffer ⟨c, clock⟩ chunkIds nodeIds files (.getFile filename env rpc) := by
  obtain ⟨hfault, hown⟩ := hsound
  obtain ⟨t, ht⟩ := h.lookup hm hn filename
  rw [← getFile_cluster config env] at ht
  cases rpc with
  | none => exact performs_getFile_answered h hm hn hfault
  | requestLost e =>
    rw [Performs, Deployment.perform]
    simp only [getFileSync_lost [] hown]
    exact ⟨files, .downloadFailed filename env _ _ fun hrpc => (by cases hrpc), s, h⟩
  | replyLost e =>
    rw [Performs, Deployment.perform]
    simp only [getFileSync_lost _ hown]
    exact ⟨files, .downloadFailed filename env _ _ fun hrpc => (by cases hrpc), t, ht⟩

theorem deleteFileSync_lost {e : RpcError} (he : e.Own) :
    ∃ what, deleteFileSync (e.status, {}) = .error (.runtimeError what) := by
  rw [deleteFileSync]
  simp only [e.notOk, he.1, Bool.false_and, Bool.false_eq_true, if_false]
  exact ⟨_, rfl⟩

/-- **Deletions.** -/
theorem performs_deleteFile (h : Quiet config c clock chunkIds nodeIds files s) (hm : chunkIds < 2 ^ 64)
    (hn : nodeIds < 2 ^ 31 - 1) {filename : String} {delay : Nat} {rpc : RpcFault} (hown : rpc.Own) :
    Performs config buffer ⟨c, clock⟩ chunkIds nodeIds files (.deleteFile filename delay rpc) := by
  obtain ⟨t, ht⟩ := h.deleteFile hm hn filename delay
  let r := ToyDfs.deleteFile filename clock (clock + delay : Nat) c
  have houtcome : (files filename = none ∧ r.1 = fileNotFound ∧ r.2.1 = {}) ∨
      ((files filename).isSome ∧ r.1 = Status.OK ∧ r.2.1 = { success := true }) := by
    cases hfind : c.store.findFile filename with
    | none =>
      refine .inl ⟨(h.file_none_iff hm hn filename).mpr hfind, ?_⟩
      simp only [r, ToyDfs.deleteFile, MetadataStore.getFile, hfind, Option.isNone_none, if_true, and_self]
    | some fileMeta =>
      refine .inr ⟨(h.file_isSome_iff hm hn filename).mpr (by rw [hfind]; rfl), ?_⟩
      simp only [r, ToyDfs.deleteFile, MetadataStore.getFile, hfind, Option.isNone_some, Bool.false_eq_true,
        if_false, and_self]
  have hquiet : ∃ t, Quiet config r.2.2 (clock + delay) chunkIds nodeIds
      (if r.1.isOk then Function.update files filename none else files) t := ⟨t, ht⟩
  rw [Performs, Deployment.perform]
  cases rpc with
  | none =>
    rcases houtcome with ⟨hnone, hstatus, hresp⟩ | ⟨hsome, hstatus, hresp⟩
    · rw [hstatus] at hquiet
      refine ⟨files, ?_, hquiet⟩
      show Permitted files _ (.delete (deleteFileSync (r.1, r.2.1))) files
      rw [hstatus, hresp]
      exact .nothingToDelete filename delay hnone
    · rw [hstatus] at hquiet
      refine ⟨_, ?_, hquiet⟩
      show Permitted files _ (.delete (deleteFileSync (r.1, r.2.1))) (Function.update files filename none)
      rw [hstatus, hresp]
      exact .deleted filename delay hsome
  | requestLost e =>
    obtain ⟨what, hwhat⟩ := deleteFileSync_lost hown
    simp only [hwhat]
    exact ⟨files, .deletionFailed filename delay _ what (fun hrpc => by cases hrpc), s, h⟩
  | replyLost e =>
    obtain ⟨what, hwhat⟩ := deleteFileSync_lost hown
    simp only [hwhat]
    rcases houtcome with ⟨-, hstatus, -⟩ | ⟨hsome, hstatus, -⟩
    · rw [hstatus] at hquiet
      exact ⟨files, .deletionFailed filename delay _ what (fun hrpc => by cases hrpc), hquiet⟩
    · rw [hstatus] at hquiet
      exact ⟨_, .deletedUnanswered filename delay _ what (fun hrpc => by cases hrpc) hsome, hquiet⟩

/-- **Every command.** -/
theorem performs (h : Quiet config c clock chunkIds nodeIds files s) (hm : chunkIds < 2 ^ 64)
    (hn : nodeIds < 2 ^ 31 - 1) {command : Command} (hsound : command.Sound) :
    Performs config buffer ⟨c, clock⟩ chunkIds nodeIds files command := by
  cases command with
  | putFile file filename stream env => exact performs_putFile h hm hn hsound
  | getFile filename env rpc => exact performs_getFile h hm hn hsound
  | deleteFile filename delay rpc => exact performs_deleteFile h hm hn hsound
  | registerDataNode peer port => exact ⟨files, .registered peer port _, h.registerDataNode peer port⟩
  | unregisterDataNode nodeId => exact ⟨files, .unregistered nodeId _ _, h.unregisterDataNode nodeId⟩
  | cleanupPass env =>
    rw [Performs, Deployment.perform]
    by_cases hrunning : c.running = true
    · rw [if_pos hrunning]
      exact ⟨files, .cleaned env, h.cleanupPass hsound hrunning⟩
    · rw [if_neg hrunning]
      exact ⟨files, .cleaned env, s, h⟩
  | wait d => exact ⟨files, .waited d, h.wait d⟩
  | restart => exact ⟨_, .restarted, exists_quiet_start config c.disks clock _ _⟩

end

/-! ## Top theorem -/

/-- After the commands `past`, the deployment has these files. -/
def HasFiles (config : Endpoint → DataNodeConfig) (past : List Command) (w : Deployment)
    (files : Files) : Prop :=
  ∃ s, Quiet config w.cluster w.clock (past.map Command.chunkIds).sum (past.map Command.nodeIds).sum files s

theorem hasFiles_start (config : Endpoint → DataNodeConfig) (disks : Disks) :
    HasFiles config [] (.start disks) fun _ => none := exists_quiet_start config disks 0 0 0

theorem hasFiles_perform (config : Endpoint → DataNodeConfig) (buffer : Bytes) :
    Implements Session (HasFiles config) (Deployment.perform config buffer) Permitted := by
  rintro past ⟨c, clock⟩ files command hsession ⟨s, hs⟩
  have hpast := hsession.of_append
  have hperforms : Performs config buffer ⟨c, clock⟩ _ _ files command :=
    performs hs hpast.chunkIds hpast.nodeIds (hsession.sound command (by simp))
  obtain ⟨files', hpermitted, t, ht⟩ := hperforms
  refine ⟨files', hpermitted, t, ?_⟩
  simpa using ht

/-- A file is uploaded, read, deleted without an answer and not found, and the coordinator
restarted. -/
def sixCalls : List Command :=
  [.registerDataNode "ipv4:a:1" 50, .putFile (some [1, 2]) "f" {} (PutEnv.inOrder fun _ _ => {}),
    .getFile "f" { fault := fun _ _ => {} } .none, .deleteFile "f" 7 (.replyLost .unavailable),
    .getFile "f" { fault := fun _ _ => {} } .none, .restart]

example : (run (Deployment.perform plainConfig []) (.start fun _ _ => none)
    [.registerDataNode "ipv4:a:1" 50, .putFile (some [1, 2]) "f" {} (PutEnv.inOrder fun _ _ => {}),
      .getFile "f" { fault := fun _ _ => {} } .none, .deleteFile "f" 7 (.replyLost .unavailable),
      .getFile "f" { fault := fun _ _ => {} } .none]).1 =
    [.registered { success := true, nodeId := 1 }, .put (some (.ok ())), .get (.ok [1, 2]),
      .delete (.error (.runtimeError "gRPC error [14]: ")),
      .get (.error (.systemError "ENOENT" "No such file or directory"))] := by
  rfl

end ToyDfs
