import Mathlib.Data.Set.Card
import ToyDfs.System

/-!
Handlers that check under one lock and act under the next.

`PutFile` looks for the name before the upload and commits after it, `DeleteFile`
looks for the path and then removes it.  In between any other handler may run.  For
each of them: what the log says in every run, and in which runs the check still
holds when the handler acts (`noLostUpload_iff_commitsFresh`,
`deletesCounted_iff_deletesActive`).
-/

namespace ToyDfs

open Transition

/-! ## PutFile -/

/-- The uploads of `path`, as they were answered. -/
structure NoLostUpload (path : String) (s : System) : Prop where
  /-- between two commits the file was deleted -/
  one_commit : ∀ newer mid older h h' b b',
    s.log = newer ++ .committed h' path b' :: (mid ++ .committed h path b :: older) →
      .deletedPath path true ∈ mid
  answers : ∀ h call status response, s.puts h = some call → uploadName call.messages = path →
    call.phase = .answered status response →
      (status = Status.OK ∧ response.success = true ∧ ∃ b, .committed h path b ∈ s.log) ∨
      (status.isOk = false ∧ response.success = false ∧ ∀ b, .committed h path b ∉ s.log)
  not_overwritten : ∀ h, .committed h path true ∉ s.log

/-- When call `h` commits, there is no active file of that name. -/
def CommitsFresh (path : String) (s : System) : Action → Prop
  | .putCommit h => ∀ call, s.puts h = some call → uploadName call.messages = path →
      s.store.findFile path = none
  | _ => True

/-- What the log says in every run. -/
structure LogInv (path : String) (s : System) : Prop where
  absent : s.store.findFile path = none → ∀ mid older h b,
    s.log = mid ++ .committed h path b :: older → .deletedPath path true ∈ mid
  fresh : ∀ newer mid older h h' b,
    s.log = newer ++ .committed h' path false :: (mid ++ .committed h path b :: older) →
      .deletedPath path true ∈ mid
  committed : ∀ h b, .committed h path b ∈ s.log → ∃ call, s.puts h = some call ∧
    call.phase = .answered Status.OK { success := true }
  answered : ∀ h call status response, s.puts h = some call → uploadName call.messages = path →
    call.phase = .answered status response →
      (status = Status.OK ∧ response = { success := true } ∧ ∃ b, .committed h path b ∈ s.log) ∨
      (status.isOk = false ∧ response = {})

section
variable {config : Endpoint → DataNodeConfig} {s t : System} {path : String}

/-- Every step but a commit or a `deletePath`. -/
theorem LogInv.frame (h : LogInv path s) (hlog : t.log = s.log)
    (hfind : t.store.findFile path = s.store.findFile path)
    (hputs : ∀ k call, s.puts k = some call → ¬ call.inProgress → t.puts k = some call)
    (hback : ∀ k call, t.puts k = some call → ¬ call.inProgress →
      s.puts k = some call ∨ ∃ status, status.isOk = false ∧ call.phase = .answered status {}) :
    LogInv path t := by
  refine ⟨?_, ?_, ?_, ?_⟩
  · rw [hlog, hfind]
    exact h.absent
  · rw [hlog]
    exact h.fresh
  · intro k b hmem
    rw [hlog] at hmem
    obtain ⟨call, hput, hphase⟩ := h.committed k b hmem
    exact ⟨call, hputs k call hput fun hp => hp _ _ hphase, hphase⟩
  · intro k call status response hput hname hphase
    rw [hlog]
    rcases hback k call hput (fun hp => hp _ _ hphase) with hput | ⟨status', hfail, hphase'⟩
    · exact h.answered k call status response hput hname hphase
    · rw [hphase] at hphase'
      cases hphase'
      exact Or.inr ⟨hfail, rfl⟩

/-- An upload in progress takes a step, and may fail. -/
theorem LogInv.advance (h : LogInv path s) {k : Nat} {call call' : PutCall} (hput : s.puts k = some call)
    (hprog : call.inProgress) (hlog : t.log = s.log)
    (hfind : t.store.findFile path = s.store.findFile path)
    (hputs : t.puts = Function.update s.puts k (some call'))
    (hnew : call'.inProgress ∨ ∃ status, status.isOk = false ∧ call'.phase = .answered status {}) :
    LogInv path t := by
  refine h.frame hlog hfind ?_ ?_
  · intro k' c hk' hnot
    have hne : k' ≠ k := by
      rintro rfl
      rw [hput] at hk'
      cases hk'
      exact hnot hprog
    rw [hputs, Function.update_of_ne hne, hk']
  · intro k' c hk' hnot
    rw [hputs] at hk'
    rcases update_some_iff.mp hk' with ⟨-, rfl⟩ | ⟨-, hk'⟩
    · exact Or.inr (hnew.resolve_left hnot)
    · exact Or.inl hk'

/-- A list that starts with something else. -/
theorem split_of_cons_ne {α : Type} {l mid older : List α} {a b : α} (hab : a ≠ b)
    (h : a :: l = mid ++ b :: older) : ∃ mid', mid = a :: mid' ∧ l = mid' ++ b :: older := by
  cases mid with
  | nil =>
    cases h
    exact absurd rfl hab
  | cons c mid =>
    cases h
    exact ⟨mid, rfl, rfl⟩

theorem logInv_committed {k : Nat} {call : PutCall} {fileMeta : FileMeta} (h : LogInv path s) :
    LogInv path ({ s with
      store := s.store.putFile (uploadName call.messages) fileMeta
      log := .committed k (uploadName call.messages)
        (s.store.findFile (uploadName call.messages)).isSome :: s.log }.setPut k
          { call with phase := .answered Status.OK { success := true } }) := by
  refine ⟨?_, ?_, ?_, ?_⟩
  · intro hnone mid older k' b hlog
    by_cases hp : path = uploadName call.messages
    · subst hp
      simp only [System.setPut, MetadataStore.findFile_putFile] at hnone
      cases hnone
    · simp only [System.setPut, MetadataStore.findFile_putFile_ne _ _ hp] at hnone
      have hne : Event.committed k (uploadName call.messages)
          (s.store.findFile (uploadName call.messages)).isSome ≠ .committed k' path b := by
        intro he
        cases he
        exact hp rfl
      obtain ⟨mid', rfl, htail⟩ := split_of_cons_ne hne hlog
      exact List.mem_cons_of_mem _ (h.absent hnone mid' older k' b htail)
  · intro newer mid older k' k'' b hlog
    cases newer with
    | nil =>
      -- the new commit found the name absent
      obtain ⟨he, htail⟩ := List.cons.inj hlog
      injection he with hk hname hfound
      rw [hname, Option.isSome_eq_false_iff, Option.isNone_iff_eq_none] at hfound
      exact h.absent hfound mid older k' b htail
    | cons e newer =>
      obtain ⟨-, htail⟩ := List.cons.inj hlog
      exact h.fresh newer mid older k' k'' b htail
  · intro k' b hmem
    rcases List.mem_cons.mp hmem with he | hmem
    · cases he
      exact ⟨_, Function.update_self .., rfl⟩
    · by_cases hk : k' = k
      · subst hk
        exact ⟨_, Function.update_self .., rfl⟩
      · obtain ⟨c, hc, hph⟩ := h.committed k' b hmem
        exact ⟨c, (Function.update_of_ne hk ..).trans hc, hph⟩
  · intro k' c status response hc hname hph
    rcases update_some_iff.mp hc with ⟨rfl, rfl⟩ | ⟨-, hc⟩
    · cases hph
      subst hname
      exact Or.inl ⟨rfl, rfl, _, List.mem_cons_self⟩
    · rcases h.answered k' c status response hc hname hph with ⟨hst, hres, b, hb⟩ | hfail
      · exact Or.inl ⟨hst, hres, b, List.mem_cons_of_mem _ hb⟩
      · exact Or.inr hfail

theorem logInv_deleted {d : Nat} {p : String} {now : TimePoint} {call : DeleteCall} (h : LogInv path s) :
    LogInv path ({ s with
      store := s.store.deletePath p s.clock now
      running := true
      clock := now
      log := .deletedPath p (s.store.findFile p).isSome :: s.log }.setDelete d call) := by
  refine ⟨?_, ?_, ?_, ?_⟩
  · intro hnone mid older k b hlog
    obtain ⟨mid', rfl, htail⟩ := split_of_cons_ne (by nofun) hlog
    by_cases hp : path = p
    · subst hp
      cases hf : s.store.findFile path with
      | none => exact List.mem_cons_of_mem _ (h.absent hf mid' older k b htail)
      | some m => exact List.mem_cons_self
    · simp only [System.setDelete, MetadataStore.findFile_deletePath_ne _ _ _ hp] at hnone
      exact List.mem_cons_of_mem _ (h.absent hnone mid' older k b htail)
  · intro newer mid older k k' b hlog
    obtain ⟨newer', rfl, htail⟩ := split_of_cons_ne (by nofun) hlog
    exact h.fresh newer' mid older k k' b htail
  · intro k b hmem
    rcases List.mem_cons.mp hmem with he | hmem
    · cases he
    · exact h.committed k b hmem
  · intro k c status response hc hname hph
    rcases h.answered k c status response hc hname hph with ⟨hst, hres, b, hb⟩ | hfail
    · exact Or.inl ⟨hst, hres, b, List.mem_cons_of_mem _ hb⟩
    · exact Or.inr hfail

theorem logInv_move {a : Action} (hm : Move config s a t) (h : LogInv path s) : LogInv path t := by
  cases hm with
  | putStarted k messages hput =>
    refine h.frame rfl rfl ?_ ?_
    · intro k' c hk' _
      have hne : k' ≠ k := by
        rintro rfl
        rw [hput] at hk'
        cases hk'
      exact (Function.update_of_ne hne ..).trans hk'
    · intro k' c hk' hnot
      rcases update_some_iff.mp hk' with ⟨-, rfl⟩ | ⟨-, hk'⟩
      · exact absurd (fun _ _ => nofun) hnot
      · exact Or.inl hk'
  | putFailed k call status store nextNodeIndex hput hprog hstatus hstore =>
    exact h.advance hput hprog rfl (hstore.findFile path) rfl (Or.inr ⟨status, hstatus, rfl⟩)
  | putAccepted k call store hput hphase hacc hstore =>
    refine h.advance hput ?_ rfl (hstore.findFile path) rfl (Or.inl fun _ _ => nofun)
    exact fun _ _ he => nomatch hphase.symm.trans he
  | putDrawn k call hput hphase hlt =>
    refine h.advance hput ?_ rfl rfl rfl (Or.inl fun _ _ => nofun)
    exact fun _ _ he => nomatch hphase.symm.trans he
  | putPlaced k order call chunkId hput hphase horder hne =>
    refine h.advance hput ?_ rfl rfl rfl (Or.inl fun _ _ => nofun)
    exact fun _ _ he => nomatch hphase.symm.trans he
  | putStored k j call chunkId nodeIds results fault hput hphase hj hnew =>
    refine h.advance hput ?_ rfl rfl rfl (Or.inl fun _ _ => nofun)
    exact fun _ _ he => nomatch hphase.symm.trans he
  | putChunkDone k call chunkId nodeIds results hput hphase hok =>
    refine h.advance hput ?_ rfl rfl rfl (Or.inl fun _ _ => nofun)
    exact fun _ _ he => nomatch hphase.symm.trans he
  | putCommitted k call hput hpass hphase hlen => exact logInv_committed h
  | deleteMoved d call store hold hanswer hstore =>
    exact h.frame rfl (hstore.findFile path) (fun _ _ hk _ => hk) fun _ _ hk _ => Or.inl hk
  | pathDeleted d p now hdel hpass hnow => exact logInv_deleted h
  | _ => exact h.frame rfl rfl (fun _ _ hk _ => hk) fun _ _ hk _ => Or.inl hk

theorem logInv_start (path : String) (disks : Disks) : LogInv path (.start disks) := by
  refine ⟨?_, ?_, ?_, ?_⟩
  · intro _ mid older k b hlog
    cases mid <;> cases hlog
  · intro newer mid older k k' b hlog
    cases newer <;> cases hlog
  · exact fun k b hmem => nomatch hmem
  · exact fun k call status response hput => nomatch hput

/-- An upload is lost exactly where a commit replaces a file. -/
theorem LogInv.noLostUpload_iff (h : LogInv path s) :
    NoLostUpload path s ↔ ∀ k, .committed k path true ∉ s.log := by
  refine ⟨fun hn => hn.not_overwritten, fun hno => ⟨?_, ?_, hno⟩⟩
  · intro newer mid older k k' b b' hlog
    have hb' : b' = false := by
      cases b' with
      | false => rfl
      | true =>
        refine absurd ?_ (hno k')
        rw [hlog]
        exact List.mem_append_right _ List.mem_cons_self
    subst hb'
    exact h.fresh newer mid older k k' b hlog
  · intro k call status response hput hname hphase
    rcases h.answered k call status response hput hname hphase with ⟨hst, hres, hb⟩ | ⟨hst, hres⟩
    · exact Or.inl ⟨hst, by rw [hres], hb⟩
    · refine Or.inr ⟨hst, by rw [hres], fun b hmem => ?_⟩
      obtain ⟨call', hput', hphase'⟩ := h.committed k b hmem
      rw [hput] at hput'
      cases hput'
      rw [hphase] at hphase'
      cases hphase'
      cases hst

theorem putCommit_log {k : Nat} (ht : s.putCommit k = some t) :
    ∃ call, s.puts k = some call ∧ t.log = .committed k (uploadName call.messages)
      (s.store.findFile (uploadName call.messages)).isSome :: s.log := by
  unfold System.putCommit at ht
  split at ht
  · next messages chunks hput hpass =>
    split at ht
    · cases ht
    · cases ht
      exact ⟨_, hput, rfl⟩
  · cases ht

theorem log_suffix {a : Action} (ht : s.step config a = some t) : s.log <:+ t.log := by
  cases step_move ht with
  | putCommitted => exact List.suffix_cons _ _
  | pathDeleted => exact List.suffix_cons _ _
  | _ => exact List.suffix_refl _

/-- **No upload is lost** in a run iff every commit of the name finds it absent. -/
theorem noLostUpload_iff_commitsFresh (config : Endpoint → DataNodeConfig) (path : String)
    (disks : Disks) (as : List Action) (s : System)
    (hs : exec (System.step config) (System.start disks) as = some s) :
    NoLostUpload path s ↔ Along (System.step config) (CommitsFresh path) (System.start disks) as := by
  have hinv : LogInv path s :=
    exec_invariant (fun s a t ht => logInv_move (step_move ht)) as hs (logInv_start path disks)
  rw [hinv.noLostUpload_iff]
  refine exec_iff_along (R := fun s => ∀ k, .committed k path true ∉ s.log) ?_ ?_ ?_ as hs ?_
  · intro s a t hfresh ht hno k hmem
    cases step_move ht with
    | putCommitted k' call hput hpass hphase hlen =>
      rcases List.mem_cons.mp hmem with he | hmem
      · injection he with _ hname hfound
        rw [← hname, hfresh call hput hname.symm] at hfound
        cases hfound
      · exact hno k hmem
    | pathDeleted d p now hdel hpass hnow =>
      rcases List.mem_cons.mp hmem with he | hmem
      · cases he
      · exact hno k hmem
    | _ => exact hno k hmem
  · intro s a t hnot ht hno
    cases a with
    | putCommit k =>
      simp only [CommitsFresh, not_forall] at hnot
      obtain ⟨call, hput, hname, hsome⟩ := hnot
      obtain ⟨call', hput', hlog⟩ := putCommit_log ht
      rw [hput] at hput'
      cases hput'
      refine hno k ?_
      rw [hlog, hname, Option.isSome_iff_ne_none.mpr hsome]
      exact List.mem_cons_self
    | _ => exact hnot trivial
  · intro s a t ht hno k hmem
    exact hno k ((log_suffix ht).subset hmem)
  · exact fun k hmem => nomatch hmem

/-! ### Two uploads of one name -/

/-- One datanode has registered. -/
def oneNode : List Action :=
  [.startRegister 0 "ipv4:a:1" 50, .registerScan 0, .registerDraw 0, .registerInsert 0]

/-- Upload `h`, from the existence check to the end of its one-chunk loop. -/
def upload (h : Nat) : List Action :=
  [.putCheck h, .putDraw h, .putSelect h [1], .putStore h 0 {}, .putStore h 1 {}, .putStore h 2 {},
    .putJoin h]

/-- Call `r` registers a datanode. -/
def registration (r : Nat) (peer : String) (port : Int32) : List Action :=
  [.startRegister r peer port, .registerScan r, .registerDraw r, .registerInsert r]

/-- File `f` is placed on node 1 at `a` and node 2 at `b`.  Node 1 stops, a second
registration of `b` is refused, and node 1 comes back as node 3. -/
def restartedNode : List Action :=
  registration 0 "ipv4:a:1" 50 ++ registration 1 "ipv4:b:1" 60 ++
    [.startPut 0 [⟨"f", [1]⟩], .putCheck 0, .putDraw 0, .putSelect 0 [1, 2], .putStore 0 0 {},
      .putStore 0 1 {}, .putStore 0 2 {}, .putJoin 0, .putCommit 0, .unregister 1,
      .startRegister 2 "ipv4:b:2" 60, .registerScan 2] ++
    registration 3 "ipv4:a:3" 50

/-- Everything at its default. -/
def plainConfig : Endpoint → DataNodeConfig := fun _ => {}

/-- Call 0 and call 1 upload different files under the name `f`. -/
def twoUploads : List Action := [.startPut 0 [⟨"f", [1]⟩], .startPut 1 [⟨"f", [2]⟩]]

theorem noLostUpload_after_delete : ∃ s,
    exec (System.step plainConfig) (System.start fun _ _ => none)
      (oneNode ++ twoUploads ++ upload 0 ++ [.putCommit 0, .startDelete 0 "f", .deleteCheck 0,
        .deletePath 0 0] ++ upload 1 ++ [.putCommit 1]) = some s ∧
    (NoLostUpload "f" s ↔ Along (System.step plainConfig) (CommitsFresh "f")
      (System.start fun _ _ => none) (oneNode ++ twoUploads ++ upload 0 ++ [.putCommit 0,
        .startDelete 0 "f", .deleteCheck 0, .deletePath 0 0] ++ upload 1 ++ [.putCommit 1])) := by
  obtain ⟨s, hs⟩ := Option.isSome_iff_exists.mp (show (exec (System.step plainConfig)
    (System.start fun _ _ => none) (oneNode ++ twoUploads ++ upload 0 ++ [.putCommit 0,
      .startDelete 0 "f", .deleteCheck 0, .deletePath 0 0] ++ upload 1 ++ [.putCommit 1])).isSome = true by
    decide)
  exact ⟨s, hs, noLostUpload_iff_commitsFresh _ _ _ _ s hs⟩

/-- Both uploads pass the existence check, then both commit. -/
theorem lostUpload_twoUploads : ¬ ∀ (disks : Disks) (as : List Action) (s : System),
    exec (System.step plainConfig) (System.start disks) as = some s → NoLostUpload "f" s := by
  intro hall
  have hlog : (exec (System.step plainConfig) (System.start fun _ _ => none)
      (oneNode ++ twoUploads ++ upload 0 ++ upload 1 ++ [.putCommit 0, .putCommit 1])).map System.log =
      some [.committed 1 "f" true, .committed 0 "f" false] := by decide
  obtain ⟨s, hs, hlog⟩ := Option.map_eq_some_iff.mp hlog
  refine (hall _ _ s hs).not_overwritten 1 ?_
  rw [hlog]
  exact List.mem_cons_self

end

/-! ## DeleteFile -/

/-- The deletions of `path`, as they were answered. -/
structure DeletesCounted (path : String) (s : System) : Prop where
  finite : {d | s.deletes d = some ⟨path, .answered Status.OK { success := true }⟩}.Finite
  count : {d | s.deletes d = some ⟨path, .answered Status.OK { success := true }⟩}.ncard =
    s.log.count (.deletedPath path true)
  others : ∀ d status response, s.deletes d = some ⟨path, .answered status response⟩ →
    (status = Status.OK ∧ response = { success := true }) ∨
    (status.code = .notFound ∧ response.success = false)

/-- When a deletion of `path` calls `deletePath`, there is a file. -/
def DeletesActive (path : String) (s : System) : Action → Prop
  | .deletePath d _ => s.deletes d = some ⟨path, .checked⟩ → (s.store.findFile path).isSome
  | _ => True

/-- The deletions of `path` answered OK are those that called `deletePath`. -/
structure DeleteInv (path : String) (s : System) : Prop where
  finite : {d | s.deletes d = some ⟨path, .answered Status.OK { success := true }⟩}.Finite
  count : {d | s.deletes d = some ⟨path, .answered Status.OK { success := true }⟩}.ncard =
    s.log.count (.deletedPath path true) + s.log.count (.deletedPath path false)
  answers : ∀ d status response, s.deletes d = some ⟨path, .answered status response⟩ →
    (status = Status.OK ∧ response = { success := true }) ∨ (status = fileNotFound ∧ response = {})

section
variable {config : Endpoint → DataNodeConfig} {s t : System} {path : String}

theorem DeleteInv.frame (h : DeleteInv path s) (hdeletes : t.deletes = s.deletes)
    (htrue : t.log.count (.deletedPath path true) = s.log.count (.deletedPath path true))
    (hfalse : t.log.count (.deletedPath path false) = s.log.count (.deletedPath path false)) :
    DeleteInv path t := by
  refine ⟨?_, ?_, ?_⟩
  · rw [hdeletes]
    exact h.finite
  · rw [hdeletes, htrue, hfalse]
    exact h.count
  · rw [hdeletes]
    exact h.answers

/-- A deletion that is started, checked or refused. -/
theorem deleteInv_deleteMoved {d : Nat} {call : DeleteCall} {store : MetadataStore} (h : DeleteInv path s)
    (hold : ∀ old, s.deletes d = some old → old = { path := call.path })
    (hanswer : ∀ status response, call.phase = .answered status response →
      status = fileNotFound ∧ response = {}) :
    DeleteInv path ({ s with store := store }.setDelete d call) := by
  have hset : {k | ({ s with store := store }.setDelete d call).deletes k =
      some ⟨path, .answered Status.OK { success := true }⟩} =
      {k | s.deletes k = some ⟨path, .answered Status.OK { success := true }⟩} := by
    ext k
    constructor
    · intro hk
      rcases update_some_iff.mp hk with ⟨-, rfl⟩ | ⟨-, hk⟩
      · exact absurd (hanswer _ _ rfl).1 (by decide)
      · exact hk
    · intro hk
      refine update_some_iff.mpr (Or.inr ⟨?_, hk⟩)
      rintro rfl
      cases hold _ hk
  refine ⟨?_, ?_, ?_⟩
  · rw [hset]
    exact h.finite
  · rw [hset]
    exact h.count
  · intro k status response hk
    rcases update_some_iff.mp hk with ⟨-, rfl⟩ | ⟨-, hk⟩
    · exact Or.inr (hanswer status response rfl)
    · exact h.answers k status response hk

/-- One more deletion answered OK, one more `deletePath`. -/
theorem deleteInv_pathDeleted {d : Nat} {p : String} {now : TimePoint} (h : DeleteInv path s)
    (hdel : s.deletes d = some ⟨p, .checked⟩) :
    DeleteInv path ({ s with
      store := s.store.deletePath p s.clock now
      running := true
      clock := now
      log := .deletedPath p (s.store.findFile p).isSome :: s.log }.setDelete d
        ⟨p, .answered Status.OK { success := true }⟩) := by
  have hanswers : ∀ k status response,
      Function.update s.deletes d (some ⟨p, .answered Status.OK { success := true }⟩) k =
        some ⟨path, .answered status response⟩ →
      (status = Status.OK ∧ response = { success := true }) ∨ (status = fileNotFound ∧ response = {}) := by
    intro k status response hk
    rcases update_some_iff.mp hk with ⟨-, he⟩ | ⟨-, hk⟩
    · cases he
      exact Or.inl ⟨rfl, rfl⟩
    · exact h.answers k status response hk
  by_cases hp : p = path
  · subst hp
    have hset : {k | Function.update s.deletes d (some ⟨p, .answered Status.OK { success := true }⟩) k =
        some ⟨p, .answered Status.OK { success := true }⟩} =
        insert d {k | s.deletes k = some ⟨p, .answered Status.OK { success := true }⟩} := by
      ext k
      rw [Set.mem_insert_iff, Set.mem_ofPred_eq, Set.mem_ofPred_eq]
      by_cases hk : k = d
      · simp [hk]
      · simp [hk]
    have hnew : d ∉ {k | s.deletes k = some ⟨p, .answered Status.OK { success := true }⟩} := by
      intro hk
      cases hdel.symm.trans hk
    refine ⟨?_, ?_, hanswers⟩
    · exact hset ▸ h.finite.insert d
    · show Set.ncard {k | Function.update s.deletes d _ k = _} = _
      rw [hset, Set.ncard_insert_of_notMem hnew h.finite, h.count]
      show _ = List.count _ (_ :: s.log) + List.count _ (_ :: s.log)
      cases (s.store.findFile p).isSome
      · rw [List.count_cons_of_ne (by nofun), List.count_cons_self]
        omega
      · rw [List.count_cons_self, List.count_cons_of_ne (by nofun)]
        omega
  · have hset : {k | Function.update s.deletes d (some ⟨p, .answered Status.OK { success := true }⟩) k =
        some ⟨path, .answered Status.OK { success := true }⟩} =
        {k | s.deletes k = some ⟨path, .answered Status.OK { success := true }⟩} := by
      ext k
      rw [Set.mem_ofPred_eq, Set.mem_ofPred_eq]
      by_cases hk : k = d
      · simp [hk, hdel, hp]
      · simp [hk]
    have hcount : ∀ b, List.count (.deletedPath path b)
        (.deletedPath p (s.store.findFile p).isSome :: s.log) = s.log.count (.deletedPath path b) := by
      intro b
      refine List.count_cons_of_ne ?_
      intro he
      injection he with he _
      exact hp he
    refine ⟨?_, ?_, hanswers⟩
    · exact hset ▸ h.finite
    · show Set.ncard {k | Function.update s.deletes d _ k = _} = _
      rw [hset, h.count]
      show _ = List.count _ (_ :: s.log) + List.count _ (_ :: s.log)
      rw [hcount, hcount]

theorem deleteInv_move {a : Action} (hm : Move config s a t) (h : DeleteInv path s) :
    DeleteInv path t := by
  cases hm with
  | putCommitted k call hput hpass hphase hlen =>
    have hcount : ∀ e b, List.count (.deletedPath path b)
        (.committed k (uploadName call.messages) e :: s.log) = s.log.count (.deletedPath path b) := by
      intro e b
      rw [List.count_cons_of_ne (by nofun)]
    exact h.frame rfl (hcount _ true) (hcount _ false)
  | deleteMoved d call store hold hanswer hstore => exact deleteInv_deleteMoved h hold hanswer
  | pathDeleted d p now hdel hpass hnow => exact deleteInv_pathDeleted h hdel
  | _ => exact h.frame rfl rfl rfl

theorem deleteInv_start (path : String) (disks : Disks) : DeleteInv path (.start disks) := by
  have hempty : {d | (System.start disks).deletes d =
      some ⟨path, .answered Status.OK { success := true }⟩} = ∅ :=
    Set.eq_empty_of_forall_notMem fun d hd => nomatch hd
  refine ⟨?_, ?_, fun d status response hd => nomatch hd⟩
  · rw [hempty]
    exact Set.finite_empty
  · rw [hempty, Set.ncard_empty]
    rfl

theorem DeleteInv.deletesCounted_iff (h : DeleteInv path s) :
    DeletesCounted path s ↔ .deletedPath path false ∉ s.log := by
  rw [← List.count_eq_zero]
  constructor
  · intro hc
    have h1 := hc.count
    have h2 := h.count
    omega
  · intro hzero
    refine ⟨h.finite, ?_, ?_⟩
    · rw [h.count, hzero, Nat.add_zero]
    · intro d status response hd
      rcases h.answers d status response hd with hok | ⟨rfl, rfl⟩
      · exact Or.inl hok
      · exact Or.inr ⟨rfl, rfl⟩

theorem deletePath_log {d : Nat} {now : TimePoint} (ht : s.deletePath d now = some t) :
    ∃ p, s.deletes d = some ⟨p, .checked⟩ ∧
      t.log = .deletedPath p (s.store.findFile p).isSome :: s.log := by
  unfold System.deletePath at ht
  split at ht
  · next p hdel hpass =>
    split at ht
    · cases ht
      exact ⟨p, hdel, rfl⟩
    · cases ht
  · cases ht

/-- **Each successful delete removed a file** in a run iff there was a file whenever
a deletion called `deletePath`. -/
theorem deletesCounted_iff_deletesActive (config : Endpoint → DataNodeConfig) (path : String)
    (disks : Disks) (as : List Action) (s : System)
    (hs : exec (System.step config) (System.start disks) as = some s) :
    DeletesCounted path s ↔ Along (System.step config) (DeletesActive path) (System.start disks) as := by
  have hinv : DeleteInv path s :=
    exec_invariant (fun s a t ht => deleteInv_move (step_move ht)) as hs (deleteInv_start path disks)
  rw [hinv.deletesCounted_iff]
  refine exec_iff_along (R := fun s => .deletedPath path false ∉ s.log) ?_ ?_ ?_ as hs nofun
  · intro s a t hactive ht hno hmem
    cases step_move ht with
    | putCommitted k call hput hpass hphase hlen =>
      rcases List.mem_cons.mp hmem with he | hmem
      · cases he
      · exact hno hmem
    | pathDeleted d p now hdel hpass hnow =>
      rcases List.mem_cons.mp hmem with he | hmem
      · injection he with hp hfound
        subst hp
        rw [hactive hdel] at hfound
        cases hfound
      · exact hno hmem
    | _ => exact hno hmem
  · intro s a t hnot ht hno
    cases a with
    | deletePath d now =>
      simp only [DeletesActive, not_forall] at hnot
      obtain ⟨hdel, hnone⟩ := hnot
      obtain ⟨p, hdel', hlog⟩ := deletePath_log ht
      rw [hdel] at hdel'
      cases hdel'
      refine hno ?_
      rw [hlog, Bool.eq_false_iff.mpr hnone]
      exact List.mem_cons_self
    | _ => exact hnot trivial
  · intro s a t ht hno hmem
    exact hno ((log_suffix ht).subset hmem)

/-! ### Two deletions of one file -/

/-- An empty file `f`. -/
def emptyUpload : List Action := [.startPut 0 [⟨"f", []⟩], .putCheck 0, .putCommit 0]

theorem deletesCounted_again : ∃ s,
    exec (System.step plainConfig) (System.start fun _ _ => none)
      (emptyUpload ++ [.startDelete 0 "f", .deleteCheck 0, .deletePath 0 0, .startDelete 1 "f",
        .deleteCheck 1]) = some s ∧
    (DeletesCounted "f" s ↔ Along (System.step plainConfig) (DeletesActive "f")
      (System.start fun _ _ => none) (emptyUpload ++ [.startDelete 0 "f", .deleteCheck 0,
        .deletePath 0 0, .startDelete 1 "f", .deleteCheck 1])) := by
  obtain ⟨s, hs⟩ := Option.isSome_iff_exists.mp (show (exec (System.step plainConfig)
    (System.start fun _ _ => none) (emptyUpload ++ [.startDelete 0 "f", .deleteCheck 0,
      .deletePath 0 0, .startDelete 1 "f", .deleteCheck 1])).isSome = true by decide)
  exact ⟨s, hs, deletesCounted_iff_deletesActive _ _ _ _ s hs⟩

/-- Both find the file, then both delete it. -/
theorem not_deletesCounted_twice : ¬ ∀ (disks : Disks) (as : List Action) (s : System),
    exec (System.step plainConfig) (System.start disks) as = some s → DeletesCounted "f" s := by
  intro hall
  have hrun : (exec (System.step plainConfig) (System.start fun _ _ => none)
      (emptyUpload ++ [.startDelete 0 "f", .startDelete 1 "f", .deleteCheck 0, .deleteCheck 1,
        .deletePath 0 0, .deletePath 1 0])).map (fun s => (s.log, s.deletes 0, s.deletes 1)) =
      some ([.deletedPath "f" false, .deletedPath "f" true, .committed 0 "f" false],
        some ⟨"f", .answered Status.OK { success := true }⟩,
        some ⟨"f", .answered Status.OK { success := true }⟩) := by decide
  obtain ⟨s, hs, hrun⟩ := Option.map_eq_some_iff.mp hrun
  injection hrun with hlog hanswers
  injection hanswers with h0 h1
  have hc := hall _ _ s hs
  have htwo : ({0, 1} : Set Nat) ⊆
      {d | s.deletes d = some ⟨"f", .answered Status.OK { success := true }⟩} := by
    intro d hd
    rcases hd with rfl | rfl
    · exact h0
    · exact h1
  have hle := Set.ncard_le_ncard htwo hc.finite
  rw [Set.ncard_pair (by decide), hc.count, hlog] at hle
  exact absurd hle (by decide)

end

end ToyDfs
