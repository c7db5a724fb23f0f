import ToyDfs.ChunkTree
import ToyDfs.System

/-!
Datanode handlers that run side by side on a tree of files and directories.

`TreeInv` is what every step keeps: no directory where a chunk goes and no file where a
directory goes, each handler on its way down, and the answers so far those of a `Disk`.
A directory once made stays, so the handlers do not get in each other's way while they
make them.

`tree_refines_disk`: handlers whose `mkdir`s interleave answer as they do on a `Disk`, one
after another, and none misses a directory unless a `mkdir` has failed.
-/

namespace ToyDfs

open FileTree Transition

/-! ## Runs -/

/-- The id a handler is started with. -/
def TreeAction.chunkId? : TreeAction → Option String
  | .start _ request => request.chunkId?
  | _ => none

/-- The datanode is asked for chunks the coordinator has named. -/
def NamedChunk (a : TreeAction) : Prop := ∀ chunkId, a.chunkId? = some chunkId → ∃ n, chunkId = chunkName n

/-- A handler in `get_chunk_path`: while no `mkdir` failed, `dir` is what it has made. -/
structure Making (config : DataNodeConfig) (cwd : List (List Char)) (s : NodeTree) (request : ChunkRequest)
    (path : String) (todo : List String) (n : Nat) : Prop where
  small : n < 2 ^ 31
  chunkId : request.chunkId? = some (chunkName n)
  path : path = chunkFile config.basePath n
  above : ∀ p ∈ todo, place cwd p <+: directoryPlace config cwd n
  climbs : s.failed = false → ∃ dir, s.tree.isDirectory dir = true ∧
    Climbs (directoryPlace config cwd n) dir (todo.map (place cwd))

/-- An answered call: the call it was on the `Disk`, and the answer. -/
structure ServedCall where
  k : Nat
  request : ChunkRequest
  reply : HandlerReply

/-- The disk after the calls. -/
def diskAfter (config : DataNodeConfig) (disk : Disk) (served : List ServedCall) : Disk :=
  (Simulation.run (ChunkRequest.handle config) disk (served.map ServedCall.request)).2

/-- The handlers answered like these calls on a `Disk`, one after another. -/
structure RefinesDisk (config : DataNodeConfig) (cwd : List (List Char)) (tree : DiskTree) (disk : Disk)
    (s : NodeTree) (served : List ServedCall) : Prop where
  answers : (Simulation.run (ChunkRequest.handle config) disk (served.map ServedCall.request)).1 =
    served.map ServedCall.reply
  agrees : Agrees config cwd s.tree (diskAfter config disk served)
  once : (served.map ServedCall.k).Nodup
  answered : ∀ k reply, (∃ request, s.requests k = some (request, .answered reply)) ↔
    ∃ call ∈ served, call.k = k ∧ call.reply = reply
  /-- a `PutChunk` may have failed to open its file when a `mkdir` has failed -/
  same : ∀ call ∈ served, ∃ request phase, s.requests call.k = some (request, phase) ∧
    (call.request = request ∨ s.failed = true ∧ call.request = request.refused)
  /-- nothing else was touched -/
  elsewhere : ∀ p, (∀ n < 2 ^ 31, ¬ p <+: directoryPlace config cwd n ∧ p ≠ filePlace config cwd n) →
    s.tree.entry p = tree.entry p

/-- What the run has kept. -/
structure TreeInv (config : DataNodeConfig) (cwd : List (List Char)) (tree : DiskTree) (disk : Disk)
    (s : NodeTree) : Prop where
  usable : Usable config cwd s.tree
  making : ∀ k request path todo, s.requests k = some (request, .making path todo) →
    ∃ n, Making config cwd s request path todo n
  refines : ∃ served, RefinesDisk config cwd tree disk s served

section
variable {config : DataNodeConfig} {cwd : List (List Char)} {tree : DiskTree} {disk : Disk} {s t : NodeTree}

theorem treeInv_start (husable : Usable config cwd tree) (hagrees : Agrees config cwd tree disk) :
    TreeInv config cwd tree disk (.start tree) where
  usable := husable
  making := fun k request path todo h => (by cases h)
  refines := by
    refine ⟨[], rfl, hagrees, List.nodup_nil, ?_, ?_, fun _ _ => rfl⟩
    · intro k reply
      refine ⟨fun ⟨request, h⟩ => (by cases h), fun ⟨call, hcall, _⟩ => absurd hcall List.not_mem_nil⟩
    · intro call hcall
      exact absurd hcall List.not_mem_nil

/-- Directories stay, and a failed `mkdir` stays failed. -/
theorem Making.mono {request : ChunkRequest} {path : String} {todo : List String} {n : Nat}
    (h : Making config cwd s request path todo n)
    (hdirs : ∀ p, s.tree.isDirectory p = true → t.tree.isDirectory p = true)
    (hfailed : t.failed = false → s.failed = false) : Making config cwd t request path todo n where
  small := h.small
  chunkId := h.chunkId
  path := h.path
  above := h.above
  climbs := by
    intro hf
    obtain ⟨dir, hdir, hclimbs⟩ := h.climbs (hfailed hf)
    exact ⟨dir, hdirs dir hdir, hclimbs⟩

/-- Call `k` goes on, the others stay where they are. -/
theorem making_set {k : Nat} {request : ChunkRequest} {phase : RequestPhase} {t : NodeTree}
    (h : ∀ k request path todo, s.requests k = some (request, .making path todo) →
      ∃ n, Making config cwd s request path todo n) (hrequests : t.requests = s.requests)
    (hdirs : ∀ p, s.tree.isDirectory p = true → t.tree.isDirectory p = true)
    (hfailed : t.failed = false → s.failed = false)
    (hnew : ∀ path todo, phase = .making path todo → ∃ n, Making config cwd t request path todo n) :
    ∀ i r path todo, (t.set k request phase).requests i = some (r, .making path todo) →
      ∃ n, Making config cwd (t.set k request phase) r path todo n := by
  intro i r path todo hi
  have hsame : ∀ {request path todo n}, Making config cwd t request path todo n →
      Making config cwd (t.set k request phase) request path todo n :=
    fun h => h.mono (fun _ => id) id
  rcases update_some_iff.mp hi with ⟨-, he⟩ | ⟨-, hold⟩
  · cases he
    obtain ⟨n, hn⟩ := hnew path todo rfl
    exact ⟨n, hn.mono (fun _ => id) id⟩
  · rw [hrequests] at hold
    obtain ⟨n, hn⟩ := h i r path todo hold
    exact ⟨n, (hn.mono hdirs hfailed).mono (fun _ => id) id⟩

/-- No call is answered. -/
theorem RefinesDisk.advance {served : List ServedCall} {k : Nat} {request : ChunkRequest} {path : String}
    {todo : List String} (h : RefinesDisk config cwd tree disk s served) (hrequests : t.requests = s.requests)
    (hold : ∀ r phase, s.requests k = some (r, phase) → r = request ∧ ∃ path todo, phase = .making path todo)
    (hagrees : Agrees config cwd t.tree (diskAfter config disk served))
    (hfailed : s.failed = true → t.failed = true)
    (helsewhere : ∀ p, (∀ n < 2 ^ 31, ¬ p <+: directoryPlace config cwd n ∧ p ≠ filePlace config cwd n) →
      t.tree.entry p = s.tree.entry p) :
    RefinesDisk config cwd tree disk (t.set k request (.making path todo)) served where
  answers := h.answers
  agrees := hagrees
  once := h.once
  answered := by
    intro i reply
    rw [← h.answered i reply]
    constructor
    · rintro ⟨r, hr⟩
      rcases update_some_iff.mp hr with ⟨-, he⟩ | ⟨-, hr⟩
      · cases he
      · exact ⟨r, hrequests ▸ hr⟩
    · rintro ⟨r, hr⟩
      refine ⟨r, update_some_iff.mpr (.inr ⟨?_, hrequests ▸ hr⟩)⟩
      rintro rfl
      obtain ⟨-, path, todo, he⟩ := hold r _ hr
      cases he
  same := by
    intro call hcall
    obtain ⟨r, phase, hr, hsame⟩ := h.same call hcall
    have hsame : call.request = r ∨ t.failed = true ∧ call.request = r.refused :=
      hsame.imp_right fun hs => ⟨hfailed hs.1, hs.2⟩
    by_cases hk : call.k = k
    · obtain ⟨he, -⟩ := hold r phase (hk ▸ hr)
      subst he
      exact ⟨r, _, update_some_iff.mpr (.inl ⟨hk, rfl⟩), hsame⟩
    · exact ⟨r, phase, update_some_iff.mpr (.inr ⟨hk, hrequests ▸ hr⟩), hsame⟩
  elsewhere := fun p hp => (helsewhere p hp).trans (h.elsewhere p hp)

/-- Call `k` is answered, as `request'` is on the disk. -/
theorem RefinesDisk.answer {served : List ServedCall} {k : Nat} {request request' : ChunkRequest}
    {reply : HandlerReply} (h : RefinesDisk config cwd tree disk s served)
    (hrequests : t.requests = s.requests)
    (hold : ∀ r phase, s.requests k = some (r, phase) → ∃ path todo, phase = .making path todo)
    (hsame : request' = request ∨ t.failed = true ∧ request' = request.refused)
    (hreply : (request'.handle config (diskAfter config disk served)).1 = reply)
    (hagrees : Agrees config cwd t.tree (request'.handle config (diskAfter config disk served)).2)
    (hfailed : s.failed = true → t.failed = true)
    (helsewhere : ∀ p, (∀ n < 2 ^ 31, ¬ p <+: directoryPlace config cwd n ∧ p ≠ filePlace config cwd n) →
      t.tree.entry p = s.tree.entry p) :
    RefinesDisk config cwd tree disk (t.set k request (.answered reply))
      (served ++ [⟨k, request', reply⟩]) where
  answers := by
    rw [List.map_append, Simulation.run_answers_append, h.answers, List.map_append]
    exact congrArg _ (congrArg (fun a => [a]) hreply)
  agrees := by
    rw [diskAfter, List.map_append]
    rw [Simulation.run_append]
    exact hagrees
  once := by
    rw [List.map_append]
    refine List.nodup_append.mpr ⟨h.once, List.nodup_singleton _, ?_⟩
    intro i hi j hj
    rw [List.mem_singleton.mp hj]
    rintro rfl
    obtain ⟨call, hcall, rfl⟩ := List.mem_map.mp hi
    obtain ⟨r, hr⟩ := (h.answered _ _).mpr ⟨call, hcall, rfl, rfl⟩
    obtain ⟨path, todo, he⟩ := hold r _ hr
    cases he
  answered := by
    intro i reply'
    constructor
    · rintro ⟨r, hr⟩
      rcases update_some_iff.mp hr with ⟨rfl, he⟩ | ⟨-, hr⟩
      · cases he
        exact ⟨_, List.mem_append_right _ (List.mem_singleton_self _), rfl, rfl⟩
      · obtain ⟨call, hcall, hk⟩ := (h.answered i reply').mp ⟨r, hrequests ▸ hr⟩
        exact ⟨call, List.mem_append_left _ hcall, hk⟩
    · rintro ⟨call, hcall, hk⟩
      rcases List.mem_append.mp hcall with hcall | hcall
      · obtain ⟨r, hr⟩ := (h.answered i reply').mpr ⟨call, hcall, hk⟩
        refine ⟨r, update_some_iff.mpr (.inr ⟨?_, hrequests ▸ hr⟩)⟩
        rintro rfl
        obtain ⟨path, todo, he⟩ := hold r _ hr
        cases he
      · cases List.mem_singleton.mp hcall
        obtain ⟨rfl, rfl⟩ := hk
        exact ⟨request, update_some_iff.mpr (.inl ⟨rfl, rfl⟩)⟩
  same := by
    intro call hcall
    rcases List.mem_append.mp hcall with hcall | hcall
    · obtain ⟨r, phase, hr, hs⟩ := h.same call hcall
      have hs : call.request = r ∨ t.failed = true ∧ call.request = r.refused :=
        hs.imp_right fun hs => ⟨hfailed hs.1, hs.2⟩
      have hk : call.k ≠ k := by
        intro hk
        obtain ⟨r', hr'⟩ := (h.answered _ _).mpr ⟨call, hcall, rfl, rfl⟩
        obtain ⟨path, todo, he⟩ := hold r' _ (hk ▸ hr')
        cases he
      exact ⟨r, phase, update_some_iff.mpr (.inr ⟨hk, hrequests ▸ hr⟩), hs⟩
    · cases List.mem_singleton.mp hcall
      exact ⟨request, _, update_some_iff.mpr (.inl ⟨rfl, rfl⟩), hsame⟩
  elsewhere := fun p hp => (helsewhere p hp).trans (h.elsewhere p hp)

/-- An id whose number is too large: the handler throws. -/
theorem handle_thrown {request : ChunkRequest} {n : Nat} (hid : request.chunkId? = some (chunkName n))
    (hn : ¬ n < 2 ^ 31) (disk : Disk) : request.handle config disk = (request.thrown, disk) := by
  have hpath : getChunkPath (chunkName n) config = .error .outOfRange := by
    rw [getChunkPath_chunkName, if_neg hn]
  cases request with
  | put fault messages =>
    cases messages with
    | nil => cases hid
    | cons req reqs =>
      have hreq : req.chunkId = chunkName n := Option.some.inj hid
      rw [← hreq] at hpath
      simp only [ChunkRequest.handle, putChunk, putChunkLoop, hpath]
      rfl
  | get fault chunkId =>
    cases hid
    simp only [ChunkRequest.handle, getChunk, hpath]
    rfl
  | delete removeFails chunkId =>
    cases hid
    simp only [ChunkRequest.handle, deleteChunk, hpath]
    rfl

/-- A stream without a message stores nothing. -/
theorem handle_empty {request : ChunkRequest} (hid : request.chunkId? = none) (disk : Disk) :
    request.handle config disk = (.put Status.OK { success := true }, disk) := by
  cases request with
  | put fault messages =>
    cases messages with
    | nil => rfl
    | cons req reqs => cases hid
  | get fault chunkId => cases hid
  | delete removeFails chunkId => cases hid

theorem treeInv_startRequest {k : Nat} {request : ChunkRequest} (h : TreeInv config cwd tree disk s)
    (hnamed : NamedChunk (.start k request)) (ht : s.startRequest config k request = some t) :
    TreeInv config cwd tree disk t := by
  obtain ⟨served, hrefines⟩ := h.refines
  unfold NodeTree.startRequest at ht
  split at ht
  · cases ht
  · next hnone =>
    have hnew : ∀ r phase, s.requests k = some (r, phase) → ∃ path todo, phase = .making path todo :=
      fun r phase hr => by cases hnone.symm.trans hr
    -- an answer at once
    have hanswer : ∀ reply, (request.handle config (diskAfter config disk served)) =
        (reply, diskAfter config disk served) →
          TreeInv config cwd tree disk (s.set k request (.answered reply)) := by
      intro reply heq
      refine ⟨h.usable, making_set h.making rfl (fun _ => id) id fun _ _ he => (by cases he),
        served ++ [⟨k, request, reply⟩], ?_⟩
      exact hrefines.answer rfl hnew (.inl rfl) (by rw [heq]) (by rw [heq]; exact hrefines.agrees) id
        (fun _ _ => rfl)
    split at ht
    · next hid =>
      cases ht
      exact hanswer _ (handle_empty hid _)
    · next chunkId hid =>
      obtain ⟨n, rfl⟩ := hnamed chunkId hid
      by_cases hn : n < 2 ^ 31
      · rw [getChunkPath_chunkName, if_pos hn, chunkDirectories_chunkName hn] at ht
        cases ht
        refine ⟨h.usable, making_set h.making rfl (fun _ => id) id ?_, served, ?_⟩
        · rintro path todo he
          cases he
          obtain ⟨top, htop, hclimbs⟩ := climbs_createDirectories cwd (chunkDirectory config.basePath n)
            (by simp [chunkDirectory, String.toList_append])
          refine ⟨n, hn, hid, rfl, fun p hp => hclimbs.le.2 _ (List.mem_map_of_mem hp),
            fun _ => ⟨top, ?_, hclimbs⟩⟩
          rcases htop with rfl | rfl
          · exact Tree.isDirectory_root _
          · exact h.usable.working
        · exact hrefines.advance rfl (fun r phase hr => by cases hnone.symm.trans hr) hrefines.agrees id
            (fun _ _ => rfl)
      · rw [getChunkPath_chunkName, if_neg hn] at ht
        cases ht
        exact hanswer _ (handle_thrown hid hn _)

theorem treeInv_mkdir {k : Nat} {fails : Bool} (h : TreeInv config cwd tree disk s)
    (ht : s.mkdir cwd k fails = some t) : TreeInv config cwd tree disk t := by
  obtain ⟨served, hrefines⟩ := h.refines
  unfold NodeTree.mkdir at ht
  split at ht
  · next request path directory todo hk =>
    obtain ⟨n, hn⟩ := h.making k request path _ hk
    have hold : ∀ r phase, s.requests k = some (r, phase) →
        r = request ∧ ∃ path todo, phase = .making path todo := by
      intro r phase hr
      cases hk.symm.trans hr
      exact ⟨rfl, _, _, rfl⟩
    have habove : place cwd directory <+: directoryPlace config cwd n :=
      hn.above directory List.mem_cons_self
    have hrest : ∀ p ∈ todo, place cwd p <+: directoryPlace config cwd n :=
      fun p hp => hn.above p (List.mem_cons_of_mem _ hp)
    -- the handler gives up
    have hfail : TreeInv config cwd tree disk
        ({ s with failed := true }.set k request (.making path [])) := by
      refine ⟨h.usable, making_set h.making rfl (fun _ => id) (fun hf => by cases hf) ?_, served, ?_⟩
      · rintro path' todo' he
        cases he
        exact ⟨n, hn.small, hn.chunkId, hn.path, fun p hp => absurd hp List.not_mem_nil,
          fun hf => by cases hf⟩
      · exact hrefines.advance rfl hold hrefines.agrees (fun _ => rfl) (fun _ _ => rfl)
    have hfree : s.tree.content (place cwd directory) = none :=
      h.usable.directories n hn.small _ habove
    split at ht
    · cases ht
      exact hfail
    · split at ht
      · next u hu =>
        cases ht
        have hmade := Tree.directoryMade_of_mkdir hu
        have hdirs : ∀ p, s.tree.isDirectory p = true → u.isDirectory p = true :=
          fun p hp => (hmade.isDirectory p).mpr (.inr hp)
        refine ⟨h.usable.mkdir habove hmade, making_set h.making rfl hdirs id ?_, served, ?_⟩
        · rintro path' todo' he
          cases he
          refine ⟨n, hn.small, hn.chunkId, hn.path, hrest, fun hf => ?_⟩
          obtain ⟨dir, hdir, hclimbs⟩ := hn.climbs hf
          exact ⟨_, (hmade.isDirectory _).mpr (.inl rfl), (hclimbs.mkdir hdir hfree).1⟩
        · refine hrefines.advance rfl hold (fun m hm => ?_) id fun p hp => ?_
          · rw [hmade.content]
            exact hrefines.agrees m hm
          · exact hmade.entry p fun he => (hp n hn.small).1 (he ▸ habove)
      · next hexists =>
        cases ht
        refine ⟨h.usable, making_set h.making rfl (fun _ => id) id ?_, served, ?_⟩
        · rintro path' todo' he
          cases he
          refine ⟨n, hn.small, hn.chunkId, hn.path, hrest, fun hf => ?_⟩
          obtain ⟨dir, hdir, hclimbs⟩ := hn.climbs hf
          obtain ⟨hclimbs, ⟨hthere, -⟩ | ⟨u, hu, -⟩⟩ := hclimbs.mkdir hdir hfree
          · exact ⟨_, hthere, hclimbs⟩
          · cases hexists.symm.trans hu
        · exact hrefines.advance rfl hold hrefines.agrees id (fun _ _ => rfl)
      · cases ht
        exact hfail
  · cases ht

theorem treeInv_operate {k : Nat} (h : TreeInv config cwd tree disk s) (ht : s.operate cwd k = some t) :
    TreeInv config cwd tree disk t := by
  obtain ⟨served, hrefines⟩ := h.refines
  unfold NodeTree.operate at ht
  split at ht
  · next request path hk =>
    cases ht
    obtain ⟨n, hn⟩ := h.making k request path _ hk
    obtain ⟨request', hsame, hreply, c, hchanged, hdisk⟩ : ∃ request',
        (request' = request ∨ s.failed = true ∧ request' = request.refused) ∧
          ActsAs config cwd n s.tree (diskAfter config disk served) request request' := by
      rcases handleOn_actsAs hn.small hn.chunkId h.usable hrefines.agrees with hacts | ⟨hdir, hacts⟩
      · exact ⟨request, .inl rfl, hacts⟩
      · refine ⟨request.refused, .inr ⟨?_, rfl⟩, hacts⟩
        refine Bool.of_not_eq_false fun hf => hdir ?_
        obtain ⟨dir, hmade, hclimbs⟩ := hn.climbs hf
        cases hclimbs
        exact hmade
    rw [← hn.path] at hreply hchanged
    have hdirs : ∀ p, s.tree.isDirectory p = true →
        (request.handleOn cwd path s.tree).2.isDirectory p = true := by
      intro p hp
      rw [hchanged.isDirectory]
      exact hp
    refine ⟨h.usable.changed hchanged, making_set h.making rfl hdirs id fun _ _ he => (by cases he),
      served ++ [⟨k, request', (request.handleOn cwd path s.tree).1⟩], ?_⟩
    refine hrefines.answer rfl ?_ hsame hreply.symm ?_ id ?_
    · intro r phase hr
      cases hk.symm.trans hr
      exact ⟨_, _, rfl⟩
    · rw [hdisk]
      exact hrefines.agrees.changed hchanged
    · intro p hp
      exact hchanged.entry p (hp n hn.small).2
  · cases ht

/-- Only a `mkdir` that fails makes `failed` true: all others find their directory. -/
theorem failed_of_step {a : TreeAction} (h : TreeInv config cwd tree disk s)
    (ht : s.step config cwd a = some t) (hfailed : t.failed = true) :
    s.failed = true ∨ ∃ k, a = .mkdir k true := by
  cases a with
  | start k request =>
    simp only [NodeTree.step, NodeTree.startRequest] at ht
    split at ht
    · cases ht
    · split at ht
      · cases ht
        exact .inl hfailed
      · split at ht
        · cases ht
          exact .inl hfailed
        · cases ht
          exact .inl hfailed
  | operate k =>
    simp only [NodeTree.step, NodeTree.operate] at ht
    split at ht
    · cases ht
      exact .inl hfailed
    · cases ht
  | mkdir k fails =>
    cases fails with
    | true => exact .inr ⟨k, rfl⟩
    | false =>
      simp only [NodeTree.step, NodeTree.mkdir] at ht
      split at ht
      · next request path directory todo hk =>
        obtain ⟨n, hn⟩ := h.making k request path _ hk
        simp only [Bool.false_eq_true, if_false] at ht
        split at ht
        · cases ht
          exact .inl hfailed
        · cases ht
          exact .inl hfailed
        · next e hne he =>
          left
          refine Bool.of_not_eq_false fun hf => ?_
          obtain ⟨dir, hdir, hclimbs⟩ := hn.climbs hf
          have hfree := h.usable.directories n hn.small _ (hn.above directory List.mem_cons_self)
          obtain ⟨-, ⟨-, hexists⟩ | ⟨u, hu, -⟩⟩ := hclimbs.mkdir hdir hfree
          · exact hne (Except.error.inj (he.symm.trans hexists))
          · cases he.symm.trans hu
      · cases ht

theorem treeInv_step {a : TreeAction} (h : TreeInv config cwd tree disk s) (hnamed : NamedChunk a)
    (ht : s.step config cwd a = some t) : TreeInv config cwd tree disk t := by
  cases a with
  | start k request => exact treeInv_startRequest h hnamed ht
  | mkdir k fails => exact treeInv_mkdir h ht
  | operate k => exact treeInv_operate h ht

/-- A whole run. -/
theorem treeInv_exec (as : List TreeAction) (h : TreeInv config cwd tree disk s)
    (hnamed : ∀ a ∈ as, NamedChunk a) (hrun : exec (NodeTree.step config cwd) s as = some t) :
    TreeInv config cwd tree disk t ∧ (t.failed = true → s.failed = true ∨ ∃ k, .mkdir k true ∈ as) := by
  induction as generalizing s with
  | nil =>
    cases hrun
    exact ⟨h, .inl⟩
  | cons a as ih =>
    obtain ⟨u, hu, hrun⟩ := Option.bind_eq_some_iff.mp hrun
    obtain ⟨hinv, hfailed⟩ := ih (treeInv_step h (hnamed a List.mem_cons_self) hu)
      (fun b hb => hnamed b (List.mem_cons_of_mem _ hb)) hrun
    refine ⟨hinv, fun hf => ?_⟩
    rcases hfailed hf with hf | ⟨k, hk⟩
    · rcases failed_of_step h hu hf with hf | ⟨k, rfl⟩
      · exact .inl hf
      · exact .inr ⟨k, List.mem_cons_self⟩
    · exact .inr ⟨k, List.mem_cons_of_mem _ hk⟩

end

/-! ## Top theorem -/

/-- **The directories do not show**: the handlers answer as they do on a `Disk`, one
after another, and no open fails for a directory unless a `mkdir` has failed. -/
theorem tree_refines_disk (config : DataNodeConfig) (cwd : List (List Char)) (tree : DiskTree) (disk : Disk)
    (as : List TreeAction) (s : NodeTree) (husable : Usable config cwd tree)
    (hagrees : Agrees config cwd tree disk) (hnamed : ∀ a ∈ as, NamedChunk a)
    (hrun : exec (NodeTree.step config cwd) (.start tree) as = some s) :
    (∃ served, RefinesDisk config cwd tree disk s served) ∧
      (s.failed = true → ∃ k, .mkdir k true ∈ as) := by
  obtain ⟨hinv, hfailed⟩ := treeInv_exec as (treeInv_start husable hagrees) hnamed hrun
  exact ⟨hinv.refines, fun hf => (hfailed hf).resolve_left fun h => by cases h⟩

/-- A file system with nothing in it. -/
def emptyTree : DiskTree where
  entry p := if p = [] then some .directory else none
  root := rfl
  parent := by
    intro p hp hsome
    rw [if_neg hp] at hsome
    cases hsome

theorem usable_emptyTree (config : DataNodeConfig)
    (hbase : ∀ name ∈ names config.basePath.toList, name ≠ ['.', '.']) : Usable config [] emptyTree where
  working := rfl
  directories := by
    intro n hn p hp
    by_cases hroot : p = []
    · rw [hroot]
      rfl
    · have hnone : emptyTree.entry p = none := if_neg hroot
      rw [Tree.content, hnone]
  files := by
    intro n hn hdir
    have hne : filePlace config [] n ≠ [] := by
      rw [filePlace_eq]
      exact List.append_ne_nil_of_right_ne_nil _ (List.cons_ne_nil _ _)
    have hnone : emptyTree.entry (filePlace config [] n) = none := if_neg hne
    rw [Tree.isDirectory_iff, hnone] at hdir
    cases hdir
  noDotDot := hbase

/-- The answer to call `k`. -/
def NodeTree.reply? (s : NodeTree) (k : Nat) : Option HandlerReply :=
  match s.requests k with
  | some (_, .answered reply) => some reply
  | _ => none

/-- Two uploads make the same directories side by side, and one of the chunks is read. -/
def twoPuts : List TreeAction :=
  [.start 0 (.put {} [⟨"chunk_0", [1]⟩]), .start 1 (.put {} [⟨"chunk_1", [2]⟩]),
    .mkdir 0 false, .mkdir 1 false, .mkdir 1 false, .mkdir 0 false, .mkdir 0 false, .operate 0,
    .start 2 (.get {} "chunk_0"), .mkdir 1 false, .operate 1, .mkdir 2 false, .mkdir 2 false,
    .mkdir 2 false, .operate 2]

theorem tree_refines_disk_twoPuts : ∃ s,
    exec (NodeTree.step { chunkRootPath := "c" } []) (.start emptyTree) twoPuts = some s ∧
      s.reply? 2 = some (.get Status.OK [⟨[1]⟩]) ∧
        ∃ served, RefinesDisk { chunkRootPath := "c" } [] emptyTree (fun _ => none) s served := by
  have hrun : (exec (NodeTree.step { chunkRootPath := "c" } []) (.start emptyTree) twoPuts).map
      (fun s => s.reply? 2) = some (some (.get Status.OK [⟨[1]⟩])) := by decide +kernel
  obtain ⟨s, hs, hreply⟩ := Option.map_eq_some_iff.mp hrun
  have hagrees : Agrees { chunkRootPath := "c" } [] emptyTree fun _ => none := by
    intro n hn
    rw [filePlace_eq]
    have hnone : emptyTree.entry (directoryPlace { chunkRootPath := "c" } [] n ++
        [(toString (n : Int) ++ ".cfile").toList]) = none :=
      if_neg (List.append_ne_nil_of_right_ne_nil _ (List.cons_ne_nil _ _))
    rw [Tree.content, hnone]
  refine ⟨s, hs, hreply, (tree_refines_disk _ [] emptyTree _ twoPuts s (usable_emptyTree _ (by decide))
    hagrees ?_ hs).1⟩
  have hids : twoPuts.all (fun a => [none, some "chunk_0", some "chunk_1"].contains a.chunkId?) = true := by
    decide
  intro a ha chunkId hid
  have hmem := List.all_eq_true.mp hids a ha
  rw [hid] at hmem
  have hcases : chunkId = "chunk_0" ∨ chunkId = "chunk_1" := by simpa using hmem
  rcases hcases with rfl | rfl
  · exact ⟨0, by decide⟩
  · exact ⟨1, by decide⟩

end ToyDfs
