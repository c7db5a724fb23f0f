import ToyDfs.Registrations

/-!
The server around a datanode, through starts, stops and crashes.

`DataNodeServer` registers with the coordinator when it starts and unregisters the id
it got when it stops.  A process that crashes leaves its entry in the registry.  The
next one is refused, so it has no id, and its `Stop` leaves the entry there.

* `notLeft_of_startsFresh`: while every `Start` finds the address free (or held by the
  process itself), a datanode that was stopped is not listed.
* `left_of_not_startsFresh`: after any other `Start`, a `Stop` leaves it listed.
-/

namespace ToyDfs

open Transition

/-! ## Algorithm -/

structure DataNodeServer where
  listeningPort : Int32
  nodeId : Int32 := -1
deriving DecidableEq, Repr

namespace DataNodeServer

/-- The constructor; the port is what follows the last colon. -/
def construct (address : String) : Except Cpp.StoiError DataNodeServer :=
  match Cpp.rfindChar address ':' with
  | none => .ok { listeningPort := 50052 }
  | some colonPos =>
    match Cpp.stoi (Cpp.suffixFrom address (colonPos + 1)) with
    | .error e => .error e
    | .ok port => .ok { listeningPort := Int32.ofInt port }

/-- The coordinator sees the call come from `peer`. -/
def registerWithCoordinator (server : DataNodeServer) (peer : String) (c : Cluster) :
    Bool × DataNodeServer × Cluster :=
  let (status, response, c) := registerDataNode peer server.listeningPort c
  if status.isOk && response.success then (true, { server with nodeId := response.nodeId }, c)
  else (false, server, c)

def unregisterWithCoordinator (server : DataNodeServer) (c : Cluster) : Bool × Cluster :=
  if server.nodeId ≤ 0 then (false, c)
  else
    let (status, response, c) := unregisterDataNode server.nodeId c
    (status.isOk && response.success, c)

/-- `Start`: a registration that fails is only warned of. -/
def start (server : DataNodeServer) (peer : String) (c : Cluster) : DataNodeServer × Cluster :=
  let (_, server, c) := server.registerWithCoordinator peer c
  (server, c)

def stop (server : DataNodeServer) (c : Cluster) : Cluster :=
  if 0 < server.nodeId then (server.unregisterWithCoordinator c).2 else c

end DataNodeServer

/-! ## Runs of one datanode -/

/-- A datanode and the coordinator; the last two fields are history. -/
structure Lifecycle where
  server : DataNodeServer
  coordinator : Cluster
  /-- the process has called `Start` -/
  started : Bool := false
  /-- a `Stop` after a `Start` of its process has returned, and no `Start` since -/
  stopped : Bool := false

inductive LifeAction
  | start (peer : String)
  | stop
  /-- the process ends, and a fresh `DataNodeServer` is constructed -/
  | crash
  /-- another datanode registers -/
  | otherRegister (peer : String) (port : Int32)
  | otherUnregister (nodeId : Int32)

/-- `host` is the address the coordinator sees the datanode under, `fresh` the server as
constructed. -/
def Lifecycle.step (host : String) (fresh : DataNodeServer) (s : Lifecycle) : LifeAction → Option Lifecycle
  | .start peer =>
    if extractClientAddress peer = host then
      let (server, c) := s.server.start peer s.coordinator
      some { server := server, coordinator := c, started := true, stopped := false }
    else none
  | .stop =>
    some { s with coordinator := s.server.stop s.coordinator, stopped := s.stopped || s.started }
  | .crash => some { s with server := fresh, started := false }
  | .otherRegister peer port =>
    if (⟨extractClientAddress peer, port⟩ : Endpoint) = ⟨host, fresh.listeningPort⟩ then none
    else some { s with coordinator := (registerDataNode peer port s.coordinator).2.2 }
  | .otherUnregister nodeId =>
    some { s with coordinator := (unregisterDataNode nodeId s.coordinator).2.2 }

/-- Some entry has this address and port. -/
def Listed (registry : Registry) (ep : Endpoint) : Prop :=
  ∃ d info, registry.lookup d = some info ∧ info.endpoint = ep

/-- A datanode that was stopped is not listed. -/
def NotLeft (ep : Endpoint) (s : Lifecycle) : Prop :=
  s.stopped = true → ¬ Listed s.coordinator.registeredNodes ep

/-- The process has the address registered under its own id. -/
def RegisteredItself (ep : Endpoint) (s : Lifecycle) : Prop :=
  0 < s.server.nodeId ∧
    (s.coordinator.registeredNodes.lookup s.server.nodeId).map DataNodeInfo.endpoint = some ep

/-- A `Start` finds the address free and a positive id to be handed out, or the process
is registered already. -/
def StartsFresh (ep : Endpoint) (s : Lifecycle) : LifeAction → Prop
  | .start _ => (¬ Listed s.coordinator.registeredNodes ep ∧ 0 < s.coordinator.nextNodeId) ∨
      RegisteredItself ep s
  | _ => True

/-! ## Lemmas -/

theorem findConflict_isSome_iff (registry : Registry) (ep : Endpoint) :
    (findConflict registry ep).isSome = true ↔ Listed registry ep := by
  unfold findConflict Listed
  rw [Option.isSome_map, List.find?_isSome]
  constructor
  · rintro ⟨⟨d, info⟩, hmem, he⟩
    exact ⟨d, info, AList.mem_lookup_iff.mpr hmem, of_decide_eq_true he⟩
  · rintro ⟨d, info, hl, he⟩
    exact ⟨⟨d, info⟩, AList.mem_lookup_iff.mp hl, decide_eq_true he⟩

instance (registry : Registry) (ep : Endpoint) : Decidable (Listed registry ep) :=
  decidable_of_iff _ (findConflict_isSome_iff registry ep)

instance (ep : Endpoint) (s : Lifecycle) : Decidable (RegisteredItself ep s) :=
  inferInstanceAs (Decidable (_ ∧ _))

instance (ep : Endpoint) (s : Lifecycle) : (a : LifeAction) → Decidable (StartsFresh ep s a)
  | .start _ => inferInstanceAs (Decidable (_ ∨ _))
  | .stop => isTrue trivial
  | .crash => isTrue trivial
  | .otherRegister _ _ => isTrue trivial
  | .otherUnregister _ => isTrue trivial

theorem construct_nodeId {address : String} {server : DataNodeServer}
    (h : DataNodeServer.construct address = .ok server) : server.nodeId = -1 := by
  unfold DataNodeServer.construct at h
  split at h
  · cases h
    rfl
  · split at h
    · cases h
    · cases h
      rfl

/-- A registration of an address that is listed changes nothing. -/
theorem registerDataNode_listed {peer : String} {port : Int32} {c : Cluster}
    (h : Listed c.registeredNodes ⟨extractClientAddress peer, port⟩) :
    (registerDataNode peer port c).2.1.success = false ∧ (registerDataNode peer port c).2.2 = c := by
  obtain ⟨existingId, hc⟩ := Option.isSome_iff_exists.mp ((findConflict_isSome_iff _ _).mpr h)
  unfold registerDataNode
  simp only [hc]
  exact ⟨rfl, trivial⟩

/-- One of an address that is not listed gets the next id. -/
theorem registerDataNode_free {peer : String} {port : Int32} {c : Cluster}
    (h : ¬ Listed c.registeredNodes ⟨extractClientAddress peer, port⟩) :
    registerDataNode peer port c = (Status.OK, { success := true, nodeId := c.nextNodeId },
      { c with
        nextNodeId := c.nextNodeId + 1
        registeredNodes := c.registeredNodes.insert c.nextNodeId
          ⟨c.nextNodeId, extractClientAddress peer, port⟩ }) := by
  have hc : findConflict c.registeredNodes ⟨extractClientAddress peer, port⟩ = none := by
    rw [← Option.not_isSome_iff_eq_none]
    exact fun hsome => h ((findConflict_isSome_iff _ _).mp hsome)
  unfold registerDataNode
  simp only [hc]

/-- `Start` at an address that is listed. -/
theorem start_listed {server : DataNodeServer} {peer : String} {c : Cluster}
    (h : Listed c.registeredNodes ⟨extractClientAddress peer, server.listeningPort⟩) :
    server.start peer c = (server, c) := by
  obtain ⟨hrefused, hsame⟩ := registerDataNode_listed h
  unfold DataNodeServer.start DataNodeServer.registerWithCoordinator
  simp only [hrefused, hsame, Bool.and_false, Bool.false_eq_true, if_false]

/-- `Start` at one that is not. -/
theorem start_free {server : DataNodeServer} {peer : String} {c : Cluster}
    (h : ¬ Listed c.registeredNodes ⟨extractClientAddress peer, server.listeningPort⟩) :
    server.start peer c = ({ server with nodeId := c.nextNodeId }, { c with
      nextNodeId := c.nextNodeId + 1
      registeredNodes := c.registeredNodes.insert c.nextNodeId
        ⟨c.nextNodeId, extractClientAddress peer, server.listeningPort⟩ }) := by
  unfold DataNodeServer.start DataNodeServer.registerWithCoordinator
  rw [registerDataNode_free h]
  rfl

theorem unregisterDataNode_registeredNodes (nodeId : Int32) (c : Cluster) :
    (unregisterDataNode nodeId c).2.2.registeredNodes = c.registeredNodes.erase nodeId := by
  unfold unregisterDataNode
  split
  · next hnone =>
    have habsent : nodeId ∉ c.registeredNodes := by
      rw [← AList.lookup_eq_none]
      exact Option.isNone_iff_eq_none.mp hnone
    exact (AList.ext (List.kerase_of_notMem_keys habsent)).symm
  · rfl

theorem stop_registeredNodes (server : DataNodeServer) (c : Cluster) :
    (server.stop c).registeredNodes =
      if 0 < server.nodeId then c.registeredNodes.erase server.nodeId else c.registeredNodes := by
  unfold DataNodeServer.stop
  by_cases hid : 0 < server.nodeId
  · rw [if_pos hid, if_pos hid, DataNodeServer.unregisterWithCoordinator, if_neg (Int32.not_le.mpr hid)]
    exact unregisterDataNode_registeredNodes ..
  · rw [if_neg hid, if_neg hid]

/-! ## Invariant -/

section
variable {host : String} {fresh : DataNodeServer} {s t : Lifecycle}

/-- The process's own entry is the only one at its address; there is none when it was
stopped. -/
structure LifeInv (host : String) (fresh : DataNodeServer) (s : Lifecycle) : Prop where
  port : s.server.listeningPort = fresh.listeningPort
  idle : s.started = false → s.server.nodeId = -1
  own : s.started = true → ∀ d info, s.coordinator.registeredNodes.lookup d = some info →
    info.endpoint = ⟨host, fresh.listeningPort⟩ → d = s.server.nodeId ∧ 0 < s.server.nodeId
  gone : NotLeft ⟨host, fresh.listeningPort⟩ s

/-- Steps of others, which bring no entry at the datanode's address. -/
theorem LifeInv.frame (h : LifeInv host fresh s) {c : Cluster}
    (hc : ∀ d info, c.registeredNodes.lookup d = some info → info.endpoint = ⟨host, fresh.listeningPort⟩ →
      s.coordinator.registeredNodes.lookup d = some info) : LifeInv host fresh { s with coordinator := c } := by
  refine ⟨h.port, h.idle, ?_, ?_⟩
  · exact fun hs d info hl he => h.own hs d info (hc d info hl he) he
  · rintro hs ⟨d, info, hl, he⟩
    exact h.gone hs ⟨d, info, hc d info hl he, he⟩

theorem lifeInv_start {peer : String} (hpeer : extractClientAddress peer = host)
    (hfresh : StartsFresh ⟨host, fresh.listeningPort⟩ s (.start peer)) (h : LifeInv host fresh s) :
    LifeInv host fresh
      ⟨(s.server.start peer s.coordinator).1, (s.server.start peer s.coordinator).2, true, false⟩ := by
  subst hpeer
  rcases hfresh with ⟨hfree, hnext⟩ | ⟨hpos, hself⟩
  · -- the address is free: it gets the next id
    rw [← h.port] at hfree
    rw [start_free hfree]
    refine ⟨h.port, nofun, ?_, nofun⟩
    intro _ d info hl he
    by_cases hd : d = s.coordinator.nextNodeId
    · exact ⟨hd, hnext⟩
    · rw [← h.port] at he
      refine absurd ⟨d, info, ?_, he⟩ hfree
      rwa [← AList.lookup_insert_ne hd]
  · -- the process is registered, and refused
    obtain ⟨info, hl, he⟩ := Option.map_eq_some_iff.mp hself
    have hstarted : s.started = true := by
      by_contra hnot
      rw [h.idle (Bool.eq_false_iff.mpr hnot)] at hpos
      exact absurd hpos (by decide)
    have hlisted : Listed s.coordinator.registeredNodes
        ⟨extractClientAddress peer, s.server.listeningPort⟩ := by
      rw [h.port]
      exact ⟨_, info, hl, he⟩
    rw [start_listed hlisted]
    exact ⟨h.port, nofun, fun _ => h.own hstarted, nofun⟩

theorem lifeInv_stop (h : LifeInv host fresh s) :
    LifeInv host fresh { s with
      coordinator := s.server.stop s.coordinator, stopped := s.stopped || s.started } := by
  have hless : ∀ d info, (s.server.stop s.coordinator).registeredNodes.lookup d = some info →
      s.coordinator.registeredNodes.lookup d = some info := by
    intro d info hl
    rw [stop_registeredNodes] at hl
    split at hl
    · exact lookup_of_erase hl
    · exact hl
  refine ⟨h.port, h.idle, fun hs d info hl he => h.own hs d info (hless d info hl) he, ?_⟩
  rintro hstopped ⟨d, info, hl, he⟩
  rcases Bool.or_eq_true_iff.mp hstopped with hs | hs
  · exact h.gone hs ⟨d, info, hless d info hl, he⟩
  · -- the entry was the process's own, and is erased
    obtain ⟨rfl, hpos⟩ := h.own hs d info (hless d info hl) he
    rw [stop_registeredNodes, if_pos hpos] at hl
    simp at hl

/-- **One step.** -/
theorem lifeInv_step (hnew : fresh.nodeId = -1) {a : LifeAction}
    (hfresh : StartsFresh ⟨host, fresh.listeningPort⟩ s a) (ht : Lifecycle.step host fresh s a = some t)
    (h : LifeInv host fresh s) : LifeInv host fresh t := by
  cases a with
  | start peer =>
    simp only [Lifecycle.step] at ht
    split at ht
    · next hpeer =>
      cases ht
      exact lifeInv_start hpeer hfresh h
    · cases ht
  | stop =>
    cases ht
    exact lifeInv_stop h
  | crash =>
    cases ht
    exact ⟨rfl, fun _ => hnew, nofun, h.gone⟩
  | otherRegister peer port =>
    simp only [Lifecycle.step] at ht
    split at ht
    · cases ht
    · next hother =>
      cases ht
      refine h.frame fun d info hl he => ?_
      by_cases hlisted : Listed s.coordinator.registeredNodes ⟨extractClientAddress peer, port⟩
      · rwa [(registerDataNode_listed hlisted).2] at hl
      · rw [registerDataNode_free hlisted] at hl
        by_cases hd : d = s.coordinator.nextNodeId
        · subst hd
          rw [AList.lookup_insert] at hl
          cases hl
          exact absurd he hother
        · rwa [AList.lookup_insert_ne hd] at hl
  | otherUnregister nodeId =>
    cases ht
    refine h.frame fun d info hl _ => ?_
    rw [unregisterDataNode_registeredNodes] at hl
    exact lookup_of_erase hl

end

/-! ## Top theorem -/

/-- **A stopped datanode is not listed**, while every `Start` finds its address free. -/
theorem notLeft_of_startsFresh (host address : String) (fresh : DataNodeServer)
    (hnew : DataNodeServer.construct address = .ok fresh) (c : Cluster) (as : List LifeAction) (s : Lifecycle)
    (hrun : exec (Lifecycle.step host fresh) { server := fresh, coordinator := c } as = some s)
    (hfresh : Along (Lifecycle.step host fresh) (StartsFresh ⟨host, fresh.listeningPort⟩)
      { server := fresh, coordinator := c } as) : NotLeft ⟨host, fresh.listeningPort⟩ s := by
  have hid := construct_nodeId hnew
  have hstart : LifeInv host fresh { server := fresh, coordinator := c } :=
    ⟨rfl, fun _ => hid, nofun, nofun⟩
  exact (exec_along (fun s a t ha ht h => lifeInv_step hid ha ht h) as hrun hfresh hstart).gone

/-- The datanode is stopped, started again and stopped again. -/
def gracefulRestart : List LifeAction :=
  [.start "ipv4:10.0.0.1:40001", .stop, .start "ipv4:10.0.0.1:40002", .otherRegister "ipv4:10.0.0.2:40001" 50054,
    .stop]

theorem notLeft_gracefulRestart : ∃ s,
    exec (Lifecycle.step "ipv4:10.0.0.1" { listeningPort := 50054 })
      { server := { listeningPort := 50054 }, coordinator := .start fun _ _ => none } gracefulRestart = some s ∧
    s.stopped = true ∧ NotLeft ⟨"ipv4:10.0.0.1", 50054⟩ s := by
  have hrun : (exec (Lifecycle.step "ipv4:10.0.0.1" { listeningPort := 50054 })
      { server := { listeningPort := 50054 }, coordinator := .start fun _ _ => none } gracefulRestart).map
        Lifecycle.stopped = some true := by decide
  obtain ⟨s, hs, hstopped⟩ := Option.map_eq_some_iff.mp hrun
  exact ⟨s, hs, hstopped, notLeft_of_startsFresh "ipv4:10.0.0.1" "0.0.0.0:50054" { listeningPort := 50054 }
    (by decide) _ gracefulRestart s hs (by decide)⟩

/-- The process crashes; its successor is started and stopped. -/
def crashRestart : List LifeAction :=
  [.start "ipv4:10.0.0.1:40001", .crash, .start "ipv4:10.0.0.1:40002", .stop]

theorem left_crashRestart : ¬ ∀ (host address : String) (fresh : DataNodeServer),
    DataNodeServer.construct address = .ok fresh → ∀ c : Cluster,
      ¬ Listed c.registeredNodes ⟨host, fresh.listeningPort⟩ → ∀ as s,
        exec (Lifecycle.step host fresh) { server := fresh, coordinator := c } as = some s →
          NotLeft ⟨host, fresh.listeningPort⟩ s := by
  intro hall
  have hrun : (exec (Lifecycle.step "ipv4:10.0.0.1" { listeningPort := 50054 })
      { server := { listeningPort := 50054 }, coordinator := .start fun _ _ => none } crashRestart).map
        (fun s => (s.stopped, s.coordinator.registeredNodes.lookup 1)) =
      some (true, some ⟨1, "ipv4:10.0.0.1", 50054⟩) := by decide
  obtain ⟨s, hs, hrun⟩ := Option.map_eq_some_iff.mp hrun
  injection hrun with hstopped hentry
  exact hall "ipv4:10.0.0.1" "0.0.0.0:50054" { listeningPort := 50054 } (by decide) (.start fun _ _ => none)
    (by decide) crashRestart s hs hstopped ⟨1, _, hentry, rfl⟩

/-! ## Every other start -/

/-- **After any other `Start`, a `Stop` leaves the datanode listed.** -/
theorem left_of_not_startsFresh {host peer : String} {fresh : DataNodeServer} {s t u : Lifecycle}
    (hport : s.server.listeningPort = fresh.listeningPort)
    (hbad : ¬ StartsFresh ⟨host, fresh.listeningPort⟩ s (.start peer))
    (ht : Lifecycle.step host fresh s (.start peer) = some t) (hu : Lifecycle.step host fresh t .stop = some u) :
    ¬ NotLeft ⟨host, fresh.listeningPort⟩ u := by
  obtain ⟨hnotFree, hnotSelf⟩ := not_or.mp hbad
  simp only [Lifecycle.step] at ht
  split at ht
  · next hpeer =>
    subst hpeer
    cases ht
    cases hu
    rw [← hport] at hnotFree hnotSelf ⊢
    intro hnot
    refine hnot rfl ?_
    simp only [stop_registeredNodes]
    by_cases hlisted : Listed s.coordinator.registeredNodes
        ⟨extractClientAddress peer, s.server.listeningPort⟩
    · -- refused: the process stops with the id it had
      rw [start_listed hlisted]
      obtain ⟨d, info, hl, he⟩ := hlisted
      refine ⟨d, info, ?_, he⟩
      by_cases hid : 0 < s.server.nodeId
      · have hne : d ≠ s.server.nodeId := by
          rintro rfl
          exact hnotSelf ⟨hid, by rw [hl, Option.map_some, he]⟩
        rw [if_pos hid, AList.lookup_erase_ne hne, hl]
      · rw [if_neg hid, hl]
    · -- registered under an id that is not positive
      have hnext : ¬ 0 < s.coordinator.nextNodeId := fun hpos => hnotFree ⟨hlisted, hpos⟩
      rw [start_free hlisted, if_neg hnext]
      exact ⟨s.coordinator.nextNodeId, _, AList.lookup_insert _, rfl⟩
  · cases ht

end ToyDfs
