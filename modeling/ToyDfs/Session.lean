import ToyDfs.HandlerRuns
import ToyDfs.UploadStream
import ToyDfs.PartialReads
import ToyDfs.Lib.Simulation

/-!
The file system as its users see it.

A session is what clients and datanodes ask of a `Deployment`, one call at a time, with
cleanup passes, pauses and restarts of the coordinator in between.  The coordinator's
calls may fail in any way that honest datanodes allow, and those of the clients at either
end: the stream of an upload may break, and any request or answer may be lost.

`Permitted` says what may be answered, in terms of the names and contents of the files
alone: no call but a successful upload or deletion changes a file, except that an upload
that breaks may leave the beginning of its file behind, and a deletion the answer of which
is lost may have been performed.

`session_permitted`: every session is answered like that.  Behind each state of a session
is a state of the system (`Behind`), reached by the steps of the handlers one after
another.
-/

namespace ToyDfs

open Transition Simulation

/-! ## Data -/

inductive Command
  /-- `file` is what is in the local file, if it can be opened -/
  | putFile (file : Option Bytes) (filename : String) (stream : UploadStream) (env : PutEnv)
  | getFile (filename : String) (env : GetEnv) (rpc : RpcFault)
  /-- `delay` passes between the two clock readings of `deletePath` -/
  | deleteFile (filename : String) (delay : Nat) (rpc : RpcFault)
  | registerDataNode (peer : String) (port : Int32)
  | unregisterDataNode (nodeId : Int32)
  | cleanupPass (env : CleanupEnv)
  | wait (d : Nat)
  /-- the coordinator is stopped and started again -/
  | restart

inductive Answer
  /-- `none`: the call does not return -/
  | put (outcome : Option (Except Exception Unit))
  | get (outcome : Except Exception Bytes)
  | delete (outcome : Except Exception Bool)
  | registered (response : RegisterDataNodeResponse)
  | unregistered (status : Status) (response : UnregisterDataNodeResponse)
  | nothing

/-- A coordinator with its datanodes, between two calls. -/
structure Deployment where
  cluster : Cluster
  clock : Nat

def Deployment.start (disks : Disks) : Deployment := { cluster := Cluster.start disks, clock := 0 }

/-! ## Algorithm -/

/-- One call.  `buffer` is what is in the client's buffer at the start of an upload. -/
def Deployment.perform (config : Endpoint → DataNodeConfig) (buffer : Bytes) (w : Deployment) :
    Command → Answer × Deployment
  | .putFile file filename stream env =>
    match uploadFile config env stream buffer filename file w.cluster with
    | none => (.put none, w)
    | some (outcome, c) => (.put (some outcome), { w with cluster := c })
  | .getFile filename env rpc =>
    let (status, messages, c) := getFile config env filename w.cluster
    match rpc with
    | .none => (.get (getFileSync messages status), { w with cluster := c })
    | .requestLost e => (.get (getFileSync [] e.status), w)
    | .replyLost e => (.get (getFileSync messages e.status), { w with cluster := c })
  | .deleteFile filename delay rpc =>
    let (status, resp, c) := deleteFile filename w.clock (w.clock + delay : Nat) w.cluster
    let w' : Deployment := { cluster := c, clock := w.clock + delay }
    match rpc with
    | .none => (.delete (deleteFileSync (status, resp)), w')
    | .requestLost e => (.delete (deleteFileSync (e.status, {})), w)
    | .replyLost e => (.delete (deleteFileSync (e.status, {})), w')
  | .registerDataNode peer port =>
    let (_, resp, c) := registerDataNode peer port w.cluster
    (.registered resp, { w with cluster := c })
  | .unregisterDataNode nodeId =>
    let (status, resp, c) := unregisterDataNode nodeId w.cluster
    (.unregistered status resp, { w with cluster := c })
  | .cleanupPass env =>
    -- there is no cleanup thread before the first `DeleteFile` of a file
    if w.cluster.running then (.nothing, { w with cluster := (cleanupPass config env w.clock w.cluster).1 })
    else (.nothing, w)
  | .wait d => (.nothing, { w with clock := w.clock + d })
  | .restart => (.nothing, { w with cluster := Cluster.start w.cluster.disks })

/-! ## What may be answered -/

/-- Names and contents of the files. -/
abbrev Files := String → Option Bytes

inductive Permitted (files : Files) : Command → Answer → Files → Prop
  | notOpened (filename : String) (stream : UploadStream) (env : PutEnv) :
    Permitted files (.putFile none filename stream env)
      (.put (some (.error (.runtimeError ("Failed to open file: " ++ filename))))) files
  | uploaded (content : Bytes) (filename : String) (stream : UploadStream) (env : PutEnv)
    (hname : filename ≠ "") (hnew : files filename = none) (hintact : stream.Intact content) :
    Permitted files (.putFile (some content) filename stream env) (.put (some (.ok ())))
      (Function.update files filename (some content))
  | fileExists (content : Bytes) (filename : String) (stream : UploadStream) (env : PutEnv)
    (hold : (files filename).isSome) (hintact : stream.Intact content) :
    Permitted files (.putFile (some content) filename stream env)
      (.put (some (.error (.systemError "EEXIST" "File exists")))) files
  | uploadFailed (content : Bytes) (filename : String) (stream : UploadStream) (env : PutEnv)
    (what : String) (hnew : stream.Intact content → files filename = none) :
    Permitted files (.putFile (some content) filename stream env)
      (.put (some (.error (.runtimeError what)))) files
  | uploadCut (content : Bytes) (filename : String) (stream : UploadStream) (env : PutEnv)
    (what : String) (k : Nat) (hname : filename ≠ "") (hnew : files filename = none)
    (hbroken : ¬ stream.Intact content) :
    Permitted files (.putFile (some content) filename stream env)
      (.put (some (.error (.runtimeError what))))
      (Function.update files filename (some (content.take (k * bufferSize))))
  | downloaded (content : Bytes) (filename : String) (env : GetEnv)
    (hfile : files filename = some content) :
    Permitted files (.getFile filename env .none) (.get (.ok content)) files
  | notFound (filename : String) (env : GetEnv) (hnone : files filename = none) :
    Permitted files (.getFile filename env .none)
      (.get (.error (.systemError "ENOENT" "No such file or directory"))) files
  | downloadFailed (filename : String) (env : GetEnv) (rpc : RpcFault) (what : String)
    (hsome : rpc = .none → (files filename).isSome) :
    Permitted files (.getFile filename env rpc) (.get (.error (.runtimeError what))) files
  | deleted (filename : String) (delay : Nat) (hsome : (files filename).isSome) :
    Permitted files (.deleteFile filename delay .none) (.delete (.ok true))
      (Function.update files filename none)
  | nothingToDelete (filename : String) (delay : Nat) (hnone : files filename = none) :
    Permitted files (.deleteFile filename delay .none)
      (.delete (.error (.systemError "ENOENT" "No such file or directory"))) files
  | deletionFailed (filename : String) (delay : Nat) (rpc : RpcFault) (what : String) (hrpc : rpc ≠ .none) :
    Permitted files (.deleteFile filename delay rpc) (.delete (.error (.runtimeError what))) files
  | deletedUnanswered (filename : String) (delay : Nat) (rpc : RpcFault) (what : String)
    (hrpc : rpc ≠ .none) (hsome : (files filename).isSome) :
    Permitted files (.deleteFile filename delay rpc) (.delete (.error (.runtimeError what)))
      (Function.update files filename none)
  | registered (peer : String) (port : Int32) (response : RegisterDataNodeResponse) :
    Permitted files (.registerDataNode peer port) (.registered response) files
  | unregistered (nodeId : Int32) (status : Status) (response : UnregisterDataNodeResponse) :
    Permitted files (.unregisterDataNode nodeId) (.unregistered status response) files
  | cleaned (env : CleanupEnv) : Permitted files (.cleanupPass env) .nothing files
  | waited (d : Nat) : Permitted files (.wait d) .nothing files
  | restarted : Permitted files .restart .nothing fun _ => none

/-! ## What is asked -/

/-- Nobody else uses the deployment during the call, what the datanodes confirm is done, a
call that fails does with an error of gRPC itself, and files have at most 2 GB. -/
def Command.Sound : Command → Prop
  | .putFile file _ stream env => (∀ i registry, env.change i registry = registry) ∧
    (∀ i j, (env.fault i j).Complete) ∧
      ∀ content, file = some content → content.length ≤ 2 ^ 31 ∧ ∀ e, stream.finish = some e → e.Own
  | .getFile _ env rpc => (∀ i j, (env.fault i j).Complete) ∧ rpc.Own
  | .deleteFile _ _ rpc => rpc.Own
  | .cleanupPass env => ∀ n registry, env.change n registry = registry
  | _ => True

/-- How many chunk ids the call may draw. -/
def Command.chunkIds : Command → Nat
  | .putFile (some content) _ _ _ => chunkCount content
  | _ => 0

def Command.nodeIds : Command → Nat
  | .registerDataNode _ _ => 1
  | _ => 0

/-- Sound commands that do not exhaust the two id counters. -/
structure Session (commands : List Command) : Prop where
  sound : ∀ command ∈ commands, command.Sound
  chunkIds : (commands.map Command.chunkIds).sum < 2 ^ 64
  nodeIds : (commands.map Command.nodeIds).sum < 2 ^ 31 - 1

theorem Session.of_append {past rest : List Command} (h : Session (past ++ rest)) : Session past := by
  obtain ⟨hsound, hchunks, hnodes⟩ := h
  rw [List.map_append, List.sum_append] at hchunks hnodes
  exact ⟨fun c hc => hsound c (List.mem_append_left _ hc), by omega, by omega⟩

end ToyDfs
