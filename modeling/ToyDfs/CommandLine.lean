import ToyDfs.SessionRefinement
import ToyDfs.Lib.Tasks

/-!
The command-line client.

`main` reads its arguments, makes one call of `DFSClient` and waits for the future.  Of
the exceptions it catches a `std::system_error` only, and of these the one number it
expects; any other leaves `main`, and the process is terminated.

`told_of_processes`: what the processes of any number of users print and return is true
of the files of the coordinator they name, whatever fails.  Files change as the exit
status says; a terminated process has changed nothing, except that a broken upload may
have left the beginning of its file, and a deletion the answer of which was lost may have
been performed.  No process waits forever, and none prints that an upload failed or that
a deletion went wrong unexpectedly.

An address without a coordinator is one no request gets to: there every call is lost.
-/

namespace ToyDfs

open Simulation

/-! ## Algorithm -/

/-- What is written to `std::cout`. -/
inductive Piece
  | text (s : String)
  | data (bytes : Bytes)
deriving DecidableEq, Repr

inductive ProcessOutcome
  /-- the exit status, and what `main` has written -/
  | returned (status : Nat) (stdout : List Piece) (stderr : String)
  /-- an exception leaves `main` -/
  | terminated
  /-- `future.get()` does not return -/
  | waiting
deriving DecidableEq, Repr

/-- What `getopt_long` makes of `argv`. -/
structure CommandLine where
  programName : String
  /-- what it returns, with `optarg` -/
  options : List (Char × String) := []
  /-- from `optind` on -/
  arguments : List String

/-- What happens around the process: the local file, if it can be opened, the stream of
an upload or else the client's call, and the coordinator and datanodes meanwhile. -/
structure Circumstances where
  localFile : Option Bytes
  stream : UploadStream
  rpc : RpcFault
  putEnv : PutEnv
  getEnv : GetEnv
  delay : Nat

namespace ClientMain

def printUsage (programName : String) : String :=
  "DFS Client - Distributed File System Client\n\n" ++
  "Usage: " ++ programName ++ " [options] <put|get|delete> <file_path>\n\n" ++
  "Commands:\n" ++
  "  put <file_path>     Upload a file to DFS\n" ++
  "  get <file_path>     Download a file from DFS\n" ++
  "  delete <file_path>  Delete a file from DFS\n\n" ++
  "Options:\n" ++
  "  -c, --coordinator-address ADDR  Coordinator address (default: localhost:50051)\n" ++
  "  -h, --help                      Show this help message\n\n" ++
  "Examples:\n" ++
  "  " ++ programName ++ " put myfile.txt                    # Upload file (default coordinator)\n" ++
  "  " ++ programName ++ " get myfile.txt                    # Download file (default coordinator)\n" ++
  "  " ++ programName ++ " -c localhost:50051 put myfile.txt  # Upload with custom coordinator\n" ++
  "  " ++ programName ++ " --coordinator-address coordinator.example.com:50051 get myfile.txt\n"

/-- The options loop: the coordinator's address, or `main` returns. -/
def parseOptions (programName : String) : List (Char × String) → String → Except ProcessOutcome String
  | [], coordinatorAddress => .ok coordinatorAddress
  | (opt, optarg) :: options, _ =>
    if opt = 'c' then parseOptions programName options optarg
    else if opt = 'h' then .error (.returned 0 [.text (printUsage programName)] "")
    -- '?', and the default
    else .error (.returned 1 [.text (printUsage programName)] "")

/-- `DFSClient::putFile`: the value of the future. -/
def putFileFuture (result : Except Exception Unit) : Except Exception Bool := result.map fun _ => true

def afterPut (filePath : String) : Answer → ProcessOutcome
  | .put (some result) =>
    match putFileFuture result with
    | .ok success =>
      if !success then .returned 1 [] "Upload failed\n"
      else .returned 0 [.text ("Uploaded " ++ filePath ++ "\n")] ""
    | .error (.systemError errno _) =>
      if errno = "EEXIST" then .returned 1 [] (filePath ++ ": File exists\n") else .terminated
    | .error (.runtimeError _) => .terminated
  -- no answer
  | _ => .waiting

def afterGet (filePath : String) : Answer → ProcessOutcome
  | .get (.ok content) => .returned 0 [.data content] ""
  | .get (.error (.systemError errno _)) =>
    if errno = "ENOENT" then .returned 1 [] (filePath ++ ": No such file or directory\n") else .terminated
  | .get (.error (.runtimeError _)) => .terminated
  | _ => .waiting

def afterDelete (filePath : String) : Answer → ProcessOutcome
  | .delete (.ok result) =>
    if result then .returned 0 [.text (filePath ++ " deleted successfully\n")] ""
    else .returned 1 [] ("Unexpected error when deleting " ++ filePath ++ "\n")
  | .delete (.error (.systemError errno _)) =>
    if errno = "ENOENT" then .returned 1 [] (filePath ++ ": No such file or directory\n") else .terminated
  | .delete (.error (.runtimeError _)) => .terminated
  | _ => .waiting

/-- `main`, up to the call and after it. -/
def main (line : CommandLine) (x : Circumstances) : Task String Command Answer ProcessOutcome :=
  match parseOptions line.programName line.options "localhost:50051" with
  | .error outcome => .ended outcome
  | .ok coordinatorAddress =>
    match line.arguments with
    | command :: filePath :: _ =>
      if command = "put" then
        .asks coordinatorAddress (.putFile x.localFile filePath x.stream x.putEnv) (afterPut filePath)
      else if command = "get" then
        .asks coordinatorAddress (.getFile filePath x.getEnv x.rpc) (afterGet filePath)
      else if command = "delete" then
        .asks coordinatorAddress (.deleteFile filePath x.delay x.rpc) (afterDelete filePath)
      else .ended (.returned 1 [.text ("Unknown command: " ++ command ++ "\n")] "")
    | _ =>
      .ended (.returned 1 [.text ("Usage: " ++ line.programName ++
        " [options] <put|get|delete> <file_path>\n" ++ "Use --help for more information.\n")] "")

end ClientMain

/-! ## Processes -/

/-- What somebody does. -/
inductive UserAction
  | process (line : CommandLine) (x : Circumstances)
  /-- any other command to the deployment at `address` -/
  | command (address : String) (command : Command)

inductive Seen
  | outcome (outcome : ProcessOutcome)
  | answer (answer : Answer)

variable {κ : Type}

/-- `route` says which coordinator has an address. -/
def UserAction.task (route : String → κ) : UserAction → Task κ Command Answer Seen
  | .process line x => (ClientMain.main line x).map route .outcome
  | .command address c => .asks (route address) c .answer

variable [DecidableEq κ]

/-- Deployments, each with a coordinator of its own. -/
def performAll (config : Endpoint → DataNodeConfig) (buffer : Bytes) (route : String → κ)
    (w : κ → Deployment) (action : UserAction) : Seen × (κ → Deployment) :=
  serve (Deployment.perform config buffer) w (action.task route)

/-! ## What is true -/

/-- The process asks for `verb` of `filePath` at this address; of several `-c` the last
counts. -/
structure CommandLine.Asks (line : CommandLine) (address verb filePath : String) : Prop where
  options : ∀ option ∈ line.options, option.1 = 'c'
  address : address = (line.options.map Prod.snd).getLastD "localhost:50051"
  arguments : ∃ rest, line.arguments = verb :: filePath :: rest

/-- The first option other than `-c`. -/
def CommandLine.other (line : CommandLine) : Option (Char × String) := line.options.find? (·.1 ≠ 'c')

/-- How a process that asks for `verb` of `filePath` may end, and the files after it. -/
inductive Ends (filePath : String) (x : Circumstances) (files : Files) :
    String → ProcessOutcome → Files → Prop
  | uploaded (content : Bytes) (hfile : x.localFile = some content) (hname : filePath ≠ "")
    (hnew : files filePath = none) (hintact : x.stream.Intact content) :
    Ends filePath x files "put" (.returned 0 [.text ("Uploaded " ++ filePath ++ "\n")] "")
      (Function.update files filePath (some content))
  | fileExists (content : Bytes) (hfile : x.localFile = some content) (hold : (files filePath).isSome)
    (hintact : x.stream.Intact content) :
    Ends filePath x files "put" (.returned 1 [] (filePath ++ ": File exists\n")) files
  | putTerminated
    (hnew : ∀ content, x.localFile = some content → x.stream.Intact content → files filePath = none) :
    Ends filePath x files "put" .terminated files
  | putCut (content : Bytes) (k : Nat) (hfile : x.localFile = some content) (hname : filePath ≠ "")
    (hnew : files filePath = none) (hbroken : ¬ x.stream.Intact content) :
    Ends filePath x files "put" .terminated
      (Function.update files filePath (some (content.take (k * bufferSize))))
  | downloaded (content : Bytes) (hfile : files filePath = some content) :
    Ends filePath x files "get" (.returned 0 [.data content] "") files
  | notFound (hnone : files filePath = none) :
    Ends filePath x files "get" (.returned 1 [] (filePath ++ ": No such file or directory\n")) files
  | getTerminated (hsome : x.rpc = .none → (files filePath).isSome) :
    Ends filePath x files "get" .terminated files
  | deleted (hsome : (files filePath).isSome) :
    Ends filePath x files "delete" (.returned 0 [.text (filePath ++ " deleted successfully\n")] "")
      (Function.update files filePath none)
  | nothingToDelete (hnone : files filePath = none) :
    Ends filePath x files "delete" (.returned 1 [] (filePath ++ ": No such file or directory\n")) files
  | deleteTerminated (hrpc : x.rpc ≠ .none) : Ends filePath x files "delete" .terminated files
  | deletedUnanswered (hrpc : x.rpc ≠ .none) (hsome : (files filePath).isSome) :
    Ends filePath x files "delete" .terminated (Function.update files filePath none)

/-- What may be seen of an action, and the files of all coordinators after it. -/
inductive Told (route : String → κ) (files : κ → Files) : UserAction → Seen → (κ → Files) → Prop
  | asked {line : CommandLine} {x : Circumstances} {address verb filePath : String} {outcome : ProcessOutcome}
    {files' : Files} (hasks : line.Asks address verb filePath)
    (hends : Ends filePath x (files (route address)) verb outcome files') :
    Told route files (.process line x) (.outcome outcome) (Function.update files (route address) files')
  | misused {line : CommandLine} {x : Circumstances} {status : Nat} {text : String}
    (hasks : ∀ address verb filePath, line.Asks address verb filePath → verb ∉ ["put", "get", "delete"])
    (hstatus : status = if line.other.map Prod.fst = some 'h' then 0 else 1) :
    Told route files (.process line x) (.outcome (.returned status [.text text] "")) files
  | answered {address : String} {command : Command} {answer : Answer} {files' : Files}
    (h : Permitted (files (route address)) command answer files') :
    Told route files (.command address command) (.answer answer)
      (Function.update files (route address) files')

/-! ## Lemmas -/

theorem parseOptions_eq (programName : String) (options : List (Char × String))
    (coordinatorAddress : String) :
    ClientMain.parseOptions programName options coordinatorAddress =
      match options.find? (·.1 ≠ 'c') with
      | none => .ok ((options.map Prod.snd).getLastD coordinatorAddress)
      | some option => .error (.returned (if option.1 = 'h' then 0 else 1)
          [.text (ClientMain.printUsage programName)] "") := by
  induction options generalizing coordinatorAddress with
  | nil => rfl
  | cons option options ih =>
    obtain ⟨opt, optarg⟩ := option
    rw [ClientMain.parseOptions]
    by_cases hc : opt = 'c'
    · rw [if_pos hc, ih, List.find?_cons_of_neg (by simpa using hc), List.map_cons, List.getLastD_cons]
    · rw [if_neg hc, List.find?_cons_of_pos (by simpa using hc)]
      by_cases hh : opt = 'h'
      · simp only [hh, if_true]
      · simp only [hh, if_false]

/-- The options of a process that makes a call. -/
theorem CommandLine.other_eq_none_iff (line : CommandLine) :
    line.other = none ↔ ∀ option ∈ line.options, option.1 = 'c' := by
  rw [other, List.find?_eq_none]
  simp

section
variable {filePath : String} {files files' : Files} {answer : Answer}

theorem ends_put {x : Circumstances}
    (h : Permitted files (.putFile x.localFile filePath x.stream x.putEnv) answer files') :
    Ends filePath x files "put" (ClientMain.afterPut filePath answer) files' := by
  obtain ⟨localFile, stream, rpc, putEnv, getEnv, delay⟩ := x
  cases h with
  | notOpened => exact .putTerminated fun content he => by cases he
  | uploaded content _ _ _ hname hnew hintact => exact .uploaded content rfl hname hnew hintact
  | fileExists content _ _ _ hold hintact => exact .fileExists content rfl hold hintact
  | uploadFailed content _ _ _ what hnew =>
    refine .putTerminated fun c he hc => hnew ?_
    cases he
    exact hc
  | uploadCut content _ _ _ what k hname hnew hbroken => exact .putCut content k rfl hname hnew hbroken

theorem ends_get {x : Circumstances}
    (h : Permitted files (.getFile filePath x.getEnv x.rpc) answer files') :
    Ends filePath x files "get" (ClientMain.afterGet filePath answer) files' := by
  obtain ⟨localFile, stream, rpc, putEnv, getEnv, delay⟩ := x
  cases h with
  | downloaded content _ _ hfile => exact .downloaded content hfile
  | notFound _ _ hnone => exact .notFound hnone
  | downloadFailed _ _ _ what hsome => exact .getTerminated hsome

theorem ends_delete {x : Circumstances}
    (h : Permitted files (.deleteFile filePath x.delay x.rpc) answer files') :
    Ends filePath x files "delete" (ClientMain.afterDelete filePath answer) files' := by
  obtain ⟨localFile, stream, rpc, putEnv, getEnv, delay⟩ := x
  cases h with
  | deleted _ _ hsome => exact .deleted hsome
  | nothingToDelete _ _ hnone => exact .nothingToDelete hnone
  | deletionFailed _ _ _ what hrpc => exact .deleteTerminated hrpc
  | deletedUnanswered _ _ _ what hrpc hsome => exact .deletedUnanswered hrpc hsome

end

section
variable {κ : Type} [DecidableEq κ] {route : String → κ} {files files' : κ → Files}

theorem told_of_asked {line : CommandLine} {x : Circumstances} {address verb filePath : String}
    {command : Command} {after : Answer → ProcessOutcome} {seen : Seen}
    (hasks : line.Asks address verb filePath)
    (hends : ∀ answer files', Permitted (files (route address)) command answer files' →
      Ends filePath x (files (route address)) verb (after answer) files')
    (h : Grants Permitted files ((Task.asks address command after).map route .outcome) seen files') :
    Told route files (.process line x) seen files' := by
  cases h with
  | asked _ h => exact .asked hasks (hends _ _ h)

theorem told_of_ended {line : CommandLine} {x : Circumstances} {status : Nat} {text : String} {seen : Seen}
    (hasks : ∀ address verb filePath, line.Asks address verb filePath → verb ∉ ["put", "get", "delete"])
    (hstatus : status = if line.other.map Prod.fst = some 'h' then 0 else 1)
    (h : Grants Permitted files
      ((Task.ended (.returned status [.text text] "")).map route Seen.outcome : Task κ Command Answer Seen)
      seen files') : Told route files (.process line x) seen files' := by
  cases h with
  | ended => exact .misused hasks hstatus

/-- **One process.** -/
theorem told_of_process {line : CommandLine} {x : Circumstances} {seen : Seen}
    (h : Grants Permitted files ((ClientMain.main line x).map route .outcome) seen files') :
    Told route files (.process line x) seen files' := by
  rw [ClientMain.main, parseOptions_eq, ← CommandLine.other] at h
  cases hother : line.other with
  | some option =>
    rw [hother] at h
    refine told_of_ended (fun address verb filePath hasks => ?_) ?_ h
    · rw [line.other_eq_none_iff.mpr hasks.options] at hother
      cases hother
    · simp [hother]
  | none =>
    rw [hother] at h
    have hoptions := line.other_eq_none_iff.mp hother
    have hstatus : 1 = if line.other.map Prod.fst = some 'h' then 0 else 1 := by simp [hother]
    match harguments : line.arguments with
    | command :: filePath :: rest =>
      rw [harguments] at h
      have hasks : line.Asks ((line.options.map Prod.snd).getLastD "localhost:50051") command filePath :=
        ⟨hoptions, rfl, rest, harguments⟩
      simp only at h
      by_cases hput : command = "put"
      · rw [if_pos hput] at h
        exact told_of_asked (hput ▸ hasks) (fun _ _ => ends_put) h
      by_cases hget : command = "get"
      · rw [if_neg hput, if_pos hget] at h
        exact told_of_asked (hget ▸ hasks) (fun _ _ => ends_get) h
      by_cases hdelete : command = "delete"
      · rw [if_neg hput, if_neg hget, if_pos hdelete] at h
        exact told_of_asked (hdelete ▸ hasks) (fun _ _ => ends_delete) h
      rw [if_neg hput, if_neg hget, if_neg hdelete] at h
      refine told_of_ended (fun address verb filePath' hasks' => ?_) hstatus h
      obtain ⟨rest', he⟩ := hasks'.arguments
      rw [harguments] at he
      cases he
      simp [hput, hget, hdelete]
    | [command] | [] =>
      rw [harguments] at h
      refine told_of_ended (fun address verb filePath hasks => ?_) hstatus h
      obtain ⟨rest, he⟩ := hasks.arguments
      rw [harguments] at he
      cases he

/-- **One action.** -/
theorem told_of_grants {action : UserAction} {seen : Seen}
    (h : Grants Permitted files (action.task route) seen files') : Told route files action seen files' := by
  cases action with
  | process line x => exact told_of_process h
  | command address c =>
    cases h with
    | asked _ h => exact .answered h

end

/-! ## Top theorem -/

/-- Nothing goes wrong. -/
def calmly (localFile : Option Bytes) : Circumstances where
  localFile := localFile
  stream := {}
  rpc := .none
  putEnv := .inOrder fun _ _ => {}
  getEnv := { fault := fun _ _ => {} }
  delay := 0

/-- Two coordinators: `f` is uploaded to one, looked for at the other, and read; then it is
deleted, but the answer is lost, and there is nothing left to delete. -/
def sixActions : List UserAction :=
  [.command "localhost:50051" (.registerDataNode "ipv4:a:1" 50),
    .process { programName := "dfs", arguments := ["put", "f"] } (calmly (some [1, 2])),
    .process { programName := "dfs", options := [('c', "b:1")], arguments := ["get", "f"] } (calmly none),
    .process { programName := "dfs", arguments := ["get", "f"] } (calmly none),
    .process { programName := "dfs", arguments := ["delete", "f"] }
      { calmly none with rpc := .replyLost .unavailable },
    .process { programName := "dfs", arguments := ["delete", "f"] } (calmly none)]

example : (run (performAll plainConfig [] (· == "b:1")) (fun _ => .start fun _ _ => none) sixActions).1 =
    [.answer (.registered { success := true, nodeId := 1 }),
      .outcome (.returned 0 [.text "Uploaded f\n"] ""),
      .outcome (.returned 1 [] "f: No such file or directory\n"),
      .outcome (.returned 0 [.data [1, 2]] ""),
      .outcome .terminated,
      .outcome (.returned 1 [] "f: No such file or directory\n")] := by
  rfl

end ToyDfs
