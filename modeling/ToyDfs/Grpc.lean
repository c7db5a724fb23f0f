import Mathlib.Data.List.Basic

/-!
What the program uses of gRPC: statuses, request streams, and how a call may
fail.

A streaming handler reads its requests with `ServerReader::Read` until it
returns false.  That happens at the client's half-close and also when the call
is cancelled or broken; `ServerReader.ended` says which one it was, as the
`ServerContext` would.
-/

namespace ToyDfs

/-- `std::string` and proto `bytes` payloads. -/
abbrev Bytes := List UInt8

/-- `grpc::StatusCode`. -/
inductive StatusCode
  | ok
  | cancelled
  | unknown
  | invalidArgument
  | deadlineExceeded
  | notFound
  | alreadyExists
  | permissionDenied
  | resourceExhausted
  | failedPrecondition
  | aborted
  | outOfRange
  | unimplemented
  | internal
  | unavailable
  | dataLoss
  | unauthenticated
deriving DecidableEq, Repr

/-- `static_cast<int>(code)`. -/
def StatusCode.toInt : StatusCode → Int
  | .ok => 0
  | .cancelled => 1
  | .unknown => 2
  | .invalidArgument => 3
  | .deadlineExceeded => 4
  | .notFound => 5
  | .alreadyExists => 6
  | .permissionDenied => 7
  | .resourceExhausted => 8
  | .failedPrecondition => 9
  | .aborted => 10
  | .outOfRange => 11
  | .unimplemented => 12
  | .internal => 13
  | .unavailable => 14
  | .dataLoss => 15
  | .unauthenticated => 16

/-- `grpc::Status`. -/
structure Status where
  code : StatusCode
  errorMessage : String := ""
deriving DecidableEq, Repr

namespace Status

/-- `Status::OK`. -/
def OK : Status := { code := .ok }

/-- `status.ok()`. -/
def isOk (s : Status) : Bool := s.code == .ok

@[simp] theorem isOk_OK : OK.isOk = true := rfl

/-- What a handler that throws is answered with. -/
def unexpectedError : Status := { code := .unknown, errorMessage := "Unexpected error in RPC handling" }

@[simp] theorem isOk_unexpectedError : unexpectedError.isOk = false := rfl

end Status

/-- The status of a call that failed. -/
structure RpcError where
  status : Status
  notOk : status.isOk = false

/-- The peer cannot be reached. -/
def RpcError.unavailable : RpcError := ⟨{ code := .unavailable }, rfl⟩

/-- An error of gRPC itself: it never gives one of these two codes. -/
def RpcError.Own (e : RpcError) : Prop := e.status.code ≠ .notFound ∧ e.status.code ≠ .alreadyExists

/-- What the transport does to one call. -/
inductive RpcFault
  /-- the call is delivered and answered -/
  | none
  /-- the request does not reach the handler -/
  | requestLost (e : RpcError)
  /-- the handler runs, its answer is lost -/
  | replyLost (e : RpcError)

/-- The call fails with errors of gRPC itself. -/
def RpcFault.Own : RpcFault → Prop
  | .none => True
  | .requestLost e => e.Own
  | .replyLost e => e.Own

/-- Why `ServerReader::Read` returned false. -/
inductive StreamEnd
  | writesDone
  | cancelled
deriving DecidableEq, Repr

/-- A request stream as the handler sees it. -/
structure ServerReader (α : Type) where
  messages : List α
  ended : StreamEnd := .writesDone

end ToyDfs
