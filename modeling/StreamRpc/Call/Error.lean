import StreamRpc.Failure
import StreamRpc.Queue.Error

/-! # Errors of calls -/

namespace StreamRpc

/-- Why a call gave no value. -/
inductive CallError where
  /-- The queues refused an operation. -/
  | transport (error : TransportError)
  /-- A message could not be written or read. -/
  | codec (error : CodecError)
  /-- The server answered with a failure. -/
  | remote (failure : Failure)
  /-- The session ended before there was an answer. -/
  | connectionLost (reason : String)
  /-- There was no answer in time. -/
  | timeout
  /-- The answer does not have the form that was asked for. -/
  | unexpectedReply (what : String)
  deriving DecidableEq, Repr, Inhabited

namespace CallError

/-- Whether the server was reached and reported a failure. -/
def isRemote : CallError → Bool
  | remote _ => true
  | _ => false

/-- The wording of an error. -/
def message : CallError → String
  | transport e => "Transport error: " ++ e.message
  | codec e => "Codec error: " ++ e.message
  | remote f => "Remote failure: " ++ f.display
  | connectionLost reason => "Connection lost: " ++ reason
  | timeout => "Request timed out"
  | unexpectedReply what => "Unexpected reply: " ++ what

/-- The wording of the error underneath, where there is one. -/
def source? : CallError → Option String
  | transport e => some e.message
  | codec e => some e.message
  | remote f => some f.display
  | _ => none

end CallError

end StreamRpc
