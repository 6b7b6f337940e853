/-! # Errors of the queues -/

namespace StreamRpc

/-- Why a queue operation was refused. -/
inductive TransportError where
  /-- The other end is gone. -/
  | connectionLost (what : String)
  /-- There is no queue of this name. -/
  | unknownQueue (name : String)
  /-- There already is a queue of this name. -/
  | queueExists (name : String)
  /-- Anything else. -/
  | io (what : String)
  deriving DecidableEq, Repr, Inhabited

/-- The wording of an error. -/
def TransportError.message : TransportError → String
  | connectionLost what => "Connection lost: " ++ what
  | unknownQueue name => "Unknown queue '" ++ name ++ "'"
  | queueExists name => "Queue '" ++ name ++ "' already exists"
  | io what => "I/O error: " ++ what

end StreamRpc
