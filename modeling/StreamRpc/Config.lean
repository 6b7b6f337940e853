import StreamRpc.Hex
import StreamRpc.Queue.Address

/-! # Settings

The settings of clients and servers: defaults, and what the environment sets instead.  A setting
that the environment gives as an empty text, or a timeout that is not a positive number, leaves
the default in place.
-/

namespace StreamRpc

/-- The variables of the environment that are looked at. -/
structure Environment where
  /-- The value of a variable. -/
  get? : String → Option String

namespace Environment

def serverQueue : String := "MUXRUN_SERVER_QUEUE"

def callTimeoutMs : String := "MUXRUN_CALL_TIMEOUT_MS"

def clientName : String := "MUXRUN_CLIENT_NAME"

/-- The value of a variable that is set to some text. -/
def nonempty? (env : Environment) (name : String) : Option String :=
  (env.get? name).filter (· ≠ "")

end Environment

/-- The value of decimal digits read so far and the digits that follow, if it fits 64 bits. -/
def decimalWord? : Nat → List Char → Option Nat
  | n, [] => some n
  | n, c :: cs =>
    if '0' ≤ c ∧ c ≤ '9' then
      let n := 10 * n + (c.toNat - '0'.toNat)
      if n < 2 ^ 64 then decimalWord? n cs else none
    else none

/-- A 64-bit number in decimal digits, at least one of them; a plus sign may stand in front. -/
def parseWord? (s : String) : Option Nat :=
  match s.toList with
  | [] => none
  | ['+'] => none
  | '+' :: cs => decimalWord? 0 cs
  | cs => decimalWord? 0 cs

/-- The settings of a client. -/
structure ClientConfig where
  /-- The queue of the server. -/
  serverQueue : String := "rpc.server"
  /-- How reply addresses begin. -/
  replyPrefix : String := "rpc.client."
  /-- The name of the client, which is part of its reply address. -/
  name : String := "anonymous"
  /-- How long a call waits for its answer, in milliseconds. -/
  callTimeoutMs : Nat := 30000
  deriving DecidableEq, Repr, Inhabited

namespace ClientConfig

/-- Sets what the environment says. -/
def overlay (c : ClientConfig) (env : Environment) : ClientConfig :=
  { c with
    serverQueue := (env.nonempty? Environment.serverQueue).getD c.serverQueue
    name := (env.nonempty? Environment.clientName).getD c.name
    callTimeoutMs :=
      (((env.get? Environment.callTimeoutMs).bind parseWord?).filter (0 < ·)).getD c.callTimeoutMs }

/-- What all reply addresses of the client begin with. -/
def addressHead (c : ClientConfig) : String :=
  c.replyPrefix ++ c.name ++ "."

/-- The reply address of the session with this token: sixteen digits make it its own. -/
def replyAddress (c : ClientConfig) (token : UInt64) : String :=
  c.addressHead ++ String.ofList (hexDigits 16 token.toNat)

end ClientConfig

/-- The settings of a server. -/
structure ServerConfig where
  /-- The queue that requests come in on. -/
  queue : String := "rpc.server"
  /-- Which queues are reply queues of clients. -/
  clientPattern : String := "rpc.client.*"
  deriving DecidableEq, Repr, Inhabited

/-- Sets what the environment says. -/
def ServerConfig.overlay (c : ServerConfig) (env : Environment) : ServerConfig :=
  { c with queue := (env.nonempty? Environment.serverQueue).getD c.queue }

end StreamRpc
