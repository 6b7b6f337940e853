import StreamRpc.Call.Router

/-! # Scripted methods

Scripts describe simple methods as data, for scenarios and tests.
-/

namespace StreamRpc

/-- What a scripted method does. -/
inductive Script where
  /-- Returns this value. -/
  | give (v : DraftValue)
  /-- Returns the argument at this position. -/
  | arg (i : Nat)
  | strArg (i : Nat)
  | u64Arg (i : Nat)
  /-- Returns a stream of the numbers below an argument. -/
  | count (i : Nat)
  /-- Returns as many channels as an argument says. -/
  | feeds (i : Nat)
  /-- Ends with this error. -/
  | fail (cause : Cause)
  | panic (message : Option String)
  /-- Returns what it knows about the call. -/
  | describe
  | delay (ms : Nat) (after : Script)
  | hang
  /-- Puts contexts around an error, the innermost first. -/
  | within (contexts : List String) (s : Script)
  deriving Inhabited

namespace Script

/-- The call as a value. -/
def description (c : Invocation) : DraftValue :=
  .record [
    ("client", .str c.client),
    ("method", .str c.method),
    ("args", .list (c.args.map Value.widen))]

/-- The method that a script describes. -/
def handler : Script → Handler
  | give v => fun _ => .ends (.returned v)
  | arg i => fun c => .ofExcept ((c.arg i).map Value.widen)
  | strArg i => fun c => .ofExcept ((c.strArg i).map .str)
  | u64Arg i => fun c => .ofExcept ((c.u64Arg i).map .u64)
  | count i => fun c => .ofExcept ((c.u64Arg i).map fun n => .stream (.counting n))
  | feeds i => fun c =>
    .ofExcept ((c.u64Arg i).map fun n => .list (.replicate n.toNat (.stream .channel)))
  | fail cause => fun _ => .ends (.raised { cause })
  | panic message => fun _ => .ends (.panicked message)
  | describe => fun c => .ends (.returned (description c))
  | delay ms after => fun c => .waits ms (after.handler c)
  | hang => fun _ => .hangs
  | within contexts s => fun c => (s.handler c).withContexts contexts

end Script

/-- The router with scripted methods. -/
def Router.ofScripts (methods : List (String × Script)) : Router :=
  .ofList (methods.map fun (name, s) => (name, s.handler))

end StreamRpc
