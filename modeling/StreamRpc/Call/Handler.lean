import StreamRpc.Stream.Blueprint

/-! # Methods

A method is a function from the call to what the call comes to: after some waits it ends with a
value, with an error or with a panic, or it never ends.  Errors become failures in the answer: an
error that already is a failure stays as it is, whatever contexts were put around it, and any
other error or a panic becomes an application failure.

* `Ending.result_returned`   only a returned value gives a value
-/

namespace StreamRpc

/-- One request as a method sees it. -/
structure Invocation where
  /-- The reply address of the caller. -/
  client : String
  method : String
  args : List PlainValue
  deriving Inhabited

namespace Invocation

/-- The complaint about an argument. -/
def badArgument (c : Invocation) (what : String) (i : Nat) : Failure :=
  { kind := .badArguments
    message := c.method ++ " expects " ++ what ++ " at position " ++ Nat.repr i }

/-- The argument at a position, counted from zero. -/
def arg (c : Invocation) (i : Nat) : Except Failure PlainValue :=
  match c.args[i]? with
  | some v => .ok v
  | none => .error (c.badArgument "an argument" i)

/-- The text at a position. -/
def strArg (c : Invocation) (i : Nat) : Except Failure String := do
  match (← c.arg i).asStr? with
  | some s => return s
  | none => throw (c.badArgument "a string" i)

/-- The unsigned number at a position. -/
def u64Arg (c : Invocation) (i : Nat) : Except Failure UInt64 := do
  match (← c.arg i).asU64? with
  | some n => return n
  | none => throw (c.badArgument "an integer" i)

end Invocation

/-- What is at the bottom of a method's error. -/
inductive Cause where
  | failure (f : Failure)
  | text (message : String)
  deriving DecidableEq, Repr, Inhabited

/-- An error of a method: a cause, and the contexts that were put around it, the innermost first. -/
structure MethodError where
  cause : Cause
  contexts : List String := []
  deriving DecidableEq, Repr, Inhabited

/-- The failure that an error becomes. -/
def MethodError.toFailure (e : MethodError) : Failure :=
  match e.cause with
  | .failure f => f
  | .text message =>
    { kind := .application, message := ": ".intercalate (e.contexts.reverse ++ [message]) }

/-- How a method ends. -/
inductive Ending where
  | returned (v : DraftValue)
  | raised (e : MethodError)
  /-- With a message, unless the panic carried something else. -/
  | panicked (message : Option String)
  deriving Inhabited

/-- The answer to a call of a method that ends like this. -/
def Ending.result (method : String) : Ending → Except Failure DraftValue
  | returned v => .ok v
  | raised e => .error e.toFailure
  | panicked (some message) =>
    .error { kind := .application, message := method ++ " panicked: " ++ message }
  | panicked none => .error { kind := .application, message := method ++ " panicked" }

/-- A task's answer is a value exactly when its handler returned that value. -/
theorem Ending.result_returned (method : String) (e : Ending) (v : DraftValue) :
    e.result method = .ok v ↔ e = returned v := by
  cases e with
  | panicked message => cases message <;> simp [result]
  | _ => simp [result]

/-- What a call comes to. -/
inductive Behaviour where
  | ends (e : Ending)
  /-- Waits this many milliseconds first. -/
  | waits (ms : Nat) (after : Behaviour)
  /-- Never ends. -/
  | hangs
  deriving Inhabited

namespace Behaviour

/-- Ends with a value or a failure. -/
def ofExcept (r : Except Failure DraftValue) : Behaviour :=
  match r with
  | .ok v => ends (.returned v)
  | .error f => ends (.raised { cause := .failure f })

/-- Puts contexts around an error, the innermost first. -/
def withContexts (contexts : List String) : Behaviour → Behaviour
  | ends (.raised e) => ends (.raised { e with contexts := e.contexts ++ contexts })
  | ends e => ends e
  | waits ms after => waits ms (after.withContexts contexts)
  | hangs => hangs

/-- How a method ends, with no regard to how long it takes; nothing, if it never does. -/
def ending? : Behaviour → Option Ending
  | ends e => some e
  | waits _ after => after.ending?
  | hangs => none

end Behaviour

/-- A method. -/
abbrev Handler := Invocation → Behaviour

end StreamRpc
