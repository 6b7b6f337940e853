import StreamRpc.Wire.Error

/-! # What can go wrong with a message, and with a call

`CodecError` says that a message could not be written or read.  `Failure` is a well-formed
answer: the other side understood and could not do what was asked.

* `Failure.Kind.ofName?_name`   the name of a kind reads as that kind
* `Failure.Kind.name_of_ofName?`  and nothing else does
-/

namespace StreamRpc

open Wire (WireError)

/-- Why a message could not be written or read. -/
inductive CodecError where
  /-- Its bytes are not as the wire format has them. -/
  | wire (error : WireError)
  /-- A message tag, notification kind or failure kind that does not exist. -/
  | unknownVariant (what : String)
  /-- Well formed, but not allowed here. -/
  | protocolViolation (what : String)
  /-- An envelope lacks an attribute. -/
  | missingAttribute (name : String)
  /-- An envelope attribute has another type. -/
  | attributeType (name expected : String)
  /-- A value is nested too deeply. -/
  | nestingTooDeep
  deriving DecidableEq, Repr, Inhabited

namespace CodecError

/-- The wording of an error. -/
def message : CodecError → String
  | wire e => "pack error: " ++ e.message
  | unknownVariant what => "unknown variant: " ++ what
  | protocolViolation what => "protocol violation: " ++ what
  | missingAttribute name => "missing attribute '" ++ name ++ "'"
  | attributeType name expected => "attribute '" ++ name ++ "' is not a " ++ expected
  | nestingTooDeep => "value nesting exceeds the recursion limit"

/-- The wording of the error underneath, where there is one. -/
def source? : CodecError → Option String
  | wire e => some e.message
  | _ => none

end CodecError

/-- Why a call or a stream did not give what was asked for. -/
inductive Failure.Kind where
  /-- There is no such method. -/
  | methodNotFound
  /-- The arguments were turned down before the method ran. -/
  | badArguments
  /-- The method or the stream ran into an error. -/
  | application
  /-- The other side went away. -/
  | disconnected
  /-- The other side got something it could not understand. -/
  | protocolViolation
  deriving DecidableEq, Repr, Inhabited

namespace Failure.Kind

/-- The name of a kind on the wire. -/
def name : Kind → String
  | methodNotFound => "method-not-found"
  | badArguments => "bad-arguments"
  | application => "application"
  | disconnected => "disconnected"
  | protocolViolation => "protocol-violation"

/-- The kind with this name. -/
def ofName? (s : String) : Option Kind :=
  if s = "method-not-found" then some methodNotFound
  else if s = "bad-arguments" then some badArguments
  else if s = "application" then some application
  else if s = "disconnected" then some disconnected
  else if s = "protocol-violation" then some protocolViolation
  else none

/-- Every kind is read back from its name. -/
@[simp] theorem ofName?_name (k : Kind) : ofName? k.name = some k := by
  cases k <;> decide

/-- A name is accepted for one kind only, the kind it names. -/
theorem name_of_ofName? {s : String} {k : Kind} (h : ofName? s = some k) : k.name = s := by
  unfold ofName? at h
  repeat' split at h
  all_goals simp_all [name]
  all_goals subst h; rfl

end Failure.Kind

/-- An answer that says what went wrong, in words for people. -/
structure Failure where
  kind : Failure.Kind
  message : String
  deriving DecidableEq, Repr, Inhabited

namespace Failure

/-- How a failure is shown. -/
def display (f : Failure) : String :=
  f.kind.name ++ ": " ++ f.message

/-- The failure with a kind of this name. -/
def ofName (name message : String) : Except CodecError Failure :=
  match Kind.ofName? name with
  | some kind => .ok { kind, message }
  | none => .error (.unknownVariant ("failure kind: " ++ name))

end Failure

end StreamRpc
