import StreamRpc.Hex
import StreamRpc.Wire.Tag

/-! # Errors of the wire format

One cause per constructor, and the wording of every cause in `WireError.message`.
-/

namespace StreamRpc.Wire

/-- What a container is to the writer that holds it open. -/
inductive Scope where
  /-- Outside of every container; any number of items. -/
  | root
  /-- Any number of items. -/
  | list
  /-- Any number of named entries, and nothing else. -/
  | map
  /-- Exactly one item. -/
  | option
  /-- Exactly one item. -/
  | result
  /-- Exactly one item after the name. -/
  | variant
  deriving DecidableEq, Repr, Inhabited

namespace Scope

/-- The name a scope goes by in error messages. -/
def name : Scope → String
  | root => "Root"
  | list => "List"
  | map => "Map"
  | option => "Option"
  | result => "Result"
  | variant => "Variant"

/-- Whether the scope takes exactly one item. -/
def single : Scope → Bool
  | option | result | variant => true
  | _ => false

end Scope

/-- Why bytes could not be written or read. -/
inductive WireError where
  /-- The byte stands for no tag. -/
  | invalidTag (byte : UInt8)
  /-- Another tag was needed here. -/
  | unexpectedTag (expected found : Tag)
  /-- A text is not well-formed UTF-8. -/
  | invalidUtf8
  /-- The innermost open scope is not the one to close. -/
  | scopeMismatch (expected actual : Scope)
  /-- No scope is open. -/
  | scopeUnderflow
  /-- A scope is still open at the end. -/
  | scopeStillOpen
  /-- The bytes ended too early. -/
  | unexpectedEnd
  /-- So many bytes follow the last item. -/
  | trailingBytes (count : Nat)
  /-- The length does not fit its prefix. -/
  | blobTooLarge (size : Nat)
  /-- The scope already has its one item. -/
  | tooManyItems (scope : Scope)
  /-- The scope lacks its one item. -/
  | emptyScope (scope : Scope)
  /-- Only named entries may stand in a map. -/
  | invalidMapEntry
  deriving DecidableEq, Repr, Inhabited

/-- The wording of an error. -/
def WireError.message : WireError → String
  | invalidTag b => "invalid tag byte: 0x" ++ String.ofList (hexDigits 2 b.toNat)
  | unexpectedTag expected found =>
    "unexpected tag: expected " ++ expected.name ++ ", found " ++ found.name
  | invalidUtf8 => "InvalidUtf8"
  | scopeMismatch expected actual =>
    "scope mismatch: expected " ++ expected.name ++ ", found " ++ actual.name
  | scopeUnderflow => "ScopeUnderflow"
  | scopeStillOpen => "ScopeStillOpen"
  | unexpectedEnd => "UnexpectedEnd"
  | trailingBytes n => Nat.repr n ++ " trailing bytes after last item"
  | blobTooLarge n => "BlobTooLarge(" ++ Nat.repr n ++ ")"
  | tooManyItems s => "too many items in scope " ++ s.name ++ "; expected exactly 1"
  | emptyScope s => "empty scope " ++ s.name ++ "; expected exactly 1 item"
  | invalidMapEntry => "InvalidMapEntry"

end StreamRpc.Wire
