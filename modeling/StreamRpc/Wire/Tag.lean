/-! # Item tags of the wire format

Every item on the wire starts with one tag byte.  The tag says what the item is and how long its
payload is: nothing, eight bytes, or a length prefix and that many bytes.

* `Tag.ofByte?_byte`        reading the byte of a tag gives the tag back
* `Tag.byte_of_ofByte?`     a byte that reads as a tag is the byte of that tag
-/

namespace StreamRpc.Wire

/-- A stretch of wire bytes. -/
abbrev Bytes := List UInt8

/-- What an item is. -/
inductive Tag where
  | unit
  | boolTrue
  | boolFalse
  | optionNone
  | u64
  | s64
  | f64
  | handle
  | string
  | bytes
  | list
  | map
  | optionSome
  | resultOk
  | resultErr
  | variant
  deriving DecidableEq, Repr, Inhabited

namespace Tag

/-- The byte a tag is written as. -/
def byte : Tag → UInt8
  | unit => 0x01
  | boolTrue => 0x02
  | boolFalse => 0x03
  | optionNone => 0x04
  | u64 => 0x08
  | s64 => 0x09
  | f64 => 0x0A
  | handle => 0x0B
  | string => 0x10
  | bytes => 0x11
  | list => 0x20
  | map => 0x21
  | optionSome => 0x30
  | resultOk => 0x31
  | resultErr => 0x32
  | variant => 0x33

/-- The tag a byte stands for, if it stands for one. -/
def ofByte? (b : UInt8) : Option Tag :=
  match b with
  | 0x01 => some unit
  | 0x02 => some boolTrue
  | 0x03 => some boolFalse
  | 0x04 => some optionNone
  | 0x08 => some u64
  | 0x09 => some s64
  | 0x0A => some f64
  | 0x0B => some handle
  | 0x10 => some string
  | 0x11 => some bytes
  | 0x20 => some list
  | 0x21 => some map
  | 0x30 => some optionSome
  | 0x31 => some resultOk
  | 0x32 => some resultErr
  | 0x33 => some variant
  | _ => none

/-- The name a tag goes by in error messages. -/
def name : Tag → String
  | unit => "Unit"
  | boolTrue => "BoolTrue"
  | boolFalse => "BoolFalse"
  | optionNone => "OptionNone"
  | u64 => "U64"
  | s64 => "S64"
  | f64 => "F64"
  | handle => "Handle"
  | string => "String"
  | bytes => "Bytes"
  | list => "List"
  | map => "Map"
  | optionSome => "OptionSome"
  | resultOk => "ResultOk"
  | resultErr => "ResultErr"
  | variant => "Variant"

/-- How many payload bytes follow the tag; `none` when a length prefix says so. -/
def width? : Tag → Option Nat
  | unit | boolTrue | boolFalse | optionNone => some 0
  | u64 | s64 | f64 | handle => some 8
  | _ => none

/-- Every tag is read back from its byte. -/
@[simp] theorem ofByte?_byte (t : Tag) : ofByte? t.byte = some t := by
  cases t <;> rfl

/-- A byte is accepted for one tag only, the tag it stands for. -/
theorem byte_of_ofByte? {b : UInt8} {t : Tag} (h : ofByte? b = some t) : t.byte = b := by
  unfold ofByte? at h
  split at h <;> simp_all [byte] <;> subst h <;> rfl

/-- Different tags have different bytes. -/
theorem byte_injective {s t : Tag} (h : s.byte = t.byte) : s = t := by
  simpa using congrArg ofByte? h

end Tag

end StreamRpc.Wire
