/-! # Hexadecimal text -/

namespace StreamRpc

/-- The lower-case hexadecimal digit of a number below sixteen. -/
def hexDigit (n : Nat) : Char :=
  Char.ofNat (if n < 10 then 48 + n else 87 + n)

/-- The `k` lowest hexadecimal digits of a number, most significant first. -/
def hexDigits : Nat → Nat → List Char
  | 0, _ => []
  | k + 1, n => hexDigits k (n / 16) ++ [hexDigit (n % 16)]

/-- `hexDigits k` writes exactly `k` digits. -/
@[simp] theorem length_hexDigits (k n : Nat) : (hexDigits k n).length = k := by
  induction k generalizing n with
  | zero => rfl
  | succ k ih => simp [hexDigits, ih]

/-- The value of a lower-case hexadecimal digit. -/
def hexValue? (c : Char) : Option Nat :=
  if '0' ≤ c ∧ c ≤ '9' then some (c.toNat - '0'.toNat)
  else if 'a' ≤ c ∧ c ≤ 'f' then some (c.toNat - 'a'.toNat + 10)
  else none

/-- Reads two digits for each byte, after the bytes read so far. -/
def hexBytesFrom? (soFar : Array UInt8) : List Char → Option (List UInt8)
  | [] => some soFar.toList
  | [_] => none
  | a :: b :: rest => do
    let byte := UInt8.ofNat (16 * (← hexValue? a) + (← hexValue? b))
    hexBytesFrom? (soFar.push byte) rest

/-- The bytes written with two digits each. -/
def hexBytes? (s : String) : Option (List UInt8) :=
  hexBytesFrom? #[] s.toList

end StreamRpc
