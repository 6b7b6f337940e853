import StreamRpc.Wire.Tag

/-! # Fixed-width numbers

Numbers are written as base-256 digits, least significant first.  One pair of functions serves
both widths of the format, four bytes for lengths and eight for scalars.

* `length_digits`   `(digits k n).length = k`
* `value_digits`    digits of a number that fits give the number back
* `digits_value`    every stretch of bytes is the digits of its value
-/

namespace StreamRpc.Wire.Word

/-- The `k` lowest base-256 digits of a number, least significant first. -/
def digits : Nat → Nat → Bytes
  | 0, _ => []
  | k + 1, n => UInt8.ofNat n :: digits k (n / 256)

/-- The number that a stretch of digits stands for. -/
def value : Bytes → Nat
  | [] => 0
  | b :: bs => b.toNat + 256 * value bs

/-- How many numbers `k` digits can tell apart. -/
def capacity : Nat → Nat
  | 0 => 1
  | k + 1 => 256 * capacity k

/-- `digits k` writes exactly `k` bytes. -/
@[simp] theorem length_digits (k n : Nat) : (digits k n).length = k := by
  induction k generalizing n with
  | zero => rfl
  | succ k ih => simp [digits, ih]

/-- A big-endian number is below the capacity of its bytes. -/
theorem value_lt (bs : Bytes) : value bs < capacity bs.length := by
  induction bs with
  | nil => simp [value, capacity]
  | cons b bs ih =>
    have := b.toNat_lt
    simp only [value, List.length_cons, capacity]
    omega

/-- A number that fits in `k` bytes is read back from them. -/
theorem value_digits {k n : Nat} (h : n < capacity k) : value (digits k n) = n := by
  induction k generalizing n with
  | zero => simp [capacity] at h; simp [digits, value, h]
  | succ k ih =>
    have hd : n / 256 < capacity k := Nat.div_lt_of_lt_mul h
    simp only [digits, value, ih hd, UInt8.toNat_ofNat']
    omega

/-- Bytes are the digits of the number they are read as. -/
theorem digits_value (bs : Bytes) : digits bs.length (value bs) = bs := by
  induction bs with
  | nil => rfl
  | cons b bs ih =>
    have hb := b.toNat_lt
    have hdiv : (b.toNat + 256 * value bs) / 256 = value bs := by omega
    have hhead : UInt8.ofNat (b.toNat + 256 * value bs) = b := by
      apply UInt8.toNat_inj.mp
      rw [UInt8.toNat_ofNat']
      omega
    simp only [List.length_cons, value, digits, hdiv, hhead, ih]

end StreamRpc.Wire.Word
