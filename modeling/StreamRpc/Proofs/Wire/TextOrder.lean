import Mathlib.Data.String.Basic
import StreamRpc.Wire.Text

/-! # Texts are in the order of their bytes

UTF-8 keeps the order of characters: of two different characters the smaller one has the smaller byte
where their bytes first differ, and the bytes of neither go on where those of the other end.  So texts
compare as their bytes do.

* `Precedes`             bytes that differ before either of them ends
* `precedes_of_lt`       characters are in the order of their bytes
* `utf8_lt_iff`          and so are texts
-/

namespace StreamRpc.Wire

/-- Where these bytes first differ, and neither of them ends before that, the first have the smaller
    byte. -/
inductive Precedes : Bytes → Bytes → Prop where
  | here {a b : UInt8} (less : a < b) (u v : Bytes) : Precedes (a :: u) (b :: v)
  | next (a : UInt8) {u v : Bytes} (rest : Precedes u v) : Precedes (a :: u) (a :: v)

/-- What follows the bytes that differ does not count. -/
private theorem Precedes.append_lt {u v : Bytes} (h : Precedes u v) (u' v' : Bytes) :
    u ++ u' < v ++ v' := by
  induction h with
  | here less u v => exact List.cons_lt_cons_iff.2 (.inl less)
  | next a _ ih => exact List.cons_lt_cons_iff.2 (.inr ⟨rfl, ih⟩)

/-- Below 256 numbers and the bytes made of them are ordered alike. -/
private theorem ofNat_lt_ofNat {m n : Nat} (h : m < n) (hn : n < 256) :
    UInt8.ofNat m < UInt8.ofNat n := by
  rw [UInt8.lt_iff_toNat_lt, UInt8.toNat_ofNat', UInt8.toNat_ofNat']
  omega

/-- The first digit that differs decides. -/
private theorem Precedes.digit {lead m n : Nat} {u v : Bytes} (bound : n + lead < 256) (le : m ≤ n)
    (rest : m = n → Precedes u v) :
    Precedes (UInt8.ofNat (m + lead) :: u) (UInt8.ofNat (n + lead) :: v) := by
  rcases Nat.lt_or_eq_of_le le with h | rfl
  · exact .here (ofNat_lt_ofNat (by omega) bound) u v
  · exact .next _ (rest rfl)

/-- What differs in the first byte is ordered by it. -/
private theorem Precedes.first {m n : Nat} (h : m < n) (hn : n < 256) (u v : Bytes) :
    Precedes (UInt8.ofNat m :: u) (UInt8.ofNat n :: v) :=
  .here (ofNat_lt_ofNat h hn) u v

/-- Characters are in the order of their bytes. -/
theorem precedes_of_lt {c d : Char} (h : c < d) :
    Precedes (String.utf8EncodeChar c) (String.utf8EncodeChar d) := by
  have hlt : c.val.toNat < d.val.toNat := UInt32.lt_iff_toNat_lt.1 (Char.lt_def.1 h)
  have hd : d.val.toNat < 1114112 := by
    have := d.valid
    simp only [UInt32.isValidChar, Nat.isValidChar] at this
    omega
  unfold String.utf8EncodeChar
  generalize c.val.toNat = m at hlt
  generalize d.val.toNat = n at hlt hd
  -- The smaller character is not longer.  If it is shorter, the first bytes differ; if not, the digits
  -- are compared from the highest on.
  dsimp only
  split
  · split
    · exact .first hlt (by omega) _ _
    · split
      · exact .first (by omega) (by omega) _ _
      · split
        · exact .first (by omega) (by omega) _ _
        · exact .first (by omega) (by omega) _ _
  · split
    · rw [if_neg (by omega)]
      split
      · exact .digit (by omega) (by omega) fun _ => .first (by omega) (by omega) _ _
      · split
        · exact .first (by omega) (by omega) _ _
        · exact .first (by omega) (by omega) _ _
    · split
      · rw [if_neg (by omega), if_neg (by omega)]
        split
        · exact .digit (by omega) (by omega) fun _ => .digit (by omega) (by omega) fun _ =>
            .first (by omega) (by omega) _ _
        · exact .first (by omega) (by omega) _ _
      · rw [if_neg (by omega), if_neg (by omega), if_neg (by omega)]
        exact .digit (by omega) (by omega) fun _ => .digit (by omega) (by omega) fun _ =>
          .digit (by omega) (by omega) fun _ => .first (by omega) (by omega) _ _

/-- The bytes of a text are those of its characters. -/
private theorem utf8_eq_flatMap (s : String) : utf8 s = s.toList.flatMap String.utf8EncodeChar := by
  have h : s.toUTF8 = (s.toList.flatMap String.utf8EncodeChar).toByteArray := by
    rw [String.toUTF8_eq_toByteArray, ← List.utf8Encode, ← String.toByteArray_ofList,
      String.ofList_toList]
  rw [utf8, h, List.data_toByteArray]

/-- The UTF-8 bytes of two texts are ordered as their characters are. -/
private theorem flatMap_lt_of_lt {cs ds : List Char} (h : cs < ds) :
    cs.flatMap String.utf8EncodeChar < ds.flatMap String.utf8EncodeChar := by
  induction cs generalizing ds with
  | nil =>
    cases ds with
    | nil => exact absurd h (List.lt_irrefl _)
    | cons d ds =>
      obtain ⟨a, rest, hd⟩ := List.exists_cons_of_ne_nil (String.utf8EncodeChar_ne_nil (c := d))
      rw [List.flatMap_nil, List.flatMap_cons, hd]
      exact List.nil_lt_cons a _
  | cons c cs ih =>
    cases ds with
    | nil => exact absurd h (List.not_lt_nil _)
    | cons d ds =>
      rw [List.flatMap_cons, List.flatMap_cons]
      -- The first characters that differ decide, and their encodings differ before either ends.
      rcases List.cons_lt_cons_iff.1 h with hless | ⟨rfl, hrest⟩
      · exact (precedes_of_lt hless).append_lt _ _
      · exact List.append_left_lt (ih hrest)

/-- Texts are in the order of their bytes. -/
theorem utf8_lt_iff {s t : String} : utf8 s < utf8 t ↔ s < t := by
  have hmono : ∀ {s t : String}, s < t → utf8 s < utf8 t := fun h => by
    rw [utf8_eq_flatMap, utf8_eq_flatMap]
    exact flatMap_lt_of_lt (String.lt_iff_toList_lt.1 h)
  refine ⟨fun h => ?_, hmono⟩
  rcases lt_trichotomy s t with hst | rfl | hts
  · exact hst
  · exact absurd h (List.lt_irrefl _)
  · exact absurd h (List.lt_asymm (hmono hts))

end StreamRpc.Wire
