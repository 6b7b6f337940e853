import StreamRpc.Proofs.Wire.Reading
import StreamRpc.Proofs.Wire.Writing
import StreamRpc.Value.Codec

/-! # Writing values

A value is written as the item it stands for.  Writing fails only because a level is too deep or a
length too large for its prefix.

* `Value.writeWithin_grows`   what is written is the item of the value
* `Value.writeWithin_ok`      a value that is not too deep can be written
* `Value.writeWithin_deep`    and a value that is too deep is refused for that reason
-/

namespace StreamRpc

open Wire (Bytes Writer Item)

/-- A wire result is reported a success exactly when it is one. -/
theorem ofWire_eq_ok_iff {α : Type} {r : Except Wire.WireError α} {a : α} :
    ofWire r = .ok a ↔ r = .ok a := by
  cases r with
  | ok b => exact ⟨fun h => congrArg Except.ok (Except.ok.inj h), fun h => Except.ok.inj h ▸ rfl⟩
  | error e => constructor <;> intro h <;> cases h

namespace Value

/-! ## The item of a value -/

mutual

/-- The item that a value is written as. -/
def toItem : WireValue → Item
  | unit => .unit
  | bool b => .bool b
  | u64 n => .u64 n
  | s64 n => .s64 n
  | f64 bits => .f64 bits
  | str s => .str s
  | bytes b => .bytes b
  | list items => .list (toItems items)
  | record fields => .map (toEntries fields)
  | absent => .none
  | present v => .some (toItem v)
  | variant name v => .variant name (toItem v)
  | stream id => .handle id.val

/-- `toItem` of each item in turn. -/
def toItems : List WireValue → List Item
  | [] => []
  | v :: vs => toItem v :: toItems vs

/-- `toItem` of each field in turn. -/
def toEntries : List (String × WireValue) → List (String × Item)
  | [] => []
  | (name, v) :: fields => (name, toItem v) :: toEntries fields

end

mutual

/-- How many levels lie below the top of a value. -/
def depth {σ : Type} : Value σ → Nat
  | list items => depthOfItems items
  | record fields => depthOfFields fields
  | present v => depth v + 1
  | variant _ v => depth v + 1
  | _ => 0

/-- How many levels the items of a list add. -/
def depthOfItems {σ : Type} : List (Value σ) → Nat
  | [] => 0
  | v :: vs => max (depth v + 1) (depthOfItems vs)

/-- How many levels the fields of a record add. -/
def depthOfFields {σ : Type} : List (String × Value σ) → Nat
  | [] => 0
  | (_, v) :: fields => max (depth v + 1) (depthOfFields fields)

end

/-! ## What is written -/

mutual

/-- What is written is the item of the value; its levels were counted and its lengths fit. -/
theorem writeWithin_grows (v : WireValue) (room : Nat) {w w' : Writer}
    (h : v.writeWithin room w = .ok w') :
    v.depth < room ∧ v.toItem.Fits ∧ w.Grows v.toItem.encode 1 w' := by
  cases room with
  | zero => simp [writeWithin] at h
  | succ room =>
    cases v with
    | unit | u64 | s64 | f64 | absent | stream =>
      rw [writeWithin, ofWire_eq_ok_iff] at h
      exact ⟨by simp [depth], trivial, Writer.put_grows h⟩
    -- The tag of a truth value is its content.
    | bool b =>
      rw [writeWithin, ofWire_eq_ok_iff] at h
      refine ⟨by simp [depth], trivial, ?_⟩
      cases b <;> exact Writer.put_grows h
    | str | bytes =>
      rw [writeWithin, ofWire_eq_ok_iff] at h
      have ⟨hg, hl⟩ := Writer.putBlob_grows h
      exact ⟨by simp [depth], hl, hg⟩
    -- A container is opened, filled and closed; its length is known to fit when it is closed.
    | list items =>
      rw [writeWithin] at h
      obtain ⟨w₁, hb, h⟩ := bind_eq_ok_iff.1 h
      obtain ⟨w₂, hi, h⟩ := bind_eq_ok_iff.1 h
      rw [ofWire_eq_ok_iff] at hb h
      have ⟨hd, hf, hg⟩ := writeItems_grows items room hi
      have ⟨hg', hl⟩ := (Writer.begin_inside hb).close_grows hg h
      exact ⟨by simpa [depth] using Nat.lt_succ_of_le hd, ⟨hl, hf⟩, hg'⟩
    | record fields =>
      rw [writeWithin] at h
      obtain ⟨w₁, hb, h⟩ := bind_eq_ok_iff.1 h
      obtain ⟨w₂, hi, h⟩ := bind_eq_ok_iff.1 h
      rw [ofWire_eq_ok_iff] at hb h
      have ⟨hd, hf, hg⟩ := writeFields_grows fields room hi
      have ⟨hg', hl⟩ := (Writer.begin_inside hb).close_grows hg h
      exact ⟨by simpa [depth] using Nat.lt_succ_of_le hd, ⟨hl, hf⟩, hg'⟩
    | present v =>
      rw [writeWithin] at h
      obtain ⟨w₁, hb, h⟩ := bind_eq_ok_iff.1 h
      obtain ⟨w₂, hv, h⟩ := bind_eq_ok_iff.1 h
      rw [ofWire_eq_ok_iff] at hb h
      have ⟨hd, hf, hg⟩ := writeWithin_grows v room hv
      have ⟨hg', hl⟩ := (Writer.begin_inside hb).close_grows hg h
      exact ⟨by simpa [depth] using hd, ⟨hl, hf⟩, hg'⟩
    | variant name v =>
      rw [writeWithin] at h
      obtain ⟨w₁, hb, h⟩ := bind_eq_ok_iff.1 h
      obtain ⟨w₂, hv, h⟩ := bind_eq_ok_iff.1 h
      rw [ofWire_eq_ok_iff] at hb h
      have ⟨hd, hf, hg⟩ := writeWithin_grows v room hv
      have ⟨hi, hn⟩ := Writer.variantBegin_inside hb
      have ⟨hg', hl⟩ := hi.close_grows hg h
      exact ⟨by simpa [depth] using hd, ⟨hn, hl, hf⟩, hg'⟩

/-- The items of a list are written one after another. -/
theorem writeItems_grows (items : List WireValue) (room : Nat) {w w' : Writer}
    (h : writeItems items room w = .ok w') :
    depthOfItems items ≤ room ∧ Item.AllFit (toItems items) ∧
      w.Grows (Item.encodeAll (toItems items)) items.length w' := by
  cases items with
  | nil =>
    obtain rfl := Except.ok.inj (by simpa only [writeItems] using h)
    exact ⟨by simp [depthOfItems], trivial, Writer.Grows.refl _⟩
  | cons v items =>
    rw [writeItems] at h
    obtain ⟨w₁, hv, h⟩ := bind_eq_ok_iff.1 h
    have ⟨hd, hf, hg⟩ := writeWithin_grows v room hv
    -- The first item and the others each grow the body, one after the other.
    have ⟨hd', hf', hg'⟩ := writeItems_grows items room h
    refine ⟨by rw [depthOfItems]; omega, ⟨hf, hf'⟩, ?_⟩
    rw [List.length_cons, Nat.add_comm]
    exact hg.trans hg'

/-- The fields of a record are written one after another, each as a variant. -/
private theorem writeFields_grows (fields : List (String × WireValue)) (room : Nat) {w w' : Writer}
    (h : writeFields fields room w = .ok w') :
    depthOfFields fields ≤ room ∧ Item.EntriesFit (toEntries fields) ∧
      w.Grows (Item.encodeEntries (toEntries fields)) fields.length w' := by
  cases fields with
  | nil =>
    obtain rfl := Except.ok.inj (by simpa only [writeFields] using h)
    exact ⟨by simp [depthOfFields], trivial, Writer.Grows.refl _⟩
  | cons field fields =>
    obtain ⟨name, v⟩ := field
    rw [writeFields] at h
    obtain ⟨w₁, hb, h⟩ := bind_eq_ok_iff.1 h
    obtain ⟨w₂, hv, h⟩ := bind_eq_ok_iff.1 h
    obtain ⟨w₃, hc, h⟩ := bind_eq_ok_iff.1 h
    rw [ofWire_eq_ok_iff] at hb hc
    -- A field is a variant of its name, with the value as the one item in it.
    have ⟨hd, hf, hg⟩ := writeWithin_grows v room hv
    have ⟨hi, hn⟩ := Writer.variantBegin_inside hb
    have ⟨hg₁, hl⟩ := hi.close_grows hg hc
    have ⟨hd', hf', hg'⟩ := writeFields_grows fields room h
    refine ⟨by rw [depthOfFields]; omega, ⟨⟨hn, hl, hf⟩, hf'⟩, ?_⟩
    rw [List.length_cons, Nat.add_comm]
    exact hg₁.trans hg'

end

/-! ## When writing succeeds -/

/-- A wire result that is a success is reported as one. -/
theorem ofWire_ok {α : Type} {r : Except Wire.WireError α} (h : ∃ a, r = .ok a) :
    ∃ a, ofWire r = .ok a := by
  obtain ⟨a, rfl⟩ := h
  exact ⟨a, rfl⟩

/-- A container is written if what is in it is, and refused for its depth if that is. -/
private theorem enclosed_of_fits {shallow deep : Prop} {opened : Except Wire.WireError Writer}
    {inside : Writer → Except CodecError Writer} {ended : Writer → Except Wire.WireError Writer}
    {w : Writer} (hopened : opened = .ok w)
    (hinside : (shallow → ∃ w', inside w = .ok w') ∧ (deep → inside w = .error .nestingTooDeep))
    (hended : ∀ w', inside w = .ok w' → ∃ w'', ended w' = .ok w'') :
    (shallow → ∃ w'', (ofWire opened >>= fun w => inside w >>= fun w => ofWire (ended w)) = .ok w'') ∧
      (deep → (ofWire opened >>= fun w => inside w >>= fun w => ofWire (ended w)) =
        .error .nestingTooDeep) := by
  -- Opening works in either case; what fails, if anything, is on the inside.
  have hopened' : ofWire opened = .ok w := ofWire_eq_ok_iff.2 hopened
  constructor
  · intro h
    obtain ⟨w', hw'⟩ := hinside.1 h
    obtain ⟨w'', hw''⟩ := hended w' hw'
    exact ⟨w'', bind_eq_ok_iff.2 ⟨w, hopened',
      bind_eq_ok_iff.2 ⟨w', hw', ofWire_eq_ok_iff.2 hw''⟩⟩⟩
  · intro h
    rw [hopened']
    simp only [bind, Except.bind, hinside.2 h]

mutual

/-- A value whose lengths fit can be written where there is room for its levels, and is refused for
    its depth where there is not. -/
private theorem writeWithin_of_fits (v : WireValue) (room : Nat) {w : Writer} (hw : w.Accepts)
    (hf : v.toItem.Fits) :
    (v.depth < room → ∃ w', v.writeWithin room w = .ok w') ∧
      (room ≤ v.depth → v.writeWithin room w = .error .nestingTooDeep) := by
  cases room with
  | zero => exact ⟨fun h => absurd h (Nat.not_lt_zero _), fun _ => by rw [writeWithin]⟩
  | succ room =>
    cases v with
    | unit | bool | u64 | s64 | f64 | absent | stream =>
      exact ⟨fun _ => by rw [writeWithin]; exact ofWire_ok (Writer.put_ok hw _ _),
        fun h => by simp [depth] at h⟩
    | str | bytes =>
      exact ⟨fun _ => by rw [writeWithin]; exact ofWire_ok (Writer.putBlob_ok hw _ hf),
        fun h => by simp [depth] at h⟩
    -- What is in a container has one level less of room than the container.
    | list items =>
      obtain ⟨hl, hf⟩ := hf
      obtain ⟨w₁, hb⟩ := Writer.begin_ok (hw.refuses .list) .list
      have hi := Writer.begin_inside hb
      rw [writeWithin, depth, Nat.lt_succ_iff, Nat.succ_le_iff]
      exact enclosed_of_fits hb (writeItems_of_fits items room hi.scope hf) fun w₂ hw₂ =>
        hi.close_ok (writeItems_grows items room hw₂).2.2 (by simp [Wire.Scope.single]) hl
    | record fields =>
      obtain ⟨hl, hf⟩ := hf
      obtain ⟨w₁, hb⟩ := Writer.begin_ok (hw.refuses .map) .map
      have hi := Writer.begin_inside hb
      rw [writeWithin, depth, Nat.lt_succ_iff, Nat.succ_le_iff]
      exact enclosed_of_fits hb (writeFields_of_fits fields room hi.scope hf) fun w₂ hw₂ =>
        hi.close_ok (writeFields_grows fields room hw₂).2.2 (by simp [Wire.Scope.single]) hl
    | present v =>
      obtain ⟨hl, hf⟩ := hf
      obtain ⟨w₁, hb⟩ := Writer.begin_ok (hw.refuses .optionSome) .option
      have hi := Writer.begin_inside hb
      rw [writeWithin, depth, Nat.add_lt_add_iff_right, Nat.add_le_add_iff_right]
      exact enclosed_of_fits hb (writeWithin_of_fits v room (hi.accepts (by decide)) hf)
        fun w₂ hw₂ => hi.close_ok (writeWithin_grows v room hw₂).2.2 (by simp) hl
    -- Here the name has to fit as well.
    | variant name v =>
      obtain ⟨hn, hl, hf⟩ := hf
      obtain ⟨w₁, hb⟩ := Writer.variantBegin_ok (hw.refuses .variant) hn
      have hi := (Writer.variantBegin_inside hb).1
      rw [writeWithin, depth, Nat.add_lt_add_iff_right, Nat.add_le_add_iff_right]
      exact enclosed_of_fits hb (writeWithin_of_fits v room (hi.accepts (by decide)) hf)
        fun w₂ hw₂ => hi.close_ok (writeWithin_grows v room hw₂).2.2 (by simp) hl

/-- `writeWithin_of_fits` for the items of an open list. -/
theorem writeItems_of_fits (items : List WireValue) (room : Nat) {w : Writer}
    (hw : w.top.scope = .list) (hf : Item.AllFit (toItems items)) :
    (depthOfItems items ≤ room → ∃ w', writeItems items room w = .ok w') ∧
      (room < depthOfItems items → writeItems items room w = .error .nestingTooDeep) := by
  cases items with
  | nil =>
    exact ⟨fun _ => ⟨w, by rw [writeItems]⟩, fun h => by simp [depthOfItems] at h⟩
  | cons v items =>
    obtain ⟨hf, hf'⟩ := hf
    have ⟨hok, hdeep⟩ := writeWithin_of_fits v room (Writer.accepts_of_list hw) hf
    rw [depthOfItems]
    -- If the first item is too deep the others are not looked at.
    by_cases hd : v.depth < room
    · obtain ⟨w₁, hw₁⟩ := hok hd
      -- After the first item the writer is still in the list.
      have hs := (writeWithin_grows v room hw₁).2.2.scope.trans hw
      have ⟨hok', hdeep'⟩ := writeItems_of_fits items room hs hf'
      constructor
      · intro h
        obtain ⟨w₂, hw₂⟩ := hok' (by omega)
        exact ⟨w₂, by rw [writeItems]; exact bind_eq_ok_iff.2 ⟨w₁, hw₁, hw₂⟩⟩
      · intro h
        rw [writeItems, hw₁]
        exact hdeep' (by omega)
    · constructor
      · intro h
        omega
      · intro _
        rw [writeItems, hdeep (by omega)]
        rfl

/-- `writeWithin_of_fits` for the fields of an open record. -/
private theorem writeFields_of_fits (fields : List (String × WireValue)) (room : Nat) {w : Writer}
    (hw : w.top.scope = .map) (hf : Item.EntriesFit (toEntries fields)) :
    (depthOfFields fields ≤ room → ∃ w', writeFields fields room w = .ok w') ∧
      (room < depthOfFields fields → writeFields fields room w = .error .nestingTooDeep) := by
  cases fields with
  | nil =>
    exact ⟨fun _ => ⟨w, by rw [writeFields]⟩, fun h => by simp [depthOfFields] at h⟩
  | cons field fields =>
    obtain ⟨name, v⟩ := field
    obtain ⟨⟨hn, hl, hf⟩, hf'⟩ := hf
    obtain ⟨w₁, hb⟩ := Writer.variantBegin_ok (Writer.refuses_variant_of_map hw) hn
    have hi := (Writer.variantBegin_inside hb).1
    have ⟨hok, hdeep⟩ := writeWithin_of_fits v room (hi.accepts (by decide)) hf
    have hb' : ofWire (w.variantBegin name) = .ok w₁ := ofWire_eq_ok_iff.2 hb
    rw [depthOfFields]
    -- As with items, with an entry begun and ended around each value.
    by_cases hd : v.depth < room
    · obtain ⟨w₂, hw₂⟩ := hok hd
      have hg := (writeWithin_grows v room hw₂).2.2
      -- The entry can be closed, since it has its one value and fits.
      obtain ⟨w₃, hw₃⟩ := hi.close_ok hg (by simp) hl
      have hs := (hi.close_grows hg hw₃).1.scope.trans hw
      have ⟨hok', hdeep'⟩ := writeFields_of_fits fields room hs hf'
      have hc' : ofWire w₂.variantEnd = .ok w₃ := ofWire_eq_ok_iff.2 hw₃
      constructor
      · intro h
        obtain ⟨w₄, hw₄⟩ := hok' (by omega)
        refine ⟨w₄, ?_⟩
        rw [writeFields, bind_eq_ok_iff]
        exact ⟨w₁, hb', bind_eq_ok_iff.2 ⟨w₂, hw₂, bind_eq_ok_iff.2 ⟨w₃, hc', hw₄⟩⟩⟩
      · intro h
        rw [writeFields, hb']
        simp only [bind, Except.bind, hw₂, hc']
        exact hdeep' (by omega)
    · constructor
      · intro h
        omega
      · intro _
        rw [writeFields, hb']
        simp only [bind, Except.bind, hdeep (by omega)]

end

/-- A value that is not too deep can be written. -/
theorem writeWithin_ok {v : WireValue} {room : Nat} {w : Writer} (hw : w.Accepts)
    (hf : v.toItem.Fits) (hd : v.depth < room) : ∃ w', v.writeWithin room w = .ok w' :=
  (writeWithin_of_fits v room hw hf).1 hd

/-- A value that is too deep is refused for that reason. -/
theorem writeWithin_deep {v : WireValue} {room : Nat} {w : Writer} (hw : w.Accepts)
    (hf : v.toItem.Fits) (hd : room ≤ v.depth) :
    v.writeWithin room w = .error .nestingTooDeep :=
  (writeWithin_of_fits v room hw hf).2 hd

end Value

end StreamRpc
