import StreamRpc.Proofs.Wire.Skipping

/-! # Whatever can be read can be skipped

The items of a list are told apart by skipping over them, and only then read, each from its own
bytes.  That works because skipping agrees with every read, of single items as of whole values:
what was read is what would have been skipped.

* `Decoder.Takes.passes`     a read that takes one item passes over what is skipped
* `Value.onlyTakes_readWithin`
                             values are read from the front, also if reading fails inside of them
* `reading_agrees_with_skipping`
                             all reads
-/

namespace StreamRpc

open Wire (Reader WireError Item Tag)
open Wire.Reader (OnlyTakes Passes Typed)

namespace Decoder

variable {α : Type}

/-- A lifted reader only takes from the front when the reader does. -/
private theorem onlyTakes_lift {r : Reader WireError α} (hr : OnlyTakes r) :
    OnlyTakes (liftM r : Decoder α) := by
  intro bs
  have hbs := hr bs
  change Reader.left (ofReader r bs) <:+ bs
  unfold ofReader
  cases h : r bs <;> rwa [h] at hbs

/-- A lifted result takes nothing. -/
private theorem onlyTakes_ofExcept (r : Except CodecError α) : OnlyTakes (ofExcept r) := by
  intro bs
  cases r <;> exact List.suffix_rfl

/-- A read that takes exactly the item its result stands for takes what is skipped. -/
theorem Takes.passes {d : Decoder α} {item : α → Item} {Sound : α → Prop}
    (takes : d.Takes item Sound) (hd : OnlyTakes d) : Passes d where
  onlyTakes := hd
  skips h := by
    obtain ⟨hbs, hfits, -⟩ := takes h
    rw [hbs]
    exact Reader.skip_of_item (Reader.item_encode _ hfits _)

end Decoder

open Decoder (onlyTakes_lift onlyTakes_ofExcept)

namespace Value

/-- What is inside of a value is read from bytes of its own, so that only its outermost item is
    taken off the front. -/
theorem onlyTakes_readWithin (room : Nat) : OnlyTakes (readWithin room) := by
  cases room with
  | zero => exact .throw _
  | succ room =>
    refine (onlyTakes_lift Reader.onlyTakes_peek).bind fun t => ?_
    -- No induction: the reads of what is inside are `ofExcept`, and take nothing here.
    cases t with
    | unit => exact (onlyTakes_lift Reader.typed_unit.onlyTakes).bind fun _ => .pure _
    | boolTrue | boolFalse =>
      exact (onlyTakes_lift Reader.typed_bool.onlyTakes).bind fun _ => .pure _
    | u64 | f64 | handle =>
      exact (onlyTakes_lift (Reader.onlyTakes_wide _)).bind fun _ => .pure _
    | s64 => exact (onlyTakes_lift Reader.typed_s64.onlyTakes).bind fun _ => .pure _
    | string => exact (onlyTakes_lift Reader.typed_str.onlyTakes).bind fun _ => .pure _
    | bytes => exact (onlyTakes_lift (Reader.onlyTakes_blob _)).bind fun _ => .pure _
    | list | map =>
      exact (onlyTakes_lift (Reader.onlyTakes_blob _)).bind fun _ =>
        (onlyTakes_ofExcept _).bind fun _ => .pure _
    -- Only here does it depend on what was read whether anything follows.
    | optionNone | optionSome =>
      refine (onlyTakes_lift Reader.typed_option.onlyTakes).bind fun body? => ?_
      split
      · exact .pure _
      · exact (onlyTakes_ofExcept _).bind fun _ => .pure _
    | variant =>
      exact (onlyTakes_lift Reader.typed_variant.onlyTakes).bind fun _ =>
        (onlyTakes_ofExcept _).bind fun _ => .pure _
    | resultOk | resultErr => exact .throw _

/-- Reading a value leaves the input where skipping it does. -/
private theorem passes_read : Passes read :=
  (takes_readWithin (maxDepth + 1)).passes (onlyTakes_readWithin _)

/-- Reading a list of values leaves the input where skipping it does. -/
private theorem passes_readList : Passes readList :=
  takes_readList.passes <| (onlyTakes_lift (Reader.onlyTakes_blob _)).bind fun _ =>
    onlyTakes_ofExcept _

end Value

/-- Reading a failure leaves the input where skipping it does. -/
private theorem Failure.passes_read : Passes Failure.read :=
  takes_read.passes <| (onlyTakes_lift Reader.typed_variant.onlyTakes).bind fun _ =>
    (onlyTakes_ofExcept _).bind fun _ => onlyTakes_ofExcept _

/-- Every read that succeeds takes the bytes that would be skipped.  A typed read takes nothing
    where it is not given a tag that it is for, and whatever comes of a read, what it leaves is the
    end of what it was given. -/
theorem reading_agrees_with_skipping :
    (Typed Reader.unit .unit [.unit] ∧
      Typed Reader.bool .boolTrue [.boolTrue, .boolFalse] ∧
      Typed Reader.u64 .u64 [.u64] ∧
      Typed Reader.s64 .s64 [.s64] ∧
      Typed Reader.f64 .f64 [.f64] ∧
      Typed Reader.handle .handle [.handle] ∧
      Typed Reader.str .string [.string] ∧
      Typed Reader.bytes .bytes [.bytes] ∧
      Typed Reader.list .list [.list] ∧
      Typed Reader.map .map [.map] ∧
      Typed Reader.option .optionSome [.optionNone, .optionSome] ∧
      Typed Reader.result .resultOk [.resultErr, .resultOk] ∧
      Typed Reader.variant .variant [.variant]) ∧
    Passes Value.read ∧ Passes Value.readList ∧ Passes Failure.read ∧ OnlyTakes Reader.skip := by
  refine ⟨⟨Reader.typed_unit, Reader.typed_bool, Reader.typed_wide _ rfl, Reader.typed_s64,
    Reader.typed_wide _ rfl, Reader.typed_wide _ rfl, Reader.typed_str, Reader.typed_blob _ rfl,
    Reader.typed_blob _ rfl, Reader.typed_blob _ rfl, Reader.typed_option, Reader.typed_result,
    Reader.typed_variant⟩, Value.passes_read, Value.passes_readList, Failure.passes_read, ?_⟩
  exact Reader.onlyTakes_item.bind fun _ => .pure ()

/-- Skipping does not look inside: what cannot be read can be skipped nevertheless, and as much of
    it is taken. -/
example : Reader.str [Tag.string.byte, 1, 0, 0, 0, 0xff, 1] = .error .invalidUtf8 [1] ∧
    Reader.skip [Tag.string.byte, 1, 0, 0, 0, 0xff, 1] = .ok () [1] :=
  ⟨rfl, rfl⟩

end StreamRpc
