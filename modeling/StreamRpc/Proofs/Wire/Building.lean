import StreamRpc.Proofs.Wire.Writing
import StreamRpc.Wire.Builder

/-! # Writers write the trees that are built

A writer and a builder that get the same calls stay alike: each frame of the writer holds the bytes
of one container of the builder, and the two refuse the same calls for the same reasons.

* `Writer.Shows`        the frames of a writer hold the bytes of the containers of a builder
* `Writer.Shows.call`   and go on doing so with every call
-/

namespace StreamRpc.Wire

/-! ## Containers that are open -/

namespace Sapling

/-- The tag that the container will be written under. -/
def tag : Sapling → Tag
  | list _ => .list
  | map _ => .map
  | some _ => .optionSome
  | ok _ => .resultOk
  | err _ => .resultErr
  | variant _ _ => .variant

/-- How many items the container has. -/
def count : Sapling → Nat
  | list items => items.length
  | map entries => entries.length
  | some item => item.toList.length
  | ok item => item.toList.length
  | err item => item.toList.length
  | variant _ item => item.toList.length

/-- An added item does not change what is being built. -/
@[simp] theorem scope_add (s : Sapling) (item : Item) : (s.add item).scope = s.scope := by
  cases s with
  | map entries => cases item <;> rfl
  | _ => rfl

/-- An added item does not change the tag of what is being built. -/
@[simp] theorem tag_add (s : Sapling) (item : Item) : (s.add item).tag = s.tag := by
  cases s with
  | map entries => cases item <;> rfl
  | _ => rfl

/-- An item that is not refused goes to the end of the body. -/
private theorem body_add {s : Sapling} {item : Item}
    (free : s.refuses (item.tag = .variant) = none) :
    (s.add item).body = s.body ++ item.encode := by
  cases s with
  | list items => simp [add, body, Item.encodeAll_append, Item.encodeAll]
  | map entries =>
    -- A map refuses everything but variants, which stand in it as its entries.
    cases item with
    | variant name value =>
      simp [add, body, Item.encodeEntries_append, Item.encodeEntries, Item.encode]
    | bool b => cases b <;> simp [refuses, Item.tag] at free
    | _ => simp [refuses, Item.tag] at free
  | some content => cases content <;> simp_all [add, body, refuses]
  | ok content => cases content <;> simp_all [add, body, refuses]
  | err content => cases content <;> simp_all [add, body, refuses]
  | variant name content => cases content <;> simp_all [add, body, refuses]

/-- An item that is not refused is counted. -/
private theorem count_add {s : Sapling} {item : Item}
    (free : s.refuses (item.tag = .variant) = none) :
    (s.add item).count = s.count + 1 := by
  -- A sapling of one content takes an item only while it is empty; a map takes variants only.
  cases s with
  | list items => simp [add, count]
  | map entries =>
    cases item with
    | variant name value => simp [add, count]
    | bool b => cases b <;> simp [refuses, Item.tag] at free
    | _ => simp [refuses, Item.tag] at free
  | some content => cases content <;> simp_all [add, count, refuses]
  | ok content => cases content <;> simp_all [add, count, refuses]
  | err content => cases content <;> simp_all [add, count, refuses]
  | variant name content => cases content <;> simp_all [add, count, refuses]

/-- A container is not complete exactly if it is for a single item and has none. -/
private theorem finish?_eq_none_iff (s : Sapling) :
    s.finish? = none ↔ s.scope.single = true ∧ s.count = 0 := by
  cases s with
  | list items => simp [finish?, scope, Scope.single]
  | map entries => simp [finish?, scope, Scope.single]
  | some content => cases content <;> simp [finish?, scope, Scope.single, count]
  | ok content => cases content <;> simp [finish?, scope, Scope.single, count]
  | err content => cases content <;> simp [finish?, scope, Scope.single, count]
  | variant name content => cases content <;> simp [finish?, scope, Scope.single, count]

/-- A finished container is written under its tag, with its body. -/
private theorem encode_of_finish? {s : Sapling} {item : Item} (h : s.finish? = Option.some item) :
    item.tag = s.tag ∧ item.encode = blob s.tag s.body := by
  -- A list and a map can be finished at any time, the others when they have their content.
  cases s with
  | list items => cases h; exact ⟨rfl, rfl⟩
  | map entries => cases h; exact ⟨rfl, rfl⟩
  | some content =>
    obtain ⟨i, rfl, rfl⟩ := Option.map_eq_some_iff.1 h
    exact ⟨rfl, rfl⟩
  | ok content =>
    obtain ⟨i, rfl, rfl⟩ := Option.map_eq_some_iff.1 h
    exact ⟨rfl, rfl⟩
  | err content =>
    obtain ⟨i, rfl, rfl⟩ := Option.map_eq_some_iff.1 h
    exact ⟨rfl, rfl⟩
  | variant name content =>
    obtain ⟨i, rfl, rfl⟩ := Option.map_eq_some_iff.1 h
    exact ⟨rfl, rfl⟩

end Sapling

/-! ## Frames and containers -/

/-- A frame holds the bytes of a container. -/
structure Frame.Shows (f : Frame) (s : Sapling) : Prop where
  scope : f.scope = s.scope
  body : f.body = s.body
  count : f.count = s.count

/-- Pushing an item's bytes shows the sapling with the item added. -/
private theorem Frame.Shows.push {f : Frame} {s : Sapling} (h : f.Shows s) {item : Item}
    (free : s.refuses (item.tag = .variant) = none) : (f.push item.encode).Shows (s.add item) where
  scope := by rw [scope_push, h.scope, Sapling.scope_add]
  body := by rw [body_push, h.body, Sapling.body_add free]
  count := by rw [count_push, h.count, Sapling.count_add free]

/-- A frame refuses what the sapling it shows refuses. -/
private theorem Frame.Shows.refuses {f : Frame} {s : Sapling} (h : f.Shows s) (t : Tag) :
    f.refuses t = s.refuses (t = .variant) := by
  unfold Frame.refuses
  rw [h.scope, h.count]
  -- The frame goes by its counter where the sapling looks at its content.
  cases s with
  | list items => simp [Sapling.scope, Sapling.refuses, Scope.single]
  | map entries => by_cases ht : t = .variant <;> simp [Sapling.scope, Sapling.refuses, ht]
  | some content =>
    cases content <;> simp [Sapling.scope, Sapling.refuses, Scope.single, Sapling.count]
  | ok content =>
    cases content <;> simp [Sapling.scope, Sapling.refuses, Scope.single, Sapling.count]
  | err content =>
    cases content <;> simp [Sapling.scope, Sapling.refuses, Scope.single, Sapling.count]
  | variant name content =>
    cases content <;> simp [Sapling.scope, Sapling.refuses, Scope.single, Sapling.count]

namespace Writer

/-- The frames of a writer hold the bytes of the containers of a builder.  A container is open only
    where it may be closed: the one around it does not refuse it. -/
inductive Shows : Writer → Builder → Prop where
  | root {f : Frame} {roots : List Item} (scope : f.scope = .root)
      (body : f.body = Item.encodeAll roots) : Shows { top := f, outer := [] } { roots, opened := [] }
  | inside {f parent : Frame} {outer : List (Tag × Frame)} {s : Sapling} {roots : List Item}
      {opened : List Sapling} (frame : f.Shows s)
      (around : Shows { top := parent, outer } { roots, opened })
      (free : Builder.refuses { roots, opened } (s.tag = .variant) = none) :
      Shows { top := f, outer := (s.tag, parent) :: outer } { roots, opened := s :: opened }

/-- The empty writer shows the empty builder. -/
theorem shows_empty : Shows {} {} :=
  .root rfl rfl

variable {w : Writer} {b : Builder}

/-- A writer refuses what the builder it shows refuses. -/
private theorem Shows.refuses (h : Shows w b) (t : Tag) :
    w.top.refuses t = b.refuses (t = .variant) := by
  cases h with
  | root scope body => simp [Frame.refuses, Builder.refuses, scope, Scope.single]
  | inside frame around free => exact frame.refuses t

/-- A writer has as many open scopes as the builder it shows. -/
theorem Shows.depth (h : Shows w b) : w.depth = b.opened.length := by
  induction h with
  | root scope body => rfl
  | inside frame around free ih => exact congrArg (· + 1) ih

/-- An item that is not refused goes into the innermost container of both. -/
private theorem Shows.add (h : Shows w b) {item : Item}
    (free : b.refuses (item.tag = .variant) = none) :
    Shows { w with top := w.top.push item.encode } (b.add item) := by
  cases h with
  | root scope body =>
    refine .root scope ?_
    rw [Frame.body_push, body, Item.encodeAll_append]
    simp [Item.encodeAll]
  | @inside f parent outer s roots opened frame around outside =>
    -- The containers around are not touched, and the one that gets the item keeps its tag.
    have hadd : Shows { top := f.push item.encode, outer := ((s.add item).tag, parent) :: outer }
        { roots, opened := s.add item :: opened } :=
      .inside (frame.push free) around (by rwa [Sapling.tag_add])
    rwa [Sapling.tag_add] at hadd

/-- The bytes of a writer that has nothing open are those of the finished trees. -/
theorem Shows.bytes (h : Shows w b) :
    w.bytes = if b.opened = [] then .ok (Item.encodeAll b.roots) else .error .scopeStillOpen := by
  cases h with
  | root scope body => simp [Writer.bytes, body]
  | inside frame around free => simp [Writer.bytes]

/-! ## Calls -/

/-- Two calls that come to the same. -/
def Agree : Except WireError Writer → Except WireError Builder → Prop
  | .ok w, .ok b => Shows w b
  | .error e, .error e' => e = e'
  | _, _ => False

/-- Putting an item's bytes and adding the item agree. -/
private theorem Shows.put (h : Shows w b) (item : Item) :
    Agree (w.put item.tag item.encode)
      (match b.refuses (item.tag = .variant) with
        | some e => .error e
        | none => .ok (b.add item)) := by
  unfold Writer.put
  rw [h.refuses]
  cases free : b.refuses (item.tag = .variant) with
  | none => exact h.add free
  | some e => exact rfl

/-- A leaf is written as its item's bytes. -/
private theorem leaf_eq (w : Writer) {b : Builder} {l : Leaf} (room : b.Room (.leaf l)) :
    w.leaf l = w.put l.item.tag l.item.encode := by
  cases l with
  | bool x => cases x <;> rfl
  | str s => exact if_pos room
  | bytes bs => exact if_pos room
  | _ => rfl

/-- Writing a leaf and adding it agree. -/
private theorem Shows.leaf (h : Shows w b) {l : Leaf} (room : b.Room (.leaf l)) :
    Agree (w.leaf l) (b.leaf l) := by
  have hput := h.put l.item
  have hplain : decide (l.item.tag = .variant) = false := by
    cases l with
    | bool x => cases x <;> rfl
    | _ => rfl
  rw [hplain] at hput
  rw [leaf_eq w room]
  exact hput

/-- A writer that opens a container, with what is in it at once. -/
private theorem opens_eq (w : Writer) {b : Builder} {o : Opening} (room : b.Room (.opens o)) :
    ∃ f : Frame, f.Shows o.sapling ∧
      w.opens o =
        match w.top.refuses o.tag with
        | some e => .error e
        | none => .ok { top := f, outer := (o.tag, w.top) :: w.outer } := by
  cases o with
  | variant name =>
    have hname : (utf8 name).length < blobLimit := room
    refine ⟨{ scope := .variant, pieces := [blob .string (utf8 name)] }, ⟨rfl, ?_, rfl⟩, ?_⟩
    · simp [Frame.body, Sapling.body, Opening.sapling]
    · simp only [Writer.opens, variantBegin, begin, Opening.tag]
      cases w.top.refuses .variant with
      | some e => rfl
      | none =>
        -- The name is put into the new container as its first item, and the count set back.
        have hfree : ({ scope := .variant } : Frame).refuses .string = none := by decide
        simp [bind, Except.bind, pure, Except.pure, str, putBlob, hname, put, hfree, Frame.push]
  | _ => exact ⟨_, ⟨rfl, rfl, rfl⟩, rfl⟩

/-- Opening a scope in the writer and in the builder agree. -/
private theorem Shows.opens (h : Shows w b) {o : Opening} (room : b.Room (.opens o)) :
    Agree (w.opens o) (b.opens o) := by
  obtain ⟨f, hf, heq⟩ := opens_eq w room
  have htag : o.sapling.tag = o.tag := by cases o <;> rfl
  have hvariant : decide (o.tag = .variant) = decide (o.scope = .variant) := by cases o <;> rfl
  unfold Builder.opens
  rw [heq, h.refuses, hvariant]
  -- Both refuse for the same reason, or both open a container.
  cases free : b.refuses (o.scope = .variant) with
  | some e => exact rfl
  | none =>
    have hopen : Shows { top := f, outer := (o.sapling.tag, w.top) :: w.outer }
        { b with opened := o.sapling :: b.opened } :=
      .inside hf h (by rwa [htag, hvariant])
    rwa [htag] at hopen

/-- A closing call closes its own scope. -/
theorem closes_eq (w : Writer) (c : Closing) : w.closes c = w.close c.scope := by
  cases c <;> rfl

/-- Closing a scope in the writer and in the builder agree. -/
private theorem Shows.closes (h : Shows w b) {c : Closing} (room : b.Room (.closes c)) :
    Agree (w.closes c) (b.closes c) := by
  rw [closes_eq]
  cases h with
  | root scope body => exact rfl
  | @inside f parent outer s roots opened frame around free =>
    have hfits : f.body.length < blobLimit := by
      rw [frame.body]
      exact room s rfl
    unfold Writer.close Builder.closes
    simp only [frame.scope, frame.count]
    split
    · exact rfl
    · cases hfinish : s.finish? with
      | none => rw [if_pos ((s.finish?_eq_none_iff).1 hfinish)]; exact rfl
      | some item =>
        have hcomplete : ¬ (s.scope.single = true ∧ s.count = 0) := fun hempty => by
          rw [(s.finish?_eq_none_iff).2 hempty] at hfinish
          cases hfinish
        obtain ⟨htag, hencode⟩ := Sapling.encode_of_finish? hfinish
        have hadd := @Shows.add _ _ around item (by rwa [htag])
        -- What goes into the frame around is the item that the builder adds.
        rw [hencode, ← frame.body] at hadd
        rw [if_neg hcomplete]
        exact hadd

/-- A writer and a builder that are alike refuse the same calls, for the same reasons, and are alike
    after those that they do not refuse. -/
theorem Shows.call (h : Shows w b) {c : Call} (room : b.Room c) : Agree (w.call c) (b.call c) := by
  cases c with
  | leaf l => exact h.leaf room
  | opens o => exact h.opens room
  | closes c => exact h.closes room

end Writer

end StreamRpc.Wire
