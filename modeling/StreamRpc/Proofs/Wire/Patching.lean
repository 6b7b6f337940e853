import StreamRpc.Proofs.Wire.Building
import StreamRpc.Wire.Buffer

/-! # A buffer holds what a writer holds

`Writer.flat` lays the frames of a writer out one behind the other, with a gap where the length of
each open container will stand.  A call to the buffer that this gives comes to what the same call
comes to for the writer, laid out again.

* `Buffer.fill_gap`   the length that is filled in stands right before the body it is the length of
* `Writer.flat_call`  calls commute with laying out
-/

namespace StreamRpc.Wire

/-! ## Laying out -/

/-- The open container that a frame stands for, if its body starts here. -/
def Frame.mark (f : Frame) (start : Nat) : Mark :=
  { start, scope := f.scope, count := f.count }

namespace Writer

/-- The bytes in front of the innermost body: those of each container around it, and the tag and
    the gap of the next one. -/
def before : List (Tag × Frame) → Bytes
  | [] => []
  | (t, f) :: outer => before outer ++ f.body ++ t.byte :: Buffer.gap

/-- The containers around the innermost one. -/
def marks : List (Tag × Frame) → List Mark
  | [] => []
  | (_, f) :: outer => f.mark (before outer).length :: marks outer

/-- Everything that has been written, in one stretch. -/
def flat (w : Writer) : Buffer where
  written := before w.outer ++ w.top.body
  top := w.top.mark (before w.outer).length
  outer := marks w.outer

/-- There is one mark for each open scope. -/
private theorem length_marks (outer : List (Tag × Frame)) :
    (marks outer).length = outer.length := by
  induction outer with
  | nil => rfl
  | cons head outer ih => exact congrArg (· + 1) ih

/-- The flat buffer has as many open scopes as the writer. -/
theorem depth_flat (w : Writer) : w.flat.depth = w.depth :=
  length_marks w.outer

/-- The flat buffer has the same bytes when nothing is open. -/
theorem bytes_flat (w : Writer) : w.flat.bytes = w.bytes := by
  obtain ⟨top, outer⟩ := w
  cases outer <;> rfl

/-- What two recorders make of a call, if one of them is the other laid out. -/
def laid (w : Writer) : Except WireError Writer → EStateM.Result WireError Buffer Unit
  | .ok w' => .ok () w'.flat
  | .error e => .error e w.flat

end Writer

namespace Buffer

/-! ## Items that hold no others -/

/-- One more item at the end of the innermost container. -/
def push (b : Buffer) (item : Bytes) : Buffer :=
  { b with written := b.written ++ item, top := { b.top with count := b.top.count + 1 } }

/-- The buffer with the item, if an item with this tag may stand here. -/
def put (b : Buffer) (t : Tag) (item : Bytes) : EStateM.Result WireError Buffer Unit :=
  match b.top.refuses t with
  | some e => .error e b
  | none => .ok () (b.push item)

/-- Reading the buffer passes it on. -/
private theorem get_bind (f : Buffer → Writing) (b : Buffer) : (get >>= f) b = f b b := rfl

/-- A modification of the buffer succeeds. -/
theorem modify_run (f : Buffer → Buffer) (b : Buffer) : (modify f : Writing) b = .ok () (f b) := rfl

/-- A tag is appended when the open frame does not refuse it. -/
private theorem tag_run (t : Tag) (b : Buffer) :
    tag t b =
      match b.top.refuses t with
      | some e => .error e b
      | none => .ok () { b with written := b.written ++ [t.byte] } := by
  unfold tag
  rw [get_bind]
  cases b.top.refuses t <;> rfl

/-- A marker is put as one item. -/
private theorem marker_run (t : Tag) (b : Buffer) : marker t b = b.put t (Wire.marker t) := by
  unfold marker put
  simp only [bind, EStateM.bind, tag_run]
  cases b.top.refuses t <;> rfl

/-- A wide number is put as one item. -/
private theorem wide_run (t : Tag) (n : Nat) (b : Buffer) :
    wide t n b = b.put t (Wire.wide t n) := by
  unfold wide put
  simp only [bind, EStateM.bind, tag_run]
  cases b.top.refuses t with
  | some e => rfl
  | none => simp [append, count, modify_run, push, Wire.wide]

/-- A blob is put as one item when its body is not too large. -/
private theorem blob_run (t : Tag) (body : Bytes) (b : Buffer) :
    blob t body b =
      if body.length < blobLimit then b.put t (Wire.blob t body)
      else .error (.blobTooLarge body.length) b := by
  unfold blob
  split
  · unfold put
    simp only [bind, EStateM.bind, tag_run]
    -- The scope may refuse the item; then nothing has been written.
    cases b.top.refuses t with
    | some e => rfl
    | none => simp [append, count, modify_run, push, Wire.blob]
  · rfl

end Buffer

namespace Writer

/-- Pushing an item appends its bytes to the flat buffer. -/
private theorem flat_push (w : Writer) (item : Bytes) :
    ({ w with top := w.top.push item } : Writer).flat = w.flat.push item := by
  simp [flat, Buffer.push, Frame.mark, List.append_assoc]

/-- Putting an item in the flat buffer lays out the same in the writer. -/
private theorem flat_put (w : Writer) (t : Tag) (item : Bytes) :
    w.flat.put t item = w.laid (w.put t item) := by
  have hrefuses : w.flat.top.refuses t = w.top.refuses t := rfl
  unfold Buffer.put put
  rw [hrefuses]
  cases w.top.refuses t with
  | some e => rfl
  | none => exact congrArg _ (w.flat_push item).symm

/-- Putting a blob in the flat buffer lays out the same in the writer. -/
private theorem flat_putBlob (w : Writer) (t : Tag) (body : Bytes) :
    Buffer.blob t body w.flat = w.laid (w.putBlob t body) := by
  unfold putBlob
  rw [Buffer.blob_run, flat_put]
  split <;> rfl

/-- Writing a leaf in the flat buffer lays out the same in the writer. -/
private theorem flat_leaf (w : Writer) (l : Leaf) : Buffer.leaf l w.flat = w.laid (w.leaf l) := by
  -- A leaf is a marker, eight bytes or a blob, and each of the three was flattened before.
  cases l with
  | unit => exact (Buffer.marker_run _ _).trans (w.flat_put _ _)
  | bool b => exact (Buffer.marker_run _ _).trans (w.flat_put _ _)
  | none => exact (Buffer.marker_run _ _).trans (w.flat_put _ _)
  | u64 n => exact (Buffer.wide_run _ _ _).trans (w.flat_put _ _)
  | s64 n => exact (Buffer.wide_run _ _ _).trans (w.flat_put _ _)
  | f64 bits => exact (Buffer.wide_run _ _ _).trans (w.flat_put _ _)
  | handle n => exact (Buffer.wide_run _ _ _).trans (w.flat_put _ _)
  | str s => exact w.flat_putBlob _ _
  | bytes b => exact w.flat_putBlob _ _

/-! ## Opening -/

/-- Opening a scope in the flat buffer lays out the same in the writer. -/
private theorem flat_begin (w : Writer) (t : Tag) (scope : Scope) :
    Buffer.begin t scope w.flat = w.laid (w.begin t scope) := by
  have hrefuses : w.flat.top.refuses t = w.top.refuses t := rfl
  unfold Buffer.begin begin
  simp only [bind, EStateM.bind, Buffer.tag_run]
  rw [hrefuses]
  cases w.top.refuses t with
  | some e => rfl
  | none => simp [Buffer.append, Buffer.modify_run, laid, flat, before, marks, Frame.mark, Frame.body,
      List.append_assoc]

/-- A variant whose name is too long is open by the time its name is refused, so its name has to
    fit. -/
private theorem flat_variantBegin (w : Writer) {name : String}
    (fits : (utf8 name).length < blobLimit) :
    Buffer.opens (.variant name) w.flat = w.laid (w.variantBegin name) := by
  unfold Buffer.opens variantBegin
  simp only [bind, EStateM.bind, Except.bind, flat_begin]
  cases hbegin : w.begin .variant .variant with
  | error e => rfl
  | ok w₁ =>
    simp only [laid, flat_putBlob, str]
    -- The name goes in without an error: the container is new and its name is short enough.
    obtain ⟨w₂, hput⟩ := putBlob_ok ((begin_inside hbegin).accepts (by decide)) .string fits
    rw [hput]
    rfl

/-- Each opening call in the flat buffer lays out the same in the writer. -/
private theorem flat_opens (w : Writer) {o : Opening}
    (fits : ∀ name, o = .variant name → (utf8 name).length < blobLimit) :
    Buffer.opens o w.flat = w.laid (w.opens o) := by
  cases o with
  | variant name => exact w.flat_variantBegin (fits name rfl)
  | _ => exact w.flat_begin _ _

end Writer

/-! ## Closing -/

/-- The length that is filled in stands right before the body that it is the length of. -/
theorem Buffer.fill_gap (bs : Bytes) (t : Tag) (body : Bytes) :
    fill (bs ++ t.byte :: gap ++ body) (bs ++ t.byte :: gap).length body.length =
      bs ++ Wire.blob t body := by
  -- The tag stands in front of the gap, and the body starts right behind it.
  have htake : (bs ++ t.byte :: gap ++ body).take ((bs ++ t.byte :: gap).length - gap.length) =
      bs ++ [t.byte] := by
    have hlen : (bs ++ t.byte :: gap).length - gap.length = (bs ++ [t.byte]).length := by
      simp [gap]
    rw [hlen]
    simp [List.take_append, List.take_of_length_le]
  have hdrop : (bs ++ t.byte :: gap ++ body).drop (bs ++ t.byte :: gap).length = body :=
    List.drop_left
  have hgap : gap.length = 4 := rfl
  unfold fill
  rw [htake, hdrop, hgap]
  simp [Wire.blob]

/-- Closing a scope checks it and fills its length in. -/
private theorem Buffer.close_run (expected : Scope) (b : Buffer) :
    close expected b =
      match b.outer with
      | [] => .error .scopeUnderflow b
      | parent :: outer =>
        if b.top.scope ≠ expected then .error (.scopeMismatch expected b.top.scope) b
        else if b.top.scope.single ∧ b.top.count = 0 then .error (.emptyScope b.top.scope) b
        else
          let len := b.written.length - b.top.start
          if len < blobLimit then
            .ok () { written := fill b.written b.top.start len,
                     top := { parent with count := parent.count + 1 }, outer }
          else .error (.blobTooLarge len) { b with top := parent, outer } := by
  unfold close
  rw [get_bind]
  -- The checks come in this order, and the first that fails says what the error is.
  rcases b.outer with - | ⟨parent, outer⟩
  · rfl
  by_cases hscope : b.top.scope = expected
  · by_cases hempty : b.top.scope.single = true ∧ b.top.count = 0
    · simp only [ne_eq, hscope, not_true, if_false, hscope ▸ hempty, and_self, if_true]
      rfl
    -- A scope that is too long is left all the same, with the error.
    · by_cases hfits : b.written.length - b.top.start < blobLimit
      · simp only [ne_eq, hscope, not_true, if_false, hscope ▸ hempty, hfits, if_true]
        rfl
      · simp only [ne_eq, hscope, not_true, if_false, hscope ▸ hempty, hfits]
        rfl
  · simp only [ne_eq, hscope, not_false_eq_true, if_true]
    rfl

namespace Writer

/-- A container that is too long is gone by the time its length is refused, so its body has to
    fit. -/
private theorem flat_close (w : Writer) (scope : Scope)
    (fits : w.outer ≠ [] → w.top.body.length < blobLimit) :
    Buffer.close scope w.flat = w.laid (w.close scope) := by
  obtain ⟨f, outer⟩ := w
  cases outer with
  | nil => rfl
  | cons head outer =>
    obtain ⟨t, parent⟩ := head
    have hfits : f.body.length < blobLimit := fits (by simp)
    have hlen : (before ((t, parent) :: outer) ++ f.body).length -
        (before ((t, parent) :: outer)).length = f.body.length := by simp
    -- The length goes where the gap was.
    have hfill := Buffer.fill_gap (before outer ++ parent.body) t f.body
    rw [Buffer.close_run]
    simp only [close, flat, marks, Frame.mark, hlen, hfits, if_true]
    split
    · rfl
    split
    · rfl
    simp only [laid, flat, Frame.mark, before, Frame.body_push, Frame.scope_push, Frame.count_push]
    rw [hfill, List.append_assoc]

/-- Calls commute with laying out, as long as every length fits. -/
theorem Shows.flat_call {w : Writer} {b : Builder} (h : Shows w b) {c : Call} (room : b.Room c) :
    Buffer.call c w.flat = w.laid (w.call c) := by
  -- The buffer patches a length in place where the writer puts the finished body.
  cases c with
  | leaf l => exact w.flat_leaf l
  | opens o =>
    refine w.flat_opens fun name hname => ?_
    subst hname
    exact room
  | closes c =>
    have hclose := w.flat_close c.scope fun hopen => ?_
    · rwa [← closes_eq] at hclose
    · cases h with
      | root scope body => exact absurd rfl hopen
      | @inside f parent outer s roots opened frame around free =>
        rw [frame.body]
        exact room s rfl

end Writer

end StreamRpc.Wire
