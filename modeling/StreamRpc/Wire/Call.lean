import StreamRpc.Wire.Writer

/-! # Calls one after another

Items are written by calls: some write an item that holds no others, and some open or close a
container.  A `Recorder` is something such calls are made to.  A call that it refuses is an error,
and whoever made the call may go on with others.

* `report_eq`    two recorders that stay alike give the same answers
-/

namespace StreamRpc.Wire

/-- An item that holds no others. -/
inductive Leaf where
  | unit
  | bool (b : Bool)
  | none
  | u64 (n : UInt64)
  | s64 (n : Int64)
  | f64 (bits : UInt64)
  | handle (n : UInt64)
  | str (s : String)
  | bytes (b : Bytes)
  deriving DecidableEq, Repr, Inhabited

/-- A container to open. -/
inductive Opening where
  | list
  | map
  | some
  | ok
  | err
  | variant (name : String)
  deriving DecidableEq, Repr, Inhabited

/-- A container to close; either side of a result is closed in the same way. -/
inductive Closing where
  | list
  | map
  | some
  | result
  | variant
  deriving DecidableEq, Repr, Inhabited

/-- A call. -/
inductive Call where
  | leaf (l : Leaf)
  | opens (o : Opening)
  | closes (c : Closing)
  deriving DecidableEq, Repr, Inhabited

/-- The item that a call writes. -/
def Leaf.item : Leaf → Item
  | unit => .unit
  | bool b => .bool b
  | none => .none
  | u64 n => .u64 n
  | s64 n => .s64 n
  | f64 bits => .f64 bits
  | handle n => .handle n
  | str s => .str s
  | bytes b => .bytes b

/-- The tag that an item is written under. -/
def Item.tag : Item → Tag
  | unit => .unit
  | bool b => if b then .boolTrue else .boolFalse
  | none => .optionNone
  | u64 _ => .u64
  | s64 _ => .s64
  | f64 _ => .f64
  | handle _ => .handle
  | str _ => .string
  | bytes _ => .bytes
  | list _ => .list
  | map _ => .map
  | some _ => .optionSome
  | ok _ => .resultOk
  | err _ => .resultErr
  | variant _ _ => .variant

namespace Opening

/-- The tag that a container is written under. -/
def tag : Opening → Tag
  | list => .list
  | map => .map
  | some => .optionSome
  | ok => .resultOk
  | err => .resultErr
  | variant _ => .variant

/-- What a container is while it is open. -/
def scope : Opening → Scope
  | list => .list
  | map => .map
  | some => .option
  | ok => .result
  | err => .result
  | variant _ => .variant

end Opening

/-- The kind of container that is to be closed. -/
def Closing.scope : Closing → Scope
  | list => .list
  | map => .map
  | some => .option
  | result => .result
  | variant => .variant

/-! ## Recorders -/

/-- Something that calls are made to. -/
class Recorder (σ : Type) where
  /-- What a call comes to, the error if it is refused, and what there is afterwards. -/
  attempt : σ → Call → Option WireError × σ
  /-- How many containers are open. -/
  depth : σ → Nat

namespace Recorder

variable {σ τ : Type} [Recorder σ] [Recorder τ]

/-- What there is after calls, whatever each of them came to. -/
def after (s : σ) (calls : List Call) : σ :=
  calls.foldl (fun s c => (attempt s c).2) s

/-- What each call came to, and how many containers were open after it. -/
def report (s : σ) : List Call → List (Option WireError × Nat)
  | [] => []
  | c :: calls => ((attempt s c).1, depth (attempt s c).2) :: report (attempt s c).2 calls

/-- No calls leave the state as it is. -/
@[simp] theorem after_nil (s : σ) : after s [] = s := rfl

/-- A list of calls is made one after the other, the first first. -/
@[simp] theorem after_cons (s : σ) (c : Call) (calls : List Call) :
    after s (c :: calls) = after (attempt s c).2 calls := rfl

/-- Two lists of calls in a row act as the second on the state the first leaves. -/
theorem after_append (s : σ) (calls more : List Call) :
    after s (calls ++ more) = after (after s calls) more :=
  List.foldl_append

/-- Whether each of the calls is one for which there is room when it is made. -/
def Along (Room : σ → Call → Prop) (s : σ) : List Call → Prop
  | [] => True
  | c :: calls => Room s c ∧ Along Room (attempt s c).2 calls

instance decidableAlong (Room : σ → Call → Prop) [∀ s c, Decidable (Room s c)] (s : σ) :
    (calls : List Call) → Decidable (Along Room s calls)
  | [] => inferInstanceAs (Decidable True)
  | c :: calls =>
    have := decidableAlong Room (attempt s c).2 calls
    inferInstanceAs (Decidable (Room s c ∧ Along Room (attempt s c).2 calls))

/-- There is room along two lists of calls when there is along each, the second from where the first
ends. -/
theorem along_append {Room : σ → Call → Prop} {s : σ} {calls more : List Call} :
    Along Room s (calls ++ more) ↔ Along Room s calls ∧ Along Room (after s calls) more := by
  induction calls generalizing s with
  | nil => simp [Along]
  | cons c calls ih => simp only [List.cons_append, Along, ih, after_cons, and_assoc]

/-- Two recorders that stay alike, as long as the calls have room in the second, give the same
    answers. -/
theorem report_eq {Alike : σ → τ → Prop} {Room : τ → Call → Prop}
    (depths : ∀ s t, Alike s t → depth s = depth t)
    (step : ∀ s t c, Alike s t → Room t c →
      (attempt s c).1 = (attempt t c).1 ∧ Alike (attempt s c).2 (attempt t c).2)
    {s : σ} {t : τ} (alike : Alike s t) {calls : List Call} (room : Along Room t calls) :
    report s calls = report t calls ∧ Alike (after s calls) (after t calls) := by
  induction calls generalizing s t with
  | nil => exact ⟨rfl, alike⟩
  | cons c calls ih =>
    obtain ⟨hanswer, halike⟩ := step s t c alike room.1
    obtain ⟨hreport, hafter⟩ := ih halike room.2
    refine ⟨?_, hafter⟩
    rw [report, report, hanswer, depths _ _ halike, hreport]

end Recorder

/-! ## Writers -/

namespace Writer

def leaf (w : Writer) : Leaf → Except WireError Writer
  | .unit => w.unit
  | .bool b => w.bool b
  | .none => w.optionNone
  | .u64 n => w.u64 n
  | .s64 n => w.s64 n
  | .f64 bits => w.f64 bits
  | .handle n => w.handle n
  | .str s => w.str s
  | .bytes b => w.blobBytes b

def opens (w : Writer) : Opening → Except WireError Writer
  | .list => w.listBegin
  | .map => w.mapBegin
  | .some => w.someBegin
  | .ok => w.okBegin
  | .err => w.errBegin
  | .variant name => w.variantBegin name

def closes (w : Writer) : Closing → Except WireError Writer
  | .list => w.listEnd
  | .map => w.mapEnd
  | .some => w.someEnd
  | .result => w.resultEnd
  | .variant => w.variantEnd

/-- Makes a call. -/
def call (w : Writer) : Call → Except WireError Writer
  | .leaf l => w.leaf l
  | .opens o => w.opens o
  | .closes c => w.closes c

end Writer

instance : Recorder Writer where
  attempt w c :=
    match w.call c with
    | .ok w' => (none, w')
    | .error e => (some e, w)
  depth := Writer.depth

end StreamRpc.Wire
