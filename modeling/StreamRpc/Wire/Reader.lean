import StreamRpc.Wire.Error
import StreamRpc.Wire.Item

/-! # Reading items

A reader takes bytes off the front of what is unread.  It either succeeds or fails, and what it
leaves unread is known in both cases: a read that fails may have taken some bytes already.
Reading a container takes the whole container and gives its body, which is then read on its own.

* `blob_ok`, `blob_append`   a length-prefixed read takes exactly one length-prefixed item
* `item_ok`                  an item read whole is the front of what was there, and not empty
* `nextItem_length`          an item taken off a list body leaves fewer bytes
* `nextEntry_length`         an entry taken off a map body leaves fewer bytes
-/

namespace StreamRpc.Wire

/-- A read: a result or an error, and the bytes left unread. -/
abbrev Reader (ε : Type) (α : Type) := EStateM ε Bytes α

namespace Reader

/-- The tag that comes next, which is not taken. -/
def peek : Reader WireError Tag := fun bs =>
  match bs with
  | [] => .error .unexpectedEnd bs
  | b :: _ =>
    match Tag.ofByte? b with
    | some t => .ok t bs
    | none => .error (.invalidTag b) bs

/-- Takes exactly `n` bytes. -/
def take (n : Nat) : Reader WireError Bytes := fun bs =>
  let front := bs.take n
  if front.length < n then .error .unexpectedEnd bs else .ok front (bs.drop n)

/-- Succeeds when nothing is left. -/
def finish : Reader WireError Unit := fun bs =>
  if bs.isEmpty then .ok () bs else .error (.trailingBytes bs.length) bs

/-- Takes the tag byte, which must be this one. -/
def tag (t : Tag) : Reader WireError Unit := do
  let found ← peek
  if found = t then
    discard (take 1)
  else
    throw (.unexpectedTag t found)

/-- Takes a fixed-width number. -/
def number (width : Nat) : Reader WireError Nat := do
  return Word.value (← take width)

/-- Takes the number after a tag. -/
def wide (t : Tag) : Reader WireError UInt64 := do
  tag t
  return UInt64.ofNat (← number 8)

/-- Takes the length-prefixed body after a tag. -/
def blob (t : Tag) : Reader WireError Bytes := do
  tag t
  take (← number 4)

/-- Takes the next item whole, whatever it is, and gives its bytes. -/
def item : Reader WireError Bytes := do
  let t ← peek
  let head ← take 1
  match t.width? with
  | some n => return head ++ (← take n)
  | none =>
    let len ← take 4
    return head ++ len ++ (← take (Word.value len))

/-- Takes the next item whole and forgets it. -/
def skip : Reader WireError Unit :=
  discard item

/-! ## Typed reads -/

def unit : Reader WireError Unit :=
  tag .unit

def bool : Reader WireError Bool := do
  match ← peek with
  | .boolTrue => tag .boolTrue; return true
  | .boolFalse => tag .boolFalse; return false
  | found => throw (.unexpectedTag .boolTrue found)

def u64 : Reader WireError UInt64 :=
  wide .u64

def s64 : Reader WireError Int64 := do
  return (← wide .s64).toInt64

/-- The bits of a float. -/
def f64 : Reader WireError UInt64 :=
  wide .f64

def handle : Reader WireError UInt64 :=
  wide .handle

def str : Reader WireError String := do
  match ofUtf8? (← blob .string) with
  | some s => return s
  | none => throw .invalidUtf8

def bytes : Reader WireError Bytes :=
  blob .bytes

/-- The body of a list. -/
def list : Reader WireError Bytes :=
  blob .list

/-- The body of a map. -/
def map : Reader WireError Bytes :=
  blob .map

/-- The body of an option, if it has one. -/
def option : Reader WireError (Option Bytes) := do
  match ← peek with
  | .optionNone => tag .optionNone; return none
  | _ => return some (← blob .optionSome)

/-- The body of a result, on the side it has. -/
def result : Reader WireError (Except Bytes Bytes) := do
  match ← peek with
  | .resultErr => return .error (← blob .resultErr)
  | _ => return .ok (← blob .resultOk)

/-- The name of a variant and what follows the name in its body. -/
def variant : Reader WireError (String × Bytes) := do
  let body ← blob .variant
  match str body with
  | .ok name rest => return (name, rest)
  | .error e _ => throw e

/-! ## Bodies of lists and maps -/

/-- Takes the next item off a list body and gives its bytes; `none` at the end.  A malformed item
    is an error and stays where it is. -/
def nextItem : Reader WireError (Option Bytes) := fun bs =>
  if bs.isEmpty then .ok none bs
  else
    match item bs with
    | .ok found rest => .ok (some found) rest
    | .error e _ => .error e bs

/-- Takes the next entry off a map body and gives its name and the bytes of its value; `none` at
    the end. -/
def nextEntry : Reader WireError (Option (String × Bytes)) := fun bs =>
  if bs.isEmpty then .ok none bs
  else
    match variant bs with
    | .ok entry rest => .ok (some entry) rest
    | .error e rest => .error e rest

/-! ## What a read takes -/

/-- A sequence of two readers succeeds when the second does on what the first leaves. -/
theorem bind_ok_iff {ε α β : Type} {x : Reader ε α} {f : α → Reader ε β} {bs rest : Bytes} {b : β} :
    (x >>= f) bs = .ok b rest ↔ ∃ a mid, x bs = .ok a mid ∧ f a mid = .ok b rest := by
  simp only [bind, EStateM.bind]
  constructor
  · intro h
    cases hx : x bs with
    | ok a mid => rw [hx] at h; exact ⟨a, mid, rfl, h⟩
    | error e mid => rw [hx] at h; cases h
  · rintro ⟨a, mid, hx, hf⟩
    rw [hx]; exact hf

/-- `pure` reads nothing. -/
theorem pure_ok_iff {ε α : Type} {a b : α} {bs rest : Bytes} :
    (pure a : Reader ε α) bs = .ok b rest ↔ a = b ∧ bs = rest := by
  simp [pure, EStateM.pure]

/-- A reader that throws does not succeed. -/
theorem throw_ne_ok {ε α : Type} {e : ε} {bs rest : Bytes} {a : α} :
    (throw e : Reader ε α) bs ≠ .ok a rest := by
  intro h; cases h

/-- What `take` returns is the front of the input, of the length asked for. -/
theorem take_ok {n : Nat} {bs front rest : Bytes} (h : take n bs = .ok front rest) :
    bs = front ++ rest ∧ front.length = n := by
  simp only [take] at h
  split at h
  · cases h
  · next hn =>
    injection h with h1 h2
    subst h1 h2
    refine ⟨(List.take_append_drop n bs).symm, ?_⟩
    have := List.length_take_le n bs
    omega

/-- A front of the right length is taken off whole. -/
@[simp] theorem take_append (front rest : Bytes) :
    take front.length (front ++ rest) = .ok front rest := by
  simp [take]

/-- A successful peek consumes nothing and saw the first byte's tag. -/
theorem peek_ok {t : Tag} {bs rest : Bytes} (h : peek bs = .ok t rest) :
    rest = bs ∧ ∃ tail, bs = t.byte :: tail := by
  simp only [peek] at h
  split at h
  · cases h
  · split at h
    · next ht =>
      injection h with h1 h2
      subst h1 h2
      exact ⟨rfl, _, by rw [Tag.byte_of_ofByte? ht]⟩
    · cases h

/-- The tag of the first byte is what a peek sees. -/
@[simp] theorem peek_cons (t : Tag) (tail : Bytes) :
    peek (t.byte :: tail) = .ok t (t.byte :: tail) := by
  simp [peek]

/-- Reading a tag consumes exactly its byte. -/
theorem tag_ok {t : Tag} {bs rest : Bytes} (h : tag t bs = .ok () rest) :
    bs = t.byte :: rest := by
  obtain ⟨found, mid, hp, hrest⟩ := bind_ok_iff.mp h
  obtain ⟨rfl, tail, rfl⟩ := peek_ok hp
  split at hrest
  · next hf =>
    subst hf
    simpa [discard, Functor.discard, Functor.mapConst, EStateM.map, take] using hrest
  · cases hrest

/-- A tag is read back from its byte. -/
@[simp] theorem tag_cons (t : Tag) (tail : Bytes) : tag t (t.byte :: tail) = .ok () tail := by
  simp [tag, bind, EStateM.bind, discard, Functor.discard, Functor.mapConst, EStateM.map, take]

/-- A length-prefixed read takes exactly one length-prefixed item. -/
theorem blob_ok {t : Tag} {bs body rest : Bytes} (h : blob t bs = .ok body rest) :
    bs = Wire.blob t body ++ rest ∧ body.length < blobLimit := by
  obtain ⟨_, r1, ht, h1⟩ := bind_ok_iff.mp h
  obtain ⟨n, r2, hn, h2⟩ := bind_ok_iff.mp h1
  obtain ⟨len, r3, hl, h3⟩ := bind_ok_iff.mp hn
  obtain ⟨rfl, rfl⟩ := pure_ok_iff.mp h3
  obtain ⟨rfl, hlen⟩ := take_ok hl
  obtain ⟨rfl, hbody⟩ := take_ok h2
  have hd := Word.digits_value len
  have hlt := Word.value_lt len
  rw [hlen] at hd hlt
  refine ⟨?_, by rw [hbody]; exact hlt⟩
  simp [Wire.blob, tag_ok ht, hbody, hd]

/-- A blob is read back from its encoding, whatever follows. -/
theorem blob_append {t : Tag} {body : Bytes} (rest : Bytes) (h : body.length < blobLimit) :
    blob t (Wire.blob t body ++ rest) = .ok body rest := by
  have hn := take_append (Word.digits 4 body.length) (body ++ rest)
  rw [Word.length_digits] at hn
  have hv : Word.value (Word.digits 4 body.length) = body.length :=
    Word.value_digits h
  simp [blob, number, Wire.blob, bind, EStateM.bind, pure, EStateM.pure, hn, hv]

/-- An item read whole is the front of what was there, and not empty. -/
theorem item_ok {bs found rest : Bytes} (h : item bs = .ok found rest) :
    bs = found ++ rest ∧ found ≠ [] := by
  obtain ⟨t, mid, hp, hhead⟩ := bind_ok_iff.mp h
  obtain ⟨rfl, -⟩ := peek_ok hp
  obtain ⟨head, r1, h1, hrest⟩ := bind_ok_iff.mp hhead
  obtain ⟨h1, hlen⟩ := take_ok h1
  have hne : head ≠ [] := by
    intro hc; simp [hc] at hlen
  cases hw : t.width? with
  | some n =>
    simp only [hw] at hrest
    obtain ⟨payload, r2, h2, hend⟩ := bind_ok_iff.mp hrest
    obtain ⟨rfl, rfl⟩ := pure_ok_iff.mp hend
    obtain ⟨h2, -⟩ := take_ok h2
    exact ⟨by rw [h1, h2, List.append_assoc], by simp [hne]⟩
  | none =>
    simp only [hw] at hrest
    obtain ⟨len, r2, h2, hpayload⟩ := bind_ok_iff.mp hrest
    obtain ⟨payload, r3, h3, hend⟩ := bind_ok_iff.mp hpayload
    obtain ⟨rfl, rfl⟩ := pure_ok_iff.mp hend
    obtain ⟨h2, -⟩ := take_ok h2
    obtain ⟨h3, -⟩ := take_ok h3
    exact ⟨by rw [h1, h2, h3]; simp, by simp [hne]⟩

/-- The only bytes a text is read from are its own encoding. -/
theorem str_ok {s : String} {bs rest : Bytes} (h : str bs = .ok s rest) :
    bs = Wire.blob .string (utf8 s) ++ rest ∧ (utf8 s).length < blobLimit := by
  obtain ⟨body, mid, hb, htext⟩ := bind_ok_iff.mp h
  cases hs : ofUtf8? body with
  | none => simp only [hs] at htext; cases htext
  | some s' =>
    simp only [hs] at htext
    obtain ⟨rfl, rfl⟩ := pure_ok_iff.mp htext
    rw [utf8_of_ofUtf8? hs]
    exact blob_ok hb

/-- A text is read back from its encoding, whatever follows. -/
theorem str_append {s : String} (rest : Bytes) (h : (utf8 s).length < blobLimit) :
    str (Wire.blob .string (utf8 s) ++ rest) = .ok s rest := by
  simp [str, bind, EStateM.bind, blob_append rest h, pure, EStateM.pure]

/-- A variant read takes one variant; its body is its name and what is given back. -/
theorem variant_ok {name : String} {inner bs rest : Bytes}
    (h : variant bs = .ok (name, inner) rest) :
    bs = Wire.blob .variant (Wire.blob .string (utf8 name) ++ inner) ++ rest ∧
      (Wire.blob .string (utf8 name) ++ inner).length < blobLimit := by
  obtain ⟨body, mid, hb, hname⟩ := bind_ok_iff.mp h
  cases hs : str body with
  | error e r => simp only [hs] at hname; cases hname
  | ok s inner' =>
    simp only [hs] at hname
    obtain ⟨h1, rfl⟩ := pure_ok_iff.mp hname
    injection h1 with h3 h4
    subst h3 h4
    obtain ⟨rfl, _⟩ := str_ok hs
    exact blob_ok hb

/-- An item takes at least one byte, so reading items terminates. -/
theorem nextItem_length {bs found rest : Bytes} (h : nextItem bs = .ok (some found) rest) :
    rest.length < bs.length := by
  simp only [nextItem] at h
  split at h
  · injection h with h1; cases h1
  · cases hi : item bs with
    | error e r => simp only [hi] at h; cases h
    | ok i r =>
      simp only [hi] at h
      injection h with h1 h2
      injection h1 with h1
      subst h1 h2
      obtain ⟨h3, h4⟩ := item_ok hi
      rw [h3, List.length_append]
      have := List.length_pos_iff.mpr h4
      omega

/-- An entry takes at least one byte, so reading entries terminates. -/
theorem nextEntry_length {bs rest : Bytes} {entry : String × Bytes}
    (h : nextEntry bs = .ok (some entry) rest) : rest.length < bs.length := by
  simp only [nextEntry] at h
  split at h
  · injection h with h1; cases h1
  · cases hi : variant bs with
    | error e r => simp only [hi] at h; cases h
    | ok i r =>
      simp only [hi] at h
      injection h with h1 h2
      injection h1 with h1
      subst h1 h2
      obtain ⟨h3, _⟩ := variant_ok hi
      rw [h3, List.length_append]
      simp [Wire.blob]

end Reader

end StreamRpc.Wire
