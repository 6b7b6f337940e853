import Mathlib.Data.Nat.Find
import StreamRpc.Proofs.Wire.Delimiting
import StreamRpc.Proofs.Wire.Skipping

/-! # Going through the body of a list

The items of a list body are taken off its front by one call after another, each on what the call
before it left.  Whatever the bytes are, the items and what is unread make up the body, and the
calls come to a point from which on they all come to the same: to the end, when nothing is unread,
or to an error, which leaves the bytes it is about where they are.

* `Reader.unread`, `Reader.answer`, `Reader.yielded`
                                 calls of a read, one after another
* `Reader.itemCall`              what one call on a list body does
* `Reader.yielded_append_unread` the items so far and what is unread are the body
* `Reader.items_partition_body`  all calls on a list body
* `Decoder.items_reaches_end`    a list that has been read was gone through to its end
-/

namespace StreamRpc

open Wire (Bytes Reader WireError)

namespace Wire.Reader

variable {ε α : Type}

/-! ## Calls one after another -/

/-- What came of a read, whatever it left. -/
def outcome : EStateM.Result ε Bytes α → Except ε α
  | .ok a _ => .ok a
  | .error e _ => .error e

/-- What is unread after so many calls, each on what the call before it left. -/
def unread (next : Reader ε α) (bs : Bytes) : Nat → Bytes
  | 0 => bs
  | n + 1 => left (next (unread next bs n))

/-- What the call after so many others comes to. -/
def answer (next : Reader ε α) (bs : Bytes) (n : Nat) : Except ε α :=
  outcome (next (unread next bs n))

/-- What so many calls have yielded.  One that comes to the end or to an error yields nothing. -/
def yielded (next : Reader ε (Option α)) (bs : Bytes) (n : Nat) : List α :=
  (List.range n).filterMap fun m => (answer next bs m).toOption.join

/-- From this call on, all come to the same and leave the same. -/
def Settled (next : Reader ε α) (bs : Bytes) (n : Nat) : Prop :=
  ∀ m, n ≤ m → answer next bs m = answer next bs n ∧ unread next bs m = unread next bs n

/-- A call that takes nothing is made again and again. -/
private theorem settled_of_stays {next : Reader ε α} {bs : Bytes} {n : Nat}
    (stays : unread next bs (n + 1) = unread next bs n) : Settled next bs n := by
  intro m hm
  have hunread : unread next bs m = unread next bs n := by
    -- On the calls made since: each finds what this one found.
    induction hm with
    | refl => rfl
    | step _ ih => rw [unread, ih]; exact stays
  exact ⟨by rw [answer, hunread, answer], hunread⟩

section

variable {next : Reader ε (Option α)} {bs : Bytes} {n : Nat} {a : α}

/-- An answer that is an item is yielded. -/
private theorem yielded_succ_of_item (h : answer next bs n = .ok (some a)) :
    yielded next bs (n + 1) = yielded next bs n ++ [a] := by
  simp [yielded, List.range_succ, List.filterMap_append, h, Except.toOption]

/-- An answer that is no item adds nothing to what was yielded. -/
private theorem yielded_succ_of_not_item (h : ∀ a, answer next bs n ≠ .ok (some a)) :
    yielded next bs (n + 1) = yielded next bs n := by
  have hnone : (answer next bs n).toOption.join = none := by
    match hanswer : answer next bs n with
    | .error _ => rfl
    | .ok none => rfl
    | .ok (some a) => exact absurd hanswer (h a)
  simp [yielded, List.range_succ, List.filterMap_append, hnone]

end

/-! The calls after the first are calls on what the first has left. -/

section

variable {bs rest : Bytes}

/-- After the first item the iteration goes on from what that leaves. -/
private theorem unread_after {next : Reader ε α} {a : α} (h : next bs = .ok a rest) (n : Nat) :
    unread next bs (n + 1) = unread next rest n := by
  induction n with
  | zero => exact congrArg left h
  | succ n ih => rw [unread, ih, unread]

/-- The answers after the first item are those of the iteration from what it leaves. -/
private theorem answer_after {next : Reader ε α} {a : α} (h : next bs = .ok a rest) (n : Nat) :
    answer next bs (n + 1) = answer next rest n := by
  rw [answer, unread_after h, answer]

/-- The first item is yielded first, and then the others. -/
private theorem yielded_after {next : Reader ε (Option α)} {a : α} (h : next bs = .ok (some a) rest)
    (n : Nat) : yielded next bs (n + 1) = a :: yielded next rest n := by
  have hfirst : (answer next bs 0).toOption.join = some a :=
    congrArg (fun r => (outcome r).toOption.join) h
  simp only [yielded, List.range_succ_eq_map, List.filterMap_cons, hfirst, List.filterMap_map,
    Function.comp_def, Nat.succ_eq_add_one, answer_after h]

end

/-! ## One call on a list body -/

/-- An item that was taken whole is what skipping passes over, where it stands and on its own. -/
private theorem skip_item {bs slice rest : Bytes} (h : item bs = .ok slice rest) :
    skip bs = .ok () rest ∧ skip slice = .ok () [] := by
  obtain ⟨hbs, -⟩ := item_ok h
  obtain ⟨taken, htaken, hd⟩ := framed_item h
  obtain rfl : taken = slice := List.append_cancel_right (htaken.symm.trans hbs)
  have halone := skip_of_item (hd.whole [])
  rw [List.append_nil] at halone
  exact ⟨skip_of_item h, halone⟩

/-- What one call on a list body does. -/
inductive ItemCall (bs : Bytes) : Prop
  | atEnd (empty : bs = []) (call : nextItem bs = .ok none bs)
  | item (slice rest : Bytes) (parts : bs = slice ++ rest) (nonempty : slice ≠ [])
      (alone : skip slice = .ok () []) (inPlace : skip bs = .ok () rest)
      (call : nextItem bs = .ok (some slice) rest)
  | malformed (e : WireError) (rest : Bytes) (nonempty : bs ≠ [])
      (skipped : skip bs = .error e rest) (call : nextItem bs = .error e bs)

/-- One call for the next item returns an item, the end or an error. -/
theorem itemCall (bs : Bytes) : ItemCall bs := by
  by_cases hbs : bs = []
  · subst hbs
    exact .atEnd rfl rfl
  · have hne : bs.isEmpty = false := List.isEmpty_eq_false_iff.2 hbs
    -- Looking ahead comes to `item`; where it fails, what it has taken is forgotten.
    cases h : item bs with
    | ok slice rest =>
      have hcall : nextItem bs = .ok (some slice) rest := by
        simp only [nextItem, hne, h, Bool.false_eq_true, if_false]
      obtain ⟨hparts, hslice⟩ := item_ok h
      obtain ⟨hplace, halone⟩ := skip_item h
      exact .item slice rest hparts hslice halone hplace hcall
    | error e rest =>
      have hcall : nextItem bs = .error e bs := by
        simp only [nextItem, hne, h, Bool.false_eq_true, if_false]
      exact .malformed e rest hbs (bind_of_error h) hcall

section

variable (body : Bytes) (n : Nat)

/-- An item is passed over by one skip, and this is what takes it off the unread bytes. -/
private theorem answer_item {slice : Bytes} (h : answer nextItem body n = .ok (some slice)) :
    slice ≠ [] ∧ skip slice = .ok () [] ∧
      skip (unread nextItem body n) = .ok () (unread nextItem body (n + 1)) ∧
      unread nextItem body n = slice ++ unread nextItem body (n + 1) := by
  rw [answer] at h
  rw [unread]
  -- The same call is behind both: what is answered and what is left unread.
  cases itemCall (unread nextItem body n) with
  | atEnd _ call => rw [call] at h; cases h
  | item slice' rest parts nonempty alone inPlace call =>
    rw [call] at h ⊢
    cases h
    exact ⟨nonempty, alone, inPlace, parts⟩
  | malformed e rest _ _ call => rw [call] at h; cases h

/-- The iteration answers the end exactly when nothing is unread. -/
private theorem answer_end_iff :
    answer nextItem body n = .ok none ↔ unread nextItem body n = [] := by
  rw [answer]
  cases itemCall (unread nextItem body n) with
  | atEnd empty call => rw [call]; exact iff_of_true rfl empty
  | item slice rest parts nonempty _ _ call =>
    rw [call, parts]
    exact iff_of_false nofun fun h => nonempty (List.append_eq_nil_iff.1 h).1
  | malformed e rest nonempty _ call => rw [call]; exact iff_of_false nofun nonempty

/-- An error is that of the skip, which is not tried at the end. -/
private theorem answer_error_iff {e : WireError} :
    answer nextItem body n = .error e ↔
      unread nextItem body n ≠ [] ∧ ∃ rest, skip (unread nextItem body n) = .error e rest := by
  rw [answer]
  -- One call ends, yields an item or fails; only the last leaves an error.
  cases itemCall (unread nextItem body n) with
  | atEnd empty call => rw [call]; exact iff_of_false nofun fun h => h.1 empty
  | item slice rest _ _ _ inPlace call =>
    rw [call, inPlace]
    exact iff_of_false nofun fun ⟨_, _, h⟩ => nomatch h
  | malformed e' rest nonempty skipped call =>
    rw [call, skipped]
    constructor
    · intro h
      cases h
      exact ⟨nonempty, rest, rfl⟩
    · rintro ⟨-, _, h⟩
      cases h
      rfl

/-- A call that yields nothing takes nothing. -/
private theorem settled_of_not_item (h : ∀ slice, answer nextItem body n ≠ .ok (some slice)) :
    Settled nextItem body n := by
  refine settled_of_stays ?_
  rw [unread]
  cases itemCall (unread nextItem body n) with
  | atEnd _ call => rw [call]; rfl
  | item slice rest _ _ _ _ call => exact absurd (congrArg outcome call) (h slice)
  | malformed e rest _ _ call => rw [call]; rfl

/-! ## All calls on a list body -/

/-- Nothing is lost between the items, and none of the bytes is in two of them. -/
theorem yielded_append_unread :
    (yielded nextItem body n).flatten ++ unread nextItem body n = body := by
  induction n with
  | zero => rfl
  | succ n ih =>
    -- A call moves its item from what is unread to what is yielded, or moves nothing.
    by_cases hitem : ∃ slice, answer nextItem body n = .ok (some slice)
    · obtain ⟨slice, hslice⟩ := hitem
      obtain ⟨-, -, -, hparts⟩ := answer_item body n hslice
      calc (yielded nextItem body (n + 1)).flatten ++ unread nextItem body (n + 1)
          = (yielded nextItem body n).flatten ++ (slice ++ unread nextItem body (n + 1)) := by
            simp [yielded_succ_of_item hslice]
        _ = body := by rw [← hparts, ih]
    · have hnone := not_exists.1 hitem
      obtain ⟨-, hstays⟩ := settled_of_not_item body n hnone (n + 1) (Nat.le_succ n)
      rw [yielded_succ_of_not_item hnone, hstays, ih]

/-- Nothing is unread exactly when the items yielded make up the body. -/
private theorem unread_eq_nil_iff :
    unread nextItem body n = [] ↔ (yielded nextItem body n).flatten = body := by
  have hparts := yielded_append_unread body n
  constructor
  · intro hnil
    rwa [hnil, List.append_nil] at hparts
  · intro hall
    rw [hall] at hparts
    exact List.append_right_eq_self.1 hparts

/-- Every item takes at least one of the bytes. -/
private theorem add_length_unread_le
    (h : ∀ m < n, ∃ slice, answer nextItem body m = .ok (some slice)) :
    n + (unread nextItem body n).length ≤ body.length := by
  induction n with
  | zero => simp [unread]
  | succ n ih =>
    obtain ⟨slice, hslice⟩ := h n (Nat.lt_succ_self n)
    obtain ⟨hne, -, -, hparts⟩ := answer_item body n hslice
    -- Every item takes a byte at least.
    have hpos := List.length_pos_iff.2 hne
    have hlen := ih fun m hm => h m (Nat.lt_succ_of_lt hm)
    rw [hparts, List.length_append] at hlen
    omega

end

/-- There are no more items than bytes. -/
private theorem exists_last_item (body : Bytes) :
    ∃ n ≤ body.length, (∀ m < n, ∃ slice, answer nextItem body m = .ok (some slice)) ∧
      ∀ slice, answer nextItem body n ≠ .ok (some slice) := by
  classical
  -- If all calls yielded items, those of one call more than there are bytes would not fit.
  have hstops : ∃ n, ¬ ∃ slice, answer nextItem body n = .ok (some slice) := by
    by_contra hgoes
    have hlen := add_length_unread_le body (body.length + 1) fun m _ =>
      not_not.1 (not_exists.1 hgoes m)
    omega
  have hitems : ∀ m < Nat.find hstops, ∃ slice, answer nextItem body m = .ok (some slice) :=
    fun m hm => not_not.1 (Nat.find_min hstops hm)
  have hlen := add_length_unread_le body _ hitems
  exact ⟨Nat.find hstops, by omega, hitems, not_exists.1 (Nat.find_spec hstops)⟩

/-- Calls on a list body, one after another, yield items that are not empty and that one skip passes
    over, and at any time the items so far and what is unread are the whole body.  There are at most
    as many items as bytes.  The call after the last item comes to the end, if every byte has been
    yielded, and else to the error of the skip that fails there.  Whichever it is, that call leaves
    what is unread as it is, and so do all calls after it, which come to the same. -/
theorem items_partition_body (body : Bytes) :
    (∀ n slice, answer nextItem body n = .ok (some slice) →
      slice ≠ [] ∧ skip slice = .ok () [] ∧
        skip (unread nextItem body n) = .ok () (unread nextItem body (n + 1))) ∧
    (∀ n, (yielded nextItem body n).flatten ++ unread nextItem body n = body) ∧
    (∀ n, answer nextItem body n = .ok none ↔ (yielded nextItem body n).flatten = body) ∧
    (∀ n e, answer nextItem body n = .error e ↔
      unread nextItem body n ≠ [] ∧ ∃ rest, skip (unread nextItem body n) = .error e rest) ∧
    (∀ n e, answer nextItem body n = .error e → Settled nextItem body n) ∧
    ∃ n ≤ body.length, (∀ m < n, ∃ slice, answer nextItem body m = .ok (some slice)) ∧
      (answer nextItem body n = .ok none ∨ ∃ e, answer nextItem body n = .error e) ∧
      Settled nextItem body n := by
  refine ⟨fun n slice h => ?_, yielded_append_unread body, fun n => ?_,
    fun n e => answer_error_iff body n, fun n e h => ?_, ?_⟩
  · obtain ⟨hne, halone, hplace, -⟩ := answer_item body n h
    exact ⟨hne, halone, hplace⟩
  · exact (answer_end_iff body n).trans (unread_eq_nil_iff body n)
  · exact settled_of_not_item body n fun slice hslice => nomatch h.symm.trans hslice
  -- Every item takes at least one byte, so there are at most as many as bytes.
  · obtain ⟨n, hn, hitems, hlast⟩ := exists_last_item body
    refine ⟨n, hn, hitems, ?_, settled_of_not_item body n hlast⟩
    match h : answer nextItem body n with
    | .error e => exact .inr ⟨e, rfl⟩
    | .ok none => exact .inl rfl
    | .ok (some slice) => exact absurd h (hlast slice)

/-- Two items, and then a length that says more than there is. -/
example :
    yielded nextItem [0x01, 0x10, 1, 0, 0, 0, 0x61, 0x11, 9, 0, 0, 0] 5 =
      [[0x01], [0x10, 1, 0, 0, 0, 0x61]] ∧
    answer nextItem [0x01, 0x10, 1, 0, 0, 0, 0x61, 0x11, 9, 0, 0, 0] 4 = .error .unexpectedEnd ∧
    unread nextItem [0x01, 0x10, 1, 0, 0, 0, 0x61, 0x11, 9, 0, 0, 0] 5 = [0x11, 9, 0, 0, 0] :=
  ⟨rfl, rfl, rfl⟩

/-- The entries of a map are not like this: one without a name is an error that takes the entry, and
    the call after it yields the next. -/
example :
    answer nextEntry [0x33, 0, 0, 0, 0, 0x33, 5, 0, 0, 0, 0x10, 0, 0, 0, 0] 0 =
      .error .unexpectedEnd ∧
    answer nextEntry [0x33, 0, 0, 0, 0, 0x33, 5, 0, 0, 0, 0x10, 0, 0, 0, 0] 1 =
      .ok (some ("", [])) :=
  ⟨rfl, rfl⟩

end Wire.Reader

namespace Decoder

open Wire.Reader (answer answer_after nextItem outcome yielded yielded_after)

/-- Reading a list reads those items, one after another, that its body is cut into, and succeeds
    only if the calls come to the end of the body. -/
theorem items_reaches_end {α : Type} {d : Decoder α} {body : Bytes} {as : List α}
    (h : d.items body = .ok as) :
    answer nextItem body as.length = .ok none ∧
      (yielded nextItem body as.length).mapM d.run = .ok as := by
  -- The decoder and the iterator go through the same slices.
  induction as generalizing body with
  | nil =>
    rw [items] at h
    split at h
    · cases h
    · next hnext => exact ⟨congrArg outcome hnext, rfl⟩
    · split at h
      · cases h
      · split at h <;> cases h
  | cons a as ih =>
    rw [items] at h
    split at h
    · cases h
    · cases h
    · next slice rest hnext =>
      split at h
      · cases h
      · next a' ha =>
        split at h
        · cases h
        · next as' has =>
          cases h
          -- The first slice is answered first; from then on it is a walk through the rest.
          obtain ⟨hend, hread⟩ := ih has
          refine ⟨(answer_after hnext _).trans hend, ?_⟩
          rw [List.length_cons, yielded_after hnext, List.mapM_cons, ha, hread]
          rfl

end Decoder

end StreamRpc
