import StreamRpc.Proofs.Wire.Patching
import StreamRpc.Proofs.Wire.Reading

/-! # Calls build trees

A buffer is given calls in any order, legal or not.  It refuses what the builder of trees refuses,
is not changed by what it refuses, and holds the bytes of the finished trees in the end.

* `Buffer.Shows.attempt`   one call
* `Builder.Fits.attempt`   lengths in trees fit their prefixes as long as the calls have room
* `calls_build_trees`      all calls, one after another
-/

namespace StreamRpc.Wire

open Recorder

/-! ## One call -/

/-- A buffer that holds the bytes of what a builder has built. -/
def Buffer.Shows (x : Buffer) (b : Builder) : Prop :=
  ∃ w : Writer, w.Shows b ∧ x = w.flat

/-- The empty buffer shows the empty builder. -/
private theorem Buffer.shows_empty : Buffer.Shows {} {} :=
  ⟨{}, Writer.shows_empty, rfl⟩

/-- A buffer has as many open scopes as the builder it shows. -/
private theorem Buffer.Shows.depth {x : Buffer} {b : Builder} (h : x.Shows b) :
    x.depth = b.opened.length := by
  obtain ⟨w, hw, rfl⟩ := h
  rw [w.depth_flat, hw.depth]

/-- A buffer has the bytes of the trees built, when nothing is open. -/
theorem Buffer.Shows.bytes {x : Buffer} {b : Builder} (h : x.Shows b) :
    x.bytes = if b.opened = [] then .ok (Item.encodeAll b.roots) else .error .scopeStillOpen := by
  obtain ⟨w, hw, rfl⟩ := h
  rw [w.bytes_flat, hw.bytes]

/-- A call comes to the same for a buffer and a builder, leaves them alike, and leaves the buffer
    as it was if it is refused. -/
theorem Buffer.Shows.attempt {x : Buffer} {b : Builder} (h : x.Shows b) {c : Call}
    (room : b.Room c) :
    (attempt x c).1 = (attempt b c).1 ∧ (attempt x c).2.Shows (attempt b c).2 ∧
      ((Recorder.attempt b c).1 ≠ none → (Recorder.attempt x c).2 = x) := by
  obtain ⟨w, hw, rfl⟩ := h
  have hcall := hw.flat_call room
  have hagree := hw.call room
  simp only [Recorder.attempt, hcall]
  -- The writer stands between the two: the buffer lays it out, the builder agrees with it.
  cases hwc : w.call c with
  | ok w' =>
    cases hbc : b.call c with
    | ok b' =>
      rw [hwc, hbc] at hagree
      exact ⟨rfl, ⟨w', hagree, rfl⟩, fun h => absurd rfl h⟩
    | error e => rw [hwc, hbc] at hagree; exact hagree.elim
  | error e =>
    cases hbc : b.call c with
    | ok b' => rw [hwc, hbc] at hagree; exact hagree.elim
    | error e' =>
      rw [hwc, hbc] at hagree
      exact ⟨congrArg some hagree, ⟨w, hw, rfl⟩, fun _ => rfl⟩

/-- A buffer and a builder that get the same calls give the same answers and stay alike. -/
theorem Buffer.alike_after {calls : List Call} (room : Along Builder.Room {} calls) :
    report ({} : Buffer) calls = report ({} : Builder) calls ∧
      (after ({} : Buffer) calls).Shows (after ({} : Builder) calls) := by
  refine report_eq (fun _ _ h => h.depth) (fun _ _ _ h hroom => ?_) Buffer.shows_empty room
  obtain ⟨hanswer, hshows, -⟩ := h.attempt hroom
  exact ⟨hanswer, hshows⟩

/-! ## Lengths -/

namespace Item

/-- A list of items fits when each item does. -/
private theorem allFit_iff {items : List Item} : AllFit items ↔ ∀ i ∈ items, i.Fits := by
  induction items with
  | nil => simp [AllFit]
  | cons i items ih => simp [AllFit, ih]

/-- Two entry lists in a row fit when both do. -/
private theorem entriesFit_append {xs ys : List (String × Item)} :
    EntriesFit (xs ++ ys) ↔ EntriesFit xs ∧ EntriesFit ys := by
  induction xs with
  | nil => simp [EntriesFit]
  | cons x xs ih => obtain ⟨name, item⟩ := x; simp [EntriesFit, ih, and_assoc]

mutual

/-- An item and everything inside of it; the entries of a map are variants. -/
def parts : Item → List Item
  | list items => list items :: partsOfAll items
  | map entries => map entries :: partsOfEntries entries
  | some item => some item :: parts item
  | ok item => ok item :: parts item
  | err item => err item :: parts item
  | variant name item => variant name item :: parts item
  | item => [item]

/-- The parts of each item in turn. -/
def partsOfAll : List Item → List Item
  | [] => []
  | item :: items => parts item ++ partsOfAll items

/-- The parts of each entry in turn. -/
def partsOfEntries : List (String × Item) → List Item
  | [] => []
  | (name, item) :: entries => variant name item :: parts item ++ partsOfEntries entries

end

mutual

/-- The parts of an item that fits fit. -/
private theorem Fits.parts : (item : Item) → item.Fits → ∀ part ∈ item.parts, part.Fits
  -- Of a container all parts are asked, of a leaf only the item itself.
  | list items, fits => by
    simpa [Item.parts, fits] using AllFit.parts items fits.2
  | map entries, fits => by
    simpa [Item.parts, fits] using EntriesFit.parts entries fits.2
  | some item, fits => by simpa [Item.parts, fits] using Fits.parts item fits.2
  | ok item, fits => by simpa [Item.parts, fits] using Fits.parts item fits.2
  | err item, fits => by simpa [Item.parts, fits] using Fits.parts item fits.2
  | variant name item, fits => by simpa [Item.parts, fits] using Fits.parts item fits.2.2
  | unit, fits => by simpa [Item.parts] using fits
  | bool b, fits => by simpa [Item.parts] using fits
  | none, fits => by simpa [Item.parts] using fits
  | u64 n, fits => by simpa [Item.parts] using fits
  | s64 n, fits => by simpa [Item.parts] using fits
  | f64 bits, fits => by simpa [Item.parts] using fits
  | handle n, fits => by simpa [Item.parts] using fits
  | str s, fits => by simpa [Item.parts] using fits
  | bytes b, fits => by simpa [Item.parts] using fits

/-- The parts of items that fit fit. -/
private theorem AllFit.parts :
    (items : List Item) → AllFit items → ∀ part ∈ partsOfAll items, part.Fits
  | [], _ => by simp [partsOfAll]
  | item :: items, fits => by
    simpa [partsOfAll, or_imp, forall_and] using
      ⟨Fits.parts item fits.1, AllFit.parts items fits.2⟩

/-- The parts of entries that fit fit. -/
private theorem EntriesFit.parts : (entries : List (String × Item)) → EntriesFit entries →
    ∀ part ∈ partsOfEntries entries, part.Fits
  | [], _ => by simp [partsOfEntries]
  | (name, item) :: entries, fits => by
    have hvariant : (variant name item).Fits := fits.1
    simpa [partsOfEntries, or_imp, forall_and, hvariant] using
      ⟨Fits.parts item fits.1.2.2, EntriesFit.parts entries fits.2⟩

end

/-- The number in the length prefix of a container. -/
def announced (item : Item) : Nat :=
  Word.value ((item.encode.drop 1).take 4)

/-- The length in front of a blob is the length of its body. -/
private theorem announced_blob {t : Tag} {body : Bytes} (fits : body.length < blobLimit) :
    Word.value (((blob t body).drop 1).take 4) = ((blob t body).drop 5).length := by
  have htake : ((blob t body).drop 1).take 4 = Word.digits 4 body.length := by
    have hlen := Word.length_digits 4 body.length
    simp [blob, hlen]
  have hdrop : (blob t body).drop 5 = body := by
    have hlen := Word.length_digits 4 body.length
    simp [blob, hlen]
  rw [htake, hdrop, Word.value_digits fits]

/-- A length prefix says how many bytes follow it. -/
private theorem Fits.announced {item : Item} (fits : item.Fits)
    (prefixed : item.tag.width? = Option.none) :
    item.announced = (item.encode.drop 5).length := by
  -- An item of fixed width announces nothing.
  cases item with
  | unit => cases prefixed
  | bool b => cases b <;> cases prefixed
  | none => cases prefixed
  | u64 n => cases prefixed
  | s64 n => cases prefixed
  | f64 bits => cases prefixed
  | handle n => cases prefixed
  | str s => exact announced_blob fits
  | bytes b => exact announced_blob fits
  | list items => exact announced_blob fits.1
  | map entries => exact announced_blob fits.1
  | some i => exact announced_blob fits.1
  | ok i => exact announced_blob fits.1
  | err i => exact announced_blob fits.1
  | variant name i => exact announced_blob fits.2.1

end Item

/-- Every length prefix in what the container holds can say the length it has to. -/
def Sapling.Fits : Sapling → Prop
  | list items => Item.AllFit items
  | map entries => Item.EntriesFit entries
  | some item => ∀ i ∈ item, i.Fits
  | ok item => ∀ i ∈ item, i.Fits
  | err item => ∀ i ∈ item, i.Fits
  | variant name item => (utf8 name).length < blobLimit ∧ ∀ i ∈ item, i.Fits

/-- An item that fits may be added to a sapling that fits. -/
private theorem Sapling.Fits.add {s : Sapling} (h : s.Fits) {item : Item} (fits : item.Fits) :
    (s.add item).Fits := by
  -- A map ignores what is no entry, and so nothing that fits is lost.
  cases s with
  | list items =>
    have hitems := Item.allFit_iff.1 h
    refine Item.allFit_iff.2 fun i hi => ?_
    rcases List.mem_append.1 hi with hi | hi
    · exact hitems i hi
    · rwa [List.mem_singleton.1 hi]
  | map entries =>
    cases item with
    | variant name value => exact Item.entriesFit_append.2 ⟨h, fits, trivial⟩
    | _ => exact h
  | some content => simpa [Sapling.add, Sapling.Fits] using fits
  | ok content => simpa [Sapling.add, Sapling.Fits] using fits
  | err content => simpa [Sapling.add, Sapling.Fits] using fits
  | variant name content => simpa [Sapling.add, Sapling.Fits, h.1] using fits

/-- A sapling that fits and has room finishes as an item that fits. -/
private theorem Sapling.Fits.finish? {s : Sapling} (h : s.Fits) (room : s.body.length < blobLimit)
    {item : Item} (done : s.finish? = Option.some item) : item.Fits := by
  -- The room for the body is what the length in front has to hold.
  cases s with
  | list items => cases done; exact ⟨room, h⟩
  | map entries => cases done; exact ⟨room, h⟩
  | some content =>
    obtain ⟨i, rfl, rfl⟩ := Option.map_eq_some_iff.1 done
    exact ⟨room, h i rfl⟩
  | ok content =>
    obtain ⟨i, rfl, rfl⟩ := Option.map_eq_some_iff.1 done
    exact ⟨room, h i rfl⟩
  | err content =>
    obtain ⟨i, rfl, rfl⟩ := Option.map_eq_some_iff.1 done
    exact ⟨room, h i rfl⟩
  | variant name content =>
    obtain ⟨i, rfl, rfl⟩ := Option.map_eq_some_iff.1 done
    exact ⟨h.1, room, h.2 i rfl⟩

/-- So it is for everything that has been built. -/
structure Builder.Fits (b : Builder) : Prop where
  roots : Item.AllFit b.roots
  opened : ∀ s ∈ b.opened, s.Fits

/-- The empty builder fits. -/
private theorem Builder.fits_empty : Builder.Fits {} :=
  ⟨trivial, by simp⟩

/-- An item that fits may be added to a builder that fits. -/
private theorem Builder.Fits.add {b : Builder} (h : b.Fits) {item : Item} (fits : item.Fits) :
    (b.add item).Fits := by
  obtain ⟨roots, opened⟩ := b
  -- An item goes to the container on top, or to the roots if none is open.
  cases opened with
  | nil =>
    refine ⟨Item.allFit_iff.2 fun i hi => ?_, h.opened⟩
    rcases List.mem_append.1 hi with hi | hi
    · exact Item.allFit_iff.1 h.roots i hi
    · rwa [List.mem_singleton.1 hi]
  | cons s opened =>
    refine ⟨h.roots, fun s' hs' => ?_⟩
    rcases List.mem_cons.1 hs' with rfl | hs'
    · exact (h.opened s (List.mem_cons_self ..)).add fits
    · exact h.opened s' (List.mem_cons_of_mem _ hs')

/-- A call for which there is room keeps a builder fitting. -/
private theorem Builder.Fits.call {b b' : Builder} (h : b.Fits) {c : Call} (room : b.Room c)
    (done : b.call c = .ok b') : b'.Fits := by
  cases c with
  | leaf l =>
    have hitem : l.item.Fits := by cases l <;> exact room
    simp only [Builder.call, Builder.leaf] at done
    split at done
    · cases done
    · cases done
      exact h.add hitem
  | opens o =>
    -- What has been opened is empty, and its name fits if it has one.
    have hempty : o.sapling.Fits := by
      cases o with
      | variant name => exact ⟨room, nofun⟩
      | list => trivial
      | map => trivial
      | some => exact nofun
      | ok => exact nofun
      | err => exact nofun
    simp only [Builder.call, Builder.opens] at done
    split at done
    · cases done
    · cases done
      refine ⟨h.roots, fun s hs => ?_⟩
      rcases List.mem_cons.1 hs with rfl | hs
      · exact hempty
      · exact h.opened s hs
  | closes c =>
    obtain ⟨roots, opened⟩ := b
    cases opened with
    | nil => cases done
    | cons s opened =>
      have hbody : s.body.length < blobLimit := room s rfl
      have hs : s.Fits := h.opened s (List.mem_cons_self ..)
      -- The item is finished before it is put into what is around it.
      have hrest : Builder.Fits { roots, opened } :=
        ⟨h.roots, fun s' hs' => h.opened s' (List.mem_cons_of_mem _ hs')⟩
      simp only [Builder.call, Builder.closes] at done
      split at done
      · cases done
      split at done
      · cases done
      · next item hitem =>
        cases done
        exact hrest.add (hs.finish? hbody hitem)

/-- Calls for which there is room keep a builder fitting. -/
private theorem Builder.Fits.after {b : Builder} (h : b.Fits) {calls : List Call}
    (room : Along Builder.Room b calls) : (after b calls).Fits := by
  induction calls generalizing b with
  | nil => exact h
  | cons c calls ih =>
    refine ih ?_ room.2
    simp only [attempt]
    cases hcall : b.call c with
    | ok b' => exact h.call room.1 hcall
    | error e => exact h

/-! ## All calls -/

/-- Calls one after another, in any order, come to the same for a buffer and for a builder of trees:
    the same ones are refused, and as many containers are open after each.  A refused call leaves
    the buffer as it was.  Once no container is open the buffer gives the bytes of the finished
    trees, in which every length prefix is right. -/
theorem calls_build_trees (calls : List Call) (room : Along Builder.Room {} calls) :
    report ({} : Buffer) calls = report ({} : Builder) calls ∧
    (∀ pre c post, calls = pre ++ c :: post →
      (attempt (after ({} : Builder) pre) c).1 ≠ none →
      after ({} : Buffer) (pre ++ [c]) = after ({} : Buffer) pre) ∧
    (after ({} : Buffer) calls).bytes =
      (if (after ({} : Builder) calls).opened = [] then
        .ok (Item.encodeAll (after ({} : Builder) calls).roots)
      else .error .scopeStillOpen) ∧
    ∀ tree ∈ (after ({} : Builder) calls).roots, ∀ part ∈ tree.parts,
      part.tag.width? = none → part.announced = (part.encode.drop 5).length := by
  obtain ⟨hreport, halike⟩ := Buffer.alike_after room
  refine ⟨hreport, ?_, halike.bytes, ?_⟩
  · rintro pre c post rfl refused
    -- The two are alike before the call, so the buffer refuses what the builder does.
    obtain ⟨hpre, hroom, -⟩ := along_append.1 room
    rw [after_append]
    exact ((Buffer.alike_after hpre).2.attempt hroom).2.2 refused
  · intro tree htree part hpart prefixed
    have hfits : (after ({} : Builder) calls).Fits := Builder.fits_empty.after room
    have htreeFits := Item.allFit_iff.1 hfits.roots tree htree
    exact (Item.Fits.parts tree htreeFits part hpart).announced prefixed

/-- A map with one entry, in the middle of calls that are refused. -/
def clumsyCalls : List Call :=
  [.opens .map, .leaf (.u64 7), .opens (.variant "k"), .closes .variant, .leaf (.bool true),
    .leaf .unit, .closes .map, .closes .variant, .closes .map, .closes .list, .leaf .none]

/-- A sequence with six refused calls leaves the bytes of the calls accepted. -/
theorem clumsyCalls_build_trees :
    Along Builder.Room {} clumsyCalls ∧
    report ({} : Buffer) clumsyCalls =
      [(none, 1), (some .invalidMapEntry, 1), (none, 2), (some (.emptyScope .variant), 2),
        (none, 2), (some (.tooManyItems .variant), 2), (some (.scopeMismatch .map .variant), 2),
        (none, 1), (none, 0), (some .scopeUnderflow, 0), (none, 0)] ∧
    (after ({} : Buffer) clumsyCalls).bytes =
      .ok (Item.encodeAll [.map [("k", .bool true)], .none]) := by
  -- The bytes are computed from the trees, not from the buffer the calls patched.
  have room : Along Builder.Room {} clumsyCalls := by decide +kernel
  obtain ⟨hreport, -, hbytes, -⟩ := calls_build_trees clumsyCalls room
  refine ⟨room, hreport.trans ?_, hbytes.trans ?_⟩
  · decide +kernel
  · rfl

end StreamRpc.Wire
