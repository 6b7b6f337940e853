import StreamRpc.Proofs.Wire.Refinement

/-! # The calls that write an item

`Item.calls` are the calls meant for an item: one for an item that holds no others, and for a
container one that opens it, those for what is inside, and one that closes it.

* `Builder.Takes.enclosed`   a container is opened, filled and closed
* `Item.Fits.takes`          the calls for an item are all accepted, and add the item
* `Item.AllFit.written`      so a buffer gets the bytes of items next to each other
-/

namespace StreamRpc.Wire

open Recorder

namespace Item

mutual

/-- The calls that write an item. -/
def calls : Item → List Call
  | unit => [.leaf .unit]
  | bool b => [.leaf (.bool b)]
  | none => [.leaf .none]
  | u64 n => [.leaf (.u64 n)]
  | s64 n => [.leaf (.s64 n)]
  | f64 bits => [.leaf (.f64 bits)]
  | handle n => [.leaf (.handle n)]
  | str s => [.leaf (.str s)]
  | bytes b => [.leaf (.bytes b)]
  | list items => .opens .list :: (callsOfAll items ++ [.closes .list])
  | map entries => .opens .map :: (callsOfEntries entries ++ [.closes .map])
  | some item => .opens .some :: (calls item ++ [.closes .some])
  | ok item => .opens .ok :: (calls item ++ [.closes .result])
  | err item => .opens .err :: (calls item ++ [.closes .result])
  | variant name item => .opens (.variant name) :: (calls item ++ [.closes .variant])

/-- The calls that write items next to each other. -/
def callsOfAll : List Item → List Call
  | [] => []
  | item :: items => calls item ++ callsOfAll items

/-- The calls that write entries next to each other. -/
def callsOfEntries : List (String × Item) → List Call
  | [] => []
  | (name, item) :: entries =>
    .opens (.variant name) :: (calls item ++ [.closes .variant]) ++ callsOfEntries entries

end

end Item

namespace Builder

/-- The calls all have room, are all accepted, and lead to the second builder. -/
inductive Takes : Builder → List Call → Builder → Prop where
  | nil (b : Builder) : Takes b [] b
  | cons {b b₁ b₂ : Builder} {c : Call} {calls : List Call} (room : b.Room c)
      (accepted : b.call c = .ok b₁) (rest : Takes b₁ calls b₂) : Takes b (c :: calls) b₂

/-- A call that is accepted is a run of one call. -/
private theorem Takes.one {b b' : Builder} {c : Call} (room : b.Room c)
    (accepted : b.call c = .ok b') :
    Takes b [c] b' :=
  .cons room accepted (.nil b')

/-- Two runs of calls in a row are one run. -/
theorem Takes.trans {b b₁ b₂ : Builder} {calls more : List Call} (h₁ : Takes b calls b₁)
    (h₂ : Takes b₁ more b₂) : Takes b (calls ++ more) b₂ := by
  induction h₁ with
  | nil b => exact h₂
  | cons room accepted rest ih => exact .cons room accepted (ih h₂)

/-- What it means for the calls as a whole. -/
private theorem Takes.report {b b' : Builder} {calls : List Call} (h : Takes b calls b') :
    Along Room b calls ∧ (∀ r ∈ report b calls, r.1 = none) ∧ after b calls = b' := by
  induction h with
  | nil b => exact ⟨trivial, nofun, rfl⟩
  | @cons b b₁ b₂ c calls room accepted rest ih =>
    have hattempt : attempt b c = (none, b₁) := by simp only [attempt, accepted]
    obtain ⟨hroom, hreport, hafter⟩ := ih
    simp only [Along, Recorder.report, after_cons, hattempt, List.forall_mem_cons]
    exact ⟨⟨room, hroom⟩, ⟨trivial, hreport⟩, hafter⟩

/-- A leaf is taken in one call wherever it is not refused. -/
private theorem takes_leaf {b : Builder} {l : Leaf} (room : b.Room (.leaf l))
    (free : b.refuses false = none) :
    b.Takes [.leaf l] (b.add l.item) :=
  .one room (by simp only [call, leaf, free])

/-- A container is opened, filled and closed. -/
theorem Takes.enclosed {b : Builder} {o : Opening} {c : Closing} {calls : List Call} {s : Sapling}
    {item : Item} (room : b.Room (.opens o)) (free : b.refuses (o.scope = .variant) = none)
    (inner : Takes { b with opened := o.sapling :: b.opened } calls
      { b with opened := s :: b.opened })
    (body : s.body.length < blobLimit) (scope : s.scope = c.scope)
    (done : s.finish? = some item) : b.Takes (.opens o :: (calls ++ [.closes c])) (b.add item) := by
  have hopen : b.call (.opens o) = .ok { b with opened := o.sapling :: b.opened } := by
    simp only [call, opens, free]
  have hclose : call { b with opened := s :: b.opened } (.closes c) = .ok (b.add item) := by
    simp only [call, closes, scope, ne_eq, not_true, if_false, done]
  -- The closing call needs room for the body, which is that of the sapling on top.
  have hroom : Room { b with opened := s :: b.opened } (.closes c) := by
    intro s' hs'
    cases hs'
    exact body
  exact .cons room hopen (inner.trans (.one hroom hclose))

/-- Any items may stand here: in a list, or outside of all containers. -/
def Loose (b : Builder) : Prop :=
  ∀ s ∈ b.opened.head?, s.scope = .list

/-- A loose builder refuses nothing. -/
private theorem Loose.refuses {b : Builder} (h : b.Loose) (isVariant : Bool) :
    b.refuses isVariant = none := by
  obtain ⟨roots, opened⟩ := b
  cases opened with
  | nil => rfl
  | cons s opened =>
    have hs : s.scope = .list := h s rfl
    cases s with
    | list items => rfl
    | _ => cases hs

/-- A loose builder is loose after an item. -/
private theorem Loose.add {b : Builder} (h : b.Loose) (item : Item) : (b.add item).Loose := by
  obtain ⟨roots, opened⟩ := b
  cases opened with
  | nil => exact h
  | cons s opened =>
    intro s' hs'
    cases hs'
    rw [Sapling.scope_add]
    exact h s rfl

/-- Items added to an open list go to its end. -/
private theorem foldl_add_list (items xs roots : List Item) (opened : List Sapling) :
    items.foldl add { roots, opened := .list xs :: opened } =
      { roots, opened := .list (xs ++ items) :: opened } := by
  induction items generalizing xs with
  | nil => simp
  | cons item items ih =>
    have hadd : add { roots, opened := .list xs :: opened } item =
        { roots, opened := .list (xs ++ [item]) :: opened } := rfl
    rw [List.foldl_cons, hadd, ih, List.append_assoc, List.singleton_append]

/-- Items added outside every scope are roots. -/
private theorem foldl_add_root (items roots : List Item) :
    items.foldl add { roots } = { roots := roots ++ items } := by
  induction items generalizing roots with
  | nil => simp
  | cons item items ih =>
    have hadd : add { roots } item = { roots := roots ++ [item] } := rfl
    rw [List.foldl_cons, hadd, ih, List.append_assoc, List.singleton_append]

end Builder

namespace Item

mutual

/-- The calls for an item are all accepted where the item is, and add it. -/
theorem Fits.takes : (item : Item) → item.Fits → ∀ b : Builder,
    b.refuses (item.tag = .variant) = Option.none → b.Takes item.calls (b.add item)
  | unit, _, _, free => Builder.takes_leaf trivial free
  | bool true, _, _, free => Builder.takes_leaf trivial free
  | bool false, _, _, free => Builder.takes_leaf trivial free
  | none, _, _, free => Builder.takes_leaf trivial free
  | u64 _, _, _, free => Builder.takes_leaf trivial free
  | s64 _, _, _, free => Builder.takes_leaf trivial free
  | f64 _, _, _, free => Builder.takes_leaf trivial free
  | handle _, _, _, free => Builder.takes_leaf trivial free
  | str _, fits, _, free => Builder.takes_leaf fits free
  | bytes _, fits, _, free => Builder.takes_leaf fits free
  -- The recursion is on the item: a container is opened, its content written inside, and closed.
  | list items, fits, b, free => by
    have hinner := AllFit.takes items fits.2 { b with opened := .list [] :: b.opened } (by
      intro s hs
      cases hs
      rfl)
    -- The items are added to the list that was opened, in their order.
    rw [Builder.foldl_add_list] at hinner
    exact .enclosed trivial free hinner fits.1 rfl rfl
  | map entries, fits, b, free =>
    .enclosed trivial free (EntriesFit.takes entries fits.2 [] b.roots b.opened) fits.1 rfl rfl
  | some item, fits, b, free =>
    .enclosed trivial free (Fits.takes item fits.2 { b with opened := .some .none :: b.opened } rfl)
      fits.1 rfl rfl
  | ok item, fits, b, free =>
    .enclosed trivial free (Fits.takes item fits.2 { b with opened := .ok .none :: b.opened } rfl)
      fits.1 rfl rfl
  | err item, fits, b, free =>
    .enclosed trivial free (Fits.takes item fits.2 { b with opened := .err .none :: b.opened } rfl)
      fits.1 rfl rfl
  | variant name item, fits, b, free =>
    .enclosed fits.1 free
      (Fits.takes item fits.2.2 { b with opened := .variant name .none :: b.opened } rfl)
      fits.2.1 rfl rfl

/-- Items that fit are built by their calls, one after the other. -/
private theorem AllFit.takes : (items : List Item) → AllFit items → ∀ b : Builder, b.Loose →
    b.Takes (callsOfAll items) (items.foldl Builder.add b)
  | [], _, b, _ => .nil b
  | item :: items, fits, b, loose =>
    .trans (Fits.takes item fits.1 b (loose.refuses _))
      (AllFit.takes items fits.2 (b.add item) (loose.add item))

/-- Entries that fit are built by their calls, one after the other. -/
private theorem EntriesFit.takes : (entries : List (String × Item)) → EntriesFit entries →
    ∀ (before : List (String × Item)) (roots : List Item) (opened : List Sapling),
      Builder.Takes { roots, opened := .map before :: opened } (callsOfEntries entries)
        { roots, opened := .map (before ++ entries) :: opened }
  | [], _, before, roots, opened => by
    rw [List.append_nil]
    exact .nil _
  | (name, item) :: entries, fits, before, roots, opened => by
    -- An entry is a variant around its item, and the map goes on with one entry more.
    let b : Builder := { roots, opened := .map before :: opened }
    have hroom : b.Room (.opens (.variant name)) := fits.1.1
    have hitem := Fits.takes item fits.1.2.2 { b with opened := .variant name .none :: b.opened } rfl
    have hentry : b.Takes (.opens (.variant name) :: (calls item ++ [.closes .variant]))
        (b.add (.variant name item)) := .enclosed hroom rfl hitem fits.1.2.1 rfl rfl
    have hrest := EntriesFit.takes entries fits.2 (before ++ [(name, item)]) roots opened
    rw [List.append_assoc, List.singleton_append] at hrest
    exact hentry.trans hrest

end

/-- Items next to each other are written without an error, and what is written are their bytes. -/
theorem AllFit.written {items : List Item} (fits : AllFit items) :
    (∀ r ∈ report ({} : Buffer) (callsOfAll items), r.1 = Option.none) ∧
      (after ({} : Buffer) (callsOfAll items)).bytes = .ok (encodeAll items) := by
  have htakes := AllFit.takes items fits {} nofun
  rw [Builder.foldl_add_root] at htakes
  obtain ⟨hroom, hreport, hafter⟩ := htakes.report
  obtain ⟨hsame, halike⟩ := Buffer.alike_after hroom
  rw [hsame, halike.bytes, hafter]
  exact ⟨hreport, rfl⟩

end Item

end StreamRpc.Wire
