import StreamRpc.Proofs.Client.Holdings

/-! # Dropping handles closes what is unread

A handle that is dropped takes with it what it has not read, with the handles in that and what those
have not read, and so on.  Because handles form a forest, each of them is met once, depth first: the
handle itself, then what it has not read in the order in which it came.  Those whose streams are open
are closed in this order.  Those whose streams have come to their end are not, but what they have not
read is.

* `Demux.DepthFirst`          handles with all that they have not read
* `Demux.Forest.depthFirst`   dropping goes through them one by one
* `Demux.drop_closes_unread`  what dropping does, after any run
-/

namespace StreamRpc

/-- Whether the stream of a handle comes to its end by this: its end is told, or all streams fail. -/
def HandleEvent.Finishes (h : Handle) : HandleEvent → Prop
  | told id event _ => id = h.id ∧ event.terminal = true
  | failed => True
  | _ => False

/-- The stream of a handle has come to its end since the handle was made. -/
def HandleTrace.Over (tr : HandleTrace) (h : Handle) : Prop :=
  ∃ pre since, tr = pre ++ .introduced h :: since ∧ ∃ x ∈ since, x.Finishes h

namespace Demux

open HandleTrace (made_append made_introduced)

/-! ## Handles with what they have not read -/

/-- The second are the first, each of them followed by the handles in what it has not read, in the
    order in which they came, with what those have not read, and so on. -/
inductive DepthFirst (d : Demux) : List Handle → List Handle → Prop where
  | nil : DepthFirst d [] []
  | cons {h : Handle} {hs ps qs : List Handle} {box : Inbox}
      (found : d.inboxes[h.key]? = some box) (unread : DepthFirst d box.held ps)
      (rest : DepthFirst d hs qs) : DepthFirst d (h :: hs) (h :: (ps ++ qs))

/-- What is reached from handles that are reached is reached. -/
theorem Reaches.trans {d : Demux} {hs gs : List Handle} {h : Handle} (reaches : Reaches d gs h)
    (before : ∀ g ∈ gs, Reaches d hs g) : Reaches d hs h := by
  induction reaches with
  | here hh => exact before _ hh
  | unread _ found hh ih => exact .unread ih found hh

namespace DepthFirst

variable {d d' : Demux} {hs ps qs : List Handle}

/-- A walk through two lists in a row is a walk through each. -/
private theorem split {gs : List Handle} (walk : DepthFirst d (gs ++ hs) ps) :
    ∃ ps₁ ps₂, ps = ps₁ ++ ps₂ ∧ DepthFirst d gs ps₁ ∧ DepthFirst d hs ps₂ := by
  induction gs generalizing ps with
  | nil => exact ⟨[], ps, rfl, .nil, walk⟩
  | cons g gs ih =>
    cases walk with
    | @cons _ _ below after box found unread rest =>
      obtain ⟨ps₁, ps₂, rfl, first, second⟩ := ih rest
      exact ⟨g :: (below ++ ps₁), ps₂, by simp, .cons found unread first, second⟩

/-- Inboxes that are not reached do not count. -/
private theorem mono (sub : ∀ (k : Nat) (box : Inbox), d.inboxes[k]? = some box →
    d'.inboxes[k]? = some box) (walk : DepthFirst d hs ps) : DepthFirst d' hs ps := by
  induction walk with
  | nil => exact .nil
  | cons found _ _ ihu ihr => exact .cons (sub _ _ found) ihu ihr

/-- A walk past a handle that is dropped already is a walk. -/
private theorem of_dropOne {g : Handle} (walk : DepthFirst (d.dropOne g) hs ps) :
    DepthFirst d hs ps := by
  refine walk.mono fun k box found => ?_
  rw [inboxes_dropOne] at found
  split at found
  · cases found
  · exact found

/-- Every handle of the walk is in somebody's hands. -/
private theorem held (walk : DepthFirst d hs ps) : ∀ h ∈ ps, d.held h = true := by
  induction walk with
  | nil => exact fun h hh => absurd hh List.not_mem_nil
  | cons found _ _ ihu ihr =>
    intro h hh
    rcases List.mem_cons.1 hh with rfl | hh
    · exact (d.held_iff h).2 ⟨_, found⟩
    · exact (List.mem_append.1 hh).elim (ihu h) (ihr h)

/-- A walk visits every handle it starts from. -/
private theorem subset (walk : DepthFirst d hs ps) : ∀ h ∈ hs, h ∈ ps := by
  induction walk with
  | nil => exact fun h hh => hh
  | cons _ _ _ _ ihr =>
    intro h hh
    rcases List.mem_cons.1 hh with rfl | hh
    · exact List.mem_cons_self
    · exact List.mem_cons_of_mem _ (List.mem_append_right _ (ihr h hh))

/-- What a handle has not read is there with the handle. -/
private theorem closed (walk : DepthFirst d hs ps) {g : Handle} (hg : g ∈ ps) {box : Inbox}
    (found : d.inboxes[g.key]? = some box) : ∀ h ∈ box.held, h ∈ ps := by
  induction walk with
  | nil => cases hg
  | @cons p hs ps qs box' hp unread rest ihu ihr =>
    intro h hh
    refine List.mem_cons_of_mem _ (List.mem_append.2 ?_)
    -- The handles in the inbox of the first follow it in the walk, and so on below.
    rcases List.mem_cons.1 hg with rfl | hg
    · obtain rfl := Option.some.inj (hp.symm.trans found)
      exact .inl (unread.subset h hh)
    · exact (List.mem_append.1 hg).imp (ihu · h hh) (ihr · h hh)

/-- All handles that are reached are there, and no others. -/
private theorem mem_iff (walk : DepthFirst d hs ps) {h : Handle} : h ∈ ps ↔ Reaches d hs h := by
  refine ⟨fun hh => ?_, fun reaches => ?_⟩
  -- One direction is by the walk, and the other by how the handle is reached.
  · induction walk with
    | nil => cases hh
    | @cons g hs ps qs box found _ _ ihu ihr =>
      rcases List.mem_cons.1 hh with rfl | hh
      · exact .here List.mem_cons_self
      · rcases List.mem_append.1 hh with hh | hh
        · exact (ihu hh).trans fun p hp => .unread (.here List.mem_cons_self) found hp
        · exact (ihr hh).mono fun p => List.mem_cons_of_mem g
  · induction reaches with
    | here hh => exact walk.subset _ hh
    | unread _ found hh ih => exact walk.closed ih found _ hh

/-- There is one depth-first walk only. -/
private theorem unique (walk : DepthFirst d hs ps) (other : DepthFirst d hs qs) : ps = qs := by
  induction walk generalizing qs with
  | nil =>
    cases other
    rfl
  | cons found _ _ ihu ihr =>
    cases other with
    | cons found' unread' rest' =>
      obtain rfl := Option.some.inj (found.symm.trans found')
      rw [ihu unread', ihr rest']

end DepthFirst

/-! ## Dropping them one by one -/

/-- Drops handles one by one, but not what they have not read. -/
def dropEach (d : Demux) (ps : List Handle) : Demux :=
  ps.foldl dropOne d

/-- The streams of these handles that are open. -/
def stillOpen (d : Demux) (ps : List Handle) : List StreamId :=
  (ps.filter fun h => d.isOpen h.id).map (·.id)

/-- The ids still open are those open and on the walk. -/
private theorem mem_stillOpen {d : Demux} {ps : List Handle} {id : StreamId} :
    id ∈ d.stillOpen ps ↔ d.isOpen id = true ∧ id ∈ ps.map (·.id) := by
  simp only [stillOpen, List.mem_map, List.mem_filter]
  constructor
  · rintro ⟨h, ⟨hh, hopen⟩, rfl⟩
    exact ⟨hopen, h, hh, rfl⟩
  · rintro ⟨hopen, h, hh, rfl⟩
    exact ⟨h, ⟨hh, hopen⟩, rfl⟩

/-- Dropping handles one by one closes their ids. -/
private theorem opened_dropEach (d : Demux) (ps : List Handle) (id : StreamId) :
    (d.dropEach ps).opened[id]? = if id ∈ ps.map (·.id) then none else d.opened[id]? := by
  induction ps generalizing d with
  | nil => simp [dropEach]
  | cons h ps ih =>
    have hone : (d.dropOne h).opened[id]? = if id = h.id then none else d.opened[id]? := by
      refine Option.ext fun k => (opened_dropOne d h id k).trans ?_
      split
      · next hid => simp [hid]
      · next hid => simp [hid]
    show ((d.dropOne h).dropEach ps).opened[id]? = _
    rw [ih, hone, List.map_cons]
    -- Either the first handle has closed the stream, or only the others can.
    by_cases hid : id = h.id
    · simp [hid]
    · simp [hid]

/-- Dropping handles one by one removes their inboxes. -/
private theorem inboxes_dropEach (d : Demux) (ps : List Handle) (k : Nat) :
    (d.dropEach ps).inboxes[k]? = if k ∈ ps.map (·.key) then none else d.inboxes[k]? := by
  induction ps generalizing d with
  | nil => simp [dropEach]
  | cons h ps ih =>
    show ((d.dropOne h).dropEach ps).inboxes[k]? = _
    rw [ih, inboxes_dropOne, List.map_cons]
    by_cases hk : k = h.key
    · simp [hk]
    · simp [hk]

/-- The open ones among different streams are to be closed, in the order of their handles. -/
private theorem released_dropEach {d : Demux} {ps : List Handle} (ids : (ps.map (·.id)).Nodup) :
    (d.dropEach ps).released = d.released ++ d.stillOpen ps := by
  induction ps generalizing d with
  | nil => simp [dropEach, stillOpen]
  | cons h ps ih =>
    obtain ⟨hnot, hrest⟩ := List.nodup_cons.1 ids
    -- The other streams stay open when this one is closed.
    have hstill : (d.dropOne h).stillOpen ps = d.stillOpen ps := by
      refine congrArg (List.map Handle.id) (List.filter_congr fun g hg => ?_)
      have hne : g.id ≠ h.id := fun heq => hnot (List.mem_map.2 ⟨g, hg, heq⟩)
      rw [isOpen_dropOne, bne_iff_ne.2 hne, Bool.and_true]
    show ((d.dropOne h).dropEach ps).released = _
    rw [ih hrest, hstill, released_dropOne]
    cases hopen : d.isOpen h.id with
    | false => simp [stillOpen, hopen]
    | true => simp [stillOpen, hopen]

/-- Dropping handles goes through them and what they have not read one by one, and comes to an end,
    because no handle is in two places. -/
theorem Forest.depthFirst {made : List StreamId} {d : Demux} {hs rest : List Handle}
    (forest : Forest made (hs ++ rest) d) :
    ∃ ps, DepthFirst d hs ps ∧ ps.Nodup ∧ d.dropAll hs = d.dropEach ps := by
  induction d, hs using dropAll_induct with
  | nil d => exact ⟨[], .nil, List.nodup_nil, by rw [Demux.dropAll]; rfl⟩
  | absent d g hs absent ih =>
    -- A handle that is to be dropped has its inbox.
    obtain ⟨box, found⟩ := (d.held_iff g).1 (forest.held_of_mem List.mem_cons_self)
    rw [absent] at found
    cases found
  | found d g hs box found ih =>
    have left : Forest made (box.held ++ hs ++ rest) (d.dropOne g) := by
      rw [List.append_assoc]
      exact forest.dropOne found
    obtain ⟨ps, walk, nodup, heq⟩ := ih left
    -- It is gone when those that it has not read are dropped, so it is not met again.
    have hnot : g ∉ ps := fun hg =>
      ((held_dropOne d g g).1 (walk.held g hg)).2 rfl
    obtain ⟨below, after, rfl, unread, others⟩ := (DepthFirst.of_dropOne walk).split
    refine ⟨g :: (below ++ after), .cons found unread others, List.nodup_cons.2 ⟨hnot, nodup⟩, ?_⟩
    rw [dropAll_of_found found]
    exact heq

/-! ## Streams that are over -/

/-- A handle was made before, or it is one of those that are made now. -/
private theorem Fit.made_or_mem {made ids : List StreamId} {d : Demux} (fit : Fit made d)
    {h : Handle}
    (given : Given (made ++ ids) h) : Given made h ∨ h ∈ (d.introduceAll ids).1 := by
  induction ids generalizing made d with
  | nil => exact .inl (by rwa [List.append_nil] at given)
  | cons id ids ih =>
    rw [List.append_cons] at given
    rcases ih (fit.introduce id) given with given | hh
    · by_cases hlt : h.key < made.length
      · rw [Given, List.getElem?_append_left hlt] at given
        exact .inl given
      · -- It has the last key, which is that of the first new handle.
        have hlt' := (List.getElem?_eq_some_iff.1 given).1
        rw [List.length_append, List.length_singleton] at hlt'
        have hkey : h.key = made.length := by omega
        rw [Given, hkey, List.getElem?_concat_length] at given
        have hh : (d.introduce id).1 = h := by
          obtain ⟨key, other⟩ := h
          obtain rfl : id = other := Option.some.inj given
          exact congrArg (Handle.mk · id) (fit.count.trans hkey.symm)
        exact .inr (hh ▸ List.mem_cons_self)
    · exact .inr (List.mem_cons_of_mem _ hh)

/-- The handles that are made are told of. -/
private theorem Step.introduces {tr es : HandleTrace} {d d' : Demux} (next : Step tr d es d') :
    ∀ h ∈ (d.introduceAll es.made).1, .introduced h ∈ es := by
  have hquiet : es.made = [] → ∀ h ∈ (d.introduceAll es.made).1, .introduced h ∈ es := by
    intro hmade h hh
    rw [hmade] at hh
    cases hh
  -- Handles are made only by what is attached, and an observation attaches before it is routed.
  cases next with
  | attach v =>
    obtain ⟨hslots, -, -⟩ := d.attach_eq v
    rw [hslots, made_introduced, ids_introduceAll]
    exact fun h hh => List.mem_map_of_mem hh
  | @hear id event accepted =>
    rw [made_told d event rfl, (d.attachEvent_eq event).2.1]
    exact fun h hh => List.mem_append_left _ (List.mem_map_of_mem hh)
  | @miss id event es rejected drops =>
    have quiet : HandleTrace.made (.told id event false :: es) = [] := drops.quiet.1
    rw [made_told d event quiet, (d.attachEvent_eq event).2.1]
    exact fun h hh => List.mem_append_left _ (List.mem_map_of_mem hh)
  | read => exact hquiet rfl
  | drop _ drops => exact hquiet drops.quiet.1
  | failAll => exact hquiet rfl
  | drain => exact hquiet rfl

/-- Every handle that was made is told of. -/
private theorem Run.introduced {tr : HandleTrace} {d : Demux} (run : Run tr d)
    (nodup : tr.made.Nodup)
    {h : Handle} (given : Given tr.made h) : .introduced h ∈ tr := by
  induction run with
  | refl => simp [Given, HandleTrace.made] at given
  | @step tr es d d' run next ih =>
    rw [made_append] at nodup given
    have before := (List.nodup_append.1 nodup).1
    -- It was made before, or this step makes it and tells so.
    rcases (run.account before).fit.made_or_mem given with given | hh
    · exact List.mem_append_left _ (ih before given)
    · exact List.mem_append_right _ (next.introduces h hh)

/-- A handle is made once. -/
private theorem introduced_once {pre pre' since since' : HandleTrace} {h : Handle}
    (nodup : (HandleTrace.made (pre ++ .introduced h :: since)).Nodup)
    (same : pre ++ .introduced h :: since = pre' ++ .introduced h :: since') : since = since' := by
  -- If it were made twice, its stream would be there twice among those that were introduced.
  have htwice : ∀ before between after : HandleTrace,
      ¬(HandleTrace.made (before ++ .introduced h :: (between ++ .introduced h :: after))).Nodup := by
    intro before between after hnodup
    have hmade : HandleTrace.made (before ++ .introduced h :: (between ++ .introduced h :: after)) =
        before.made ++ h.id :: (between.made ++ h.id :: after.made) := by
      simp [HandleTrace.made, HandleEvent.stream?]
    rw [hmade] at hnodup
    exact (List.nodup_cons.1 (List.nodup_append.1 hnodup).2.1).1
      (List.mem_append_right _ List.mem_cons_self)
  rcases List.append_eq_append_iff.1 same with ⟨between, rfl, heq⟩ | ⟨between, rfl, heq⟩
  · cases between with
    | nil => exact (List.cons.inj heq).2
    | cons x between =>
      obtain ⟨rfl, rfl⟩ := List.cons.inj heq
      exact absurd nodup (htwice pre between since')
  · cases between with
    | nil => exact (List.cons.inj heq).2.symm
    | cons x between =>
      obtain ⟨rfl, rfl⟩ := List.cons.inj heq
      rw [List.append_assoc] at nodup
      exact absurd nodup (htwice pre' between since)

/-- A handle that has not been dropped is open, or its stream is over, and not both. -/
private theorem Account.over_iff {tr : HandleTrace} {d : Demux} (account : Account tr d)
    (nodup : tr.made.Nodup) {h : Handle} (introduced : .introduced h ∈ tr)
    (given : Given tr.made h) (held : d.held h = true) : tr.Over h ↔ ¬tr.OpenFor h := by
  constructor
  -- Both name the place where the handle was introduced, and there is only one.
  · rintro ⟨pre, since, htr, x, hx, hfinishes⟩ ⟨pre', since', htr', hno⟩
    obtain rfl := introduced_once (htr ▸ nodup) (htr.symm.trans htr')
    refine hno x hx ?_
    cases x with
    | told => exact hfinishes
    | failed => trivial
    | _ => cases hfinishes
  · intro hnot
    obtain ⟨pre, since, rfl⟩ := List.append_of_mem introduced
    -- A handle that is still held can have ended in no other way than by what it was told.
    have hends : ∃ x ∈ since, x.Ends h := by
      by_contra hno
      exact hnot ⟨pre, since, rfl, fun x hx hends => hno ⟨x, hx, hends⟩⟩
    obtain ⟨x, hx, hends⟩ := hends
    refine ⟨pre, since, rfl, x, hx, ?_⟩
    cases x with
    | told => exact hends
    | failed => trivial
    | dropped g q =>
      obtain rfl : g = h := hends
      exact absurd (List.mem_append_right _ (List.mem_cons_of_mem _ hx))
        ((account.held g given).1 held q)
    | _ => cases hends

/-! ## All together -/

/-- Every handle that can be reached was made. -/
private theorem Forest.given_of_reaches {made : List StreamId} {d : Demux} {hs : List Handle}
    (fit : Fit made d) (given : ∀ h ∈ hs, Given made h) {h : Handle} (reaches : Reaches d hs h) :
    Given made h := by
  induction reaches with
  | here hh => exact given _ hh
  | unread _ found hh _ => exact fit.unread _ _ found _ hh

/-- However an application gets, reads and drops handles, if every stream gets one handle: dropping
    some that it has goes through these, depth first, with all that are reached from them through what
    they have not read, each of them once.  The streams that are closed are those that are open among
    theirs; they are put with the streams to be closed in this order, after those that were there.
    Streams whose end was told or that have failed are not among them.  The inboxes of these handles
    are gone, and other streams and inboxes are as they were. -/
theorem drop_closes_unread {tr : HandleTrace} {hands hs rest : List Handle} {d : Demux}
    (run : Holding tr hands d) (nodup : tr.made.Nodup) (owned : hands.Perm (hs ++ rest)) :
    ∃ ps, DepthFirst d hs ps ∧ ps.Nodup ∧ (∀ h, h ∈ ps ↔ Reaches d hs h) ∧
      (∀ h ∈ ps, (d.isOpen h.id = true ↔ tr.OpenFor h) ∧ (d.isOpen h.id = false ↔ tr.Over h)) ∧
      (d.dropAll hs).released = d.released ++ d.stillOpen ps ∧ (d.stillOpen ps).Nodup ∧
      (∀ id, d.isOpen id = true ∧ (d.dropAll hs).isOpen id = false ↔ id ∈ d.stillOpen ps) ∧
      (∀ id ∉ d.stillOpen ps, (d.dropAll hs).opened[id]? = d.opened[id]?) ∧
      ∀ k, (d.dropAll hs).inboxes[k]? = if k ∈ ps.map (·.key) then none else d.inboxes[k]? := by
  obtain ⟨before, forest⟩ := run.forest nodup
  have account := before.account nodup
  have forest := forest.perm owned
  obtain ⟨ps, walk, once, heq⟩ := forest.depthFirst
  have hgiven : ∀ h ∈ ps, Given tr.made h := fun h hh =>
    Forest.given_of_reaches account.fit
      (fun g hg => forest.given_of_mem (List.mem_append_left _ hg)) (walk.mem_iff.1 hh)
  -- Each stream was introduced once, so different handles have different ids.
  have hids : (ps.map (·.id)).Nodup :=
    once.map_on fun g hg h hh hid => (hgiven g hg).eq_of_id nodup (hgiven h hh) hid
  have hopened := d.opened_dropEach ps
  rw [heq]
  refine ⟨ps, walk, once, fun h => walk.mem_iff, fun h hh => ?_, released_dropEach hids,
    hids.sublist (List.filter_sublist.map _), fun id => ?_, fun id hid => ?_, d.inboxes_dropEach ps⟩
  · have hopen := account.isOpen_iff_openFor nodup (hgiven h hh)
    have hover := account.over_iff nodup (before.introduced nodup (hgiven h hh)) (hgiven h hh)
      (walk.held h hh)
    exact ⟨hopen, by rw [hover, ← hopen, Bool.not_eq_true]⟩
  -- A stream closes if it is open and belongs to a handle of the walk.
  · rw [mem_stillOpen]
    refine and_congr_right fun hopen => ?_
    rw [isOpen, Std.ExtTreeMap.contains_eq_isSome_getElem?, hopened]
    rw [isOpen, Std.ExtTreeMap.contains_eq_isSome_getElem?] at hopen
    split
    · next hid => exact iff_of_true rfl hid
    · next hid => exact iff_of_false (by simp [hopen]) hid
  · rw [hopened]
    split
    · next hmem =>
      -- The stream of a handle that is dropped was closed before.
      refine (Option.eq_none_iff_forall_ne_some.2 fun k hk => hid ?_).symm
      exact mem_stillOpen.2 ⟨(d.isOpen_iff id).2 ⟨k, hk⟩, hmem⟩
    · rfl

namespace Nested

def first : Handle := ⟨0, ⟨0⟩⟩
def second : Handle := ⟨1, ⟨1⟩⟩
def third : Handle := ⟨2, ⟨2⟩⟩
def fourth : Handle := ⟨3, ⟨3⟩⟩
def fifth : Handle := ⟨4, ⟨4⟩⟩

/-- The application has two handles. -/
def started : Demux :=
  (Demux.attach {} (.list [.stream ⟨0⟩, .stream ⟨1⟩])).2

/-- The first has two more to read. -/
def nested : Demux :=
  (started.observe ⟨0⟩ (.next (.list [.stream ⟨2⟩, .stream ⟨3⟩]))).2

/-- The third has one more to read. -/
def deeper : Demux :=
  (nested.observe ⟨2⟩ (.next (.stream ⟨4⟩))).2

/-- The stream of the third has completed. -/
def completed : Demux :=
  (deeper.observe ⟨2⟩ .completed).2

/-- The three observations are accepted. -/
private theorem accepted :
    (started.observe ⟨0⟩ (.next (.list [.stream ⟨2⟩, .stream ⟨3⟩]))).1 = true ∧
    (nested.observe ⟨2⟩ (.next (.stream ⟨4⟩))).1 = true ∧
      (deeper.observe ⟨2⟩ .completed).1 = true := by decide +kernel

/-- The handles come from a run. -/
private theorem run : ∃ tr, Holding tr [first, second] completed ∧
    tr.made = [⟨0⟩, ⟨1⟩, ⟨2⟩, ⟨3⟩, ⟨4⟩] :=
  have ⟨h1, h2, h3⟩ := accepted
  ⟨_, (((Holding.refl.step (.attach (.list [.stream ⟨0⟩, .stream ⟨1⟩]))).step (.hear h1)).step
    (.hear h2)).step (.hear h3), rfl⟩

/-- Each handle's inbox holds the handles nested in it. -/
private theorem unread : completed.inboxes[first.key]?.map Inbox.held = some [third, fourth] ∧
    completed.inboxes[third.key]?.map Inbox.held = some [fifth] ∧
    completed.inboxes[fourth.key]?.map Inbox.held = some [] ∧
    completed.inboxes[fifth.key]?.map Inbox.held = some [] := by decide +kernel

/-- The walk enters a handle's inbox before it goes on. -/
private theorem step {h : Handle} {gs hs ps qs : List Handle}
    (held : completed.inboxes[h.key]?.map Inbox.held = some gs)
    (below : DepthFirst completed gs ps) (rest : DepthFirst completed hs qs) :
    DepthFirst completed (h :: hs) (h :: (ps ++ qs)) := by
  obtain ⟨box, found, rfl⟩ := Option.map_eq_some_iff.1 held
  exact .cons found below rest

/-- The walk from the first handle. -/
private theorem walk : DepthFirst completed [first] [first, third, fifth, fourth] :=
  have ⟨h1, h3, h4, h5⟩ := unread
  step h1 (step h3 (step h5 .nil .nil) (step h4 .nil .nil)) .nil

/-- What the walk closes, and what it leaves. -/
private theorem opened : completed.released ++ completed.stillOpen [first, third, fifth, fourth] =
      [⟨0⟩, ⟨4⟩, ⟨3⟩] ∧
    completed.isOpen third.id = false ∧ completed.isOpen fifth.id = true ∧
    completed.isOpen second.id = true ∧
    second.id ∉ completed.stillOpen [first, third, fifth, fourth] := by decide +kernel

end Nested

open Nested in
/-- The stream of the third handle is over, and what it has not read is closed all the same. -/
theorem drop_closes_unread_nested : ∃ tr, Holding tr [first, second] completed ∧
    tr.Over third ∧ tr.OpenFor fifth ∧ (completed.dropAll [first]).released = [⟨0⟩, ⟨4⟩, ⟨3⟩] ∧
      (completed.dropAll [first]).opened[second.id]? = completed.opened[second.id]? ∧
      completed.isOpen second.id = true := by
  obtain ⟨tr, run, made⟩ := Nested.run
  obtain ⟨ps, walk, -, -, states, released, -, -, others, -⟩ :=
    drop_closes_unread run (by rw [made]; decide) (List.Perm.refl ([first] ++ [second]))
  -- There is one walk only, so it is the one written out above.
  obtain rfl := walk.unique Nested.walk
  obtain ⟨queue, shut, open5, open2, kept⟩ := Nested.opened
  exact ⟨tr, run, (states third (by simp)).2.1 shut, (states fifth (by simp)).1.1 open5,
    released.trans queue, others _ kept, open2⟩

end Demux

end StreamRpc
