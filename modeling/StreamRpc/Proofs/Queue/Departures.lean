import StreamRpc.Proofs.Queue.History

/-! # Watchers hear of every departure

Whoever watches is told the name of each queue that is deleted from then on and that its pattern
covers: once for every time, in order, however late it listens.  Others who watch, and those who
stop, make no difference to it, though they are forgotten in the same sweep that tells the news.

* `addressMatches_iff`        what a pattern covers
* `History.Watching`          somebody came to watch, and what was done since
* `Watched.performs`          whatever is done, the watchers have what the history says
* `watchers_hear_all`         what watchers are told
-/

namespace StreamRpc

open Wire (Bytes)

/-- A pattern covers its own name, and with a star at its end all that begins like it does. -/
theorem addressMatches_iff (pattern name : String) : addressMatches pattern name = true ↔
    name = pattern ∨ ∃ front rest : String, pattern = front ++ "*" ∧ name = front ++ rest := by
  -- The definition looks at the reversed pattern, since the star is its last character.
  have hends : ∀ front : String,
      pattern = front ++ "*" ↔ pattern.toList.reverse = '*' :: front.toList.reverse := by
    intro front
    rw [← String.toList_inj, String.toList_append, ← List.reverse_inj, List.reverse_append]
    rfl
  unfold addressMatches
  split
  · next front heq =>
    have hpattern : pattern = String.ofList front.reverse ++ "*" := by
      rw [hends, heq, String.toList_ofList, List.reverse_reverse]
    rw [List.isPrefixOf_iff_prefix]
    constructor
    · rintro ⟨rest, hrest⟩
      refine .inr ⟨_, String.ofList rest, hpattern, ?_⟩
      rw [← String.toList_inj, String.toList_append, String.toList_ofList, String.toList_ofList,
        hrest]
    · rintro (rfl | ⟨front', rest, hpattern', rfl⟩)
      · rw [hpattern, String.toList_append, String.toList_ofList]
        exact List.prefix_append _ _
      · have := (hends front').1 hpattern'
        rw [heq] at this
        rw [(List.cons.inj this).2, List.reverse_reverse, String.toList_append]
        exact List.prefix_append _ _
  -- Without a star at the end the pattern has to be the name itself.
  · next hstar =>
    have : ∀ front rest : String, ¬ (pattern = front ++ "*" ∧ name = front ++ rest) :=
      fun front _ h => hstar _ ((hends front).1 h.1)
    rw [beq_iff_eq]
    constructor
    · exact fun heq => .inl heq.symm
    · rintro (rfl | ⟨front, rest, h⟩)
      · rfl
      · exact absurd h (this front rest)

namespace Broker

/-! ## Reading a history -/

namespace History

/-- The name of the queue that was deleted. -/
def gone? : Deed × Outcome → Option String
  | (.delete name, .done) => some name
  | _ => none

/-- The name that this watcher was told. -/
def told? (id : WatcherId) : Deed × Outcome → Option String
  | (.hear other, .heard (some name)) => if other = id then some name else none
  | _ => none

/-- This watcher was dropped. -/
def quits (id : WatcherId) : Deed × Outcome → Bool
  | (.dropWatcher other, .done) => other = id
  | _ => false

/-- Somewhere in the history somebody came to watch, as this watcher, and this was done since. -/
def Watching (h : History) (pattern : String) (id : WatcherId) (later : History) : Prop :=
  ∃ before : History, h = before ++ (.watch pattern, .watcher id) :: later

/-- The names of the queues that were deleted and that the pattern covers, in order. -/
def departed (later : History) (pattern : String) : List String :=
  (later.filterMap gone?).filter (addressMatches pattern)

/-- The names that this watcher was told, in order. -/
def heard (later : History) (id : WatcherId) : List String :=
  later.filterMap (told? id)

/-- Whether this watcher was dropped. -/
def stopped (later : History) (id : WatcherId) : Bool :=
  later.any (quits id)

/-! ### One more deed -/

variable {h later : History} {pattern : String} {id : WatcherId} {x : Deed × Outcome}

/-- One more deed adds the name it deletes, if the pattern matches that. -/
@[simp] theorem departed_concat : departed (later ++ [x]) pattern =
    departed later pattern ++ ((gone? x).filter (addressMatches pattern)).toList := by
  rw [departed, List.filterMap_append, List.filter_append]
  congr 1
  cases hx : gone? x with
  | none => simp [hx]
  | some name => cases hm : addressMatches pattern name <;> simp [hx, hm, Option.filter]

/-- One more deed adds the name it tells the watcher. -/
@[simp] theorem heard_concat : heard (later ++ [x]) id = heard later id ++ (told? id x).toList := by
  simp only [heard, List.filterMap_append, List.append_cancel_left_eq]
  cases hx : told? id x <;> simp [hx]

/-- A watcher has stopped once any deed has dropped it. -/
@[simp] theorem stopped_concat :
    stopped (later ++ [x]) id = (stopped later id || quits id x) := by
  simp [stopped]

/-- A watcher after one more deed: it was there before, or it comes now. -/
private theorem watching_concat : Watching (h ++ [x]) pattern id later ↔
    (∃ l, later = l ++ [x] ∧ h.Watching pattern id l) ∨
      (x = (.watch pattern, .watcher id) ∧ later = []) := by
  constructor
  · rintro ⟨before, heq⟩
    -- The watch was the last deed, or it began before that.
    rcases split_concat heq with ⟨rfl, rfl, rfl⟩ | ⟨l, rfl, rfl⟩
    · exact .inr ⟨rfl, rfl⟩
    · exact .inl ⟨l, rfl, before, rfl⟩
  · rintro (⟨l, rfl, before, rfl⟩ | ⟨rfl, rfl⟩)
    · exact ⟨before, by simp⟩
    · exact ⟨h, rfl⟩

end History

/-! ## The watchers have what the history says -/

/-- A watcher has yet to be told what it was not told of all that it wants to know. -/
structure Attends (b : Broker) (pattern : String) (id : WatcherId) (later : History)
    (w : Watcher) : Prop where
  found : b.watchers[id.index]? = some w
  wants : w.pattern = pattern
  listening : w.listening = true
  news : later.heard id ++ w.departures = later.departed pattern

/-- Whoever watches, and was not dropped, has yet to be told what it was not told. -/
def Watched (h : History) (b : Broker) : Prop :=
  ∀ pattern id later, h.Watching pattern id later → later.stopped id = false →
    ∃ w, Attends b pattern id later w

open History (watching_concat departed_concat heard_concat stopped_concat)

section
variable {h later : History} {b b' : Broker} {pattern : String} {id : WatcherId} {w : Watcher}
  {x : Deed × Outcome}

/-- A watcher is its index. -/
private theorem watcher_inj {other : WatcherId} (h : other.index = id.index) : other = id := by
  cases other
  cases id
  cases h
  rfl

/-- Setting a watcher changes the entry at its own index only. -/
private theorem watchers_setWatcher (b : Broker) (id : WatcherId) (w : Watcher) (k : Nat) :
    (b.setWatcher id w).watchers[k]? = if id.index = k then some w else b.watchers[k]? := by
  show (b.watchers.insert _ _)[k]? = _
  rw [Std.ExtTreeMap.getElem?_insert]
  simp only [Std.compare_eq_iff_eq]

/-- What is done elsewhere does not concern a watcher. -/
private theorem Attends.elsewhere (attends : Attends b pattern id later w)
    (found : b'.watchers[id.index]? = b.watchers[id.index]?) (gone : History.gone? x = none)
    (told : History.told? id x = none) : Attends b' pattern id (later ++ [x]) w where
  found := found.trans attends.found
  wants := attends.wants
  listening := attends.listening
  news := by simpa [gone, told] using attends.news

/-- A watcher that listens is not forgotten when a queue goes, and is told if it wants to know. -/
private theorem Attends.delete (attends : Attends b pattern id later w) (name : String)
    (i : MailboxId)
    (m : Mailbox) :
    Attends (b.without name i m) pattern id (later ++ [(.delete name, .done)])
      (Watcher.tell name w) := by
  -- only watchers that were dropped are forgotten, and only when they would be told something
  have stays : Watcher.stays name w = true := by simp [Watcher.stays, attends.listening]
  obtain rfl := attends.wants
  refine ⟨?_, ?_, ?_, ?_⟩
  · rw [watchers_without, attends.found]
    simp [stays]
  · unfold Watcher.tell
    split <;> rfl
  · unfold Watcher.tell
    split <;> exact attends.listening
  · rw [heard_concat, departed_concat, ← attends.news]
    unfold Watcher.tell
    cases hm : addressMatches w.pattern name <;>
      simp [hm, History.told?, History.gone?, Option.filter]

/-- Somebody is told what it has not been told for longest. -/
private theorem Attends.hear (attends : Attends b pattern id later w) {other : WatcherId}
    {w' : Watcher}
    {name : String} {rest : List String} (found : b.watchers[other.index]? = some w')
    (news : w'.departures = name :: rest) :
    ∃ w'', Attends (b.setWatcher other { w' with departures := rest }) pattern id
      (later ++ [(.hear other, .heard (some name))]) w'' := by
  -- Only the watcher that is heard gives up a departure.
  by_cases hid : other.index = id.index
  · obtain rfl := watcher_inj hid
    obtain rfl : w = w' := Option.some.inj (attends.found.symm.trans found)
    refine ⟨{ w with departures := rest }, ?_, attends.wants, attends.listening, ?_⟩
    · rw [watchers_setWatcher, if_pos rfl]
    · rw [departed_concat, ← attends.news, news]
      simp [History.told?, History.gone?]
  · have hne : other ≠ id := fun h => hid (congrArg WatcherId.index h)
    refine ⟨w, attends.elsewhere ?_ rfl (if_neg hne)⟩
    rw [watchers_setWatcher, if_neg hid]

/-- Somebody stops watching: another one. -/
private theorem Attends.dropWatcher (attends : Attends b pattern id later w) {other : WatcherId}
    (hne : other ≠ id) (w' : Watcher) :
    Attends (b.setWatcher other w') pattern id (later ++ [(.dropWatcher other, .done)]) w := by
  refine attends.elsewhere ?_ rfl rfl
  rw [watchers_setWatcher, if_neg fun h => hne (watcher_inj h)]

/-- Whatever is done, a watcher that it does not drop has what its history says. -/
private theorem Attends.performs (attends : Attends b pattern id later w) (hs : b.Sound) {d : Deed}
    {o : Outcome} (does : Performs b d o b') (stays : History.quits id (d, o) = false) :
    ∃ w', Attends b' pattern id (later ++ [(d, o)]) w' := by
  cases does with
  | @delete name i m found box => exact ⟨_, attends.delete name i m⟩
  | hear found _ news => exact attends.hear found news
  | dropWatcher => exact ⟨w, attends.dropWatcher (by simpa [History.quits] using stays) _⟩
  | watch =>
    refine ⟨w, attends.elsewhere ?_ rfl rfl⟩
    -- another one that comes has a number of its own
    rw [watchers_watch, if_neg (Nat.ne_of_gt (hs.watchers _ w attends.found))]
  | refuse | void => cases d <;> exact ⟨w, attends.elsewhere rfl rfl rfl⟩
  | create | send | sendRaw | consume | receive | await | dropReader | hearNothing =>
    exact ⟨w, attends.elsewhere rfl rfl rfl⟩

/-- A new watcher has heard nothing and waits for nothing. -/
private theorem attends_watch (b : Broker) (pattern : String) :
    Attends (b.watch pattern).2 pattern ⟨b.nextWatcher⟩ [] { pattern } where
  found := by rw [watchers_watch, if_pos rfl]
  wants := rfl
  listening := rfl
  news := rfl

/-- A deed keeps every watcher's account in step with the broker. -/
theorem Watched.performs (watched : Watched h b) (hs : b.Sound) {d : Deed} {o : Outcome}
    (does : Performs b d o b') : Watched (h ++ [(d, o)]) b' := by
  intro pattern id later watching listens
  rcases watching_concat.1 watching with ⟨l, rfl, old⟩ | ⟨heq, rfl⟩
  · rw [stopped_concat, Bool.or_eq_false_iff] at listens
    obtain ⟨w, attends⟩ := watched pattern id l old listens.1
    exact attends.performs hs does listens.2
  · obtain ⟨rfl, rfl⟩ := Prod.mk.inj heq
    cases does with
    | watch => exact ⟨_, attends_watch b pattern⟩

end

/-- Whatever was done, every watcher's account is in step with the broker. -/
private theorem watched_past (ds : List Deed) : Watched (past ds).1 (past ds).2 := by
  induction ds using List.reverseRecOn with
  | nil =>
    rintro pattern id later ⟨before, h⟩
    simp at h
  | append_singleton ds d ih =>
    rw [past_concat]
    exact ih.performs (sound_past ds) ((past ds).2.performs d)

/-! ## What watchers are told -/

/-- A watcher that is asked often enough hears the departures that wait for it, in order. -/
private theorem departuresUpTo_eq {b : Broker} {id : WatcherId} {w : Watcher}
    (found : b.watchers[id.index]? = some w) (n : Nat) :
    (b.departuresUpTo id n).1 = w.departures.take n := by
  induction n generalizing b w with
  | zero => rfl
  | succ n ih =>
    -- Each hearing takes the first departure, as long as there is one.
    cases news : w.departures with
    | nil => simp [departuresUpTo, departure?, found, news]
    | cons name rest =>
      have later := ih (b := b.setWatcher id { w with departures := rest })
        (w := { w with departures := rest }) (by rw [watchers_setWatcher, if_pos rfl])
      simp only [departuresUpTo, departure?, found, news, List.take_succ_cons]
      exact congrArg (name :: ·) later

/-- Whatever is done, a watcher that was not dropped is told just the names of the queues that were
    deleted since it came and that its pattern covers, once for each time, in order: those it was
    told so far, then those it is still to be told.  What is refused changes nothing, so nobody is
    told of it. -/
theorem watchers_hear_all (ds : List Deed) :
    let h : History := (past ds).1
    let b := (past ds).2
    (∀ (pattern : String) (id : WatcherId) (later : History), h.Watching pattern id later →
      later.stopped id = false →
        (∀ n : Nat, later.heard id ++ (b.departuresUpTo id n).1 =
          (later.departed pattern).take ((later.heard id).length + n)) ∧
        (later.heard id).length + b.departureCount id = (later.departed pattern).length ∧
        (b.perform (.hear id)).1 = .heard (later.departed pattern)[(later.heard id).length]?) ∧
    (∀ pattern name : String, addressMatches pattern name = true ↔
      name = pattern ∨ ∃ front rest : String, pattern = front ++ "*" ∧ name = front ++ rest) ∧
    ∀ (name : String) (e : TransportError), (b.perform (.delete name)).1 = .refused e →
      (b.perform (.delete name)).2 = b := by
  intro h b
  refine ⟨fun pattern id later watching listens => ?_, addressMatches_iff,
    fun name e => perform_refused⟩
  obtain ⟨w, attends⟩ := watched_past ds pattern id later watching listens
  -- What was heard and what still waits are together all departures that match.
  rw [← attends.news]
  refine ⟨fun n => ?_, ?_, ?_⟩
  · rw [departuresUpTo_eq attends.found, List.take_length_add_append]
  · rw [departureCount, attends.found, List.length_append]
    rfl
  · have watches : b.isWatching id = true := isWatching_iff.2 ⟨w, attends.found, attends.listening⟩
    have found : b.watchers[id.index]? = some w := attends.found
    -- What has been heard comes first, so the next departure is the first of those still waiting.
    rw [List.getElem?_append_right (Nat.le_refl _), Nat.sub_self]
    simp only [perform, watches, if_true, departure?, found]
    cases w.departures <;> rfl

/-- Somebody watches for all queues of a kind while another watcher goes: a queue that was deleted
    twice is heard of twice. -/
theorem watchers_hear_all_twice :
    let ds : List Deed := [.watch "q*", .watch "q.1", .create "q.1", .delete "q.1",
      .dropWatcher ⟨1⟩, .create "q.1", .hear ⟨0⟩, .delete "r", .delete "q.1"]
    let h : History := (past ds).1
    let later : History := h.tail
    h.Watching "q*" ⟨0⟩ later ∧ later.stopped ⟨0⟩ = false ∧
      later.departed "q*" = ["q.1", "q.1"] ∧
      later.heard ⟨0⟩ ++ ((past ds).2.departuresUpTo ⟨0⟩ 3).1 =
        (later.departed "q*").take ((later.heard ⟨0⟩).length + 3) := by
  intro ds h later
  -- The first watcher watches from the start and is told twice; the second stops early.
  have watching : h.Watching "q*" ⟨0⟩ later := ⟨[], by rfl⟩
  have listens : later.stopped ⟨0⟩ = false := by decide +kernel
  exact ⟨watching, listens, by decide +kernel,
    ((watchers_hear_all ds).1 "q*" ⟨0⟩ later watching listens).1 3⟩

end Broker

end StreamRpc
