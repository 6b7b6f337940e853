import StreamRpc.Proofs.Stream.Tracker

/-! # Only clients with streams are on the books

A client is on the books from its first stream to its last.  So the books say nothing that cannot be
told from the active streams, and when the same streams are active again they are the same books.

* `Tidy.register`, `Tidy.retire`, …   nobody is on the books without streams
* `owned_eq`                          the active streams say who has which
-/

namespace StreamRpc.Tracker

/-- Nobody is on the books without streams. -/
def Tidy (t : Tracker) : Prop :=
  ∀ (client : String) (ids : StreamSet), t.owned[client]? = some ids → ids.isEmpty = false

variable {t t' : Tracker}

/-- The empty tracker is tidy. -/
theorem tidy_empty : Tidy {} := by
  intro client ids h
  simp at h

/-- A registration keeps a tracker tidy. -/
theorem Tidy.register (h : t.Tidy) (id : StreamId) (client : String) :
    (t.register id client).2.Tidy := by
  intro other ids hids
  -- The set of the client has at least the new id in it.
  have howned : (t.register id client).2.owned[other]? =
      if client = other then some ((t.ownedBy client).insert id) else t.owned[other]? := by
    simp only [Tracker.register]
    split <;> simp [Std.ExtTreeMap.getElem?_insert, ownedBy, setSignal]
  rw [howned] at hids
  split at hids
  · obtain rfl := Option.some.inj hids
    simp
  · exact h other ids hids

/-- A client goes off the books with its last stream. -/
private theorem tidy_disown (h : t.Tidy) (client : String) (id : StreamId) {other : String}
    {ids : StreamSet} (hids : (disown t.owned client id)[other]? = some ids) :
    ids.isEmpty = false := by
  unfold disown at hids
  split at hids
  · exact h other ids hids
  · next rest hrest =>
    -- A client whose last stream goes is taken off the index altogether.
    cases hempty : (rest.erase id).isEmpty with
    | true =>
      simp only [hempty, if_true, Std.ExtTreeMap.getElem?_erase] at hids
      split at hids
      · cases hids
      · exact h other ids hids
    | false =>
      simp only [hempty, Bool.false_eq_true, if_false, Std.ExtTreeMap.getElem?_insert] at hids
      split at hids
      · exact Option.some.inj hids ▸ hempty
      · exact h other ids hids

/-- A retirement keeps a tracker tidy. -/
theorem Tidy.retire (h : t.Tidy) (id : StreamId) : (t.retire id).2.Tidy := by
  intro client ids hids
  unfold Tracker.retire at hids
  split at hids
  · exact h client ids hids
  · exact tidy_disown h _ id hids

/-- Retiring a list of ids keeps a tracker tidy. -/
theorem Tidy.retireAll (h : t.Tidy) (ids : List StreamId) : (t.retireAll ids).2.Tidy := by
  induction ids generalizing t with
  | nil => exact h
  | cons id ids ih => exact ih (h.retire id)

/-- Retiring a client keeps a tracker tidy. -/
theorem Tidy.retireClient (h : t.Tidy) (client : String) : (t.retireClient client).2.Tidy := by
  intro other ids hids
  rw [retireClient_eq, owned_expire, Std.ExtTreeMap.getElem?_erase] at hids
  split at hids
  · cases hids
  · exact h other ids hids

/-- The books follow from the active streams. -/
theorem owned_eq (sound : t.Sound) (tidy : t.Tidy) (sound' : t'.Sound) (tidy' : t'.Tidy)
    (active : t.active = t'.active) : t.owned = t'.owned := by
  have hmem : ∀ (client : String) (id : StreamId), id ∈ t.ownedBy client ↔ id ∈ t'.ownedBy client := by
    intro client id
    rw [sound.owned, sound'.owned, active]
  have hset : ∀ client : String, t.ownedBy client = t'.ownedBy client :=
    fun client => Std.ExtTreeSet.ext_mem fun id => hmem client id
  -- Who is on the books has streams, and so is on the other books as well.
  refine Std.ExtTreeMap.ext_getElem? fun client => ?_
  have heq := hset client
  unfold ownedBy at heq
  cases hids : t.owned[client]? with
  | none =>
    cases hids' : t'.owned[client]? with
    | none => rfl
    | some ids' =>
      rw [hids, hids'] at heq
      have := tidy' client ids' hids'
      rw [← show ∅ = ids' from heq] at this
      simp at this
  | some ids =>
    cases hids' : t'.owned[client]? with
    | none =>
      rw [hids, hids'] at heq
      have := tidy client ids hids
      rw [show ids = ∅ from heq] at this
      simp at this
    | some ids' =>
      rw [hids, hids'] at heq
      -- On both books: the two sets have the same members.
      exact congrArg some heq

end StreamRpc.Tracker
