import StreamRpc.Stream.Blueprint

/-! # Sources have one owner

Nothing refers to a source twice.  A new source belongs to whoever made it; put into an item, it
belongs to the source that holds the item; and it comes out again when the item is asked for.

* `Sources.Owned`         these are owned outside, and the sources hold what else there is
* `Sources.Owned.build`   making the sources in a value
* `Sources.Owned.poll`    asking for an item
* `Sources.Owned.push`    putting an item into a channel
-/

namespace StreamRpc

/-- Putting an entry into a table makes it heavier by the weight of the entry, less what it
    replaces. -/
theorem weight_insert {β : Type} (f : β → Nat) (t : Std.ExtTreeMap Nat β) (k : Nat) (v : β) :
    weight f (t.insert k v) = f v + weight f (t.erase k) := by
  have herase : (t.insert k v).erase k = t.erase k := by
    refine Std.ExtTreeMap.ext_getElem? fun i => ?_
    rw [Std.ExtTreeMap.getElem?_erase, Std.ExtTreeMap.getElem?_erase,
      Std.ExtTreeMap.getElem?_insert]
    split
    · rfl
    · rfl
  rw [weight_erase f Std.ExtTreeMap.getElem?_insert_self, herase]

/-- Erasing a key that is not there changes nothing. -/
theorem erase_of_none {β : Type} {t : Std.ExtTreeMap Nat β} {k : Nat} (h : t[k]? = none) :
    t.erase k = t := by
  refine Std.ExtTreeMap.ext_getElem? fun i => ?_
  rw [Std.ExtTreeMap.getElem?_erase]
  split
  · next hk => rw [← Std.LawfulEqOrd.eq_of_compare hk, h]
  · rfl

/-- The sources in what asking for an item came to. -/
def Poll.sources : Poll → List SourceRef
  | item e => e.sources
  | _ => []

namespace Sources

/-- How often there is a source in the items that sources still hold. -/
def holds (s : Sources) (r : SourceRef) : Nat :=
  weight (fun source => source.held.count r) s.table

/-- These sources are owned outside of the table.  No source is there twice, and none has a key that
    was not given out. -/
structure Owned (owned : List SourceRef) (s : Sources) : Prop where
  keyed : ∀ (k : Nat) (source : Source), s.table[k]? = some source → k < s.nextKey
  fresh : ∀ r : SourceRef, s.nextKey ≤ r.key → owned.count r + s.holds r = 0
  once : ∀ r : SourceRef, owned.count r + s.holds r ≤ 1

/-- Without sources nothing is owned. -/
theorem owned_empty : Owned [] {} where
  keyed k source h := by simp at h
  fresh r _ := rfl
  once r := Nat.zero_le 1

variable {owned owned' : List SourceRef} {s : Sources}

/-- No source has two owners. -/
theorem Owned.nodup (h : Owned owned s) : owned.Nodup :=
  List.nodup_iff_count.2 fun r => by
    have := h.once r
    omega

/-- Some sources are given up. -/
private theorem Owned.less (h : Owned owned s) (less : ∀ r, owned'.count r ≤ owned.count r) :
    Owned owned' s where
  keyed := h.keyed
  -- To own fewer sources is always allowed.
  fresh r hr := by
    have := h.fresh r hr
    have := less r
    omega
  once r := by
    have := h.once r
    have := less r
    omega

/-- A source comes to hold other items. -/
private theorem Owned.set (h : Owned owned s) {r : SourceRef} {old new : Source}
    (found : s.table[r.key]? = some old)
    (held : ∀ q, owned'.count q + new.held.count q ≤ owned.count q + old.held.count q) :
    Owned owned' (s.set r new) := by
  have holds_eq : ∀ q, owned'.count q + (s.set r new).holds q ≤ owned.count q + s.holds q := by
    intro q
    have hq := held q
    -- The table is weighed without this source, so that both versions of it can be put in.
    have hold := weight_erase (fun source => source.held.count q) found
    have hnew := weight_insert (fun source => source.held.count q) s.table r.key new
    simp only [holds, Sources.set]
    omega
  refine ⟨fun k source hk => ?_, fun q hq => ?_, fun q => ?_⟩
  · simp only [Sources.set, Std.ExtTreeMap.getElem?_insert] at hk
    split at hk
    · next hkey => exact Std.LawfulEqOrd.eq_of_compare hkey ▸ h.keyed _ old found
    · exact h.keyed k source hk
  · have := h.fresh q hq
    have := holds_eq q
    omega
  · have := h.once q
    have := holds_eq q
    omega

/-- A source is made of items, and belongs to whoever made it. -/
theorem Owned.insert (source : Source) (h : Owned (owned ++ source.held) s) :
    Owned (owned ++ [(s.insert source).1]) (s.insert source).2 := by
  have hnone : s.table[s.nextKey]? = none := by
    cases hs : s.table[s.nextKey]? with
    | none => rfl
    | some old => exact absurd (h.keyed _ old hs) (Nat.lt_irrefl _)
  -- What the source holds passes from the owned list into the table.
  have holds_eq : ∀ r, (s.insert source).2.holds r = source.held.count r + s.holds r := by
    intro r
    have := weight_insert (fun source => source.held.count r) s.table s.nextKey source
    rwa [erase_of_none hnone] at this
  refine ⟨fun k old hk => ?_, fun r hr => ?_, fun r => ?_⟩
  · simp only [Sources.insert, Std.ExtTreeMap.getElem?_insert] at hk ⊢
    split at hk
    · next hkey =>
      rw [← Std.LawfulEqOrd.eq_of_compare hkey]
      exact Nat.lt_succ_self _
    · exact Nat.lt_succ_of_lt (h.keyed k old hk)
  · have hr' : s.nextKey + 1 ≤ r.key := hr
    have hne : r ≠ ⟨s.nextKey⟩ := by
      rintro rfl
      exact absurd hr' (Nat.not_succ_le_self _)
    have hold := h.fresh r (by omega)
    rw [List.count_append] at hold ⊢
    have : List.count r [(s.insert source).1] = 0 :=
      List.count_eq_zero.2 fun hmem => hne (List.mem_singleton.1 hmem)
    rw [holds_eq]
    omega
  · have hold := h.once r
    rw [List.count_append] at hold ⊢
    rw [holds_eq]
    -- The new reference was not owned by anybody before.
    by_cases hr : r = ⟨s.nextKey⟩
    · have hfresh := h.fresh r (Nat.le_of_eq (congrArg SourceRef.key hr.symm))
      rw [List.count_append] at hfresh
      have : List.count r [(s.insert source).1] ≤ 1 := List.count_le_length
      omega
    · have : List.count r [(s.insert source).1] = 0 :=
        List.count_eq_zero.2 fun hmem => hr (List.mem_singleton.1 hmem)
      omega

/-- Dropping sources gives up what they hold. -/
theorem Owned.dropAll (h : Owned owned s) (rs : List SourceRef) : Owned owned (s.dropAll rs) := by
  induction s, rs using dropAll_induct with
  | nil s =>
    rw [Sources.dropAll]
    exact h
  | absent s q rs hq ih =>
    rw [dropAll_of_absent hq]
    exact ih h
  | found s q rs source hq ih =>
    rw [dropAll_of_found hq]
    -- What the source held is held by nobody until it is dropped in turn.
    have holds_le : ∀ r, holds { s with table := s.table.erase q.key } r ≤ s.holds r := by
      intro r
      have := weight_erase (fun source => source.held.count r) hq
      simp only [holds]
      omega
    -- Owners and holders can only have got fewer.
    refine ih ⟨fun k other hk => ?_, fun r hr => ?_, fun r => ?_⟩
    · simp only [Std.ExtTreeMap.getElem?_erase] at hk
      split at hk
      · cases hk
      · exact h.keyed k other hk
    · have := h.fresh r hr
      have := holds_le r
      omega
    · have := h.once r
      have := holds_le r
      omega

/-- What a source yields, it held. -/
theorem Owned.poll (h : Owned owned s) (r : SourceRef) :
    Owned (owned ++ (s.poll r).1.sources) (s.poll r).2 := by
  have hsame : Owned (owned ++ []) s := by rwa [List.append_nil]
  -- Each kind of source has one way to yield, and ways to yield nothing.
  unfold Sources.poll
  split
  · exact hsame
  · exact hsame
  · next e items hr =>
    refine h.set hr fun q => ?_
    simp only [Poll.sources, Source.held, List.flatMap_cons, List.count_append]
    omega
  · next hr =>
    split
    · exact h.set hr fun q => by simp [Poll.sources, Emission.sources, Source.held, Value.slots]
    · exact hsame
  · exact hsame
  -- What a poll gives out is taken from what the source holds.
  · next v buffer hr =>
    refine h.set hr fun q => ?_
    simp only [Poll.sources, Emission.sources, Source.held, List.flatMap_cons,
      Notification.sources, List.count_append]
    omega
  · next hr =>
    refine h.set hr fun q => ?_
    simp [Poll.sources, Emission.sources, Source.held, Notification.sources]
  · next hr =>
    refine h.set hr fun q => ?_
    simp [Poll.sources, Source.held, Notification.sources]
  · next hr =>
    split
    · exact hsame
    · exact h.set hr fun q => by simp [Poll.sources, Source.held]

/-- An item belongs to the channel that it is put into. -/
theorem Owned.push {n : Notification ServerValue} (h : Owned (owned ++ n.sources) s)
    (r : SourceRef) : Owned owned (s.push r n).2 := by
  unfold Sources.push
  split
  -- What is pushed goes into the buffer, or is dropped with all it holds.
  · next buffer ended hr =>
    refine h.set hr fun q => ?_
    simp only [Source.held, List.flatMap_append, List.flatMap_cons, List.flatMap_nil,
      List.append_nil, List.count_append]
    omega
  · refine Owned.dropAll (h.less fun q => ?_) _
    rw [List.count_append]
    omega

/-- The publishers own nothing. -/
theorem Owned.withPublishers (h : Owned owned s) (publishers : List (Option SourceRef)) :
    Owned owned { s with publishers } :=
  ⟨h.keyed, h.fresh, h.once⟩

/-- A published value's sources pass to the channel it is pushed to. -/
theorem Owned.publish {v : ServerValue} (h : Owned (owned ++ v.slots) s) (p : PublisherId) :
    Owned owned (s.publish p v).2 := by
  unfold Sources.publish
  split
  · refine Owned.dropAll (h.less fun q => ?_) _
    rw [List.count_append]
    omega
  · next r _ => exact Owned.push h r

/-- A terminal that carries no sources changes no owner. -/
theorem Owned.finish {n : Notification ServerValue} (h : Owned owned s) (last : n.sources = [])
    (p : PublisherId) : Owned owned (s.finish p n).2 := by
  unfold Sources.finish
  split
  · exact h
  · next r _ =>
    have hpushed : Owned owned (s.push r n).2 := by
      refine Owned.push ?_ r
      rwa [last, List.append_nil]
    exact hpushed.withPublishers _

end Sources

namespace Blueprint

open Sources (Owned)

mutual

/-- A source that is made belongs to whoever made it. -/
private theorem owned_build (b : Blueprint) {owned : List SourceRef} {s : Sources}
    (h : Owned owned s) :
    Owned (owned ++ [(build b s).1]) (build b s).2 := by
  cases b with
  | listed items => exact Owned.insert (.listed _) (owned_buildItems items h)
  | counting stop =>
    refine Owned.insert (.counting 0 stop) ?_
    rwa [Source.held, List.append_nil]
  -- A channel is built empty; its publishers hold no source.
  | channel =>
    have hinsert : Owned (owned ++ [(s.insert (.channel [] false)).1])
        (s.insert (.channel [] false)).2 := by
      refine Owned.insert (.channel [] false) ?_
      rwa [Source.held, List.flatMap_nil, List.append_nil]
    exact hinsert.withPublishers _

/-- Building a list's emissions gives each new source one owner. -/
private theorem owned_buildItems (items : List (Option StreamId × Except Failure (Value Blueprint)))
    {owned : List SourceRef} {s : Sources} (h : Owned owned s) :
    Owned (owned ++ (buildItems items s).1.flatMap Emission.sources) (buildItems items s).2 := by
  cases items with
  | nil =>
    rw [buildItems, List.flatMap_nil, List.append_nil]
    exact h
  | cons item items =>
    obtain ⟨retires, outcome⟩ := item
    cases outcome with
    | error f =>
      simp only [buildItems, List.flatMap_cons, Emission.sources, List.nil_append]
      exact owned_buildItems items h
    -- The sources of the first item are built first, and the others come on top of them.
    | ok v =>
      simp only [buildItems, List.flatMap_cons, Emission.sources]
      rw [← List.append_assoc]
      exact owned_buildItems items (owned_buildValue v h)

/-- Building a value gives each new source one owner. -/
private theorem owned_buildValue (v : DraftValue) {owned : List SourceRef} {s : Sources}
    (h : Owned owned s) : Owned (owned ++ (buildValue v s).1.slots) (buildValue v s).2 := by
  have hnone : Owned (owned ++ []) s := by rwa [List.append_nil]
  cases v with
  | list items => exact owned_buildValues items h
  | record fields => exact owned_buildFields fields h
  | present v => exact owned_buildValue v h
  | variant name v => exact owned_buildValue v h
  | stream b => exact owned_build b h
  | _ => exact hnone

/-- Building values gives each new source one owner. -/
private theorem owned_buildValues (vs : List DraftValue) {owned : List SourceRef} {s : Sources}
    (h : Owned owned s) :
    Owned (owned ++ Value.slotsOfItems (buildValues vs s).1) (buildValues vs s).2 := by
  cases vs with
  | nil =>
    rw [buildValues, Value.slotsOfItems, List.append_nil]
    exact h
  | cons v vs =>
    simp only [buildValues, Value.slotsOfItems]
    rw [← List.append_assoc]
    -- The sources come in the order of the values.
    exact owned_buildValues vs (owned_buildValue v h)

/-- Building fields gives each new source one owner. -/
private theorem owned_buildFields (fields : List (String × DraftValue)) {owned : List SourceRef}
    {s : Sources} (h : Owned owned s) :
    Owned (owned ++ Value.slotsOfFields (buildFields fields s).1) (buildFields fields s).2 := by
  cases fields with
  | nil =>
    rw [buildFields, Value.slotsOfFields, List.append_nil]
    exact h
  | cons field fields =>
    obtain ⟨name, v⟩ := field
    simp only [buildFields, Value.slotsOfFields]
    rw [← List.append_assoc]
    exact owned_buildFields fields (owned_buildValue v h)

end

end Blueprint

/-- The sources in a value belong to whoever made the value. -/
theorem Sources.Owned.build {owned : List SourceRef} {s : Sources} (h : s.Owned owned)
    (v : DraftValue) : (s.build v).2.Owned (owned ++ (s.build v).1.slots) :=
  Blueprint.owned_buildValue v h

end StreamRpc
