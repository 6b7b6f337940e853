import StreamRpc.Proofs.Value.Plain

/-! # Laws of traversals

A traversal calls a function on the slots of a value in the order in which `Value.slots` lists
them, and stops where the function fails.  If it never does, the result is the same value, but for
the slots, which hold the answers in that order.  The function may keep a state; what it does
besides answering is what it would do if it were called on the slots one by one.

* `AnswersInTurn`          a function that is called in turn and never fails
* `noting`                 a function that remembers what it was called on
* `Value.SameShape`        values that differ in their slots alone
* `Value.visits_traverse`  a traversal visits the slots in turn, up to the first failure
* `slots_visited_in_turn`  traversals, replacing slots and doing without them
-/

namespace StreamRpc

variable {σ τ υ ε S α β : Type}

/-! ## Calling a function in turn -/

/-- Called on these slots one after another, the function gives these answers. -/
inductive AnswersInTurn (f : σ → ExceptT ε (StateM S) τ) : S → List σ → List τ → S → Prop where
  | nil (s : S) : AnswersInTurn f s [] [] s
  | cons {s s₁ s₂ : S} {slot : σ} {slots : List σ} {t : τ} {ts : List τ}
      (first : (f slot).run.run s = (.ok t, s₁)) (others : AnswersInTurn f s₁ slots ts s₂) :
      AnswersInTurn f s (slot :: slots) (t :: ts) s₂

namespace AnswersInTurn

variable {f : σ → ExceptT ε (StateM S) τ} {s s₁ s₂ : S} {slots slots' : List σ} {ts ts' : List τ}

/-- Answers to two lists of slots in a row are answers to both. -/
private theorem append (h : AnswersInTurn f s slots ts s₁) (h' : AnswersInTurn f s₁ slots' ts' s₂) :
    AnswersInTurn f s (slots ++ slots') (ts ++ ts') s₂ := by
  induction h with
  | nil s => exact h'
  | cons first _ ih => exact .cons first (ih h')

/-- There is one answer to each slot. -/
private theorem length (h : AnswersInTurn f s slots ts s₁) : ts.length = slots.length := by
  induction h with
  | nil s => rfl
  | cons _ _ ih => rw [List.length_cons, List.length_cons, ih]

end AnswersInTurn

/-- The same function, which also notes what it is called on, in order. -/
def noting (f : σ → ExceptT ε (StateM S) τ) (slot : σ) : ExceptT ε (StateM (S × List σ)) τ :=
  ExceptT.mk fun (s, called) =>
    let (answer, s') := (f slot).run.run s
    (answer, (s', called ++ [slot]))

/-- A step that succeeds passes its result and state on. -/
private theorem run_bind_of_ok {x : ExceptT ε (StateM S) α} {y : α → ExceptT ε (StateM S) β}
    {s s' : S}
    {a : α} (h : x.run.run s = (.ok a, s')) : (x >>= y).run.run s = (y a).run.run s' := by
  simp only [ExceptT.run_bind, StateT.run_bind, h]
  rfl

/-- A step that fails ends the computation in its state. -/
private theorem run_bind_of_error {x : ExceptT ε (StateM S) α} {y : α → ExceptT ε (StateM S) β}
    {s s' : S}
    {e : ε} (h : x.run.run s = (.error e, s')) : (x >>= y).run.run s = (.error e, s') := by
  simp only [ExceptT.run_bind, StateT.run_bind, h]
  rfl

/-- A computation that calls `f` on these slots in turn and ends where it fails; `x'` is the
    computation that calls `noting f` instead.  If `f` never fails, the result goes with the
    answers. -/
def Visits (f : σ → ExceptT ε (StateM S) τ) (slots : List σ) (x : ExceptT ε (StateM S) α)
    (x' : ExceptT ε (StateM (S × List σ)) α) (good : List τ → α → Prop) : Prop :=
  ∀ s called,
    (∃ ts s' a, AnswersInTurn f s slots ts s' ∧ x.run.run s = (.ok a, s') ∧
      x'.run.run (s, called) = (.ok a, (s', called ++ slots)) ∧ good ts a) ∨
    ∃ before slot after ts s₁ e s₂, slots = before ++ slot :: after ∧
      AnswersInTurn f s before ts s₁ ∧ (f slot).run.run s₁ = (.error e, s₂) ∧
      x.run.run s = (.error e, s₂) ∧
      x'.run.run (s, called) = (.error e, (s₂, called ++ (before ++ [slot])))

namespace Visits

variable {f : σ → ExceptT ε (StateM S) τ} {slots slots' : List σ} {x : ExceptT ε (StateM S) α}
  {x' : ExceptT ε (StateM (S × List σ)) α} {y : α → ExceptT ε (StateM S) β}
  {y' : α → ExceptT ε (StateM (S × List σ)) β} {good : List τ → α → Prop}
  {goodBoth : List τ → β → Prop}

/-- `pure` visits no slot. -/
private theorem pure {a : α} (ha : good [] a) :
    Visits f [] (Pure.pure a : ExceptT ε (StateM S) α) (Pure.pure a) good := by
  intro s called
  exact .inl ⟨[], s, a, .nil s, rfl, by rw [List.append_nil]; rfl, ha⟩

/-- A call visits its one slot. -/
private theorem call (f : σ → ExceptT ε (StateM S) τ) (slot : σ) :
    Visits f [slot] (f slot) (noting f slot) fun ts t => ts = [t] := by
  intro s called
  have hnoting : (noting f slot).run.run (s, called) =
      (((f slot).run.run s).1, (((f slot).run.run s).2, called ++ [slot])) := rfl
  -- Noting the call changes nothing of what it answers.
  cases h : (f slot).run.run s with
  | mk answer s' =>
    rw [h] at hnoting
    cases answer with
    | ok t => exact .inl ⟨[t], s', t, .cons h (.nil s'), rfl, hnoting, rfl⟩
    | error e => exact .inr ⟨[], slot, [], [], s, e, s', rfl, .nil s, h, rfl, hnoting⟩

/-- One computation after another calls the function on the slots of both. -/
private theorem bind (goodAfter : α → List τ → β → Prop) (hx : Visits f slots x x' good)
    (hy : ∀ a, Visits f slots' (y a) (y' a) (goodAfter a))
    (hgood : ∀ ts ts' a b, good ts a → goodAfter a ts' b → goodBoth (ts ++ ts') b) :
    Visits f (slots ++ slots') (x >>= y) (x' >>= y') goodBoth := by
  intro s called
  -- Either the first part visits all its slots, or it stops at one of them.
  rcases hx s called with ⟨ts, s₁, a, hts, hrun, hnoted, ha⟩ |
    ⟨before, slot, after, ts, s₁, e, s₂, rfl, hts, hfail, hrun, hnoted⟩
  · rw [run_bind_of_ok hrun, run_bind_of_ok hnoted]
    rcases hy a s₁ (called ++ slots) with ⟨ts', s₂, b, hts', hrun', hnoted', hb⟩ |
      ⟨before, slot, after, ts', s₂, e, s₃, rfl, hts', hfail, hrun', hnoted'⟩
    · refine .inl ⟨ts ++ ts', s₂, b, hts.append hts', hrun', ?_, hgood _ _ _ _ ha hb⟩
      rw [hnoted', List.append_assoc]
    · refine .inr ⟨slots ++ before, slot, after, ts ++ ts', s₂, e, s₃,
        (List.append_assoc _ _ _).symm, hts.append hts', hfail, hrun', ?_⟩
      rw [hnoted', List.append_assoc, List.append_assoc]
  · -- What comes after a failure is not reached.
    exact .inr ⟨before, slot, after ++ slots', ts, s₁, e, s₂, by simp, hts, hfail,
      run_bind_of_error hrun, run_bind_of_error hnoted⟩

/-- What is made of the result calls the function no more. -/
private theorem wrap {g : α → β} (hx : Visits f slots x x' good)
    (hgood : ∀ ts a, good ts a → goodBoth ts (g a)) :
    Visits f slots (do return g (← x)) (do return g (← x')) goodBoth := by
  rw [← List.append_nil slots]
  refine .bind (fun a ts b => ts = [] ∧ b = g a) hx (fun a => .pure ⟨rfl, rfl⟩) ?_
  rintro ts ts' a b ha ⟨rfl, rfl⟩
  rw [List.append_nil]
  exact hgood ts a ha

end Visits

namespace Value

/-! ## Shapes -/

mutual

/-- The same data in the same places; in the slots there may be anything. -/
def SameShape : Value σ → Value τ → Prop
  | unit, unit => True
  | bool a, bool b => a = b
  | u64 a, u64 b => a = b
  | s64 a, s64 b => a = b
  | f64 a, f64 b => a = b
  | str a, str b => a = b
  | bytes a, bytes b => a = b
  | list as, list bs => SameShapes as bs
  | record as, record bs => SameFields as bs
  | absent, absent => True
  | present a, present b => SameShape a b
  | variant m a, variant n b => m = n ∧ SameShape a b
  | stream _, stream _ => True
  | _, _ => False

/-- `SameShape` of items pairwise. -/
def SameShapes : List (Value σ) → List (Value τ) → Prop
  | [], [] => True
  | a :: as, b :: bs => SameShape a b ∧ SameShapes as bs
  | _, _ => False

/-- `SameShape` of fields pairwise, under the same names. -/
def SameFields : List (String × Value σ) → List (String × Value τ) → Prop
  | [], [] => True
  | (m, a) :: as, (n, b) :: bs => (m = n ∧ SameShape a b) ∧ SameFields as bs
  | _, _ => False

end

mutual

/-- A traversal visits the slots in turn and puts the answers into their places. -/
theorem visits_traverse (f : σ → ExceptT ε (StateM S) τ) (v : Value σ) :
    Visits f v.slots (v.traverse f) (v.traverse (noting f))
      fun ts w => v.SameShape w ∧ w.slots = ts := by
  -- `traverse` and `slots` recur alike, so that each case is the one of the parts, wrapped again.
  cases v with
  | list items => exact (visits_traverseItems f items).wrap fun ts ws h => h
  | record fields => exact (visits_traverseFields f fields).wrap fun ts ws h => h
  | present v => exact (visits_traverse f v).wrap fun ts w h => h
  | variant name v => exact (visits_traverse f v).wrap fun ts w h => ⟨⟨rfl, h.1⟩, h.2⟩
  | stream slot => exact (Visits.call f slot).wrap fun ts t h => ⟨trivial, h.symm⟩
  | unit | absent => exact .pure ⟨trivial, rfl⟩
  | _ => exact .pure ⟨rfl, rfl⟩

/-- Traversing a list visits its slots in order and keeps its shape. -/
private theorem visits_traverseItems (f : σ → ExceptT ε (StateM S) τ) (items : List (Value σ)) :
    Visits f (slotsOfItems items) (traverseItems f items) (traverseItems (noting f) items)
      fun ts ws => SameShapes items ws ∧ slotsOfItems ws = ts := by
  cases items with
  | nil => exact .pure ⟨trivial, rfl⟩
  | cons v items =>
    -- What the others give is told apart from the first item `w` in front of it.
    refine .bind (fun w ts ws => ∃ us, ws = w :: us ∧ SameShapes items us ∧ slotsOfItems us = ts)
      (visits_traverse f v) (fun w => ?_) ?_
    · exact (visits_traverseItems f items).wrap fun ts us h => ⟨us, rfl, h⟩
    · rintro ts ts' w ws ⟨hw, rfl⟩ ⟨us, rfl, hus, rfl⟩
      exact ⟨⟨hw, hus⟩, rfl⟩

/-- Traversing a record visits its slots in order and keeps its shape. -/
private theorem visits_traverseFields (f : σ → ExceptT ε (StateM S) τ)
    (fields : List (String × Value σ)) :
    Visits f (slotsOfFields fields) (traverseFields f fields) (traverseFields (noting f) fields)
      fun ts ws => SameFields fields ws ∧ slotsOfFields ws = ts := by
  cases fields with
  | nil => exact .pure ⟨trivial, rfl⟩
  | cons field fields =>
    obtain ⟨name, v⟩ := field
    refine .bind (fun w ts ws => ∃ us, ws = (name, w) :: us ∧
      SameFields fields us ∧ slotsOfFields us = ts) (visits_traverse f v) (fun w => ?_) ?_
    · exact (visits_traverseFields f fields).wrap fun ts us h => ⟨us, rfl, h⟩
    · rintro ts ts' w ws ⟨hw, rfl⟩ ⟨us, rfl, hus, rfl⟩
      exact ⟨⟨⟨rfl, hw⟩, hus⟩, rfl⟩

end

/-! ## Replacing slots -/

mutual

/-- A mapped value has the same shape. -/
private theorem sameShape_map (f : σ → τ) (v : Value σ) : v.SameShape (v.map f) := by
  cases v with
  | list items =>
    rw [map_list]
    exact sameShapes_map f items
  | record fields =>
    rw [map_record]
    exact sameFields_map f fields
  | present v => exact sameShape_map f v
  | variant name v => exact ⟨rfl, sameShape_map f v⟩
  | unit | absent | stream slot => exact trivial
  | _ => exact rfl

/-- Mapped items have the same shapes. -/
private theorem sameShapes_map (f : σ → τ) (items : List (Value σ)) :
    SameShapes items (items.map (map f)) := by
  cases items with
  | nil => exact trivial
  | cons v items => exact ⟨sameShape_map f v, sameShapes_map f items⟩

/-- Mapped fields have the same names and shapes. -/
private theorem sameFields_map (f : σ → τ) (fields : List (String × Value σ)) :
    SameFields fields (fields.map fun (name, v) => (name, v.map f)) := by
  cases fields with
  | nil => exact trivial
  | cons field fields => exact ⟨⟨rfl, sameShape_map f field.2⟩, sameFields_map f fields⟩

end

mutual

/-- Replacing slots twice is replacing them once. -/
private theorem map_map (f : σ → τ) (g : τ → υ) (v : Value σ) :
    (v.map f).map g = v.map (g ∘ f) := by
  cases v with
  | list items => rw [map_list, map_list, map_list, mapItems_map f g items]
  | record fields => rw [map_record, map_record, map_record, mapFields_map f g fields]
  | present v => rw [map_present, map_present, map_present, map_map f g v]
  | variant name v => rw [map_variant, map_variant, map_variant, map_map f g v]
  | _ => rfl

/-- Mapping items twice is mapping them by the composition. -/
private theorem mapItems_map (f : σ → τ) (g : τ → υ) (items : List (Value σ)) :
    (items.map (map f)).map (map g) = items.map (map (g ∘ f)) := by
  cases items with
  | nil => rfl
  | cons v items =>
    rw [List.map_cons, List.map_cons, List.map_cons, map_map f g v, mapItems_map f g items]

/-- Mapping fields twice is mapping them by the composition. -/
private theorem mapFields_map (f : σ → τ) (g : τ → υ) (fields : List (String × Value σ)) :
    ((fields.map fun (name, v) => (name, v.map f)).map fun (name, v) => (name, v.map g)) =
      fields.map fun (name, v) => (name, v.map (g ∘ f)) := by
  cases fields with
  | nil => rfl
  | cons field fields =>
    obtain ⟨name, v⟩ := field
    simp only [List.map_cons, map_map f g v]
    rw [mapFields_map f g fields]

end

/-! ## Doing without slots -/

variable {v : Value σ}

/-- A value converts to the plain values that widen to it. -/
private theorem toPlain_eq_ok_iff {plain : PlainValue} :
    v.toPlain = .ok plain ↔ plain.widen = v := by
  constructor
  · intro h
    have hp := v.purifies_toPlain
    rw [h] at hp
    exact hp.2.symm
  · rintro rfl
    exact toPlain_widen plain

/-- A value converts to a plain one exactly when it holds no slot. -/
private theorem exists_toPlain_iff : (∃ plain, v.toPlain = .ok plain) ↔ v.slots = [] := by
  have hp := v.purifies_toPlain
  cases h : v.toPlain with
  | ok plain =>
    rw [h] at hp
    exact ⟨fun _ => hp.1, fun _ => ⟨plain, rfl⟩⟩
  | error slot =>
    rw [h] at hp
    have hfirst : v.slots.head? = some slot := hp
    exact ⟨fun ⟨_, hok⟩ => (nomatch hok), fun hnone => by rw [hnone] at hfirst; cases hfirst⟩

/-- A conversion fails with the first slot the value holds. -/
private theorem toPlain_eq_error_iff {slot : σ} :
    v.toPlain = .error slot ↔ v.slots.head? = some slot := by
  have hp := v.purifies_toPlain
  -- A value without slots is plain, and the error names the first slot.
  cases h : v.toPlain with
  | ok plain =>
    rw [h] at hp
    exact ⟨fun hno => (nomatch hno), fun hfirst => by rw [hp.1] at hfirst; cases hfirst⟩
  | error slot' =>
    rw [h] at hp
    have hfirst : v.slots.head? = some slot' := hp
    rw [hfirst]
    simp

end Value

/-! ## All together -/

/-- A traversal calls its function on the slots in order.  Either it is answered every time, and the
    result is the same value with the answers in the slots, or it ends with the first failure, and
    the function was called on the slots up to that one and no further.  So replacing slots by
    themselves changes nothing, replacing them twice is replacing them once, and doing without them
    succeeds if there are none, without a change, and fails with the first slot otherwise. -/
theorem slots_visited_in_turn :
    (∀ (σ τ ε S : Type) (f : σ → ExceptT ε (StateM S) τ) (v : Value σ) (s : S),
      (∃ ts s' w, AnswersInTurn f s v.slots ts s' ∧
        (v.traverse f).run.run s = (.ok w, s') ∧
        (v.traverse (noting f)).run.run (s, []) = (.ok w, (s', v.slots)) ∧
        v.SameShape w ∧ w.slots = ts ∧ w.slotCount = v.slotCount) ∨
      ∃ before slot after ts s₁ e s₂, v.slots = before ++ slot :: after ∧
        AnswersInTurn f s before ts s₁ ∧ (f slot).run.run s₁ = (.error e, s₂) ∧
        (v.traverse f).run.run s = (.error e, s₂) ∧
        (v.traverse (noting f)).run.run (s, []) = (.error e, (s₂, before ++ [slot]))) ∧
    (∀ (σ τ : Type) (f : σ → τ) (v : Value σ),
      v.SameShape (v.map f) ∧ (v.map f).slots = v.slots.map f) ∧
    (∀ (σ : Type) (v : Value σ), v.map id = v) ∧
    (∀ (σ τ υ : Type) (f : σ → τ) (g : τ → υ) (v : Value σ),
      (v.map f).map g = v.map (g ∘ f)) ∧
    ∀ (σ : Type) (v : Value σ),
      ((∃ plain, v.toPlain = .ok plain) ↔ v.slots = []) ∧
      (∀ plain, v.toPlain = .ok plain ↔ plain.widen = v) ∧
      ∀ slot, v.toPlain = .error slot ↔ v.slots.head? = some slot := by
  refine ⟨fun σ τ ε S f v s => ?_, fun σ τ f v => ⟨v.sameShape_map f, v.slots_map f⟩,
    fun σ v => v.map_id, fun σ τ υ f g v => v.map_map f g,
    fun σ v => ⟨Value.exists_toPlain_iff, fun plain => Value.toPlain_eq_ok_iff,
      fun slot => Value.toPlain_eq_error_iff⟩⟩
  -- The first conjunct is the visit from an empty note; the others are lemmas of the traversal.
  rcases v.visits_traverse f s [] with ⟨ts, s', w, hts, hrun, hnoted, hshape, hslots⟩ | hfails
  · refine .inl ⟨ts, s', w, hts, hrun, hnoted, hshape, hslots, ?_⟩
    -- There is one answer for each slot.
    rw [Value.slotCount, hslots, hts.length, Value.slotCount]
  · exact .inr hfails

end StreamRpc
