import StreamRpc.Proofs.Value.Writing

/-! # The slots of a value

A traversal visits the slots in the order in which `Value.slots` lists them, and changes nothing
but the slots.

* `Value.run_traverse`   what a traversal does is what visiting the slots does
* `Value.map_traverse`   and apart from the slots the value stays the same
-/

namespace StreamRpc.Value

variable {σ τ υ S : Type}

/-! ## Replacing slots -/

/-- A traversal of a list without effects is a map. -/
private theorem traverseItems_pure (f : σ → τ) (items : List (Value σ)) :
    Id.run (traverseItems (fun slot => pure (f slot)) items) = items.map (map f) := by
  induction items with
  | nil => rfl
  | cons v items ih =>
    rw [List.map_cons, ← ih]
    rfl

/-- A traversal of a record without effects is a map. -/
theorem traverseFields_pure (f : σ → τ) (fields : List (String × Value σ)) :
    Id.run (traverseFields (fun slot => pure (f slot)) fields) =
      fields.map fun (name, v) => (name, v.map f) := by
  induction fields with
  | nil => rfl
  | cons field fields ih =>
    rw [List.map_cons, ← ih]
    rfl

/-- Mapping a list maps its items. -/
@[simp] theorem map_list (f : σ → τ) (items : List (Value σ)) :
    (list items).map f = list (items.map (map f)) := by
  rw [← traverseItems_pure]
  rfl

/-- Mapping a record maps its fields. -/
@[simp] theorem map_record (f : σ → τ) (fields : List (String × Value σ)) :
    (record fields).map f = record (fields.map fun (name, v) => (name, v.map f)) := by
  rw [← traverseFields_pure]
  rfl

/-- Mapping a present value maps the value. -/
@[simp] theorem map_present (f : σ → τ) (v : Value σ) : (present v).map f = present (v.map f) := rfl

/-- Mapping a variant maps its payload. -/
@[simp] theorem map_variant (f : σ → τ) (name : String) (v : Value σ) :
    (variant name v).map f = variant name (v.map f) := rfl

mutual

/-- Replacing every slot by itself changes nothing. -/
theorem map_id (v : Value σ) : v.map id = v := by
  cases v with
  | list items => rw [map_list, mapItems_id items]
  | record fields => rw [map_record, mapFields_id fields]
  | present v => rw [map_present, map_id v]
  | variant name v => rw [map_variant, map_id v]
  | _ => rfl

/-- Mapping the identity changes no item. -/
private theorem mapItems_id (items : List (Value σ)) : items.map (map id) = items := by
  cases items with
  | nil => rfl
  | cons v items => rw [List.map_cons, map_id v, mapItems_id items]

/-- Mapping the identity changes no field. -/
private theorem mapFields_id (fields : List (String × Value σ)) :
    (fields.map fun (name, v) => (name, v.map id)) = fields := by
  cases fields with
  | nil => rfl
  | cons field fields =>
    obtain ⟨name, v⟩ := field
    simp only [List.map_cons, map_id v]
    rw [mapFields_id fields]

end

mutual

/-- Replacing slots keeps their order. -/
theorem slots_map (f : σ → τ) (v : Value σ) : (v.map f).slots = v.slots.map f := by
  cases v with
  | list items => rw [map_list, slots, slots, slotsOfItems_map f items]
  | record fields => rw [map_record, slots, slots, slotsOfFields_map f fields]
  | present v => rw [map_present, slots, slots, slots_map f v]
  | variant name v => rw [map_variant, slots, slots, slots_map f v]
  | _ => rfl

/-- The slots of mapped items are the mapped slots. -/
private theorem slotsOfItems_map (f : σ → τ) (items : List (Value σ)) :
    slotsOfItems (items.map (map f)) = (slotsOfItems items).map f := by
  cases items with
  | nil => rfl
  | cons v items =>
    rw [List.map_cons, slotsOfItems, slotsOfItems, List.map_append, slots_map f v,
      slotsOfItems_map f items]

/-- The slots of mapped fields are the mapped slots. -/
private theorem slotsOfFields_map (f : σ → τ) (fields : List (String × Value σ)) :
    slotsOfFields (fields.map fun (name, v) => (name, v.map f)) = (slotsOfFields fields).map f := by
  cases fields with
  | nil => rfl
  | cons field fields =>
    obtain ⟨name, v⟩ := field
    rw [List.map_cons, slotsOfFields, slotsOfFields, List.map_append, slots_map f v,
      slotsOfFields_map f fields]

end

mutual

/-- Replacing slots keeps the levels. -/
theorem depth_map (f : σ → τ) (v : Value σ) : (v.map f).depth = v.depth := by
  cases v with
  | list items => rw [map_list, depth, depth, depthOfItems_map f items]
  | record fields => rw [map_record, depth, depth, depthOfFields_map f fields]
  | present v => rw [map_present, depth, depth, depth_map f v]
  | variant name v => rw [map_variant, depth, depth, depth_map f v]
  | _ => rfl

/-- Mapping slots changes no item's depth. -/
private theorem depthOfItems_map (f : σ → τ) (items : List (Value σ)) :
    depthOfItems (items.map (map f)) = depthOfItems items := by
  cases items with
  | nil => rfl
  | cons v items =>
    rw [List.map_cons, depthOfItems, depthOfItems, depth_map f v, depthOfItems_map f items]

/-- Mapping slots changes no field's depth. -/
private theorem depthOfFields_map (f : σ → τ) (fields : List (String × Value σ)) :
    depthOfFields (fields.map fun (name, v) => (name, v.map f)) = depthOfFields fields := by
  cases fields with
  | nil => rfl
  | cons field fields =>
    obtain ⟨name, v⟩ := field
    rw [List.map_cons, depthOfFields, depthOfFields, depth_map f v, depthOfFields_map f fields]

end

/-! ## Values without slots -/

mutual

/-- A value that never had slots has none after it was given any. -/
theorem toPlain_widen (v : PlainValue) : (widen v : Value σ).toPlain = .ok v := by
  -- A plain value has no slot: the stream case is empty.
  cases v with
  | list items =>
    unfold widen toPlain
    rw [map_list, traverse]
    exact bind_eq_ok_iff.2 ⟨items, toPlainItems_widen items, rfl⟩
  | record fields =>
    unfold widen toPlain
    rw [map_record, traverse]
    exact bind_eq_ok_iff.2 ⟨fields, toPlainFields_widen fields, rfl⟩
  | present v => exact bind_eq_ok_iff.2 ⟨v, toPlain_widen v, rfl⟩
  | variant name v => exact bind_eq_ok_iff.2 ⟨v, toPlain_widen v, rfl⟩
  | stream slot => exact slot.elim
  | _ => rfl

/-- Widened items are read back as plain. -/
private theorem toPlainItems_widen (items : List PlainValue) :
    traverseItems (fun slot : σ => (throw slot : Except σ Empty)) (items.map (map Empty.elim)) =
      .ok items := by
  cases items with
  | nil => rfl
  | cons v items =>
    rw [List.map_cons, traverseItems]
    exact bind_eq_ok_iff.2 ⟨v, toPlain_widen v,
      bind_eq_ok_iff.2 ⟨items, toPlainItems_widen items, rfl⟩⟩

/-- Widened fields are read back as plain. -/
private theorem toPlainFields_widen (fields : List (String × PlainValue)) :
    traverseFields (fun slot : σ => (throw slot : Except σ Empty))
      (fields.map fun (name, v) => (name, v.map Empty.elim)) = .ok fields := by
  cases fields with
  | nil => rfl
  | cons field fields =>
    obtain ⟨name, v⟩ := field
    rw [List.map_cons, traverseFields]
    exact bind_eq_ok_iff.2 ⟨v, toPlain_widen v,
      bind_eq_ok_iff.2 ⟨fields, toPlainFields_widen fields, rfl⟩⟩

end

/-! ## Visiting slots -/

/-- Two stateful steps run one after the other. -/
theorem run_bind {α β : Type} (x : StateM S α) (f : α → StateM S β) (s : S) :
    StateT.run (x >>= f) s = StateT.run (f (StateT.run x s).1) (StateT.run x s).2 := rfl

/-- `pure` leaves the state as it is. -/
theorem run_pure {α : Type} (a : α) (s : S) : StateT.run (pure a : StateM S α) s = (a, s) := rfl

mutual

/-- What a traversal does is what visiting the slots does, and it puts there what that gives. -/
theorem run_traverse (f : σ → StateM S τ) (v : Value σ) (s : S) :
    StateT.run (v.slots.mapM f) s =
      ((StateT.run (v.traverse f) s).1.slots, (StateT.run (v.traverse f) s).2) := by
  -- The slots are met in the order in which they stand.
  cases v with
  | list items => exact run_traverseItems f items s
  | record fields => exact run_traverseFields f fields s
  | present v => exact run_traverse f v s
  | variant name v => exact run_traverse f v s
  | stream slot =>
    rw [slots, traverse, List.mapM_cons, List.mapM_nil]
    rfl
  | _ => rfl

/-- Traversing a list visits its slots in order. -/
private theorem run_traverseItems (f : σ → StateM S τ) (items : List (Value σ)) (s : S) :
    StateT.run ((slotsOfItems items).mapM f) s =
      (slotsOfItems (StateT.run (traverseItems f items) s).1,
        (StateT.run (traverseItems f items) s).2) := by
  cases items with
  | nil => rfl
  | cons v items =>
    have hv := run_traverse f v s
    have hi := run_traverseItems f items (StateT.run (v.traverse f) s).2
    rw [slotsOfItems, traverseItems, List.mapM_append]
    simp only [run_bind, run_pure, hv, hi, slotsOfItems]

/-- Traversing a record visits the slots of its fields in order. -/
private theorem run_traverseFields (f : σ → StateM S τ) (fields : List (String × Value σ)) (s : S) :
    StateT.run ((slotsOfFields fields).mapM f) s =
      (slotsOfFields (StateT.run (traverseFields f fields) s).1,
        (StateT.run (traverseFields f fields) s).2) := by
  cases fields with
  | nil => rfl
  | cons field fields =>
    obtain ⟨name, v⟩ := field
    have hv := run_traverse f v s
    have hi := run_traverseFields f fields (StateT.run (v.traverse f) s).2
    rw [slotsOfFields, traverseFields, List.mapM_append]
    simp only [run_bind, run_pure, hv, hi, slotsOfFields]

end

/-- A list traversed has as many results as elements. -/
private theorem length_mapM {α β : Type} (f : α → StateM S β) (as : List α) (s : S) :
    (StateT.run (as.mapM f) s).1.length = as.length := by
  induction as generalizing s with
  | nil => rfl
  | cons a as ih =>
    rw [List.mapM_cons]
    simp only [run_bind, run_pure, List.length_cons, ih]

/-- A traversal keeps the number of slots. -/
private theorem length_slots_traverse (f : σ → StateM S τ) (v : Value σ) (s : S) :
    (StateT.run (v.traverse f) s).1.slots.length = v.slots.length := by
  have h := length_mapM f v.slots s
  rwa [run_traverse] at h

mutual

/-- A traversal changes the slots and nothing else. -/
theorem map_traverse (f : σ → StateM S τ) (g : τ → υ) (h : σ → υ) (v : Value σ) (s : S)
    (hs : ((StateT.run (v.traverse f) s).1.slots).map g = v.slots.map h) :
    (StateT.run (v.traverse f) s).1.map g = v.map h := by
  -- The structure is the same on both sides; at a slot the assumption says the rest.
  cases v with
  | list items =>
    rw [map_list, ← mapItems_traverse f g h items s hs]
    exact map_list g _
  | record fields =>
    rw [map_record, ← mapFields_traverse f g h fields s hs]
    exact map_record g _
  | present v => exact congrArg present (map_traverse f g h v s hs)
  | variant name v => exact congrArg (variant name) (map_traverse f g h v s hs)
  | stream slot =>
    have hslot : [g (StateT.run (f slot) s).1] = [h slot] := hs
    injection hslot with hslot
    exact congrArg stream hslot
  | _ => rfl

/-- If the slots of a traversed list agree under `g` with the old ones under `h`, so do its items.
-/
private theorem mapItems_traverse (f : σ → StateM S τ) (g : τ → υ) (h : σ → υ)
    (items : List (Value σ))
    (s : S) (hs : (slotsOfItems (StateT.run (traverseItems f items) s).1).map g =
      (slotsOfItems items).map h) :
    (StateT.run (traverseItems f items) s).1.map (map g) = items.map (map h) := by
  cases items with
  | nil => rfl
  | cons v items =>
    simp only [traverseItems, run_bind, run_pure, slotsOfItems, List.map_append] at hs ⊢
    -- The assumption is about the appended lists and has to be cut at the right place.
    have hlen : ((StateT.run (v.traverse f) s).1.slots.map g).length =
        (v.slots.map h).length := by
      rw [List.length_map, List.length_map, length_slots_traverse]
    have ⟨hv, hi⟩ := List.append_inj hs hlen
    rw [List.map_cons, List.map_cons, map_traverse f g h v s hv, mapItems_traverse f g h items _ hi]

/-- If the slots of a traversed record agree under `g` with the old ones under `h`, so do its
fields. -/
private theorem mapFields_traverse (f : σ → StateM S τ) (g : τ → υ) (h : σ → υ)
    (fields : List (String × Value σ)) (s : S)
    (hs : (slotsOfFields (StateT.run (traverseFields f fields) s).1).map g =
      (slotsOfFields fields).map h) :
    ((StateT.run (traverseFields f fields) s).1.map fun (name, v) => (name, v.map g)) =
      fields.map fun (name, v) => (name, v.map h) := by
  cases fields with
  | nil => rfl
  | cons field fields =>
    obtain ⟨name, v⟩ := field
    simp only [traverseFields, run_bind, run_pure, slotsOfFields, List.map_append] at hs ⊢
    have hlen : ((StateT.run (v.traverse f) s).1.slots.map g).length =
        (v.slots.map h).length := by
      rw [List.length_map, List.length_map, length_slots_traverse]
    -- As with items, the lists are cut where the first field ends.
    have ⟨hv, hi⟩ := List.append_inj hs hlen
    simp only [List.map_cons]
    rw [map_traverse f g h v s hv, mapFields_traverse f g h fields _ hi]

end

end StreamRpc.Value
