import StreamRpc.Proofs.Value.Slots
import StreamRpc.Server.Serve

/-! # Arguments without streams

Taking the slots out of a value gives the same value, if there are none in it, and else the first of
them in the order in which they are visited.  The arguments of a call are treated alike, one after
another.

* `Value.purifies_toPlain`               of one value
* `plainArgs_of_ok`, `plainArgs_of_error` of the arguments of a call
-/

namespace StreamRpc

variable {σ α β α' β' γ γ' : Type}

/-- Either there are no slots, and this is the same without any, or this is the first slot. -/
def Purifies (slots : List σ) (widen : β → α) (a : α) : Except σ β → Prop
  | .ok b => slots = [] ∧ a = widen b
  | .error slot => slots.head? = some slot

namespace Purifies

variable {slots slots' : List σ} {widen : β → α} {widen' : β' → α'} {widenBoth : γ' → γ}
  {a : α} {a' : α'} {r : Except σ β} {r' : Except σ β'}

/-- A constructor around one traversed part purifies as the part does. -/
private theorem wrap (h : Purifies slots widen a r) {f : β → γ'} {c : γ}
    (hf : ∀ b, a = widen b → c = widenBoth (f b)) :
    Purifies slots widenBoth c (do return f (← r)) := by
  cases r with
  | error slot => exact h
  | ok b => exact ⟨h.1, hf b h.2⟩

/-- What stands first has the first slots. -/
private theorem both (h : Purifies slots widen a r) (h' : Purifies slots' widen' a' r')
    {f : β → β' → γ'} {c : γ}
    (hf : ∀ b b', a = widen b → a' = widen' b' → c = widenBoth (f b b')) :
    Purifies (slots ++ slots') widenBoth c (do let b ← r; return f b (← r')) := by
  -- If the first part holds a source, its first one is the first of both together.
  cases r with
  | error slot =>
    have hfirst : slots.head? = some slot := h
    change (slots ++ slots').head? = some slot
    rw [List.head?_append, hfirst, Option.some_or]
  | ok b =>
    rw [h.1, List.nil_append]
    exact h'.wrap (fun b' hb' => hf b b' h.2 hb')

end Purifies

namespace Value

mutual

/-- A value without slots is got out of a value that has none, and the first slot out of others. -/
theorem purifies_toPlain (v : Value σ) : Purifies v.slots widen v v.toPlain := by
  -- A container is plain when all that is in it is; a stream never is.
  cases v with
  | list items =>
    refine (purifies_items items).wrap fun plain h => ?_
    rw [widen, map_list, h]
    rfl
  | record fields =>
    refine (purifies_fields fields).wrap fun plain h => ?_
    rw [widen, map_record, h]
    rfl
  | present v => exact (purifies_toPlain v).wrap fun plain h => congrArg present h
  | variant name v => exact (purifies_toPlain v).wrap fun plain h => congrArg (variant name) h
  | stream slot => exact rfl
  | _ => exact ⟨rfl, rfl⟩

/-- A list's items are plain when they hold no slot, and the first slot is reported otherwise. -/
private theorem purifies_items (items : List (Value σ)) :
    Purifies (slotsOfItems items) (List.map widen) items
      (traverseItems (fun slot => (throw slot : Except σ Empty)) items) := by
  cases items with
  | nil => exact ⟨rfl, rfl⟩
  | cons v items =>
    refine (purifies_toPlain v).both (purifies_items items) fun plain plains h h' => ?_
    rw [List.map_cons, ← h, ← h']

/-- A record's fields are plain when they hold no slot, and the first slot is reported otherwise. -/
private theorem purifies_fields (fields : List (String × Value σ)) :
    Purifies (slotsOfFields fields) (List.map fun (name, v) => (name, widen v)) fields
      (traverseFields (fun slot => (throw slot : Except σ Empty)) fields) := by
  cases fields with
  | nil => exact ⟨rfl, rfl⟩
  | cons field fields =>
    obtain ⟨name, v⟩ := field
    refine (purifies_toPlain v).both (purifies_fields fields) fun plain plains h h' => ?_
    simp only [List.map_cons, ← h, ← h']

end

end Value

/-- Arguments are plain when they hold no slot, and the first slot is reported otherwise. -/
private theorem purifies_args (args : List WireValue) :
    Purifies (args.flatMap Value.slots) (List.map Value.widen) args (args.mapM Value.toPlain) := by
  induction args with
  | nil => exact ⟨rfl, rfl⟩
  | cons v args ih =>
    rw [List.flatMap_cons, List.mapM_cons]
    refine v.purifies_toPlain.both ih fun plain plains h h' => ?_
    rw [List.map_cons, ← h, ← h']

/-- Arguments that get to a method have no slots, and get there as they are. -/
theorem plainArgs_of_ok {args : List WireValue} {plain : List PlainValue}
    (h : plainArgs args = .ok plain) :
    args.flatMap Value.slots = [] ∧ args = plain.map Value.widen := by
  have hp := purifies_args args
  unfold plainArgs at h
  cases hm : args.mapM Value.toPlain with
  | error found =>
    rw [hm] at h
    cases h
  | ok plain' =>
    rw [hm] at h hp
    obtain rfl := Except.ok.inj h
    exact hp

/-- Arguments that are turned down have slots, and what is said of them names the first. -/
theorem plainArgs_of_error {args : List WireValue} {f : Failure} (h : plainArgs args = .error f) :
    ∃ id rest, args.flatMap Value.slots = id :: rest ∧
      f = { kind := .badArguments
            message := "arguments may not contain observables (found " ++ id.display ++ ")" } := by
  have hp := purifies_args args
  unfold plainArgs at h
  -- What is found is the first stream, reading the arguments in order.
  cases hm : args.mapM Value.toPlain with
  | ok plain =>
    rw [hm] at h
    cases h
  | error found =>
    rw [hm] at h hp
    have hhead : (args.flatMap Value.slots).head? = some found := hp
    obtain ⟨rest, hrest⟩ := List.head?_eq_some_iff.1 hhead
    exact ⟨found, rest, hrest, (Except.error.inj h).symm⟩

end StreamRpc
