import Mathlib.Data.List.Induction

/-! # Lists that grow at their end

Histories and traces grow by one element at their end.

* `append_eq_cases`   where an element stands in two lists one after the other
* `split_concat`      where an element stands in a list with one more element
* `since_concat`      what nothing ended since, in a list with one more element
-/

namespace StreamRpc

/-- An element of two lists one after the other is in the first or in the second. -/
theorem append_eq_cases {α : Type} {xs ys pre post : List α} {x : α}
    (h : xs ++ ys = pre ++ x :: post) :
    (∃ mid, xs = pre ++ x :: mid ∧ post = mid ++ ys) ∨
      ∃ mid, pre = xs ++ mid ∧ ys = mid ++ x :: post := by
  rcases List.append_eq_append_iff.1 h with ⟨mid, hpre, hys⟩ | ⟨mid, hxs, hmid⟩
  · exact .inr ⟨mid, hpre, hys⟩
  -- Where the first list ends just before the element, the element is the head of the second.
  · cases mid with
    | nil =>
      rw [List.append_nil] at hxs
      exact .inr ⟨[], by rw [hxs, List.append_nil], hmid.symm⟩
    | cons y mid =>
      obtain ⟨rfl, rfl⟩ := List.cons.inj hmid
      exact .inl ⟨mid, hxs, rfl⟩

/-- An element of a list with one more at its end is that one, or it was there before. -/
theorem split_concat {α : Type} {l pre post : List α} {x y : α}
    (h : l ++ [x] = pre ++ y :: post) :
    l = pre ∧ x = y ∧ post = [] ∨ ∃ init, post = init ++ [x] ∧ l = pre ++ y :: init := by
  rcases append_eq_cases h with ⟨mid, hl, hpost⟩ | ⟨mid, rfl, hlast⟩
  · exact .inr ⟨mid, hpost, hl⟩
  · obtain ⟨rfl, hx⟩ | ⟨-, hnil⟩ := List.singleton_eq_append_iff.1 hlast
    · obtain ⟨rfl, rfl⟩ := List.cons.inj hx
      exact .inl ⟨(List.append_nil l).symm, rfl, rfl⟩
    · cases hnil

/-- Something that nothing ended since it was said was said last, or was said before and what came
    last did not end it. -/
theorem since_concat {α : Type} {l : List α} {x y : α} {p : α → Prop} :
    (∃ pre since, l ++ [x] = pre ++ y :: since ∧ ∀ z ∈ since, ¬p z) ↔
      x = y ∨ (∃ pre since, l = pre ++ y :: since ∧ ∀ z ∈ since, ¬p z) ∧ ¬p x := by
  constructor
  · rintro ⟨pre, since, heq, hno⟩
    -- The place asked for is the last one, or it lies before that.
    rcases split_concat heq with ⟨-, rfl, -⟩ | ⟨init, rfl, rfl⟩
    · exact .inl rfl
    · exact .inr ⟨⟨pre, init, rfl, fun z hz => hno z (List.mem_append_left _ hz)⟩,
        hno x (List.mem_append_right _ (List.mem_singleton_self x))⟩
  · rintro (rfl | ⟨⟨pre, since, rfl, hno⟩, hx⟩)
    · exact ⟨l, [], rfl, by simp⟩
    · refine ⟨pre, since ++ [x], by simp, fun z hz => ?_⟩
      rcases List.mem_append.1 hz with hz | hz
      · exact hno z hz
      · rwa [List.mem_singleton.1 hz]

end StreamRpc
