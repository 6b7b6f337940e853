import Std.Data.ExtTreeMap

/-! # The weight of a table

What is taken out of a table makes it lighter by just as much.  Dropping things that hold further
things comes to an end for this reason.

* `weight_erase`   what taking out an entry leaves
-/

namespace StreamRpc

variable {β : Type}

/-- The weight of all entries together. -/
def weight (f : β → Nat) (t : Std.ExtTreeMap Nat β) : Nat :=
  (t.toList.map fun x => f x.2).foldr (· + ·) 0

/-- A tree lists none of its entries twice. -/
theorem nodup_toList (t : Std.ExtTreeMap Nat β) : t.toList.Nodup :=
  t.distinct_keys_toList.imp fun hne heq => hne (by rw [heq]; exact Std.ReflCmp.compare_self)

/-- Taking out an entry makes a table lighter by the weight of the entry. -/
theorem weight_erase (f : β → Nat) {t : Std.ExtTreeMap Nat β} {k : Nat} {v : β}
    (h : t[k]? = some v) : weight f t = f v + weight f (t.erase k) := by
  have hfresh : (k, v) ∉ (t.erase k).toList := by
    rw [Std.ExtTreeMap.mem_toList_iff_getElem?_eq_some, Std.ExtTreeMap.getElem?_erase_self]
    intro hsome
    cases hsome
  have hperm : t.toList.Perm ((k, v) :: (t.erase k).toList) := by
    refine (List.perm_ext_iff_of_nodup (nodup_toList t)
      (List.nodup_cons.2 ⟨hfresh, nodup_toList _⟩)).2 fun x => ?_
    obtain ⟨i, u⟩ := x
    rw [List.mem_cons, Std.ExtTreeMap.mem_toList_iff_getElem?_eq_some,
      Std.ExtTreeMap.mem_toList_iff_getElem?_eq_some, Std.ExtTreeMap.getElem?_erase]
    simp only [Std.LawfulEqCmp.compare_eq_iff_eq, Prod.mk.injEq]
    by_cases hi : k = i
    · subst hi
      simp [h, eq_comm]
    · simp [hi, Ne.symm hi]
  have hcomm : ∀ a ∈ t.toList.map fun x => f x.2, ∀ b ∈ t.toList.map fun x => f x.2, ∀ c,
      b + (a + c) = a + (b + c) := fun a _ b _ c => Nat.add_left_comm b a c
  exact (hperm.map fun x => f x.2).foldr_eq' hcomm 0

end StreamRpc
