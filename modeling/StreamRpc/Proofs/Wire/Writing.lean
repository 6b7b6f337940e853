import StreamRpc.Wire.Writer

/-! # What a writer writes

A call that goes through adds bytes at the end of the innermost open container and counts the items
they are.  `Writer.Grows` says so of one call and of many; `Writer.Inside` says what an open
container looks like before anything has been written into it.

* `Grows.trans`        what two calls add is added by both together
* `Inside.close_grows` closing a container adds it, length prefix and all, to the one around it
* `Inside.close_ok`    a container that is complete and not too long can be closed
-/

namespace StreamRpc

/-- Two parts of a computation succeed together exactly when both do. -/
theorem bind_eq_ok_iff {ε α β : Type} {x : Except ε α} {f : α → Except ε β} {b : β} :
    (x >>= f) = .ok b ↔ ∃ a, x = .ok a ∧ f a = .ok b := by
  cases x <;> simp [bind, Except.bind]

namespace Wire.Writer

/-- `w'` is `w` with these bytes, `n` items of them, at the end of its innermost container. -/
structure Grows (w : Writer) (bs : Bytes) (n : Nat) (w' : Writer) : Prop where
  outer : w'.outer = w.outer
  scope : w'.top.scope = w.top.scope
  body : w'.top.body = w.top.body ++ bs
  count : w'.top.count = w.top.count + n

/-- Nothing appended leaves the writer as it is. -/
theorem Grows.refl (w : Writer) : w.Grows [] 0 w :=
  ⟨rfl, rfl, by simp, rfl⟩

/-- What two calls add is added by both together. -/
theorem Grows.trans {w w₁ w₂ : Writer} {bs cs : Bytes} {m n : Nat} (h₁ : w.Grows bs m w₁)
    (h₂ : w₁.Grows cs n w₂) : w.Grows (bs ++ cs) (m + n) w₂ where
  outer := h₂.outer.trans h₁.outer
  scope := h₂.scope.trans h₁.scope
  body := by rw [h₂.body, h₁.body, List.append_assoc]
  count := by rw [h₂.count, h₁.count, Nat.add_assoc]

/-- Whether the innermost container takes an item of any kind now. -/
def Accepts (w : Writer) : Prop :=
  w.top.scope ≠ .map ∧ (w.top.scope.single = true → w.top.count = 0)

/-- A writer that accepts items refuses none. -/
theorem Accepts.refuses {w : Writer} (h : w.Accepts) (t : Tag) : w.top.refuses t = none := by
  obtain ⟨hm, hs⟩ := h
  have hn : ¬ (w.top.scope.single = true ∧ 1 ≤ w.top.count) := by
    rintro ⟨h1, h2⟩
    have := hs h1
    omega
  simp only [Frame.refuses, hm, if_false, hn]

/-- An open list accepts items. -/
theorem accepts_of_list {w : Writer} (h : w.top.scope = .list) : w.Accepts := by
  constructor <;> simp [h, Scope.single]

/-- An open map does not refuse a variant. -/
theorem refuses_variant_of_map {w : Writer} (h : w.top.scope = .map) :
    w.top.refuses .variant = none := by
  simp [Frame.refuses, h]

/-! ## Single items -/

/-- An item is put exactly when the open frame does not refuse it. -/
private theorem put_ok_iff {w w' : Writer} {t : Tag} {item : Bytes} :
    w.put t item = .ok w' ↔ w.top.refuses t = none ∧ w' = { w with top := w.top.push item } := by
  unfold put
  cases w.top.refuses t <;> simp [eq_comm]

/-- Putting an item appends its bytes. -/
theorem put_grows {w w' : Writer} {t : Tag} {item : Bytes} (h : w.put t item = .ok w') :
    w.Grows item 1 w' := by
  obtain ⟨-, rfl⟩ := put_ok_iff.1 h
  exact ⟨rfl, rfl, Frame.body_push _ _, rfl⟩

/-- A writer that accepts items takes any item. -/
theorem put_ok {w : Writer} (h : w.Accepts) (t : Tag) (item : Bytes) :
    ∃ w', w.put t item = .ok w' :=
  ⟨_, put_ok_iff.2 ⟨h.refuses t, rfl⟩⟩

/-- Putting a blob appends its bytes, and its body is not too large. -/
theorem putBlob_grows {w w' : Writer} {t : Tag} {body : Bytes} (h : w.putBlob t body = .ok w') :
    w.Grows (blob t body) 1 w' ∧ body.length < blobLimit := by
  unfold putBlob at h
  split at h
  · exact ⟨put_grows h, by assumption⟩
  · exact nomatch h

/-- A writer that accepts items takes a blob that is not too large. -/
theorem putBlob_ok {w : Writer} (h : w.Accepts) (t : Tag) {body : Bytes}
    (hl : body.length < blobLimit) : ∃ w', w.putBlob t body = .ok w' := by
  simp only [putBlob, hl, if_true]
  exact put_ok h t _

/-! ## Containers -/

/-- `w₁` is `w` with one more container open, of this kind and under this tag, in which nothing
    stands but these bytes. -/
structure Inside (w : Writer) (t : Tag) (scope : Scope) (bs : Bytes) (w₁ : Writer) : Prop where
  outer : w₁.outer = (t, w.top) :: w.outer
  scope : w₁.top.scope = scope
  body : w₁.top.body = bs
  count : w₁.top.count = 0

/-- An open scope accepts items unless it is a map. -/
theorem Inside.accepts {w w₁ : Writer} {t : Tag} {scope : Scope} {bs : Bytes}
    (h : w.Inside t scope bs w₁) (hs : scope ≠ .map) : w₁.Accepts :=
  ⟨by rw [h.scope]; exact hs, fun _ => h.count⟩

/-- A scope is opened exactly when the open frame does not refuse its item. -/
private theorem begin_ok_iff {w w' : Writer} {t : Tag} {scope : Scope} :
    w.begin t scope = .ok w' ↔
      w.top.refuses t = none ∧ w' = { top := { scope }, outer := (t, w.top) :: w.outer } := by
  unfold begin
  cases w.top.refuses t <;> simp [eq_comm]

/-- After an opening the writer is inside the new scope. -/
theorem begin_inside {w w' : Writer} {t : Tag} {scope : Scope} (h : w.begin t scope = .ok w') :
    w.Inside t scope [] w' := by
  obtain ⟨-, rfl⟩ := begin_ok_iff.1 h
  exact ⟨rfl, rfl, rfl, rfl⟩

/-- A scope can be opened where its item is not refused. -/
theorem begin_ok {w : Writer} {t : Tag} (h : w.top.refuses t = none) (scope : Scope) :
    ∃ w', w.begin t scope = .ok w' :=
  ⟨_, begin_ok_iff.2 ⟨h, rfl⟩⟩

/-- Opening a variant writes its name. -/
theorem variantBegin_inside {w w' : Writer} {name : String} (h : w.variantBegin name = .ok w') :
    w.Inside .variant .variant (blob .string (utf8 name)) w' ∧
      (utf8 name).length < blobLimit := by
  obtain ⟨w₁, hb, h⟩ := bind_eq_ok_iff.1 h
  obtain ⟨w₂, hs, h⟩ := bind_eq_ok_iff.1 h
  have hw' := (Except.ok.inj h).symm
  subst hw'
  -- The name is written inside the new scope but does not count as an item of it.
  have hi := begin_inside hb
  obtain ⟨hg, hl⟩ := putBlob_grows hs
  refine ⟨⟨hg.outer.trans hi.outer, hg.scope.trans hi.scope, ?_, rfl⟩, hl⟩
  show w₂.top.body = _
  rw [hg.body, hi.body, List.nil_append]

/-- A variant can be opened where it is not refused, under a name that is not too long. -/
theorem variantBegin_ok {w : Writer} {name : String} (h : w.top.refuses .variant = none)
    (hl : (utf8 name).length < blobLimit) : ∃ w', w.variantBegin name = .ok w' := by
  obtain ⟨w₁, hb⟩ := begin_ok h .variant
  obtain ⟨w₂, hs⟩ := putBlob_ok ((begin_inside hb).accepts (by decide)) .string hl
  have hs' : w₁.str name = .ok w₂ := hs
  exact ⟨_, by simp only [variantBegin, hb, hs', bind, Except.bind]; rfl⟩

/-- Closing a container adds it to the one around it. -/
theorem Inside.close_grows {w w₁ w₂ w₃ : Writer} {t : Tag} {scope : Scope} {bs cs : Bytes}
    {n : Nat} (hi : w.Inside t scope bs w₁) (hg : w₁.Grows cs n w₂)
    (hc : w₂.close scope = .ok w₃) :
    w.Grows (blob t (bs ++ cs)) 1 w₃ ∧ (bs ++ cs).length < blobLimit := by
  have hb : w₂.top.body = bs ++ cs := by rw [hg.body, hi.body]
  unfold close at hc
  rw [hg.outer, hi.outer, hb] at hc
  simp only at hc
  -- Of the ways to refuse none was taken, and the last of them is about the length.
  split at hc
  · exact nomatch hc
  split at hc
  · exact nomatch hc
  split at hc
  · next hl =>
    obtain rfl := Except.ok.inj hc
    exact ⟨⟨rfl, rfl, Frame.body_push _ _, rfl⟩, hl⟩
  · exact nomatch hc

/-- A container that is complete and not too long can be closed. -/
theorem Inside.close_ok {w w₁ w₂ : Writer} {t : Tag} {scope : Scope} {bs cs : Bytes} {n : Nat}
    (hi : w.Inside t scope bs w₁) (hg : w₁.Grows cs n w₂) (hn : scope.single = true → n ≠ 0)
    (hl : (bs ++ cs).length < blobLimit) : ∃ w₃, w₂.close scope = .ok w₃ := by
  have hb : w₂.top.body = bs ++ cs := by rw [hg.body, hi.body]
  have hs : w₂.top.scope = scope := by rw [hg.scope, hi.scope]
  have hc : w₂.top.count = n := by rw [hg.count, hi.count, Nat.zero_add]
  have he : ¬ (scope.single = true ∧ n = 0) := fun ⟨h1, h2⟩ => hn h1 h2
  -- A scope is closed if it is open, is not left empty against its rule, and fits its length field.
  unfold close
  rw [hg.outer, hi.outer, hb, hs, hc]
  simp only [ne_eq, not_true_eq_false, if_false, he, hl, if_true]
  exact ⟨_, rfl⟩

/-- The bytes that stand outside of all containers. -/
theorem bytes_ok_iff {w : Writer} {bs : Bytes} :
    w.bytes = .ok bs ↔ w.outer = [] ∧ w.top.body = bs := by
  unfold bytes
  cases w.outer <;> simp

end Wire.Writer

end StreamRpc
