import StreamRpc.Proofs.Message.RoundTrip
import StreamRpc.Proofs.Wire.TextOrder

/-! # The bytes of an envelope

An envelope is flattened into its attributes, in the order of the bytes of their names, and its body.
It does not matter in which order they were set, or what an attribute was before.  Bytes from
elsewhere may have their entries in any order and a name more than once; then the last entry of a name
counts, and what is read is flattened into other bytes.

* `Envelope.lastValue?`              what entries say of a name
* `Envelope.attribute_setAll`        attributes that are set in turn
* `Envelope.spells_of_ofBytes`       what bytes are that can be read
* `Envelope.Spells.toBytes_eq_iff`   which of them are written again
* `Envelope.flattening_is_sorted`    all of it together
-/

namespace StreamRpc

open Wire (Bytes Reader Writer WireError Item utf8)
open Wire.Reader (bind_ok_iff pure_ok_iff)

namespace Envelope

/-! ## Entries -/

/-- The value in the last entry of this name. -/
def lastValue? (entries : List (String × Attribute)) (name : String) : Option Attribute :=
  entries.findSomeRev? fun (other, a) => if other = name then some a else none

/-- Sets attributes in turn. -/
def setAll (e : Envelope) (entries : List (String × Attribute)) : Envelope :=
  entries.foldl (fun e (name, a) => e.set name a) e

/-- A tree made from a list holds the last entry of each name. -/
private theorem getElem?_ofList (entries : List (String × Attribute)) (name : String) :
    (Std.ExtTreeMap.ofList entries compare)[name]? = lastValue? entries name := by
  rw [Std.ExtTreeMap.ofList_eq_insertMany_empty, Std.ExtTreeMap.getElem?_insertMany_list]
  simp [lastValue?]

/-- Setting a list of attributes is one insertion of them all. -/
private theorem setAll_eq (e : Envelope) (entries : List (String × Attribute)) :
    e.setAll entries = { e with attributes := e.attributes.insertMany entries } := by
  induction entries generalizing e with
  | nil => simp [setAll]
  | cons entry entries ih =>
    obtain ⟨name, a⟩ := entry
    have hrest := ih (e.set name a)
    rw [setAll, List.foldl_cons, ← setAll, hrest, Std.ExtTreeMap.insertMany_cons]
    rfl

/-- Of the values that an attribute was set to, the last one is there. -/
theorem attribute_setAll (e : Envelope) (entries : List (String × Attribute)) (name : String) :
    (e.setAll entries).attribute? name = (lastValue? entries name).or (e.attribute? name) := by
  rw [setAll_eq, attribute?, Std.ExtTreeMap.getElem?_insertMany_list]
  simp [lastValue?, attribute?]

/-! ## Entries in order -/

/-- The names of the entries are in the strict order of their bytes. -/
def Ascending (entries : List (String × Attribute)) : Prop :=
  (entries.map (·.1)).Pairwise fun name other => utf8 name < utf8 other

/-- Ascending entries are those whose names increase strictly. -/
private theorem ascending_iff {entries : List (String × Attribute)} :
    Ascending entries ↔ entries.Pairwise fun x y => compare x.1 y.1 = .lt := by
  simp only [Ascending, List.pairwise_map, Wire.utf8_lt_iff, compare_lt_iff_lt]

/-- Entries whose names increase strictly have no duplicates. -/
private theorem nodup_of_ordered {entries : List (String × Attribute)}
    (h : entries.Pairwise fun x y => compare x.1 y.1 = .lt) : entries.Nodup := by
  refine h.imp fun hlt heq => ?_
  rw [heq, Std.compare_self] at hlt
  cases hlt

/-- Entries in order are the entries of the map that they make. -/
private theorem toList_ofList {entries : List (String × Attribute)}
    (ascending : Ascending entries) :
    (Std.ExtTreeMap.ofList entries compare).toList = entries := by
  rw [ascending_iff] at ascending
  have hordered := (Std.ExtTreeMap.ofList entries compare).ordered_keys_toList
  refine List.Perm.eq_of_pairwise (fun x y _ _ hxy hyx => ?_) hordered ascending
    ((List.perm_ext_iff_of_nodup (nodup_of_ordered hordered) (nodup_of_ordered ascending)).2
      fun x => ?_)
  · rw [compare_lt_iff_lt] at hxy hyx
    exact absurd hxy (lt_asymm hyx)
  · obtain ⟨name, a⟩ := x
    have hdistinct : entries.Pairwise fun x y => ¬compare x.1 y.1 = .eq :=
      ascending.imp fun hlt heq => by rw [hlt] at heq; cases heq
    rw [Std.ExtTreeMap.mem_toList_iff_getElem?_eq_some]
    refine ⟨fun h => ?_, fun h => Std.ExtTreeMap.getElem?_ofList_of_mem (by simp) hdistinct h⟩
    -- What the map has comes from some entry.
    rw [getElem?_ofList, lastValue?, List.findSomeRev?_eq_findSome?_reverse] at h
    obtain ⟨⟨other, b⟩, hmem, hentry⟩ := List.exists_of_findSome?_eq_some h
    dsimp only at hentry
    split at hentry
    · next hname =>
      subst hname
      obtain rfl := Option.some.inj hentry
      exact List.mem_reverse.1 hmem
    · cases hentry

/-! ## Bytes -/

/-- An attribute is accepted in one form only. -/
private theorem takes_readAttribute (name : String) :
    (readAttribute name).Takes Attribute.toItem (fun _ => True) := by
  intro bs rest a h
  obtain ⟨t, mid, hp, h⟩ := bind_ok_iff.1 h
  obtain ⟨rfl, -⟩ := Reader.peek_ok (Decoder.lift_ok_iff.1 hp)
  -- Two kinds of item are attributes; every other one is refused.
  cases t <;> dsimp only at h
  case u64 =>
    obtain ⟨n, mid', hr, h⟩ := bind_ok_iff.1 h
    obtain ⟨rfl, rfl⟩ := pure_ok_iff.1 h
    exact ⟨Reader.wide_ok (Decoder.lift_ok_iff.1 hr), trivial, trivial⟩
  case string =>
    obtain ⟨s, mid', hr, h⟩ := bind_ok_iff.1 h
    obtain ⟨rfl, rfl⟩ := pure_ok_iff.1 h
    obtain ⟨hbs, hl⟩ := Reader.str_ok (Decoder.lift_ok_iff.1 hr)
    exact ⟨hbs, hl, trivial⟩
  all_goals exact absurd h Reader.throw_ne_ok

/-- Bytes that can be read are entries and a body. -/
theorem spells_of_ofBytes {bs : Bytes} {e : Envelope} (h : ofBytes bs = .ok e) :
    ∃ entries, Spells bs entries e.body ∧ e.attributes = .ofList entries := by
  have hread := Decoder.run_exactly_ok_iff.1 h
  obtain ⟨header, mid, hm, hread⟩ := bind_ok_iff.1 hread
  obtain ⟨entries, mid', he, hread⟩ := bind_ok_iff.1 hread
  obtain ⟨body, mid'', hb, hread⟩ := bind_ok_iff.1 hread
  obtain ⟨rfl, rfl⟩ := pure_ok_iff.1 hread
  obtain ⟨hbs, hl⟩ := Reader.blob_ok (Decoder.lift_ok_iff.1 hm)
  obtain ⟨hentries, rfl⟩ := Decoder.ofExcept_ok_iff.1 he
  -- A section that was read as entries is the encoding of these entries, in this order.
  obtain ⟨rfl, hfit, -⟩ := Decoder.entries_ok takes_readAttribute hentries
  obtain ⟨rfl, hl'⟩ := Reader.blob_ok (Decoder.lift_ok_iff.1 hb)
  rw [List.append_nil] at hbs
  exact ⟨entries, ⟨hfit, hl, hl', hbs⟩, rfl⟩

/-- Bytes are entries and a body in one way only. -/
private theorem Spells.unique {bs body body' : Bytes} {entries entries' : List (String × Attribute)}
    (h : Spells bs entries body) (h' : Spells bs entries' body') :
    entries = entries' ∧ body = body' := by
  have hmap := Reader.blob_append (t := .map) (Wire.blob .bytes body) h.sectionFits
  have hmap' := Reader.blob_append (t := .map) (Wire.blob .bytes body') h'.sectionFits
  rw [← h.bytes] at hmap
  -- Both spellings begin with the section of the attributes, which says itself where it ends.
  rw [← h'.bytes, hmap] at hmap'
  injection hmap' with hsection hrest
  have hread := entries_encode entries h.fits
  rw [hsection, entries_encode entries' h'.fits] at hread
  have hbody := Reader.blob_append (t := .bytes) [] h.bodyFits
  rw [hrest, Reader.blob_append (t := .bytes) [] h'.bodyFits] at hbody
  injection hbody with hbody
  exact ⟨(Except.ok.inj hread).symm, hbody.symm⟩

/-- What was read is flattened into the same bytes again if their entries are in order. -/
theorem Spells.toBytes_eq_iff {bs : Bytes} {e : Envelope} {entries : List (String × Attribute)}
    (h : Spells bs entries e.body) (he : e.attributes = .ofList entries) :
    e.toBytes = .ok bs ↔ Ascending entries := by
  constructor
  · intro hbs
    -- What is written spells the attributes in ascending order, and a spelling is unique.
    obtain ⟨rfl, -⟩ := h.unique (spells_of_toBytes hbs)
    exact ascending_iff.2 e.attributes.ordered_keys_toList
  · intro ascending
    have hlist : e.attributes.toList = entries := by
      rw [he, toList_ofList ascending]
    have hfits : e.Fits := ⟨hlist ▸ h.fits, hlist ▸ h.sectionFits, h.bodyFits⟩
    obtain ⟨bs', hbs'⟩ := toBytes_of_fits hfits
    have hspells := spells_of_toBytes hbs'
    rw [hbs', hspells.bytes, hlist, ← h.bytes]

/-! ## All together -/

/-- An envelope fits when its bytes can be written. -/
private theorem fits_iff {e : Envelope} : e.Fits ↔ ∃ bs, e.toBytes = .ok bs := by
  refine ⟨toBytes_of_fits, fun ⟨bs, hbs⟩ => ?_⟩
  have h := spells_of_toBytes hbs
  exact ⟨h.fits, h.sectionFits, h.bodyFits⟩

/-- An envelope whose lengths fit is flattened into bytes that it is read from again.  Its bytes do not
    tell what its attributes were before or in which order they were set.  Bytes that can be read are
    entries and a body in one way; the last entry of a name counts, and what was read is flattened
    into the same bytes if and only if the names are in the strict order of their bytes. -/
theorem flattening_is_sorted :
    (∀ e : Envelope, (e.Fits ↔ ∃ bs, e.toBytes = .ok bs) ∧
      ∀ bs, e.toBytes = .ok bs → ofBytes bs = .ok e) ∧
    (∀ (e : Envelope) (entries : List (String × Attribute)) (name : String),
      (e.setAll entries).attribute? name = (lastValue? entries name).or (e.attribute? name)) ∧
    (∀ e e' : Envelope, e.body = e'.body →
      (∀ name, e.attribute? name = e'.attribute? name) → e.toBytes = e'.toBytes) ∧
    ∀ (bs : Bytes) (e : Envelope), ofBytes bs = .ok e →
      ∃ entries, Spells bs entries e.body ∧
        (∀ entries' body, Spells bs entries' body → entries' = entries ∧ body = e.body) ∧
        (∀ name, e.attribute? name = lastValue? entries name) ∧
        (e.toBytes = .ok bs ↔ Ascending entries) := by
  refine ⟨fun e => ⟨fits_iff, fun _ => ofBytes_toBytes⟩, attribute_setAll,
    fun e e' hbody hattribute => ?_, fun bs e h => ?_⟩
  · rw [ext_attribute hbody hattribute]
  -- What was read is the entries in the order they came, each replacing an earlier one of its name.
  · obtain ⟨entries, hspells, he⟩ := spells_of_ofBytes h
    refine ⟨entries, hspells, fun entries' body' h' => h'.unique hspells, fun name => ?_,
      hspells.toBytes_eq_iff he⟩
    rw [attribute?, he, getElem?_ofList]

namespace Repeated

/-- A name that occurs twice, and another one that should stand before it. -/
def entries : List (String × Attribute) :=
  [("tag", .u64 1), ("name", .str "ünï"), ("tag", .u64 2)]

def bytes : Bytes :=
  Wire.blob .map (Item.encodeEntries (toEntries entries)) ++ Wire.blob .bytes [7]

def envelope : Envelope := { attributes := .ofList entries, body := [7] }

/-- The text attribute of the envelope at hand fits. -/
private theorem fits_text : (Attribute.str "ünï").toItem.Fits :=
  (by decide : (Wire.utf8 "ünï").length < Wire.blobLimit)

/-- The bytes at hand spell the entries in order. -/
private theorem spells_bytes : Spells bytes entries [7] :=
  ⟨⟨⟨by decide, by decide, trivial⟩, ⟨by decide, by decide, fits_text⟩,
    ⟨by decide, by decide, trivial⟩, trivial⟩, by decide +kernel, by decide, rfl⟩

/-- The attributes of the envelope at hand are listed by name. -/
private theorem toList_envelope :
    envelope.attributes.toList = [("name", .str "ünï"), ("tag", .u64 2)] := by
  decide +kernel

/-- The envelope at hand fits. -/
private theorem fits_envelope : envelope.Fits := by
  refine ⟨?_, ?_, by decide⟩ <;> rw [toList_envelope]
  · exact ⟨⟨by decide, by decide, fits_text⟩, ⟨by decide, by decide, trivial⟩, trivial⟩
  · decide +kernel

end Repeated

/-- What was read is the envelope that was set in another order, and its bytes are other bytes. -/
theorem flattening_is_sorted_repeated :
    ofBytes Repeated.bytes = .ok Repeated.envelope ∧
      Repeated.envelope.attribute? "tag" = some (.u64 2) ∧
      ∃ bs, Repeated.envelope.toBytes = .ok bs ∧ bs ≠ Repeated.bytes ∧
        ofBytes bs = .ok Repeated.envelope ∧
        (({ body := [7] } : Envelope).setAll
          [("tag", .u64 1), ("tag", .u64 2), ("name", .str "ünï")]).toBytes = .ok bs := by
  obtain ⟨hflat, hset, hsame, hread⟩ := flattening_is_sorted
  have h : ofBytes Repeated.bytes = .ok Repeated.envelope := Repeated.spells_bytes.ofBytes
  obtain ⟨entries, -, hunique, hattribute, hsorted⟩ := hread _ _ h
  obtain ⟨rfl, -⟩ := hunique _ _ Repeated.spells_bytes
  obtain ⟨bs, hbs⟩ := (hflat _).1.1 Repeated.fits_envelope
  refine ⟨h, (hattribute "tag").trans (by decide +kernel), bs, hbs, ?_, (hflat _).2 bs hbs, ?_⟩
  -- The bytes it is written as are sorted, and these are not.
  · rintro rfl
    have hascending := hsorted.1 hbs
    rw [Ascending] at hascending
    exact absurd hascending (by decide +kernel)
  · rw [← hbs]
    refine hsame _ _ ?_ fun name => ?_
    · rw [setAll_eq, Repeated.envelope]
    · rw [hset, hattribute]
      -- Each of the two names is set last to the same value in both orders.
      by_cases htag : "tag" = name
      · subst htag
        decide +kernel
      · by_cases hname : "name" = name
        · subst hname
          decide +kernel
        · simp [lastValue?, List.findSomeRev?, Repeated.entries, attribute?, htag, hname]

end Envelope

end StreamRpc
