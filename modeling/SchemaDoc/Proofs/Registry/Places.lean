import SchemaDoc.Proofs.Registry.Claims

/-!
# Places and their names

A place is *found* if some text leads to it from a resource, `Registry.Found`.  The name of
a place that is found says which resource and which fragment it is, `Found.eq_of_id`, so what
stands there is a matter of its name alone, `Found.contentsAt_eq`.  And it leads back to
itself from anywhere outside, `Found.placeOf_id`.
-/

namespace SchemaDoc

/-- What separates a name from a fragment stands in no name. -/
theorem Place.defrag_id {place : Place} (h : '#' ∉ place.name.toList) :
    Uri.defrag place.id = (place.name, place.fragment) := by
  rw [id]
  split
  · rename_i hf
    rw [Uri.defrag_name h, hf]
  · exact Uri.defrag_name_fragment h _

theorem Place.id_eq_empty {place : Place} (h : place.id = "") :
    place.name = "" ∧ place.fragment = "" := by
  rw [id] at h
  split at h
  · rename_i hf
    exact ⟨h, hf⟩
  · simp at h

/-- The document that a name means has no fragment. -/
theorem Place.numberSign_locate {base : String} (hb : '#' ∉ base.toList) (uri : String) :
    '#' ∉ (Place.locate base uri).1.toList := by
  rw [locate]
  split
  · exact hb
  · exact Uri.numberSign_defrag _

namespace Registry

/-- A place to which some text leads from a resource or from outside. -/
def Found (registry : Registry) (place : Place) : Prop :=
  ∃ base uri, '#' ∉ base.toList ∧ registry.placeOf base uri = .ok place

/-- Only the resource under the empty name goes by it. -/
def Named (registry : Registry) : Prop :=
  ∀ uri resource, registry.resources.get? uri = some resource → uri ≠ "" →
    resource.nameAt uri ≠ ""

/-- Resources of one name have the same contents. -/
def Consistent (registry : Registry) : Prop :=
  ∀ uri₁ uri₂ resource₁ resource₂, registry.resources.get? uri₁ = some resource₁ →
    registry.resources.get? uri₂ = some resource₂ →
    resource₁.nameAt uri₁ = resource₂.nameAt uri₂ → resource₁.contents = resource₂.contents

theorem named_crawl (registry : Registry) : registry.crawl.Named :=
  fun _ _ => crawl_nameAt_ne_empty

theorem consistent_crawl {registry : Registry} (hb : registry.Built) (hs : registry.Separate)
    (ht : registry.NoTwins) : registry.crawl.Consistent :=
  fun _ _ _ _ h₁ h₂ hn => contents_eq_of_nameAt hb hs ht h₁ h₂ hn

variable {registry : Registry} {place other : Place}

/-- A place that is found goes by a name without a fragment. -/
theorem Found.numberSign_name (hb : registry.Built) (h : registry.Found place) :
    '#' ∉ place.name.toList := by
  obtain ⟨base, uri, hbase, hp⟩ := h
  obtain ⟨hr, hn, -⟩ := placeOf_eq_ok_iff.mp hp
  rw [hn]
  exact hb.numberSign_nameAt hr (Place.numberSign_locate hbase uri)

/-- The name of a place says which it is. -/
theorem Found.eq_of_id (hb : registry.Built) (h : registry.Found place)
    (h' : registry.Found other) (hid : place.id = other.id) :
    place.name = other.name ∧ place.fragment = other.fragment := by
  have parts := congrArg Uri.defrag hid
  rw [Place.defrag_id (h.numberSign_name hb), Place.defrag_id (h'.numberSign_name hb)] at parts
  exact Prod.mk.inj parts

/-- What stands at a place is a matter of its name. -/
theorem Found.contentsAt_eq (hb : registry.Built) (hc : registry.Consistent)
    (h : registry.Found place) (h' : registry.Found other) (hid : place.id = other.id) :
    registry.contentsAt place = registry.contentsAt other := by
  obtain ⟨name, fragment⟩ := h.eq_of_id hb h' hid
  obtain ⟨base, uri, -, hp⟩ := h
  obtain ⟨base', uri', -, hp'⟩ := h'
  obtain ⟨hr, hn, -⟩ := placeOf_eq_ok_iff.mp hp
  obtain ⟨hr', hn', -⟩ := placeOf_eq_ok_iff.mp hp'
  have contents := hc _ _ _ _ hr hr' (by rw [← hn, ← hn', name])
  unfold contentsAt
  rw [name, fragment]
  split
  · rw [contents]
  · rw [Resource.follow, Resource.follow, contents]
  · rfl

/-- No place goes by a lone number sign. -/
theorem Found.id_ne_numberSign (hb : registry.Built) (h : registry.Found place) :
    place.id ≠ "#" := by
  intro sign
  have parts := Place.defrag_id (h.numberSign_name hb)
  rw [sign] at parts
  have alone : Uri.defrag "#" = ("", "") := by decide
  rw [alone] at parts
  obtain ⟨name, fragment⟩ := Prod.mk.inj parts
  rw [Place.id, ← fragment, if_pos rfl, ← name] at sign
  exact absurd sign (by decide)

/-- Only the empty text and a lone number sign lead to a place without a name. -/
theorem eq_empty_of_placeOf (hn : registry.Named) {base uri : String}
    (hp : registry.placeOf base uri = .ok place) (hid : place.id = "") :
    uri = "" ∨ uri = "#" := by
  obtain ⟨hr, name, fragment⟩ := placeOf_eq_ok_iff.mp hp
  obtain ⟨noName, noFragment⟩ := Place.id_eq_empty hid
  have document : (Place.locate base uri).1 = "" := by
    by_contra given
    exact hn _ _ hr given (by rw [← name, noName])
  rw [noFragment] at fragment
  unfold Place.locate at document fragment
  split at document
  · rename_i rest hu
    rw [hu] at fragment
    right
    have hrest : rest = [] := by simpa using fragment.symm
    rw [← String.toList_inj, hu, hrest]
    rfl
  · rename_i noSign
    left
    cases hu : uri.toList with
    | nil => exact String.toList_eq_nil_iff.mp hu
    | cons c rest =>
      have hc : c ≠ '#' := by
        rintro rfl
        exact noSign rest hu
      obtain ⟨d, hd, hne⟩ := Uri.head?_join base (by rw [hu]; rfl) hc
      exact absurd document (Uri.defrag_ne_empty hd hne)

/-- The name of a place leads back to it. -/
theorem Found.placeOf_id (hb : registry.Built)
    (settled : ∀ uri resource, registry.resources.get? uri = some resource →
      ∃ named, registry.resources.get? (resource.nameAt uri) = some named ∧
        named.nameAt (resource.nameAt uri) = resource.nameAt uri)
    (h : registry.Found place) (hn : place.name ≠ "") :
    ∃ back, registry.placeOf "" place.id = .ok back ∧ back.id = place.id := by
  have name := h.numberSign_name hb
  have located : Place.locate "" place.id = (place.name, place.fragment) := by
    unfold Place.locate
    split
    · rename_i rest hi
      have parts := Place.defrag_id name
      rw [Uri.defrag, hi] at parts
      simp only [Text.cut?, if_true] at parts
      exact absurd (Prod.mk.inj parts).1.symm (by simpa using hn)
    · rw [Uri.join_empty, Place.defrag_id name]
  obtain ⟨base, uri, -, hp⟩ := h
  obtain ⟨hr, hname, -⟩ := placeOf_eq_ok_iff.mp hp
  obtain ⟨named, found, own⟩ := settled _ _ hr
  rw [← hname] at found own
  refine ⟨⟨named, place.name, place.fragment⟩, placeOf_eq_ok_iff.mpr ?_, rfl⟩
  rw [located]
  exact ⟨found, own.symm, rfl⟩

end Registry

end SchemaDoc
