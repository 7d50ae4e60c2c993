import SchemaDoc.Proofs.Schema.References

/-!
# The texts of references

The references of a schema are among the members `$ref` of the value it is read from, or
of a value below it.  So whatever is compiled, the texts of its references are among
`Session.textsOf`, of which there are only so many.
-/

namespace SchemaDoc

namespace Schema

variable {P : String → Prop} {keyword : String}

/-- All references in the parts of a schema have texts of some kind. -/
structure Within (P : String → Prop) (schema : Schema) : Prop where
  reference : ∀ text, schema.reference = some text → P text
  items : ∀ reference ∈ optionReferences schema.arrays.items, P reference.text
  firstItems : ∀ reference ∈ allOptionReferences schema.arrays.firstItems, P reference.text
  properties : ∀ reference ∈ propertyReferences schema.objects.properties, P reference.text
  rest : ∀ reference ∈ optionReferences schema.objects.rest, P reference.text
  anyOf : ∀ reference ∈ allReferences schema.anyOf, P reference.text
  oneOf : ∀ reference ∈ allReferences schema.oneOf, P reference.text
  allOf : ∀ reference ∈ allReferences schema.allOf, P reference.text

theorem Within.arrays {schema : Schema} (h : schema.Within P) :
    ∀ reference ∈ arrayReferences schema.arrays, P reference.text := by
  obtain ⟨_, _, ⟨items, firstItems, _, _⟩⟩ := schema
  rw [arrayReferences, List.forall_mem_append]
  exact ⟨h.items, h.firstItems⟩

theorem Within.objects {schema : Schema} (h : schema.Within P) :
    ∀ reference ∈ objectReferences schema.objects, P reference.text := by
  obtain ⟨_, _, _, ⟨properties, _, rest⟩⟩ := schema
  rw [objectReferences, List.forall_mem_append]
  exact ⟨h.properties, h.rest⟩

/-- The references of a schema are in its parts. -/
theorem Within.references {schema : Schema} (h : schema.Within P) :
    ∀ reference ∈ schema.references, P reference.text := by
  obtain ⟨_ | text, types, arrays, objects, anyOf, oneOf, enum, allOf, overlay⟩ := schema
  · intro reference hr
    have declared : ∀ types : List TypeName,
        reference ∈ types.flatMap
          (nameReferences (arrayReferences arrays) (objectReferences objects)) →
        P reference.text := by
      intro types hm
      obtain ⟨name, -, hm⟩ := List.mem_flatMap.mp hm
      cases name with
      | array => exact h.arrays reference hm
      | object => exact h.objects reference hm
      | leaf kind => cases hm
    rw [Schema.references] at hr
    split at hr
    · rcases List.mem_append.mp hr with hr | hr
      · exact declared _ hr
      · exact h.arrays reference hr
    · simp only [List.mem_append] at hr
      rcases hr with hr | hr | hr | hr
      · exact declared _ hr
      · exact h.anyOf reference hr
      · exact h.oneOf reference hr
      · exact h.allOf reference hr
  · intro reference hr
    rw [Schema.references, List.mem_singleton] at hr
    exact hr ▸ h.reference text rfl

/-- An empty schema has no references. -/
theorem Within.empty : Within P {} := by
  constructor <;> intro _ h <;> cases h

/-- A keyword without schemas under it adds at most the reference. -/
theorem Within.putPlain {schema : Schema} (h : schema.Within P) (key : String) (value : Json)
    (hk : ∀ text ∈ Session.ownReferenceText key value, P text) :
    (schema.putPlain key value).Within P := by
  unfold Schema.putPlain
  split
  case h_1 =>
    refine { h with reference := fun text ht => ?_ }
    cases value with
    | string s =>
      cases ht
      exact hk _ List.mem_cons_self
    | _ => cases ht
  all_goals exact { h with }

mutual

theorem ofJson_within (value : Json) (h : ∀ text ∈ Session.referenceTexts value, P text) :
    (ofJson keyword value).Within P := by
  match value with
  | .object members =>
    rw [Session.referenceTexts] at h
    exact ofMembers_within members h
  | .array _ | .null | .bool _ | .number _ | .string _ => exact .empty

theorem ofMembers_within (members : List (String × Json))
    (h : ∀ text ∈ Session.memberReferenceTexts members, P text) :
    (ofMembers keyword members).Within P := by
  match members with
  | [] => exact .empty
  | (key, value) :: rest =>
    rw [Session.memberReferenceTexts, List.forall_mem_append, List.forall_mem_append] at h
    have one := (ofJson_within value h.2.1).references
    have list := listOf_within value h.2.1
    have others := ofMembers_within rest h.2.2
    unfold ofMembers
    dsimp only
    split
    · exact { others with items := one }
    · exact { others with firstItems := list }
    · exact { others with properties := propertiesOf_within value h.2.1 }
    · refine { others with rest := ?_ }
      split
      · intro reference hr
        cases hr
      · exact one
    · exact { others with anyOf := list }
    · exact { others with oneOf := list }
    · exact { others with allOf := list }
    · exact others.putPlain key value h.1

theorem listOf_within (value : Json) (h : ∀ text ∈ Session.referenceTexts value, P text) :
    ∀ reference ∈ allReferences (listOf keyword value), P reference.text := by
  match value with
  | .array items =>
    rw [Session.referenceTexts] at h
    exact ofItems_within items h
  | .object _ | .null | .bool _ | .number _ | .string _ =>
    intro reference hr
    cases hr

theorem ofItems_within (items : List Json)
    (h : ∀ text ∈ Session.itemReferenceTexts items, P text) :
    ∀ reference ∈ allReferences (ofItems keyword items), P reference.text := by
  match items with
  | [] =>
    intro reference hr
    cases hr
  | item :: rest =>
    rw [Session.itemReferenceTexts, List.forall_mem_append] at h
    rw [ofItems, allReferences, List.forall_mem_append]
    exact ⟨(ofJson_within item h.1).references, ofItems_within rest h.2⟩

theorem propertiesOf_within (value : Json) (h : ∀ text ∈ Session.referenceTexts value, P text) :
    ∀ reference ∈ propertyReferences (propertiesOf keyword value), P reference.text := by
  match value with
  | .object members =>
    rw [Session.referenceTexts] at h
    exact propertiesOfMembers_within members h
  | .array _ | .null | .bool _ | .number _ | .string _ =>
    intro reference hr
    cases hr

theorem propertiesOfMembers_within (members : List (String × Json))
    (h : ∀ text ∈ Session.memberReferenceTexts members, P text) :
    ∀ reference ∈ propertyReferences (propertiesOfMembers keyword members), P reference.text := by
  match members with
  | [] =>
    intro reference hr
    cases hr
  | (key, value) :: rest =>
    rw [Session.memberReferenceTexts, List.forall_mem_append, List.forall_mem_append] at h
    rw [propertiesOfMembers, propertyReferences, List.forall_mem_append]
    exact ⟨(ofJson_within value h.2.1).references, propertiesOfMembers_within rest h.2.2⟩

end

end Schema

/-! ## Values that are reached -/

open Session (referenceTexts memberReferenceTexts itemReferenceTexts)

theorem referenceTexts_subset_of_mem_members {members : List (String × Json)} {key : String}
    {value : Json} (h : (key, value) ∈ members) :
    referenceTexts value ⊆ memberReferenceTexts members := by
  induction members with
  | nil => cases h
  | cons member rest ih =>
    obtain ⟨k, v⟩ := member
    rw [memberReferenceTexts]
    intro text ht
    rcases List.mem_cons.mp h with h | h
    · cases h
      exact List.mem_append_right _ (List.mem_append_left _ ht)
    · exact List.mem_append_right _ (List.mem_append_right _ (ih h ht))

theorem referenceTexts_subset_of_mem_items {items : List Json} {value : Json}
    (h : value ∈ items) : referenceTexts value ⊆ itemReferenceTexts items := by
  induction items with
  | nil => cases h
  | cons item rest ih =>
    rw [itemReferenceTexts]
    intro text ht
    rcases List.mem_cons.mp h with rfl | h
    · exact List.mem_append_left _ ht
    · exact List.mem_append_right _ (ih h ht)

/-- A value one step below another has no other references. -/
theorem Pointer.referenceTexts_child {value child : Json} {step : List Char}
    (h : child? value step = some child) : referenceTexts child ⊆ referenceTexts value := by
  cases value with
  | object members =>
    rw [referenceTexts]
    exact referenceTexts_subset_of_mem_members (Table.mem_of_get? h)
  | array items =>
    obtain ⟨position, -, hi⟩ := Option.bind_eq_some_iff.mp h
    rw [referenceTexts]
    exact referenceTexts_subset_of_mem_items (List.mem_of_getElem? hi)
  | _ => cases h

theorem Pointer.referenceTexts_descend {value found : Json} {path : List (List Char)}
    (h : descend value path = .ok found) : referenceTexts found ⊆ referenceTexts value := by
  induction path generalizing value with
  | nil =>
    cases h
    exact List.Subset.refl _
  | cons step rest ih =>
    rw [descend] at h
    split at h
    · cases h
    · rename_i next hn
      split at h
      · cases h
      · exact List.Subset.trans (ih h) (referenceTexts_child hn)

/-- A value that a pointer addresses has no other references than the resource. -/
theorem Resource.referenceTexts_follow {resource : Resource} {uri pointer : String}
    {found : Json} (h : resource.follow uri pointer = .ok found) :
    referenceTexts found ⊆ referenceTexts resource.contents := by
  rw [Resource.follow, Pointer.follow] at h
  split at h
  · rename_i value hf
    cases h
    split at hf
    · cases hf
      exact List.Subset.refl _
    · exact Pointer.referenceTexts_descend hf
    · cases hf
  · cases h
  · cases h

namespace Registry

theorem referenceTexts_subset_of_get {registry : Registry} {uri : String} {resource : Resource}
    (h : registry.resources.get? uri = some resource) :
    referenceTexts resource.contents ⊆ Session.textsOf registry := fun _ ht =>
  List.mem_flatMap.mpr ⟨resource, List.mem_map.mpr ⟨_, Table.mem_of_get? h, rfl⟩, ht⟩

/-- Whatever place is read, its references are references of the resources. -/
theorem referenceTexts_contentsAt {registry : Registry} {base uri : String} {place : Place}
    {contents : Json} (hp : registry.placeOf base uri = .ok place)
    (hc : registry.contentsAt place = .ok contents) :
    referenceTexts contents ⊆ Session.textsOf registry := by
  have here := referenceTexts_subset_of_get (placeOf_eq_ok_iff.mp hp).1
  rw [contentsAt] at hc
  split at hc
  · cases hc
    exact here
  · exact List.Subset.trans (Resource.referenceTexts_follow hc) here
  · rw [anchor] at hc
    split at hc
    · rename_i owner _
      rw [get] at hc
      split at hc
      · rename_i resource hr
        exact List.Subset.trans (Resource.referenceTexts_follow hc) (referenceTexts_subset_of_get hr)
      · cases hc
    · split at hc <;> cases hc

end Registry

end SchemaDoc
