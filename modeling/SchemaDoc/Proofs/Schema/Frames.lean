import SchemaDoc.Proofs.Schema.Assembly

/-!
# Schemas in a value

A schema has schemas under some of its keywords: alone, as an item of an array or as a property.
A `Schema.Frame` holds all that stands beside one of them, and a *way* is a list of frames, the
outermost first, so that a value with a schema somewhere in it is a way filled with the schema.
What `Schema.ofJson` makes of a value is made of the values at the ends of ways and of no others,
`exists_way`.
-/

namespace SchemaDoc

namespace Schema

/-! ## Ways to a schema -/

/-- Where under a keyword a schema stands. -/
inductive Slot where
  /-- It is all that stands there. -/
  | whole
  /-- It is an item of an array. -/
  | item (before after : List Json)
  /-- It is the property of some name. -/
  | property (before : List (String × Json)) (name : String) (after : List (String × Json))

namespace Slot

/-- The keywords with schemas in such a place. -/
def keywords : Slot → List String
  | .whole => ["items", "additionalProperties"]
  | .item .. => ["prefixItems", "anyOf", "oneOf", "allOf"]
  | .property .. => ["properties"]

/-- What stands under the keyword. -/
def fill (schema : Json) : Slot → Json
  | .whole => schema
  | .item before after => .array (before ++ schema :: after)
  | .property before name after => .object (before ++ (name, schema) :: after)

/-- What stands under the keyword around the schema. -/
def around (schema : Json) : Slot → List Json
  | .whole => []
  | slot => [slot.fill schema]

/-- The name of the property. -/
def name? : Slot → Option String
  | .property _ name _ => some name
  | _ => none

end Slot

/-- A schema but for one schema in it. -/
structure Frame where
  /-- The members before the keyword. -/
  front : List (String × Json)
  keyword : String
  slot : Slot
  /-- The members after the keyword. -/
  back : List (String × Json)
  fits : keyword ∈ slot.keywords

/-- The whole schema. -/
def Frame.fill (frame : Frame) (schema : Json) : Json :=
  .object (frame.front ++ (frame.keyword, frame.slot.fill schema) :: frame.back)

/-- The document with some schema at the end of a way, which begins with the outermost frame. -/
def fill (way : List Frame) (schema : Json) : Json := way.foldr Frame.fill schema

/-- The names of the properties on a way. -/
def names (way : List Frame) : List String := way.filterMap fun frame => frame.slot.name?

/-- The values that a way goes through, from the document on, without the schema at its end. -/
def passed : List Frame → Json → List Json
  | [], _ => []
  | frame :: way, schema =>
    frame.fill (fill way schema) :: (frame.slot.around (fill way schema) ++ passed way schema)

theorem forall_names_cons {P : String → Prop} {frame : Frame} {way : List Frame} :
    (∀ name ∈ names (frame :: way), P name) ↔
      (∀ name ∈ frame.slot.name?, P name) ∧ ∀ name ∈ names way, P name := by
  rw [names, List.filterMap_cons]
  cases frame.slot.name? with
  | none => simp [names]
  | some name => simp [names]

/-! ## The schemas in a schema -/

variable {keyword key : String} {front rest : List (String × Json)} {value : Json}
  {P : Schema → Prop}

theorem forall_mem_listOf (h : ∀ before item after, value = .array (before ++ item :: after) →
    P (ofJson keyword item)) : ∀ part ∈ listOf keyword value, P part := by
  have eq_map (items : List Json) : ofItems keyword items = items.map (ofJson keyword) := by
    induction items with
    | nil => rfl
    | cons item rest ih => rw [ofItems, ih, List.map_cons]
  cases value with
  | array items =>
    rw [listOf, eq_map, List.forall_mem_map]
    intro item hm
    obtain ⟨before, after, rfl⟩ := List.append_of_mem hm
    exact h before item after rfl
  | _ => nofun

theorem forall_mem_propertiesOf (h : ∀ before name schema after,
    value = .object (before ++ (name, schema) :: after) → P (ofJson keyword schema)) :
    ∀ part ∈ (propertiesOf keyword value).map Property.schema, P part := by
  have eq_map (members : List (String × Json)) :
      (propertiesOfMembers keyword members).map Property.schema =
        members.map fun member => ofJson keyword member.2 := by
    induction members with
    | nil => rfl
    | cons member rest ih => rw [propertiesOfMembers, List.map_cons, List.map_cons, ih]
  cases value with
  | object members =>
    rw [propertiesOf, eq_map, List.forall_mem_map]
    intro member hm
    obtain ⟨before, after, rfl⟩ := List.append_of_mem hm
    exact h before member.1 member.2 after rfl
  | _ => nofun

/-- A schema is read from what stands in a frame of some value. -/
def Framed (keyword : String) (value : Json) (part : Schema) : Prop :=
  ∃ frame schema, value = Frame.fill frame schema ∧ part = ofJson keyword schema

theorem Framed.slot (slot : Slot) (hk : key ∈ slot.keywords) {schema : Json}
    (hv : value = slot.fill schema) :
    Framed keyword (.object (front ++ (key, value) :: rest)) (ofJson keyword schema) :=
  ⟨⟨front, key, slot, rest, hk⟩, schema, hv ▸ rfl, rfl⟩

theorem parts_putPlain (schema : Schema) (key : String) (value : Json) :
    (schema.putPlain key value).parts = schema.parts := by
  unfold putPlain
  split <;> rfl

theorem framed_ofMembers (members front : List (String × Json)) :
    ∀ part ∈ (ofMembers keyword members).parts, Framed keyword (.object (front ++ members)) part := by
  induction members generalizing front with
  | nil => nofun
  | cons member rest ih =>
    obtain ⟨key, value⟩ := member
    have others := ih (front ++ [(key, value)])
    rw [← List.append_cons] at others
    have whole (hk : key ∈ Slot.whole.keywords) : ∀ part ∈ (some (ofJson keyword value)).toList,
        Framed keyword (.object (front ++ (key, value) :: rest)) part :=
      List.forall_mem_singleton.mpr (Framed.slot .whole hk rfl)
    have list (hk : key ∈ (Slot.item [] []).keywords) : ∀ part ∈ listOf keyword value,
        Framed keyword (.object (front ++ (key, value) :: rest)) part :=
      forall_mem_listOf fun before _ after => Framed.slot (.item before after) hk
    have properties (hk : key ∈ (Slot.property [] "" []).keywords) :
        ∀ part ∈ (propertiesOf keyword value).map Property.schema,
          Framed keyword (.object (front ++ (key, value) :: rest)) part :=
      forall_mem_propertiesOf fun before name _ after =>
        Framed.slot (.property before name after) hk
    -- A keyword replaces what later members say under it and leaves the other parts as they are.
    unfold ofMembers
    dsimp only
    split
    case h_8 => rwa [parts_putPlain]
    all_goals
      simp only [parts, List.forall_mem_append] at others ⊢
      obtain ⟨⟨⟨⟨⟨⟨items, firstItems⟩, named⟩, additional⟩, anyOf⟩, oneOf⟩, allOf⟩ := others
    · exact ⟨⟨⟨⟨⟨⟨whole (by decide), firstItems⟩, named⟩, additional⟩, anyOf⟩, oneOf⟩, allOf⟩
    · exact ⟨⟨⟨⟨⟨⟨items, list (by decide)⟩, named⟩, additional⟩, anyOf⟩, oneOf⟩, allOf⟩
    · exact ⟨⟨⟨⟨⟨⟨items, firstItems⟩, properties (by decide)⟩, additional⟩, anyOf⟩, oneOf⟩, allOf⟩
    · refine ⟨⟨⟨⟨⟨⟨items, firstItems⟩, named⟩, ?_⟩, anyOf⟩, oneOf⟩, allOf⟩
      split
      · nofun
      · exact whole (by decide)
    · exact ⟨⟨⟨⟨⟨⟨items, firstItems⟩, named⟩, additional⟩, list (by decide)⟩, oneOf⟩, allOf⟩
    · exact ⟨⟨⟨⟨⟨⟨items, firstItems⟩, named⟩, additional⟩, anyOf⟩, list (by decide)⟩, allOf⟩
    · exact ⟨⟨⟨⟨⟨⟨items, firstItems⟩, named⟩, additional⟩, anyOf⟩, oneOf⟩, list (by decide)⟩

/-- What a schema is made of is read from what stands in frames. -/
theorem framed_of_mem_parts {value : Json} {part : Schema}
    (h : part ∈ (ofJson keyword value).parts) : Framed keyword value part := by
  cases value with
  | object members => exact framed_ofMembers members [] part h
  | _ => cases h

/-- Every schema that stands in the schema that a document is, at any depth, is read from what
stands at the end of a way. -/
theorem exists_way {document : Json} {inner : Schema} (h : (ofJson keyword document).Holds inner) :
    ∃ way schema, document = fill way schema ∧ inner = ofJson keyword schema := by
  generalize hs : ofJson keyword document = whole at h
  induction h generalizing document with
  | self => exact ⟨[], document, rfl, hs.symm⟩
  | part hp _ ih =>
    obtain ⟨frame, schema, rfl, rfl⟩ := framed_of_mem_parts (hs ▸ hp)
    obtain ⟨way, found, rfl, hf⟩ := ih rfl
    exact ⟨frame :: way, found, rfl, hf⟩

end Schema

end SchemaDoc
