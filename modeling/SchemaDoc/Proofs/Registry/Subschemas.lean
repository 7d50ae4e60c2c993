import SchemaDoc.Proofs.Registry.Anchors
import SchemaDoc.Proofs.Schema.Frames

/-!
# Schemas in a document

Crawling does not know schemas.  It goes through all members of all objects, but leaves out what
stands under a data key, and it takes the object that holds the properties of a schema for one
more object.  So whether it finds the schema at the end of a way depends on the names of the
properties on the way and on nothing else.  If none of them is a data key, the anchor of the
schema is recorded and the resource it begins is registered.  If one of them is, the schema does
not count: the same is found whatever stands in its place, `Finding.alike_fill`.  Both are said in
`subschema_crawled`.
-/

namespace SchemaDoc

namespace Schema

/-! ## The resource around a schema -/

/-- The name of the resource around the schema at the end of a way, given that of the document.
What is passed below the document may begin a resource. -/
def baseAt (base : String) (way : List Frame) (schema : Json) : String :=
  (passed way schema).tail.foldl (fun base value => (Finding.embedded? base false value).getD base)
    base

/-- The name of the resource that the schema at the end of a way stands in or begins. -/
def ownerAt (base : String) (way : List Frame) (schema : Json) : String :=
  (Finding.embedded? (baseAt base way schema) way.isEmpty schema).getD (baseAt base way schema)

/-- If nothing on the way declares a name, a schema stands in the resource of the document. -/
theorem baseAt_eq {way : List Frame} {schema : Json}
    (h : ∀ value ∈ (passed way schema).tail, value.declaredId? = none) (base : String) :
    baseAt base way schema = base := by
  rw [baseAt]
  generalize (passed way schema).tail = below at h
  induction below with
  | nil => rfl
  | cons value rest ih =>
    obtain ⟨first, others⟩ := List.forall_mem_cons.mp h
    rw [List.foldl_cons, Finding.embedded?, first]
    exact ih others

/-- A keyword with schemas is no data key. -/
theorem Frame.keyword_not_mem (frame : Frame) : frame.keyword ∉ Finding.dataKeys := by
  have all : ∀ keyword ∈ frame.slot.keywords, keyword ∉ Finding.dataKeys := by
    cases frame.slot <;> simp [Slot.keywords, Finding.dataKeys]
  exact all _ frame.fits

end Schema

namespace Finding

open Schema (Slot Frame forall_names_cons)

/-! ## What is found -/

/-- The anchor that an object declares is found in it. -/
theorem exists_anchor_mem {schema : Json} {anchor : String}
    (ha : schema.get? "$anchor" = some (.string anchor)) (base pointer : String) (isTop : Bool) :
    ∃ place, .anchor ((embedded? base isTop schema).getD base) anchor place ∈
      findings base pointer isTop schema := by
  cases schema with
  | object members =>
    have own (own pointer : String) : .anchor own anchor pointer ∈ anchorOf own pointer members := by
      rw [anchorOf, show Table.get? members "$anchor" = some (.string anchor) from ha]
      exact List.mem_cons_self
    rw [findings]
    cases embedded? base isTop (.object members) with
    | none => exact ⟨pointer, List.mem_append_left _ (own base pointer)⟩
    | some uri => exact ⟨"", List.mem_cons_of_mem _ (List.mem_append_left _ (own uri ""))⟩
  | _ => cases ha

/-- The resource that an object begins is found in it. -/
theorem exists_resource_mem {schema : Json} {base uri : String} {isTop : Bool}
    (he : embedded? base isTop schema = some uri) (pointer : String) :
    .resource uri schema ∈ findings base pointer isTop schema := by
  cases schema with
  | object members =>
    rw [findings, he]
    exact List.mem_cons_self
  | _ =>
    rw [embedded?] at he
    split at he <;> cases he

/-- What is found in a member of an object is found in the object, unless the member has a data
key. -/
theorem exists_findings_member (front back : List (String × Json)) {key : String} (value : Json)
    (hk : key ∉ dataKeys) (base pointer : String) (isTop : Bool) :
    ∃ place, findings
        ((embedded? base isTop (.object (front ++ (key, value) :: back))).getD base) place false value ⊆
      findings base pointer isTop (.object (front ++ (key, value) :: back)) := by
  have within (own pointer : String) : ∀ front : List (String × Json),
      findings own (Pointer.extend pointer key) false value ⊆
        inMembers own pointer (front ++ (key, value) :: back) := by
    intro front
    induction front with
    | nil =>
      rw [List.nil_append, inMembers, if_neg hk]
      exact List.subset_append_left _ _
    | cons member rest ih =>
      rw [List.cons_append, inMembers]
      exact List.subset_append_of_subset_right _ ih
  rw [findings]
  cases embedded? base isTop (.object (front ++ (key, value) :: back)) with
  | none => exact ⟨_, List.subset_append_of_subset_right _ (within base pointer front)⟩
  | some uri =>
    exact ⟨_, List.subset_cons_of_subset _
      (List.subset_append_of_subset_right _ (within uri "" front))⟩

theorem exists_findings_item (before after : List Json) (item : Json) (base pointer : String)
    (isTop : Bool) :
    ∃ place, findings base place false item ⊆
      findings base pointer isTop (.array (before ++ item :: after)) := by
  have within (before : List Json) : ∀ position, ∃ place,
      findings base place false item ⊆ inItems base pointer position (before ++ item :: after) := by
    induction before with
    | nil =>
      intro position
      rw [List.nil_append, inItems]
      exact ⟨_, List.subset_append_left _ _⟩
    | cons first rest ih =>
      intro position
      obtain ⟨place, sub⟩ := ih (position + 1)
      rw [List.cons_append, inItems]
      exact ⟨place, List.subset_append_of_subset_right _ sub⟩
  exact within before 0

/-- What is found in a schema is found in the schema around it, unless the property that it is
has a data key for its name. -/
theorem exists_findings_fill (frame : Frame) (hn : ∀ name ∈ frame.slot.name?, name ∉ dataKeys)
    (schema : Json) (base pointer : String) (isTop : Bool) :
    ∃ place, findings ((frame.slot.around schema).foldl
        (fun base value => (embedded? base false value).getD base)
        ((embedded? base isTop (frame.fill schema)).getD base)) place false schema ⊆
      findings base pointer isTop (frame.fill schema) := by
  obtain ⟨place, sub⟩ := exists_findings_member frame.front frame.back (frame.slot.fill schema)
    frame.keyword_not_mem base pointer isTop
  rw [Frame.fill]
  generalize (embedded? base isTop _).getD base = own at *
  cases hs : frame.slot with
  | whole =>
    rw [hs] at sub
    exact ⟨place, sub⟩
  | item before after =>
    rw [hs] at sub
    obtain ⟨place', sub'⟩ := exists_findings_item before after schema own place false
    exact ⟨place', List.Subset.trans sub' sub⟩
  | property before name after =>
    rw [hs] at sub hn
    obtain ⟨place', sub'⟩ := exists_findings_member before after schema (hn name rfl) own place false
    exact ⟨place', List.Subset.trans sub' sub⟩

/-- What is found in a schema is found in the document, unless a property on the way has a data
key for its name. -/
theorem exists_findings_way (way : List Frame) (hn : ∀ name ∈ Schema.names way, name ∉ dataKeys)
    (schema : Json) (base : String) :
    ∃ place, findings (Schema.baseAt base way schema) place way.isEmpty schema ⊆
      findings base "" true (Schema.fill way schema) := by
  -- Only the document is at the top, so what is below it is a statement of its own.
  have below (way : List Frame) : (∀ name ∈ Schema.names way, name ∉ dataKeys) →
      ∀ base pointer, ∃ place,
        findings ((Schema.passed way schema).foldl
          (fun base value => (embedded? base false value).getD base) base) place false schema ⊆
        findings base pointer false (Schema.fill way schema) := by
    induction way with
    | nil => exact fun _ base pointer => ⟨pointer, List.Subset.refl _⟩
    | cons frame rest ih =>
      intro hn base pointer
      obtain ⟨own, others⟩ := forall_names_cons.mp hn
      obtain ⟨place, sub⟩ := exists_findings_fill frame own (Schema.fill rest schema) base pointer false
      obtain ⟨place', sub'⟩ := ih others _ place
      refine ⟨place', List.Subset.trans ?_ sub⟩
      rw [Schema.passed, List.foldl_cons, List.foldl_append]
      exact sub'
  cases way with
  | nil => exact ⟨"", List.Subset.refl _⟩
  | cons frame rest =>
    obtain ⟨own, others⟩ := forall_names_cons.mp hn
    obtain ⟨place, sub⟩ := exists_findings_fill frame own (Schema.fill rest schema) base "" true
    obtain ⟨place', sub'⟩ := below rest others _ place
    refine ⟨place', List.Subset.trans ?_ sub⟩
    rw [Schema.baseAt, Schema.passed, List.tail_cons, List.foldl_append]
    exact sub'

/-! ## What is not looked at -/

/-- A finding without the contents of a resource. -/
def outline : Finding → Finding
  | .resource uri _ => .resource uri .null
  | finding => finding

/-- Two values in which the same names and anchors are found, wherever they stand. -/
structure Alike (value other : Json) : Prop where
  text : value.asString? = other.asString?
  found : ∀ base pointer isTop, (findings base pointer isTop value).map outline =
    (findings base pointer isTop other).map outline

variable {value other : Json}

/-- A text among the members of an object stays if another member is replaced, or one that is no
text by another that is none. -/
theorem text_of_replaced {key : String} (front back : List (String × Json)) (asked : String)
    (h : key ≠ asked ∨ value.asString? = other.asString?) :
    (Table.get? (front ++ (key, value) :: back) asked).bind Json.asString? =
      (Table.get? (front ++ (key, other) :: back) asked).bind Json.asString? := by
  rw [Table.get?_append, Table.get?_append]
  cases Table.get? front asked with
  | some found => rfl
  | none =>
    rw [Option.none_or, Option.none_or, Table.get?, Table.get?]
    split
    · rename_i hk
      exact h.resolve_left (absurd hk)
    · rfl

/-- In an object a member with a data key does not count, and of any other only what is found in
it. -/
theorem Alike.object {key : String} (front back : List (String × Json))
    (h : key ∈ dataKeys ∨ Alike value other) :
    Alike (.object (front ++ (key, value) :: back)) (.object (front ++ (key, other) :: back)) := by
  -- The keys that are asked for are no data keys, so such a member is never the one that is found.
  have text (asked : String) (ha : asked ∉ dataKeys) :=
    text_of_replaced front back asked (h.imp (fun hk e => ha (e ▸ hk)) Alike.text)
  have opened (base : String) (isTop : Bool) :
      embedded? base isTop (.object (front ++ (key, value) :: back)) =
        embedded? base isTop (.object (front ++ (key, other) :: back)) := by
    rw [embedded?, embedded?, Json.declaredId?, Json.declaredId?, Json.get?, Json.get?,
      text _ (by decide)]
  have anchor (own pointer : String) : anchorOf own pointer (front ++ (key, value) :: back) =
      anchorOf own pointer (front ++ (key, other) :: back) := by
    rw [anchorOf, anchorOf, text _ (by decide)]
  have members (own pointer : String) : ∀ front : List (String × Json),
      (inMembers own pointer (front ++ (key, value) :: back)).map outline =
        (inMembers own pointer (front ++ (key, other) :: back)).map outline := by
    intro front
    induction front with
    | nil =>
      rw [List.nil_append, List.nil_append, inMembers, inMembers, List.map_append, List.map_append]
      split
      · rfl
      · rename_i hk
        rw [(h.resolve_left hk).found]
    | cons member rest ih =>
      rw [List.cons_append, List.cons_append, inMembers, inMembers, List.map_append,
        List.map_append, ih]
  refine ⟨rfl, fun base pointer isTop => ?_⟩
  rw [findings, findings, ← opened]
  split
  · simp only [List.map_cons, List.map_append, anchor, members, outline]
  · simp only [List.map_append, anchor, members]

theorem Alike.array (before after : List Json) (h : Alike value other) :
    Alike (.array (before ++ value :: after)) (.array (before ++ other :: after)) := by
  have items (base pointer : String) : ∀ (before : List Json) (position : Nat),
      (inItems base pointer position (before ++ value :: after)).map outline =
        (inItems base pointer position (before ++ other :: after)).map outline := by
    intro before
    induction before with
    | nil =>
      intro position
      rw [List.nil_append, List.nil_append, inItems, inItems, List.map_append, List.map_append,
        h.found]
    | cons item rest ih =>
      intro position
      rw [List.cons_append, List.cons_append, inItems, inItems, List.map_append, List.map_append,
        ih]
  refine ⟨rfl, fun base pointer isTop => ?_⟩
  rw [findings, findings]
  exact items base pointer before 0

theorem Alike.slot (h : Alike value other) (slot : Slot) :
    Alike (slot.fill value) (slot.fill other) := by
  cases slot with
  | whole => exact h
  | item before after => exact h.array before after
  | property before name after => exact .object before after (.inr h)

/-- If a property on the way has a data key for its name, it makes no difference what stands at
the end of the way. -/
theorem alike_fill {way : List Frame} (h : ∃ name ∈ Schema.names way, name ∈ dataKeys)
    (value other : Json) : Alike (Schema.fill way value) (Schema.fill way other) := by
  induction way with
  | nil =>
    obtain ⟨_, hm, -⟩ := h
    cases hm
  | cons frame rest ih =>
    refine .object frame.front frame.back (.inr ?_)
    -- The innermost frame with such a property hides what is in it; the frames around keep that.
    by_cases below : ∃ name ∈ Schema.names rest, name ∈ dataKeys
    · exact (ih below).slot frame.slot
    · have own : ¬∀ name ∈ frame.slot.name?, name ∉ dataKeys := by
        intro own
        obtain ⟨name, hm, hd⟩ := h
        push Not at below
        exact (forall_names_cons (P := (· ∉ dataKeys))).mpr ⟨own, below⟩ name hm hd
      obtain ⟨front, keyword, slot, back, fits⟩ := frame
      cases slot with
      | whole => exact absurd nofun own
      | item => exact absurd nofun own
      | property before name after =>
        refine .object before after (.inl ?_)
        by_contra noData
        exact own fun _ hm => Option.some.inj hm ▸ noData

end Finding

namespace Registry

variable {registry : Registry} {uri own : String} {document : Resource}

/-! ## What is found is recorded -/

/-- What is known stays known. -/
theorem isSome_crawlAll (documents : List (String × Resource)) {name : String}
    (h : (registry.resources.get? name).isSome) :
    ((registry.crawlAll documents).resources.get? name).isSome :=
  crawlAll_of_put (P := fun table => (Table.get? table name).isSome)
    (fun _ uri resource known => Table.isSome_get?_put known uri resource) documents h

/-- Each document has its turn. -/
theorem exists_turn (hm : (uri, document) ∈ registry.resources) :
    ∃ before after, registry.crawl =
      ((registry.crawlAll before).crawlDocument (uri, document)).crawlAll after := by
  obtain ⟨before, after, split⟩ := List.append_of_mem hm
  refine ⟨before, after, ?_⟩
  rw [crawl, crawlAll, split, List.foldl_append, List.foldl_cons]
  rfl

/-- A document is known under the name it goes by, whatever other documents there are. -/
theorem isSome_nameOf (hm : (uri, document) ∈ registry.resources) :
    (registry.crawl.resources.get? (nameOf uri document)).isSome := by
  have registered : (registry.resources.get? uri).isSome := by
    rw [Option.isSome_iff_ne_none, ne_eq, Table.get?_eq_none_iff, not_not]
    exact List.mem_map.mpr ⟨_, hm, rfl⟩
  obtain ⟨before, after, turn⟩ := exists_turn hm
  rw [turn]
  refine isSome_crawlAll after ?_
  refine foldl_record_of_put (P := fun table => (Table.get? table (nameOf uri document)).isSome)
    (fun _ uri resource known => Table.isSome_get?_put known uri resource) _ ?_
  cases hi : document.id with
  | none =>
    rw [adopt, hi, nameOf, hi]
    exact isSome_crawlAll before registered
  | some id =>
    rw [adopt_of_id hi, if_pos rfl]
    cases Table.get? ((registry.crawlAll before).renamed uri (nameOf uri document))
      (nameOf uri document) <;> rfl

/-- A resource that is found is known. -/
theorem isSome_of_resource_mem (hm : (uri, document) ∈ registry.resources) {contents : Json}
    (hf : .resource own contents ∈
      Finding.findings (nameOf uri document) "" true document.contents) :
    (registry.crawl.resources.get? own).isSome := by
  obtain ⟨before, after, turn⟩ := exists_turn hm
  have found : own ∈ embedded uri document := List.mem_filterMap.mpr ⟨_, hf, rfl⟩
  obtain ⟨contents, known⟩ :=
    get?_foldl_record_of_mem found ((registry.crawlAll before).adopt uri document)
  rw [turn]
  refine isSome_crawlAll after ?_
  rw [crawlDocument, known, Option.isSome_some]

/-- An anchor that is found is recorded. -/
theorem isSome_of_anchor_mem (hm : (uri, document) ∈ registry.resources) {name place : String}
    (hf : .anchor own name place ∈
      Finding.findings (nameOf uri document) "" true document.contents) :
    (registry.crawl.anchors.get? (own, name)).isSome := by
  rw [crawl, get?_anchors_crawlAll, Option.isSome_or, Bool.or_eq_true]
  left
  rw [Option.isSome_iff_ne_none, ne_eq, Table.get?_eq_none_iff, not_not, Table.keys,
    List.map_reverse, List.mem_reverse]
  exact List.mem_map.mpr ⟨_, List.mem_flatMap.mpr ⟨_, hm, List.mem_filterMap.mpr ⟨_, hf, rfl⟩⟩, rfl⟩

/-! ## Schemas that are found -/

variable {way : List Schema.Frame} {schema : Json}

/-- If no property on the way to a schema in a document has a data key for its name, the anchor of
the schema is recorded under the resource it stands in or begins, and if it declares a name, that
resource is registered.  If one has, the same names and anchors are found whatever stands in the
place of the schema.  The resource is that of the document if nothing on the way declares a name,
or the one that the schema declares. -/
theorem subschema_crawled
    (hm : (uri, Resource.ofContents (Schema.fill way schema)) ∈ registry.resources) :
    let base := nameOf uri (Resource.ofContents (Schema.fill way schema))
    ((∀ name ∈ Schema.names way, name ∉ Finding.dataKeys) →
      (∀ anchor, schema.get? "$anchor" = some (.string anchor) →
        (registry.crawl.anchors.get? (Schema.ownerAt base way schema, anchor)).isSome) ∧
      (∀ id, schema.declaredId? = some id →
        (registry.crawl.resources.get? (Schema.ownerAt base way schema)).isSome)) ∧
    ((∃ name ∈ Schema.names way, name ∈ Finding.dataKeys) → ∀ other,
      (Finding.findings base "" true (Schema.fill way other)).map Finding.outline =
        (Finding.findings base "" true (Schema.fill way schema)).map Finding.outline) ∧
    ((∀ value ∈ (Schema.passed way schema).tail, value.declaredId? = none) →
      Schema.ownerAt base way schema = if way.isEmpty then base else
        schema.declaredId?.elim base fun id => (Uri.defrag (Uri.join base id)).1) := by
  intro base
  refine ⟨fun hn => ?_, fun hd other => (Finding.alike_fill hd _ _).found _ _ _, fun hw => ?_⟩
  · obtain ⟨place, sub⟩ := Finding.exists_findings_way way hn schema base
    constructor
    · intro anchor ha
      obtain ⟨pointer, hf⟩ := Finding.exists_anchor_mem ha _ place _
      exact isSome_of_anchor_mem hm (sub hf)
    · intro id hi
      rw [Schema.ownerAt]
      cases he : Finding.embedded? (Schema.baseAt base way schema) way.isEmpty schema with
      | some own => exact isSome_of_resource_mem hm (sub (Finding.exists_resource_mem he place))
      | none =>
        cases way with
        | nil => exact isSome_nameOf hm
        | cons frame rest =>
          rw [Finding.embedded?, hi] at he
          cases he
  · rw [Schema.ownerAt, Schema.baseAt_eq hw, Finding.embedded?]
    cases way with
    | nil => rfl
    | cons frame rest => cases schema.declaredId? <;> rfl

/-- A way to a property of an object. -/
def propertyWay (name : String) : List Schema.Frame :=
  [⟨[("type", .string "object")], "properties", .property [] name [], [], List.mem_cons_self⟩]

/-- A schema with an anchor. -/
def anchoredText : Json := .object [("$anchor", .string "x"), ("type", .string "string")]

/-- Two documents with the same schema, once as a property of an ordinary name and once as one
that has a data key for its name. -/
def hidden : Registry :=
  Registry.register
    (Registry.register {} "Root" (Schema.fill (propertyWay "default") anchoredText))
    "Other" (Schema.fill (propertyWay "mode") anchoredText)

/-- The anchor of the ordinary property is recorded under the name of the document.  That of the
other is not, and would not be whatever the property was. -/
theorem hidden_subschema_crawled :
    (hidden.crawl.anchors.get? ("Other", "x")).isSome ∧
    hidden.crawl.anchors.get? ("Root", "x") = none ∧
    ∀ other, (Finding.findings "Root" "" true (Schema.fill (propertyWay "default") other)).map
        Finding.outline =
      (Finding.findings "Root" "" true (Schema.fill (propertyWay "default") anchoredText)).map
        Finding.outline := by
  have root : ("Root", Resource.ofContents (Schema.fill (propertyWay "default") anchoredText)) ∈
      hidden.resources := List.mem_cons_self
  have other : ("Other", Resource.ofContents (Schema.fill (propertyWay "mode") anchoredText)) ∈
      hidden.resources := List.mem_cons_of_mem _ List.mem_cons_self
  refine ⟨?_, by decide +kernel, ?_⟩
  · exact ((subschema_crawled other).1 (by decide)).1 "x" rfl
  · exact (subschema_crawled root).2.1 (by decide)

end Registry

end SchemaDoc
