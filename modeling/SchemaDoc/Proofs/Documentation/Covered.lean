import SchemaDoc.Proofs.Documentation.Ends
import SchemaDoc.Proofs.Documentation.Linked

/-!
# What is reached is documented

A documentation of everything has an entry for each property of the types that are *reached* from
the type that it documents, `Session.Reached`, by references that stand anywhere in them: in
properties, in items, in members or in what is said of all other properties.  A type that may not
be inlined has an entry of its own, and a type that may be is documented where the one reference to
it stands.

There is one place that a documentation does not look at.  An object with properties is documented
property by property, and the references in the type of all its other properties are *concealed*,
`Ty.Conceals`.  So a type that may be inlined is not reached by such a reference.  No other
references are lost, because a type in normal form that is taken apart has nothing but its parts,
`Ty.enters_or_conceals`.
-/

namespace SchemaDoc

open Relation (TransGen)

/-! ## References that are concealed -/

namespace Ty

/-- A reference stands in the type of all other properties of an object with properties, in a part
of a type, or in the type. -/
inductive Conceals : Ty → String → Prop where
  | rest {notes : Annotations} {const : Option Json} {member : String × Ty}
      {members : List (String × Ty)} {rest : Ty} {target : String} : target ∈ rest.targets →
      Conceals ⟨notes, const, .object (member :: members) (some rest)⟩ target
  | part {ty part : Ty} {parts : List Ty} {target : String} : ty.parts? = some parts →
      part ∈ parts → Conceals part target → Conceals ty target

/-- Null has no targets. -/
theorem targets_of_isNull {ty : Ty} (h : ty.isNull = true) : ty.targets = [] := by
  obtain ⟨notes, const, shape⟩ := ty
  cases shape <;> first | rfl | cases h

/-- An option in normal form is a union of null and its member. -/
theorem exists_of_present? {ty item : Ty} (normal : ty.IsNormal) (h : ty.present? = some item) :
    ∃ notes const form null, null.isNull = true ∧ item.isNull = false ∧
      (ty = ⟨notes, const, .union form [null, item] true⟩ ∨
        ty = ⟨notes, const, .union form [item, null] true⟩) := by
  obtain ⟨notes, const, shape⟩ := ty
  cases shape with
  | union form items nullable =>
    rw [present?] at h
    dsimp only at h
    split at h
    · rename_i optional
      simp only [Bool.and_eq_true, beq_iff_eq] at optional
      obtain ⟨rfl, two⟩ := optional
      obtain ⟨first, second, rfl⟩ := List.length_eq_two.mp two
      have present : item.isNull = false := by simpa using List.find?_some h
      obtain ⟨null, hn, isNull⟩ := (normal : NormalUnion form [first, second] true).nullable_iff.mp rfl
      have differs : item ≠ null := by
        rintro rfl
        exact absurd (present.symm.trans isNull) Bool.false_ne_true
      have hi := List.mem_of_find?_eq_some h
      simp only [List.mem_cons, List.not_mem_nil, or_false] at hi hn
      refine ⟨notes, const, form, null, isNull, present, ?_⟩
      rcases hi with rfl | rfl <;> rcases hn with rfl | rfl
      · exact absurd rfl differs
      · exact .inr rfl
      · exact .inl rfl
      · exact absurd rfl differs
    · cases h
  | leaf _ => cases h
  | reference _ => cases h
  | object _ _ => cases h
  | array _ _ => cases h
  | tuple _ _ => cases h
  | intersection _ => cases h

/-- An option in normal form is unwrapped in one step. -/
theorem unwrapOptional_of_normal {ty item : Ty} (normal : ty.IsNormal)
    (h : ty.present? = some item) : ty.unwrapOptional = item := by
  rw [unwrapOptional_of_present? h]
  apply unwrapOptional_of_not_isOptional
  have flat : item.isUnion = false := by
    obtain ⟨notes, const, form, null, -, -, rfl | rfl⟩ := exists_of_present? normal h
    · exact (normal : NormalUnion form [null, item] true).flat item (by simp)
    · exact (normal : NormalUnion form [item, null] true).flat item (by simp)
  obtain ⟨notes, const, shape⟩ := item
  cases shape with
  | union form items nullable => cases flat
  | _ => rfl

/-- An option in normal form has no targets but those of its member. -/
theorem mem_targets_of_present? {ty item : Ty} (normal : ty.IsNormal) (h : ty.present? = some item)
    {target : String} (ht : target ∈ ty.targets) : target ∈ item.targets := by
  obtain ⟨notes, const, form, null, isNull, -, rfl | rfl⟩ := exists_of_present? normal h
  all_goals
    rw [targets_eq rfl] at ht
    simpa [children, Shape.parts, targets_of_isNull isNull] using ht

/-- The references in a type in normal form are entered, unless they are concealed. -/
theorem enters_or_conceals {ty : Ty} {target : String} :
    ty.Everywhere IsNormal → target ∈ ty.targets → ty.Enters target ∨ ty.Conceals target := by
  induction ty using Ty.induct with
  | step ty ih =>
    intro normal ht
    have inPart {part : Ty} {parts : List Ty} (ho : ty.parts? = some parts) (hm : part ∈ parts)
        (ht : target ∈ part.targets) : ty.Enters target ∨ ty.Conceals target := by
      have child := parts?_subset ho hm
      exact (ih part child (normal.inside part child) ht).imp (.part ho hm) (.part ho hm)
    cases ty.layout with
    | option hp ho => exact inPart ho List.mem_cons_self (mem_targets_of_present? normal.here hp ht)
    | group ho =>
      rw [targets_eq rfl, List.mem_flatMap] at ht
      obtain ⟨child, hc, ht⟩ := ht
      rcases List.mem_append.mp hc with hm | hr
      · exact inPart ho hm ht
      · rename_i rest
        cases rest with
        | none => cases hr
        | some rest => exact .inr (.rest (List.mem_singleton.mp hr ▸ ht))
    | values _ ho =>
      rw [targets_eq rfl, List.mem_flatMap] at ht
      obtain ⟨item, hi, ht⟩ := ht
      exact inPart ho hi ht
    | plain _ ho => exact .inl (.reference ho ht)

/-- Nothing is concealed in an object without a type for other properties, if its properties are not
taken apart. -/
theorem not_conceals {ty : Ty} {target : String} (closed : ty.unnamedChildren = [])
    (plain : ∀ child ∈ ty.children, child.parts? = none) : ¬ ty.Conceals target := by
  intro conceals
  cases conceals with
  | rest _ => cases closed
  | part ho hm inner =>
    have whole := plain _ (parts?_subset ho hm)
    cases inner with
    | rest _ => cases whole
    | part ho _ _ =>
      rw [whole] at ho
      cases ho

end Ty

/-! ## What is reached -/

/-- In a complete session no documentation runs in a circle. -/
theorem Session.Complete.not_circles {session : Session} (c : session.Complete) (ty : Ty) :
    ¬ session.Circles ty := by
  refine Session.not_circles (fun id cycle => ?_) c.named ty
  have older {id target : String} (way : TransGen session.Inlines id target) :
      session.age target < session.age id := by
    induction way with
    | single edge => exact c.older _ _ edge
    | tail _ edge ih => exact Nat.lt_trans (c.older _ _ edge) ih
  exact Nat.lt_irrefl _ (older cycle)

/-- A type is reached by references from another, in the cache of a session.  Where a reference is
concealed its target is not reached by it, unless that may not be inlined. -/
inductive Session.Reached (session : Session) (root : Ty) : Ty → Prop where
  | root : Reached session root root
  | target {ty found : Ty} {target : String} : Reached session root ty → target ∈ ty.targets →
      (session.canInline target = true → ¬ ty.Conceals target) →
      session.get? target = some found → Reached session root found

/-- Whether an entry with a name is entered. -/
def Event.enters (name : String) : Event → Bool
  | .enter head => head.name == name
  | _ => false

namespace Documentation

open Block (eventsOfAll)

variable {doc : Documentation} {root : Ty} {title : Option String}

/-- What is under a type is among some blocks, with something else said about the type maybe. -/
def LaysOut (doc : Documentation) (blocks : List Block) (ty : Ty) : Prop :=
  ∃ root path found, found.shape = ty.shape ∧
    eventsOfAll (doc.underAll root path found) <:+: eventsOfAll blocks

theorem LaysOut.mono {blocks others : List Block} {ty : Ty} (h : doc.LaysOut blocks ty)
    (within : eventsOfAll blocks <:+: eventsOfAll others) : doc.LaysOut others ty := by
  obtain ⟨root, path, found, shape, there⟩ := h
  exact ⟨root, path, found, shape, there.trans within⟩

/-- The entry that a property has if its object gives it a default. -/
def propertyEntry (session : Session) (given : Option Json) (name : String) (child : Ty) : Entry :=
  { innerEntry session name (shown session given child) with
    required := (shown session given child).annotations.required
    deprecated := (shown session given child).annotations.deprecated }

/-- What is under an object are the entries of its properties. -/
theorem LaysOut.enter (whole : doc.Whole) (straight : ∀ ty, ¬ doc.session.Circles ty)
    {blocks : List Block} {ty child : Ty} {name : String} (h : doc.LaysOut blocks ty)
    (hc : (name, child) ∈ ty.properties) :
    ∃ given, .enter (propertyEntry doc.session given name child) ∈ eventsOfAll blocks := by
  obtain ⟨root, path, ⟨notes, const, shape⟩, rfl, within⟩ := h
  rw [underAll_eq (straight _)] at within
  cases hs : ty.shape with
  | object members rest =>
    rw [Ty.properties, hs] at hc
    cases members with
    | nil => cases hc
    | cons member members =>
      rw [hs, under, underMembers_eq] at within
      refine ⟨(memberDefaults notes.default).bind fun table => table.get? name, ?_⟩
      have entry := (infix_flatMap (fun member : String × Ty => doc.memberBlocks root
        (doc.underAll root) path ((memberDefaults notes.default).bind fun table =>
          table.get? member.1) member.1 member.2) hc).trans within
      refine entry.subset ?_
      dsimp only
      rw [memberBlocks, whole.entryBlocks]
      exact List.mem_cons_self
  | _ =>
    rw [Ty.properties, hs] at hc
    cases hc

/-- If all types are documented already or may be inlined, none come last. -/
theorem remaining_eq_nil {doc : Documentation} {done : List String} {types : List (String × Ty)}
    (h : ∀ entry ∈ types, done.contains entry.1 || doc.session.canInline entry.1) :
    doc.remaining done types = [] := by
  induction types with
  | nil => rfl
  | cons entry rest ih =>
    rw [List.forall_mem_cons] at h
    rw [remaining, h.1, Bool.true_or, if_pos rfl, ih h.2]

section Full

variable (full : doc.Full)

include full

theorem Full.whole : doc.Whole := ⟨full.recursive, full.excluded⟩

/-- The entry of a type has what is under it. -/
theorem Full.laysOut_typeBlocks (ty : Ty) : doc.LaysOut (doc.typeBlocks ty) ty := by
  refine ⟨ty.id, "", ty, rfl, ?_⟩
  rw [typeBlocks, full.unwrapped?]
  exact full.whole.infix_entryBlocks _ _ _ fun _ => doc.underAll ty.id "" ty

variable (c : doc.session.Complete) (met : doc.session.Meets root)

include c met

/-- A type that may not be inlined, other than the one that is documented, is among those that come
last. -/
theorem Full.mem_remaining {id : String} {ty : Ty} (hg : doc.session.get? id = some ty)
    (hl : doc.session.canInline id = false) (other : id ≠ root.id) :
    doc.typeBlocks ty ∈ doc.remaining (doc.documented root) doc.session.loaded := by
  have last := names_remaining full c doc.session.loaded
    (((List.mergeSort_perm _ _).map Prod.fst).nodup_iff.mpr c.nodup)
    (fun entry he => c.ids _ _ (Session.get?_of_loaded c.nodup he))
    (fun entry he => Session.meets_of_get? (Session.get?_of_loaded c.nodup he)) (doc.documented root)
  have new : id ∉ doc.documented root := by
    rw [full.documented]
    intro mem
    rcases (outer_typeBlocks full c met).ids id mem with same | inline
    · exact other same
    · exact absurd (hl.symm.trans inline) Bool.false_ne_true
  have named : id ∈ Event.outermostNames
      (eventsOfAll (doc.remaining (doc.documented root) doc.session.loaded).flatten) := by
    rw [last, List.mem_filter]
    refine ⟨?_, by simp [new, hl]⟩
    exact List.mem_map_of_mem ((List.mergeSort_perm _ _).mem_iff.mpr (Table.mem_of_get? hg))
  rw [Event.outermostNames, Block.outermost_eq, List.mem_map] at named
  obtain ⟨head, hh, rfl⟩ := named
  obtain ⟨block, hb, hh⟩ := List.mem_filterMap.mp hh
  obtain ⟨blocks, hr, hb⟩ := List.mem_flatten.mp hb
  obtain ⟨entry, he, rfl⟩ := exists_of_mem_remaining hr
  have kept := Session.get?_of_loaded c.nodup he
  have name : head.name ∈ Event.outermostNames (eventsOfAll (doc.typeBlocks entry.2)) := by
    rw [Event.outermostNames, Block.outermost_eq]
    exact List.mem_map_of_mem (List.mem_filterMap.mpr ⟨block, hb, hh⟩)
  rw [(outer_typeBlocks full c (Session.meets_of_get? kept)).names, List.mem_singleton] at name
  rw [name, c.ids _ _ kept, kept] at hg
  cases hg
  exact hr

omit c met in
/-- What is under the type that is documented is there. -/
theorem Full.laysOut_root (title : Option String) : doc.LaysOut (doc.blocks title root) root := by
  refine (full.laysOut_typeBlocks root).mono ?_
  rw [blocks, Block.eventsOfAll_append, Block.eventsOfAll_append]
  exact (List.suffix_append _ _).isInfix.trans (List.prefix_append _ _).isInfix

/-- What is under a type that may not be inlined is there. -/
theorem Full.laysOut_of_link (title : Option String) (hr : doc.session.get? root.id = some root)
    {id : String} {ty : Ty} (hg : doc.session.get? id = some ty)
    (hl : doc.session.canInline id = false) : doc.LaysOut (doc.blocks title root) ty := by
  by_cases same : id = root.id
  · rw [same, hr] at hg
    cases hg
    exact full.laysOut_root title
  · have last := full.mem_remaining c met hg hl same
    have there := infix_flatMap (fun blocks : List Block => blocks) last
    rw [List.flatMap_id'] at there
    refine (full.laysOut_typeBlocks ty).mono (there.trans ?_)
    rw [blocks, full.recursive, if_pos rfl, Block.eventsOfAll_append]
    refine List.IsInfix.trans ?_ (List.suffix_append _ _).isInfix
    rw [typesSection]
    cases hr : doc.remaining (doc.documented root) doc.session.loaded with
    | nil =>
      rw [hr] at last
      cases last
    | cons types rest => exact (List.suffix_cons _ _).isInfix

/-- What is under a type that is reached is there. -/
theorem Full.laysOut_of_reached (title : Option String)
    (hr : doc.session.get? root.id = some root)
    (normal : ∀ id ty, doc.session.get? id = some ty → ty.Everywhere Ty.IsNormal) {ty : Ty}
    (h : doc.session.Reached root ty) : doc.LaysOut (doc.blocks title root) ty := by
  suffices (∃ id, doc.session.get? id = some ty) ∧ doc.LaysOut (doc.blocks title root) ty from this.2
  induction h with
  | root => exact ⟨⟨_, hr⟩, full.laysOut_root title⟩
  | @target ty found target _ ht open' hg ih =>
    obtain ⟨⟨id, kept⟩, outer, path, same, shape, within⟩ := ih
    refine ⟨⟨target, hg⟩, ?_⟩
    cases hi : doc.session.canInline target with
    | false => exact full.laysOut_of_link c met title hr hg hi
    | true =>
      have enters := (Ty.enters_or_conceals (normal id ty kept) ht).resolve_right (open' hi)
      have goes : doc.session.GoesInto same target :=
        ⟨Ty.enters_of_shape shape enters, hi, by rw [hg]; rfl⟩
      rw [underAll_eq (c.not_circles _)] at within
      obtain ⟨inner, other, shape, there⟩ := full.whole.holdsTarget_under goes path same.default?
      rw [hg] at shape
      exact ⟨outer, inner, other, shape, there.trans within⟩

end Full

end Documentation

/-! ## Everything that is reached -/

namespace Session

open Documentation (propertyEntry)

/-- After loads that all succeed a name that loads can be documented.  If nothing is left out, each
property of each type that is reached by references has an entry, with the default that some object
gives it. -/
theorem reached_documented {registry : Registry} (keyword : String) (hb : registry.Built)
    (ha : registry.Addressed) (hs : registry.Separate) (uris : List String)
    (ok : (fresh registry.crawl keyword).loadsAll uris = true) {uri : String} {root : Ty}
    {loaded : Session}
    (hl : ((fresh registry.crawl keyword).loadAll uris).load uri = (.ok root, loaded))
    (title : Option String) :
    ∃ blocks, ((fresh registry.crawl keyword).loadAll uris).document uri
        { recursive := true, title } = (.ok blocks, loaded) ∧
      ∀ ty, loaded.Reached root ty → ∀ name child, (name, child) ∈ ty.properties →
        ∃ given, .enter (propertyEntry loaded given name child) ∈ Block.eventsOfAll blocks := by
  have run : (fresh registry.crawl keyword).loadAll (uris ++ [uri]) = loaded := loadAll_of_load hl []
  have c := complete_of_load keyword hb ha hs uris ok hl
  obtain ⟨id, hg⟩ := exists_get?_of_load
    (resting_loadAll uris (fresh_resting registry.crawl keyword)) hl []
  have hr : loaded.get? root.id = some root := by rwa [c.ids id root hg]
  have normal (id : String) (ty : Ty) (hg : loaded.get? id = some ty) :
      ty.Everywhere Ty.IsNormal := by
    rw [← run] at hg
    exact forall_cached Ty.inherited_normal registry.crawl keyword (uris ++ [uri]) hg
  have full : Documentation.Full ⟨loaded, true, false, []⟩ := ⟨rfl, rfl, rfl⟩
  refine ⟨Documentation.blocks ⟨loaded, true, false, []⟩ title root, ?_, fun ty reached name child hc => ?_⟩
  · rw [document, hl]
    rfl
  · have laid := full.laysOut_of_reached c (meets_of_get? hg) title hr normal reached
    exact laid.enter full.whole c.not_circles hc

/-- An object with a definition `P`, which has a property `x`. -/
def definingSchema (members : List (String × Json)) : Json :=
  .object (("type", .string "object") :: ("$defs", .object [("P", .object [("type", .string "object"),
    ("properties", .object [("x", .object [("type", .string "string")])])])]) :: members)

/-- A reference to the definition. -/
def definedReference : Json := .object [("$ref", .string "#/$defs/P")]

/-- A list of the defined type. -/
def listingSchema : Json :=
  definingSchema [("properties", .object [("list", .object [("type", .string "array"),
    ("items", definedReference)])])]

/-- In a list the defined type is reached, and its property has an entry. -/
theorem listed_reached_documented :
    ∃ root loaded blocks ty child, (fresh (Registry.register {} "Root" listingSchema).crawl
        "mark").load "Root" = (.ok root, loaded) ∧
      (fresh (Registry.register {} "Root" listingSchema).crawl "mark").document "Root"
        { recursive := true } = (.ok blocks, loaded) ∧
      loaded.Reached root ty ∧ ("x", child) ∈ ty.properties ∧
      ∃ given, .enter (propertyEntry loaded given "x" child) ∈ Block.eventsOfAll blocks := by
  have computed : passes ((fresh (Registry.register {} "Root" listingSchema).crawl "mark").load
      "Root") (fun root loaded =>
        root.unnamedChildren.isEmpty && root.children.all (fun child => child.parts?.isNone) &&
          root.targets.contains "Root#/$defs/P" &&
          ((loaded.get? "Root#/$defs/P").bind fun ty => Table.get? ty.properties "x").isSome) =
      true := by decide +kernel
  obtain ⟨root, loaded, hl, computed⟩ := exists_of_passes computed
  simp only [Bool.and_eq_true, List.contains_iff_mem, List.isEmpty_iff, List.all_eq_true,
    Option.isNone_iff_eq_none] at computed
  obtain ⟨⟨⟨closed, plain⟩, ht⟩, found⟩ := computed
  obtain ⟨child, found⟩ := Option.isSome_iff_exists.mp found
  obtain ⟨ty, hg, hc⟩ := Option.bind_eq_some_iff.mp found
  have hc := Table.mem_of_get? hc
  have reached : loaded.Reached root ty :=
    .target .root ht (fun _ => Ty.not_conceals closed plain) hg
  obtain ⟨blocks, hd, entries⟩ := reached_documented "mark" (.register "Root" listingSchema .empty)
    (by decide +kernel) (by decide +kernel) [] rfl hl none
  exact ⟨root, loaded, blocks, ty, child, hl, hd, reached, hc, entries ty reached "x" child hc⟩

/-- An object with a property, whose other properties are of the defined type. -/
def concealingSchema : Json :=
  definingSchema [("properties", .object [("a", .object [("type", .string "string")])]),
    ("additionalProperties", definedReference)]

/-- Not every type that is referred to has entries for its properties: where the reference is that
of the other properties of an object, and the only one, there are none. -/
theorem not_targets_documented :
    ¬ ∀ (registry : Registry) (keyword uri : String) (root : Ty) (loaded : Session), registry.Built →
      registry.Addressed → registry.Separate →
      (fresh registry.crawl keyword).load uri = (.ok root, loaded) →
      ∃ blocks, (fresh registry.crawl keyword).document uri { recursive := true } =
          (.ok blocks, loaded) ∧
        ∀ target ∈ root.targets, ∀ ty, loaded.get? target = some ty → ∀ name child,
          (name, child) ∈ ty.properties →
            ∃ head, head.name = name ∧ .enter head ∈ Block.eventsOfAll blocks := by
  intro all
  have computed : passes ((fresh (Registry.register {} "Root" concealingSchema).crawl "mark").load
      "Root") (fun root loaded =>
        root.targets.contains "Root#/$defs/P" &&
          ((loaded.get? "Root#/$defs/P").bind fun ty => Table.get? ty.properties "x").isSome &&
          (loaded.cache.all fun entry =>
            (Documentation.documented ⟨loaded, true, false, []⟩ root).contains entry.1 ||
              loaded.canInline entry.1) &&
          !(Block.eventsOfAll (Documentation.typeBlocks ⟨loaded, true, false, []⟩ root)).any
            (Event.enters "x")) = true := by decide +kernel
  obtain ⟨root, loaded, hl, computed⟩ := exists_of_passes computed
  simp only [Bool.and_eq_true, List.contains_iff_mem, List.all_eq_true, Bool.not_eq_true',
    List.any_eq_false] at computed
  obtain ⟨⟨⟨ht, found⟩, last⟩, others⟩ := computed
  obtain ⟨child, found⟩ := Option.isSome_iff_exists.mp found
  obtain ⟨ty, hg, hc⟩ := Option.bind_eq_some_iff.mp found
  obtain ⟨blocks, hd, entries⟩ := all _ "mark" "Root" root loaded
    (.register "Root" concealingSchema .empty) (by decide +kernel) (by decide +kernel) hl
  obtain ⟨head, name, entered⟩ := entries _ ht ty hg "x" child (Table.mem_of_get? hc)
  obtain ⟨root', hl', rfl⟩ := load_of_document hd
  rw [hl] at hl'
  cases hl'
  have none : Documentation.remaining ⟨loaded, true, false, []⟩
      (Documentation.documented ⟨loaded, true, false, []⟩ root) loaded.loaded = [] :=
    Documentation.remaining_eq_nil fun entry he => last entry ((List.mergeSort_perm _ _).mem_iff.mp he)
  have entered : .enter head ∈ Block.eventsOfAll
      (Documentation.typeBlocks ⟨loaded, true, false, []⟩ root) := by
    simpa [Documentation.blocks, Documentation.typesSection, none] using entered
  exact absurd (beq_iff_eq.mpr name) (others _ entered)

end Session

end SchemaDoc
