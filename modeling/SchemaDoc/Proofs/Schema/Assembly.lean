import SchemaDoc.Proofs.Schema.References

/-!
# Arms, wholes and members

A congruence says one thing of all types that compiling builds.  Some things hold of what a
schema is compiled to, a *whole*, but not of the *arms* that are put together on the way: the
types that a schema declares, its constants and the union of these.  A *member* of an object
is again another thing, since the object has a say in it.

`Ty.Assembly` lists what compiling makes of the one and the other, and `Ty.Assembly.build` says
that a schema is compiled to a whole if its references are answered by wholes.  A property may
be a member because it is marked, so what is marked in a schema is part of that.
-/

namespace SchemaDoc

namespace Schema

/-! ## Schemas inside a schema -/

/-- The schemas directly in a schema. -/
def parts (schema : Schema) : List Schema :=
  schema.arrays.items.toList ++ schema.arrays.firstItems.getD [] ++
    schema.objects.properties.map Property.schema ++ schema.objects.rest.toList ++
    schema.anyOf ++ schema.oneOf ++ schema.allOf

/-- A schema stands in another at some depth. -/
inductive Holds : Schema → Schema → Prop where
  | self {schema : Schema} : Holds schema schema
  | part {schema part inner : Schema} : part ∈ schema.parts → Holds part inner → Holds schema inner

/-- A property of some name is marked in a schema, at some depth. -/
def Marks (schema : Schema) (name : String) : Prop :=
  ∃ inner, schema.Holds inner ∧
    ∃ property ∈ inner.objects.properties, property.name = name ∧ property.marked = true

/-- In a schema only properties of some names are marked. -/
def MarksOnly (marks : String → Prop) (schema : Schema) : Prop :=
  ∀ name, schema.Marks name → marks name

variable {marks : String → Prop} {schema : Schema}

theorem MarksOnly.part (h : schema.MarksOnly marks) {part : Schema} (hp : part ∈ schema.parts) :
    part.MarksOnly marks := by
  rintro name ⟨inner, holds, marked⟩
  exact h name ⟨inner, .part hp holds, marked⟩

theorem MarksOnly.own (h : schema.MarksOnly marks) {property : Property Schema}
    (hp : property ∈ schema.objects.properties) (marked : property.marked = true) :
    marks property.name := h _ ⟨schema, .self, property, hp, rfl, marked⟩

end Schema

/-! ## What compiling puts together -/

/-- What compiling makes of the arms, the wholes and the members of types, if only properties
of some names are marked. -/
structure Ty.Assembly (marks : String → Prop) (arm whole : Ty → Prop)
    (member : String → Ty → Prop) : Prop where
  any : whole .any
  leaf : ∀ kind, arm (.ofLeaf kind)
  const : ∀ value, arm (.ofConst value)
  array : ∀ unique {item}, whole item → arm (.ofShape (.array unique item))
  object : ∀ {members : List (String × Ty)} {rest : Option Ty},
    (∀ entry ∈ members, member entry.1 entry.2) → (∀ ty ∈ rest, whole ty) →
    arm (Ty.ofShape (.object members rest)).propagateScope
  property : ∀ defaults required {name marked ty}, (marked = true → marks name) → whole ty →
    member name (Schema.propertyType defaults required name marked ty)
  ofWhole : ∀ {ty}, whole ty → arm ty
  oneOf : ∀ {types}, types ≠ [] → (∀ ty ∈ types, arm ty) → arm (.oneOf types)
  tuple : ∀ (overlay : Schema.Overlay) {items tail}, (∀ ty ∈ items, whole ty) →
    (∀ ty ∈ tail, whole ty) → whole (overlay.apply (.ofShape (.tuple items tail))).propagateScope
  anything : ∀ overlay : Schema.Overlay, whole (overlay.apply .any).propagateScope
  allOf : ∀ (overlay : Schema.Overlay) {types}, types ≠ [] → (∀ ty ∈ types, arm ty) →
    whole (overlay.apply (.allOf types)).propagateScope

namespace Schema

/-- A computation has a result of some kind, if it is given wholes as answers, and leaves wholes
as answers. -/
def Yields {α : Type} (whole : Ty → Prop) (S : α → Prop) (x : StateM (List Ty) α) : Prop :=
  ∀ types, (∀ ty ∈ types, whole ty) → S (x types).1 ∧ ∀ ty ∈ (x types).2, whole ty

namespace Yields

variable {whole : Ty → Prop} {α β : Type}

theorem pure {S : α → Prop} {a : α} (h : S a) : Yields whole S (Pure.pure a) := fun _ hw => ⟨h, hw⟩

theorem bind {S : α → Prop} {T : β → Prop} {x : StateM (List Ty) α}
    {f : α → StateM (List Ty) β} (hx : Yields whole S x)
    (hf : ∀ a, S a → Yields whole T (f a)) : Yields whole T (x >>= f) := by
  intro types hw
  obtain ⟨first, rest⟩ := hx types hw
  exact hf _ first _ rest

theorem imp {S T : α → Prop} {x : StateM (List Ty) α} (h : Yields whole S x)
    (himp : ∀ a, S a → T a) : Yields whole T x :=
  fun types hw => ⟨himp _ (h types hw).1, (h types hw).2⟩

theorem mapM {ι : Type} {S : α → Prop} {f : ι → StateM (List Ty) α} {items : List ι}
    (h : ∀ i ∈ items, Yields whole S (f i)) :
    Yields whole (fun results => ∀ a ∈ results, S a) (items.mapM f) := by
  induction items with
  | nil => exact .pure nofun
  | cons item rest ih =>
    rw [List.forall_mem_cons] at h
    rw [List.mapM_cons]
    refine .bind (h.1) fun a ha => .bind (ih h.2) fun results hr => .pure ?_
    exact List.forall_mem_cons.mpr ⟨ha, hr⟩

/-- A reference is answered by a whole. -/
theorem answer (any : whole .any) (reference : Reference) :
    Yields whole whole (Schema.answer reference) := by
  intro types hw
  cases types with
  | nil => exact ⟨any, nofun⟩
  | cons ty rest => exact List.forall_mem_cons.mp hw

/-- What a declared name is compiled to, if it is compiled at all. -/
theorem typeName {S : Ty → Prop} {array object : StateM (List Ty) Ty} {name : TypeName}
    (ha : name = .array → Yields whole S array) (ho : Yields whole S object)
    (leaf : ∀ kind, S (.ofLeaf kind)) : Yields whole S (name.compile array object) := by
  cases name with
  | array => exact ha rfl
  | object => exact ho
  | leaf kind => exact .pure (leaf kind)

end Yields

/-! ## Compiling to a whole -/

/-- What the arrays of a schema are compiled to: an array of a whole, or a tuple of wholes if the
first items have schemas of their own. -/
def ArrayOf (whole : Ty → Prop) (firstItems : Option (List Schema)) (ty : Ty) : Prop :=
  match firstItems with
  | none => ∃ unique item, ty = .ofShape (.array unique item) ∧ whole item
  | some _ => ∃ items tail, ty = .ofShape (.tuple items tail) ∧ (∀ item ∈ items, whole item) ∧
      ∀ item ∈ tail, whole item

section Compile

variable {marks : String → Prop} {arm whole : Ty → Prop} {member : String → Ty → Prop}

/-- What is left when all that a schema says is compiled is a whole. -/
theorem combine_whole (a : Ty.Assembly marks arm whole member) (overlay : Overlay)
    {arms all : List Ty} (ha : ∀ ty ∈ arms, arm ty) (hw : ∀ ty ∈ all, whole ty) :
    whole (combine overlay arms all) := by
  have all_arms : ∀ ty ∈ all, arm ty := fun ty h => a.ofWhole (hw ty h)
  unfold combine
  cases arms with
  | nil =>
    cases all with
    | nil => exact a.anything overlay
    | cons ty rest => exact a.allOf overlay (List.cons_ne_nil _ _) all_arms
  | cons ty rest =>
    have union := a.oneOf (List.cons_ne_nil _ _) ha
    exact a.allOf overlay (List.cons_ne_nil _ _) (List.forall_mem_cons.mpr ⟨union, all_arms⟩)

mutual

/-- A schema is compiled to a whole. -/
theorem compile_whole (a : Ty.Assembly marks arm whole member) (schema : Schema)
    (h : schema.MarksOnly marks) : Yields whole whole (schema.compile answer) := by
  match schema with
  | ⟨some text, _, _, _, _, _, _, _, overlay⟩ =>
    rw [compile]
    exact .answer a.any _
  | ⟨none, types, arrays, objects, anyOf, oneOf, enum, allOf, overlay⟩ =>
    have array := compileArray_arrayOf a arrays (fun part hp => h.part (by simp [parts, hp]))
      fun part hp => h.part (by simp [parts, hp])
    have object := compileObject_arm a objects (fun property hp => h.own hp)
      (fun property hp => h.part (by simpa [parts] using .inr (.inr (.inl ⟨property, hp, rfl⟩))))
      (fun part hp => h.part (by simp [parts, hp])) overlay.memberDefaults
    have anyOf := compileAll_whole a anyOf fun part hp => h.part (by simp [parts, hp])
    have oneOf := compileAll_whole a oneOf fun part hp => h.part (by simp [parts, hp])
    have allOf := compileAll_whole a allOf fun part hp => h.part (by simp [parts, hp])
    rw [compile]
    split
    · rename_i tuple
      have dropped (name : TypeName) : Yields whole (fun _ => True) (name.compile _ _) :=
        Yields.typeName (fun _ => array.imp fun _ _ => trivial) (object.imp fun _ _ => trivial)
          fun _ => trivial
      refine .bind (.mapM fun name _ => dropped name) fun _ _ => .bind array fun ty hty => .pure ?_
      obtain ⟨schemas, hs⟩ := Option.isSome_iff_exists.mp (Bool.and_eq_true_iff.mp tuple).1
      rw [hs] at hty
      obtain ⟨items, tail, rfl, hitems, htail⟩ := hty
      exact a.tuple overlay hitems htail
    · rename_i noTuple
      -- An array is among the types only if the first items have no schemas of their own.
      have declared : ∀ name ∈ types, Yields whole arm (name.compile _ _) := fun name hn =>
        Yields.typeName (fun isArray => array.imp fun ty hty => by
          subst isArray
          cases hf : arrays.firstItems with
          | none =>
            rw [hf] at hty
            obtain ⟨unique, item, rfl, hitem⟩ := hty
            exact a.array unique hitem
          | some schemas => exact absurd (by simp [isTuple, hf, hn]) noTuple) object a.leaf
      refine .bind (.mapM declared) fun declared hd => .bind anyOf fun anyTypes ha => ?_
      refine .bind oneOf fun oneTypes ho => .bind allOf fun allTypes hl => .pure ?_
      refine combine_whole a overlay (fun ty ht => ?_) hl
      simp only [List.mem_append, List.mem_map] at ht
      rcases ht with ((ht | ht) | ht) | ⟨value, -, rfl⟩
      · exact hd ty ht
      · exact a.ofWhole (ha ty ht)
      · exact a.ofWhole (ho ty ht)
      · exact a.const value

theorem compileAll_whole (a : Ty.Assembly marks arm whole member) (schemas : List Schema)
    (h : ∀ schema ∈ schemas, schema.MarksOnly marks) :
    Yields whole (fun types => ∀ ty ∈ types, whole ty) (compileAll answer schemas) := by
  match schemas with
  | [] => exact .pure nofun
  | schema :: rest =>
    rw [List.forall_mem_cons] at h
    rw [compileAll]
    refine .bind (compile_whole a schema h.1) fun ty ht => ?_
    refine .bind (compileAll_whole a rest h.2) fun types hts => .pure ?_
    exact List.forall_mem_cons.mpr ⟨ht, hts⟩

theorem compileOption_whole (a : Ty.Assembly marks arm whole member) (schema : Option Schema)
    (h : ∀ part ∈ schema.toList, part.MarksOnly marks) :
    Yields whole (fun ty => ∀ part ∈ ty, whole part) (compileOption answer schema) := by
  match schema with
  | none => exact .pure nofun
  | some schema =>
    rw [compileOption]
    have own := h schema (List.mem_singleton.mpr rfl)
    refine .bind (compile_whole a schema own) fun ty ht => .pure ?_
    exact fun part hp => Option.some_inj.mp hp ▸ ht

theorem compileArray_arrayOf (a : Ty.Assembly marks arm whole member) (arrays : Arrays Schema)
    (hi : ∀ part ∈ arrays.items.toList, part.MarksOnly marks)
    (hf : ∀ part ∈ arrays.firstItems.getD [], part.MarksOnly marks) :
    Yields whole (ArrayOf whole arrays.firstItems) (compileArray answer arrays) := by
  match arrays with
  | ⟨items, firstItems, unique, maxItems⟩ =>
    rw [compileArray]
    refine .bind (compileOption_whole a items hi) fun item hitem => ?_
    have item_whole : whole (item.getD .any) := by
      cases item with
      | none => exact a.any
      | some ty => exact hitem ty rfl
    match firstItems with
    | none =>
      refine .bind (S := (· = none)) (.pure rfl) fun types ht => .pure ?_
      exact ht ▸ ⟨unique, _, rfl, item_whole⟩
    | some schemas =>
      rw [compileAllOption]
      refine .bind (S := fun types => ∃ items, types = some items ∧ ∀ ty ∈ items, whole ty)
        (.bind (compileAll_whole a schemas hf) fun items hitems => .pure ⟨items, rfl, hitems⟩) ?_
      rintro _ ⟨types, rfl, htypes⟩
      refine .pure ⟨types, _, rfl, htypes, fun tail ht => ?_⟩
      split at ht
      · cases ht
      · exact Option.some_inj.mp ht ▸ item_whole

theorem compileObject_arm (a : Ty.Assembly marks arm whole member) (objects : Objects Schema)
    (hm : ∀ property ∈ objects.properties, property.marked = true → marks property.name)
    (hp : ∀ property ∈ objects.properties, property.schema.MarksOnly marks)
    (hr : ∀ part ∈ objects.rest.toList, part.MarksOnly marks)
    (defaults : Table String Json) :
    Yields whole arm (compileObject answer defaults objects) := by
  match objects with
  | ⟨properties, required, rest⟩ =>
    rw [compileObject]
    have members := compileProperties_member a defaults required properties hm hp
    refine .bind members fun members hms => ?_
    exact .bind (compileOption_whole a rest hr) fun others ho => .pure (a.object hms ho)

theorem compileProperties_member (a : Ty.Assembly marks arm whole member)
    (defaults : Table String Json) (required : List String) (properties : List (Property Schema))
    (hm : ∀ property ∈ properties, property.marked = true → marks property.name)
    (hp : ∀ property ∈ properties, property.schema.MarksOnly marks) :
    Yields whole (fun members => ∀ entry ∈ members, member entry.1 entry.2)
      (compileProperties answer defaults required properties) := by
  match properties with
  | [] => exact .pure nofun
  | ⟨name, marked, schema⟩ :: rest =>
    rw [List.forall_mem_cons] at hm hp
    rw [compileProperties]
    refine .bind (compile_whole a schema hp.1) fun ty ht => ?_
    refine .bind (compileProperties_member a defaults required rest hm.2 hp.2) fun members hms => ?_
    exact .pure (List.forall_mem_cons.mpr ⟨a.property defaults required hm.1 ht, hms⟩)

end

end Compile

end Schema

/-- A schema is compiled to a whole, if its references are answered by wholes. -/
theorem Ty.Assembly.build {marks : String → Prop} {arm whole : Ty → Prop}
    {member : String → Ty → Prop} (a : Ty.Assembly marks arm whole member) {schema : Schema}
    (h : schema.MarksOnly marks) {types : List Ty} (hw : ∀ ty ∈ types, whole ty) :
    whole (schema.build types) := (Schema.compile_whole a schema h types hw).1

end SchemaDoc
