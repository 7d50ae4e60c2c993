import SchemaDoc.Proofs.Ty.Sameness

/-!
# Types without scopes

A scope says which settings are under a type.  It is the one annotation that compiling
fills in from types that a reference leads to, so it may depend on how much is known of
them.  `Ty.unscoped` leaves it out at every depth.

No scope decides how a type is built: `Ty.unscoped_congruence` says that types built of
parts that differ in their scopes only differ in their scopes only.
-/

namespace SchemaDoc

namespace Ty

mutual

/-- A type without scopes, at any depth. -/
def unscoped : Ty → Ty
  | ⟨notes, const, shape⟩ =>
    { annotations := { notes with scope := {} }
      const
      shape :=
        match shape with
        | .leaf kind => .leaf kind
        | .reference target => .reference target
        | .object members rest =>
          .object (unscopedMembers members)
            (match rest with
              | some ty => some ty.unscoped
              | none => none)
        | .array unique item => .array unique item.unscoped
        | .tuple items tail =>
          .tuple (unscopedItems items)
            (match tail with
              | some ty => some ty.unscoped
              | none => none)
        | .union form items nullable => .union form (unscopedItems items) nullable
        | .intersection items => .intersection (unscopedItems items) }
termination_by structural ty => ty

/-- The types of some members without scopes. -/
def unscopedMembers : List (String × Ty) → List (String × Ty)
  | [] => []
  | (name, ty) :: rest => (name, ty.unscoped) :: unscopedMembers rest
termination_by structural members => members

/-- Some types without scopes. -/
def unscopedItems : List Ty → List Ty
  | [] => []
  | ty :: rest => ty.unscoped :: unscopedItems rest
termination_by structural items => items

end

theorem unscopedMembers_eq (members : List (String × Ty)) :
    unscopedMembers members = members.map fun member => (member.1, member.2.unscoped) := by
  induction members with
  | nil => rfl
  | cons member rest ih => rw [unscopedMembers, ih, List.map_cons]

theorem unscopedItems_eq (items : List Ty) : unscopedItems items = items.map unscoped := by
  induction items with
  | nil => rfl
  | cons item rest ih => rw [unscopedItems, ih, List.map_cons]

/-- Leaving out the scopes is leaving out that of the type and those of its children. -/
theorem unscoped_mk (notes : Annotations) (const : Option Json) (shape : Shape Ty) :
    unscoped ⟨notes, const, shape⟩ = ⟨{ notes with scope := {} }, const, shape.map unscoped⟩ := by
  cases shape with
  | leaf => rfl
  | reference => rfl
  | object members rest =>
    cases rest <;> simp only [unscoped, unscopedMembers_eq, Shape.map, Option.map]
  | array => rfl
  | tuple items tail => cases tail <;> simp only [unscoped, unscopedItems_eq, Shape.map, Option.map]
  | union form items nullable => simp only [unscoped, unscopedItems_eq, Shape.map]
  | intersection items => simp only [unscoped, unscopedItems_eq, Shape.map]

@[simp] theorem const_unscoped (ty : Ty) : ty.unscoped.const = ty.const := by
  cases ty
  rw [unscoped_mk]

@[simp] theorem shape_unscoped (ty : Ty) : ty.unscoped.shape = ty.shape.map unscoped := by
  cases ty
  rw [unscoped_mk]

@[simp] theorem annotations_unscoped (ty : Ty) :
    ty.unscoped.annotations = { ty.annotations with scope := {} } := by
  cases ty
  rw [unscoped_mk]

/-- Two types are equal without scopes if their annotations, constants and shapes are. -/
theorem unscoped_eq_iff {a b : Ty} :
    a.unscoped = b.unscoped ↔
      ({ a.annotations with scope := {} } : Annotations) = { b.annotations with scope := {} } ∧
        a.const = b.const ∧ a.shape.map unscoped = b.shape.map unscoped := by
  obtain ⟨notes, const, shape⟩ := a
  obtain ⟨notes', const', shape'⟩ := b
  rw [unscoped_mk, unscoped_mk, Ty.mk.injEq]

@[simp] theorem leaf?_unscoped (ty : Ty) : ty.unscoped.leaf? = ty.leaf? := by
  rw [leaf?, leaf?, shape_unscoped]
  cases ty.shape <;> rfl

@[simp] theorem isNull_unscoped (ty : Ty) : ty.unscoped.isNull = ty.isNull := by
  rw [isNull, isNull, leaf?_unscoped]

@[simp] theorem isConst_unscoped (ty : Ty) : ty.unscoped.isConst = ty.isConst := by
  rw [isConst, isConst, const_unscoped]

/-- Leaving out the scopes is changing annotations. -/
theorem unscoped_eq_reannotate (ty : Ty) :
    ty.unscoped = ty.reannotate fun notes => { notes with scope := {} } := by
  induction ty using induct with
  | step ty ih =>
    obtain ⟨notes, const, shape⟩ := ty
    rw [unscoped_mk, reannotate_mk, Shape.map_congr ih]

/-- No scope counts in a comparison. -/
theorem same_unscoped (a b : Ty) : a.unscoped.same b.unscoped = a.same b := by
  rw [unscoped_eq_reannotate, unscoped_eq_reannotate, same_reannotate]

/-! ## Unions and intersections -/

theorem distinctFrom_unscoped (types : List Ty) :
    ∀ seen : List Ty,
      distinctFrom (seen.map unscoped) (types.map unscoped) =
        (distinctFrom seen types).map unscoped := by
  induction types with
  | nil => exact fun _ => rfl
  | cons ty rest ih =>
    intro seen
    rw [List.map_cons, distinctFrom, distinctFrom]
    have same : ((seen.map unscoped).any fun old => old.same ty.unscoped) =
        seen.any fun old => old.same ty := by
      rw [List.any_map]
      exact congrArg seen.any (funext fun old => same_unscoped old ty)
    rw [same]
    split
    · exact ih seen
    · rw [List.map_cons, ← ih (ty :: seen), List.map_cons]

theorem alternatives_unscoped (ty : Ty) :
    ty.unscoped.alternatives = ty.alternatives.map unscoped := by
  rw [alternatives, alternatives, shape_unscoped]
  cases ty.shape <;> rfl

theorem conjuncts_unscoped (ty : Ty) : ty.unscoped.conjuncts = ty.conjuncts.map unscoped := by
  rw [conjuncts, conjuncts, shape_unscoped]
  cases ty.shape <;> rfl

theorem bareLeaf?_unscoped (ty : Ty) :
    ty.unscoped.bareLeaf? = ty.bareLeaf?.map unscoped := by
  obtain ⟨notes, const, shape⟩ := ty
  rw [bareLeaf?, bareLeaf?, leaf?_unscoped, const_unscoped]
  split
  · rw [unscoped_mk, Option.map_some, unscoped_mk]
  · rfl

theorem unscoped_oneOf (types : List Ty) :
    (oneOf types).unscoped = oneOf (types.map unscoped) := by
  have flat : (types.map unscoped).flatMap alternatives =
      (types.flatMap alternatives).map unscoped := by
    rw [List.flatMap_map, List.map_flatMap]
    exact congrArg (List.flatMap · types) (funext alternatives_unscoped)
  rw [oneOf, oneOf, flat]
  generalize types.flatMap alternatives = flat
  have bare : (flat.map unscoped).filterMap bareLeaf? =
      (flat.filterMap bareLeaf?).map unscoped := by
    rw [List.filterMap_map, List.map_filterMap]
    exact congrArg (List.filterMap · flat) (funext bareLeaf?_unscoped)
  rw [unionOfFlat, unionOfFlat, bare, distinctFrom_unscoped]
  cases distinctFrom (flat.filterMap bareLeaf?) flat with
  | nil => simp [ofShape, unscoped_mk, Shape.map, Function.comp_def]
  | cons first rest =>
    cases rest with
    | nil => rfl
    | cons second rest => simp [ofShape, unscoped_mk, Shape.map, Function.comp_def]

theorem unscoped_allOf (types : List Ty) :
    (allOf types).unscoped = allOf (types.map unscoped) := by
  have flat : (types.map unscoped).flatMap conjuncts =
      (types.flatMap conjuncts).map unscoped := by
    rw [List.flatMap_map, List.map_flatMap]
    exact congrArg (List.flatMap · types) (funext conjuncts_unscoped)
  rw [allOf, allOf, flat]
  generalize types.flatMap conjuncts = flat
  have distinct := distinctFrom_unscoped flat []
  rw [List.map_nil] at distinct
  rw [intersectionOfFlat, intersectionOfFlat, distinct]
  cases distinctFrom [] flat with
  | nil => rfl
  | cons first rest =>
    cases rest with
    | nil => rfl
    | cons second rest => simp [ofShape, unscoped_mk, Shape.map]

/-! ## Building without scopes -/

theorem map_unscoped_eq {as bs : List Ty}
    (h : List.Forall₂ (fun a b => a.unscoped = b.unscoped) as bs) :
    as.map unscoped = bs.map unscoped := by
  induction h with
  | nil => rfl
  | cons first _ rest => rw [List.map_cons, List.map_cons, first, rest]

theorem map_unscoped_members_eq {as bs : List (String × Ty)}
    (h : List.Forall₂ (MemberRelated fun a b => a.unscoped = b.unscoped) as bs) :
    (as.map fun member => (member.1, member.2.unscoped)) =
      bs.map fun member => (member.1, member.2.unscoped) := by
  induction h with
  | nil => rfl
  | cons first _ rest => rw [List.map_cons, List.map_cons, first.1, first.2, rest]

theorem map_unscoped_option_eq {a b : Option Ty}
    (h : Option.Rel (fun a b => a.unscoped = b.unscoped) a b) :
    a.map unscoped = b.map unscoped := by
  cases h with
  | none => rfl
  | some h => rw [Option.map_some, Option.map_some, h]

theorem unscoped_propagateScope (ty : Ty) : ty.propagateScope.unscoped = ty.unscoped := by
  rw [propagateScope]
  split
  · rfl
  · rw [unscoped_eq_iff]
    exact ⟨rfl, rfl, rfl⟩

/-- Types built of parts that are equal without scopes are equal without scopes. -/
theorem unscoped_congruence : Congruence fun a b => a.unscoped = b.unscoped where
  leaf _ := rfl
  const _ := rfl
  array unique a b h := unscoped_eq_iff.mpr ⟨rfl, rfl, by simp only [ofShape, Shape.map, h]⟩
  tuple hs h := unscoped_eq_iff.mpr ⟨rfl, rfl, by
    simp only [ofShape, Shape.map, map_unscoped_eq hs, map_unscoped_option_eq h]⟩
  object hs h := unscoped_eq_iff.mpr ⟨rfl, rfl, by
    simp only [ofShape, Shape.map, map_unscoped_members_eq hs, map_unscoped_option_eq h]⟩
  oneOf h hs := by rw [unscoped_oneOf, unscoped_oneOf, map_unscoped_eq (.cons h hs)]
  allOf h hs := by rw [unscoped_allOf, unscoped_allOf, map_unscoped_eq (.cons h hs)]
  overlay overlay a b h := by
    rw [unscoped_eq_iff] at h ⊢
    simp_all [Schema.Overlay.apply]
  property defaults required name marked a b h := by
    rw [unscoped_eq_iff] at h ⊢
    simp_all [Schema.propertyType, annotate]
  propagateScope h := by rw [unscoped_propagateScope, unscoped_propagateScope, h]

/-- A scope is not seen without scopes. -/
@[simp] theorem unscoped_withScope (ty : Ty) (scope : Scope) :
    (ty.withScope scope).unscoped = ty.unscoped :=
  unscoped_eq_iff.mpr ⟨rfl, rfl, rfl⟩

/-- The name is seen without scopes. -/
theorem unscoped_withId {a b : Ty} (h : a.unscoped = b.unscoped) (id : String) :
    (a.withId id).unscoped = (b.withId id).unscoped := by
  rw [unscoped_eq_iff] at h ⊢
  simp_all [withId, annotate]

end Ty

end SchemaDoc
