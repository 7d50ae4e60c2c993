import Mathlib.Data.List.Flatten
import SchemaDoc.Proofs.Schema.References

/-!
# The targets of a type

The *targets* of a type are the names that the references in it refer to, at any depth and as
often as they do.  A union or an intersection has no others than the types it is built of, and
none more often: it only drops, flattens and lists them.
-/

namespace SchemaDoc

namespace Ty

/-- The names that the references in a type refer to. -/
def targets (ty : Ty) : List String := ty.references.filterMap target?

theorem memberReferences_eq (members : List (String × Ty)) :
    memberReferences members = members.flatMap fun member => member.2.references := by
  induction members with
  | nil => rfl
  | cons member rest ih => rw [memberReferences, ih, List.flatMap_cons]

theorem itemReferences_eq (items : List Ty) :
    itemReferences items = items.flatMap references := by
  induction items with
  | nil => rfl
  | cons item rest ih => rw [itemReferences, ih, List.flatMap_cons]

/-- A type is a reference, or its references are those of its children. -/
theorem references_eq (ty : Ty) :
    ty.references = if ty.target?.isSome then [ty] else ty.children.flatMap references := by
  obtain ⟨notes, const, shape⟩ := ty
  cases shape with
  | leaf => rfl
  | reference target => rfl
  | object members rest =>
    cases rest <;>
      simp [references, target?, children, Shape.parts, memberReferences_eq, List.flatMap_map]
  | array unique item => simp [references, target?, children, Shape.parts]
  | tuple items tail =>
    cases tail <;> simp [references, target?, children, Shape.parts, itemReferences_eq]
  | union form items nullable =>
    simp [references, target?, children, Shape.parts, itemReferences_eq]
  | intersection items => simp [references, target?, children, Shape.parts, itemReferences_eq]

/-- A type that is no reference has the targets of its children, in order. -/
theorem targets_eq {ty : Ty} (h : ty.target? = none) :
    ty.targets = ty.children.flatMap targets := by
  rw [targets, references_eq, if_neg (by rw [h]; exact Bool.false_ne_true),
    List.filterMap_flatMap]
  rfl

/-- A type with a target is a reference. -/
theorem exists_of_target? {ty : Ty} {target : String} (h : ty.target? = some target) :
    ∃ notes const, ty = ⟨notes, const, .reference target⟩ := by
  obtain ⟨notes, const, shape⟩ := ty
  cases shape with
  | reference other =>
    cases h
    exact ⟨notes, const, rfl⟩
  | _ => cases h

/-- A reference has no children. -/
theorem children_of_target? {ty : Ty} {target : String} (h : ty.target? = some target) :
    ty.children = [] := by
  obtain ⟨notes, const, shape⟩ := ty
  cases shape <;> first | rfl | cases h

/-- A type with a child is no reference. -/
theorem target?_of_child {ty child : Ty} (h : child ∈ ty.children) : ty.target? = none := by
  cases ht : ty.target? with
  | none => rfl
  | some target =>
    rw [children_of_target? ht] at h
    cases h

/-- The targets of a child are targets of the type. -/
theorem targets_subset_of_child {ty child : Ty} (h : child ∈ ty.children) :
    child.targets ⊆ ty.targets := by
  intro target ht
  rw [targets_eq (target?_of_child h)]
  exact List.mem_flatMap.mpr ⟨child, h, ht⟩

/-- A reference has its target. -/
theorem mem_targets_of_target? {ty : Ty} {target : String} (h : ty.target? = some target) :
    target ∈ ty.targets := by
  rw [targets, references_eq, h]
  exact List.mem_filterMap.mpr ⟨ty, List.mem_singleton.mpr rfl, h⟩

/-- The targets are a matter of the shape. -/
theorem targets_of_shape {a b : Ty} (h : a.shape = b.shape) : a.targets = b.targets := by
  have target : a.target? = b.target? := by rw [target?, target?, h]
  cases ht : b.target? with
  | none => rw [targets_eq (target.trans ht), targets_eq ht, children, children, h]
  | some name => simp [targets, references_eq, target, ht]

@[simp] theorem targets_withId (ty : Ty) (id : String) : (ty.withId id).targets = ty.targets :=
  targets_of_shape rfl

theorem shape_propagateScope (ty : Ty) : ty.propagateScope.shape = ty.shape := by
  unfold propagateScope
  split <;> rfl

@[simp] theorem targets_reference (name : String) : (reference name).targets = [name] := rfl

/-! ## Unions and intersections -/

theorem distinctFrom_sublist (types : List Ty) :
    ∀ seen : List Ty, (distinctFrom seen types).Sublist types := by
  induction types with
  | nil => exact fun _ => .refl _
  | cons first rest ih =>
    intro seen
    rw [distinctFrom]
    split
    · exact (ih seen).cons first
    · exact (ih _).cons_cons first

/-- Flattening a union keeps its targets. -/
theorem flatMap_targets_alternatives (ty : Ty) :
    ty.alternatives.flatMap targets = ty.targets := by
  rw [alternatives]
  split
  · rename_i hs
    rw [targets_eq (by rw [target?, hs]), children, hs]
    rfl
  · exact List.flatMap_singleton ..

/-- Flattening an intersection keeps its targets. -/
theorem flatMap_targets_conjuncts (ty : Ty) : ty.conjuncts.flatMap targets = ty.targets := by
  rw [conjuncts]
  split
  · rename_i hs
    rw [targets_eq (by rw [target?, hs]), children, hs]
    rfl
  · exact List.flatMap_singleton ..

theorem flatMap_targets_flat {flatten : Ty → List Ty}
    (h : ∀ ty, (flatten ty).flatMap targets = ty.targets) (types : List Ty) :
    (types.flatMap flatten).flatMap targets = types.flatMap targets := by
  rw [List.flatMap_assoc]
  exact congrArg (List.flatMap · types) (funext h)

/-- A union only drops, flattens and lists some types. -/
theorem targets_oneOf_sublist (types : List Ty) :
    (oneOf types).targets.Sublist (types.flatMap targets) := by
  have kept := (distinctFrom_sublist (types.flatMap alternatives)
    ((types.flatMap alternatives).filterMap bareLeaf?)).flatMap targets
  rw [flatMap_targets_flat flatMap_targets_alternatives] at kept
  rw [oneOf, unionOfFlat]
  split
  · rename_i item hd
    rwa [hd, List.flatMap_singleton] at kept
  · rw [targets_eq rfl]
    exact kept

/-- An intersection only drops, flattens and lists some types. -/
theorem targets_allOf_sublist (types : List Ty) :
    (allOf types).targets.Sublist (types.flatMap targets) := by
  have kept := (distinctFrom_sublist (types.flatMap conjuncts) []).flatMap targets
  rw [flatMap_targets_flat flatMap_targets_conjuncts] at kept
  rw [allOf, intersectionOfFlat]
  split
  · rename_i item hd
    rwa [hd, List.flatMap_singleton] at kept
  · rw [targets_eq rfl]
    exact kept

end Ty

end SchemaDoc
