import SchemaDoc.Proofs.Ty.Targets

/-!
# Normal forms

A union is in *normal form* if it has at least two members, of which none is a union, no two are
the same and none is a leaf beside a constant of that leaf, and if it says truly whether null is
among them and whether all are constants.  An intersection is in normal form if it has at least
two members, of which none is an intersection and no two are the same.

A page relies on that at every depth of a type, `Ty.Everywhere`.  Flattening goes one level down
and no further, which is enough because the types that are put together are in normal form
themselves: `Ty.normal_congruence` says that whatever compiling builds of such types is one.
-/

namespace SchemaDoc

namespace Ty

/-! ## Statements about every depth -/

/-- A statement holds of a type and of all types below it. -/
inductive Everywhere (P : Ty → Prop) : Ty → Prop where
  | intro {ty : Ty} : P ty → (∀ child ∈ ty.children, Everywhere P child) → Everywhere P ty

namespace Everywhere

variable {P : Ty → Prop} {ty : Ty}

theorem here (h : Everywhere P ty) : P ty := by
  cases h with
  | intro here _ => exact here

theorem inside (h : Everywhere P ty) : ∀ child ∈ ty.children, Everywhere P child := by
  cases h with
  | intro _ inside => exact inside

theorem imp {Q : Ty → Prop} (h : Everywhere P ty) (himp : ∀ ty, P ty → Q ty) :
    Everywhere Q ty := by
  induction h with
  | intro here _ inside => exact .intro (himp _ here) inside

theorem and {Q : Ty → Prop} (h : Everywhere P ty) :
    Everywhere Q ty → Everywhere (fun ty => P ty ∧ Q ty) ty := by
  induction h with
  | intro here _ ih =>
    intro h'
    exact .intro ⟨here, h'.here⟩ fun child hc => ih child hc (h'.inside child hc)

/-- Types of one shape have the same types below them. -/
theorem of_shape {a b : Ty} (hs : a.shape = b.shape) (here : P b → P a) (h : b.Everywhere P) :
    a.Everywhere P := by
  refine .intro (here h.here) ?_
  rw [children, hs]
  exact h.inside

end Everywhere

/-! ## Normal forms -/

/-- Whether a type is a union. -/
def isUnion (ty : Ty) : Bool :=
  match ty.shape with
  | .union .. => true
  | _ => false

/-- Whether a type is an intersection. -/
def isIntersection (ty : Ty) : Bool :=
  match ty.shape with
  | .intersection _ => true
  | _ => false

/-- A union in normal form. -/
structure NormalUnion (form : UnionForm) (items : List Ty) (nullable : Bool) : Prop where
  two_le : 2 ≤ items.length
  flat : ∀ item ∈ items, item.isUnion = false
  distinct : items.Pairwise fun a b => a.same b = false
  /-- Beside a constant of some leaf each member of that leaf is a constant. -/
  absorbed : ∀ a ∈ items, ∀ b ∈ items, a.leaf?.isSome → a.leaf? = b.leaf? →
    b.const.isSome → a.const.isSome
  nullable_iff : nullable = true ↔ ∃ item ∈ items, item.isNull = true
  enum_iff : form = .enum ↔ ∀ item ∈ items, item.const.isSome

/-- An intersection in normal form. -/
structure NormalIntersection (items : List Ty) : Prop where
  two_le : 2 ≤ items.length
  flat : ∀ item ∈ items, item.isIntersection = false
  distinct : items.Pairwise fun a b => a.same b = false

/-- A type is in normal form, whatever its children are. -/
def IsNormal (ty : Ty) : Prop :=
  match ty.shape with
  | .union form items nullable => NormalUnion form items nullable
  | .intersection items => NormalIntersection items
  | _ => True

/-- Normal form is a matter of the shape. -/
theorem normal_of_shape {a b : Ty} (h : a.shape = b.shape) (hb : b.Everywhere IsNormal) :
    a.Everywhere IsNormal := by
  refine .of_shape h (fun normal => ?_) hb
  rw [IsNormal, h]
  exact normal

/-! ## Types that are the same -/

theorem leaf?_of_same {a b : Ty} (h : a.same b = true) : a.leaf? = b.leaf? := by
  obtain ⟨notes, const, shape⟩ := a
  obtain ⟨notes', const', shape'⟩ := b
  cases shape <;> cases shape' <;> simp_all [same, leaf?]

theorem isSome_const_of_same {a b : Ty} (h : a.same b = true) :
    a.const.isSome = b.const.isSome := by
  obtain ⟨notes, const, shape⟩ := a
  obtain ⟨notes', const', shape'⟩ := b
  have equal : Json.sameOption const const' = true := by
    unfold same at h
    exact (Bool.and_eq_true_iff.mp h).1
  cases const <;> cases const' <;> simp_all [Json.sameOption]

/-- Two equal leaves without constants are the same. -/
theorem same_of_leaf? {a b : Ty} (leaf : a.leaf?.isSome) (h : a.leaf? = b.leaf?)
    (ha : a.const = none) (hb : b.const = none) : a.same b = true := by
  obtain ⟨notes, const, shape⟩ := a
  obtain ⟨notes', const', shape'⟩ := b
  cases shape <;> cases shape' <;> simp_all [same, leaf?, Json.sameOption]

/-! ## Distinct types -/

/-- None of the distinct types is the same as one that was seen before. -/
theorem not_same_of_mem_distinctFrom {types : List Ty} :
    ∀ {seen : List Ty} {old item : Ty}, old ∈ seen → item ∈ distinctFrom seen types →
      old.same item = false := by
  induction types with
  | nil => exact fun _ h => nomatch h
  | cons first rest ih =>
    intro seen old item hs hi
    rw [distinctFrom] at hi
    split at hi
    · exact ih hs hi
    · rename_i new
      rcases List.mem_cons.mp hi with rfl | hi
      · rw [Bool.not_eq_true, List.any_eq_false] at new
        exact Bool.not_eq_true _ ▸ new old hs
      · exact ih (List.mem_cons_of_mem _ hs) hi

theorem pairwise_distinctFrom (types : List Ty) :
    ∀ seen : List Ty, (distinctFrom seen types).Pairwise fun a b => a.same b = false := by
  induction types with
  | nil => exact fun _ => .nil
  | cons first rest ih =>
    intro seen
    rw [distinctFrom]
    split
    · exact ih seen
    · exact .cons (fun item hi => not_same_of_mem_distinctFrom List.mem_cons_self hi) (ih _)

/-- A type that is dropped is the same as one that was seen or that stays. -/
theorem same_of_mem {types : List Ty} :
    ∀ (seen : List Ty) {ty : Ty}, ty ∈ types → (∃ old ∈ seen, old.same ty = true) ∨
      ∃ item ∈ distinctFrom seen types, item = ty ∨ item.same ty = true := by
  induction types with
  | nil => exact fun _ _ h => nomatch h
  | cons first rest ih =>
    intro seen ty ht
    rw [distinctFrom]
    split
    · rename_i dropped
      rcases List.mem_cons.mp ht with rfl | ht
      · exact .inl (List.any_eq_true.mp dropped)
      · exact ih seen ht
    · rcases List.mem_cons.mp ht with rfl | ht
      · exact .inr ⟨ty, List.mem_cons_self, .inl rfl⟩
      · rcases ih (first :: seen) ht with ⟨old, hs, same⟩ | ⟨item, hi, same⟩
        · rcases List.mem_cons.mp hs with rfl | hs
          · exact .inr ⟨old, List.mem_cons_self, .inr same⟩
          · exact .inl ⟨old, hs, same⟩
        · exact .inr ⟨item, List.mem_cons_of_mem _ hi, same⟩

/-! ## Flattening -/

/-- The members of a union are its children; any other type is its only alternative. -/
theorem mem_alternatives (ty : Ty) : ∀ item ∈ ty.alternatives, item = ty ∨ item ∈ ty.children := by
  rw [alternatives]
  split
  · rename_i hs
    rw [children, hs]
    exact fun _ => .inr
  · exact List.forall_mem_singleton.mpr (.inl rfl)

/-- The members of an intersection are its children; any other type is its only conjunct. -/
theorem mem_conjuncts (ty : Ty) : ∀ item ∈ ty.conjuncts, item = ty ∨ item ∈ ty.children := by
  rw [conjuncts]
  split
  · rename_i hs
    rw [children, hs]
    exact fun _ => .inr
  · exact List.forall_mem_singleton.mpr (.inl rfl)

/-- What is left of types that are flattened is of a kind, if whatever they are flattened to is. -/
theorem forall_distinctFrom_flatMap {P : Ty → Prop} {flatten : Ty → List Ty} {types : List Ty}
    (each : ∀ ty, P ty → ∀ item ∈ flatten ty, P item) (h : ∀ ty ∈ types, P ty) (seen : List Ty) :
    ∀ item ∈ distinctFrom seen (types.flatMap flatten), P item := by
  intro item hi
  obtain ⟨ty, ht, hi⟩ := List.mem_flatMap.mp ((distinctFrom_sublist _ _).subset hi)
  exact each ty (h ty ht) item hi

/-- If flattening a type in normal form gives some types of a kind and no others, so does flattening
all of some types in normal form. -/
theorem forall_flatMap {P : Ty → Prop} {flatten : Ty → List Ty}
    (each : ∀ ty : Ty, ty.Everywhere IsNormal → flatten ty ≠ [] ∧ ∀ item ∈ flatten ty, P item)
    {types : List Ty} (some : types ≠ []) (h : ∀ ty ∈ types, ty.Everywhere IsNormal) :
    (∃ item, item ∈ types.flatMap flatten) ∧ ∀ item ∈ types.flatMap flatten, P item := by
  constructor
  · obtain ⟨ty, ht⟩ := List.exists_mem_of_ne_nil types some
    obtain ⟨item, hi⟩ := List.exists_mem_of_ne_nil _ (each ty (h ty ht)).1
    exact ⟨item, List.mem_flatMap.mpr ⟨ty, ht, hi⟩⟩
  · intro item hi
    obtain ⟨ty, ht, hi⟩ := List.mem_flatMap.mp hi
    exact (each ty (h ty ht)).2 item hi

/-- A list that is not empty and no singleton has two members. -/
theorem two_le_length {items : List Ty} {item : Ty} (some : item ∈ items)
    (many : ∀ only, items = [only] → False) : 2 ≤ items.length := by
  match items with
  | [] => cases some
  | [only] => exact (many only rfl).elim
  | _ :: _ :: rest => exact Nat.le_add_left 2 rest.length

/-! ## Unions -/

theorem bareLeaf?_eq_some {ty bare : Ty} :
    ty.bareLeaf? = some bare ↔
      ty.leaf?.isSome ∧ ty.const.isSome ∧ { ty with const := none } = bare := by
  rw [bareLeaf?]
  split
  · rename_i h
    rw [Bool.and_eq_true] at h
    simp [h]
  · rename_i h
    rw [Bool.and_eq_true] at h
    exact iff_of_false nofun fun given => h ⟨given.1, given.2.1⟩

/-- A leaf that is dropped from a union leaves another of its kind. -/
theorem exists_leaf?_eq {flat : List Ty} {ty : Ty} (h : ty ∈ flat) :
    ∃ item ∈ distinctFrom (flat.filterMap bareLeaf?) flat, item.leaf? = ty.leaf? := by
  rcases same_of_mem _ h with ⟨bare, hb, same⟩ | ⟨item, hi, rfl | same⟩
  · -- A constant of that leaf is never the same as a leaf without one, so it stays.
    obtain ⟨fixed, hm, hb⟩ := List.mem_filterMap.mp hb
    obtain ⟨-, given, rfl⟩ := bareLeaf?_eq_some.mp hb
    have leaf := leaf?_of_same same
    change leaf? fixed = ty.leaf? at leaf
    rcases same_of_mem _ hm with ⟨bare, hb, same⟩ | ⟨item, hi, rfl | same⟩
    · obtain ⟨other, -, hb⟩ := List.mem_filterMap.mp hb
      obtain ⟨-, -, rfl⟩ := bareLeaf?_eq_some.mp hb
      have bare := isSome_const_of_same same
      rw [given] at bare
      cases bare
    · exact ⟨item, hi, leaf⟩
    · exact ⟨item, hi, (leaf?_of_same same).trans leaf⟩
  · exact ⟨item, hi, rfl⟩
  · exact ⟨item, hi, leaf?_of_same same⟩

/-- What is left of types none of which is a union makes a union in normal form, if it is more
than one. -/
theorem normalUnion_of_flat {flat items : List Ty} (hf : ∀ ty ∈ flat, ty.isUnion = false)
    (h : distinctFrom (flat.filterMap bareLeaf?) flat = items) (two_le : 2 ≤ items.length) :
    NormalUnion (if !items.isEmpty && items.all isConst then .enum else .oneOf) items
      (flat.any isNull) := by
  have mem {item : Ty} (hi : item ∈ items) : item ∈ flat :=
    (distinctFrom_sublist _ _).subset (h ▸ hi)
  refine
    { two_le
      flat := fun item hi => hf item (mem hi)
      distinct := h ▸ pairwise_distinctFrom ..
      absorbed := ?_
      nullable_iff := ?_
      enum_iff := ?_ }
  · intro a ha b hb leaf equal given
    by_contra missing
    rw [Option.not_isSome_iff_eq_none] at missing
    let bare : Ty := { b with const := none }
    have seen : bare ∈ flat.filterMap bareLeaf? :=
      List.mem_filterMap.mpr ⟨b, mem hb, bareLeaf?_eq_some.mpr ⟨equal ▸ leaf, given, rfl⟩⟩
    have different := not_same_of_mem_distinctFrom seen (h ▸ ha)
    have same : bare.same a = true := same_of_leaf? (equal ▸ leaf) equal.symm rfl missing
    rw [same] at different
    cases different
  · rw [List.any_eq_true]
    constructor
    · rintro ⟨ty, ht, null⟩
      obtain ⟨item, hi, leaf⟩ := exists_leaf?_eq ht
      refine ⟨item, h ▸ hi, ?_⟩
      rwa [isNull, leaf]
    · rintro ⟨item, hi, null⟩
      exact ⟨item, mem hi, null⟩
  · have some : items.isEmpty = false := by
      cases items with
      | nil => cases two_le
      | cons _ _ => rfl
    simp [some, isConst, Option.isSome_iff_ne_none]

/-- A union in normal form has members, none of which is a union. -/
theorem normal_alternatives {ty : Ty} (h : ty.Everywhere IsNormal) :
    ty.alternatives ≠ [] ∧
      ∀ item ∈ ty.alternatives, item.Everywhere IsNormal ∧ item.isUnion = false := by
  rw [alternatives]
  split
  · rename_i form items nullable hs
    have normal := h.here
    rw [IsNormal, hs] at normal
    refine ⟨List.ne_nil_of_length_pos (Nat.lt_of_lt_of_le Nat.two_pos normal.two_le),
      fun item hi => ⟨h.inside item ?_, normal.flat item hi⟩⟩
    rw [children, hs]
    exact hi
  · rename_i other
    refine ⟨List.cons_ne_nil _ _, List.forall_mem_singleton.mpr ⟨h, ?_⟩⟩
    rw [isUnion]
    split
    · rename_i hs
      exact absurd hs (other _ _ _)
    · rfl

/-- A union of types in normal form is in normal form. -/
theorem normal_oneOf {types : List Ty} (some : types ≠ [])
    (h : ∀ ty ∈ types, ty.Everywhere IsNormal) : (oneOf types).Everywhere IsNormal := by
  obtain ⟨⟨first, hf⟩, each⟩ := forall_flatMap (fun _ => normal_alternatives) some h
  rw [oneOf, unionOfFlat]
  generalize types.flatMap alternatives = flat at hf each ⊢
  obtain ⟨stays, hs, -⟩ := exists_leaf?_eq hf
  have kept (item : Ty) (hi : item ∈ distinctFrom (flat.filterMap bareLeaf?) flat) :
      item.Everywhere IsNormal := (each item ((distinctFrom_sublist _ _).subset hi)).1
  split
  · rename_i item hd
    exact kept item (hd ▸ List.mem_cons_self)
  · rename_i many
    refine .intro ?_ kept
    exact normalUnion_of_flat (fun ty ht => (each ty ht).2) rfl (two_le_length hs many)

/-! ## Intersections -/

/-- An intersection in normal form has members, none of which is an intersection. -/
theorem normal_conjuncts {ty : Ty} (h : ty.Everywhere IsNormal) :
    ty.conjuncts ≠ [] ∧
      ∀ item ∈ ty.conjuncts, item.Everywhere IsNormal ∧ item.isIntersection = false := by
  rw [conjuncts]
  split
  · rename_i items hs
    have normal := h.here
    rw [IsNormal, hs] at normal
    refine ⟨List.ne_nil_of_length_pos (Nat.lt_of_lt_of_le Nat.two_pos normal.two_le),
      fun item hi => ⟨h.inside item ?_, normal.flat item hi⟩⟩
    rw [children, hs]
    exact hi
  · rename_i other
    refine ⟨List.cons_ne_nil _ _, List.forall_mem_singleton.mpr ⟨h, ?_⟩⟩
    rw [isIntersection]
    split
    · rename_i hs
      exact absurd hs (other _)
    · rfl

/-- An intersection of types in normal form is in normal form. -/
theorem normal_allOf {types : List Ty} (some : types ≠ [])
    (h : ∀ ty ∈ types, ty.Everywhere IsNormal) : (allOf types).Everywhere IsNormal := by
  obtain ⟨⟨first, hf⟩, each⟩ := forall_flatMap (fun _ => normal_conjuncts) some h
  rw [allOf, intersectionOfFlat]
  generalize types.flatMap conjuncts = flat at hf each ⊢
  have kept (item : Ty) (hi : item ∈ distinctFrom [] flat) :=
    each item ((distinctFrom_sublist _ _).subset hi)
  obtain ⟨stays, hs⟩ : ∃ item, item ∈ distinctFrom [] flat := by
    rcases same_of_mem [] hf with ⟨old, hold, -⟩ | ⟨item, hi, -⟩
    · cases hold
    · exact ⟨item, hi⟩
  split
  · rename_i item hd
    exact (kept item (hd ▸ List.mem_cons_self)).1
  · rename_i many
    refine .intro ?_ fun item hi => (kept item hi).1
    exact
      { two_le := two_le_length hs many
        flat := fun item hi => (kept item hi).2
        distinct := pairwise_distinctFrom flat [] }

/-! ## Building types -/

/-- What holds of the parts of a tuple holds of its children. -/
theorem forall_children_tuple {P : Ty → Prop} {as bs : List Ty} {a b : Option Ty}
    (hs : List.Forall₂ (fun ty _ => P ty) as bs) (ha : Option.Rel (fun ty _ => P ty) a b) :
    ∀ child ∈ (ofShape (.tuple as a)).children, P child := by
  intro child h
  rcases List.mem_append.mp h with h | h
  · exact forall_of_forall₂_left hs child h
  · cases ha with
    | none => cases h
    | some ha => exact List.mem_singleton.mp h ▸ ha

/-- What holds of the members of an object and of the rest holds of its children. -/
theorem forall_children_object {P : Ty → Prop} {as bs : List (String × Ty)} {a b : Option Ty}
    (hs : List.Forall₂ (MemberRelated fun ty _ => P ty) as bs)
    (ha : Option.Rel (fun ty _ => P ty) a b) :
    ∀ child ∈ (ofShape (.object as a)).children, P child := by
  intro child h
  rcases List.mem_append.mp h with h | h
  · obtain ⟨member, hm, rfl⟩ := List.mem_map.mp h
    exact forall_of_forall₂_left (hs.imp fun _ _ h => h.2) member hm
  · cases ha with
    | none => cases h
    | some ha => exact List.mem_singleton.mp h ▸ ha


/-- Whatever compiling builds of types in normal form is in normal form. -/
theorem normal_congruence : Congruence fun ty _ => ty.Everywhere IsNormal where
  leaf kind := .intro trivial nofun
  const value := by
    unfold ofConst
    split <;> exact .intro trivial nofun
  array unique _ _ ha := .intro trivial fun child h => List.mem_singleton.mp h ▸ ha
  tuple hs ha := .intro trivial (forall_children_tuple hs ha)
  object hs ha := .intro trivial (forall_children_object hs ha)
  oneOf h hs := normal_oneOf (List.cons_ne_nil _ _)
    (List.forall_mem_cons.mpr ⟨h, forall_of_forall₂_left hs⟩)
  allOf h hs := normal_allOf (List.cons_ne_nil _ _)
    (List.forall_mem_cons.mpr ⟨h, forall_of_forall₂_left hs⟩)
  overlay overlay ty _ h :=
    normal_of_shape (show (overlay.apply ty).shape = ty.shape from rfl) h
  property defaults required name marked ty _ h :=
    normal_of_shape
      (show (Schema.propertyType defaults required name marked ty).shape = ty.shape from rfl) h
  propagateScope h := normal_of_shape (shape_propagateScope _) h

end Ty

end SchemaDoc
