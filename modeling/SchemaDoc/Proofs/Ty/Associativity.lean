import SchemaDoc.Proofs.Ty.Sameness

/-!
# Building unions and intersections in steps

A union may be built of some types at once, or of some of them first and then of that union and the
others.  Both ways give one type, and so it is with intersections, `Ty.build_in_steps`.

What is dropped in the first step is dropped at once too, but for another reason perhaps: by then
there may be an earlier type that it is the same as, or a constant further away that it gives way
to.  What counts is that the types seen in the first step are *shadowed* by those that are seen at
its place when all is built at once, `Ty.Shadows`: whatever is dropped for one of the former is
dropped for one of the latter.
-/

namespace SchemaDoc.Ty

/-! ## Types that are seen -/

/-- Whatever is the same as one of some types is the same as one of those that shadow them. -/
def Shadows (others types : List Ty) : Prop :=
  ∀ ty, (types.any fun old => old.same ty) = true → (others.any fun old => old.same ty) = true

namespace Shadows

variable {others types : List Ty}

theorem of_subset (h : types ⊆ others) : Shadows others types := by
  intro ty seen
  obtain ⟨old, hm, same⟩ := List.any_eq_true.mp seen
  exact List.any_eq_true.mpr ⟨old, h hm, same⟩

theorem trans {third : List Ty} (h : Shadows third others) (h' : Shadows others types) :
    Shadows third types :=
  fun ty seen => h ty (h' ty seen)

theorem append {left right : List Ty} (hl : Shadows others left) (hr : Shadows others right) :
    Shadows others (left ++ right) := by
  intro ty seen
  rw [List.any_append, Bool.or_eq_true] at seen
  exact seen.elim (hl ty) (hr ty)

/-- A type that is the same as one of the others is shadowed with the rest. -/
theorem cons {ty : Ty} (h : Shadows others types)
    (seen : (others.any fun old => old.same ty) = true) : Shadows others (ty :: types) := by
  intro item hi
  rw [List.any_cons, Bool.or_eq_true] at hi
  rcases hi with same | hi
  · obtain ⟨old, hm, same'⟩ := List.any_eq_true.mp seen
    exact List.any_eq_true.mpr ⟨old, hm, same_trans same' same⟩
  · exact h item hi

theorem cons_cons (h : Shadows others types) (ty : Ty) : Shadows (ty :: others) (ty :: types) := by
  intro item hi
  rw [List.any_cons, Bool.or_eq_true] at hi ⊢
  exact hi.imp_right (h item)

end Shadows

/-! ## Distinct types in steps -/

section Distinct

variable {seen others : List Ty}

/-- What is dropped for a type that was seen is dropped for any that shadow it. -/
theorem distinctFrom_congr (h : Shadows others seen) (h' : Shadows seen others) (types : List Ty) :
    distinctFrom others types = distinctFrom seen types := by
  induction types generalizing seen others with
  | nil => rfl
  | cons ty rest ih =>
    have dropped : (others.any fun old => old.same ty) = seen.any fun old => old.same ty :=
      Bool.eq_iff_iff.mpr ⟨h' ty, h ty⟩
    rw [distinctFrom, distinctFrom, dropped, ih h h', ih (h.cons_cons ty) (h'.cons_cons ty)]

/-- Behind some types those that stay of them were seen. -/
theorem distinctFrom_append (left right : List Ty) : ∀ seen : List Ty,
    distinctFrom seen (left ++ right) =
      distinctFrom seen left ++ distinctFrom ((distinctFrom seen left).reverse ++ seen) right := by
  induction left with
  | nil => exact fun _ => rfl
  | cons ty rest ih =>
    intro seen
    rw [List.cons_append, distinctFrom, distinctFrom]
    split
    · exact ih seen
    · rw [ih, List.cons_append, List.reverse_cons, List.append_assoc, List.singleton_append]

/-- Nothing more is dropped if some of it was dropped before. -/
theorem distinctFrom_distinctFrom (h : Shadows others seen) (types : List Ty) :
    distinctFrom others (distinctFrom seen types) = distinctFrom others types := by
  induction types generalizing seen others with
  | nil => rfl
  | cons ty rest ih =>
    by_cases old : (seen.any fun old => old.same ty) = true
    · rw [distinctFrom, if_pos old, distinctFrom, if_pos (h ty old), ih h]
    · rw [distinctFrom, if_neg old]
      by_cases known : (others.any fun old => old.same ty) = true
      · rw [distinctFrom, if_pos known, distinctFrom, if_pos known, ih (h.cons known)]
      · rw [distinctFrom, if_neg known, distinctFrom, if_neg known, ih (h.cons_cons ty)]

/-- Types in the middle may be made distinct before the others are. -/
theorem distinctFrom_middle (h : Shadows others seen) (left middle right : List Ty) :
    distinctFrom others (left ++ distinctFrom seen middle ++ right) =
      distinctFrom others (left ++ middle ++ right) := by
  have shadows : Shadows ((distinctFrom others left).reverse ++ others) seen :=
    Shadows.trans (.of_subset (List.subset_append_right _ _)) h
  have inner : distinctFrom others (left ++ distinctFrom seen middle) =
      distinctFrom others (left ++ middle) := by
    rw [distinctFrom_append, distinctFrom_append, distinctFrom_distinctFrom shadows]
  rw [distinctFrom_append, inner, ← distinctFrom_append]

end Distinct

/-! ## Unions -/

/-- The types that give way to the constants of a union are those that give way to the constants
that stay. -/
theorem shadows_bareLeaves (flat : List Ty) :
    Shadows ((distinctFrom (flat.filterMap bareLeaf?) flat).filterMap bareLeaf?)
      (flat.filterMap bareLeaf?) := by
  intro ty seen
  obtain ⟨bare, hb, same⟩ := List.any_eq_true.mp seen
  obtain ⟨fixed, hm, hb⟩ := List.mem_filterMap.mp hb
  obtain ⟨leaf, given, rfl⟩ := bareLeaf?_eq_some.mp hb
  obtain ⟨item, hi, stays⟩ : ∃ item ∈ distinctFrom (flat.filterMap bareLeaf?) flat,
      item.leaf? = fixed.leaf? ∧ item.const.isSome := by
    rcases same_of_mem _ hm with ⟨bare, hb, dropped⟩ | ⟨item, hi, rfl | kept⟩
    · -- A constant is never dropped for a leaf without one.
      obtain ⟨other, -, hb⟩ := List.mem_filterMap.mp hb
      obtain ⟨-, -, rfl⟩ := bareLeaf?_eq_some.mp hb
      have missing := isSome_const_of_same dropped
      rw [given] at missing
      cases missing
    · exact ⟨item, hi, rfl, given⟩
    · exact ⟨item, hi, leaf?_of_same kept, (isSome_const_of_same kept).trans given⟩
  refine List.any_eq_true.mpr ⟨{ item with const := none }, ?_, ?_⟩
  · exact List.mem_filterMap.mpr
      ⟨item, hi, bareLeaf?_eq_some.mpr ⟨stays.1 ▸ leaf, stays.2, rfl⟩⟩
  · have missing : ty.const = none := by
      rw [← Option.not_isSome_iff_eq_none, ← isSome_const_of_same same]
      exact Bool.false_ne_true
    have kind := leaf?_of_same same
    exact same_of_leaf? (stays.1 ▸ leaf) (stays.1.trans kind) rfl missing

/-- Null is among some types if it is among those that stay of them. -/
theorem any_isNull_distinctFrom (flat : List Ty) :
    (distinctFrom (flat.filterMap bareLeaf?) flat).any isNull = flat.any isNull := by
  rw [Bool.eq_iff_iff, List.any_eq_true, List.any_eq_true]
  constructor
  · rintro ⟨item, hi, null⟩
    exact ⟨item, (distinctFrom_sublist _ _).subset hi, null⟩
  · rintro ⟨ty, ht, null⟩
    obtain ⟨item, hi, leaf⟩ := exists_leaf?_eq ht
    refine ⟨item, hi, ?_⟩
    rwa [isNull, leaf]

/-- Types in the middle of a union may be made distinct before the others are. -/
theorem unionOfFlat_middle (left middle right : List Ty) :
    unionOfFlat (left ++ distinctFrom (middle.filterMap bareLeaf?) middle ++ right) =
      unionOfFlat (left ++ middle ++ right) := by
  let stays := distinctFrom (middle.filterMap bareLeaf?) middle
  have sub : List.Sublist (left ++ stays ++ right) (left ++ middle ++ right) :=
    ((List.Sublist.refl left).append (distinctFrom_sublist _ _)).append (.refl right)
  have less : Shadows ((left ++ middle ++ right).filterMap bareLeaf?)
      ((left ++ stays ++ right).filterMap bareLeaf?) :=
    .of_subset (List.filterMap_subset _ sub.subset)
  have whole : Shadows ((left ++ stays ++ right).filterMap bareLeaf?)
      ((left ++ middle ++ right).filterMap bareLeaf?) := by
    simp only [List.filterMap_append]
    refine .append (.append (.of_subset (by simp)) ?_) (.of_subset (by simp))
    refine Shadows.trans ?_ (shadows_bareLeaves middle)
    exact .of_subset (List.subset_append_of_subset_left _ (List.subset_append_right _ _))
  have seen : Shadows ((left ++ middle ++ right).filterMap bareLeaf?)
      (middle.filterMap bareLeaf?) :=
    .of_subset (List.filterMap_subset _ (by simp))
  have null : (left ++ stays ++ right).any isNull = (left ++ middle ++ right).any isNull := by
    simp only [List.any_append, stays, any_isNull_distinctFrom]
  rw [unionOfFlat, unionOfFlat, distinctFrom_congr whole less, distinctFrom_middle seen, null]

/-- The alternatives of a union are what stays of the types that it is built of. -/
theorem alternatives_unionOfFlat {flat : List Ty} (h : ∀ ty ∈ flat, ty.isUnion = false) :
    (unionOfFlat flat).alternatives = distinctFrom (flat.filterMap bareLeaf?) flat := by
  rw [unionOfFlat]
  split
  · rename_i ty only
    have single := h ty ((distinctFrom_sublist _ _).subset (only ▸ List.mem_cons_self))
    rw [only, alternatives]
    split
    · rename_i hs
      rw [isUnion, hs] at single
      cases single
    · rfl
  · rfl

/-! ## Intersections -/

/-- The conjuncts of an intersection are what stays of the types that it is built of. -/
theorem conjuncts_intersectionOfFlat {flat : List Ty}
    (h : ∀ ty ∈ flat, ty.isIntersection = false) :
    (intersectionOfFlat flat).conjuncts = distinctFrom [] flat := by
  rw [intersectionOfFlat]
  split
  · rename_i ty only
    have single := h ty ((distinctFrom_sublist _ _).subset (only ▸ List.mem_cons_self))
    rw [only, conjuncts]
    split
    · rename_i hs
      rw [isIntersection, hs] at single
      cases single
    · rfl
  · rfl

theorem intersectionOfFlat_middle (left middle right : List Ty) :
    intersectionOfFlat (left ++ distinctFrom [] middle ++ right) =
      intersectionOfFlat (left ++ middle ++ right) := by
  rw [intersectionOfFlat, intersectionOfFlat,
    distinctFrom_middle (.of_subset (List.Subset.refl []))]

/-! ## Both -/

/-- A union of some types and a union of others is the union of all of them, if no member of a
union among the others is a union.  Intersections are alike. -/
theorem build_in_steps (before types after : List Ty) :
    ((∀ ty ∈ types, ∀ item ∈ ty.alternatives, item.isUnion = false) →
      oneOf (before ++ [oneOf types] ++ after) = oneOf (before ++ types ++ after)) ∧
    ((∀ ty ∈ types, ∀ item ∈ ty.conjuncts, item.isIntersection = false) →
      allOf (before ++ [allOf types] ++ after) = allOf (before ++ types ++ after)) := by
  constructor
  · intro flat
    have inner := alternatives_unionOfFlat (List.forall_mem_flatMap.mpr flat)
    simp only [oneOf, List.flatMap_append, List.flatMap_singleton]
    rw [inner, unionOfFlat_middle]
  · intro flat
    have inner := conjuncts_intersectionOfFlat (List.forall_mem_flatMap.mpr flat)
    simp only [allOf, List.flatMap_append, List.flatMap_singleton]
    rw [inner, intersectionOfFlat_middle]

/-- A string, a constant and a union of an integer and null, which has a title. -/
def mixed : List Ty :=
  let null := (ofLeaf .null).annotate fun notes => { notes with title := some "None" }
  [ofLeaf .string, literal "a", ofShape (.union .oneOf [ofLeaf .integer, null] true)]

/-- The string gives way to the constant in the first step, and at once to that before it.  Of the
references in an intersection the last is dropped. -/
theorem mixed_build_in_steps :
    oneOf ([literal "a"] ++ [oneOf mixed] ++ [ofLeaf .string, literal "b"]) =
      oneOf ([literal "a"] ++ mixed ++ [ofLeaf .string, literal "b"]) ∧
    allOf ([reference "A"] ++ [allOf [reference "B", reference "A"]] ++ []) =
      allOf ([reference "A"] ++ [reference "B", reference "A"] ++ []) :=
  ⟨(build_in_steps _ _ _).1 (by decide), (build_in_steps _ _ _).2 (by decide)⟩

end SchemaDoc.Ty
