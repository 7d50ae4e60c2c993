import SchemaDoc.Proofs.Ty.Targets

/-!
# Answers are used once

The type of a schema is built of types that answer its references.  Each answer goes into the
type at one place at most, so the references in the type are among those of the answers and are
not more than they are, `Schema.hits_build`.

That cannot be taken from `Schema.compile_related`, which says what holds of the result if it
holds of all answers, but not how often an answer is used.  Here a computation on answers is
given a budget: what its result holds and what the answers that are left hold comes to no more
than what all answers held, `Schema.Spends`.
-/

namespace SchemaDoc

namespace Ty

/-! ## References to a name -/

/-- How many references to a name there are in some types. -/
def hits (name : String) (types : List Ty) : Nat := (types.flatMap targets).count name

variable {name : String}

theorem hits_append (types others : List Ty) :
    hits name (types ++ others) = hits name types + hits name others := by
  rw [hits, List.flatMap_append, List.count_append]
  rfl

theorem hits_cons (ty : Ty) (rest : List Ty) :
    hits name (ty :: rest) = hits name [ty] + hits name rest := hits_append [ty] rest

theorem hits_singleton (ty : Ty) : hits name [ty] = ty.targets.count name := by
  rw [hits, List.flatMap_singleton]

theorem hits_of_shape {a b : Ty} (h : a.shape = b.shape) : hits name [a] = hits name [b] := by
  rw [hits_singleton, hits_singleton, targets_of_shape h]

@[simp] theorem hits_withId (ty : Ty) (id : String) :
    hits name [ty.withId id] = hits name [ty] := hits_of_shape rfl

/-- A type that is no reference has the references of its children. -/
theorem hits_children {ty : Ty} (h : ty.target? = none) :
    hits name [ty] = hits name ty.children := by
  rw [hits_singleton, targets_eq h, hits]

theorem hits_ofConst (value : Json) : hits name [ofConst value] = 0 := by
  unfold ofConst
  split <;> rfl

theorem hits_oneOf (types : List Ty) : hits name [oneOf types] ≤ hits name types := by
  rw [hits_singleton]
  exact (targets_oneOf_sublist types).count_le name

theorem hits_allOf (types : List Ty) : hits name [allOf types] ≤ hits name types := by
  rw [hits_singleton]
  exact (targets_allOf_sublist types).count_le name

end Ty

namespace Schema

open Ty (hits hits_append hits_cons hits_children hits_of_shape)

variable {name : String}

/-! ## What is built of some types -/

theorem hits_combine (overlay : Overlay) (arms all : List Ty) :
    hits name [combine overlay arms all] ≤ hits name arms + hits name all := by
  have plain (ty : Ty) : hits name [overlay.apply ty] = hits name [ty] := hits_of_shape rfl
  rw [combine, hits_of_shape (Ty.shape_propagateScope _), plain]
  cases arms with
  | nil =>
    cases all with
    | nil => exact Nat.zero_le _
    | cons ty rest => exact Nat.le_trans (Ty.hits_allOf _) (Nat.le_add_left ..)
  | cons arm rest =>
    refine Nat.le_trans (Ty.hits_allOf (.oneOf (arm :: rest) :: all)) ?_
    rw [hits_cons (.oneOf (arm :: rest)) all]
    exact Nat.add_le_add_right (Ty.hits_oneOf _) _

theorem hits_arrayType (unique : Bool) (maxItems : Option Nat) (item : Ty)
    (types : Option (List Ty)) :
    hits name [arrayType unique maxItems item types] ≤
      hits name [item] + hits name (types.getD []) := by
  cases types with
  | none =>
    rw [arrayType, hits_children rfl]
    exact Nat.le_add_right ..
  | some types =>
    rw [arrayType, hits_children rfl, Nat.add_comm]
    change hits name (types ++ Option.toList _) ≤ hits name types + _
    rw [hits_append]
    split
    · exact Nat.add_le_add_left (Nat.zero_le _) _
    · exact Nat.le_refl _

theorem hits_object (members : List (String × Ty)) (rest : Option Ty) :
    hits name [(Ty.ofShape (.object members rest)).propagateScope] =
      hits name (members.map Prod.snd) + hits name rest.toList := by
  rw [hits_of_shape (Ty.shape_propagateScope _), hits_children rfl, ← hits_append]
  rfl

/-! ## Budgets -/

/-- A computation on answers spends no more references to a name than it is given in answers and
on credit.  Its result is made of some types. -/
def Spends {α : Type} (name : String) (credit : Nat) (parts : α → List Ty)
    (x : StateM (List Ty) α) : Prop :=
  ∀ types, hits name (parts (x types).1) + hits name (x types).2 ≤ credit + hits name types

namespace Spends

variable {α β : Type} {credit : Nat}

theorem pure {parts : α → List Ty} {a : α} (h : hits name (parts a) ≤ credit) :
    Spends name credit parts (Pure.pure a) := fun _ => Nat.add_le_add_right h _

/-- What the first part of a sequence holds is credit for the second. -/
theorem bind {parts : α → List Ty} {parts' : β → List Ty} {x : StateM (List Ty) α}
    {f : α → StateM (List Ty) β} (hx : Spends name 0 parts x)
    (hf : ∀ a, Spends name (credit + hits name (parts a)) parts' (f a)) :
    Spends name credit parts' (x >>= f) := by
  intro types
  have first := hx types
  have second := hf (x types).1 (x types).2
  change hits name (parts' (f (x types).1 (x types).2).1) +
    hits name (f (x types).1 (x types).2).2 ≤ _
  omega

theorem mapM {ι : Type} {f : ι → StateM (List Ty) Ty}
    (h : ∀ i, Spends name 0 (fun ty => [ty]) (f i)) (items : List ι) :
    Spends name 0 id (items.mapM f) := by
  induction items with
  | nil => exact .pure (Nat.le_refl 0)
  | cons item rest ih =>
    rw [List.mapM_cons]
    refine .bind (h item) fun ty => .bind ih fun types => .pure ?_
    dsimp only [id]
    rw [hits_cons ty types]
    omega

/-- Answering a reference spends the answer. -/
theorem answer (reference : Reference) :
    Spends name 0 (fun ty => [ty]) (Schema.answer reference) := by
  intro types
  cases types with
  | nil => exact Nat.le_refl 0
  | cons ty rest =>
    rw [Nat.zero_add, hits_cons ty rest]
    exact Nat.le_refl _

end Spends

/-! ## Compiling on a budget -/

theorem typeName_spends {array object : StateM (List Ty) Ty}
    (ha : Spends name 0 (fun ty => [ty]) array) (ho : Spends name 0 (fun ty => [ty]) object) :
    ∀ declared : TypeName, Spends name 0 (fun ty => [ty]) (declared.compile array object)
  | .array => ha
  | .object => ho
  | .leaf _ => .pure (Nat.le_refl 0)

mutual

/-- Compiling a schema spends each answer once at most. -/
theorem compile_spends (schema : Schema) :
    Spends name 0 (fun ty => [ty]) (schema.compile answer) := by
  match schema with
  | ⟨some text, _, _, _, _, _, _, _, overlay⟩ =>
    rw [compile]
    exact .answer _
  | ⟨none, types, arrays, objects, anyOf, oneOf, enum, allOf, overlay⟩ =>
    have array := compileArray_spends arrays
    have declared := Spends.mapM
      (typeName_spends array (compileObject_spends overlay.memberDefaults objects))
    rw [compile]
    split
    · refine .bind (declared _) fun dropped => .bind array fun ty => .pure ?_
      rw [hits_of_shape (Ty.shape_propagateScope _),
        hits_of_shape (show (overlay.apply ty).shape = ty.shape from rfl)]
      omega
    · refine .bind (declared _) fun declared => ?_
      refine .bind (compileAll_spends anyOf) fun anyTypes => ?_
      refine .bind (compileAll_spends oneOf) fun oneTypes => ?_
      refine .bind (compileAll_spends allOf) fun allTypes => .pure ?_
      have consts : hits name (enum.map Ty.ofConst) = 0 := by
        induction enum with
        | nil => rfl
        | cons value rest ih => rw [List.map_cons, hits_cons, ih, Ty.hits_ofConst]
      refine Nat.le_trans (hits_combine _ _ _) ?_
      simp only [hits_append, consts, id]
      omega

theorem compileAll_spends (schemas : List Schema) :
    Spends name 0 id (compileAll answer schemas) := by
  match schemas with
  | [] => exact .pure (Nat.le_refl 0)
  | schema :: rest =>
    rw [compileAll]
    refine .bind (compile_spends schema) fun ty => .bind (compileAll_spends rest) fun types =>
      .pure ?_
    dsimp only [id]
    rw [hits_cons ty types]
    omega

theorem compileOption_spends (schema : Option Schema) :
    Spends name 0 Option.toList (compileOption answer schema) := by
  match schema with
  | none => exact .pure (Nat.le_refl 0)
  | some schema =>
    rw [compileOption]
    exact .bind (compile_spends schema) fun ty => .pure (Nat.le_add_left ..)

theorem compileAllOption_spends (schemas : Option (List Schema)) :
    Spends name 0 (Option.getD · []) (compileAllOption answer schemas) := by
  match schemas with
  | none => exact .pure (Nat.le_refl 0)
  | some schemas =>
    rw [compileAllOption]
    exact .bind (compileAll_spends schemas) fun types => .pure (Nat.le_add_left ..)

theorem compileArray_spends (arrays : Arrays Schema) :
    Spends name 0 (fun ty => [ty]) (compileArray answer arrays) := by
  match arrays with
  | ⟨items, firstItems, unique, maxItems⟩ =>
    rw [compileArray]
    refine .bind (compileOption_spends items) fun item => ?_
    refine .bind (compileAllOption_spends firstItems) fun types => .pure ?_
    have given : hits name [item.getD .any] = hits name item.toList := by cases item <;> rfl
    refine Nat.le_trans (hits_arrayType _ _ _ _) ?_
    rw [given]
    omega

theorem compileObject_spends (defaults : Table String Json) (objects : Objects Schema) :
    Spends name 0 (fun ty => [ty]) (compileObject answer defaults objects) := by
  match objects with
  | ⟨properties, required, rest⟩ =>
    rw [compileObject]
    refine .bind (compileProperties_spends defaults required properties) fun members => ?_
    refine .bind (compileOption_spends rest) fun others => .pure ?_
    rw [hits_object]
    omega

theorem compileProperties_spends (defaults : Table String Json) (required : List String)
    (properties : List (Property Schema)) :
    Spends name 0 (List.map Prod.snd) (compileProperties answer defaults required properties) := by
  match properties with
  | [] => exact .pure (Nat.le_refl 0)
  | ⟨key, marked, schema⟩ :: rest =>
    rw [compileProperties]
    refine .bind (compile_spends schema) fun ty => ?_
    refine .bind (compileProperties_spends defaults required rest) fun members => .pure ?_
    have shape : (propertyType defaults required key marked ty).shape = ty.shape := rfl
    rw [List.map_cons, hits_cons, hits_of_shape shape]
    omega

end

/-- There are no more references to a name in the type of a schema than in the types that answer
its references. -/
theorem hits_build (name : String) (schema : Schema) (types : List Ty) :
    hits name [schema.build types] ≤ hits name types := by
  have spent := (compile_spends schema : Spends name 0 _ _) types
  rw [Nat.zero_add] at spent
  exact Nat.le_trans (Nat.le_add_right ..) spent

/-- The targets of a schema's type are targets of the types that answer its references. -/
theorem mem_targets_build {schema : Schema} {types : List Ty} {name : String}
    (h : name ∈ (schema.build types).targets) : ∃ ty ∈ types, name ∈ ty.targets := by
  rw [← List.mem_flatMap, ← List.count_pos_iff]
  have some := List.count_pos_iff.mpr h
  rw [← Ty.hits_singleton] at some
  exact Nat.lt_of_lt_of_le some (hits_build name schema types)

end Schema

end SchemaDoc
