import SchemaDoc.Proofs.Ty.Congruence
import SchemaDoc.Session.Load

/-!
# The references of a schema

Compiling a schema has no effect but that of following its references, in an order that
the schema alone determines.  `Schema.references` lists them, and `Schema.build` makes a
type of the schema and of the types that answer them.

That two ways of following references compile a schema to related types is shown once, in
`compile_related`, for whatever it means that they are compared.  `compile_run` takes from
it that compiling is following the references and building, and `build_congr` that types
built of related answers are related.  So what a run does to a session is an induction on a
list of references, and what a type looks like is a matter of `Schema.build`, which knows of
no session.
-/

namespace SchemaDoc

namespace Schema

/-! ## References and answers -/

/-- The references of a declared type, given those of the arrays and of the objects. -/
def nameReferences (array object : List Reference) : TypeName → List Reference
  | .array => array
  | .object => object
  | .leaf _ => []

mutual

/-- The references of a schema, in the order in which they are followed. -/
def references : Schema → List Reference
  | ⟨some text, _, _, _, _, _, _, _, overlay⟩ => [⟨text, overlay⟩]
  | ⟨none, types, arrays, objects, anyOf, oneOf, _, allOf, _⟩ =>
    let declared (types : List TypeName) : List Reference :=
      types.flatMap (nameReferences (arrayReferences arrays) (objectReferences objects))
    if isTuple types arrays then declared (beforeArray types) ++ arrayReferences arrays
    else
      declared types ++
        (allReferences anyOf ++ (allReferences oneOf ++ allReferences allOf))
termination_by structural schema => schema

/-- The references of some schemas. -/
def allReferences : List Schema → List Reference
  | [] => []
  | schema :: rest => references schema ++ allReferences rest
termination_by structural schemas => schemas

/-- The references of a schema that may be missing. -/
def optionReferences : Option Schema → List Reference
  | none => []
  | some schema => references schema
termination_by structural schema => schema

/-- The references of some schemas that may be missing. -/
def allOptionReferences : Option (List Schema) → List Reference
  | none => []
  | some schemas => allReferences schemas
termination_by structural schemas => schemas

/-- The references of what a schema says about arrays. -/
def arrayReferences : Arrays Schema → List Reference
  | ⟨items, firstItems, _, _⟩ => optionReferences items ++ allOptionReferences firstItems
termination_by structural arrays => arrays

/-- The references of what a schema says about objects. -/
def objectReferences : Objects Schema → List Reference
  | ⟨properties, _, rest⟩ => propertyReferences properties ++ optionReferences rest
termination_by structural objects => objects

/-- The references of some properties. -/
def propertyReferences : List (Property Schema) → List Reference
  | [] => []
  | ⟨_, _, schema⟩ :: rest => references schema ++ propertyReferences rest
termination_by structural properties => properties

end

/-- Answer a reference with the next of some types. -/
def answer (_ : Reference) : StateM (List Ty) Ty := fun types => (types.headD .any, types.tail)

/-- The type of a schema whose references are answered by some types in order. -/
def build (schema : Schema) (types : List Ty) : Ty := (schema.compile answer types).1

/-! ## Comparing computations -/

/-- What it means that two computations follow the same references and have related
results.  It must hold of two results that follow none, and of two sequences whose parts
are compared. -/
structure Comparison (m n : Type → Type) [Monad m] [Monad n] [LawfulMonad m] [LawfulMonad n] where
  Holds : {α β : Type} → List Reference → (α → β → Prop) → m α → n β → Prop
  done : ∀ {α β : Type} {S : α → β → Prop} {a : α} {b : β}, S a b → Holds [] S (pure a) (pure b)
  bind : ∀ {α α' β β' : Type} {S : α → β → Prop} {T : α' → β' → Prop}
    {first second : List Reference} {x : m α} {y : n β} {f : α → m α'} {g : β → n β'},
    Holds first S x y → (∀ a b, S a b → Holds second T (f a) (g b)) →
    Holds (first ++ second) T (x >>= f) (y >>= g)

namespace Comparison

variable {m n : Type → Type} [Monad m] [Monad n] [LawfulMonad m] [LawfulMonad n]
variable (C : Comparison m n)

/-- Any one reference is followed in two ways that are compared, and so is whatever is built of
types with related parts. -/
structure Follows (R : Ty → Ty → Prop) (refer : Reference → m Ty) (refer' : Reference → n Ty) :
    Prop where
  congr : Ty.Congruence R
  ask : ∀ reference, C.Holds [reference] R (refer reference) (refer' reference)

include C

/-- What is made of the results follows no reference. -/
theorem map {α α' β β' : Type} {S : α → β → Prop} {T : α' → β' → Prop}
    {references : List Reference} {x : m α} {y : n β} {f : α → α'} {g : β → β'}
    (h : C.Holds references S x y) (hfg : ∀ a b, S a b → T (f a) (g b)) :
    C.Holds references T (do let a ← x; pure (f a)) (do let b ← y; pure (g b)) := by
  have sequence := C.bind h fun a b hab => C.done (hfg a b hab)
  rwa [List.append_nil] at sequence

theorem mapM {ι α β : Type} {S : α → β → Prop}
    {references : ι → List Reference} {f : ι → m α} {g : ι → n β}
    (h : ∀ i, C.Holds (references i) S (f i) (g i)) :
    ∀ items : List ι,
      C.Holds (items.flatMap references) (List.Forall₂ S) (items.mapM f) (items.mapM g)
  | [] => C.done .nil
  | item :: rest => by
    rw [List.mapM_cons, List.mapM_cons, List.flatMap_cons]
    refine C.bind (h item) fun a b hab => ?_
    exact C.map (mapM h rest) fun as bs hs => .cons hab hs

end Comparison

/-! ## Compiling in two ways -/

section Compile

variable {m n : Type → Type} [Monad m] [Monad n] [LawfulMonad m] [LawfulMonad n]
variable (C : Comparison m n) {R : Ty → Ty → Prop}

theorem typeName_related (congr : Ty.Congruence R) {arrayRefs objectRefs : List Reference}
    {array object : m Ty} {array' object' : n Ty} (ha : C.Holds arrayRefs R array array')
    (ho : C.Holds objectRefs R object object') :
    ∀ name : TypeName,
      C.Holds (nameReferences arrayRefs objectRefs name) R (name.compile array object)
        (name.compile array' object')
  | .array => ha
  | .object => ho
  | .leaf kind => C.done (congr.leaf kind)

variable {refer : Reference → m Ty} {refer' : Reference → n Ty}

mutual

/-- Compiling a schema is compared with compiling it in another way, if following any one
reference is. -/
theorem compile_related (h : C.Follows R refer refer') (schema : Schema) :
    C.Holds schema.references R (schema.compile refer) (schema.compile refer') := by
  match schema with
  | ⟨some text, _, _, _, _, _, _, _, overlay⟩ =>
    rw [references, compile, compile]
    exact h.ask ⟨text, overlay⟩
  | ⟨none, types, arrays, objects, anyOf, oneOf, enum, allOf, overlay⟩ =>
    have array := compileArray_related h arrays
    have declared := typeName_related C h.congr array
      (compileObject_related h overlay.memberDefaults objects)
    rw [references, compile, compile]
    split
    · refine C.bind (C.mapM declared _) fun _ _ _ => ?_
      exact C.map array fun a b hab => h.congr.propagateScope (h.congr.overlay overlay hab)
    · refine C.bind (C.mapM declared _) fun declared declared' hd => ?_
      refine C.bind (compileAll_related h anyOf) fun any any' ha => ?_
      refine C.bind (compileAll_related h oneOf) fun one one' ho => ?_
      refine C.map (compileAll_related h allOf) fun all all' hl => ?_
      have consts : List.Forall₂ R (enum.map Ty.ofConst) (enum.map Ty.ofConst) :=
        List.forall₂_same.mpr fun ty hm => by
          obtain ⟨value, -, rfl⟩ := List.mem_map.mp hm
          exact h.congr.const value
      exact h.congr.combine overlay
        (List.rel_append (List.rel_append (List.rel_append hd ha) ho) consts) hl

theorem compileAll_related (h : C.Follows R refer refer') (schemas : List Schema) :
    C.Holds (allReferences schemas) (List.Forall₂ R) (compileAll refer schemas)
      (compileAll refer' schemas) := by
  match schemas with
  | [] => exact C.done .nil
  | schema :: rest =>
    rw [allReferences, compileAll, compileAll]
    refine C.bind (compile_related h schema) fun a b hab => ?_
    exact C.map (compileAll_related h rest) fun as bs hs => .cons hab hs

theorem compileOption_related (h : C.Follows R refer refer') (schema : Option Schema) :
    C.Holds (optionReferences schema) (Option.Rel R) (compileOption refer schema)
      (compileOption refer' schema) := by
  match schema with
  | none => exact C.done .none
  | some schema =>
    rw [optionReferences, compileOption, compileOption]
    exact C.map (compile_related h schema) fun a b hab => .some hab

theorem compileAllOption_related (h : C.Follows R refer refer') (schemas : Option (List Schema)) :
    C.Holds (allOptionReferences schemas) (Option.Rel (List.Forall₂ R))
      (compileAllOption refer schemas) (compileAllOption refer' schemas) := by
  match schemas with
  | none => exact C.done .none
  | some schemas =>
    rw [allOptionReferences, compileAllOption, compileAllOption]
    exact C.map (compileAll_related h schemas) fun as bs hs => .some hs

theorem compileArray_related (h : C.Follows R refer refer') (arrays : Arrays Schema) :
    C.Holds (arrayReferences arrays) R (compileArray refer arrays)
      (compileArray refer' arrays) := by
  match arrays with
  | ⟨items, firstItems, unique, maxItems⟩ =>
    rw [arrayReferences, compileArray, compileArray]
    refine C.bind (compileOption_related h items) fun a b hab => ?_
    refine C.map (compileAllOption_related h firstItems) fun as bs hs => ?_
    exact h.congr.arrayType unique maxItems (h.congr.getD_any hab) hs

theorem compileObject_related (h : C.Follows R refer refer') (defaults : Table String Json)
    (objects : Objects Schema) :
    C.Holds (objectReferences objects) R (compileObject refer defaults objects)
      (compileObject refer' defaults objects) := by
  match objects with
  | ⟨properties, required, rest⟩ =>
    rw [objectReferences, compileObject, compileObject]
    refine C.bind (compileProperties_related h defaults required properties) fun as bs hs => ?_
    refine C.map (compileOption_related h rest) fun a b hab => ?_
    exact h.congr.propagateScope (h.congr.object hs hab)

theorem compileProperties_related (h : C.Follows R refer refer') (defaults : Table String Json)
    (required : List String) (properties : List (Property Schema)) :
    C.Holds (propertyReferences properties) (List.Forall₂ (MemberRelated R))
      (compileProperties refer defaults required properties)
      (compileProperties refer' defaults required properties) := by
  match properties with
  | [] => exact C.done .nil
  | ⟨name, marked, schema⟩ :: rest =>
    rw [propertyReferences, compileProperties, compileProperties]
    refine C.bind (compile_related h schema) fun a b hab => ?_
    refine C.map (compileProperties_related h defaults required rest) fun as bs hs => ?_
    exact .cons ⟨rfl, h.congr.property defaults required name marked hab⟩ hs

end

end Compile

/-! ## Building from related answers -/

/-- Computations on answers are compared if related answers give related results and
leave related answers. -/
def Comparison.answers (R : Ty → Ty → Prop) :
    Comparison (StateM (List Ty)) (StateM (List Ty)) where
  Holds _ S x y := ∀ as bs, List.Forall₂ R as bs →
    S (x as).1 (y bs).1 ∧ List.Forall₂ R (x as).2 (y bs).2
  done h _ _ hs := ⟨h, hs⟩
  bind hx hf as bs hs :=
    have first := hx as bs hs
    hf _ _ first.1 _ _ first.2

/-- Related answers build related types. -/
theorem build_congr {R : Ty → Ty → Prop} (congr : Ty.Congruence R) (schema : Schema)
    {as bs : List Ty} (h : List.Forall₂ R as bs) : R (schema.build as) (schema.build bs) := by
  refine (compile_related (.answers R) ⟨congr, fun _ as bs hs => ?_⟩ schema as bs h).1
  cases hs with
  | nil => exact ⟨congr.leaf .any, .nil⟩
  | cons hab hs => exact ⟨hab, hs⟩

/-! ## Compiling is following and building -/

section Following

variable (refer : Reference → Loading Ty)

/-- What following some references comes to, if a result is made of the types they lead
to. -/
def finish {α : Type} (result : List Ty → α) :
    Except LoadError (List Ty) × Session → Except LoadError α × Session
  | (.ok types, after) => (.ok (result types), after)
  | (.error error, after) => (.error error, after)

theorem mapM_cons_run (reference : Reference) (rest : List Reference) (session : Session) :
    ((reference :: rest).mapM refer) session =
      match refer reference session with
      | (.ok ty, after) => finish (ty :: ·) (rest.mapM refer after)
      | (.error error, after) => (.error error, after) := by
  rw [List.mapM_cons, Loading.bind_run]
  cases refer reference session with
  | mk result after =>
    cases result with
    | error => rfl
    | ok ty =>
      simp only [Loading.bind_run]
      rcases rest.mapM refer after with ⟨_ | types, last⟩ <;> rfl

theorem mapM_append_run (first second : List Reference) (session : Session) :
    ((first ++ second).mapM refer) session =
      match first.mapM refer session with
      | (.ok types, after) => finish (types ++ ·) (second.mapM refer after)
      | (.error error, after) => (.error error, after) := by
  rw [List.mapM_append, Loading.bind_run]
  cases first.mapM refer session with
  | mk result after =>
    cases result with
    | error => rfl
    | ok types =>
      simp only [Loading.bind_run]
      rcases second.mapM refer after with ⟨_ | others, last⟩ <;> rfl

/-- A computation on a session is compared with one on answers: it follows the references,
fails where that fails, and else has the result that the other makes of the answers, which
uses up one for each reference. -/
def Comparison.following : Comparison Loading (StateM (List Ty)) where
  Holds references S x y := ∀ session,
    match references.mapM refer session with
    | (.ok types, after) => ∃ a, x session = (.ok a, after) ∧
        ∀ others, S a (y (types ++ others)).1 ∧ (y (types ++ others)).2 = others
    | (.error error, after) => x session = (.error error, after)
  done h session := ⟨_, rfl, fun _ => ⟨h, rfl⟩⟩
  bind := by
    intro α α' β β' S T first second x y f g hx hf session
    specialize hx session
    rw [mapM_append_run, Loading.bind_run]
    cases hm : first.mapM refer session with
    | mk result middle =>
      rw [hm] at hx
      cases result with
      | error error =>
        rw [hx]
      | ok types =>
        obtain ⟨a, ha, answered⟩ := hx
        have hn := fun others => hf a _ (answered others).1 middle
        rw [ha]
        dsimp only
        cases hs : second.mapM refer middle with
        | mk result after =>
          simp only [hs] at hn
          cases result with
          | error error => exact hn []
          | ok others =>
            obtain ⟨b, hb, -⟩ := hn (others ++ [])
            refine ⟨b, hb, fun rest => ?_⟩
            obtain ⟨b', hb', last⟩ := hn (others ++ rest)
            obtain rfl : b = b' := by
              rw [hb] at hb'
              cases hb'
              rfl
            have used := (answered (others ++ rest)).2
            rw [← List.append_assoc] at last used
            change T b (g (y (types ++ others ++ rest)).1 (y (types ++ others ++ rest)).2).1 ∧
              (g (y (types ++ others ++ rest)).1 (y (types ++ others ++ rest)).2).2 = rest
            rw [used]
            exact last rest

/-- Compiling a schema is following its references and building a type of what they lead
to. -/
theorem compile_run (schema : Schema) (session : Session) :
    schema.compile refer session = finish schema.build (schema.references.mapM refer session) := by
  have each (reference : Reference) :
      (Comparison.following refer).Holds [reference] Eq (refer reference) (answer reference) := by
    intro session
    rw [mapM_cons_run]
    rcases refer reference session with ⟨_ | ty, after⟩
    · rfl
    · exact ⟨ty, rfl, fun others => ⟨rfl, rfl⟩⟩
  have related := compile_related (.following refer) ⟨.eq, each⟩ schema session
  cases hm : schema.references.mapM refer session with
  | mk result after =>
    simp only [hm] at related
    cases result with
    | error error => exact related
    | ok types =>
      obtain ⟨ty, hty, answered⟩ := related
      have same := (answered []).1
      rw [List.append_nil] at same
      rw [hty, same]
      rfl

end Following

end Schema

end SchemaDoc
