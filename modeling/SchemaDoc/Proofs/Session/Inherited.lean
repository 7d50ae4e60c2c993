import SchemaDoc.Proofs.Session.Origins
import SchemaDoc.Proofs.Ty.NormalForm

/-!
# What types inherit

Every type in the cache was built of references, whatever these lead to: `Session.cache_built`.
Unlike the origins of types this needs nothing of the registry.  So a property that all
references have, and that is *inherited* by whatever is built of types that have it, is one that
every type in the cache has, `Session.forall_cached`.

Being in normal form is such a property, `Session.cache_normal`, and so is having no name at any
depth: only a type in the cache as a whole has one, `Session.cache_anonymous`.
-/

namespace SchemaDoc

/-! ## Built of references -/

/-- A type is a reference, with anything said about it. -/
def Ty.IsAnswer (ty : Ty) : Prop :=
  ∃ (overlay : Schema.Overlay) (name : String) (scope : Scope),
    ty = (overlay.apply (.reference name)).withScope scope

/-- A type is what some schema is compiled to under a name, whatever its references lead to. -/
def Ty.BuiltOfAnswers (id : String) (ty : Ty) : Prop :=
  ∃ (schema : Schema) (types : List Ty), ty = (schema.build types).withId id ∧
    ∀ answer ∈ types, answer.IsAnswer

/-- The types of references that were followed are references. -/
theorem Follows.isAnswer {session after : Session} {references : List Schema.Reference}
    {types : List Ty} (h : Follows session references (.ok types) after) :
    ∀ ty ∈ types, ty.IsAnswer := by
  match h with
  | .done => exact fun _ h => nomatch h
  | .next _ follows => exact List.forall_mem_cons.mpr ⟨⟨_, _, _, rfl⟩, follows.isAnswer⟩

/-- A property of a cache is kept when a type that is built comes into it. -/
def Table.KeptByBuilt (P : Table String Ty → Prop) : Prop :=
  ∀ cache id ty, Ty.BuiltOfAnswers id ty → P cache → P (cache.put id ty)

section Runs

variable {P : Table String Ty → Prop}

mutual

/-- What holds of the cache and is kept when a type is built holds after loading a name. -/
theorem Loads.keeps (keep : Table.KeptByBuilt P) {session after : Session} {uri : String}
    {result : Except LoadError Ty} (h : Loads session uri result after) (hc : P session.cache) :
    P after.cache := by
  match h with
  | .lost _ => exact hc
  | .cached _ _ => exact hc
  | .reentered _ _ _ => exact hc
  | .missing _ _ _ _ => exact hc
  | .failed _ _ _ _ follows => exact follows.keeps keep hc
  | .compiled _ _ _ _ follows =>
    exact keep _ _ _ ⟨_, _, rfl, follows.isAnswer⟩ (follows.keeps keep hc)

/-- What holds of the cache and is kept when a type is built holds after following references. -/
theorem Follows.keeps (keep : Table.KeptByBuilt P) {session after : Session}
    {references : List Schema.Reference} {result : Except LoadError (List Ty)}
    (h : Follows session references result after) (hc : P session.cache) : P after.cache := by
  match h with
  | .done => exact hc
  | .stopped loads => exact loads.keeps keep hc
  | .failed loads follows => exact follows.keeps keep (loads.keeps keep hc)
  | .next loads follows => exact follows.keeps keep (loads.keeps keep hc)

end

/-- What holds of an empty cache and is kept when a type is built holds of the cache of every
session. -/
theorem Session.cache_induction (keep : Table.KeptByBuilt P) (nil : P []) (registry : Registry)
    (keyword : String) (uris : List String) : P ((fresh registry keyword).loadAll uris).cache :=
  (loadAll_induction (P := fun session => P session.cache)
    (fun _ _ _ _ _ hc loads => loads.keeps keep hc) uris (fresh registry keyword)
    (fresh_resting registry keyword) nil).1

end Runs

namespace Session

variable (registry : Registry) (keyword : String) (uris : List String)

/-- Every type in the cache is built of references, whatever names were loaded. -/
theorem cache_built :
    ∀ id ty, ((fresh registry keyword).loadAll uris).get? id = some ty → ty.BuiltOfAnswers id := by
  refine cache_induction (P := fun cache => ∀ id ty, cache.get? id = some ty → ty.BuiltOfAnswers id)
    (fun cache id ty built hc name kept hg => ?_) nofun registry keyword uris
  rw [Table.get?_put] at hg
  split at hg
  · rename_i hid
    cases hg
    exact hid ▸ built
  · exact hc name kept hg

/-- No name is twice in the cache. -/
theorem cache_nodup : ((fresh registry keyword).loadAll uris).cache.keys.Nodup :=
  cache_induction (P := fun cache => cache.keys.Nodup) (fun _ _ _ _ nodup => Table.nodup_put nodup _ _)
    .nil registry keyword uris

end Session

/-! ## Properties that are inherited -/

/-- A property that references have, and types that are built of such types. -/
structure Ty.Inherited (P : Ty → Prop) : Prop where
  built : Congruence fun ty _ => P ty
  reference : ∀ (overlay : Schema.Overlay) (name : String) (scope : Scope),
    P ((overlay.apply (.reference name)).withScope scope)
  withId : ∀ {ty : Ty} (id : String), P ty → P (ty.withId id)

/-- Every type in the cache has a property that is inherited, whatever names were loaded. -/
theorem Session.forall_cached {P : Ty → Prop} (inherited : Ty.Inherited P) (registry : Registry)
    (keyword : String) (uris : List String) {id : String} {ty : Ty}
    (h : ((fresh registry keyword).loadAll uris).get? id = some ty) : P ty := by
  obtain ⟨schema, types, rfl, answers⟩ := cache_built registry keyword uris id ty h
  refine inherited.withId _ (Schema.build_congr inherited.built _ (List.forall₂_same.mpr ?_))
  intro answer ha
  obtain ⟨overlay, name, scope, rfl⟩ := answers answer ha
  exact inherited.reference overlay name scope

/-! ## Types without names -/

namespace Ty

/-- A type has no name, whatever its children are. -/
def IsAnonymous (ty : Ty) : Prop := ty.id = ""

/-- A type in which nothing has a name is flattened to such types. -/
theorem anonymous_of_flatten {flatten : Ty → List Ty}
    (flat : ∀ ty, ∀ item ∈ flatten ty, item = ty ∨ item ∈ ty.children) (ty : Ty)
    (h : ty.Everywhere IsAnonymous) : ∀ item ∈ flatten ty, item.Everywhere IsAnonymous := by
  intro item hi
  rcases flat ty item hi with rfl | child
  · exact h
  · exact h.inside item child

theorem anonymous_oneOf {types : List Ty} (h : ∀ ty ∈ types, ty.Everywhere IsAnonymous) :
    (oneOf types).Everywhere IsAnonymous := by
  have kept := forall_distinctFrom_flatMap (anonymous_of_flatten mem_alternatives) h
    ((types.flatMap alternatives).filterMap bareLeaf?)
  rw [oneOf, unionOfFlat]
  split
  · rename_i item hd
    exact kept item (hd ▸ List.mem_cons_self)
  · exact .intro rfl kept

theorem anonymous_allOf {types : List Ty} (h : ∀ ty ∈ types, ty.Everywhere IsAnonymous) :
    (allOf types).Everywhere IsAnonymous := by
  have kept := forall_distinctFrom_flatMap (anonymous_of_flatten mem_conjuncts) h []
  rw [allOf, intersectionOfFlat]
  split
  · rename_i item hd
    exact kept item (hd ▸ List.mem_cons_self)
  · exact .intro rfl kept

/-- Nothing that compiling builds has a name if its parts have none. -/
theorem anonymous_congruence : Congruence fun ty _ => ty.Everywhere IsAnonymous where
  leaf kind := .intro rfl nofun
  const value := by
    unfold ofConst
    split <;> exact .intro rfl nofun
  array unique _ _ ha := .intro rfl fun child h => List.mem_singleton.mp h ▸ ha
  tuple hs ha := .intro rfl (forall_children_tuple hs ha)
  object hs ha := .intro rfl (forall_children_object hs ha)
  oneOf h hs := anonymous_oneOf (List.forall_mem_cons.mpr ⟨h, forall_of_forall₂_left hs⟩)
  allOf h hs := anonymous_allOf (List.forall_mem_cons.mpr ⟨h, forall_of_forall₂_left hs⟩)
  overlay overlay ty _ h :=
    .of_shape (show (overlay.apply ty).shape = ty.shape from rfl) (fun none => none) h
  property defaults required name marked ty _ h := .of_shape
    (show (Schema.propertyType defaults required name marked ty).shape = ty.shape from rfl)
    (fun none => none) h
  propagateScope {ty} _ h := by
    refine .of_shape (shape_propagateScope _) (fun none => ?_) h
    unfold propagateScope
    split <;> exact none

end Ty

/-- Nothing inside a type in the cache has a name. -/
theorem Session.cache_anonymous (registry : Registry) (keyword : String) (uris : List String)
    {id : String} {ty : Ty} (h : ((fresh registry keyword).loadAll uris).get? id = some ty) :
    ∀ child ∈ ty.children, child.Everywhere Ty.IsAnonymous := by
  obtain ⟨schema, types, rfl, answers⟩ := cache_built registry keyword uris id ty h
  have built : (schema.build types).Everywhere Ty.IsAnonymous := by
    refine Schema.build_congr Ty.anonymous_congruence schema (List.forall₂_same.mpr ?_)
    intro answer ha
    obtain ⟨overlay, name, scope, rfl⟩ := answers answer ha
    exact .intro rfl nofun
  exact built.inside

/-! ## Normal forms -/

/-- Types in normal form are inherited. -/
theorem Ty.inherited_normal : Inherited (Everywhere IsNormal) where
  built := normal_congruence
  reference _ _ _ := .intro trivial nofun
  withId _ := normal_of_shape rfl

namespace Session

/-- Every type in the cache is in normal form at every depth, whatever names were loaded and
whether they loaded or not. -/
theorem cache_normal (registry : Registry) (keyword : String) (uris : List String) {id : String}
    {ty : Ty} (h : ((fresh registry keyword).loadAll uris).get? id = some ty) :
    ty.Everywhere Ty.IsNormal :=
  forall_cached Ty.inherited_normal registry keyword uris h

/-- Unions and intersections inside each other, with members that are dropped. -/
def nestedSchema : Json :=
  .object [("anyOf", .array [
      .object [("type", .array [.string "string", .string "null"])],
      .object [("enum", .array [.string "a", .number (.integer 1)])],
      .object [("oneOf", .array [
        .object [("const", .string "a"), ("type", .string "string")],
        .object [("allOf", .array [
          .object [("$ref", .string "#/$defs/A")],
          .object [("allOf", .array [
            .object [("$ref", .string "#/$defs/B")], .object [("$ref", .string "#/$defs/A")]])]])]])]]),
    ("$defs", .object [("A", .object []), ("B", .object [])])]

/-- Of four types at three depths there are left two constants, null and an intersection. -/
theorem nested_cache_normal :
    ∃ ty, ((fresh (Registry.register {} "Root" nestedSchema).crawl "mark").loadAll ["Root"]).get?
        "Root" = some ty ∧
      ty.isUnion = true ∧ ty.children.map Ty.isIntersection = [false, false, false, true] ∧
      ty.Everywhere Ty.IsNormal := by
  have computed : (((fresh (Registry.register {} "Root" nestedSchema).crawl "mark").loadAll
      ["Root"]).get? "Root").map (fun ty => (ty.isUnion, ty.children.map Ty.isIntersection)) =
      some (true, [false, false, false, true]) := by decide +kernel
  obtain ⟨ty, hg, seen⟩ := Option.map_eq_some_iff.mp computed
  obtain ⟨union, members⟩ := Prod.mk.inj seen
  exact ⟨ty, hg, union, members, cache_normal _ _ _ hg⟩

end Session

end SchemaDoc
