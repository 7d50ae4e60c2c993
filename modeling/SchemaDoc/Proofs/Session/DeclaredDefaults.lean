import SchemaDoc.Proofs.Json.Equality
import SchemaDoc.Proofs.Session.Descent
import SchemaDoc.Proofs.Session.Selections

/-!
# Declared defaults in an example

A default is in effect at a position of an example: what the object around it gives it, else its
own, else, at a reference that is followed, that of the target, `Session.InEffect`.  A value respects
a default that is no object if it is that default.  It respects an object if it has all its members,
but for those whose names begin with a dollar sign, and respects each of them, `Json.Respects`.

The example of an object is made of its properties before its default is looked at.  So it cannot be
a default that is no object, and it has no place for a member that is no property.  A default suits
an example if no object on the way has such a default or such a member, `Session.Suits`.  All other
types keep their default as it is, and so does a reference where the example stops.  So a default is
respected if and only if it suits, which is `Session.respects_default_iff`.
-/

namespace SchemaDoc

/-! ## Respecting a default -/

/-- A value respects a default. -/
inductive Json.Respects : Json → Json → Prop where
  /-- A default that is no object stays as it is. -/
  | same {value default : Json} : default.asObject? = none → value = default → Respects value default
  /-- What is a member of the default is there and respects it. -/
  | object {value default : Json} :
      default.asObject?.isSome → value.asObject?.isSome →
      (∀ name member, isInternal name = false → default.get? name = some member →
        (value.get? name).isSome) →
      (∀ name member held, isInternal name = false → default.get? name = some member →
        value.get? name = some held → Respects held member) →
      Respects value default

theorem Json.mem_parts_of_get? {value member : Json} {name : String}
    (h : value.get? name = some member) : member ∈ value.parts := by
  cases value with
  | object members => exact List.mem_map.mpr ⟨_, Table.mem_of_get? h, rfl⟩
  | _ => cases h

theorem Json.at?_append (value : Json) (path more : List String) :
    value.at? (path ++ more) = (value.at? path).bind fun inner => inner.at? more := by
  induction path generalizing value with
  | nil => rfl
  | cons name path ih =>
    rw [List.cons_append, at?, at?, Option.bind_assoc]
    exact congrArg _ (funext fun member => ih member)

/-- Every value respects itself. -/
theorem Json.Respects.refl (value : Json) : value.Respects value := by
  induction value using Json.induct with
  | step value ih =>
    cases ho : value.asObject? with
    | none => exact .same ho rfl
    | some members =>
      have object : value.asObject?.isSome := by rw [ho]; rfl
      refine .object object object (fun _ _ _ hm => by rw [hm]; rfl) ?_
      intro name member held _ hm hh
      cases hm.symm.trans hh
      exact ih member (mem_parts_of_get? hm)

namespace Session

variable {session : Session} {root ty found child : Ty} {expanding path : List String}
variable {given : Option Json} {default : Json} {name target : String}

/-! ## Positions of an example -/

/-- At a path of names the example of a type is at some type, inside some targets, with a default
that the object around it gives it. -/
inductive Position (session : Session) (root : Ty) :
    List String → List String → Option Json → Ty → Prop where
  | root : Position session root [] [] none root
  /-- A property has what the default in effect gives it. -/
  | property {path expanding : List String} {given : Option Json} {ty child : Ty} {name : String} :
      Position session root path expanding given ty →
      isInternal name = false → Table.get? ty.properties name = some child →
      Position session root (path ++ [name]) expanding
        ((given.or ty.default?).bind fun default => default.get? name) child
  /-- The target of a reference stands in its place. -/
  | follow {path expanding : List String} {given : Option Json} {ty found : Ty} {target : String} :
      Position session root path expanding given ty →
      ty.target? = some target → session.Unfolds expanding target found →
      Position session root path (target :: expanding) (given.or ty.default?) found

/-- The default in effect at a position: what is given there, else the own default of the type, else
that of the target that the example follows.  Where it stops at a reference, no target counts. -/
inductive InEffect (session : Session) : List String → Option Json → Ty → Json → Prop where
  | own {expanding : List String} {given : Option Json} {ty : Ty} {default : Json} :
      given.or ty.default? = some default → InEffect session expanding given ty default
  | target {expanding : List String} {given : Option Json} {ty found : Ty} {target : String}
      {default : Json} :
      given.or ty.default? = none → ty.target? = some target →
      session.Unfolds expanding target found →
      InEffect session (target :: expanding) none found default →
      InEffect session expanding given ty default

/-- A default suits a type inside some targets: where it meets an object, on the way through
references and properties, it is an object too, and all its members are properties. -/
inductive Suits (session : Session) : List String → Ty → Json → Prop where
  | plain {expanding : List String} {ty : Ty} {default : Json} :
      ty.isObject = false → ty.target? = none → Suits session expanding ty default
  | stop {expanding : List String} {ty : Ty} {target : String} {default : Json} :
      ty.target? = some target → session.Stops expanding target →
      Suits session expanding ty default
  | follow {expanding : List String} {ty found : Ty} {target : String} {default : Json} :
      ty.target? = some target → session.Unfolds expanding target found →
      Suits session (target :: expanding) found default → Suits session expanding ty default
  | object {expanding : List String} {ty : Ty} {default : Json} :
      ty.isObject = true → default.asObject?.isSome →
      (∀ name member, isInternal name = false → default.get? name = some member →
        (Table.get? ty.properties name).isSome) →
      (∀ name member child, isInternal name = false → default.get? name = some member →
        Table.get? ty.properties name = some child → Suits session expanding child member) →
      Suits session expanding ty default

/-! ## Members of an example -/

theorem isObject_of_get? (h : Table.get? ty.properties name = some child) : ty.isObject = true := by
  obtain ⟨notes, const, shape⟩ := ty
  cases shape with
  | object members rest => rfl
  | _ => cases h

theorem isObject_eq_false_of_target? (h : ty.target? = some target) : ty.isObject = false := by
  obtain ⟨notes, const, rfl⟩ := Ty.exists_of_target? h
  rfl

/-- An object holds the example of each property. -/
theorem get?_exampleInside (shown : isInternal name = false)
    (hc : Table.get? ty.properties name = some child) :
    (session.exampleInside .all expanding given ty).get? name =
      some (session.exampleInside .all expanding
        ((given.or ty.default?).bind fun default => default.get? name) child) := by
  rw [exampleInside_of_isObject (isObject_of_get? hc), Json.get?,
    get?_exampleMembers _ _ _ shown hc rfl, exampleInside]
  congr 2
  rw [Option.bind_assoc]
  refine congrArg _ (funext fun default => ?_)
  cases default <;> rfl

/-- An object holds nothing but examples of properties. -/
theorem isSome_get?_properties (object : ty.isObject = true)
    (h : ((session.exampleInside .all expanding given ty).get? name).isSome) :
    (Table.get? ty.properties name).isSome := by
  rw [exampleInside_of_isObject object, Json.get?] at h
  obtain ⟨-, child, hc⟩ := exists_of_get?_exampleMembers _ _ _ h
  rw [hc]
  rfl

/-- The example of a type holds at a position the example of the type there. -/
theorem Position.at?_exampleOf (h : session.Position root path expanding given ty) :
    (session.exampleOf root .all).at? path =
      some (session.exampleInside .all expanding given ty) := by
  induction h with
  | root => rw [exampleOf_eq, Json.at?]
  | property position shown hc ih =>
    rw [Json.at?_append, ih, Option.bind_some, Json.at?, get?_exampleInside shown hc]
    rfl
  | follow position ht unfolds ih => rw [ih, exampleInside_of_unfolds ht unfolds]

/-! ## Which defaults are respected -/

theorem Unfolds.unique {other : Ty} (h : session.Unfolds expanding target found)
    (h' : session.Unfolds expanding target other) : found = other :=
  Option.some.inj (h.cached.symm.trans h'.cached)

theorem Unfolds.not_stops (h : session.Unfolds expanding target found) :
    ¬ session.Stops expanding target := by
  rintro (lost | met)
  · cases h.cached.symm.trans lost
  · exact h.new met

/-- What suits a reference that is followed suits its target. -/
theorem suits_iff_of_unfolds (ht : ty.target? = some target)
    (h : session.Unfolds expanding target found) :
    session.Suits expanding ty default ↔ session.Suits (target :: expanding) found default := by
  refine ⟨fun suits => ?_, .follow ht h⟩
  cases suits with
  | plain _ reference => cases ht.symm.trans reference
  | stop ht' stops =>
    cases ht.symm.trans ht'
    exact absurd stops h.not_stops
  | follow ht' h' suits =>
    cases ht.symm.trans ht'
    cases h.unique h'
    exact suits
  | object object _ _ _ => cases (isObject_eq_false_of_target? ht).symm.trans object

/-- What suits an object is an object of properties, and its members suit these. -/
theorem suits_iff_of_isObject (object : ty.isObject = true) :
    session.Suits expanding ty default ↔ default.asObject?.isSome ∧
      ∀ name member, isInternal name = false → default.get? name = some member →
        ∃ child, Table.get? ty.properties name = some child ∧
          session.Suits expanding child member := by
  constructor
  · rintro suits
    cases suits with
    | plain plain _ => cases object.symm.trans plain
    | stop ht _ => cases object.symm.trans (isObject_eq_false_of_target? ht)
    | follow ht _ _ => cases object.symm.trans (isObject_eq_false_of_target? ht)
    | object _ whole named suits =>
      refine ⟨whole, fun name member shown hm => ?_⟩
      obtain ⟨child, hc⟩ := Option.isSome_iff_exists.mp (named name member shown hm)
      exact ⟨child, hc, suits name member child shown hm hc⟩
  · rintro ⟨whole, named⟩
    refine .object object whole (fun name member shown hm => ?_)
      fun name member child shown hm hc => ?_
    · obtain ⟨child, hc, -⟩ := named name member shown hm
      rw [hc]
      rfl
    · obtain ⟨other, ho, suits⟩ := named name member shown hm
      cases hc.symm.trans ho
      exact suits

/-- The example of an object respects what is an object of properties, if their examples respect
its members. -/
theorem respects_iff_of_isObject (object : ty.isObject = true)
    (inEffect : given.or ty.default? = some default) :
    (session.exampleInside .all expanding given ty).Respects default ↔
      default.asObject?.isSome ∧
        ∀ name member, isInternal name = false → default.get? name = some member →
          ∃ child, Table.get? ty.properties name = some child ∧
            (session.exampleInside .all expanding (some member) child).Respects member := by
  have made : (session.exampleInside .all expanding given ty).asObject?.isSome := by
    rw [exampleInside_of_isObject object]
    rfl
  constructor
  · intro respects
    cases respects with
    | same plain same =>
      rw [same, plain] at made
      cases made
    | object whole _ present respects =>
      refine ⟨whole, fun name member shown hm => ?_⟩
      obtain ⟨child, hc⟩ := Option.isSome_iff_exists.mp
        (isSome_get?_properties object (present name member shown hm))
      have held : (session.exampleInside .all expanding given ty).get? name = _ :=
        get?_exampleInside shown hc
      rw [inEffect, Option.bind_some, hm] at held
      exact ⟨child, hc, respects name member _ shown hm held⟩
  · rintro ⟨whole, named⟩
    refine .object whole made (fun name member shown hm => ?_)
      fun name member held shown hm hh => ?_
    · obtain ⟨child, hc, -⟩ := named name member shown hm
      rw [get?_exampleInside shown hc]
      rfl
    · obtain ⟨child, hc, respects⟩ := named name member shown hm
      rw [get?_exampleInside shown hc, inEffect, Option.bind_some, hm] at hh
      cases hh
      exact respects

/-- Of a type that has a default, or is given one, the example respects it if and only if it
suits. -/
theorem respects_iff_suits (session : Session) (expanding : List String) (ty : Ty) :
    ∀ given default, given.or ty.default? = some default →
      ((session.exampleInside .all expanding given ty).Respects default ↔
        session.Suits expanding ty default) := by
  induction expanding, ty using session.descend with
  | step expanding ty properties targets =>
    intro given default inEffect
    cases object : ty.isObject with
    | true =>
      rw [respects_iff_of_isObject object inEffect, suits_iff_of_isObject object]
      -- Each member is given to the property of its name, where it is in effect.
      refine and_congr_right fun _ => forall₄_congr fun name member _ _ => exists_congr fun child =>
        and_congr_right fun hc => ?_
      exact properties _ (Table.mem_of_get? hc) (some member) member (Option.some_or ..)
    | false =>
      cases ht : ty.target? with
      | none =>
        rw [exampleInside_of_plain object ht, inEffect]
        exact iff_of_true (.refl default) (.plain object ht)
      | some target =>
        obtain ⟨found, unfolds⟩ | stops := session.unfolds_or_stops expanding target
        · rw [exampleInside_of_unfolds ht unfolds, suits_iff_of_unfolds ht unfolds, inEffect]
          exact targets target found ht unfolds (some default) default (Option.some_or ..)
        · rw [exampleInside_of_stops ht stops, inEffect]
          exact iff_of_true (.refl default) (.stop ht stops)

theorem InEffect.respects_iff_suits (h : session.InEffect expanding given ty default) :
    (session.exampleInside .all expanding given ty).Respects default ↔
      session.Suits expanding ty default := by
  induction h with
  | own inEffect => exact session.respects_iff_suits _ _ _ _ inEffect
  | target none ht unfolds _ ih =>
    rw [exampleInside_of_unfolds ht unfolds, none, suits_iff_of_unfolds ht unfolds, ih]

/-- At every position of the example of all settings, the example holds a value, and it respects
the default in effect there if and only if that suits the objects on the way. -/
theorem respects_default_iff (h : session.Position root path expanding given ty)
    (inEffect : session.InEffect expanding given ty default) :
    ∃ value, (session.exampleOf root .all).at? path = some value ∧
      (value.Respects default ↔ session.Suits expanding ty default) :=
  ⟨_, h.at?_exampleOf, inEffect.respects_iff_suits⟩

/-- An object that has null for a default. -/
def nullSchema : Json :=
  objectSchema [("a", .object [("type", .string "string")])] [("default", .null)]

/-- The example is an object, and the default is lost. -/
theorem null_respects_default_iff :
    ∃ root loaded, (fresh (Registry.register {} "Root" nullSchema).crawl "mark").load "Root" =
        (.ok root, loaded) ∧
      loaded.InEffect [] none root .null ∧
      ∃ value, (loaded.exampleOf root .all).at? [] = some value ∧ ¬ value.Respects .null := by
  have computed : passes ((fresh (Registry.register {} "Root" nullSchema).crawl "mark").load "Root")
      (fun root _ => root.isObject && root.default?.any fun default => default.same .null) =
      true := by decide +kernel
  obtain ⟨root, loaded, hl, computed⟩ := exists_of_passes computed
  simp only [Bool.and_eq_true, Option.any_eq_true] at computed
  obtain ⟨object, default, hd, null⟩ := computed
  obtain rfl : default = .null := by
    cases Json.same_iff.mp null
    rfl
  have inEffect : loaded.InEffect [] none root .null := .own hd
  obtain ⟨value, held, respects⟩ := respects_default_iff .root inEffect
  refine ⟨root, loaded, hl, inEffect, value, held, fun respected => ?_⟩
  cases ((suits_iff_of_isObject object).mp (respects.mp respected)).1

end Session

end SchemaDoc
