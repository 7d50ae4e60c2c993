import SchemaDoc.Proofs.Session.Descent

/-!
# A selection of settings prunes an example

The example of some settings is the example of all settings without members of objects,
`Session.prunes_exampleOf`.

What that says place by place is told by `Session.Prunes`, which goes along both examples at once.
At each place they have the same type, the same targets around it and the same default that is
given there, whatever was left out before.  So both follow a reference or both stop at it, and only
objects differ: a member goes if the selection does not admit its property, and what stays is in the
order that it was in.
-/

namespace SchemaDoc.Session

mutual

/-- The second value is what a selection leaves of the first at a place of an example: inside some
targets, with the default that is given there, for some type. -/
inductive Prunes (session : Session) (selection : Selection) :
    List String → Option Json → Ty → Json → Json → Prop where
  /-- An object has the members that are left. -/
  | object {expanding : List String} {given : Option Json} {ty : Ty}
      {full kept : List (String × Json)} :
      ty.isObject = true →
      PrunesMembers session selection expanding ((given.or ty.default?).bind Json.asObject?)
        ty.properties full kept →
      Prunes session selection expanding given ty (.object full) (.object kept)
  /-- Both examples follow a reference. -/
  | follow {expanding : List String} {given : Option Json} {ty found : Ty} {target : String}
      {full kept : Json} :
      ty.target? = some target → session.Unfolds expanding target found →
      Prunes session selection (target :: expanding) (given.or ty.default?) found full kept →
      Prunes session selection expanding given ty full kept
  /-- Both examples stop at a reference. -/
  | stop {expanding : List String} {given : Option Json} {ty : Ty} {target : String}
      {value : Json} :
      ty.target? = some target → session.Stops expanding target →
      value = (given.or ty.default?).getD .null →
      Prunes session selection expanding given ty value value
  /-- No other value differs. -/
  | plain {expanding : List String} {given : Option Json} {ty : Ty} {value : Json} :
      ty.isObject = false → ty.target? = none → Prunes session selection expanding given ty value value

/-- The second members are what a selection leaves of the first, for some properties of an object
that gives them defaults. -/
inductive PrunesMembers (session : Session) (selection : Selection) :
    List String → Option (Table String Json) → List (String × Ty) →
      List (String × Json) → List (String × Json) → Prop where
  | nil {expanding : List String} {defaults : Option (Table String Json)} :
      PrunesMembers session selection expanding defaults [] [] []
  /-- No example has a property whose name begins with a dollar sign. -/
  | hidden {expanding : List String} {defaults : Option (Table String Json)} {name : String}
      {ty : Ty} {rest : List (String × Ty)} {full kept : List (String × Json)} :
      isInternal name = true →
      PrunesMembers session selection expanding defaults rest full kept →
      PrunesMembers session selection expanding defaults ((name, ty) :: rest) full kept
  /-- A member goes with all that is in it. -/
  | drop {expanding : List String} {defaults : Option (Table String Json)} {name : String}
      {ty : Ty} {value : Json} {rest : List (String × Ty)} {full kept : List (String × Json)} :
      isInternal name = false → selection.admits ty = false →
      PrunesMembers session selection expanding defaults rest full kept →
      PrunesMembers session selection expanding defaults ((name, ty) :: rest)
        ((name, value) :: full) kept
  /-- A member stays with what is left in it. -/
  | keep {expanding : List String} {defaults : Option (Table String Json)} {name : String}
      {ty : Ty} {value part : Json} {rest : List (String × Ty)} {full kept : List (String × Json)} :
      isInternal name = false → selection.admits ty = true →
      Prunes session selection expanding (defaults.bind fun table => table.get? name) ty value part →
      PrunesMembers session selection expanding defaults rest full kept →
      PrunesMembers session selection expanding defaults ((name, ty) :: rest)
        ((name, value) :: full) ((name, part) :: kept)

end

variable {session : Session} {selection : Selection} {expanding : List String}

/-- The members of an example are pruned if what is in them is. -/
theorem prunesMembers_exampleMembers {all some : String → Option Json → Json}
    (defaults : Option (Table String Json)) (members : List (String × Ty))
    (h : ∀ entry ∈ members, ∀ given, session.Prunes selection expanding given entry.2
      (exampleWith all .all given entry.2) (exampleWith some selection given entry.2)) :
    session.PrunesMembers selection expanding defaults members
      (exampleMembers all .all defaults members)
      (exampleMembers some selection defaults members) := by
  induction members with
  | nil => exact .nil
  | cons entry rest ih =>
    obtain ⟨name, ty⟩ := entry
    obtain ⟨first, others⟩ := List.forall_mem_cons.mp h
    replace ih := ih others
    rw [exampleMembers, exampleMembers]
    cases internal : isInternal name with
    | true => exact .hidden internal ih
    | false =>
      cases admitted : selection.admits ty with
      | false => exact .drop internal admitted ih
      | true => exact .keep internal admitted (first _) ih

/-- At every place, a selection leaves of the example of all settings that of its settings. -/
theorem prunes_exampleInside (session : Session) (selection : Selection)
    (expanding : List String) (ty : Ty) :
    ∀ given, session.Prunes selection expanding given ty
      (session.exampleInside .all expanding given ty)
      (session.exampleInside selection expanding given ty) := by
  induction expanding, ty using session.descend with
  | step expanding ty properties targets =>
    intro given
    cases object : ty.isObject with
    | true =>
      rw [exampleInside_of_isObject object, exampleInside_of_isObject object]
      exact .object object (prunesMembers_exampleMembers _ _ properties)
    | false =>
      cases ht : ty.target? with
      | none =>
        rw [exampleInside_of_plain object ht, exampleInside_of_plain object ht]
        exact .plain object ht
      | some target =>
        obtain ⟨found, unfolds⟩ | stops := session.unfolds_or_stops expanding target
        · rw [exampleInside_of_unfolds ht unfolds, exampleInside_of_unfolds ht unfolds]
          exact .follow ht unfolds (targets target found ht unfolds _)
        · rw [exampleInside_of_stops ht stops, exampleInside_of_stops ht stops]
          exact .stop ht stops rfl

/-- The example of some settings is that of all settings with members of objects left out: those
of the properties that the selection does not admit, with all that is in them.  What stays is in the
order that it was in, every other value is the same, and the same references are followed. -/
theorem prunes_exampleOf (session : Session) (ty : Ty) (selection : Selection) :
    session.Prunes selection [] none ty (session.exampleOf ty .all)
      (session.exampleOf ty selection) := by
  rw [exampleOf_eq, exampleOf_eq]
  exact session.prunes_exampleInside selection [] ty none

end SchemaDoc.Session
