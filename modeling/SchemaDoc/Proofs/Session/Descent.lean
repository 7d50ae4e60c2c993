import SchemaDoc.Proofs.Session.Expansions
import SchemaDoc.Proofs.Ty.Scopes

/-!
# The way of an example through its references

The example of a type goes through the properties of objects and follows references, and all that
it keeps on its way are the targets around the type that it is at.  `Session.exampleInside` is the
example inside some targets.  There is always room for what it follows, so it can be told without
room: a reference is followed if its target is in the cache and is none of those around it,
`Session.Unfolds`, and the example stops at any other, `Session.Stops`.

What an example comes to on its way is proved by `Session.descend`.  In it a type is behind its
properties and behind the target that it follows.
-/

namespace SchemaDoc

/-- Whether a type is an object. -/
def Ty.isObject (ty : Ty) : Bool :=
  match ty.shape with
  | .object .. => true
  | _ => false

namespace Session

/-! ## References that are followed -/

/-- A reference is followed if its target is in the cache and is none of those around it. -/
structure Unfolds (session : Session) (expanding : List String) (target : String) (found : Ty) :
    Prop where
  cached : session.get? target = some found
  new : target ∉ expanding

/-- An example stops at a reference that it does not follow. -/
def Stops (session : Session) (expanding : List String) (target : String) : Prop :=
  session.get? target = none ∨ target ∈ expanding

variable {session : Session} {selection : Selection} {expanding : List String} {target : String}
variable {found ty : Ty} {given : Option Json}

theorem Unfolds.unmet_lt (h : session.Unfolds expanding target found) :
    session.unmet (target :: expanding) < session.unmet expanding :=
  unmet_cons_lt (by simp [h.cached]) h.new

theorem unfolds_or_stops (session : Session) (expanding : List String) (target : String) :
    (∃ found, session.Unfolds expanding target found) ∨ session.Stops expanding target := by
  cases hg : session.get? target with
  | none => exact .inr (.inl hg)
  | some found =>
    by_cases met : target ∈ expanding
    · exact .inr (.inr met)
    · exact .inl ⟨found, hg, met⟩

/-! ## Room for what is followed -/

/-- Room for the names that were not met is all the room there is use for. -/
theorem followExample_room {room : Nat} (h : session.unmet expanding ≤ room) :
    session.followExample selection room expanding =
      session.followExample selection (session.unmet expanding) expanding := by
  rw [followExample_eq, followExample_eq, (session.expansion_followStep selection).iterate_room h]

/-- The example of a type inside some targets, at a place that may have a default of its own. -/
def exampleInside (session : Session) (selection : Selection) (expanding : List String)
    (given : Option Json) (ty : Ty) : Json :=
  exampleWith (session.followExample selection (session.unmet expanding) expanding) selection given
    ty

theorem exampleOf_eq (session : Session) (ty : Ty) (selection : Selection) :
    session.exampleOf ty selection = session.exampleInside selection [] none ty := by
  rw [exampleOf, exampleInside, followExample_room (session.unmet_le [])]

/-! ## What the example of a type is -/

theorem exampleInside_of_isObject (h : ty.isObject = true) :
    session.exampleInside selection expanding given ty =
      .object (exampleMembers (session.followExample selection (session.unmet expanding) expanding)
        selection ((given.or ty.default?).bind Json.asObject?) ty.properties) := by
  obtain ⟨notes, const, shape⟩ := ty
  cases shape with
  | object members rest => rfl
  | _ => cases h

theorem exampleInside_of_target? (h : ty.target? = some target) :
    session.exampleInside selection expanding given ty =
      session.followExample selection (session.unmet expanding) expanding target
        (given.or ty.default?) := by
  obtain ⟨notes, const, rfl⟩ := Ty.exists_of_target? h
  rfl

/-- A reference that is followed has the example of its target. -/
theorem exampleInside_of_unfolds (ht : ty.target? = some target)
    (h : session.Unfolds expanding target found) :
    session.exampleInside selection expanding given ty =
      session.exampleInside selection (target :: expanding) (given.or ty.default?) found := by
  have less := h.unmet_lt
  obtain ⟨room, hr⟩ : ∃ room, session.unmet expanding = room + 1 :=
    ⟨session.unmet expanding - 1, by omega⟩
  rw [exampleInside_of_target? ht, hr, followExample, if_neg (by simpa using h.new), h.cached,
    exampleInside, followExample_room (by omega)]

/-- Where an example stops there is a default, or null. -/
theorem exampleInside_of_stops (ht : ty.target? = some target)
    (h : session.Stops expanding target) :
    session.exampleInside selection expanding given ty = (given.or ty.default?).getD .null := by
  rw [exampleInside_of_target? ht]
  cases session.unmet expanding with
  | zero => rfl
  | succ room =>
    rw [followExample]
    split
    · rfl
    · rename_i new
      rw [h.resolve_right (by simpa using new)]

/-- Any other type has its default for an example, its constant or a neutral value. -/
theorem exampleInside_of_plain (object : ty.isObject = false) (reference : ty.target? = none) :
    session.exampleInside selection expanding given ty =
      ((given.or ty.default?).or ty.const).getD ty.shape.neutral := by
  obtain ⟨notes, const, shape⟩ := ty
  cases shape with
  | object members rest => cases object
  | reference target => cases reference
  | _ => rfl

/-! ## Induction along the way -/

/-- What holds of a type if it holds of its properties and of the target that it follows holds of
every type.  The targets get fewer, and inside a target the types get smaller. -/
theorem descend (session : Session) {motive : List String → Ty → Prop}
    (step : ∀ expanding ty, (∀ entry ∈ ty.properties, motive expanding entry.2) →
      (∀ target found, ty.target? = some target → session.Unfolds expanding target found →
        motive (target :: expanding) found) → motive expanding ty) (expanding : List String)
    (ty : Ty) : motive expanding ty := by
  induction hu : session.unmet expanding using Nat.strongRecOn generalizing expanding ty with
  | ind left inside =>
    subst hu
    -- Properties leave the targets around as they are, so inside these the induction is on the type.
    induction ty using Ty.induct with
    | step ty ih =>
      refine step expanding ty (fun entry he => ih _ (Ty.mem_children.mpr (.inl ⟨entry, he, rfl⟩)))
        fun target found _ h => inside _ h.unmet_lt _ found rfl

end Session

end SchemaDoc
