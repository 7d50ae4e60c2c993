import Mathlib.Logic.Function.Iterate
import SchemaDoc.Session.Example
import SchemaDoc.Session.Print

/-!
# Signatures and examples end

A signature writes out the targets of references, and an example follows them.  Both keep the
names of the targets around the one that they are at and stop where a name comes again, so each
target that is gone into leaves one name less, `Session.unmet_cons_lt`.

Going into targets is told here by one step that takes the next one, as for loading.  All that is
said about such a step is when it stops and that it asks nothing but what is inside a target,
`Session.Expansion`.  In whatever session, no more steps are taken than there are names in the
cache, and one: it does not matter what a step beyond those would answer, `Expansion.iterate_eq`.
-/

namespace SchemaDoc.Session

/-! ## Names that were not met -/

/-- How many of the names in the cache were not met. -/
def unmet (session : Session) (met : List String) : Nat :=
  (session.cache.keys.filter fun id => decide (id ∉ met)).length

variable {session : Session} {met : List String} {target : String}

theorem unmet_le (session : Session) (met : List String) :
    session.unmet met ≤ session.cache.length := by
  have all := List.length_filter_le (fun id => decide (id ∉ met)) session.cache.keys
  rwa [Table.keys, List.length_map] at all

theorem mem_keys_of_isSome (h : (session.get? target).isSome) : target ∈ session.cache.keys := by
  by_contra out
  rw [get?, Table.get?_eq_none_iff.mpr out] at h
  cases h

/-- Meeting a name leaves the others. -/
theorem unmet_cons_lt (h : (session.get? target).isSome) (new : target ∉ met) :
    session.unmet (target :: met) < session.unmet met := by
  have others : session.unmet (target :: met) = ((session.cache.keys.filter fun id =>
      decide (id ∉ met)).filter fun id => decide (id ≠ target)).length := by
    rw [unmet, List.filter_filter]
    exact congrArg List.length (List.filter_congr fun id _ => by simp [List.mem_cons])
  rw [others, unmet, List.length_filter_lt_length_iff_exists]
  exact ⟨target, List.mem_filter.mpr ⟨mem_keys_of_isSome h, by simpa using new⟩, by simp⟩

/-- If no name is left, a name in the cache was met. -/
theorem mem_of_unmet_eq_zero (h : session.unmet met = 0) (cached : (session.get? target).isSome) :
    target ∈ met := by
  by_contra new
  exact absurd (unmet_cons_lt cached new) (by omega)

/-! ## Steps into targets -/

section Expansion

variable {α β : Type} {last : String → α → β}
variable {step : (List String → String → α → β) → List String → String → α → β}

/-- A step into the targets of references, given the names of those around it: it stops at a name
that is not in the cache or that is among those around, and else goes on with it among them. -/
structure Expansion (session : Session) (last : String → α → β)
    (step : (List String → String → α → β) → List String → String → α → β) : Prop where
  stop : ∀ {next : List String → String → α → β} {expanding : List String} {target : String},
    session.get? target = none ∨ target ∈ expanding → step next expanding target = last target
  go : ∀ {next other : List String → String → α → β} {expanding : List String} {target : String},
    next (target :: expanding) = other (target :: expanding) →
      step next expanding target = step other expanding target

/-- As many steps as names are left decide what becomes of a target. -/
theorem Expansion.iterate_eq (e : session.Expansion last step)
    (beyond : List String → String → α → β) (room : Nat) :
    ∀ expanding steps, session.unmet expanding ≤ room → session.unmet expanding < steps →
      step^[steps] beyond expanding = step^[room] (fun _ => last) expanding := by
  induction room with
  | zero =>
    intro expanding steps room enough
    obtain ⟨steps, rfl⟩ := Nat.exists_eq_add_of_lt enough
    rw [Function.iterate_succ_apply']
    funext target
    refine e.stop ?_
    by_contra away
    simp only [not_or, ← ne_eq, Option.ne_none_iff_isSome] at away
    exact away.2 (mem_of_unmet_eq_zero (Nat.le_zero.mp room) away.1)
  | succ room ih =>
    intro expanding steps enough more
    obtain ⟨steps, rfl⟩ := Nat.exists_eq_add_of_lt more
    rw [Function.iterate_succ_apply', Function.iterate_succ_apply']
    funext target
    by_cases stops : session.get? target = none ∨ target ∈ expanding
    · rw [e.stop stops, e.stop stops]
    · simp only [not_or, ← ne_eq, Option.ne_none_iff_isSome] at stops
      have less := unmet_cons_lt stops.1 stops.2
      exact e.go (ih _ _ (by omega) (by omega))

/-- More room than there are names left is of no use. -/
theorem Expansion.iterate_room (e : session.Expansion last step) {room : Nat}
    {expanding : List String} (h : session.unmet expanding ≤ room) :
    step^[room] (fun _ => last) expanding =
      step^[session.unmet expanding] (fun _ => last) expanding := by
  have decided (enough : Nat) (h : session.unmet expanding ≤ enough) :=
    e.iterate_eq (fun _ => last) enough expanding (session.unmet expanding + 1) h
      (Nat.lt_succ_self _)
  rw [← decided _ h, ← decided _ (Nat.le_refl _)]

/-- One step more than there are names in the cache is enough. -/
theorem Expansion.ends (e : session.Expansion last step) (beyond : List String → String → α → β)
    (more : Nat) :
    step^[session.cache.length + 1 + more] beyond [] =
      step^[session.cache.length] (fun _ => last) [] := by
  have names := session.unmet_le []
  exact e.iterate_eq beyond _ _ _ names (by omega)

end Expansion

/-! ## Signatures -/

/-- One step of writing a reference. -/
def showStep (session : Session) (next : List String → String → Bool → String)
    (expanding : List String) (target : String) (parens : Bool) : String :=
  match session.get? target with
  | none => target
  | some ty =>
    if !session.canInline target || expanding.contains target then target
    else ty.printWith (next (target :: expanding)) parens

theorem showReference_eq (session : Session) (room : Nat) :
    session.showReference room = session.showStep^[room] fun _ target _ => target := by
  induction room with
  | zero => rfl
  | succ room ih =>
    rw [Function.iterate_succ_apply', ← ih]
    rfl

theorem expansion_showStep (session : Session) :
    session.Expansion (fun target _ => target) session.showStep where
  stop stops := by
    funext parens
    rw [showStep]
    split
    · rfl
    · rename_i ty hg
      have met := stops.resolve_left (by simp [hg])
      simp [met]
  go {next other expanding target} same := by
    funext parens
    rw [showStep, showStep, same]

/-- Writing a type ends, whatever a step beyond the limit would write. -/
theorem print_ends (session : Session) (beyond : List String → String → Bool → String)
    (more : Nat) (ty : Ty) (parens : Bool) :
    ty.printWith (session.showStep^[session.cache.length + 1 + more] beyond []) parens =
      session.print ty parens := by
  rw [session.expansion_showStep.ends, print, showReference_eq]

/-! ## Examples -/

/-- One step of following a reference. -/
def followStep (session : Session) (selection : Selection)
    (next : List String → String → Option Json → Json) (expanding : List String)
    (target : String) (given : Option Json) : Json :=
  if expanding.contains target then given.getD .null
  else
    match session.get? target with
    | none => given.getD .null
    | some ty => exampleWith (next (target :: expanding)) selection given ty

theorem followExample_eq (session : Session) (selection : Selection) (room : Nat) :
    session.followExample selection room =
      (session.followStep selection)^[room] fun _ _ given => given.getD .null := by
  induction room with
  | zero => rfl
  | succ room ih =>
    rw [Function.iterate_succ_apply', ← ih]
    rfl

theorem expansion_followStep (session : Session) (selection : Selection) :
    session.Expansion (fun _ given => given.getD .null) (session.followStep selection) where
  stop stops := by
    funext given
    rw [followStep]
    split
    · rfl
    · rename_i new
      rw [stops.resolve_right (by simpa using new)]
  go {next other expanding target} same := by
    funext given
    rw [followStep, followStep, same]

/-- Making an example ends, whatever a step beyond the limit would make. -/
theorem example_ends (session : Session) (selection : Selection)
    (beyond : List String → String → Option Json → Json) (more : Nat) (ty : Ty) :
    exampleWith ((session.followStep selection)^[session.cache.length + 1 + more] beyond [])
        selection none ty = session.exampleOf ty selection := by
  rw [(session.expansion_followStep selection).ends, exampleOf, followExample_eq]

end SchemaDoc.Session
