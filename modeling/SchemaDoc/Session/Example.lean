import SchemaDoc.Session.Load
import SchemaDoc.Json.Printer

/-!
# Example configurations

An *example* of a type is the value that a user would most likely write: the default
if there is one, else the constant, else a neutral value of the right kind.  The
example of an object has a member for every property, with the default that the
object gives it before its own.  A selection leaves properties out by their scope,
and those whose names begin with a dollar sign are always left out.
-/

namespace SchemaDoc

/-- Which settings an example has. -/
inductive Selection where
  | all
  /-- Settings of a user. -/
  | user
  /-- Settings of a project. -/
  | project
deriving DecidableEq, Repr

/-- Whether a selection has a property of a type. -/
def Selection.admits (selection : Selection) (ty : Ty) : Bool :=
  match selection with
  | .all => true
  | .user => ty.annotations.scope.user
  | .project => ty.annotations.scope.project

/-- Whether the name of a property begins with a dollar sign. -/
def isInternal (name : String) : Bool := name.toList.head? = some '$'

/-- The value of a type without default and without constant. -/
def Shape.neutral {α : Type} : Shape α → Json
  | .leaf .boolean => .bool false
  | .leaf .integer => .ofNat 0
  | .leaf .number => .number (.double (Binary64.zero false))
  | .leaf .string => .string ""
  | .array .. => .array []
  | .tuple .. => .array []
  | _ => .null

namespace Session

mutual

/-- The example of a type at a place that may have a default of its own.  How a
reference is followed is a parameter. -/
def exampleWith (follow : String → Option Json → Json) (selection : Selection)
    (given : Option Json) : Ty → Json
  | ⟨notes, _, .object members _⟩ =>
    .object (exampleMembers follow selection ((given.or notes.default).bind Json.asObject?) members)
  | ⟨notes, _, .reference target⟩ => follow target (given.or notes.default)
  | ⟨notes, const, shape⟩ => ((given.or notes.default).or const).getD shape.neutral
termination_by structural ty => ty

/-- The examples of some members, given what the object gives them. -/
def exampleMembers (follow : String → Option Json → Json) (selection : Selection)
    (defaults : Option (Table String Json)) : List (String × Ty) → List (String × Json)
  | [] => []
  | (name, ty) :: rest =>
    let others := exampleMembers follow selection defaults rest
    if isInternal name || !selection.admits ty then others
    else
      (name, exampleWith follow selection (defaults.bind fun table => table.get? name) ty) :: others
termination_by structural members => members

end

/-- The example of the target of a reference.  A target inside itself has no example
but its default, so there are at most as many targets inside each other as there are
compiled types. -/
def followExample (session : Session) (selection : Selection) :
    Nat → List String → String → Option Json → Json
  | 0, _, _, given => given.getD .null
  | room + 1, expanding, target, given =>
    if expanding.contains target then given.getD .null
    else
      match session.get? target with
      | none => given.getD .null
      | some ty =>
        exampleWith (followExample session selection room (target :: expanding)) selection given ty

/-- The example of a type. -/
def exampleOf (session : Session) (ty : Ty) (selection : Selection) : Json :=
  exampleWith (followExample session selection session.cache.length []) selection none ty

/-! ## Tests -/

section Tests

/-- The text of the example of the sample. -/
def exampleText (selection : Selection) : Option String :=
  (sampleSession.get? "Root").map fun ty => (sampleSession.exampleOf ty selection).compact

example : exampleText .all
    = some "\x7b\"self\":\x7b\"self\":null,\"a\":\"\",\"b\":\"\"\x7d,\"a\":\"\",\"b\":\"\"\x7d" := by
  decide +kernel
example : exampleText .user = some "\x7b\x7d" := by decide +kernel

end Tests

end Session

end SchemaDoc
