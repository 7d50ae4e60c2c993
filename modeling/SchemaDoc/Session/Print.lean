import SchemaDoc.Session.Load
import SchemaDoc.Ty.Printer

/-!
# Signatures in a session

Within a session a reference is written as the signature of its target if the target
may be inlined, and as the name of the target otherwise.  A target is never written
out inside itself.
-/

namespace SchemaDoc.Session

/-- A reference inside the signatures of some targets.  Each target that is written
out is a compiled type and another one than those around it, so there are at most as
many as there are compiled types. -/
def showReference (session : Session) : Nat → List String → String → Bool → String
  | 0, _, target, _ => target
  | room + 1, expanding, target, parens =>
    match session.get? target with
    | none => target
    | some ty =>
      if !session.canInline target || expanding.contains target then target
      else ty.printWith (showReference session room (target :: expanding)) parens

/-- The signature of a type. -/
def print (session : Session) (ty : Ty) (parens : Bool) : String :=
  ty.printWith (showReference session session.cache.length []) parens

/-! ## Tests -/

example : sampleSession.print (.ofShape (.array false (.reference "Root"))) false = "Root[]" := by
  decide +kernel
example : print { registry := {} } (.reference "Nowhere#x") false = "Nowhere#x" := by decide +kernel
example : (sampleSession.get? "Root").map (sampleSession.print · false)
    = some "\x7b\"self\": Root, \"a\": Root#/$defs/T, \"b\": Root#/$defs/T\x7d" := by decide +kernel

end SchemaDoc.Session
