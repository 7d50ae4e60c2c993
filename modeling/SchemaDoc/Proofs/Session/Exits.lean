import SchemaDoc.Proofs.Session.Steps

/-!
# Every way out of a load

A name may be loaded while others are being compiled, and loading it may succeed or fail at any
depth.  Either way the session comes back as it was: it compiles the same names inside the same
resources, and nothing it has kept, counted or marked is lost, `Session.load_restores`.  What it
keeps of a load that fails does not include the name that was to be loaded.
-/

namespace SchemaDoc

/-- A name whose load fails is not in the cache. -/
theorem Loads.get?_of_error {session after : Session} {uri : String} {error : LoadError}
    {place : Place} (h : Loads session uri (.error error) after)
    (hp : session.registry.placeOf session.base uri = .ok place) : after.get? place.id = none := by
  cases h with
  | lost hp' =>
    rw [hp] at hp'
    cases hp'
  | missing hp' new _ _ =>
    rw [hp] at hp'
    cases hp'
    exact new
  | @failed _ inner _ _ _ _ hp' new _ _ follows =>
    rw [hp] at hp'
    cases hp'
    change inner.get? place.id = none
    exact Session.get?_of_visit follows.extends new

namespace Session

/-- Whatever a session is doing and whether a name loads or not, afterwards it compiles the same
names inside the same resources, each type in the cache is still there and the same, no count
has become less and no mark is gone.  If the name does not load, it is not in the cache. -/
theorem load_restores (session : Session) (uri : String) :
    (session.load uri).2.bases = session.bases ∧
      (session.load uri).2.compiling = session.compiling ∧
      (∀ id ty, session.get? id = some ty → (session.load uri).2.get? id = some ty) ∧
      (∀ id, session.useCount id ≤ (session.load uri).2.useCount id) ∧
      session.recursive ⊆ (session.load uri).2.recursive ∧
      ∀ place error, session.registry.placeOf session.base uri = .ok place →
        (session.load uri).1 = .error error → (session.load uri).2.get? place.id = none := by
  have run := loads_load session uri
  have same := run.extends
  refine ⟨same.bases, same.compiling, fun _ _ hg => same.get? hg, same.uses, same.recursive, ?_⟩
  intro place error hp failed
  rw [failed] at run
  exact run.get?_of_error hp

/-- Definitions of which one refers back to the document, and another to that one and then into
an embedded resource, where no pointer leads. -/
def haltingSchema : Json :=
  .object [("$defs", .object [
    ("A", .object [("type", .string "array"), ("items", .object [("$ref", .string "#")])]),
    ("B", .object [("$id", .string "b"), ("x", .object [])]),
    ("C", .object [("anyOf", .array [
      .object [("$ref", .string "#/$defs/A")], .object [("$ref", .string "#/$defs/B/x")]])])])]

/-- A session that is compiling such a document. -/
def haltingSession : Session := (ofDocument haltingSchema).enter "Root" "Root"

/-- The second definition fails to load there, after the first was kept and the document was
marked. -/
theorem halting_load_restores :
    (haltingSession.load "#/$defs/C").1.isOk = false ∧
      (haltingSession.load "#/$defs/C").2.cache.keys = ["Root#/$defs/A"] ∧
      (haltingSession.load "#/$defs/C").2.recursive = ["Root"] ∧
      (haltingSession.load "#/$defs/C").2.bases = ["Root"] ∧
      (haltingSession.load "#/$defs/C").2.compiling = ["Root"] ∧
      (haltingSession.load "#/$defs/C").2.get? "Root#/$defs/C" = none := by
  obtain ⟨bases, compiling, -, -, -, absent⟩ := load_restores haltingSession "#/$defs/C"
  have fails : (haltingSession.load "#/$defs/C").1.isOk = false := by decide +kernel
  refine ⟨fails, by decide +kernel, by decide +kernel, bases, compiling, ?_⟩
  cases hr : (haltingSession.load "#/$defs/C").1 with
  | error error => exact absent ⟨⟨haltingSchema, none⟩, "Root", "/$defs/C"⟩ error (by rfl) hr
  | ok ty =>
    rw [hr] at fails
    cases fails

end Session

end SchemaDoc
