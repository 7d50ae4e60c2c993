import SchemaDoc.Registry.Crawl
import SchemaDoc.Registry.Place
import SchemaDoc.Schema
import SchemaDoc.Ty.Normal

/-!
# Sessions

A *session* compiles the schemas of a registry to types and remembers what it has
compiled.  Types are kept under their names, and it counts how many references lead
to each.

A type may be *inlined*, that is written out in place of a reference, if at most one
reference leads to it and it was not met again while it was being compiled.
-/

namespace SchemaDoc

/-- The state of compiling the schemas of a registry. -/
structure Session where
  registry : Registry
  /-- The keyword that marks a setting of the user. -/
  keyword : String := "x-vscode-setting"
  /-- The names of the resources that are being compiled, innermost first. -/
  bases : List String := []
  /-- The types compiled so far. -/
  cache : Table String Ty := []
  /-- How many references lead to each name. -/
  uses : Table String Nat := []
  /-- The names of the types that are being compiled, innermost first. -/
  compiling : List String := []
  /-- The names that were met again while they were being compiled. -/
  recursive : List String := []

namespace Session

/-- The name against which references are joined. -/
def base (session : Session) : String := session.bases.headD ""

/-- The type of a name, if it is compiled. -/
def get? (session : Session) (id : String) : Option Ty := session.cache.get? id

/-- How many references lead to a name. -/
def useCount (session : Session) (id : String) : Nat := (session.uses.get? id).getD 0

/-- Whether the type of a name may be written out in place of a reference.  A type
without a name always may. -/
def canInline (session : Session) (id : String) : Bool :=
  id == "" ||
    (!session.recursive.contains id && (session.get? id).isSome && session.useCount id ≤ 1)

/-- The types compiled so far, in the order of their names. -/
def loaded (session : Session) : List (String × Ty) :=
  session.cache.mergeSort fun a b => a.1 ≤ b.1

/-! ## Changes -/

/-- A session with one more reference to a name. -/
def countUse (session : Session) (id : String) : Session :=
  { session with uses := session.uses.put id (session.useCount id + 1) }

/-- A session that counts the references to a name. -/
def beginCount (session : Session) (id : String) : Session :=
  { session with uses := session.uses.put id (session.useCount id) }

/-- A session in which a name was met while it was being compiled. -/
def markRecursive (session : Session) (id : String) : Session :=
  { session with
    recursive := if id ∈ session.recursive then session.recursive else id :: session.recursive }

/-- A session that compiles a name inside a resource. -/
def enter (session : Session) (id resource : String) : Session :=
  { session with bases := resource :: session.bases, compiling := id :: session.compiling }

/-- A session that is done with compiling a name. -/
def leave (session : Session) (id : String) : Session :=
  { session with bases := session.bases.tail, compiling := session.compiling.erase id }

/-- A session with a type under its name. -/
def keep (session : Session) (id : String) (ty : Ty) : Session :=
  { session with cache := session.cache.put id ty }

theorem useCount_countUse (session : Session) (id name : String) :
    (session.countUse id).useCount name =
      session.useCount name + if id = name then 1 else 0 := by
  rw [useCount, countUse, Table.get?_put]
  split
  · rename_i h
    rw [h]
    rfl
  · rfl

/-- Beginning to count changes no count. -/
@[simp] theorem useCount_beginCount (session : Session) (id name : String) :
    (session.beginCount id).useCount name = session.useCount name := by
  rw [useCount, beginCount, Table.get?_put]
  split
  · rename_i h
    rw [h]
    rfl
  · rfl

end Session

/-- A computation that may fail and leaves a session behind either way. -/
abbrev Loading := ExceptT LoadError (StateM Session)

namespace Loading

variable {α β : Type}

/-- A sequence goes on from the session that its first part leaves, unless that fails. -/
theorem bind_run (action : Loading α) (next : α → Loading β) (session : Session) :
    (action >>= next) session =
      match action session with
      | (.ok a, after) => next a after
      | (.error error, after) => (.error error, after) := by
  rcases h : action session with ⟨_ | a, after⟩
  · simp only [bind, ExceptT.bind, ExceptT.mk, StateT.bind, h]
    rfl
  · simp only [bind, ExceptT.bind, ExceptT.mk, StateT.bind, h]
    rfl

theorem get_run (session : Session) : (get : Loading Session) session = (.ok session, session) :=
  rfl

theorem modify_run (change : Session → Session) (session : Session) :
    (modify change : Loading Unit) session = (.ok (), change session) := rfl

/-- A result that needs no session leaves it as it is. -/
theorem liftM_run (result : Except LoadError α) (session : Session) :
    (liftM result : Loading α) session = (result, session) := by
  cases result <;> rfl

end Loading

end SchemaDoc
