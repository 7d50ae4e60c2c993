/-!
# Blocks of documentation

A documentation is a list of *blocks*: titles of sections, texts, and entries with
blocks of their own.  An *entry* documents a setting, a type or one value of an
enumeration.

Written out in order, blocks are a list of *events*, in which every entry that is
entered is left again.  A page is made of events.
-/

namespace SchemaDoc

/-- What an entry documents. -/
inductive EntryKind where
  /-- A setting or a type. -/
  | setting
  /-- One value of an enumeration. -/
  | value
deriving DecidableEq, Repr

/-- The head of an entry. -/
structure Entry where
  kind : EntryKind
  /-- The type whose member it is, where the entry stands outside the entry of that
  type. -/
  owner : Option String := none
  name : String
  /-- The text of the type, if the entry shows it. -/
  signature : Option String := none
  /-- The text of the default, if the entry shows it. -/
  default : Option String := none
  required : Bool := false
  deprecated : Bool := false
deriving DecidableEq, Repr

/-- The text of the head of an entry. -/
def Entry.display (entry : Entry) : String :=
  let part (mark : String) : Option String → String
    | some text => mark ++ text
    | none => ""
  (match entry.owner with
    | some owner => owner ++ "."
    | none => "") ++
    entry.name ++ part ": " entry.signature ++ part " = " entry.default

/-- A place in the documentation of a type: the members that lead to it, with dots
between them. -/
structure Address where
  root : String
  path : String
deriving DecidableEq, Repr

/-- A place one member below a path. -/
def Address.join (path name : String) : String := if path = "" then name else path ++ "." ++ name

/-- A part of a documentation. -/
inductive Block where
  /-- The title of a section. -/
  | title (text : String)
  /-- A text about the entry around it or about the page. -/
  | text (text : String)
  /-- An entry at an address about a type with a name, which may be empty. -/
  | entry (address : Address) (id : String) (entry : Entry) (inner : List Block)
deriving Repr

/-- A step in writing a documentation. -/
inductive Event where
  | title (text : String)
  | text (text : String)
  | enter (entry : Entry)
  | leave
deriving DecidableEq, Repr

namespace Block

mutual

/-- The events of a block. -/
def events : Block → List Event
  | .title heading => [.title heading]
  | .text body => [.text body]
  | .entry _ _ head inner => .enter head :: (eventsOfAll inner ++ [.leave])
termination_by structural block => block

/-- The events of some blocks. -/
def eventsOfAll : List Block → List Event
  | [] => []
  | block :: rest => block.events ++ eventsOfAll rest
termination_by structural blocks => blocks

end

mutual

/-- The names of the types that a block has entries for. -/
def ids : Block → List String
  | .title _ => []
  | .text _ => []
  | .entry _ id _ inner => id :: idsOfAll inner
termination_by structural block => block

/-- The names of the types that some blocks have entries for. -/
def idsOfAll : List Block → List String
  | [] => []
  | block :: rest => block.ids ++ idsOfAll rest
termination_by structural blocks => blocks

end

theorem eventsOfAll_append (left right : List Block) :
    eventsOfAll (left ++ right) = eventsOfAll left ++ eventsOfAll right := by
  induction left with
  | nil => rfl
  | cons block rest ih => simp [eventsOfAll, ih]

theorem idsOfAll_append (left right : List Block) :
    idsOfAll (left ++ right) = idsOfAll left ++ idsOfAll right := by
  induction left with
  | nil => rfl
  | cons block rest ih => simp [idsOfAll, ih]

end Block

/-! ## Tests -/

example : Entry.display
    { kind := .setting, owner := some "R", name := "a", signature := some "string",
      default := some "1" } = "R.a: string = 1" := by decide +kernel
example : ({ kind := .value, name := "\"x\"" } : Entry).display = "\"x\"" := by decide

end SchemaDoc
