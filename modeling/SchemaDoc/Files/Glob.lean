import SchemaDoc.Files.System

/-!
# Patterns of paths

A pattern is a path some of whose names have wildcards: `?` for any character, `*`
for any characters, `[…]` for one of some characters and `[!…]` for any other.  The
name `**` stands for any number of names.  `Glob.paths` lists the paths that match,
in the order of their names, a directory before what is in it.  It fails with the path
of the first directory that is looked into and cannot be read.

A name without wildcards is looked up and not matched, so `.` and `..` are found
only where they are written, or by a pattern that begins with a dot.
-/

namespace SchemaDoc

/-- A part of a pattern for one name. -/
inductive Glob.Token where
  | char (char : Char)
  | anyChar
  | anySequence
  /-- A character within some ranges, or within none of them. -/
  | within (negated : Bool) (ranges : List (Char × Char))
deriving DecidableEq, Repr

/-- A part of a pattern between slashes. -/
inductive Glob.Component where
  /-- Any number of names. -/
  | recursive
  | name (tokens : List Glob.Token)
deriving DecidableEq, Repr

/-- A pattern. -/
structure Glob where
  isAbsolute : Bool
  components : List Glob.Component
  /-- Whether only directories match. -/
  onlyDirectories : Bool
deriving DecidableEq, Repr

namespace Glob

open Text (splitOn cut?)

/-! ## Reading a pattern -/

/-- Whether a text has a character that makes it a pattern. -/
def isPattern (text : String) : Bool :=
  text.toList.any fun c => c == '*' || c == '?' || c == '[' || c == '\x7b'

/-- The ranges that some characters write. -/
def ranges : List Char → List (Char × Char)
  | low :: '-' :: high :: rest => (low, high) :: ranges rest
  | c :: rest => (c, c) :: ranges rest
  | [] => []

/-- What stands between brackets after the first one: any character and then all up
to the other bracket. -/
def inBrackets? : List Char → Option (List Char)
  | [] => none
  | c :: rest => (cut? ']' rest).map fun (inner, _) => c :: inner

/-- The token of brackets after the first one, and how long they are. -/
def bracketToken? (rest : List Char) : Option (Token × Nat) :=
  match rest with
  | '!' :: more => (inBrackets? more).map fun inner => (.within true (ranges inner), inner.length + 2)
  | _ => (inBrackets? rest).map fun inner => (.within false (ranges inner), inner.length + 1)

/-- The tokens of a name after some characters that are taken already.  Two stars
may not stand beside each other. -/
def tokensAfter : Nat → List Char → Option (List Token)
  | _, [] => some []
  | taken + 1, _ :: rest => tokensAfter taken rest
  | 0, c :: rest =>
    match c with
    | '?' => (tokensAfter 0 rest).map fun tokens => .anyChar :: tokens
    | '*' =>
      if rest.head? = some '*' then none
      else (tokensAfter 0 rest).map fun tokens => .anySequence :: tokens
    | '[' => do
      let (token, length) ← bracketToken? rest
      let tokens ← tokensAfter length rest
      some (token :: tokens)
    | c => (tokensAfter 0 rest).map fun tokens => .char c :: tokens
termination_by structural _ text => text

/-- The component that a piece of a pattern is. -/
def component? (piece : List Char) : Option Component :=
  if piece = ['*', '*'] then some .recursive else (tokensAfter 0 piece).map .name

/-- The pattern that a text is, if it is well formed. -/
def parse? (text : String) : Option Glob := do
  let cs := text.toList
  let isAbsolute := Path.isAbsolute text
  let pieces := splitOn '/' (if isAbsolute then cs.drop 1 else cs)
  let pieces := if pieces.getLast? = some [] then pieces.dropLast else pieces
  let components ← pieces.mapM component?
  some { isAbsolute, components, onlyDirectories := cs.getLast? = some '/' }

/-! ## Matching a name -/

/-- Whether a token stands for a character. -/
def Token.admits (token : Token) (c : Char) : Bool :=
  match token with
  | .char d => c == d
  | .anyChar => true
  | .anySequence => true
  | .within negated ranges =>
    negated != ranges.any fun (low, high) => decide (low ≤ c) && decide (c ≤ high)

/-- Whether tokens stand for a text. -/
def matchesText : List Token → List Char → Bool
  | [], text => text.isEmpty
  | .anySequence :: rest, [] => matchesText rest []
  | .anySequence :: rest, c :: text =>
    matchesText rest (c :: text) || matchesText (.anySequence :: rest) text
  | token :: rest, c :: text => token.admits c && matchesText rest text
  | _ :: _, [] => false

/-- A text, the text without its first character, and so on to the empty text. -/
def ends : List Char → List (List Char)
  | [] => [[]]
  | c :: rest => (c :: rest) :: ends rest

/-- Whether there is a `true` at each place of a list or behind it. -/
def laterTrue (values : List Bool) : List Bool :=
  values.foldr (fun value later => (value || later.head?.getD false) :: later) []

/-- Whether tokens stand for each end of a text.  What the last tokens stand for is found
once for all ends, so that many stars take no longer than as many characters. -/
def matchesEnds (text : List Char) : List Token → List Bool
  | [] => (ends text).map List.isEmpty
  | .anySequence :: rest => laterTrue (matchesEnds text rest)
  | token :: rest =>
    List.zipWith (fun c later => token.admits c && later) text (matchesEnds text rest).tail ++
      [false]

theorem laterTrue_map_ends (rest : List Token) (text : List Char) :
    laterTrue ((ends text).map (matchesText rest)) =
      (ends text).map (matchesText (.anySequence :: rest)) := by
  induction text with
  | nil => simp [ends, laterTrue, matchesText]
  | cons c text ih =>
    have unfolded (value : Bool) (values : List Bool) : laterTrue (value :: values) =
        (value || (laterTrue values).head?.getD false) :: laterTrue values := rfl
    rw [ends, List.map_cons, unfolded, ih]
    cases text <;> simp [ends, matchesText]

theorem zipWith_map_ends (token : Token) (rest : List Token) (h : token ≠ .anySequence)
    (text : List Char) :
    List.zipWith (fun c later => token.admits c && later) text
        ((ends text).map (matchesText rest)).tail ++ [false] =
      (ends text).map (matchesText (token :: rest)) := by
  induction text with
  | nil => cases token <;> simp_all [ends, matchesText]
  | cons c text ih =>
    cases text with
    | nil => cases token <;> simp_all [ends, matchesText]
    | cons d text => cases token <;> simp_all [ends, matchesText]

/-- The ends of a text are matched as any text is. -/
theorem matchesEnds_eq_map (tokens : List Token) (text : List Char) :
    matchesEnds text tokens = (ends text).map (matchesText tokens) := by
  induction tokens with
  | nil =>
    have empty : matchesText [] = List.isEmpty := by funext text; rw [matchesText]
    rw [matchesEnds, empty]
  | cons token rest ih =>
    by_cases h : token = .anySequence
    · subst h
      rw [matchesEnds, ih, laterTrue_map_ends]
    · rw [matchesEnds, ih, zipWith_map_ends token rest h]
      exact h

/-- Whether a component stands for a name. -/
def Component.admits (component : Component) (name : String) : Bool :=
  match component with
  | .recursive => true
  | .name tokens => (matchesEnds name.toList tokens).head? = some true

/-- The name that a component without wildcards is. -/
def Component.literal? (component : Component) : Option String :=
  match component with
  | .recursive => none
  | .name tokens =>
    (tokens.mapM fun (token : Token) =>
      match token with
      | .char c => some c
      | _ => none).map String.ofList

/-- Whether a component stands for any number of names. -/
def Component.isRecursive (component : Component) : Bool := component = .recursive

/-- Whether a component begins with a dot. -/
def Component.beginsWithDot (component : Component) : Bool :=
  match component with
  | .name (.char '.' :: _) => true
  | _ => false

/-! ## Finding paths -/

/-- A path that is found, and whether it leads to a directory. -/
structure Place where
  path : String
  isDirectory : Bool

variable {m : Type → Type} [Monad m]

/-- A path below a place. -/
def Place.below (place : Place) (name : String) : String :=
  if place.path = "." then name else Path.join place.path name

/-- The place of a path. -/
def placeOf (files : FileSystem m) (path : String) : m Place := do
  pure ⟨path, (← files.kind path) = some .directory⟩

section Steps

variable (find : List Component → Place → ExceptT String m (List Place))

/-- Go on from a place that the first component led to. -/
def proceed (rest : List Component) (place : Place) : ExceptT String m (List Place) :=
  if rest.isEmpty then pure [place] else find rest place

/-- What a name without wildcards leads to. -/
def lookUp (files : FileSystem m) (name : String) (rest : List Component) (place : Place) :
    ExceptT String m (List Place) := do
  let path := place.below name
  let isDots := name == "." || name == ".."
  let found ← files.kind path
  if if isDots then place.isDirectory else found.isSome then
    proceed find rest ⟨path, found = some .directory⟩
  else pure []

/-- What an entry of a directory leads to if the first component stands for its
name. -/
def enter (components : List Component) (name : String) (place : Place) :
    ExceptT String m (List Place) :=
  match components with
  | [] => pure []
  | component :: rest => if component.admits name then proceed find rest place else pure []

/-- What an entry of a directory leads to. -/
def visit (components : List Component) (name : String) (place : Place) :
    ExceptT String m (List Place) := do
  match components with
  | .recursive :: more =>
    let rest := more.dropWhile Component.isRecursive
    let here ← enter find rest name place
    if place.isDirectory then
      let deeper ← find (.recursive :: rest) place
      pure ((if rest.isEmpty then [place] else here) ++ deeper)
    else pure here
  | components => enter find components name place

/-- What the names `..` and `.` lead to if the first component stands for them. -/
def visitDots (files : FileSystem m) (component : Component) (rest : List Component)
    (place : Place) : ExceptT String m (List Place) := do
  if component.beginsWithDot then
    let found ← ["..", "."].mapM fun name => do
      if component.admits name then
        proceed find rest (← ExceptT.lift (placeOf files (Path.join place.path name)))
      else pure []
    pure found.flatten
  else pure []

/-- What the first component leads to from a place, given how the others go on. -/
def findWith (files : FileSystem m) : List Component → Place → ExceptT String m (List Place)
  | [], _ => pure []
  | component :: rest, place => do
    match component.literal? with
    | some name => lookUp find files name rest place
    | none =>
      if place.isDirectory then
        match ← files.entries place.path with
        | none => throw place.path
        | some entries =>
          let dots ← visitDots find files component rest place
          let found ← (entries.mergeSort fun a b => a.1 ≤ b.1).mapM fun (name, kind) =>
            visit find (component :: rest) name ⟨place.below name, kind = .directory⟩
          pure (dots ++ found.flatten)
      else pure []

end Steps

/-- What components lead to from a place in a limited number of steps. -/
def findWithin (files : FileSystem m) :
    Nat → List Component → Place → ExceptT String m (List Place)
  | 0, _, _ => pure []
  | steps + 1, components, place => findWith (findWithin files steps) files components place

/-- The paths that match a pattern.  A step goes to the next component or one
directory deeper, so there are at most as many as there are components and
directories inside each other, and one more for each component that goes up. -/
def paths (files : FileSystem m) (glob : Glob) : ExceptT String m (List String) := do
  let start ← ExceptT.lift (placeOf files (if glob.isAbsolute then "/" else "."))
  let steps := files.depth + 2 * glob.components.length + 2
  let places ← findWithin files steps glob.components start
  pure ((places.filter fun place => place.isDirectory || !glob.onlyDirectories).map Place.path)

/-! ## Tests -/

section Tests

/-- Some files in some directories. -/
def tree : FileTree :=
  { files := [["s.json"], ["r", "common.json"], ["r", "b.json"], ["r", "z.txt"],
      ["r", "d", "b.json"]].map fun names => (names, ByteArray.empty) }

/-- The paths of the tree that match a pattern, where some directories cannot be read. -/
def found (text : String) (unreadable : List String) : Option (List String) :=
  let all := FileTree.system 3
  let entries (path : String) := if path ∈ unreadable then pure none else all.entries path
  let files := { all with entries }
  (parse? text).bind fun glob => ((paths files glob).run.run tree).1.toOption

example : ["a**", "***", "[", "[!]", "a/[x/y]", "[]"].all (fun text => (parse? text).isNone) := by
  decide +kernel
example : ¬ (Component.name [.char 'r', .anySequence, .within true [('a', 'c')]]).admits "rab" := by
  decide +kernel
example : (Component.name [.anySequence, .char 'b', .anyChar]).admits "abbc" := by decide +kernel
example : found "./r/../s.json" ["."] = some ["r/../s.json"] := by decide +kernel
example : found "r/*.json" ["r"] = none := by decide +kernel

end Tests

end Glob

end SchemaDoc
