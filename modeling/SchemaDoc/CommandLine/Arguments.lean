import SchemaDoc.Text.Split

/-!
# Arguments

The arguments of a command are *options* and *words*.  An option is written with its
name after two hyphens or with its letter after one, and letters may be written
together.  A value is written with its option, as in `--out=x` and `-ox`, or as the
argument after it.

An option that takes the argument after it *waits*.  Its values are looked at when
something else is read, so a fault of a later argument can be told first.  After two
hyphens alone all arguments are words.
-/

namespace SchemaDoc.CommandLine

open Text (cut?)

/-- Why arguments are not run. -/
inductive UsageError where
  /-- Help is asked for. -/
  | helpAsked
  /-- Nothing is asked for. -/
  | nothingAsked
  | missingCommand
  | unknownCommand
  | missingArgument
  | unknownArgument
  /-- A value is missing or is none that the option takes. -/
  | invalidValue
  /-- An option without a value is written with one. -/
  | unwantedValue
  /-- An option is given twice that may be given once. -/
  | repeatedOption
deriving DecidableEq, Repr

/-- The status with which a program ends.  To ask for help is no fault. -/
def UsageError.exitStatus : UsageError → Nat
  | .helpAsked => 0
  | _ => 2

/-! ## Options -/

/-- How often an option may be given, and what it takes. -/
inductive Arity where
  /-- Once, without a value. -/
  | flag
  /-- Any number of times, without a value. -/
  | count
  /-- Without a value, and nothing is read after it. -/
  | help
  /-- Once, with a value. -/
  | value
  /-- Any number of times, with a value each. -/
  | list
  /-- Any number of times, with all the words after it. -/
  | wordList
deriving DecidableEq, Repr

/-- Whether an option takes a value. -/
def Arity.takesValue : Arity → Bool
  | .value | .list | .wordList => true
  | .flag | .count | .help => false

/-- Whether an option may be given more than once. -/
def Arity.repeats : Arity → Bool
  | .count | .list | .wordList => true
  | .flag | .help | .value => false

/-- The values that an option takes. -/
inductive Values where
  | any
  | nonempty
  | among (texts : List String)
deriving DecidableEq, Repr

/-- Whether a value is one of those that an option takes. -/
def Values.admits (value : String) : Values → Bool
  | .any => true
  | .nonempty => value != ""
  | .among texts => texts.contains value

/-- An option that a command has. -/
structure Parameter where
  name : String
  letter : Option Char := none
  arity : Arity
  values : Values := .any
deriving DecidableEq, Repr

/-- An option that waits for values. -/
structure Waiting where
  option : Parameter
  /-- The values that it has. -/
  values : List String := []
  /-- Whether it takes another one. -/
  isOpen : Bool := true
deriving DecidableEq, Repr

/-! ## Reading -/

/-- What is read so far. -/
structure Reading where
  /-- The names of the options given, with their values. -/
  given : List (String × List String) := []
  waiting : Option Waiting := none
  words : List String := []
  /-- Whether all arguments that follow are words. -/
  onlyWords : Bool := false
deriving DecidableEq, Repr

namespace Reading

/-- How often an option is given. -/
def count (reading : Reading) (name : String) : Nat :=
  (reading.given.filter fun entry => entry.1 == name).length

/-- Whether an option is given. -/
def has (reading : Reading) (name : String) : Bool := reading.count name != 0

/-- All values of an option. -/
def values (reading : Reading) (name : String) : List String :=
  (reading.given.filter fun entry => entry.1 == name).flatMap Prod.snd

/-- The value of an option. -/
def value? (reading : Reading) (name : String) : Option String := (reading.values name).head?

/-- Take an option with its values. -/
def accept (reading : Reading) (option : Parameter) (values : List String) :
    Except UsageError Reading :=
  if option.arity.takesValue && values.isEmpty then .error .invalidValue
  else if !option.arity.repeats && reading.has option.name then .error .repeatedOption
  else if !values.all fun value => option.values.admits value then .error .invalidValue
  else .ok { reading with given := reading.given ++ [(option.name, values)] }

/-- Take the option that waits. -/
def settle (reading : Reading) : Except UsageError Reading :=
  match reading.waiting with
  | none => .ok reading
  | some waiting => { reading with waiting := none }.accept waiting.option waiting.values

/-- Read an option, with the value that is written with it. -/
def give (reading : Reading) (option : Parameter) (value : Option String) :
    Except UsageError Reading := do
  let reading ← reading.settle
  match option.arity, value with
  | .help, _ => .error .helpAsked
  | _, some value => reading.accept option [value]
  | arity, none =>
    if arity.takesValue then .ok { reading with waiting := some { option } }
    else reading.accept option []

/-- Read an option by its name. -/
def giveName (options : List Parameter) (reading : Reading) (text : List Char) :
    Except UsageError Reading :=
  let (name, value) :=
    match cut? '=' text with
    | some (name, value) => (name, some (String.ofList value))
    | none => (text, none)
  match options.find? fun option => option.name.toList == name with
  | none => .error .unknownArgument
  | some option =>
    if value.isSome && !option.arity.takesValue then .error .unwantedValue
    else reading.give option value

/-- Read options by their letters.  What follows the letter of an option with a value
is the value, after a sign of equality or at once. -/
def giveLetters (options : List Parameter) (reading : Reading) :
    List Char → Except UsageError Reading
  | [] => .ok reading
  | letter :: rest =>
    match options.find? fun option => option.letter == some letter with
    | none => .error .unknownArgument
    | some option =>
      if option.arity.takesValue then
        match rest with
        | [] => reading.give option none
        | '=' :: value => reading.give option (some (String.ofList value))
        | value => reading.give option (some (String.ofList value))
      else do giveLetters options (← reading.give option none) rest

/-- Whether an argument is written as an option. -/
def isOption (arg : String) : Bool :=
  match arg.toList with
  | '-' :: _ :: _ => true
  | _ => false

/-- Read an argument that is written as an option. -/
def readOption (options : List Parameter) (reading : Reading) (arg : String) :
    Except UsageError Reading :=
  match arg.toList.drop 1 with
  | ['-'] => .ok { reading with onlyWords := true }
  | '-' :: text => giveName options reading text
  | letters => giveLetters options reading letters

/-- Read a word.  There may be one. -/
def readWord (reading : Reading) (word : String) : Except UsageError Reading := do
  if !reading.words.isEmpty then throw .unknownArgument
  let reading ← reading.settle
  return { reading with words := [word] }

/-- Read an argument. -/
def read (options : List Parameter) (reading : Reading) (arg : String) :
    Except UsageError Reading :=
  if reading.onlyWords then readWord reading arg
  else if isOption arg then readOption options reading arg
  else
    match reading.waiting with
    | some ⟨option, values, true⟩ =>
      let isOpen := option.arity == .wordList
      .ok { reading with waiting := some { option, values := values ++ [arg], isOpen } }
    | _ => readWord reading arg

/-- Read arguments to their end. -/
def readAll (options : List Parameter) (args : List String) : Except UsageError Reading := do
  settle (← args.foldlM (read options) {})

/-- Read options up to a word, with the arguments from the word on. -/
def readUntilWord (options : List Parameter) (reading : Reading) :
    List String → Except UsageError (Reading × List String)
  | [] => .ok (reading, [])
  | arg :: rest =>
    if reading.onlyWords || !isOption arg then .ok (reading, arg :: rest)
    else do readUntilWord options (← readOption options reading arg) rest

end Reading

/-! ## Tests -/

section Tests

/-- Some options. -/
def sampleOptions : List Parameter :=
  [{ name := "in", letter := some 'i', arity := .value, values := .nonempty },
    { name := "more", arity := .wordList }, { name := "fast", letter := some 'f', arity := .flag },
    { name := "help", letter := some 'h', arity := .help }]

/-- What is given by some arguments. -/
def sampleGiven (args : List String) : Option (List (String × List String)) :=
  (Reading.readAll sampleOptions args).toOption.map Reading.given

/-- What is wrong with some arguments. -/
def sampleFault (args : List String) : Option UsageError :=
  match Reading.readAll sampleOptions args with
  | .ok _ => none
  | .error error => some error

example : sampleGiven ["-fia", "--more", "x", "-", "--", "w"]
    = some [("fast", []), ("in", ["a"]), ("more", ["x", "-"])] := by decide +kernel
example : sampleFault ["--in", "-f"] = some .invalidValue := by decide +kernel
example : sampleFault ["--in", "--out"] = some .unknownArgument := by decide +kernel
example : sampleFault ["--fast=1", "-x"] = some .unwantedValue := by decide +kernel
example : sampleFault ["-i=a", "--in", "b", "-h"] = some .repeatedOption := by decide +kernel
example : sampleFault ["w", "--in", "", "w"] = some .unknownArgument := by decide +kernel

end Tests

end SchemaDoc.CommandLine
