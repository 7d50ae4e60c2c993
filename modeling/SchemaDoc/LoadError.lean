/-!
# Errors of loading

Why a document could not be read or a reference could not be followed.  Only a
reference into another resource is *fatal*: it is a mistake in the schema, whatever
is registered.
-/

namespace SchemaDoc

/-- Why a reference that could be followed is refused. -/
inductive LoadError.Reason where
  /-- A pointer steps into a value that is a resource of its own. -/
  | innerResource
  /-- The anchor stands in another resource. -/
  | anchorElsewhere (resource : String)
deriving DecidableEq, Repr

/-- Why a document could not be read or a reference could not be followed. -/
inductive LoadError where
  /-- Nothing is registered under a name. -/
  | unretrievable (uri : String)
  /-- A pointer addresses no value. -/
  | pointerToNowhere (uri pointer : String)
  /-- No resource declares an anchor. -/
  | noSuchAnchor (uri anchor : String)
  /-- A reference lands in a resource other than the one it names. -/
  | malformedReference (uri fragment : String) (reason : LoadError.Reason)
  /-- A file is missing or is no text. -/
  | unreadable (path : String)
  /-- A file is not JSON. -/
  | notJson (path : String)
deriving DecidableEq, Repr

namespace LoadError

/-- What is wrong with a reference. -/
def Reason.message : Reason → String
  | .innerResource =>
    "accessing sub-resources via pointers from base resource is not supported; " ++
      "use resource URI instead"
  | .anchorElsewhere resource =>
    "anchor is declared in resource \x60" ++ resource ++ "\x60; reference it through that URI"

/-- A text between grave accents. -/
def inTicks (text : String) : String := "\x60" ++ text ++ "\x60"

/-- The message of an error. -/
def message : LoadError → String
  | .unretrievable uri => "no schema resource registered for " ++ inTicks uri
  | .pointerToNowhere uri pointer =>
    "JSON pointer " ++ inTicks pointer ++ " does not resolve inside " ++ inTicks uri
  | .noSuchAnchor uri anchor => "no anchor " ++ inTicks anchor ++ " in " ++ inTicks uri
  | .malformedReference uri fragment reason =>
    "reference " ++ inTicks (uri ++ "#" ++ fragment) ++ " is not supported: " ++ reason.message
  | .unreadable path => "failed to read schema file " ++ path
  | .notJson path => "failed to parse schema file " ++ path

/-- Whether an error is a mistake in the schema. -/
def isFatal : LoadError → Bool
  | .malformedReference .. => true
  | _ => false

/-! ## Tests -/

example : (pointerToNowhere "R" "/x").message
    = "JSON pointer \x60/x\x60 does not resolve inside \x60R\x60" := by decide +kernel
example : (malformedReference "R" "a" (.anchorElsewhere "S")).message
    = "reference \x60R#a\x60 is not supported: anchor is declared in resource \x60S\x60; " ++
      "reference it through that URI" := by decide +kernel

end LoadError

end SchemaDoc
