import SchemaDoc.Proofs.Json.Equality
import SchemaDoc.Proofs.Json.Characters

/-!
# Texts that are grouped

A reader of a signature skips the literals in quotes and keeps count of brackets.  A text is
*grouped* if each bracket is closed by its own kind and no bar and no ampersand is outside all
brackets, `Text.Grouped`.

To put texts together one has to know more of them, namely that they change nothing for a reader
who has read some brackets already, `Text.Neutral`.  A text that is put into brackets only needs to
be so where a bracket is open, since bars are allowed there, `Text.Neutral.enclose`.  The text of a
JSON value is so everywhere, `Json.neutral_compact`.
-/

namespace SchemaDoc

namespace Text

/-! ## Reading a signature -/

/-- Where a reader is as to literals. -/
inductive Literal where
  | outside
  | inside
  /-- Inside, right behind a backslash. -/
  | escaped
deriving DecidableEq, Repr

/-- What a reader knows of what was read: where it is as to literals, and the brackets that close
those that are open, the nearest first. -/
structure Reading where
  literal : Literal
  closers : List Char
deriving DecidableEq, Repr

/-- The characters that matter outside of literals. -/
def marks : List Char := ['"', '(', ')', '[', ']', '\x7b', '\x7d', '|', '&']

/-- Reads one character.  A bracket that closes another kind than is open is not read, nor is a bar
or an ampersand if none is open. -/
def Reading.next? : Reading → Char → Option Reading
  | ⟨.escaped, closers⟩, _ => some ⟨.inside, closers⟩
  | ⟨.inside, closers⟩, '\\' => some ⟨.escaped, closers⟩
  | ⟨.inside, closers⟩, '"' => some ⟨.outside, closers⟩
  | ⟨.inside, closers⟩, _ => some ⟨.inside, closers⟩
  | ⟨.outside, closers⟩, '"' => some ⟨.inside, closers⟩
  | ⟨.outside, closers⟩, '(' => some ⟨.outside, ')' :: closers⟩
  | ⟨.outside, closers⟩, '[' => some ⟨.outside, ']' :: closers⟩
  | ⟨.outside, closers⟩, '\x7b' => some ⟨.outside, '\x7d' :: closers⟩
  | ⟨.outside, ')' :: closers⟩, ')' => some ⟨.outside, closers⟩
  | ⟨.outside, ']' :: closers⟩, ']' => some ⟨.outside, closers⟩
  | ⟨.outside, '\x7d' :: closers⟩, '\x7d' => some ⟨.outside, closers⟩
  | ⟨.outside, closer :: closers⟩, '|' => some ⟨.outside, closer :: closers⟩
  | ⟨.outside, closer :: closers⟩, '&' => some ⟨.outside, closer :: closers⟩
  | ⟨.outside, closers⟩, c => if c ∈ marks then none else some ⟨.outside, closers⟩

/-- Outside of literals each bracket is closed by its own kind, and no bar and no ampersand is
outside all brackets. -/
def Grouped (text : String) : Prop :=
  text.toList.foldlM Reading.next? ⟨.outside, []⟩ = some ⟨.outside, []⟩

instance (text : String) : Decidable (Grouped text) :=
  inferInstanceAs (Decidable (_ = _))

example : Grouped "(\"|\" | [a, b | c])[]" ∧ Grouped "\"\\\"(\"" := by decide
example : ¬Grouped "(a | b)[] | c" ∧ ¬Grouped "(a]" ∧ ¬Grouped "a)(" ∧ ¬Grouped "\"a" := by decide

/-! ## Texts that change nothing -/

/-- A text that was read leaves a reader outside of literals with the brackets that were open. -/
def Neutral (closers : List Char) (text : String) : Prop :=
  text.toList.foldlM Reading.next? ⟨.outside, closers⟩ = some ⟨.outside, closers⟩

/-- No character of a text matters outside of literals. -/
def Plain (text : String) : Prop := ∀ c ∈ text.toList, c ∉ marks

-- By the characters of the text.  Going through all characters there are is no option.
instance (text : String) : Decidable (Plain text) :=
  List.decidableBAll (fun c => c ∉ marks) text.toList

/-- No character of a number matters. -/
theorem plain_of_numeral {text : String} (h : Numeral text) : Plain text := by
  have digits : (marks.all fun mark => !mark.isDigit) = true := by decide
  have others : Plain ".e+-" := by decide
  intro c hc mark
  rcases h c hc with digit | other
  · have apart := List.all_eq_true.mp digits c mark
    rw [digit] at apart
    cases apart
  · exact others c other mark

namespace Neutral

variable {closers : List Char}

theorem append {left right : String} (hl : Neutral closers left) (hr : Neutral closers right) :
    Neutral closers (left ++ right) := by
  rw [Neutral, String.toList_append, List.foldlM_append, hl]
  exact hr

theorem of_plain {text : String} (h : Plain text) : Neutral closers text := by
  have skip (c : Char) (hc : c ∉ marks) :
      Reading.next? ⟨.outside, closers⟩ c = some ⟨.outside, closers⟩ := by
    unfold Reading.next?
    split <;> simp_all [marks]
  rw [Plain] at h
  rw [Neutral]
  generalize text.toList = chars at h ⊢
  induction chars with
  | nil => rfl
  | cons c rest ih =>
    obtain ⟨plain, more⟩ := List.forall_mem_cons.mp h
    rw [List.foldlM_cons, skip c plain]
    exact ih more

theorem intercalate {separator : String} {texts : List String}
    (between : Neutral closers separator) (each : ∀ text ∈ texts, Neutral closers text) :
    Neutral closers (separator.intercalate texts) := by
  induction texts with
  | nil => rfl
  | cons text rest ih =>
    obtain ⟨first, others⟩ := List.forall_mem_cons.mp each
    cases rest with
    | nil => simpa using first
    | cons next more =>
      rw [String.intercalate_cons_cons]
      exact (first.append between).append (ih others)

/-- There is nothing between the texts if there is one at most. -/
theorem single {separator : String} {texts : List String} (one : texts.length ≤ 1)
    (each : ∀ text ∈ texts, Neutral closers text) :
    Neutral closers (separator.intercalate texts) := by
  match texts with
  | [] => rfl
  | [only] => simpa using each only List.mem_cons_self
  | _ :: _ :: _ =>
    rw [List.length_cons, List.length_cons] at one
    omega

/-- Brackets of one kind may go around a text that changes nothing where a bracket is open. -/
theorem enclose {opening closing text : String} {closer : Char}
    (opens : opening.toList.foldlM Reading.next? ⟨.outside, closers⟩ =
      some ⟨.outside, closer :: closers⟩)
    (inner : Neutral (closer :: closers) text)
    (closes : closing.toList.foldlM Reading.next? ⟨.outside, closer :: closers⟩ =
      some ⟨.outside, closers⟩) : Neutral closers (opening ++ text ++ closing) := by
  rw [Neutral] at inner ⊢
  simp only [String.toList_append, List.foldlM_append, opens, inner, closes, Option.bind_eq_bind,
    Option.bind_some]

theorem parentheses {text : String} (inner : Neutral (')' :: closers) text) :
    Neutral closers ("(" ++ text ++ ")") :=
  enclose rfl inner rfl

theorem brackets {text : String} (inner : Neutral (']' :: closers) text) :
    Neutral closers ("[" ++ text ++ "]") :=
  enclose rfl inner rfl

theorem braces {text : String} (inner : Neutral ('\x7d' :: closers) text) :
    Neutral closers ("\x7b" ++ text ++ "\x7d") :=
  enclose rfl inner rfl

end Neutral

end Text

/-! ## JSON texts -/

namespace Json

open Text

variable {closers : List Char}

/-- In a literal only quotes and backslashes matter. -/
theorem foldlM_inside {text : List Char} (h : ∀ c ∈ text, c ≠ '\\' ∧ c ≠ '"') :
    text.foldlM Reading.next? ⟨.inside, closers⟩ = some ⟨.inside, closers⟩ := by
  induction text with
  | nil => rfl
  | cons c rest ih =>
    obtain ⟨⟨escape, quote⟩, more⟩ := List.forall_mem_cons.mp h
    have next : Reading.next? ⟨.inside, closers⟩ c = some ⟨.inside, closers⟩ := by
      unfold Reading.next?
      split <;> simp_all
    rw [List.foldlM_cons, next]
    exact ih more

/-- A character of a string leaves a reader inside of the literal. -/
theorem foldlM_escapeChar (c : Char) :
    (escapeChar c).foldlM Reading.next? ⟨.inside, closers⟩ = some ⟨.inside, closers⟩ := by
  rcases escapeChar_cases c with ⟨same, plain⟩ | ⟨mark, digits, escaped, -, plain⟩
  · rw [same]
    exact foldlM_inside (List.forall_mem_singleton.mpr plain)
  · rw [escaped]
    -- The backslash takes the next character, so the digits are all that is left to read.
    change digits.foldlM Reading.next? ⟨.inside, closers⟩ = _
    exact foldlM_inside plain

theorem neutral_quote (text : String) : Neutral closers (quote text) := by
  have chars (chars : List Char) : (chars.flatMap escapeChar).foldlM Reading.next?
      ⟨.inside, closers⟩ = some ⟨.inside, closers⟩ := by
    induction chars with
    | nil => rfl
    | cons c rest ih =>
      rw [List.flatMap_cons, List.foldlM_append, foldlM_escapeChar]
      exact ih
  rw [Neutral, quote, String.toList_ofList, ← List.singleton_append, List.foldlM_append]
  change (text.toList.flatMap escapeChar ++ ['"']).foldlM Reading.next? ⟨.inside, closers⟩ = _
  rw [List.foldlM_append, chars]
  rfl

/-- The text of a value changes nothing for a reader. -/
theorem neutral_compact (value : Json) : ∀ closers, Neutral closers value.compact := by
  induction value using induct with
  | step value ih =>
    intro closers
    have comma (closers : List Char) : Neutral closers "," := .of_plain (by decide)
    cases value with
    | null => exact .of_plain (by decide : Plain "null")
    | bool value =>
      rw [compact]
      split
      · exact .of_plain (by decide)
      · exact .of_plain (by decide)
    | number value => exact .of_plain (plain_of_numeral value.numeral_render)
    | string text => exact neutral_quote text
    | array items =>
      rw [compact, compactItems_eq_map]
      refine .brackets (.intercalate (comma _) (List.forall_mem_map.mpr fun item hi => ?_))
      exact ih item hi _
    | object members =>
      rw [compact, compactMembers_eq_map]
      refine .braces (.intercalate (comma _) (List.forall_mem_map.mpr fun member hm => ?_))
      refine .append (.append (neutral_quote _) (.of_plain (by decide))) ?_
      exact ih member.2 (List.mem_map_of_mem hm) _

end Json

end SchemaDoc
