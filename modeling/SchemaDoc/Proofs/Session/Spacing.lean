import SchemaDoc.Proofs.Signature.Spacing
import SchemaDoc.Proofs.Signature.Spelling
import SchemaDoc.Proofs.Table
import SchemaDoc.Proofs.Ty.NormalForm
import SchemaDoc.Session.Print

/-!
# Signatures are spaced

The signature of a type is spaced as its tokens are shown, so normalizing it changes nothing,
`Session.normalize_print`.  This takes that constants have no parts, since the text of an array or
an object is compact, and that the names of types are *legible*, `Token.Legible`.

What is shown by induction on types is that their texts are *pieces*, `Token.Piece`: whatever spaced
text follows, the whole is spaced.  Where a name with a scheme may follow, as behind a comma or a
bracket, a piece may follow too.
-/

namespace SchemaDoc

namespace Token

open Text

/-! ## Texts before spaced texts -/

/-- A text is spaced together with any spaced text that follows it. -/
def Passes (mayName after : Bool) (text : String) : Prop :=
  ∀ rest, Spaced after rest → Spaced mayName (text.toList ++ rest)

namespace Passes

variable {first middle last : Bool} {left right : String}

theorem append (hl : Passes first middle left) (hr : Passes middle last right) :
    Passes first last (left ++ right) := by
  intro rest h
  rw [String.toList_append, List.append_assoc]
  exact hl _ (hr rest h)

theorem of_plain {mayName : Bool} {text : String} (h : AllPlain text.toList) :
    Passes mayName false text := fun _ spaced => (Spaced.append_plain h spaced).mono

theorem intercalate {separator : String} {texts : List String}
    (between : Passes false true separator) (each : ∀ text ∈ texts, Passes true false text) :
    Passes true false (separator.intercalate texts) := by
  induction texts with
  | nil => exact fun _ => Spaced.mono
  | cons text rest ih =>
    obtain ⟨first, others⟩ := List.forall_mem_cons.mp each
    cases rest with
    | nil => simpa using first
    | cons next more =>
      rw [String.intercalate_cons_cons]
      exact (first.append between).append (ih others)

theorem comma {mayName : Bool} : Passes mayName true ", " := fun _ => .behind (.inl rfl)

theorem colon {mayName : Bool} : Passes mayName true ": " := fun _ => .behind (.inr rfl)

theorem bar {mayName : Bool} : Passes mayName true " | " := fun _ => .between (.inl rfl)

theorem ampersand {mayName : Bool} : Passes mayName true " & " := fun _ => .between (.inr rfl)

theorem quote {mayName : Bool} (text : String) : Passes mayName false (Json.quote text) :=
  fun _ => .literal text

theorem opening {mayName : Bool} {c : Char} (plain : isPlain c = true)
    (opens : isOpening c = true) : Passes mayName true (String.ofList [c]) := by
  intro rest h
  rw [String.toList_ofList]
  exact .plain plain (opens ▸ h)

end Passes

/-! ## Pieces of a signature -/

/-- A text that may stand where a type may: between texts that are spaced, and with no blanks at its
ends. -/
structure Piece (text : String) : Prop where
  firm : Firm text.toList
  passes : Passes true false text

/-- A piece is normalized. -/
theorem Piece.normalize_eq {text : String} (h : Piece text) : normalize text = text := by
  have spaced := h.passes [] .nil
  rw [List.append_nil] at spaced
  have shown : respaced text.toList = text.toList := respaced_eq spaced
  have trimmed : trim text.toList = text.toList := by
    have ends := trim_append_firm [] h.firm []
    rw [List.nil_append, List.append_nil] at ends
    rw [ends]
    exact List.append_nil _
  apply String.toList_injective
  rw [toList_normalize]
  exact (congrArg trim shown).trans trimmed

namespace Piece

theorem of_plain {text : String} (nonempty : text ≠ "")
    (h : AllPlain text.toList) : Piece text where
  firm := firm_of_plain (by simpa using nonempty) h
  passes := .of_plain h

theorem quote (text : String) : Piece (Json.quote text) where
  firm := by
    rw [Json.toList_quote]
    exact firm_between rfl rfl _
  passes := .quote text

/-- Brackets go around any text that is spaced in them. -/
theorem enclose {opening closing : Char} {text : String}
    (opens : isPlain opening = true ∧ isOpening opening = true) (closes : isPlain closing = true)
    (h : Passes true false text) :
    Piece (String.ofList [opening] ++ text ++ String.ofList [closing]) where
  firm := by
    rw [String.toList_append, String.toList_append, String.toList_ofList, String.toList_ofList]
    exact firm_between (isBlank_of_isPlain opens.1) (isBlank_of_isPlain closes) text.toList
  passes := by
    refine ((Passes.opening opens.1 opens.2).append h).append (.of_plain ?_)
    rw [String.toList_ofList]
    exact List.forall_mem_singleton.mpr closes

theorem parentheses {text : String} (h : Passes true false text) : Piece ("(" ++ text ++ ")") :=
  enclose (by decide) (by decide) h

theorem brackets {text : String} (h : Passes true false text) : Piece ("[" ++ text ++ "]") :=
  enclose (by decide) (by decide) h

theorem braces {text : String} (h : Passes true false text) : Piece ("\x7b" ++ text ++ "\x7d") :=
  enclose (by decide) (by decide) h

/-- Brackets, dots or a question mark behind a text. -/
theorem append {text mark : String} (h : Piece text) (nonempty : mark ≠ "")
    (plain : AllPlain mark.toList) : Piece (text ++ mark) where
  firm := by
    have behind := h.firm.append [] (of_plain nonempty plain).firm
    rwa [List.append_nil, ← String.toList_append] at behind
  passes := h.passes.append (.of_plain plain)

theorem firm_intercalate {separator text : String} {rest : List String} (h : Piece text)
    (each : ∀ text ∈ rest, Piece text) : Firm (separator.intercalate (text :: rest)).toList := by
  induction rest generalizing text with
  | nil => simpa using h.firm
  | cons next more ih =>
    obtain ⟨first, others⟩ := List.forall_mem_cons.mp each
    rw [String.intercalate_cons_cons, String.toList_append, String.toList_append]
    exact h.firm.append _ (ih first others)

/-- Pieces may be listed with bars or ampersands between them. -/
theorem orNever_intercalate {separator : String} {texts : List String}
    (between : Passes false true separator) (each : ∀ text ∈ texts, Piece text) :
    Piece (Ty.orNever (separator.intercalate texts)) := by
  rw [Ty.orNever]
  split
  · exact .of_plain (by decide) (by decide)
  · rename_i nonempty
    refine ⟨?_, .intercalate between fun text ht => (each text ht).passes⟩
    cases texts with
    | nil => exact absurd rfl nonempty
    | cons text rest =>
      obtain ⟨first, others⟩ := List.forall_mem_cons.mp each
      exact firm_intercalate first others

theorem parenthesize {text : String} (h : Piece text) (parens : Bool) :
    Piece (Ty.parenthesize parens text) := by
  cases parens with
  | true => exact parentheses h.passes
  | false => exact h

end Piece

/-! ## Names and constants -/

/-- A name of a type that has no blanks, quotes and separators in it, but for the colon of one
scheme at its start. -/
def Legible (name : String) : Prop :=
  name ≠ "" ∧ AllPlain name.toList ∨
    ∃ scheme ∈ schemes, ∃ c rest, name.toList = scheme.toList ++ ':' :: '/' :: '/' :: c :: rest ∧
      isWord c = true ∧ AllPlain rest

theorem Legible.piece {name : String} (h : Legible name) : Piece name := by
  obtain ⟨nonempty, plain⟩ | ⟨scheme, mem, c, rest, same, word, plain⟩ := h
  · exact .of_plain nonempty plain
  · have named : AllPlain (c :: rest) :=
      List.forall_mem_cons.mpr ⟨isPlain_of_isWord word, plain⟩
    refine ⟨?_, fun more spaced => ?_⟩
    · obtain ⟨letters, hs, chars, -⟩ := exists_of_mem_schemes mem
      have front : Firm scheme.toList := by
        rw [hs]
        exact firm_of_plain (List.cons_ne_nil _ _) fun d hd => isPlain_of_isWord (chars d hd).1
      have whole := front.append [':', '/', '/'] (firm_of_plain (List.cons_ne_nil _ _) named)
      rwa [List.append_assoc, List.cons_append, List.cons_append, List.cons_append,
        List.nil_append, ← same] at whole
    · rw [same, List.append_assoc]
      exact .scheme mem word (Spaced.append_plain named spaced)

end Token

theorem Token.isPlain_of_isNumeral {c : Char} (h : Text.IsNumeral c) : isPlain c = true := by
  rcases h with digit | mark
  · exact isPlain_of_isWord (Text.isWord_of_isAlphanum (by simp [Char.isAlphanum, digit]))
  · have marks : AllPlain ['.', 'e', '+', '-'] := by decide
    exact marks c mark

/-- A value without parts. -/
def Json.IsScalar : Json → Prop
  | .array _ | .object _ => False
  | _ => True

theorem Token.piece_compact {value : Json} (h : value.IsScalar) : Piece value.compact := by
  cases value with
  | null => exact .of_plain (by decide) (by decide)
  | bool value => cases value <;> exact .of_plain (by decide) (by decide)
  | number value =>
    refine .of_plain value.render_ne_empty fun c hc => ?_
    exact isPlain_of_isNumeral (value.numeral_render c hc)
  | string text => exact .quote text
  | array _ | object _ => cases h

namespace Ty

open Token

variable {showReference : String → Bool → String}

/-- What is written of a type itself: a constant has no parts, and a name is legible. -/
structure Legible (ty : Ty) : Prop where
  const : ∀ value ∈ ty.const, value.IsScalar
  target : ∀ target ∈ ty.target?, Token.Legible target

/-- A type is written as a piece if the references in it are. -/
theorem piece_printWith {ty : Ty}
    (references : ∀ target, Token.Legible target → ∀ parens, Piece (showReference target parens))
    (h : ty.Everywhere Legible) : ∀ parens, Piece (ty.printWith showReference parens) := by
  induction h with
  | @intro ty here _ each =>
    intro parens
    obtain ⟨notes, const, shape⟩ := ty
    cases shape with
    | leaf kind =>
      cases const with
      | none =>
        rw [printWith]
        cases kind <;> exact .of_plain (by decide) (by decide)
      | some value => exact piece_compact (here.const value rfl)
    | reference target =>
      simp only [printWith]
      exact references target (here.target target rfl) parens
    | object members rest =>
      cases members with
      | nil =>
        cases rest with
        | none =>
          simp only [printWith]
          exact .of_plain (by decide) (by decide)
        | some rest =>
          simp only [printWith]
          have label : Passes true true "string: " := by
            have keyword : Passes true false "string" := .of_plain (by decide)
            exact keyword.append .colon
          have front : "\x7bstring: " = "\x7b" ++ "string: " := by decide
          rw [front, String.append_assoc]
          exact .braces (label.append (each rest List.mem_cons_self false).passes)
      | cons member members =>
        simp only [printWith, printMembers_eq_map]
        refine .braces (.intercalate .comma (List.forall_mem_map.mpr fun entry he => ?_))
        have inner := each entry.2 (List.mem_append_left _ (List.mem_map_of_mem he)) false
        exact ((Passes.quote _).append .colon).append inner.passes
    | array unique item =>
      simp only [printWith]
      exact (each item List.mem_cons_self true).append (by decide) (by decide)
    | tuple items tail =>
      have front : ∀ text ∈ printItems showReference false items, Passes true false text := by
        rw [printItems_eq_map]
        refine List.forall_mem_map.mpr fun item hi => ?_
        exact (each item (List.mem_append_left _ hi) false).passes
      cases tail with
      | none =>
        simp only [printWith, List.append_nil]
        exact .brackets (.intercalate .comma front)
      | some tail =>
        simp only [printWith]
        have last := each tail (List.mem_append_right _ List.mem_cons_self) true
        refine .brackets (.intercalate .comma (List.forall_mem_append.mpr ⟨front, ?_⟩))
        exact List.forall_mem_singleton.mpr (last.append (by decide) (by decide)).passes
    | union form items nullable =>
      have joined :
          Piece (orNever (String.intercalate " | " (printPresent showReference items))) := by
        rw [printPresent_eq_map]
        refine .orNever_intercalate .bar (List.forall_mem_map.mpr fun item hi => ?_)
        exact each item (List.mem_filter.mp hi).1 true
      cases nullable with
      | true =>
        simp only [printWith, if_true]
        exact (joined.parenthesize _).append (by decide) (by decide)
      | false =>
        simp only [printWith, Bool.false_eq_true, if_false]
        exact joined.parenthesize parens
    | intersection items =>
      simp only [printWith, printItems_eq_map]
      refine .parenthesize (.orNever_intercalate .ampersand ?_) parens
      exact List.forall_mem_map.mpr fun item hi => each item hi true

end Ty

namespace Session

open Token

variable {session : Session}

/-- A reference is written as a piece, whether it is written out or with its name. -/
theorem piece_showReference
    (legible : ∀ id ty, session.get? id = some ty → ty.Everywhere Ty.Legible) (room : Nat) :
    ∀ (expanding : List String) (target : String), Token.Legible target →
      ∀ parens, Piece (session.showReference room expanding target parens) := by
  induction room with
  | zero => exact fun _ _ name _ => name.piece
  | succ room ih =>
    intro expanding target name parens
    rw [showReference]
    split
    · exact name.piece
    · rename_i ty hg
      split
      · exact name.piece
      · exact Ty.piece_printWith (ih (target :: expanding)) (legible target ty hg) parens

/-- Normalizing the signature of a type changes nothing, whether references are written out or with
their names. -/
theorem normalize_print
    (legible : ∀ id ty, session.get? id = some ty → ty.Everywhere Ty.Legible) {ty : Ty}
    (h : ty.Everywhere Ty.Legible) (parens : Bool) :
    normalize (session.print ty parens) = session.print ty parens ∧
      normalize (ty.printBare parens) = ty.printBare parens :=
  ⟨(Ty.piece_printWith (piece_showReference legible _ []) h parens).normalize_eq,
    (Ty.piece_printWith (fun _ name _ => name.piece) h parens).normalize_eq⟩

/-- A session in which the name of one may be written out. -/
def oneSession : Session where
  registry := {}
  cache := [("One", .ofConst (.number (.integer 1)))]

/-- An optional object with a page in it, and then any number of ones. -/
def pageAndOnes : Ty :=
  .ofShape (.tuple
    [.ofShape (.union .oneOf
      [.ofShape (.object [("a=b", .reference "https://a.b/c")] none), .ofLeaf .null] true)]
    (some (.reference "One")))

/-- The number is read up to the first dot, but the dots are shown without blanks between them. -/
theorem pageAndOnes_normalize_print :
    (∀ id ty, oneSession.get? id = some ty → ty.Everywhere Ty.Legible) ∧
      pageAndOnes.Everywhere Ty.Legible ∧
      oneSession.print pageAndOnes false = "[\x7b\"a=b\": https://a.b/c\x7d?, 1...]" ∧
      normalize (oneSession.print pageAndOnes false) = oneSession.print pageAndOnes false := by
  have cached : ∀ id ty, oneSession.get? id = some ty → ty.Everywhere Ty.Legible := by
    intro id ty h
    obtain ⟨-, rfl⟩ := Prod.mk.inj (List.mem_singleton.mp (Table.mem_of_get? h))
    refine .intro ⟨fun value hv => ?_, nofun⟩ nofun
    obtain rfl := Option.some.inj hv
    trivial
  have page : Token.Legible "https://a.b/c" :=
    .inr ⟨"https", by decide, 'a', ".b/c".toList, rfl, rfl, by decide⟩
  have one : Token.Legible "One" := .inl (by decide)
  have named {target : String} (h : Token.Legible target) :
      (Ty.reference target).Everywhere Ty.Legible :=
    .intro ⟨nofun, fun name hn => Option.some.inj hn ▸ h⟩ nofun
  have legible : pageAndOnes.Everywhere Ty.Legible := by
    refine .intro ⟨nofun, nofun⟩
      (List.forall_mem_cons.mpr ⟨?optional, List.forall_mem_singleton.mpr (named one)⟩)
    refine .intro ⟨nofun, nofun⟩
      (List.forall_mem_cons.mpr ⟨?object, List.forall_mem_singleton.mpr ?null⟩)
    case object => exact .intro ⟨nofun, nofun⟩ (List.forall_mem_singleton.mpr (named page))
    case null => exact .intro ⟨nofun, nofun⟩ nofun
  exact ⟨cached, legible, by decide +kernel, (normalize_print cached legible false).1⟩

end Session

end SchemaDoc
