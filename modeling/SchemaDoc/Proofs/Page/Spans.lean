import Mathlib.Data.List.DropRight
import SchemaDoc.Proofs.Page.Anchors
import SchemaDoc.Proofs.Signature.Spelling

/-!
# Signatures in spans

On a page a signature is a list of *spans*: blanks, code and links, `Page.signatureSpans`.  Written
one after the other they are the signature as the page has it, `toList_renderSignature`.  Without
the marks of code and of links they are the signature with the blanks that its tokens ask for,
`shown_signatureSpans`.

The page trims what is written and not what is shown.  Both come to the same, since code and links
are firm either way, `trim_flatMap`: what is trimmed are the spans of blanks at the ends.
-/

namespace SchemaDoc.Page

open Text

/-- A piece of a signature on a page. -/
inductive Span where
  | blanks (text : List Char)
  | code (text : String)
  | link (name anchor : String)

namespace Span

/-- A span as it is written. -/
def written : Span → List Char
  | .blanks text => text
  | .code text => (Page.code text).toList
  | .link name anchor => (Page.link name anchor).toList

/-- A span without the marks of code and of links. -/
def shown : Span → List Char
  | .blanks text => text
  | .code text => text.toList
  | .link name _ => name.toList

def isBlanks : Span → Bool
  | .blanks _ => true
  | _ => false

/-- A span of blanks, or of code or a link without blanks at its ends. -/
def Sound : Span → Prop
  | .blanks text => AllBlank text
  | .code text => Firm text.toList
  | .link name _ => Firm name.toList

theorem firm_code (text : String) : Firm (Page.code text).toList := by
  have tick : isBlank '\x60' = false := rfl
  unfold Page.code
  split
  · have shape : ("\x60\x60 " ++ text ++ " \x60\x60").toList =
        '\x60' :: ('\x60' :: ' ' :: (text.toList ++ [' ', '\x60']) ++ ['\x60']) := by simp
    rw [shape]
    exact firm_between tick tick _
  · have shape : ("\x60" ++ text ++ "\x60").toList = '\x60' :: (text.toList ++ ['\x60']) := by simp
    rw [shape]
    exact firm_between tick tick _

theorem firm_link (name anchor : String) : Firm (Page.link name anchor).toList := by
  have shape : (Page.link name anchor).toList =
      '[' :: ((Page.code name).toList ++ (']' :: '(' :: '#' :: anchor.toList) ++ [')']) := by
    simp [Page.link]
  rw [shape]
  exact firm_between rfl rfl _

/-- The spans without those of blanks at the ends. -/
def trimmed (spans : List Span) : List Span := (spans.dropWhile isBlanks).rdropWhile isBlanks

/-! ## Trimming -/

theorem trimStart_append_of_allBlank {blanks : List Char} (h : AllBlank blanks)
    (rest : List Char) : trimStart (blanks ++ rest) = trimStart rest :=
  List.dropWhile_append_of_pos h

theorem trimStart_of_firm {core : List Char} (h : Firm core) (rest : List Char) :
    trimStart (core ++ rest) = core ++ rest := by
  simpa [trimStart] using trimStart_append_firm [] h rest

theorem trimStart_flatMap {text : Span → List Char} {spans : List Span}
    (blank : ∀ span ∈ spans, span.isBlanks = true → AllBlank (text span))
    (firm : ∀ span ∈ spans, span.isBlanks = false → Firm (text span)) :
    trimStart (spans.flatMap text) = (spans.dropWhile isBlanks).flatMap text := by
  induction spans with
  | nil => rfl
  | cons span rest ih =>
    obtain ⟨blank, others⟩ := List.forall_mem_cons.mp blank
    obtain ⟨firm, firmly⟩ := List.forall_mem_cons.mp firm
    rw [List.flatMap_cons]
    cases kind : span.isBlanks with
    | true =>
      rw [List.dropWhile_cons_of_pos kind, trimStart_append_of_allBlank (blank kind)]
      exact ih others firmly
    | false =>
      rw [List.dropWhile_cons_of_neg (by simp [kind]), trimStart_of_firm (firm kind),
        List.flatMap_cons]

/-- Where spans of blanks are blank and the others are firm, trimming leaves out the blank ones at
the ends. -/
theorem trim_flatMap {text : Span → List Char} {spans : List Span}
    (blank : ∀ span ∈ spans, span.isBlanks = true → AllBlank (text span))
    (firm : ∀ span ∈ spans, span.isBlanks = false → Firm (text span)) :
    trim (spans.flatMap text) = (trimmed spans).flatMap text := by
  have kept {span : Span} (h : span ∈ (spans.dropWhile isBlanks).reverse) : span ∈ spans :=
    (List.dropWhile_sublist _).subset (List.mem_reverse.mp h)
  have back := @trimStart_flatMap (fun span => (text span).reverse) _
    (fun span h kind => (blank span (kept h) kind).reverse)
    (fun span h kind => (firm span (kept h) kind).reverse)
  have reversed : ((spans.dropWhile isBlanks).flatMap text).reverse =
      (spans.dropWhile isBlanks).reverse.flatMap fun span => (text span).reverse :=
    List.reverse_flatMap ..
  rw [trim, trimStart_flatMap blank firm, trimEnd_eq_reverse, reversed, back,
    List.reverse_flatMap, trimmed, List.rdropWhile]
  simp only [Function.comp_def, List.reverse_reverse]

theorem Sound.allBlank {span : Span} (h : span.Sound) (kind : span.isBlanks = true) :
    AllBlank span.written ∧ AllBlank span.shown := by
  cases span with
  | blanks text => exact ⟨h, h⟩
  | code _ | link _ _ => cases kind

theorem Sound.firm {span : Span} (h : span.Sound) (kind : span.isBlanks = false) :
    Firm span.written ∧ Firm span.shown := by
  cases span with
  | blanks text => cases kind
  | code text => exact ⟨firm_code text, h⟩
  | link name anchor => exact ⟨firm_link name anchor, h⟩

theorem trim_written {spans : List Span} (h : ∀ span ∈ spans, span.Sound) :
    trim (spans.flatMap written) = (trimmed spans).flatMap written :=
  trim_flatMap (fun span hs kind => ((h span hs).allBlank kind).1) fun span hs kind =>
    ((h span hs).firm kind).1

theorem trim_shown {spans : List Span} (h : ∀ span ∈ spans, span.Sound) :
    trim (spans.flatMap shown) = (trimmed spans).flatMap shown :=
  trim_flatMap (fun span hs kind => ((h span hs).allBlank kind).2) fun span hs kind =>
    ((h span hs).firm kind).2

theorem mem_of_mem_trimmed {spans : List Span} {span : Span} (h : span ∈ trimmed spans) :
    span ∈ spans :=
  (List.dropWhile_sublist _).subset ((List.rdropWhile_prefix isBlanks _).subset h)

end Span

/-! ## Stretches and links -/

/-- The spans of a stretch: code, with the blanks at its ends around it. -/
def stretchSpans (text : List Char) : List Span :=
  if trim text = [] then [.blanks text]
  else
    [.blanks (text.takeWhile isBlank), .code (String.ofList (trim text)),
      .blanks (text.reverse.takeWhile isBlank).reverse]

/-- The spans of a part of a signature. -/
def Part.spans : Part → List Span
  | .stretch text => stretchSpans text.toList
  | .link name anchor => [.link name anchor]

theorem stretchSpans_of_allBlank {text : List Char} (h : AllBlank text) :
    stretchSpans text = [.blanks text] :=
  if_pos (trim_of_allBlank h)

theorem stretchSpans_append {before core after : List Char} (hb : AllBlank before)
    (firm : Firm core) (ha : AllBlank after) :
    stretchSpans (before ++ core ++ after) =
      [.blanks before, .code (String.ofList core), .blanks after] := by
  have back : (before ++ core ++ after).reverse =
      after.reverse ++ core.reverse ++ before.reverse := by simp
  rw [stretchSpans, trim_blanks_append hb firm ha, if_neg firm.ne_nil,
    takeWhile_blanks_append hb firm, back, takeWhile_blanks_append ha.reverse firm.reverse,
    List.reverse_reverse]

theorem written_stretchSpans (text : String) :
    (stretchSpans text.toList).flatMap Span.written = (span text).toList := by
  unfold stretchSpans span
  dsimp only
  split
  · rename_i blank
    simp [blank, Span.written]
  · rename_i inner
    split
    · contradiction
    · simp [Span.written]

theorem shown_stretchSpans (text : List Char) :
    (stretchSpans text).flatMap Span.shown = text := by
  rcases allBlank_or_firm text with blank | ⟨before, core, after, rfl, hb, firm, ha⟩
  · rw [stretchSpans_of_allBlank blank]
    exact List.append_nil text
  · rw [stretchSpans_append hb firm ha]
    simp [Span.shown]

theorem sound_stretchSpans (text : List Char) : ∀ span ∈ stretchSpans text, span.Sound := by
  rcases allBlank_or_firm text with blank | ⟨before, core, after, rfl, hb, firm, ha⟩
  · rw [stretchSpans_of_allBlank blank]
    exact List.forall_mem_singleton.mpr blank
  · rw [stretchSpans_append hb firm ha]
    have code : Firm (String.ofList core).toList := by rwa [String.toList_ofList]
    simp only [List.forall_mem_cons]
    exact ⟨hb, code, ha, List.forall_mem_nil _⟩

/-! ## Signatures -/

/-- The spans of a signature in a heading. -/
def signatureSpans (page : Page) (heading : Heading) : List Span :=
  Span.trimmed ((page.partsOf heading).flatMap Part.spans)

theorem sound_partsOf (page : Page) (heading : Heading) :
    ∀ span ∈ (page.partsOf heading).flatMap Part.spans, span.Sound := by
  intro span hs
  obtain ⟨part, hp, hs⟩ := List.mem_flatMap.mp hs
  cases part with
  | stretch text => exact sound_stretchSpans _ span hs
  | link name anchor =>
    obtain ⟨named, -⟩ := (link_mem_partsFrom "").mp hp
    obtain rfl := List.mem_singleton.mp hs
    rcases Token.neat_of_mem_tokenize named with firm | ⟨styled, -⟩
    · exact firm
    · cases styled

theorem written_partsFrom (page : Page) (scope pending : String) (tokens : List Token) :
    ((page.partsFrom scope pending tokens).flatMap Part.spans).flatMap Span.written =
      (spans page scope pending tokens).toList := by
  have part (part : Part) : part.spans.flatMap Span.written = part.render.toList := by
    cases part with
    | stretch text => exact written_stretchSpans text
    | link name anchor => exact List.append_nil _
  rw [spans_eq, List.flatMap_assoc]
  simp only [part]
  generalize page.partsFrom scope pending tokens = parts
  induction parts with
  | nil => rfl
  | cons first rest ih =>
    rw [List.flatMap_cons, ih, List.map_cons, String.join_cons, String.toList_append]

theorem shown_partsFrom (page : Page) (scope pending : String) (tokens : List Token) :
    ((page.partsFrom scope pending tokens).flatMap Part.spans).flatMap Span.shown =
      pending.toList ++ tokens.flatMap fun token => token.display.toList := by
  induction tokens generalizing pending with
  | nil => simp [partsFrom, Part.spans, shown_stretchSpans]
  | cons token rest ih =>
    rw [partsFrom]
    cases ht : page.target? scope token with
    | none => simp [ih]
    | some pair =>
      obtain ⟨name, anchor⟩ := pair
      obtain ⟨rfl, -⟩ := target?_eq_some_iff.mp ht
      simp [ih, Part.spans, shown_stretchSpans, Span.shown, Token.display]

/-- The signature of a heading is written in its spans. -/
theorem toList_renderSignature (page : Page) (heading : Heading) :
    (page.renderSignature heading.signature heading.scope).toList =
      (page.signatureSpans heading).flatMap Span.written := by
  rw [renderSignature, String.toList_ofList, ← written_partsFrom]
  exact Span.trim_written (page.sound_partsOf heading)

/-- Without the marks of code and of links the signature of a heading is shown with the blanks that
its tokens ask for. -/
theorem shown_signatureSpans (page : Page) (heading : Heading) :
    (page.signatureSpans heading).flatMap Span.shown =
      (Token.normalize heading.signature).toList := by
  rw [Token.toList_normalize, signatureSpans, ← Span.trim_shown (page.sound_partsOf heading),
    partsOf, shown_partsFrom]
  rfl

theorem sound_signatureSpans (page : Page) (heading : Heading) :
    ∀ span ∈ page.signatureSpans heading, span.Sound := fun span hs =>
  page.sound_partsOf heading span (Span.mem_of_mem_trimmed hs)

end SchemaDoc.Page
