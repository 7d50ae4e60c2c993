import SchemaDoc.Proofs.Page.Links
import SchemaDoc.Proofs.Page.Reading
import SchemaDoc.Proofs.Page.Spans

/-!
# The code on a page

A heading is a line of code and other text, `Page.headingPieces`: its name is code, and so are the
names that are links and what stands between them in its signature.  A line of the index has one
name.  No tick stands beside the code: behind a name comes a separator or the end of a link, and two
stretches of a signature have a link between them, `Page.apart_partsFrom`.  Trimming takes pieces
from the ends only.

So whether a line is read as it was meant depends on the texts of its code, one by one:
`code_lasts_iff`.
-/

namespace SchemaDoc.Page

open Text Markdown

/-! ## Pieces that are put together -/

section Heads

variable {left right : List Char} {c : Char}

theorem head?_append_ne (hl : left.head? ≠ some c) (hr : right.head? ≠ some c) :
    (left ++ right).head? ≠ some c := by
  cases left with
  | nil => exact hr
  | cons _ _ => exact hl

theorem head?_ne_of_append (h : (left ++ right).head? ≠ some c) : left.head? ≠ some c := by
  cases left with
  | nil => exact (Option.some_ne_none c).symm
  | cons _ _ => exact h

end Heads

namespace Apart

variable {front back : List Piece}

theorem right (h : Apart (front ++ back)) : Apart back := by
  induction front with
  | nil => exact h
  | cons piece rest ih =>
    cases h with
    | plain _ h => exact ih h
    | code h _ => exact ih h

theorem left (h : Apart (front ++ back)) : Apart front := by
  induction front with
  | nil => exact .nil
  | cons piece rest ih =>
    rw [List.cons_append] at h
    cases h with
    | plain noTick h => exact .plain noTick (ih h)
    | code h next =>
      rw [List.flatMap_append] at next
      exact .code (ih h) (head?_ne_of_append next)

theorem append (hl : Apart front) (hr : Apart back)
    (next : (back.flatMap Piece.written).head? ≠ some '\x60') : Apart (front ++ back) := by
  induction hl with
  | nil => exact hr
  | plain noTick _ ih => exact .plain noTick ih
  | code h own ih =>
    rw [List.cons_append]
    refine .code ih ?_
    rw [List.flatMap_append]
    exact head?_append_ne own next

end Apart

/-! ## Signatures -/

/-- The pieces of a span. -/
def Span.pieces : Span → List Piece
  | .blanks text => [.plain text]
  | .code text => [.code text]
  | .link name anchor =>
    [.plain ['['], .code name, .plain (']' :: '(' :: '#' :: anchor.toList ++ [')'])]

theorem written_pieces (span : Span) : span.pieces.flatMap Piece.written = span.written := by
  cases span with
  | blanks text => exact List.append_nil _
  | code text => exact List.append_nil _
  | link name anchor => simp [Span.pieces, Piece.written, Span.written, link]

theorem tick_not_mem_of_allBlank {blanks : List Char} (h : AllBlank blanks) : '\x60' ∉ blanks :=
  fun mem => absurd (h _ mem) (by decide)

/-- A stretch is one piece of code at most, and a link may follow. -/
theorem apart_stretchSpans (text : List Char) {rest : List Piece} (h : Apart rest)
    (next : (rest.flatMap Piece.written).head? ≠ some '\x60') :
    Apart ((stretchSpans text).flatMap Span.pieces ++ rest) := by
  rcases allBlank_or_firm text with blank | ⟨before, core, after, rfl, hb, firm, ha⟩
  · rw [stretchSpans_of_allBlank blank]
    exact .plain (tick_not_mem_of_allBlank blank) h
  · rw [stretchSpans_append hb firm ha]
    have noTick := tick_not_mem_of_allBlank ha
    refine .plain (tick_not_mem_of_allBlank hb) (.code (.plain noTick h) ?_)
    exact head?_append_ne (fun same => noTick (List.mem_of_head? same)) next

theorem tick_anchorOf (name : String) : '\x60' ∉ (anchorOf name).toList := by
  intro h
  rw [toList_anchorOf] at h
  obtain ⟨c, -, h⟩ := List.mem_flatMap.mp h
  exact absurd (mem_encodeChar h) (by decide)

variable {page : Page}

theorem tick_of_resolve (h : page.Anchored) {name scope anchor : String}
    (leads : page.resolve name scope = some anchor) : '\x60' ∉ anchor.toList := by
  rcases resolve_eq_some_iff.mp leads with ⟨-, hg⟩ | ⟨-, hg⟩
  all_goals
    rw [h.eq_anchorOf hg]
    exact tick_anchorOf _

theorem apart_partsFrom (h : page.Anchored) (scope pending : String) (tokens : List Token) :
    Apart (((page.partsFrom scope pending tokens).flatMap Part.spans).flatMap Span.pieces) := by
  induction tokens generalizing pending with
  | nil =>
    have last := apart_stretchSpans pending.toList .nil (by simp)
    rw [List.append_nil] at last
    simpa [partsFrom, Part.spans] using last
  | cons token rest ih =>
    rw [partsFrom]
    cases ht : page.target? scope token with
    | none => exact ih _
    | some pair =>
      obtain ⟨name, anchor⟩ := pair
      obtain ⟨rfl, leads⟩ := target?_eq_some_iff.mp ht
      have noTick := tick_of_resolve h leads
      simp only [List.flatMap_cons, List.flatMap_append, Part.spans, List.singleton_append]
      refine apart_stretchSpans _ (.plain (by decide) (.code (.plain ?_ (ih "")) ?_)) ?_
      · simp [noTick]
      · simp [Piece.written]
      · simp [Span.pieces, Piece.written]

theorem apart_signatureSpans (h : page.Anchored) (heading : Heading) :
    Apart ((page.signatureSpans heading).flatMap Span.pieces) := by
  have all := apart_partsFrom h heading.scope "" (Token.tokenize heading.signature)
  change Apart (((page.partsOf heading).flatMap Part.spans).flatMap Span.pieces) at all
  rw [signatureSpans, Span.trimmed]
  generalize (page.partsOf heading).flatMap Part.spans = spans at all ⊢
  have front : spans.takeWhile Span.isBlanks ++ spans.dropWhile Span.isBlanks = spans :=
    List.takeWhile_append_dropWhile
  obtain ⟨back, whole⟩ := List.rdropWhile_prefix Span.isBlanks (spans.dropWhile Span.isBlanks)
  rw [← front, List.flatMap_append] at all
  rw [← whole, List.flatMap_append] at all
  exact all.right.left

theorem signatureSpans_of_empty {heading : Heading} (h : heading.signature = "") :
    page.signatureSpans heading = [] := by
  rw [signatureSpans, partsOf, h]
  rfl

/-! ## Headings -/

/-- The pieces of a heading. -/
def headingPieces (page : Page) (heading : Heading) : List Piece :=
  let level := List.replicate (min (heading.depth + 2) 6) '#'
  let required := if heading.required then "*required* " else ""
  let deprecated := if heading.deprecated then " *(deprecated)*" else ""
  .plain (level ++ (" " ++ heading.anchor.elim "" mark ++ required).toList) ::
    .code (shownName heading) :: .plain heading.separator.toList ::
      ((page.signatureSpans heading).flatMap Span.pieces ++ [.plain deprecated.toList])

theorem toList_renderHeading (page : Page) (heading : Heading) :
    (page.renderHeading heading).toList = (page.headingPieces heading).flatMap Piece.written := by
  have signature : ((page.signatureSpans heading).flatMap Span.pieces).flatMap Piece.written =
      (page.renderSignature heading.signature heading.scope).toList := by
    rw [toList_renderSignature, List.flatMap_assoc]
    simp only [written_pieces]
  rw [headingPieces, List.flatMap_cons, List.flatMap_cons, List.flatMap_cons, List.flatMap_append,
    signature, renderHeading]
  cases heading.anchor <;> simp [Piece.written, shownName, mark]

/-- Every heading of a page is that of an entry. -/
def Headed (page : Page) : Prop := ∀ heading, .heading heading ∈ page.items →
  ∃ around entry owner name anchor, heading = headingOf around entry owner name anchor

theorem Headed.step (h : page.Headed) (event : Event) : (page.step event).Headed := by
  intro heading hm
  cases event with
  | enter entry =>
    rw [Page.step, items_enter] at hm
    rcases List.mem_append.mp hm with hm | same
    · exact h heading hm
    · exact ⟨_, _, _, _, _, Item.heading.inj (List.mem_singleton.mp same)⟩
  | title _ | text _ =>
    rcases List.mem_append.mp hm with hm | other
    · exact h heading hm
    · cases List.mem_singleton.mp other
  | leave => exact h heading hm

theorem headed_ofEvents (events : List Event) : (ofEvents events).Headed := by
  have run (page : Page) (h : page.Headed) : (events.foldl Page.step page).Headed := by
    induction events generalizing page with
    | nil => exact h
    | cons event rest ih => exact ih _ (h.step event)
  exact run {} nofun

/-- A heading with no separator has no signature. -/
theorem separator_headingOf (page : Page) (entry : Entry) (owner name : String)
    (anchor : Option String) :
    let heading := page.headingOf entry owner name anchor
    heading.separator = ": " ∨ heading.separator = " = " ∨
      heading.separator = "" ∧ heading.signature = "" := by
  unfold headingOf
  cases entry.signature <;> cases entry.default
  · exact .inr (.inr ⟨rfl, rfl⟩)
  · exact .inr (.inl rfl)
  · exact .inl rfl
  · exact .inl rfl

theorem apart_headingPieces (h : page.Anchored) (headed : page.Headed) {heading : Heading}
    (hm : .heading heading ∈ page.items) : Apart (page.headingPieces heading) := by
  have ends : Apart ((page.signatureSpans heading).flatMap Span.pieces ++
      [.plain (if heading.deprecated then " *(deprecated)*" else "").toList]) := by
    refine (apart_signatureSpans h heading).append (.plain ?_ .nil) ?_
    · split <;> decide
    · cases heading.deprecated <;> simp [Piece.written]
  have separated : heading.separator = ": " ∨ heading.separator = " = " ∨
      heading.separator = "" ∧ heading.signature = "" := by
    obtain ⟨around, entry, owner, name, anchor, rfl⟩ := headed heading hm
    exact separator_headingOf ..
  refine .plain ?_ (.code (.plain ?_ ends) ?_)
  · have marked : '\x60' ∉ (heading.anchor.elim "" mark).toList := by
      cases ha : heading.anchor with
      | none => simp
      | some anchor =>
        obtain ⟨full, rfl⟩ := h.exists_of_heading hm ha
        simp [mark, tick_anchorOf]
    cases heading.required <;> simp [marked]
  · rcases separated with same | same | ⟨same, -⟩ <;> rw [same] <;> decide
  · rw [List.flatMap_cons]
    rcases separated with same | same | ⟨same, empty⟩
    · simp [Piece.written, same]
    · simp [Piece.written, same]
    · rw [signatureSpans_of_empty empty]
      cases heading.deprecated <;> simp [Piece.written, same]

/-! ## The index -/

/-- The pieces of a line of the index. -/
def indexPieces (entry : String × String) : List Piece :=
  [.plain "- [".toList, .code entry.1, .plain ("](#" ++ entry.2 ++ ")\n").toList]

theorem toList_indexLine (entry : String × String) :
    (indexLine entry).toList = (indexPieces entry).flatMap Piece.written := by
  simp [indexLine, indexPieces, link, Piece.written]

theorem apart_indexPieces (h : page.Anchored) {entry : String × String}
    (hm : entry ∈ page.sortedAnchors) : Apart (indexPieces entry) := by
  rw [indexPieces, h.eq_anchorOf ((mem_sortedAnchors h.nodup).mp hm)]
  refine .plain (by decide) (.code (.plain ?_ .nil) (by simp [Piece.written]))
  simp [tick_anchorOf]

/-! ## Where code spans end -/

/-- A text as code stands between two delimiters, and a run of ticks in it that is as long as they
are is a run of two.  As Markdown it is read as one code span exactly if there is no such run and
the text is not empty.  The headings and the index of a page are read as they were meant, each code
span up to its own end and all else as it is, exactly if this holds of each text in code there, that
is of the name, of the links of the signature and of the stretches between them; and a heading has
to be on one line. -/
theorem code_lasts_iff (events : List Event) :
    let page := ofEvents events
    (∀ text : String,
      (code text).toList = List.replicate (delimiter text) '\x60' ++ padded text ++
        List.replicate (delimiter text) '\x60' ∧
      (.ticks (delimiter text) ∈ chunks (padded text) ↔ .ticks 2 ∈ chunks text.toList) ∧
      (reading (code text).toList = [.code (padded text)] ↔ Lasting text)) ∧
    (∀ heading, .heading heading ∈ page.items →
      (page.renderHeading heading).toList = (page.headingPieces heading).flatMap Piece.written ∧
      (reading (firstLine (page.renderHeading heading).toList) =
          (page.headingPieces heading).flatMap Piece.meant ↔
        (∀ piece ∈ page.headingPieces heading, OneLine piece.text) ∧
          ∀ text, .code text ∈ page.headingPieces heading → Lasting text)) ∧
    ∀ entry ∈ page.sortedAnchors,
      (indexLine entry).toList = (indexPieces entry).flatMap Piece.written ∧
      (reading (indexLine entry).toList = (indexPieces entry).flatMap Piece.meant ↔
        Lasting entry.1) := by
  intro page
  have anchored : page.Anchored := anchored_ofEvents events
  refine ⟨fun text => ⟨toList_code text, delimiter_mem_padded_iff text, ?_⟩,
    fun heading hm => ⟨page.toList_renderHeading heading, ?_⟩,
    fun entry hm => ⟨toList_indexLine entry, ?_⟩⟩
  · have alone := reading_flatMap_eq_iff (.code .nil (by simp) : Apart [.code text])
    simpa [Piece.written, Piece.meant] using alone
  · rw [page.toList_renderHeading heading]
    exact reading_firstLine_eq_iff
      (apart_headingPieces anchored (headed_ofEvents events) hm)
  · rw [toList_indexLine, reading_flatMap_eq_iff (apart_indexPieces anchored hm)]
    simp [indexPieces]

/-- A page with a name that has two ticks. -/
def ticked : List Event := [.enter { kind := .setting, name := "a\x60\x60b" }]

/-- Neither in its heading nor in the index the name is read as it was meant. -/
theorem ticked_code_lasts_iff :
    ∃ heading, .heading heading ∈ (ofEvents ticked).items ∧
      reading (firstLine ((ofEvents ticked).renderHeading heading).toList) ≠
        ((ofEvents ticked).headingPieces heading).flatMap Piece.meant ∧
    ∃ entry ∈ (ofEvents ticked).sortedAnchors,
      reading (indexLine entry).toList ≠ (indexPieces entry).flatMap Piece.meant := by
  have broken : ¬Lasting "a\x60\x60b" := by decide
  obtain ⟨-, headings, index⟩ := code_lasts_iff ticked
  have shown : (ofEvents ticked).items = [.heading ⟨0, some "a%60%60b", false, false, "",
      "a\x60\x60b", "", "", ""⟩] := by decide +kernel
  have listed : (ofEvents ticked).sortedAnchors = [("a\x60\x60b", "a%60%60b")] := by decide +kernel
  refine ⟨_, shown ▸ List.mem_singleton_self _, fun read => ?_, _,
    listed ▸ List.mem_singleton_self _, fun read => ?_⟩
  · have lasting := ((headings _ (shown ▸ List.mem_singleton_self _)).2.mp read).2
    exact broken (lasting _ (by simp [headingPieces, shownName]))
  · exact broken ((index _ (listed ▸ List.mem_singleton_self _)).2.mp read)

end SchemaDoc.Page
