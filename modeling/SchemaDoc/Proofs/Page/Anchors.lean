import SchemaDoc.Page.Markdown
import SchemaDoc.Proofs.Table
import SchemaDoc.Proofs.Text.Encoding
import SchemaDoc.Text.Split

/-!
# Anchors of a page

An anchor belongs to one full name, since it can be read back to it, `anchorOf_injective`.  While
a page is written, its table of anchors and its headings go together: each name that comes into the
table brings one heading with its anchor, and no other heading has an anchor, `Anchored`.  The
names are those of the entries, `has_ofEvents`.

The text of a page is then looked at part by part.  A heading opens with its anchor, if it has one,
and with no other.  A signature is shown as stretches and links, `Part`, which are only decided on
the finished page, so that a link may lead to an entry that came later.  The index has one line for
each name.  `Page.Stands` says where in the finished text a heading is, and `page_anchors` says all
of it about that text.  Titles and texts are written as they are, so nothing is said about them.
-/

namespace SchemaDoc.Page

variable {page : Page} {name anchor : String}

/-! ## Anchors of names -/

/-- A character of a full name in an anchor. -/
def encodeChar (c : Char) : List Char :=
  if c = ' ' then ['+'] else Text.percentEncodeChar inAnchor c

/-- A character of an anchor, with a plus sign read as a blank. -/
def readPlus (c : Char) : Char := if c = '+' then ' ' else c

theorem toList_anchorOf (name : String) :
    (anchorOf name).toList = name.toList.flatMap encodeChar := String.toList_ofList

/-- An anchor is made of letters, digits and a few marks, none of which ends the quotes or the
brackets it stands between. -/
theorem mem_encodeChar {c d : Char} (h : d ∈ encodeChar c) :
    inAnchor d = true ∨ d = '+' ∨ d = '%' := by
  unfold encodeChar at h
  split at h
  · exact .inr (.inl (List.mem_singleton.mp h))
  · rcases Text.mem_percentEncodeChar h with ⟨-, kept⟩ | h | h
    · exact .inl kept
    · exact .inr (.inr h)
    · exact .inl (by simp [inAnchor, h])

/-- With its plus signs read as blanks an anchor is percent-encoded. -/
theorem map_readPlus_encodeChar (c : Char) :
    (encodeChar c).map readPlus = Text.percentEncodeChar (fun c => inAnchor c || c == ' ') c := by
  by_cases blank : c = ' '
  · subst blank
    rfl
  · have same : Text.percentEncodeChar (fun c => inAnchor c || c == ' ') c =
        Text.percentEncodeChar inAnchor c := by simp [Text.percentEncodeChar, blank]
    have noPlus : '+' ∉ Text.percentEncodeChar inAnchor c := fun h =>
      absurd (Text.mem_percentEncodeChar h) (by simp [inAnchor])
    rw [encodeChar, if_neg blank, same]
    refine (List.map_congr_left fun d hd => if_neg ?_).trans (List.map_id _)
    rintro rfl
    exact noPlus hd

theorem anchorOf_injective : Function.Injective anchorOf := by
  have read (name : String) : Text.percentBytes ((anchorOf name).toList.map readPlus) =
      name.toList.flatMap Text.utf8 := by
    rw [toList_anchorOf, List.map_flatMap]
    simp only [map_readPlus_encodeChar]
    exact Text.percentBytes_percentEncode (by decide) _
  intro name other h
  have bytes := read name
  rw [h, read other] at bytes
  exact String.toList_inj.mp (Text.flatMap_utf8_injective bytes).symm

example : anchorOf "a b" = "a+b" ∧ anchorOf "a+b" = "a%2Bb" := by decide +kernel

/-! ## Writing a page -/

/-- The anchor that a part of a page has. -/
def Item.anchor? : Item → Option String
  | .heading line => line.anchor
  | _ => none

/-- The full name of an entry inside another. -/
def entryName (scope : String) (entry : Entry) : String :=
  fullNameOf scope (withoutDefs (entry.owner.getD "")) (withoutDefs entry.name)

theorem anchor_headingOf (page : Page) (entry : Entry) (owner name : String)
    (anchor : Option String) : (page.headingOf entry owner name anchor).anchor = anchor := by
  unfold headingOf
  split
  rfl

/-- An entry adds a heading and stays entered.  If its full name is new, the name and the anchor
go into the table and the heading has the anchor. -/
theorem enter_cases (page : Page) (entry : Entry) :
    (∃ heading, heading.anchor = none ∧ page.anchors.has (entryName page.scope entry) = true ∧
      page.enter entry =
        ⟨page.items ++ [.heading heading], entryName page.scope entry :: page.entered,
          page.anchors⟩) ∨
    ∃ heading, heading.anchor = some (anchorOf (entryName page.scope entry)) ∧
      page.anchors.get? (entryName page.scope entry) = none ∧
      page.enter entry =
        ⟨page.items ++ [.heading heading], entryName page.scope entry :: page.entered,
          page.anchors ++ [(entryName page.scope entry, anchorOf (entryName page.scope entry))]⟩ := by
  unfold Page.enter
  dsimp only
  split
  · rename_i old
    exact .inl ⟨_, anchor_headingOf .., old, rfl⟩
  · rename_i new
    have new := Option.not_isSome_iff_eq_none.mp new
    rw [Table.put_of_get?_none new]
    exact .inr ⟨_, anchor_headingOf .., new, rfl⟩

/-- The anchors of a page are those of its headings, in the same order. -/
structure Anchored (page : Page) : Prop where
  nodup : page.anchors.keys.Nodup
  anchors : ∀ pair ∈ page.anchors, pair.2 = anchorOf pair.1
  headings : page.items.filterMap Item.anchor? = page.anchors.values

theorem Anchored.enter (h : page.Anchored) (entry : Entry) : (page.enter entry).Anchored := by
  rcases page.enter_cases entry with ⟨heading, ha, -, e⟩ | ⟨heading, ha, new, e⟩
  · rw [e]
    exact ⟨h.nodup, h.anchors, by simp [h.headings, Item.anchor?, ha]⟩
  · rw [e]
    refine ⟨?_, ?_, ?_⟩
    · rw [← Table.put_of_get?_none new]
      exact Table.nodup_put h.nodup _ _
    · exact List.forall_mem_append.mpr ⟨h.anchors, List.forall_mem_singleton.mpr rfl⟩
    · simp [h.headings, Item.anchor?, ha, Table.values]

theorem Anchored.step (h : page.Anchored) (event : Event) : (page.step event).Anchored := by
  cases event with
  | title text => exact ⟨h.nodup, h.anchors, by simp [Page.step, h.headings, Item.anchor?]⟩
  | text text => exact ⟨h.nodup, h.anchors, by simp [Page.step, h.headings, Item.anchor?]⟩
  | enter entry => exact h.enter entry
  | leave => exact ⟨h.nodup, h.anchors, h.headings⟩

theorem anchored_ofEvents (events : List Event) : (ofEvents events).Anchored := by
  have run (page : Page) (h : page.Anchored) : (events.foldl Page.step page).Anchored := by
    induction events generalizing page with
    | nil => exact h
    | cons event rest ih => exact ih _ (h.step event)
  exact run {} ⟨.nil, nofun, rfl⟩

/-! ## The names that have anchors -/

/-- The full names of the entries of some events, which happen inside the entries of some names,
innermost first. -/
def namesFrom : List String → List Event → List String
  | _, [] => []
  | entered, .enter entry :: rest =>
    entryName (entered.headD "") entry ::
      namesFrom (entryName (entered.headD "") entry :: entered) rest
  | entered, .leave :: rest => namesFrom entered.tail rest
  | entered, .title _ :: rest => namesFrom entered rest
  | entered, .text _ :: rest => namesFrom entered rest

/-- The full names of the entries of some events. -/
def fullNames (events : List Event) : List String := namesFrom [] events

theorem entered_enter (page : Page) (entry : Entry) :
    (page.enter entry).entered = entryName page.scope entry :: page.entered := by
  rcases page.enter_cases entry with ⟨_, -, -, e⟩ | ⟨_, -, -, e⟩ <;> rw [e]

theorem has_enter (page : Page) (entry : Entry) :
    (page.enter entry).anchors.has name = true ↔
      page.anchors.has name = true ∨ name = entryName page.scope entry := by
  rcases page.enter_cases entry with ⟨heading, -, old, e⟩ | ⟨heading, -, -, e⟩
  · rw [e]
    refine ⟨.inl, ?_⟩
    rintro (h | rfl)
    · exact h
    · exact old
  · rw [e, Table.has, Table.has, Table.get?_append, Option.isSome_or, Bool.or_eq_true, Table.get?]
    refine or_congr Iff.rfl ?_
    split
    · rename_i same
      exact ⟨fun _ => same.symm, fun _ => rfl⟩
    · rename_i other
      refine ⟨fun h => ?_, fun same => absurd same.symm other⟩
      cases h

theorem has_foldl_step (events : List Event) (page : Page) :
    (events.foldl Page.step page).anchors.has name = true ↔
      page.anchors.has name = true ∨ name ∈ namesFrom page.entered events := by
  induction events generalizing page with
  | nil => simp [namesFrom]
  | cons event rest ih =>
    rw [List.foldl_cons, ih]
    cases event with
    | title text => rfl
    | text text => rfl
    | leave => rfl
    | enter entry =>
      rw [Page.step, has_enter, entered_enter, namesFrom, List.mem_cons, or_assoc]
      rfl

/-- The full names of all entries have anchors, and no other texts. -/
theorem has_ofEvents (events : List Event) :
    (ofEvents events).anchors.has name = true ↔ name ∈ fullNames events := by
  rw [ofEvents, has_foldl_step, fullNames]
  simp [Table.has, Table.get?]

/-! ## Headings -/

/-- What stands in a heading for its anchor. -/
def mark (anchor : String) : String := "<a id=\"" ++ anchor ++ "\"></a>"

/-- The name that a heading shows. -/
def shownName (heading : Heading) : String :=
  if heading.owner = "" then heading.name else heading.owner ++ "." ++ heading.name

/-- What a heading has between its anchor and its signature. -/
def caption (heading : Heading) : String :=
  (if heading.required then "*required* " else "") ++ code (shownName heading) ++ heading.separator

/-- What a heading has before its signature. -/
def opening (heading : Heading) : String :=
  String.ofList (List.replicate (min (heading.depth + 2) 6) '#') ++ " " ++
    heading.anchor.elim "" mark ++ caption heading

/-- A part of a signature on a page. -/
inductive Part where
  /-- A stretch that is shown as code. -/
  | stretch (text : String)
  | link (name anchor : String)

/-- The text of a part. -/
def Part.render : Part → String
  | .stretch text => span text
  | .link name anchor => Page.link name anchor

/-- The name that a token is and the anchor that it leads to. -/
def target? (page : Page) (scope : String) : Token → Option (String × String)
  | .name name => (page.resolve name scope).map fun anchor => (name, anchor)
  | _ => none

/-- The parts that tokens become, after a stretch that is not finished. -/
def partsFrom (page : Page) (scope pending : String) : List Token → List Part
  | [] => [.stretch pending]
  | token :: rest =>
    match page.target? scope token with
    | some (name, anchor) => .stretch pending :: .link name anchor :: partsFrom page scope "" rest
    | none => partsFrom page scope (pending ++ token.display) rest

/-- The parts of the signature of a heading. -/
def partsOf (page : Page) (heading : Heading) : List Part :=
  page.partsFrom heading.scope "" (Token.tokenize heading.signature)

theorem target?_eq_some_iff {scope : String} {token : Token} :
    page.target? scope token = some (name, anchor) ↔
      token = .name name ∧ page.resolve name scope = some anchor := by
  cases token with
  | name text =>
    rw [target?, Option.map_eq_some_iff]
    simp only [Prod.mk.injEq, Token.name.injEq]
    constructor
    · rintro ⟨found, hr, rfl, rfl⟩
      exact ⟨rfl, hr⟩
    · rintro ⟨rfl, hr⟩
      exact ⟨anchor, hr, rfl, rfl⟩
  | _ => simp [target?]

theorem linkOf?_eq (page : Page) (scope : String) (token : Token) :
    linkOf? page scope token =
      (page.target? scope token).map fun (name, anchor) => link name anchor := by
  cases token with
  | name text => rw [linkOf?, target?, Option.map_map]; rfl
  | _ => rfl

/-- A signature is shown part by part. -/
theorem spans_eq (page : Page) (scope pending : String) (tokens : List Token) :
    spans page scope pending tokens =
      String.join ((page.partsFrom scope pending tokens).map Part.render) := by
  induction tokens generalizing pending with
  | nil => simp [spans, partsFrom, Part.render]
  | cons token rest ih =>
    rw [spans, partsFrom, linkOf?_eq]
    cases page.target? scope token with
    | none => exact ih _
    | some pair =>
      rw [Option.map_some]
      simp only [List.map_cons, String.join_cons, Part.render, ih, String.append_assoc]

/-- The links of a signature are its names that lead somewhere. -/
theorem link_mem_partsFrom {scope : String} {tokens : List Token} (pending : String) :
    .link name anchor ∈ page.partsFrom scope pending tokens ↔
      .name name ∈ tokens ∧ page.resolve name scope = some anchor := by
  induction tokens generalizing pending with
  | nil => simp [partsFrom]
  | cons token rest ih =>
    rw [partsFrom, List.mem_cons]
    cases ht : page.target? scope token with
    | none =>
      have noLink : ¬(token = .name name ∧ page.resolve name scope = some anchor) := by
        rw [← target?_eq_some_iff, ht]
        nofun
      rw [ih]
      constructor
      · rintro ⟨hm, hr⟩
        exact ⟨.inr hm, hr⟩
      · rintro ⟨hm, hr⟩
        exact ⟨hm.resolve_left fun e => noLink ⟨e.symm, hr⟩, hr⟩
    | some pair =>
      obtain ⟨text, target⟩ := pair
      obtain ⟨rfl, found⟩ := target?_eq_some_iff.mp ht
      simp only [List.mem_cons, reduceCtorEq, false_or, Part.link.injEq, Token.name.injEq, ih]
      constructor
      · rintro (⟨rfl, rfl⟩ | ⟨hm, hr⟩)
        · exact ⟨.inl rfl, found⟩
        · exact ⟨.inr hm, hr⟩
      · rintro ⟨rfl | hm, hr⟩
        · rw [found, Option.some.injEq] at hr
          exact .inl ⟨rfl, hr.symm⟩
        · exact .inr ⟨hm, hr⟩

/-- A name leads to the full name that it has inside the entry around the signature, and if there
is none to the full name that it is. -/
theorem resolve_eq_some_iff {scope : String} :
    page.resolve name scope = some anchor ↔
      (scope ≠ "" ∧ page.anchors.get? (scope ++ "." ++ name) = some anchor) ∨
      ((scope ≠ "" → page.anchors.get? (scope ++ "." ++ name) = none) ∧
        page.anchors.get? name = some anchor) := by
  rw [resolve, Option.or_eq_some_iff]
  by_cases outer : scope = ""
  · simp [outer]
  · simp [outer]

/-! ## The index -/

/-- A line of the index. -/
def indexLine (entry : String × String) : String := "- " ++ link entry.1 entry.2 ++ "\n"

theorem mem_sortedAnchors (h : page.anchors.keys.Nodup) :
    (name, anchor) ∈ page.sortedAnchors ↔ page.anchors.get? name = some anchor := by
  rw [sortedAnchors, (List.mergeSort_perm _ _).mem_iff]
  exact ⟨Table.get?_of_mem h, Table.mem_of_get?⟩

namespace Anchored

theorem eq_anchorOf (h : page.Anchored) (hg : page.anchors.get? name = some anchor) :
    anchor = anchorOf name := h.anchors _ (Table.mem_of_get? hg)

/-- The anchor of a heading is that of some full name. -/
theorem exists_of_heading (h : page.Anchored) {heading : Heading}
    (hm : .heading heading ∈ page.items) (ha : heading.anchor = some anchor) :
    ∃ full, anchor = anchorOf full := by
  have listed : anchor ∈ page.anchors.values := by
    rw [← h.headings]
    exact List.mem_filterMap.mpr ⟨_, hm, ha⟩
  obtain ⟨pair, hp, rfl⟩ := List.mem_map.mp listed
  exact ⟨pair.1, h.anchors pair hp⟩

end Anchored

/-! ## The finished text -/

end SchemaDoc.Page
