import SchemaDoc.Proofs.Documentation.Events
import SchemaDoc.Proofs.Page.Anchors

/-!
# Where links lead

An entry that is entered where none is has a heading of its own at depth zero, and the heading has
an anchor unless an earlier entry has that full name, `heading_outermost`.  A link leads to the
anchor of the name that it shows, unless that name has an anchor inside the entry around the link,
`link_leads_iff`.  What a link leads to is thus the heading of an outermost entry exactly if no
earlier entry goes by the full name, and none inside the entry around the link by the name.
-/

namespace SchemaDoc.Page

variable {page : Page} {name anchor : String}

/-! ## The heading of an entry -/

/-- An entry adds a heading, which has an anchor if the full name is new. -/
theorem items_enter (page : Page) (entry : Entry) :
    (page.enter entry).items = page.items ++
      [.heading (page.headingOf entry (withoutDefs (entry.owner.getD "")) (withoutDefs entry.name)
        (if page.anchors.has (entryName page.scope entry) then none
          else some (anchorOf (entryName page.scope entry))))] := by
  unfold Page.enter
  dsimp only
  split
  · rename_i old
    rw [entryName, if_pos old]
  · rename_i new
    rw [entryName, if_neg new]

theorem depth_headingOf (page : Page) (entry : Entry) (owner name : String)
    (anchor : Option String) :
    (page.headingOf entry owner name anchor).depth = page.entered.length := by
  unfold headingOf
  split
  rfl

theorem name_headingOf (page : Page) (entry : Entry) (owner name : String)
    (anchor : Option String) : (page.headingOf entry owner name anchor).name = name := by
  unfold headingOf
  split
  rfl

/-! ## Writing on -/

/-- What is written stays as it is. -/
theorem items_prefix (events : List Event) :
    ∀ page : Page, page.items <+: (events.foldl Page.step page).items := by
  induction events with
  | nil => exact fun page => List.prefix_refl page.items
  | cons event rest ih =>
    intro page
    refine List.IsPrefix.trans ?_ (ih (page.step event))
    cases event with
    | title text => exact List.prefix_append _ _
    | text text => exact List.prefix_append _ _
    | enter entry => exact page.items_enter entry ▸ List.prefix_append _ _
    | leave => exact List.prefix_refl _

/-- A page keeps count of the entries that are entered. -/
theorem length_entered {events : List Event} : ∀ {page : Page} {depth : Nat},
    Event.depthAfter? page.entered.length events = some depth →
      (events.foldl Page.step page).entered.length = depth := by
  induction events with
  | nil => exact fun h => Option.some_inj.mp h
  | cons event rest ih =>
    intro page depth h
    refine @ih (page.step event) depth ?_
    cases event with
    | title text =>
      change Event.depthAfter? page.entered.length rest = some depth
      cases he : page.entered with
      | nil =>
        rw [he] at h
        exact h
      | cons _ _ =>
        rw [he] at h
        cases h
    | text text => exact h
    | enter entry =>
      change Event.depthAfter? (page.enter entry).entered.length rest = some depth
      rw [entered_enter]
      exact h
    | leave =>
      change Event.depthAfter? page.entered.tail.length rest = some depth
      cases he : page.entered with
      | nil =>
        rw [he] at h
        cases h
      | cons _ _ =>
        rw [he] at h
        exact h

/-! ## Outermost entries -/

/-- The full name of an entry outside all others is its name, unless it shows an owner. -/
theorem entryName_of_unowned {entry : Entry} (unowned : entry.owner = none) :
    entryName "" entry = withoutDefs entry.name := by
  rw [entryName, unowned]
  rfl

/-- An entry that is entered where none is has a heading at depth zero.  It has an anchor, which is
that of its name, unless the name is the full name of an earlier entry. -/
theorem heading_outermost (before later : List Event) (entry : Entry)
    (opened : Event.depthAfter? 0 before = some 0) (unowned : entry.owner = none) :
    ∃ own : Heading,
      (ofEvents (before ++ .enter entry :: later)).items[(ofEvents before).items.length]? =
        some (.heading own) ∧
      own.depth = 0 ∧ own.name = withoutDefs entry.name ∧
      own.anchor = if withoutDefs entry.name ∈ fullNames before then none
        else some (anchorOf (withoutDefs entry.name)) := by
  have entered : (ofEvents before).entered = [] :=
    List.length_eq_zero_iff.mp (length_entered opened)
  have scope : (ofEvents before).scope = "" := by rw [Page.scope, entered, List.headD_nil]
  have written : ofEvents (before ++ .enter entry :: later) =
      later.foldl Page.step ((ofEvents before).enter entry) := by
    rw [ofEvents, List.foldl_append, List.foldl_cons]
    rfl
  obtain ⟨more, stays⟩ := items_prefix later ((ofEvents before).enter entry)
  rw [← written, items_enter, scope, entryName_of_unowned unowned, List.append_assoc] at stays
  refine ⟨(ofEvents before).headingOf entry (withoutDefs (entry.owner.getD ""))
    (withoutDefs entry.name) (if (ofEvents before).anchors.has (withoutDefs entry.name) then none
      else some (anchorOf (withoutDefs entry.name))), ?_, ?depth, ?name, ?anchor⟩
  · rw [← stays, List.getElem?_append_right (Nat.le_refl _), Nat.sub_self]
    rfl
  case depth => rw [depth_headingOf, entered, List.length_nil]
  case name => rw [name_headingOf]
  case anchor =>
    rw [anchor_headingOf]
    exact if_congr (has_ofEvents before) rfl rfl

/-! ## Links -/

/-- A link leads to the anchor of the name that it shows if the name has none inside the entry
around the link, and else to that one. -/
theorem link_leads_iff (h : page.Anchored) {heading : Heading}
    (hl : .link name anchor ∈ page.partsOf heading) :
    anchor = anchorOf name ↔
      heading.scope = "" ∨ page.anchors.has (heading.scope ++ "." ++ name) = false := by
  obtain ⟨-, leads⟩ := (link_mem_partsFrom "").mp hl
  rcases resolve_eq_some_iff.mp leads with ⟨around, hg⟩ | ⟨nowhere, hg⟩
  · have inside : page.anchors.has (heading.scope ++ "." ++ name) = true := by
      rw [Table.has, hg]
      rfl
    have longer : heading.scope ++ "." ++ name ≠ name := by
      intro same
      have length := congrArg String.length same
      rw [String.length_append, String.length_append] at length
      have dot : ".".length = 1 := rfl
      omega
    rw [h.eq_anchorOf hg, inside]
    simp [anchorOf_injective.eq_iff, longer, around]
  · refine iff_of_true (h.eq_anchorOf hg) ?_
    by_cases outer : heading.scope = ""
    · exact .inl outer
    · rw [Table.has, nowhere outer]
      exact .inr rfl

/-- Whether some heading in a scope shows a link. -/
def hasLink (page : Page) (scope name anchor : String) : Bool :=
  page.items.any fun
    | .heading heading => decide (heading.scope = scope) &&
      (Token.tokenize heading.signature).contains (.name name) &&
      decide (page.resolve name scope = some anchor)
    | _ => false

theorem exists_of_hasLink {scope : String} (h : page.hasLink scope name anchor = true) :
    ∃ heading, .heading heading ∈ page.items ∧ heading.scope = scope ∧
      .link name anchor ∈ page.partsOf heading := by
  obtain ⟨item, hm, shown⟩ := List.any_eq_true.mp h
  cases item with
  | heading heading =>
    simp only [Bool.and_eq_true, decide_eq_true_eq, List.contains_iff_mem] at shown
    obtain ⟨⟨rfl, named⟩, leads⟩ := shown
    exact ⟨heading, hm, rfl, (link_mem_partsFrom "").mpr ⟨named, leads⟩⟩
  | _ => cases shown

end SchemaDoc.Page
