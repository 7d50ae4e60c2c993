import SchemaDoc.Proofs.Documentation.Linked
import SchemaDoc.Proofs.Page.Links

/-!
# Links to types

On the page of a documentation of everything each type that may not be inlined has a heading of its
own, that of its one outermost entry, `Event.existsUnique_precedes`.  A link that shows the name of
the type leads to that heading unless an entry comes between: an earlier one of the same full name,
to which the anchor belongs then, or one of that name inside the entry around the link, which is
found first.  `Session.type_links` says so, and that nothing else can come between.
-/

namespace SchemaDoc

/-! ## Where outermost entries are -/

namespace Event

/-- Some of the events come right before an outermost entry of a name. -/
def Precedes (name : String) (events before : List Event) : Prop :=
  ∃ entry later, events = before ++ .enter entry :: later ∧ entry.name = name ∧
    depthAfter? 0 before = some 0

theorem outermost_append {events : List Event} (others : List Event) : ∀ {depth last : Nat},
    depthAfter? depth events = some last →
      outermost depth (events ++ others) = outermost depth events ++ outermost last others := by
  induction events with
  | nil =>
    intro depth last h
    cases h
    rw [List.nil_append, outermost, List.nil_append]
  | cons event rest ih =>
    intro depth last h
    rw [List.cons_append]
    cases event with
    | title text =>
      cases depth with
      | zero => exact ih h
      | succ depth => cases h
    | text text =>
      rw [outermost, outermost]
      exact ih h
    | enter entry =>
      cases depth with
      | zero =>
        rw [outermost, outermost, List.cons_append]
        exact congrArg (entry :: ·) (ih h)
      | succ depth => exact ih h
    | leave =>
      cases depth with
      | zero => cases h
      | succ depth => exact ih h

/-- An outermost entry is entered where none is. -/
theorem exists_before {events : List Event} {entry : Entry} : ∀ {depth last : Nat},
    depthAfter? depth events = some last → entry ∈ outermost depth events →
      ∃ before later, events = before ++ .enter entry :: later ∧
        depthAfter? depth before = some 0 := by
  induction events with
  | nil =>
    intro depth last _ he
    rw [outermost] at he
    cases he
  | cons event rest ih =>
    intro depth last h he
    cases event with
    | title text =>
      cases depth with
      | zero =>
        obtain ⟨before, later, rfl, opened⟩ := ih h he
        exact ⟨.title text :: before, later, rfl, opened⟩
      | succ depth => cases h
    | text text =>
      rw [outermost] at he
      obtain ⟨before, later, rfl, opened⟩ := ih h he
      exact ⟨.text text :: before, later, rfl, opened⟩
    | enter head =>
      cases depth with
      | zero =>
        rcases List.mem_cons.mp he with rfl | he
        · exact ⟨[], rest, rfl, rfl⟩
        · obtain ⟨before, later, rfl, opened⟩ := ih h he
          exact ⟨.enter head :: before, later, rfl, opened⟩
      | succ depth =>
        obtain ⟨before, later, rfl, opened⟩ := ih h he
        exact ⟨.enter head :: before, later, rfl, opened⟩
    | leave =>
      cases depth with
      | zero => cases h
      | succ depth =>
        obtain ⟨before, later, rfl, opened⟩ := ih h he
        exact ⟨.leave :: before, later, rfl, opened⟩

theorem outermostNames_of_opened {before later : List Event} {entry : Entry}
    (opened : depthAfter? 0 before = some 0) :
    outermostNames (before ++ .enter entry :: later) =
      outermostNames before ++ entry.name :: (outermost 1 later).map Entry.name := by
  rw [outermostNames, outermost_append _ opened, List.map_append]
  rfl

/-- If a name has one outermost entry, there is one place where it is entered. -/
theorem existsUnique_precedes {name : String} {events : List Event}
    (closed : depthAfter? 0 events = some 0) (once : (outermostNames events).count name = 1) :
    ∃! before, Precedes name events before := by
  have first {before : List Event} (h : Precedes name events before) :
      name ∉ outermostNames before := by
    obtain ⟨entry, later, rfl, rfl, opened⟩ := h
    rw [outermostNames_of_opened opened, List.count_append, List.count_cons_self] at once
    exact List.count_eq_zero.mp (by omega)
  -- An entry of the name would come before another one's place.
  have shorter {before more : List Event} {event : Event} (h : Precedes name events before)
      (h' : Precedes name events (before ++ event :: more)) : False := by
    obtain ⟨entry, later, whole, named, opened⟩ := h
    obtain ⟨entry', later', whole', -, -⟩ := id h'
    rw [whole', List.append_assoc, List.append_cancel_left_eq, List.cons_append,
      List.cons.injEq] at whole
    refine first h' ?_
    rw [whole.1, outermostNames_of_opened opened, named]
    exact List.mem_append_right _ List.mem_cons_self
  have mem : name ∈ outermostNames events := List.count_pos_iff.mp (by omega)
  obtain ⟨entry, he, named⟩ := List.mem_map.mp mem
  obtain ⟨before, later, whole, opened⟩ := exists_before closed he
  have here : Precedes name events before := ⟨entry, later, whole, named, opened⟩
  refine ⟨before, here, fun other there => ?_⟩
  obtain ⟨_, _, whole', -, -⟩ := id there
  rcases List.append_eq_append_iff.mp (whole.symm.trans whole') with ⟨more, hm, -⟩ | ⟨more, hm, -⟩
  · cases more with
    | nil => rw [hm, List.append_nil]
    | cons event more => exact (shorter here (hm ▸ there)).elim
  · cases more with
    | nil => rw [hm, List.append_nil]
    | cons event more => exact (shorter there (hm ▸ here)).elim

end Event

/-! ## Owners -/

namespace Documentation

open Block (eventsOfAll)

/-- No entry in some blocks shows an owner. -/
def Unowned (blocks : List Block) : Prop :=
  ∀ entry, .enter entry ∈ eventsOfAll blocks → entry.owner = none

theorem unowned_nil : Unowned [] := fun _ he => (List.not_mem_nil he).elim

theorem Unowned.append {blocks others : List Block} (h : Unowned blocks) (h' : Unowned others) :
    Unowned (blocks ++ others) := by
  intro entry he
  rw [Block.eventsOfAll_append] at he
  exact (List.mem_append.mp he).elim (h entry) (h' entry)

theorem owner_innerEntry (session : Session) (name : String) (child : Ty) :
    (innerEntry session name child).owner = none := by
  have member : (memberEntry session name child).owner = none := by
    unfold memberEntry
    split <;> rfl
  unfold innerEntry
  dsimp only
  split <;> exact member

theorem unowned_entryBlocks {doc : Documentation} {address : Address} {entry : Entry} {ty : Ty}
    {inner : Unit → List Block} (own : entry.owner = none) (h : Unowned (inner ())) :
    Unowned (doc.entryBlocks address entry ty inner) := by
  rw [entryBlocks]
  split
  · exact unowned_nil
  · intro other he
    rcases enter_mem_eventsOfAll_entry.mp he with rfl | he
    · exact own
    · split at he
      · exact h other he
      · cases he

theorem unowned_walk (doc : Documentation) (root : String) :
    Walk doc root (fun _ => True) Unowned where
  child _ _ := trivial
  of_shape _ _ := trivial
  target _ _ _ := trivial
  nil := unowned_nil
  append := Unowned.append
  property _ _ _ _ h := unowned_entryBlocks (owner_innerEntry ..) h
  value _ _ _ h := unowned_entryBlocks rfl h

variable {doc : Documentation} (full : doc.Full)

include full

theorem unowned_typeBlocks (ty : Ty) : Unowned (doc.typeBlocks ty) := by
  rw [typeBlocks, full.unwrapped?]
  exact unowned_entryBlocks rfl ((unowned_walk doc ty.id).underAll "" trivial)

/-- Only where a type is unwrapped do its properties show it as their owner. -/
theorem unowned_blocks (title : Option String) (root : Ty) : Unowned (doc.blocks title root) :=
  of_typeBlocks unowned_nil Unowned.append (fun text => by simp [Unowned, eventsOfAll, Block.events])
    (unowned_typeBlocks full root) (fun entry _ => unowned_typeBlocks full entry.2) title

end Documentation

/-! ## Links -/

namespace Session

open Page

/-- On the page of a documentation of everything a type that may not be inlined has one place where
it is entered outside all entries, and its heading stands there.  A link that shows its name leads
to that heading, unless the name is the full name of an earlier entry, or has an entry inside the
entry around the link. -/
theorem type_links {registry : Registry} (keyword : String) (hb : registry.Built)
    (ha : registry.Addressed) (hs : registry.Separate) (uris : List String)
    (ok : (fresh registry.crawl keyword).loadsAll uris = true) {uri : String}
    {title : Option String} {blocks : List Block} {after : Session}
    (hd : ((fresh registry.crawl keyword).loadAll uris).document uri { recursive := true, title } =
      (.ok blocks, after))
    {id : String} (cached : (after.get? id).isSome) (linked : after.canInline id = false) :
    let events := Block.eventsOfAll blocks
    let page := ofEvents events
    (∃! before, Event.Precedes id events before) ∧
    ∀ before, Event.Precedes id events before → ∃ own : Heading,
      page.items[(ofEvents before).items.length]? = some (.heading own) ∧
      own.depth = 0 ∧ own.name = withoutDefs id ∧
      ∀ heading anchor, .heading heading ∈ page.items →
        .link (withoutDefs id) anchor ∈ page.partsOf heading →
        (own.anchor = some anchor ↔
          withoutDefs id ∉ fullNames before ∧
            (heading.scope = "" ∨
              heading.scope ++ "." ++ withoutDefs id ∉ fullNames events)) := by
  intro events page
  obtain ⟨root, hl, rfl⟩ := load_of_document hd
  have c := complete_of_load keyword hb ha hs uris ok hl
  obtain ⟨name, hg⟩ := exists_get?_of_load
    (resting_loadAll uris (fresh_resting registry.crawl keyword)) hl []
  have full : Documentation.Full ⟨after, true, false, []⟩ := ⟨rfl, rfl, rfl⟩
  have closed : Event.depthAfter? 0 events = some 0 := Documentation.depthAfter?_blocks _ _ _
  have once : (Event.outermostNames events).count id = 1 :=
    Documentation.count_names_blocks full c title (meets_of_get? hg) cached linked
  refine ⟨Event.existsUnique_precedes closed once, ?_⟩
  rintro before ⟨entry, later, whole, rfl, opened⟩
  have unowned : entry.owner = none := by
    refine Documentation.unowned_blocks full title root entry ?_
    change .enter entry ∈ events
    rw [whole]
    exact List.mem_append_right _ List.mem_cons_self
  obtain ⟨own, stands, depth, named, anchored⟩ :=
    heading_outermost before later entry opened unowned
  rw [← whole] at stands
  refine ⟨own, stands, depth, named, fun heading anchor _ hl => ?_⟩
  have absent (name : String) : page.anchors.has name = false ↔ name ∉ fullNames events := by
    rw [← has_ofEvents events, Bool.not_eq_true]
  have leads := link_leads_iff (anchored_ofEvents events) hl
  rw [absent] at leads
  rw [anchored, ← leads]
  split
  · rename_i taken
    exact iff_of_false nofun fun own => own.1 taken
  · rename_i free
    exact ⟨fun same => ⟨free, (Option.some_inj.mp same).symm⟩, fun own => congrArg some own.2.symm⟩

/-- An object with two properties of a type, one of them called `Color`, and the type. -/
def palette (name : String) : Registry :=
  let reference : Json := .object [("$ref", .string name)]
  (Registry.register {} "Root" (.object [("type", .string "object"),
    ("properties", .object [("Color", reference), ("other", reference)])])).register name
      (.object [("type", .string "string")])

/-- What is documented before the type. -/
def paletteBefore (name : String) : List Event :=
  let property (label : String) : List Event :=
    [.enter { kind := .setting, name := label, signature := some name }, .leave]
  .enter { kind := .setting, name := "Root" } ::
    (property "Color" ++ property "other" ++ [.leave, .title "Config types"])

/-- The whole documentation. -/
def paletteEvents (name : String) : List Event :=
  paletteBefore name ++ .enter { kind := .setting, name } :: [.leave]

theorem palette_built (name : String) : (palette name).Built := .register _ _ (.register _ _ .empty)

theorem palette_precedes (name : String) :
    Event.Precedes name (paletteEvents name) (paletteBefore name) := ⟨_, _, rfl, rfl, rfl⟩

/-- If the type has one of these names, it is documented last. -/
theorem palette_document {name : String} (h : name ∈ ["Font", "Color", "Root.Color"]) :
    (palette name).Addressed ∧ (palette name).Separate ∧
      ∃ blocks after, (fresh (palette name).crawl "mark").document "Root" { recursive := true } =
          (.ok blocks, after) ∧
        Block.eventsOfAll blocks = paletteEvents name ∧
        (after.get? name).isSome ∧ after.canInline name = false := by
  simp only [List.mem_cons, List.not_mem_nil, or_false] at h
  have separate : (palette name).Addressed ∧ (palette name).Separate := by
    rcases h with rfl | rfl | rfl <;> decide +kernel
  have computed : passes ((fresh (palette name).crawl "mark").load "Root") (fun root after =>
      let doc : Documentation := ⟨after, true, false, []⟩
      let types := doc.remaining (doc.documented root)
        (after.cache.insertionSort fun a b => a.1 ≤ b.1)
      decide (Block.eventsOfAll (doc.typeBlocks root ++ .title Documentation.typesTitle ::
          types.flatten) = paletteEvents name) &&
        decide after.cache.keys.Nodup && !types.isEmpty && (after.get? name).isSome &&
        !after.canInline name) = true := by
    rcases h with rfl | rfl | rfl <;> decide +kernel
  obtain ⟨root, after, hl, computed⟩ := exists_of_passes computed
  simp only [Bool.and_eq_true, Bool.not_eq_true', decide_eq_true_eq, List.isEmpty_eq_false_iff]
    at computed
  obtain ⟨⟨⟨⟨events, nodup⟩, others⟩, cached⟩, linked⟩ := computed
  obtain ⟨types, rest, hr⟩ := List.exists_cons_of_ne_nil others
  rw [hr] at events
  refine ⟨separate.1, separate.2, Documentation.blocks ⟨after, true, false, []⟩ none root, after,
    by rw [document, hl]; rfl, ?_, cached, linked⟩
  rw [← events, Documentation.blocks, Documentation.typesSection, loaded,
    Table.mergeSort_eq_insertionSort nodup, hr]
  rfl

/-- A link that shows the name of the type `Font` leads to its heading. -/
theorem palette_type_links :
    ∃ own heading : Heading,
      (ofEvents (paletteEvents "Font")).items[(ofEvents (paletteBefore "Font")).items.length]? =
        some (.heading own) ∧
      .heading heading ∈ (ofEvents (paletteEvents "Font")).items ∧
      .link "Font" "Font" ∈ (ofEvents (paletteEvents "Font")).partsOf heading ∧
      own.anchor = some "Font" := by
  obtain ⟨addressed, separate, blocks, after, hd, events, cached, linked⟩ :=
    palette_document (show "Font" ∈ ["Font", "Color", "Root.Color"] by decide)
  have links := (type_links "mark" (palette_built "Font") addressed separate [] rfl hd cached
    linked).2
  rw [events, show withoutDefs "Font" = "Font" by decide +kernel] at links
  obtain ⟨own, stands, -, -, leads⟩ := links _ (palette_precedes "Font")
  obtain ⟨heading, mem, scope, link⟩ := exists_of_hasLink
    (show (ofEvents (paletteEvents "Font")).hasLink "Root" "Font" "Font" = true by decide +kernel)
  refine ⟨own, heading, stands, mem, link, (leads heading "Font" mem link).mpr ⟨?_, .inr ?_⟩⟩
  · decide +kernel
  · rw [scope]
    decide +kernel

/-- On all pages, each link that shows the name of a type leads to the heading of the type if a
condition holds of the events, of those before the type, of the scope and of the name. -/
def LinksLead (condition : List Event → List Event → String → String → Prop) : Prop :=
  ∀ (registry : Registry) (keyword uri : String) (blocks : List Block) (after : Session),
    registry.Built → registry.Addressed → registry.Separate →
    (fresh registry.crawl keyword).document uri { recursive := true } = (.ok blocks, after) →
    ∀ id before own heading anchor, (after.get? id).isSome → after.canInline id = false →
      Event.Precedes id (Block.eventsOfAll blocks) before →
      (ofEvents (Block.eventsOfAll blocks)).items[(ofEvents before).items.length]? =
        some (.heading own) →
      .heading heading ∈ (ofEvents (Block.eventsOfAll blocks)).items →
      .link (withoutDefs id) anchor ∈ (ofEvents (Block.eventsOfAll blocks)).partsOf heading →
      condition (Block.eventsOfAll blocks) before heading.scope (withoutDefs id) →
      own.anchor = some anchor

/-- The types `Color` and `Root.Color` are taken for the property `Color`. -/
theorem not_linksLead {name : String} (h : name ∈ ["Color", "Root.Color"])
    {condition : List Event → List Event → String → String → Prop}
    (meets : condition (paletteEvents name) (paletteBefore name) "Root" name) :
    ¬ LinksLead condition := by
  intro lead
  obtain ⟨addressed, separate, blocks, after, hd, events, cached, linked⟩ :=
    palette_document (List.mem_cons_of_mem "Font" h)
  simp only [List.mem_cons, List.not_mem_nil, or_false] at h
  have displayed : withoutDefs name = name := by rcases h with rfl | rfl <;> decide +kernel
  have shown : (ofEvents (paletteEvents name)).hasLink "Root" name "Root.Color" = true := by
    rcases h with rfl | rfl <;> decide +kernel
  obtain ⟨heading, mem, scope, link⟩ := exists_of_hasLink shown
  obtain ⟨own, stands, -, -, anchored⟩ :=
    heading_outermost (paletteBefore name) [.leave] { kind := .setting, name } rfl rfl
  have leads := lead _ _ _ blocks after (palette_built name) addressed separate hd name
    (paletteBefore name) own heading "Root.Color" cached linked
  rw [events, displayed, scope] at leads
  have same := leads (palette_precedes name) stands mem link meets
  rw [anchored, displayed] at same
  rcases h with rfl | rfl <;> revert same <;> decide +kernel

/-- Not every link that shows the name of a type leads to its heading, and neither of the two
conditions is enough. -/
theorem not_type_links :
    ¬ LinksLead (fun _ _ _ _ => True) ∧
    ¬ LinksLead (fun _ before _ name => name ∉ fullNames before) ∧
    ¬ LinksLead (fun events _ scope name => scope = "" ∨ scope ++ "." ++ name ∉ fullNames events) :=
  ⟨not_linksLead (by decide : "Color" ∈ ["Color", "Root.Color"]) trivial,
    not_linksLead (by decide : "Color" ∈ ["Color", "Root.Color"]) (by decide +kernel),
    not_linksLead (by decide : "Root.Color" ∈ ["Color", "Root.Color"]) (by decide +kernel)⟩

end Session

end SchemaDoc
