import SchemaDoc.Proofs.Documentation.Walk
import SchemaDoc.Proofs.Session.Signatures

/-!
# What is linked is documented

A signature names a type instead of writing it out if the type may not be inlined, and a reader
then looks for the entry of that type.  In a documentation of everything, without exclusions and
with an entry for each type, there is exactly one: `Session.linked_once`.

An entry for a property never takes the place of that entry.  It records the name of the type
that stands in for the property, if one does, but only what may be inlined stands in for another
type, and nothing else inside a type in the cache has a name, `Session.Complete.walk`.  So when
the types that come last are gone through, those that may not be inlined are left out only if
they were documented before, `Documentation.names_remaining`.
-/

namespace SchemaDoc

/-! ## Outermost entries -/

namespace Event

/-- The entries that are entered where none is, if some are entered already. -/
def outermost : Nat → List Event → List Entry
  | _, [] => []
  | 0, .enter entry :: rest => entry :: outermost 1 rest
  | depth + 1, .enter _ :: rest => outermost (depth + 2) rest
  | depth, .leave :: rest => outermost (depth - 1) rest
  | depth, .title _ :: rest => outermost depth rest
  | depth, .text _ :: rest => outermost depth rest

/-- The names of the outermost entries. -/
def outermostNames (events : List Event) : List String := (outermost 0 events).map Entry.name

end Event

namespace Block

/-- The head of a block that is an entry. -/
def head? : Block → Option Entry
  | .entry _ _ head _ => some head
  | .title _ => none
  | .text _ => none

mutual

/-- Nothing is outermost inside an entry. -/
theorem outermost_events (block : Block) (depth : Nat) (rest : List Event) :
    Event.outermost (depth + 1) (block.events ++ rest) = Event.outermost (depth + 1) rest := by
  match block with
  | .title _ => rfl
  | .text _ => rfl
  | .entry _ _ head inner =>
    have inside := outermost_eventsOfAll inner (depth + 1) (.leave :: rest)
    simpa [events, Event.outermost] using inside

theorem outermost_eventsOfAll (blocks : List Block) (depth : Nat) (rest : List Event) :
    Event.outermost (depth + 1) (eventsOfAll blocks ++ rest) = Event.outermost (depth + 1) rest := by
  match blocks with
  | [] => rfl
  | block :: others =>
    rw [eventsOfAll, List.append_assoc, outermost_events block, outermost_eventsOfAll others]

end

/-- The outermost entries of some blocks are those among them. -/
theorem outermost_eq (blocks : List Block) :
    Event.outermost 0 (eventsOfAll blocks) = blocks.filterMap head? := by
  induction blocks with
  | nil => rfl
  | cons block rest ih =>
    rw [eventsOfAll]
    cases block with
    | title _ => exact ih
    | text _ => exact ih
    | entry _ _ head inner =>
      have inside := outermost_eventsOfAll inner 0 (.leave :: eventsOfAll rest)
      rw [List.filterMap_cons, ← ih]
      simpa [events, Event.outermost, head?] using inside

theorem outermostNames_append (blocks others : List Block) :
    Event.outermostNames (eventsOfAll (blocks ++ others)) =
      Event.outermostNames (eventsOfAll blocks) ++ Event.outermostNames (eventsOfAll others) := by
  simp only [Event.outermostNames, outermost_eq, List.filterMap_append, List.map_append]

end Block

/-! ## Types in the cache and inside it -/

/-- A type stands in another at some depth. -/
inductive Ty.Holds : Ty → Ty → Prop where
  | self {ty : Ty} : Holds ty ty
  | child {ty part child : Ty} : Holds ty part → child ∈ part.children → Holds ty child

namespace Ty.Holds

variable {ty part : Ty}

theorem targets_subset (h : ty.Holds part) : part.targets ⊆ ty.targets := by
  induction h with
  | self => exact List.Subset.refl _
  | child _ hc ih => exact List.Subset.trans (targets_subset_of_child hc) ih

/-- What holds at every depth of a type holds at every depth of its parts. -/
theorem everywhere {P : Ty → Prop} (h : ty.Holds part) (whole : ty.Everywhere P) :
    part.Everywhere P := by
  induction h with
  | self => exact whole
  | child _ hc ih => exact ih.inside _ hc

/-- If nothing inside a type has a name, nothing inside its parts has. -/
theorem anonymous (h : ty.Holds part)
    (anonymous : ∀ child ∈ ty.children, child.Everywhere IsAnonymous) :
    ∀ child ∈ part.children, child.Everywhere IsAnonymous := by
  induction h with
  | self => exact anonymous
  | child _ hc ih => exact (ih _ hc).inside

end Ty.Holds

namespace Session

/-- A type is, up to what is said about it, a part of a type in the cache. -/
def Meets (session : Session) (ty : Ty) : Prop :=
  ∃ id root part, session.get? id = some root ∧ root.Holds part ∧ ty.shape = part.shape

/-- An object in a type in the cache has a property. -/
def HasProperty (session : Session) (name : String) (child : Ty) : Prop :=
  ∃ id root part, session.get? id = some root ∧ root.Holds part ∧ (name, child) ∈ part.properties

/-- A text is the signature of a property of some name, or of what stands in for it. -/
def Describes (session : Session) (name text : String) : Prop :=
  ∃ child, session.HasProperty name child ∧
    text = session.print ((Documentation.standIn? session child).getD child) false

/-- All signatures in some blocks are those of properties. -/
def Signs (session : Session) (blocks : List Block) : Prop :=
  ∀ head text, .enter head ∈ Block.eventsOfAll blocks → head.signature = some text →
    session.Describes head.name text

/-- What is made of the inside of types: the entries are of types that may be inlined, and the
signatures are those of properties. -/
structure Inner (session : Session) (blocks : List Block) : Prop where
  ids : ∀ id ∈ Block.idsOfAll blocks, session.canInline id = true
  signs : session.Signs blocks

variable {session : Session} {ty : Ty}

theorem signs_nil : session.Signs [] := fun _ _ he => (List.not_mem_nil he).elim

theorem Signs.append {blocks others : List Block} (h : session.Signs blocks)
    (h' : session.Signs others) : session.Signs (blocks ++ others) := by
  intro head text he
  rw [Block.eventsOfAll_append] at he
  exact (List.mem_append.mp he).elim (h head text) (h' head text)

theorem meets_of_get? {id : String} (hg : session.get? id = some ty) : session.Meets ty :=
  ⟨id, ty, ty, hg, .self, rfl⟩

theorem Meets.child (h : session.Meets ty) {child : Ty} (hc : child ∈ ty.children) :
    session.Meets child := by
  obtain ⟨id, root, part, hg, holds, shape⟩ := h
  rw [Ty.children, shape] at hc
  exact ⟨id, root, child, hg, holds.child hc, rfl⟩

theorem Meets.of_shape (h : session.Meets ty) {other : Ty} (hs : other.shape = ty.shape) :
    session.Meets other := by
  obtain ⟨id, root, part, hg, holds, shape⟩ := h
  exact ⟨id, root, part, hg, holds, hs.trans shape⟩

theorem Meets.property (h : session.Meets ty) {name : String} {child : Ty}
    (hc : (name, child) ∈ ty.properties) : session.HasProperty name child := by
  obtain ⟨id, root, part, hg, holds, shape⟩ := h
  rw [Ty.properties, shape] at hc
  exact ⟨id, root, part, hg, holds, hc⟩

/-- The types that are gone through in the end are those in the cache. -/
theorem get?_of_loaded {session : Session} (nodup : session.cache.keys.Nodup) {entry : String × Ty}
    (he : entry ∈ session.loaded) : session.get? entry.1 = some entry.2 :=
  Table.get?_of_mem nodup ((List.mergeSort_perm _ _).mem_iff.mp he)

namespace Complete

variable (c : session.Complete)

include c

theorem known_of_meets (h : session.Meets ty) :
    ∀ target ∈ ty.targets, (session.get? target).isSome := by
  obtain ⟨id, root, part, hg, holds, shape⟩ := h
  rw [Ty.targets_of_shape shape]
  exact fun target ht => c.closed id root hg target (holds.targets_subset ht)

/-- A child of a part of a type in the cache has no name. -/
theorem id_of_meets (h : session.Meets ty) {child : Ty} (hc : child ∈ ty.children) :
    child.id = "" := by
  obtain ⟨id, root, part, hg, holds, shape⟩ := h
  rw [Ty.children, shape] at hc
  exact (holds.anonymous (c.anonymous id root hg) child hc).here

/-- A target of a part of a type in the cache is found under its name. -/
theorem target_of_meets (h : session.Meets ty) {target : String} (ht : target ∈ ty.targets) :
    session.Meets ((session.get? target).getD .any) ∧
      ((session.get? target).getD .any).id = target := by
  obtain ⟨found, hg⟩ := Option.isSome_iff_exists.mp (c.known_of_meets h target ht)
  rw [hg]
  exact ⟨meets_of_get? hg, c.ids target found hg⟩

/-- The signature of a property shows only names of types that may not be inlined. -/
theorem of_shows_property {name : String} {child : Ty} (h : session.HasProperty name child)
    {shown : String}
    (hs : session.Shows ((Documentation.standIn? session child).getD child) shown) :
    (session.get? shown).isSome ∧ session.canInline shown = false := by
  obtain ⟨id, root, part, hg, holds, hc⟩ := h
  have met : session.Meets child :=
    ⟨id, root, child, hg, holds.child (Ty.mem_children.mpr (.inl ⟨_, hc, rfl⟩)), rfl⟩
  refine c.of_shows (c.known_of_meets ?_) hs
  cases hi : Documentation.standIn? session child with
  | none => exact met
  | some standIn =>
    obtain ⟨target, ht, -, shape, -⟩ := Documentation.of_standIn? hi
    exact (c.target_of_meets met ht).1.of_shape shape

end Complete

end Session

/-! ## Entries inside types -/

namespace Documentation

open Block (eventsOfAll idsOfAll)

theorem not_enter_mem_descriptionOf (ty : Ty) (head : Entry) :
    .enter head ∉ eventsOfAll (descriptionOf ty) := by
  rw [descriptionOf]
  cases ty.annotations.description <;> simp [eventsOfAll, Block.events]

theorem idsOfAll_descriptionOf (ty : Ty) : idsOfAll (descriptionOf ty) = [] := by
  rw [descriptionOf]
  cases ty.annotations.description <;> rfl

section Entry

variable {address : Address} {id : String} {head : Entry} {ty : Ty} {inner : List Block}

/-- An entry with a description is of its type, besides those inside it. -/
theorem mem_idsOfAll_entry {other : String} :
    other ∈ idsOfAll [.entry address id head (descriptionOf ty ++ inner)] ↔
      other = id ∨ other ∈ idsOfAll inner := by
  simp only [idsOfAll, Block.ids, Block.idsOfAll_append, idsOfAll_descriptionOf, List.nil_append,
    List.append_nil, List.mem_cons]

/-- An entry with a description is entered, besides those inside it. -/
theorem enter_mem_eventsOfAll_entry {other : Entry} :
    .enter other ∈ eventsOfAll [.entry address id head (descriptionOf ty ++ inner)] ↔
      other = head ∨ .enter other ∈ eventsOfAll inner := by
  simp only [eventsOfAll, Block.events, Block.eventsOfAll_append, List.append_nil, List.mem_cons,
    List.mem_append, Event.enter.injEq, not_enter_mem_descriptionOf, false_or, reduceCtorEq,
    List.not_mem_nil, or_false]

end Entry

variable {doc : Documentation} {address : Address} {entry : Entry} {ty : Ty}
variable {inner : Unit → List Block}

/-- An entry of a type that may be inlined, which shows the signature of a property or none. -/
theorem inner_entryBlocks (hid : doc.session.canInline ty.id = true)
    (hs : ∀ text, entry.signature = some text → doc.session.Describes entry.name text)
    (h : doc.session.Inner (inner ())) : doc.session.Inner (doc.entryBlocks address entry ty inner) := by
  rw [entryBlocks]
  split
  · exact ⟨nofun, nofun⟩
  · -- What is inside is left out unless the documentation is recursive.
    have inside : doc.session.Inner (if doc.recursive then inner () else []) := by
      split
      · exact h
      · exact ⟨nofun, nofun⟩
    constructor
    · intro id hi
      rcases mem_idsOfAll_entry.mp hi with rfl | hi
      · exact hid
      · exact inside.ids id hi
    · intro head text he
      rcases enter_mem_eventsOfAll_entry.mp he with rfl | he
      · exact hs text
      · exact inside.signs head text he

/-- What an entry for a property shows is the signature of that property. -/
theorem signature_memberEntry {session : Session} {name text : String} {child : Ty}
    (h : (memberEntry session name child).signature = some text) :
    text = session.print child false := by
  rw [memberEntry] at h
  split at h
  · cases h
  · dsimp only at h
    split at h
    · exact (Option.some_inj.mp h).symm
    · cases h

theorem signature_innerEntry {session : Session} {name text : String} {child : Ty}
    (h : (innerEntry session name child).signature = some text) :
    text = session.print child false := by
  refine @signature_memberEntry session name text child ?_
  rw [← h]
  unfold innerEntry
  dsimp only
  split <;> rfl

theorem name_memberEntry (session : Session) (name : String) (child : Ty) :
    (memberEntry session name child).name = name := by
  unfold memberEntry
  split <;> rfl

theorem name_innerEntry (session : Session) (name : String) (child : Ty) :
    (innerEntry session name child).name = name := by
  unfold innerEntry
  dsimp only
  split <;> exact name_memberEntry ..

end Documentation

namespace Session.Complete

open Documentation

variable {doc : Documentation} (c : doc.session.Complete)

include c

/-- The type that is documented for a property may be inlined. -/
theorem canInline_shown {ty child : Ty} (h : doc.session.Meets ty) (hc : child ∈ ty.children)
    (given : Option Json) : doc.session.canInline (shown doc.session given child).id = true := by
  have same : (shown doc.session given child).id = ((standIn? doc.session child).getD child).id := rfl
  rw [same]
  cases hi : standIn? doc.session child with
  | none =>
    rw [Option.getD_none, c.id_of_meets h hc]
    rfl
  | some standIn =>
    obtain ⟨target, ht, inline, -, id⟩ := of_standIn? hi
    rw [Option.getD_some, id, (c.target_of_meets (h.child hc) ht).2]
    exact inline

/-- What a walk makes of types in the cache. -/
theorem walk (root : String) : Walk doc root doc.session.Meets doc.session.Inner where
  child h hc := h.child hc
  of_shape h hs := h.of_shape hs
  target h ht _ := (c.target_of_meets h ht).1
  nil := ⟨nofun, nofun⟩
  append h h' := by
    refine ⟨?_, h.signs.append h'.signs⟩
    rw [Block.idsOfAll_append]
    exact fun id hid => (List.mem_append.mp hid).elim (h.ids id) (h'.ids id)
  property {ty child name inner} path given h hc hi := by
    refine inner_entryBlocks (c.canInline_shown h (Ty.mem_children.mpr (.inl ⟨_, hc, rfl⟩)) given)
      (fun text hs => ?_) hi
    rw [name_innerEntry]
    refine ⟨child, h.property hc, ?_⟩
    rw [signature_innerEntry hs, shown, withGiven, Session.print_annotate]
  value {ty item inner} path h hc hi := by
    refine inner_entryBlocks ?_ (fun text hs => ?_) hi
    · rw [c.id_of_meets h hc]
      rfl
    · cases hs

end Session.Complete

/-! ## Entries of types -/

namespace Documentation

open Block (eventsOfAll idsOfAll)

/-- Everything is documented in an entry of its own. -/
structure Full (doc : Documentation) : Prop where
  recursive : doc.recursive = true
  unwrap : doc.unwrap = false
  excluded : doc.excluded = []

/-- The entry of a type with a name: it has that name and shows no signature. -/
structure Outer (session : Session) (id : String) (blocks : List Block) : Prop where
  names : Event.outermostNames (eventsOfAll blocks) = [id]
  own : id ∈ idsOfAll blocks
  ids : ∀ other ∈ idsOfAll blocks, other = id ∨ session.canInline other = true
  signs : session.Signs blocks

variable {doc : Documentation} (full : doc.Full)

include full

theorem Full.unwrapped? (ty : Ty) : doc.unwrapped? ty = none := by
  rw [Documentation.unwrapped?, full.unwrap]
  rfl

theorem Full.isExcluded (address : Address) : doc.isExcluded address = false := by
  rw [Documentation.isExcluded, full.excluded]
  rfl

/-- The types that are documented with a type are those that have entries in its blocks. -/
theorem Full.documented (ty : Ty) : doc.documented ty = idsOfAll (doc.typeBlocks ty) := by
  rw [Documentation.documented, full.unwrapped?]
  rfl

variable (c : doc.session.Complete)

include c

theorem outer_typeBlocks {ty : Ty} (h : doc.session.Meets ty) :
    Outer doc.session ty.id (doc.typeBlocks ty) := by
  have inner : doc.session.Inner (doc.underAll ty.id "" ty) := (c.walk ty.id).underAll "" h
  rw [typeBlocks, full.unwrapped?]
  simp only [entryBlocks, full.isExcluded, full.recursive, if_true, Bool.false_eq_true, if_false]
  constructor
  · rw [Event.outermostNames, Block.outermost_eq]
    rfl
  · exact List.mem_cons_self
  · exact fun other ho => (mem_idsOfAll_entry.mp ho).imp_right (inner.ids other)
  · intro head text he hs
    rcases enter_mem_eventsOfAll_entry.mp he with rfl | he
    · cases hs
    · exact inner.signs head text he hs

/-- Of the types that come last exactly those have entries that may not be inlined and were not
documented before. -/
theorem names_remaining (types : List (String × Ty)) (nodup : (types.map Prod.fst).Nodup)
    (ids : ∀ entry ∈ types, entry.2.id = entry.1) (met : ∀ entry ∈ types, doc.session.Meets entry.2) :
    ∀ done, Event.outermostNames (eventsOfAll (doc.remaining done types).flatten) =
      (types.map Prod.fst).filter fun id => !done.contains id && !doc.session.canInline id := by
  induction types with
  | nil => exact fun _ => rfl
  | cons entry rest ih =>
    obtain ⟨id, ty⟩ := entry
    rw [List.map_cons, List.nodup_cons] at nodup
    rw [List.forall_mem_cons] at ids met
    have ih := ih nodup.2 ids.2 met.2
    intro done
    rw [remaining, full.isExcluded, Bool.or_false, List.map_cons, List.filter_cons]
    cases hd : done.contains id || doc.session.canInline id with
    | true =>
      rw [← Bool.not_or, hd]
      exact ih done
    | false =>
      have outer := outer_typeBlocks full c met.1
      rw [← Bool.not_or, hd]
      simp only [Bool.false_eq_true, if_false, Bool.not_false, if_true, List.flatten_cons]
      rw [Block.outermostNames_append, outer.names, ih, ids.1, List.singleton_append]
      refine congrArg (id :: ·) (List.filter_congr fun other ho => ?_)
      -- What was documented with this type is it, which does not come again, or may be inlined.
      have different : other ≠ id := fun same => nodup.1 (same ▸ ho)
      cases hi : doc.session.canInline other with
      | true => rw [Bool.not_true, Bool.and_false, Bool.and_false]
      | false =>
        have new : other ∉ doc.documented ty := by
          rw [full.documented]
          intro mem
          rcases outer.ids other mem with same | inline
          · exact different (same.trans ids.1)
          · exact absurd (hi.symm.trans inline) Bool.false_ne_true
        simp [new]

/-- The outermost entries are that of the type that is documented and those of the types that may
not be inlined and have no entry yet. -/
theorem names_blocks (title : Option String) {root : Ty} (h : doc.session.Meets root) :
    Event.outermostNames (eventsOfAll (doc.blocks title root)) =
      root.id :: (doc.session.loaded.map Prod.fst).filter fun id =>
        !(doc.documented root).contains id && !doc.session.canInline id := by
  have last := names_remaining full c doc.session.loaded
    (((List.mergeSort_perm _ _).map Prod.fst).nodup_iff.mpr c.nodup)
    (fun entry he => c.ids _ _ (Session.get?_of_loaded c.nodup he))
    (fun entry he => Session.meets_of_get? (Session.get?_of_loaded c.nodup he)) (doc.documented root)
  have lastNames : Event.outermostNames (eventsOfAll (doc.typesSection (doc.documented root))) =
      Event.outermostNames
        (eventsOfAll (doc.remaining (doc.documented root) doc.session.loaded).flatten) := by
    rw [typesSection]
    cases doc.remaining (doc.documented root) doc.session.loaded <;> rfl
  have titled : Event.outermostNames (eventsOfAll (title.map Block.title).toList) = [] := by
    cases title <;> rfl
  rw [blocks, full.recursive, if_pos rfl, Block.outermostNames_append, Block.outermostNames_append,
    titled, (outer_typeBlocks full c h).names, lastNames, last]
  rfl

/-- A type that may not be inlined has exactly one outermost entry. -/
theorem count_names_blocks (title : Option String) {root : Ty} (h : doc.session.Meets root)
    {id : String} (cached : (doc.session.get? id).isSome) (hl : doc.session.canInline id = false) :
    (Event.outermostNames (eventsOfAll (doc.blocks title root))).count id = 1 := by
  have outer := outer_typeBlocks full c h
  rw [names_blocks full c title h]
  by_cases own : id = root.id
  · subst own
    rw [List.count_cons_self, List.count_eq_zero.mpr]
    intro mem
    have documented : root.id ∈ doc.documented root := full.documented root ▸ outer.own
    simp [documented] at mem
  · have new : id ∉ doc.documented root := by
      rw [full.documented]
      intro mem
      rcases outer.ids id mem with same | inline
      · exact own same
      · exact absurd (hl.symm.trans inline) Bool.false_ne_true
    rw [List.count_cons_of_ne (Ne.symm own), List.count_filter (by simp [new, hl])]
    obtain ⟨ty, hg⟩ := Option.isSome_iff_exists.mp cached
    have perm := (List.mergeSort_perm doc.session.cache fun a b => decide (a.1 ≤ b.1)).map Prod.fst
    refine List.count_eq_one_of_mem (perm.nodup_iff.mpr c.nodup) (perm.mem_iff.mpr ?_)
    exact List.mem_map_of_mem (Table.mem_of_get? hg)

/-- Every signature is that of a property. -/
theorem signs_blocks (title : Option String) {root : Ty} (h : doc.session.Meets root) :
    doc.session.Signs (doc.blocks title root) := by
  have ofType {ty : Ty} (met : doc.session.Meets ty) : doc.session.Signs (doc.typeBlocks ty) :=
    (outer_typeBlocks full c met).signs
  refine of_typeBlocks Session.signs_nil Session.Signs.append (fun text => ?_) (ofType h) ?_ title
  · simp [Session.Signs, eventsOfAll, Block.events]
  · exact fun entry he => ofType (Session.meets_of_get? (Session.get?_of_loaded c.nodup he))

end Documentation

/-! ## Documentations of everything -/

namespace Session

/-- Loading some names and one more. -/
theorem loadsAll_concat {uris : List String} {uri : String} :
    ∀ {session : Session}, session.loadsAll uris = true →
      ((session.loadAll uris).load uri).1.isOk = true → session.loadsAll (uris ++ [uri]) = true := by
  induction uris with
  | nil =>
    intro session _ last
    rw [List.nil_append, loadsAll, loadsAll, Bool.and_true]
    exact last
  | cons first rest ih =>
    intro session ok last
    rw [loadsAll, Bool.and_eq_true] at ok
    rw [List.cons_append, loadsAll, ok.1, Bool.true_and]
    exact ih ok.2 last

/-- A documentation of everything is that of a type in the session after loading it. -/
theorem load_of_document {session after : Session} {uri : String} {title : Option String}
    {blocks : List Block}
    (h : session.document uri { recursive := true, title } = (.ok blocks, after)) :
    ∃ root, session.load uri = (.ok root, after) ∧
      blocks = Documentation.blocks ⟨after, true, false, []⟩ title root := by
  rw [document] at h
  split at h
  · cases h
  · rename_i root loaded hl
    cases h
    exact ⟨root, hl, rfl⟩

/-- In a documentation of everything each type that may not be inlined has exactly one outermost
entry.  Every signature is that of a property of its name, or of what stands in for it, and the
names that such a signature shows have exactly one outermost entry each. -/
theorem linked_once {registry : Registry} (keyword : String) (hb : registry.Built)
    (ha : registry.Addressed) (hs : registry.Separate) (uris : List String)
    (ok : (fresh registry.crawl keyword).loadsAll uris = true) {uri : String}
    {title : Option String} {blocks : List Block} {after : Session}
    (hd : ((fresh registry.crawl keyword).loadAll uris).document uri { recursive := true, title } =
      (.ok blocks, after)) :
    (∀ id, (after.get? id).isSome → after.canInline id = false →
      (Event.outermostNames (Block.eventsOfAll blocks)).count id = 1) ∧
    (∀ head text, .enter head ∈ Block.eventsOfAll blocks → head.signature = some text →
      ∃ child, after.HasProperty head.name child ∧
        text = after.print ((Documentation.standIn? after child).getD child) false) ∧
    ∀ name child shown, after.HasProperty name child →
      after.Shows ((Documentation.standIn? after child).getD child) shown →
      (Event.outermostNames (Block.eventsOfAll blocks)).count shown = 1 := by
  obtain ⟨root, hl, rfl⟩ := load_of_document hd
  have run : (fresh registry.crawl keyword).loadAll (uris ++ [uri]) = after := loadAll_of_load hl []
  have c : after.Complete := by
    rw [← run]
    exact complete_loadAll keyword hb ha hs _ (loadsAll_concat ok (by rw [hl]; rfl))
  obtain ⟨id, hg⟩ := exists_get?_of_load
    (resting_loadAll uris (fresh_resting registry.crawl keyword)) hl []
  have full : Documentation.Full ⟨after, true, false, []⟩ := ⟨rfl, rfl, rfl⟩
  have once {id : String} (cached : (after.get? id).isSome) (linked : after.canInline id = false) :=
    Documentation.count_names_blocks full c title (meets_of_get? hg) cached linked
  refine ⟨fun id => once, Documentation.signs_blocks full c title (meets_of_get? hg), ?_⟩
  intro name child shown property appears
  obtain ⟨cached, linked⟩ := c.of_shows_property property appears
  exact once cached linked

/-- The definition in the sample is referred to twice, so it has an entry, and the property `a` is
signed with its name. -/
theorem sample_linked_once :
    ∃ blocks after, (fresh (Registry.register {} "Root" sampleSchema).crawl "mark").document "Root"
        { recursive := true } = (.ok blocks, after) ∧
      after.canInline "Root#/$defs/T" = false ∧
      (Event.outermostNames (Block.eventsOfAll blocks)).count "Root#/$defs/T" = 1 ∧
      ∃ child, after.HasProperty "a" child ∧
        "Root#/$defs/T" = after.print ((Documentation.standIn? after child).getD child) false := by
  have computed : passes ((fresh (Registry.register {} "Root" sampleSchema).crawl "mark").document
      "Root" { recursive := true }) (fun blocks after =>
        (after.get? "Root#/$defs/T").isSome && !after.canInline "Root#/$defs/T" &&
          decide (.enter { kind := .setting, name := "a", signature := some "Root#/$defs/T" } ∈
            Block.eventsOfAll blocks)) = true := by decide +kernel
  obtain ⟨blocks, after, hd, computed⟩ := exists_of_passes computed
  simp only [Bool.and_eq_true, Bool.not_eq_true', decide_eq_true_eq] at computed
  obtain ⟨⟨cached, linked⟩, entered⟩ := computed
  obtain ⟨once, signed, -⟩ := linked_once "mark" (.register "Root" sampleSchema .empty)
    (by decide +kernel) (by decide +kernel) [] rfl hd
  exact ⟨blocks, after, hd, linked, once _ cached linked, signed _ _ entered rfl⟩

/-- After loads that all succeed, and one more that does, the session is complete. -/
theorem complete_of_load {registry : Registry} (keyword : String) (hb : registry.Built)
    (ha : registry.Addressed) (hs : registry.Separate) (uris : List String)
    (ok : (fresh registry.crawl keyword).loadsAll uris = true) {uri : String} {root : Ty}
    {loaded : Session}
    (hl : ((fresh registry.crawl keyword).loadAll uris).load uri = (.ok root, loaded)) :
    loaded.Complete := by
  rw [← show (fresh registry.crawl keyword).loadAll (uris ++ [uri]) = loaded from
    loadAll_of_load hl []]
  exact complete_loadAll keyword hb ha hs _ (loadsAll_concat ok (by rw [hl]; rfl))

end Session

end SchemaDoc
