import SchemaDoc.Proofs.Documentation.Linked

/-!
# What is left out of a documentation

A documentation with exclusions is the whole of it without the entries that are left out and
whatever is inside them, `Documentation.typeBlocks_excluded`.  Which entries these are is read off
the whole: an entry is at the root that the entries around it begin at and at the path of their
names and its own, `Block.outermostWithout`.  Nothing else changes, although the types that come
last depend on what was documented before: inside a type only such types have entries that may be
inlined, `Session.Labeled.walk`, and these never come last.  So the types that come last are those
that may not be inlined, but for the one that is documented and for those that are left out
themselves, `Documentation.blocks_eq`.

Where entries stand for the properties of a type, without an entry for it, all of them are left out
with the type.  The section of the types that come last has a title only if there are any.
-/

namespace SchemaDoc

/-! ## Blocks without some entries -/

/-- The path of members inside each other, with dots between their names.  Empty names at the start
count for nothing. -/
def Address.dotted (names : List String) : String := ".".intercalate (names.dropWhile (· == ""))

/-- A path one member further down. -/
theorem Address.join_dotted (names : List String) (name : String) :
    join (dotted names) name = dotted (names ++ [name]) := by
  induction names with
  | nil =>
    by_cases empty : name = ""
    · rw [empty]
      rfl
    · simp [dotted, join, empty]
  | cons first rest ih =>
    rw [dotted, dotted, List.cons_append, List.dropWhile_cons, List.dropWhile_cons]
    split
    · exact ih
    · rename_i solid
      have some : ".".intercalate (first :: rest) ≠ "" := by
        cases rest with
        | nil => simpa using solid
        | cons second others => simp
      rw [join, if_neg some, ← List.cons_append,
        String.intercalate_append_of_ne_nil (List.cons_ne_nil _ _) (List.cons_ne_nil _ _),
        String.intercalate_singleton]

theorem Address.dotted_singleton (name : String) : dotted [name] = name :=
  (join_dotted [] name).symm.trans (if_pos rfl)

namespace Block

mutual

/-- A block inside the entries of some names below a root, unless it is an entry at one of some
addresses, without the entries at these inside it.  The names of the entries around an entry and its
own tell where it is. -/
def without (excluded : List Address) (root : String) (around : List String) : Block → List Block
  | .title heading => [.title heading]
  | .text body => [.text body]
  | .entry address id head inner =>
    if excluded.contains ⟨root, Address.dotted (around ++ [head.name])⟩ then []
    else [.entry address id head (withoutAll excluded root (around ++ [head.name]) inner)]
termination_by structural block => block

/-- Some blocks without the entries at some addresses. -/
def withoutAll (excluded : List Address) (root : String) (around : List String) :
    List Block → List Block
  | [] => []
  | block :: rest => block.without excluded root around ++ withoutAll excluded root around rest
termination_by structural blocks => blocks

end

/-- A block inside no entry without the entries at some addresses.  An entry that has an owner is
that of a member of the owner, and any other is that of the type by its name. -/
def outermostWithout (excluded : List Address) : Block → List Block
  | .entry address id head inner =>
    match head.owner with
    | some owner => without excluded owner [] (.entry address id head inner)
    | none => [.entry address id head (withoutAll excluded head.name [] inner)]
  | block => [block]

section Without

variable (excluded : List Address) (root : String) (around : List String)

theorem withoutAll_append (left right : List Block) :
    withoutAll excluded root around (left ++ right) =
      withoutAll excluded root around left ++ withoutAll excluded root around right := by
  induction left with
  | nil => rfl
  | cons block rest ih => rw [List.cons_append, withoutAll, withoutAll, ih, List.append_assoc]

end Without

end Block

namespace Documentation

open Block (withoutAll outermostWithout idsOfAll)

theorem withoutAll_descriptionOf (excluded : List Address) (root : String) (around : List String)
    (ty : Ty) : withoutAll excluded root around (descriptionOf ty) = descriptionOf ty := by
  rw [descriptionOf]
  cases ty.annotations.description <;> rfl

theorem flatMap_outermostWithout_descriptionOf (excluded : List Address) (ty : Ty) :
    (descriptionOf ty).flatMap (outermostWithout excluded) = descriptionOf ty := by
  rw [descriptionOf]
  cases ty.annotations.description <;> rfl

/-! ## Types without some entries -/

/-- The blocks of a type without the entries at some addresses.  The address of the type itself
stands for all of them. -/
def typeWithout (doc : Documentation) (excluded : List Address) (ty : Ty) : List Block :=
  if excluded.contains ⟨ty.id, ""⟩ then []
  else (doc.typeBlocks ty).flatMap (outermostWithout excluded)

section Excluded

variable {doc : Documentation} (everything : doc.excluded = []) (excluded : List Address)
variable {root path name : String} {around : List String} {entry : Entry} {ty : Ty}
variable {inner : Unit → List Block}

include everything

/-- The entry of a member, which stands at the path that the names lead along. -/
theorem withoutAll_entryBlocks (hn : entry.name = name) (hp : Address.dotted around = path) :
    withoutAll excluded root around
        (doc.entryBlocks ⟨root, Address.join path name⟩ entry ty inner) =
      { doc with excluded }.entryBlocks ⟨root, Address.join path name⟩ entry ty
        fun _ => withoutAll excluded root (around ++ [name]) (inner ()) := by
  rw [entryBlocks, entryBlocks, isExcluded, isExcluded, everything, ← hp, Address.join_dotted]
  dsimp only
  rw [List.contains_nil, if_neg Bool.false_ne_true, withoutAll, Block.without, withoutAll,
    Block.withoutAll_append, withoutAll_descriptionOf, List.append_nil, hn]
  split
  · rfl
  · split <;> rfl

/-- The entry of a type itself. -/
theorem outermostWithout_entryBlocks (ho : entry.owner = none) (hn : entry.name = root)
    (kept : excluded.contains ⟨root, ""⟩ = false) :
    (doc.entryBlocks ⟨root, ""⟩ entry ty inner).flatMap (outermostWithout excluded) =
      { doc with excluded }.entryBlocks ⟨root, ""⟩ entry ty
        fun _ => withoutAll excluded root [] (inner ()) := by
  rw [entryBlocks, entryBlocks, isExcluded, isExcluded, everything, kept]
  dsimp only
  rw [List.contains_nil, if_neg Bool.false_ne_true, List.flatMap_singleton, outermostWithout, ho]
  dsimp only
  rw [Block.withoutAll_append, withoutAll_descriptionOf, hn]
  split <;> rfl

/-- The entry of a member that stands outside the entry of its owner. -/
theorem outermostWithout_ownedBlocks (ho : entry.owner = some root) (hn : entry.name = name) :
    (doc.entryBlocks ⟨root, name⟩ entry ty inner).flatMap (outermostWithout excluded) =
      { doc with excluded }.entryBlocks ⟨root, name⟩ entry ty
        fun _ => withoutAll excluded root [name] (inner ()) := by
  have same : (doc.entryBlocks ⟨root, name⟩ entry ty inner).flatMap (outermostWithout excluded) =
      withoutAll excluded root [] (doc.entryBlocks ⟨root, name⟩ entry ty inner) := by
    rw [entryBlocks, isExcluded, everything, List.contains_nil, if_neg Bool.false_ne_true,
      List.flatMap_singleton, outermostWithout, withoutAll, withoutAll, List.append_nil, ho]
  rw [same]
  exact withoutAll_entryBlocks everything excluded hn rfl

/-- Two walks over a type, one of which leaves out some entries. -/
theorem simulation_excluded (root : String) :
    Simulation doc excluded root (fun _ => True) (fun _ => True) fun path blocks others =>
      ∀ around, Address.dotted around = path → withoutAll excluded root around blocks = others where
  part _ _ _ := trivial
  target _ _ _ := trivial
  of_shape _ _ := trivial
  nil _ _ := rfl
  append h h' around hp := by rw [Block.withoutAll_append, h around hp, h' around hp]
  property path given _ _ h around hp := by
    rw [withoutAll_entryBlocks everything excluded (name_innerEntry ..) hp,
      h _ (by rw [← Address.join_dotted, hp])]
  value path _ _ h around hp := by
    have value (name : String) : ({ kind := .value, name } : Entry).name = name := rfl
    rw [withoutAll_entryBlocks everything excluded (value _) hp,
      h _ (by rw [← Address.join_dotted, hp])]

theorem withoutAll_underAll (hp : Address.dotted around = path) (ty : Ty) :
    withoutAll excluded root around (doc.underAll root path ty) =
      { doc with excluded }.underAll root path ty :=
  (simulation_excluded everything excluded root).underAll (fun _ => id) path trivial around hp

/-- The blocks of a type are those there are without exclusions, but for the entries that are left
out. -/
theorem typeBlocks_excluded (ty : Ty) :
    { doc with excluded }.typeBlocks ty = doc.typeWithout excluded ty := by
  rw [typeWithout, typeBlocks, typeBlocks]
  have same : { doc with excluded }.unwrapped? ty = doc.unwrapped? ty := rfl
  rw [same]
  cases left : excluded.contains ⟨ty.id, ""⟩ with
  | true =>
    cases doc.unwrapped? ty with
    | none => exact if_pos left
    | some members => exact if_pos left
  | false =>
    rw [if_neg Bool.false_ne_true]
    cases doc.unwrapped? ty with
    | none =>
      have own : ({ kind := .setting, name := ty.id } : Entry).name = ty.id := rfl
      dsimp only
      rw [outermostWithout_entryBlocks everything excluded rfl own left]
      simp only [withoutAll_underAll everything excluded (show Address.dotted [] = "" from rfl)]
    | some members =>
      dsimp only
      rw [unwrappedBlocks, unwrappedBlocks, isExcluded, isExcluded, everything, left]
      dsimp only
      rw [List.contains_nil, if_neg Bool.false_ne_true, if_neg Bool.false_ne_true,
        List.flatMap_append, flatMap_outermostWithout_descriptionOf, List.flatMap_assoc]
      refine congrArg (_ ++ ·) (List.flatMap_congr fun member _ => Eq.symm ?_)
      obtain ⟨name, child⟩ := member
      refine (outermostWithout_ownedBlocks everything excluded ?_ ?_).trans ?_
      · rfl
      · exact name_memberEntry ..
      · simp only [withoutAll_underAll everything excluded (Address.dotted_singleton name)]

end Excluded

end Documentation

/-- What is documented in place of a type are its properties. -/
theorem Documentation.mem_properties_of_unwrapped? {doc : Documentation} {ty : Ty}
    {members : Table String Ty} {member : String × Ty} (h : doc.unwrapped? ty = some members)
    (hm : member ∈ members) : member ∈ ty.properties := by
  obtain ⟨notes, const, shape⟩ := ty
  rw [unwrapped?] at h
  split at h
  · cases shape with
    | object properties rest =>
      cases properties with
      | nil => cases h
      | cons first others =>
        cases h
        exact hm
    | _ => cases h
  · cases h

/-! ## Names inside types -/

/-- Nothing inside a type has a name. -/
def Ty.Nameless (ty : Ty) : Prop := ∀ child ∈ ty.children, child.Everywhere IsAnonymous

namespace Session

/-- Types in the cache go by different names, which nothing inside them has. -/
structure Labeled (session : Session) : Prop where
  nodup : session.cache.keys.Nodup
  ids : ∀ id ty, session.get? id = some ty → ty.id = id
  anonymous : ∀ id ty, session.get? id = some ty → ty.Nameless

/-- Every session is such, whatever names were loaded and whether they loaded or not. -/
theorem labeled_loadAll (registry : Registry) (keyword : String) (uris : List String) :
    ((fresh registry keyword).loadAll uris).Labeled where
  nodup := cache_nodup registry keyword uris
  ids id ty hg := by
    obtain ⟨_, _, rfl, _⟩ := cache_built registry keyword uris id ty hg
    rfl
  anonymous _ _ hg := cache_anonymous registry keyword uris hg

namespace Labeled

open Block (idsOfAll)
open Documentation (shown standIn?)

variable {doc : Documentation} (l : doc.session.Labeled)

include l

/-- What a reference may be written out as goes by a name that may be inlined, as do all types that
have none. -/
theorem canInline_target {target : String} (h : doc.session.canInline target = true) :
    ((doc.session.get? target).getD .any).Nameless ∧
      doc.session.canInline ((doc.session.get? target).getD .any).id = true := by
  cases hg : doc.session.get? target with
  | none => exact ⟨nofun, rfl⟩
  | some ty => exact ⟨l.anonymous target ty hg, by rwa [Option.getD_some, l.ids target ty hg]⟩

/-- The type that is documented for a property may be inlined. -/
theorem canInline_shown {ty child : Ty} (h : ty.Nameless) (hc : child ∈ ty.children)
    (given : Option Json) : doc.session.canInline (shown doc.session given child).id = true := by
  have same : (shown doc.session given child).id = ((standIn? doc.session child).getD child).id := rfl
  rw [same]
  cases hi : standIn? doc.session child with
  | none =>
    rw [Option.getD_none, (h child hc).here]
    rfl
  | some standIn =>
    obtain ⟨target, -, inline, -, id⟩ := Documentation.of_standIn? hi
    rw [Option.getD_some, id]
    exact (l.canInline_target inline).2

omit l in
/-- An entry of a type that may be inlined. -/
theorem canInline_entryBlocks {address : Address} {entry : Entry} {ty : Ty}
    {inner : Unit → List Block} (own : doc.session.canInline ty.id = true)
    (h : ∀ id ∈ idsOfAll (inner ()), doc.session.canInline id = true) :
    ∀ id ∈ idsOfAll (doc.entryBlocks address entry ty inner), doc.session.canInline id = true := by
  rw [Documentation.entryBlocks]
  split
  · exact List.forall_mem_nil _
  · intro id hi
    rcases Documentation.mem_idsOfAll_entry.mp hi with rfl | hi
    · exact own
    · split at hi
      · exact h id hi
      · cases hi

/-- Inside a type only types that may be inlined have entries. -/
theorem walk (root : String) :
    Documentation.Walk doc root Ty.Nameless fun blocks =>
      ∀ id ∈ idsOfAll blocks, doc.session.canInline id = true where
  child h hc := (h _ hc).inside
  of_shape h hs := by rwa [Ty.Nameless, Ty.children, hs]
  target _ _ inline := (l.canInline_target inline).1
  nil := nofun
  append h h' := by
    rw [Block.idsOfAll_append]
    exact fun id hid => (List.mem_append.mp hid).elim (h id) (h' id)
  property _ given h hc hi := by
    have child := Ty.mem_children.mpr (.inl ⟨_, hc, rfl⟩)
    exact canInline_entryBlocks (l.canInline_shown h child given) hi
  value _ h hc hi := by
    refine canInline_entryBlocks ?_ hi
    rw [(h _ hc).here]
    rfl

/-- The properties that are documented in place of a type have entries of types that may be
inlined. -/
theorem canInline_unwrappedBlocks {ty : Ty} (h : ty.Nameless) {members : Table String Ty}
    (hu : doc.unwrapped? ty = some members) :
    ∀ id ∈ idsOfAll (doc.unwrappedBlocks ty members), doc.session.canInline id = true := by
  have w := l.walk ty.id
  rw [Documentation.unwrappedBlocks]
  split
  · exact nofun
  · refine w.append (fun id hi => ?_) (w.flatMap fun (name, child) hm => ?_)
    · rw [Documentation.idsOfAll_descriptionOf] at hi
      cases hi
    · have hc := Documentation.mem_properties_of_unwrapped? hu hm
      have child := Ty.mem_children.mpr (.inl ⟨_, hc, rfl⟩)
      exact canInline_entryBlocks (l.canInline_shown h child _) (w.underAll name (w.shown h hc _))

/-- Of the types that may not be inlined none but the type itself is documented with a type, and that
only if it is not left out. -/
theorem mem_documented {ty : Ty} (h : ty.Nameless) {id : String}
    (hl : doc.session.canInline id = false) :
    id ∈ doc.documented ty ↔ id = ty.id ∧ doc.isExcluded ⟨ty.id, ""⟩ = false := by
  have away {blocks : List Block} (inline : ∀ id ∈ idsOfAll blocks, doc.session.canInline id = true) :
      id ∉ idsOfAll blocks := fun mem => Bool.false_ne_true (hl.symm.trans (inline id mem))
  rw [Documentation.documented, Documentation.typeBlocks]
  cases hu : doc.unwrapped? ty with
  | none =>
    have under := away ((l.walk ty.id).underAll "" h)
    dsimp only
    rw [Documentation.entryBlocks]
    cases doc.isExcluded ⟨ty.id, ""⟩ with
    | true => simp [idsOfAll]
    | false =>
      simp only [Bool.false_eq_true, if_false, Option.isSome_none, Bool.false_and, List.nil_append,
        Documentation.mem_idsOfAll_entry, and_true, or_iff_left_iff_imp]
      split
      · exact fun mem => absurd mem under
      · exact fun mem => absurd mem List.not_mem_nil
  | some members =>
    have entries := away (l.canInline_unwrappedBlocks h hu)
    cases he : doc.isExcluded ⟨ty.id, ""⟩ <;> simp [entries]

end Labeled

end Session

/-! ## The types that come last -/

namespace Documentation

/-- The section of some types, under a title if there are any. -/
def titled : List (List Block) → List Block
  | [] => []
  | first :: rest => .title typesTitle :: (first :: rest).flatten

/-- The title of a documentation, the blocks of its type, and the section of the types that come
last. -/
def page (title : Option String) (own : List Block) (types : List (List Block)) : List Block :=
  (title.map Block.title).toList ++ own ++ titled types

/-- The types that may not be inlined, but for one of them. -/
def linkedTypes (session : Session) (root : Ty) : List Ty :=
  (session.loaded.filter fun entry => !session.canInline entry.1 && entry.1 != root.id).map Prod.snd

variable {doc : Documentation} (l : doc.session.Labeled)

include l

/-- The types that come last are those that may not be inlined, were not documented before and are
not left out. -/
theorem remaining_eq (types : List (String × Ty)) (nodup : (types.map Prod.fst).Nodup)
    (cached : ∀ entry ∈ types, doc.session.get? entry.1 = some entry.2) :
    ∀ done, doc.remaining done types = (types.filter fun entry => !done.contains entry.1 &&
      !doc.session.canInline entry.1 && !doc.isExcluded ⟨entry.1, ""⟩).map
        fun entry => doc.typeBlocks entry.2 := by
  induction types with
  | nil => exact fun _ => rfl
  | cons entry rest ih =>
    obtain ⟨id, ty⟩ := entry
    rw [List.map_cons, List.nodup_cons] at nodup
    rw [List.forall_mem_cons] at cached
    have ih := ih nodup.2 cached.2
    intro done
    rw [remaining, List.filter_cons, ← Bool.not_or, ← Bool.not_or]
    cases done.contains id || doc.session.canInline id || doc.isExcluded ⟨id, ""⟩ with
    | true => exact ih done
    | false =>
      rw [Bool.not_false, if_pos rfl, if_neg Bool.false_ne_true, List.map_cons, ih]
      refine congrArg (_ :: ·) (congrArg _ (List.filter_congr fun other ho => ?_))
      -- Only the type itself was documented with it, and it does not come again.
      have different : other.1 ≠ ty.id := by
        rw [l.ids id ty cached.1]
        exact fun same => nodup.1 (same ▸ List.mem_map.mpr ⟨other, ho, rfl⟩)
      cases hi : doc.session.canInline other.1 with
      | true => simp
      | false =>
        have new : other.1 ∉ doc.documented ty := fun mem =>
          different ((l.mem_documented (l.anonymous id ty cached.1) hi).mp mem).1
        simp [new]

/-- A documentation is that of its type and of all others that may not be inlined, but for those
that are left out. -/
theorem blocks_eq (title : Option String) {root : Ty} (h : root.Nameless) :
    doc.blocks title root = page title (doc.typeBlocks root)
      (if doc.recursive then ((linkedTypes doc.session root).filter fun ty =>
        !doc.isExcluded ⟨ty.id, ""⟩).map doc.typeBlocks else []) := by
  have last := remaining_eq l doc.session.loaded
    (((List.mergeSort_perm _ _).map Prod.fst).nodup_iff.mpr l.nodup)
    (fun entry he => Session.get?_of_loaded l.nodup he) (doc.documented root)
  have same : (doc.session.loaded.filter fun entry => !(doc.documented root).contains entry.1 &&
      !doc.session.canInline entry.1 && !doc.isExcluded ⟨entry.1, ""⟩).map
        (fun entry => doc.typeBlocks entry.2) =
      ((linkedTypes doc.session root).filter fun ty =>
        !doc.isExcluded ⟨ty.id, ""⟩).map doc.typeBlocks := by
    rw [linkedTypes, List.filter_map, List.filter_filter, List.map_map]
    refine congrArg (List.map _) (List.filter_congr fun entry he => ?_)
    have id := l.ids _ _ (Session.get?_of_loaded l.nodup he)
    rw [Function.comp_apply, id]
    cases hi : doc.session.canInline entry.1 with
    | true => simp
    | false =>
      have documented := l.mem_documented h hi
      cases hx : doc.isExcluded ⟨entry.1, ""⟩ with
      | true => simp
      | false =>
        by_cases own : entry.1 = root.id
        · have mem := documented.mpr ⟨own, own ▸ hx⟩
          simp [own] at mem ⊢
          exact mem
        · have new : entry.1 ∉ doc.documented root := fun mem => own (documented.mp mem).1
          simp [own, new]
  rw [blocks, page]
  split
  · rw [← same, ← last, typesSection]
    cases doc.remaining (doc.documented root) doc.session.loaded <;> rfl
  · rfl

end Documentation

/-! ## Documentations with exclusions -/

namespace Session

open Documentation (linkedTypes loadExclusions page readExclusion?)

/-- The address that a text leaves out, if the name in it is that of a type in the cache. -/
def excludedBy? (session : Session) (text : String) : Option Address :=
  match readExclusion? text with
  | none => none
  | some (target, path) =>
    match session.registry.placeOf session.base target with
    | .error _ => none
    | .ok place => (session.get? place.id).map fun ty => ⟨ty.id, path⟩

/-- The name in a text of what to leave out, if there is one, is that of a type in the cache. -/
def ExcludesCached (session : Session) (text : String) : Prop :=
  ∀ target path, readExclusion? text = some (target, path) → ∃ place,
    session.registry.placeOf session.base target = .ok place ∧ (session.get? place.id).isSome

theorem excludesCached_of_excludedBy? {session : Session} {text : String} {address : Address}
    (h : session.excludedBy? text = some address) : session.ExcludesCached text := by
  intro target path hr
  rw [excludedBy?, hr] at h
  dsimp only at h
  cases hp : session.registry.placeOf session.base target with
  | error error =>
    rw [hp] at h
    cases h
  | ok place =>
    rw [hp] at h
    obtain ⟨ty, hg, -⟩ := Option.map_eq_some_iff.mp h
    exact ⟨place, rfl, by rw [hg]; rfl⟩

/-- Nothing is loaded for what to leave out if it is in the cache. -/
theorem loadExclusions_eq {session : Session} {texts : List String}
    (cached : ∀ text ∈ texts, session.ExcludesCached text) :
    loadExclusions session texts = (.ok (texts.filterMap session.excludedBy?), session) := by
  induction texts with
  | nil => rfl
  | cons text rest ih =>
    rw [List.forall_mem_cons] at cached
    have ih := ih cached.2
    rw [loadExclusions, List.filterMap_cons, excludedBy?]
    cases hr : readExclusion? text with
    | none => exact ih
    | some exclusion =>
      obtain ⟨target, path⟩ := exclusion
      obtain ⟨place, hp, found⟩ := cached.1 target path hr
      obtain ⟨ty, hg⟩ := Option.isSome_iff_exists.mp found
      simp only [load_of_get? hp hg, ih, hp, hg, Option.map_some]

/-- If all that is to be left out is in the cache once a name is loaded, leaving it out changes
nothing else.  The documentation with exclusions is the one without, but for the entries at these
addresses and what is inside them, and the types that come last are the same, but for those that
are left out.  Neither run loads anything more. -/
theorem document_excluded (registry : Registry) (keyword : String) (uris : List String)
    {uri : String} {options : Documentation.Options} {root : Ty} {loaded : Session}
    (hl : ((fresh registry keyword).loadAll uris).load uri = (.ok root, loaded))
    (cached : ∀ text ∈ options.exclude, loaded.ExcludesCached text) :
    let doc : Documentation := ⟨loaded, options.recursive, options.unwrap, []⟩
    let excluded := options.exclude.filterMap loaded.excludedBy?
    ((fresh registry keyword).loadAll uris).document uri { options with exclude := [] } =
        (.ok (page options.title (doc.typeBlocks root)
          (if options.recursive then (linkedTypes loaded root).map doc.typeBlocks else [])),
        loaded) ∧
      ((fresh registry keyword).loadAll uris).document uri options =
        (.ok (page options.title (doc.typeWithout excluded root)
          (if options.recursive then ((linkedTypes loaded root).filter fun ty =>
            !excluded.contains ⟨ty.id, ""⟩).map (doc.typeWithout excluded) else [])),
        loaded) := by
  intro doc excluded
  have l : loaded.Labeled := by
    rw [← show (fresh registry keyword).loadAll (uris ++ [uri]) = loaded from loadAll_of_load hl []]
    exact labeled_loadAll registry keyword _
  obtain ⟨id, hg⟩ := exists_get?_of_load (resting_loadAll uris (fresh_resting registry keyword)) hl []
  have nameless : root.Nameless := l.anonymous id root hg
  constructor
  · rw [document, hl]
    have whole := @Documentation.blocks_eq doc l options.title root nameless
    have all : (linkedTypes loaded root).filter (fun ty => !doc.isExcluded ⟨ty.id, ""⟩) =
        linkedTypes loaded root := List.filter_eq_self.mpr fun _ _ => rfl
    rw [all] at whole
    exact congrArg (fun blocks => (Except.ok blocks, loaded)) whole
  · rw [document, hl]
    dsimp only
    rw [loadExclusions_eq cached]
    have left := @Documentation.blocks_eq { doc with excluded } l options.title root nameless
    have types : Documentation.typeBlocks { doc with excluded } = doc.typeWithout excluded :=
      funext (Documentation.typeBlocks_excluded (show doc.excluded = [] from rfl) excluded)
    rw [types] at left
    exact congrArg (fun blocks => (Except.ok blocks, loaded)) left

/-- An object inside an object, and a definition to which both refer. -/
def groupedSchema : Json :=
  .object [("type", .string "object"), ("properties", .object [
      ("p", .object [("type", .string "object"), ("properties", .object [
        ("q", .object [("type", .string "boolean")]),
        ("r", .object [("$ref", .string "Root#/$defs/T")])])]),
      ("s", .object [("$ref", .string "#/$defs/T")])]),
    ("$defs", .object [("T", .object [("type", .string "string")])])]

/-- A setting of the inner object is left out, and the definition. -/
theorem grouped_document_excluded :
    ∃ root loaded, (fresh (Registry.register {} "Root" groupedSchema).crawl "mark").load "Root" =
        (.ok root, loaded) ∧
      (fresh (Registry.register {} "Root" groupedSchema).crawl "mark").document "Root"
          { recursive := true, exclude := ["Root p.q", "Root#/$defs/T"] } =
        (.ok (page none (Documentation.typeWithout ⟨loaded, true, false, []⟩
            [⟨"Root", "p.q"⟩, ⟨"Root#/$defs/T", ""⟩] root)
          (((linkedTypes loaded root).filter fun ty =>
            !([⟨"Root", "p.q"⟩, ⟨"Root#/$defs/T", ""⟩] : List Address).contains ⟨ty.id, ""⟩).map
              (Documentation.typeWithout ⟨loaded, true, false, []⟩
                [⟨"Root", "p.q"⟩, ⟨"Root#/$defs/T", ""⟩]))), loaded) := by
  have computed : passes ((fresh (Registry.register {} "Root" groupedSchema).crawl "mark").load
      "Root") (fun _ loaded => ["Root p.q", "Root#/$defs/T"].map loaded.excludedBy? ==
        [some ⟨"Root", "p.q"⟩, some ⟨"Root#/$defs/T", ""⟩]) = true := by decide +kernel
  obtain ⟨root, loaded, hl, computed⟩ := exists_of_passes computed
  have read := eq_of_beq computed
  simp only [List.map_cons, List.map_nil, List.cons.injEq, and_true] at read
  have cached : ∀ text ∈ ["Root p.q", "Root#/$defs/T"], loaded.ExcludesCached text := by
    simp [excludesCached_of_excludedBy? read.1, excludesCached_of_excludedBy? read.2]
  have left := (@document_excluded _ "mark" [] "Root"
    { recursive := true, exclude := ["Root p.q", "Root#/$defs/T"] } root loaded hl cached).2
  simp only [List.filterMap_cons, List.filterMap_nil, read] at left
  exact ⟨root, loaded, hl, left⟩

end Session

end SchemaDoc
