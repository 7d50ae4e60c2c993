import SchemaDoc.Proofs.Documentation.Excluded
import SchemaDoc.Proofs.Session.Inlining
import SchemaDoc.Proofs.Session.Selections

/-!
# The types that entries show

An entry that shows a type is that of a property, `Documentation.Presents`, and it shows the type
that the property has in the signature of its object, `Session.entry_types`.  That takes an argument
where a target stands in for the property: the entry shows the signature of the target and the object
that of the reference.

There is one difference, and it is meant.  What stands in for an option is the target of the
reference in it, so the entry shows the type without the mark of what may be null.

Nothing is said here of a property that goes *astray*: a type of the empty name, which may always be
inlined, may be inside itself or not be in the cache at all.
-/

namespace SchemaDoc

open Documentation (standIn? shown memberEntry innerEntry propertyEntry)

/-! ## Entries of properties -/

namespace Documentation

/-- The entry that a property has if its object has none. -/
def ownedEntry (session : Session) (owner : String) (given : Option Json) (name : String)
    (child : Ty) : Entry :=
  { memberEntry session name (shown session given child) with
    owner := some owner
    required := (shown session given child).annotations.required
    deprecated := (shown session given child).annotations.deprecated }

/-- An entry is that of a property, in the entry of its object or in place of that. -/
inductive Presents (session : Session) (name : String) (child : Ty) : Entry → Prop where
  | inner (given : Option Json) : Presents session name child (propertyEntry session given name child)
  | owned (owner : String) (given : Option Json) :
      Presents session name child (ownedEntry session owner given name child)

variable {session : Session} {name text : String} {child : Ty} {head : Entry}

/-- The entry of a property shows the signature of the property or of what stands in for it. -/
theorem Presents.signature (h : Presents session name child head)
    (hs : head.signature = some text) :
    text = session.print ((standIn? session child).getD child) false := by
  cases h with
  | inner given => rw [signature_innerEntry hs, shown, withGiven, Session.print_annotate]
  | owned owner given => rw [signature_memberEntry hs, shown, withGiven, Session.print_annotate]

/-- All entries in some blocks that show a type are those of properties. -/
def Presented (session : Session) (blocks : List Block) : Prop :=
  ∀ head, .enter head ∈ Block.eventsOfAll blocks → head.signature.isSome →
    ∃ name child, session.HasProperty name child ∧ Presents session name child head

theorem presented_nil : Presented session [] := fun _ he => (List.not_mem_nil he).elim

theorem Presented.append {blocks others : List Block} (h : Presented session blocks)
    (h' : Presented session others) : Presented session (blocks ++ others) := by
  intro head he
  rw [Block.eventsOfAll_append] at he
  exact (List.mem_append.mp he).elim (h head) (h' head)

variable {doc : Documentation} {address : Address} {entry : Entry} {ty : Ty}
variable {inner : Unit → List Block}

/-- The entries inside an entry are those of properties, and so is the entry if it shows a type. -/
theorem presented_entryBlocks
    (own : entry.signature.isSome → ∃ name child, doc.session.HasProperty name child ∧
      Presents doc.session name child { entry with
        required := ty.annotations.required, deprecated := ty.annotations.deprecated })
    (h : Presented doc.session (inner ())) :
    Presented doc.session (doc.entryBlocks address entry ty inner) := by
  rw [entryBlocks]
  split
  · exact presented_nil
  · have inside : Presented doc.session (if doc.recursive then inner () else []) := by
      split
      · exact h
      · exact presented_nil
    intro head he
    rcases enter_mem_eventsOfAll_entry.mp he with rfl | he
    · exact own
    · exact inside head he

/-- A type is a part of one in the cache, or any value. -/
def Known (session : Session) (ty : Ty) : Prop := session.Meets ty ∨ ty.shape = Ty.any.shape

theorem Known.property (h : Known session ty) (hc : (name, child) ∈ ty.properties) :
    session.HasProperty name child := by
  rcases h with met | any
  · exact met.property hc
  · rw [Ty.properties, any] at hc
    cases hc

/-- What a walk makes of the types in the cache. -/
theorem presented_walk (doc : Documentation) (root : String) :
    Walk doc root (Known doc.session) (Presented doc.session) where
  child {ty child} h hc := by
    rcases h with met | any
    · exact .inl (met.child hc)
    · rw [Ty.children, any] at hc
      cases hc
  of_shape h hs := h.imp (fun met => met.of_shape hs) fun any => hs.trans any
  target {ty target} _ _ _ := by
    cases hg : doc.session.get? target with
    | none => exact .inr rfl
    | some found => exact .inl (Session.meets_of_get? hg)
  nil := presented_nil
  append := Presented.append
  property _ given h hc hi :=
    presented_entryBlocks (fun _ => ⟨_, _, h.property hc, .inner given⟩) hi
  value _ _ _ h := presented_entryBlocks nofun h

theorem presented_typeBlocks (doc : Documentation) (h : Known doc.session ty) :
    Presented doc.session (doc.typeBlocks ty) := by
  have w := presented_walk doc ty.id
  rw [typeBlocks]
  split
  · rename_i members hu
    rw [unwrappedBlocks]
    split
    · exact presented_nil
    · refine w.append (fun head he => absurd he (not_enter_mem_descriptionOf ty head))
        (w.flatMap fun member hm => ?_)
      have hc := mem_properties_of_unwrapped? hu hm
      refine presented_entryBlocks (fun _ => ⟨member.1, member.2, h.property hc, .owned ty.id _⟩) ?_
      exact w.underAll member.1 (w.shown h hc _)
  · exact presented_entryBlocks (fun shows => absurd shows Bool.false_ne_true) (w.underAll "" h)

/-- The entries of a documentation that show a type are those of properties. -/
theorem presented_blocks (doc : Documentation) (title : Option String) {root : Ty}
    (h : doc.session.Meets root) (nodup : doc.session.cache.keys.Nodup) :
    Presented doc.session (doc.blocks title root) := by
  refine of_typeBlocks presented_nil Presented.append (fun text head he => ?_)
    (presented_typeBlocks doc (.inl h)) (fun entry he => ?_) title
  · simp [Block.eventsOfAll, Block.events] at he
  · exact presented_typeBlocks doc (.inl (Session.meets_of_get? (Session.get?_of_loaded nodup he)))

end Documentation

/-! ## What stands in for a property -/

namespace Session

variable {session : Session} {child standIn : Ty}

/-- An option gives way to the target of the reference in it. -/
def GivesWay (session : Session) (child : Ty) : Prop :=
  child.isOptional = true ∧ (standIn? session child).isSome

/-- A property runs in a circle, or it refers to the empty name and that has no type. -/
def Astray (session : Session) (child : Ty) : Prop :=
  session.Circles child ∨ child.unwrapOptional.target? = some "" ∧ session.get? "" = none

/-- What stands in for a property has the signature of the reference in it. -/
theorem print_standIn (normal : session.Normal) (straight : ¬ session.Astray child)
    (h : standIn? session child = some standIn) (parens : Bool) :
    session.print standIn parens = session.print child.unwrapOptional parens := by
  obtain ⟨target, found, ht, inline, hf, shape, -, const, -⟩ := Documentation.exists_of_standIn? h
  cases hg : session.get? target with
  | none =>
    have empty : target = "" := by simpa [canInline, hg] using inline
    exact absurd (.inr ⟨empty ▸ ht, empty ▸ hg⟩) straight
  | some kept =>
    obtain rfl : kept = found := by simpa [hg] using hf
    have unwrapped : child.unwrapOptional.unwrapOptional.target? = some target := by
      rw [Ty.unwrapOptional_of_target? ht, ht]
    -- An option enters what the reference in it enters, so a circle of one is a circle of the other.
    have straight : ¬ session.Circles child.unwrapOptional := fun circles =>
      straight (.inl (Circles.mono circles fun name goes => by
        have same := (Ty.enters_iff_of_unwrapOptional unwrapped).mp goes.1
        exact ⟨(Ty.enters_iff_of_unwrapOptional ht).mpr same, goes.2⟩))
    rw [print_of_target? normal ht inline hg straight]
    exact Ty.printWith_of_shape shape const parens

/-- An option that gives way is unwrapped in one step. -/
theorem present?_of_givesWay (normal : child.IsNormal) (h : session.GivesWay child) :
    child.present? = some child.unwrapOptional := by
  obtain ⟨optional, standsIn⟩ := h
  obtain ⟨standIn, hs⟩ := Option.isSome_iff_exists.mp standsIn
  obtain ⟨target, -, ht, -⟩ := Documentation.exists_of_standIn? hs
  cases hp : child.present? with
  | none =>
    rw [Ty.unwrapOptional_eq, hp] at ht
    obtain ⟨notes, const, rfl⟩ := Ty.exists_of_target? ht
    cases optional
  | some item => rw [Ty.unwrapOptional_of_normal normal hp]

/-- The mark of what may be null is all that the signature of an option has more than that of its
member, but for parentheses. -/
theorem marks_print (normal : child.IsNormal) {item : Ty} (h : child.present? = some item) :
    Marks (session.print child false) (session.print item false) := by
  rw [print, Ty.printWith_of_present? normal h]
  rcases session.encloses_print item with same | enclosed
  · exact .inl (by rw [← same]; rfl)
  · refine .inr ?_
    rw [← enclosed, Ty.orNever_of_ne]
    · rfl
    · change session.print item true ≠ ""
      rw [enclosed]
      simp [String.append_eq_empty_iff]

/-- A property of an object in the cache is in normal form if the cache is. -/
theorem HasProperty.normal {name : String} (h : session.HasProperty name child)
    (normal : session.Normal) : child.Everywhere Ty.IsNormal := by
  obtain ⟨id, root, part, hg, holds, hc⟩ := h
  have whole := holds.everywhere (normal id root hg)
  exact whole.inside child (Ty.mem_children.mpr (.inl ⟨_, hc, rfl⟩))

/-! ## Sessions after a documentation -/

/-- What is loaded for what to leave out are some names. -/
theorem exists_loadAll_of_loadExclusions {texts : List String} :
    ∀ {session after : Session} {addresses : List Address},
      Documentation.loadExclusions session texts = (.ok addresses, after) →
        ∃ more, after = session.loadAll more := by
  induction texts with
  | nil =>
    intro session after addresses h
    cases h
    exact ⟨[], rfl⟩
  | cons text rest ih =>
    intro session after addresses h
    rw [Documentation.loadExclusions] at h
    split at h
    · exact ih h
    · rename_i target path _
      split at h
      · cases h
      · rename_i ty loaded hl
        split at h
        · cases h
        · rename_i addresses' last hr
          cases h
          obtain ⟨more, rfl⟩ := ih hr
          have run := @loadAll_of_load session loaded [] target (.ok ty) hl more
          exact ⟨target :: more, run.symm⟩

/-- A documentation is that of a type in the cache, in a session after some loads. -/
theorem exists_of_document (registry : Registry) (keyword : String) (uris : List String)
    {uri : String} {options : Documentation.Options} {blocks : List Block} {after : Session}
    (hd : ((fresh registry keyword).loadAll uris).document uri options = (.ok blocks, after)) :
    ∃ root excluded more, after = (fresh registry keyword).loadAll more ∧ after.Meets root ∧
      blocks = Documentation.blocks ⟨after, options.recursive, options.unwrap, excluded⟩
        options.title root := by
  rw [document] at hd
  split at hd
  · cases hd
  · rename_i root loaded hl
    split at hd
    · cases hd
    · rename_i excluded last hx
      cases hd
      obtain ⟨more, rfl⟩ := exists_loadAll_of_loadExclusions hx
      obtain ⟨id, hg⟩ := exists_get?_of_load
        (resting_loadAll uris (fresh_resting registry keyword)) hl more
      exact ⟨root, excluded, uris ++ uri :: more, (loadAll_of_load hl more).symm,
        meets_of_get? hg, rfl⟩

/-- In a complete session no property goes astray. -/
theorem Complete.not_astray (c : session.Complete) {name : String}
    (h : session.HasProperty name child) : ¬ session.Astray child := by
  rintro (circles | ⟨ht, lost⟩)
  · exact c.not_circles child circles
  · obtain ⟨id, root, part, hg, holds, hc⟩ := h
    have inside := holds.child (Ty.mem_children.mpr (.inl ⟨_, hc, rfl⟩))
    have enters := (Ty.enters_iff_of_unwrapOptional ht).mpr rfl
    have known := c.known_of_meets ⟨id, root, child, hg, inside, rfl⟩ "" enters.mem_targets
    rw [lost] at known
    cases known

/-! ## The types that entries show -/

/-- The signature of an object shows those of its properties. -/
theorem print_of_properties (session : Session) {ty : Ty} (h : ty.properties ≠ []) (parens : Bool) :
    session.print ty parens = "\x7b" ++ String.intercalate ", " (ty.properties.map fun property =>
      Json.quote property.1 ++ ": " ++ session.print property.2 false) ++ "\x7d" := by
  obtain ⟨notes, const, shape⟩ := ty
  cases shape with
  | object members rest =>
    cases members with
    | nil => exact absurd rfl h
    | cons member members =>
      simp only [print, Ty.printWith, Ty.printMembers_eq_map]
      rfl
  | _ => exact absurd rfl h

/-- In a session after any loads each entry that shows a type is that of a property of an object in
the cache, and it shows the signature of that property, which is the one that the signature of the
object has for it.  Only an option that gives way to the target of a reference is shown as the
reference in it, without the mark of what may be null. -/
theorem entry_types (registry : Registry) (keyword : String) (uris : List String) {uri : String}
    {options : Documentation.Options} {blocks : List Block} {after : Session}
    (hd : ((fresh registry keyword).loadAll uris).document uri options = (.ok blocks, after))
    {head : Entry} {text : String} (he : .enter head ∈ Block.eventsOfAll blocks)
    (hs : head.signature = some text) :
    (∃ name child, after.HasProperty name child ∧ Documentation.Presents after name child head) ∧
      (∀ name child, after.HasProperty name child → Documentation.Presents after name child head →
        ¬ after.Astray child →
        (¬ after.GivesWay child → text = after.print child false) ∧
        (after.GivesWay child → text = after.print child.unwrapOptional false ∧
          Marks (after.print child false) text)) ∧
      ∀ ty : Ty, ty.properties ≠ [] → ∀ parens, after.print ty parens =
        "\x7b" ++ String.intercalate ", " (ty.properties.map fun property =>
          Json.quote property.1 ++ ": " ++ after.print property.2 false) ++ "\x7d" := by
  obtain ⟨root, excluded, more, rfl, meets, rfl⟩ := exists_of_document registry keyword uris hd
  refine ⟨?_, fun name child hc presents straight => ?_, fun ty given => print_of_properties _ given⟩
  · exact Documentation.presented_blocks _ _ meets (cache_nodup registry keyword more) head he
      (by rw [hs]; rfl)
  · have normal : Session.Normal _ := fun id found hg => cache_normal registry keyword more hg
    have whole := hc.normal normal
    have shown := presents.signature hs
    cases hi : standIn? ((fresh registry keyword).loadAll more) child with
    | none =>
      -- The entry is that of the property itself, so nothing has given way.
      rw [hi, Option.getD_none] at shown
      refine ⟨fun _ => shown, fun gives => ?_⟩
      rw [GivesWay, hi] at gives
      cases gives.2
    | some standIn =>
      rw [hi, Option.getD_some, print_standIn normal straight hi] at shown
      refine ⟨fun stays => ?_, fun gives => ⟨shown, ?_⟩⟩
      · have plain : child.isOptional = false := by
          by_contra optional
          exact stays ⟨by simpa using optional, by rw [hi]; rfl⟩
        rw [shown, Ty.unwrapOptional_of_not_isOptional plain]
      · rw [shown]
        exact marks_print whole.here (present?_of_givesWay whole.here gives)

/-- An object with a reference and an optional reference, to a type each. -/
def twoReferences : Json :=
  objectSchema [("p", .object [("$ref", .string "#/$defs/P")]),
      ("q", .object [("anyOf", .array [.object [("$ref", .string "#/$defs/Q")],
        .object [("type", .string "null")]])])]
    [("$defs", .object [("P", .object [("type", .array [.string "integer", .string "string"])]),
      ("Q", .object [("type", .string "integer")])])]

/-- A property of a type in the cache. -/
def property? (session : Session) (id name : String) : Option Ty :=
  (session.get? id).bind fun root => Table.get? root.properties name

/-- The reference is shown with the signature of its target. -/
theorem reference_entry_types :
    ∃ blocks after child text,
      (fresh (Registry.register {} "Root" twoReferences).crawl "mark").document "Root"
        { recursive := true } = (.ok blocks, after) ∧
      after.property? "Root" "p" = some child ∧
      .enter (propertyEntry after none "p" child) ∈ Block.eventsOfAll blocks ∧
      (propertyEntry after none "p" child).signature = some text ∧
      text = after.print child false := by
  have computed : passes ((fresh (Registry.register {} "Root" twoReferences).crawl "mark").document
      "Root" { recursive := true }) (fun blocks after => (after.property? "Root" "p").any fun child =>
        decide (.enter (propertyEntry after none "p" child) ∈ Block.eventsOfAll blocks) &&
          (propertyEntry after none "p" child).signature.isSome && !child.isOptional) = true := by
    decide +kernel
  obtain ⟨blocks, after, hd, computed⟩ := exists_of_passes computed
  simp only [Option.any_eq_true, Bool.and_eq_true, Bool.not_eq_true', decide_eq_true_eq] at computed
  obtain ⟨child, hc, ⟨entered, shows⟩, plain⟩ := computed
  obtain ⟨text, hs⟩ := Option.isSome_iff_exists.mp shows
  obtain ⟨root, hl, -⟩ := load_of_document hd
  have complete := complete_of_load "mark" (.register "Root" twoReferences .empty)
    (by decide +kernel) (by decide +kernel) [] rfl hl
  obtain ⟨found, hg, hm⟩ := Option.bind_eq_some_iff.mp hc
  have hp : after.HasProperty "p" child := ⟨"Root", found, found, hg, .self, Table.mem_of_get? hm⟩
  have shown := (entry_types _ "mark" [] hd entered hs).2.1 "p" child hp (.inner none)
    (complete.not_astray hp)
  refine ⟨blocks, after, child, text, hd, hc, entered, hs, shown.1 fun gives => ?_⟩
  exact Bool.false_ne_true (plain.symm.trans gives.1)

/-- The optional reference is shown without the mark that it has in the signature of its object,
in the entry of the object or in place of that. -/
theorem not_entry_types :
    passes ((fresh (Registry.register {} "Root" twoReferences).crawl "mark").document "Root"
        { recursive := true }) (fun blocks after =>
      (after.property? "Root" "q").any fun child =>
        decide (.enter (propertyEntry after none "q" child) ∈ Block.eventsOfAll blocks) &&
          (propertyEntry after none "q" child).signature == some "integer" &&
          after.print child false == "integer?") ∧
    passes ((fresh (Registry.register {} "Root" twoReferences).crawl "mark").document "Root"
        { unwrap := true }) (fun blocks after =>
      (after.property? "Root" "q").any fun child =>
        decide (.enter (Documentation.ownedEntry after "Root" none "q" child) ∈
            Block.eventsOfAll blocks) &&
          (Documentation.ownedEntry after "Root" none "q" child).signature == some "integer" &&
          after.print child false == "integer?") := by
  decide +kernel

end Session

end SchemaDoc
