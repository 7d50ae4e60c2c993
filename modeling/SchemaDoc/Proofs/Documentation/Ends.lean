import SchemaDoc.Proofs.Documentation.Walk
import SchemaDoc.Proofs.Session.Cycles
import SchemaDoc.Proofs.Session.Expansions

/-!
# Where documentation has no end

Unlike signatures and examples, a documentation keeps no names of the targets around the one it is
at.  It goes into every target that may be inlined and is in the cache, `Session.GoesInto`, and from
there into others, `Session.Opens`.  If none of those is inside itself, no more targets are inside
each other than there are types in the cache, `Documentation.iterate_eq`.  Otherwise a documentation
that leaves nothing out has no end, `Documentation.Whole.ends_iff`: whatever the number of steps, it
matters what the next one would make.

A type is inside itself only if it goes by the empty name, `Session.opens_empty`, which may always
be inlined.  So only a registry with a document under that name has such documentations.
-/

namespace SchemaDoc

open Relation (ReflTransGen TransGen)

/-! ## What is gone into -/

namespace Session

/-- The documentation of a type goes into a type in the cache. -/
def GoesInto (session : Session) (ty : Ty) (target : String) : Prop :=
  ty.Enters target ∧ session.canInline target = true ∧ (session.get? target).isSome

/-- The documentation of a type in the cache goes into another. -/
def Opens (session : Session) (id target : String) : Prop :=
  ∃ ty, session.get? id = some ty ∧ session.GoesInto ty target

/-- A name leads to one whose type is inside itself. -/
def Turns (session : Session) (id : String) : Prop :=
  ∃ name, ReflTransGen session.Opens id name ∧ TransGen session.Opens name name

/-- The documentation of a type goes into one that is inside itself, directly or not. -/
def Circles (session : Session) (ty : Ty) : Prop :=
  ∃ target, session.GoesInto ty target ∧ session.Turns target

variable {session : Session} {ty : Ty} {target : String}

theorem GoesInto.of_shape {a b : Ty} (h : session.GoesInto a target) (hs : b.shape = a.shape) :
    session.GoesInto b target := ⟨Ty.enters_of_shape hs h.1, h.2⟩

theorem Circles.of_shape {a b : Ty} (h : session.Circles a) (hs : b.shape = a.shape) :
    session.Circles b := by
  obtain ⟨target, goes, turns⟩ := h
  exact ⟨target, goes.of_shape hs, turns⟩

theorem Circles.mono {a b : Ty} (h : session.Circles a)
    (into : ∀ target, session.GoesInto a target → session.GoesInto b target) :
    session.Circles b := by
  obtain ⟨target, goes, turns⟩ := h
  exact ⟨target, into target goes, turns⟩

/-- A reference goes into its target. -/
theorem goesInto_of_target? (ht : ty.target? = some target)
    (inline : session.canInline target = true) {found : Ty}
    (hg : session.get? target = some found) : session.GoesInto ty target := by
  obtain ⟨notes, const, rfl⟩ := Ty.exists_of_target? ht
  exact ⟨.reference rfl List.mem_cons_self, inline, by rw [hg]; rfl⟩

/-- What leads into a circle goes into something that does. -/
theorem Turns.circles (h : session.Turns target) {found : Ty}
    (hg : session.get? target = some found) : session.Circles found := by
  obtain ⟨name, leads, circle⟩ := h
  have onward {id : String} (opens : session.Opens target id) : session.GoesInto found id := by
    obtain ⟨ty, hg', goes⟩ := opens
    rw [hg] at hg'
    cases hg'
    exact goes
  rcases leads.cases_head with rfl | ⟨next, opens, leads⟩
  · obtain ⟨next, opens, back⟩ := TransGen.head'_iff.mp circle
    exact ⟨next, onward opens, target, back, circle⟩
  · exact ⟨next, onward opens, name, leads, circle⟩

/-- A type that a documentation goes into and that runs in a circle makes one of the type. -/
theorem GoesInto.circles (goes : session.GoesInto ty target) {found : Ty}
    (hg : session.get? target = some found) (h : session.Circles found) : session.Circles ty := by
  obtain ⟨next, goes', name, leads, circle⟩ := h
  exact ⟨target, goes, name, .head ⟨found, hg, goes'⟩ leads, circle⟩

/-- Whatever is in the place of a target that a documentation goes into is straight, if the type
above is.  A target that is not in the cache is any value, in which nothing is gone into. -/
theorem straight_of_enters (straight : ¬ session.Circles ty) (enters : ty.Enters target)
    (inline : session.canInline target = true) {found : Ty}
    (shape : found.shape = ((session.get? target).getD .any).shape) : ¬ session.Circles found := by
  intro circles
  have circles := circles.of_shape shape.symm
  cases hg : session.get? target with
  | none =>
    rw [hg] at circles
    obtain ⟨_, goes, -⟩ := circles
    cases goes.1.mem_targets
  | some kept =>
    rw [hg] at circles
    exact straight (GoesInto.circles ⟨enters, inline, by rw [hg]; rfl⟩ hg circles)

/-- The names that were met lead to whatever the documentation of a type goes into. -/
def Behind (session : Session) (met : List String) (ty : Ty) : Prop :=
  ∀ name ∈ met, ∀ target, session.GoesInto ty target → TransGen session.Opens name target

variable {met : List String}

/-- Without circles no name that was met comes again. -/
theorem Behind.not_mem (behind : session.Behind met ty) (straight : ¬ session.Circles ty)
    (goes : session.GoesInto ty target) : target ∉ met :=
  fun old => straight ⟨target, goes, target, .refl, behind target old target goes⟩

/-- A target that is met leads to whatever is in it, and so do the names before. -/
theorem Behind.cons (behind : session.Behind met ty) (goes : session.GoesInto ty target)
    {kept found : Ty} (hg : session.get? target = some kept) (shape : found.shape = kept.shape) :
    session.Behind (target :: met) found := by
  have opens {next : String} (onward : session.GoesInto found next) : session.Opens target next :=
    ⟨kept, hg, onward.of_shape shape.symm⟩
  refine List.forall_mem_cons.mpr ⟨fun next onward => .single (opens onward), ?_⟩
  exact fun name hm next onward => (behind name hm target goes).tail (opens onward)

/-! ## Only the empty name is inside itself -/

/-- Going from one type into another, unless one of them has the empty name, is inlining. -/
theorem Opens.inlines {id : String} (h : session.Opens id target) (given : id ≠ "")
    (given' : target ≠ "") : session.Inlines id target := by
  obtain ⟨ty, hg, enters, inline, cached⟩ := h
  refine ⟨⟨given, given', ?_, cached⟩, inline⟩
  rw [targetsOf, hg]
  exact enters.mem_targets

/-- A way from one type into another is one of inlining or passes the empty name. -/
theorem inlines_or_empty {id : String} (h : TransGen session.Opens id target) :
    TransGen session.Inlines id target ∨
      ReflTransGen session.Opens id "" ∧ ReflTransGen session.Opens "" target := by
  induction h with
  | @single target opens =>
    by_cases start : id = ""
    · exact .inr ⟨start ▸ .refl, start ▸ .single opens⟩
    · by_cases stop : target = ""
      · exact .inr ⟨stop ▸ .single opens, stop ▸ .refl⟩
      · exact .inl (.single (opens.inlines start stop))
  | @tail middle target leads opens ih =>
    rcases ih with inlines | ⟨before, after⟩
    · by_cases start : middle = ""
      · exact .inr ⟨start ▸ leads.to_reflTransGen, start ▸ .single opens⟩
      · by_cases stop : target = ""
        · exact .inr ⟨stop ▸ leads.to_reflTransGen.tail opens, stop ▸ .refl⟩
        · exact .inl (inlines.tail (opens.inlines start stop))
    · exact .inr ⟨before, after.tail opens⟩

/-- If a documentation runs in a circle, the type of the empty name is inside itself. -/
theorem opens_empty (acyclic : ∀ id, ¬ TransGen session.Inlines id id) (h : session.Circles ty) :
    TransGen session.Opens "" "" := by
  obtain ⟨-, -, name, -, circle⟩ := h
  rcases inlines_or_empty circle with inlines | ⟨before, after⟩
  · exact absurd inlines (acyclic name)
  · exact .trans_right after (circle.trans_left before)

/-- If no type has the empty name, no documentation runs in a circle. -/
theorem not_circles (acyclic : ∀ id, ¬ TransGen session.Inlines id id)
    (named : session.get? "" = none) (ty : Ty) : ¬ session.Circles ty := by
  intro circles
  obtain ⟨next, ⟨ty, hg, -⟩, -⟩ := TransGen.head'_iff.mp (opens_empty acyclic circles)
  rw [named] at hg
  cases hg

end Session

namespace Documentation

open Block (eventsOfAll)

variable {doc : Documentation} {root path : String} {ty : Ty} {target : String}

/-! ## Steps into targets -/

/-- One step of going into a type. -/
def step (doc : Documentation) (root : String) (next : String → Ty → List Block) (path : String)
    (ty : Ty) : List Block := doc.under root next path ty.default? ty

/-- The documentation of what is under a type ends: so many steps decide what it is. -/
def Ends (doc : Documentation) (root path : String) (ty : Ty) : Prop :=
  ∃ steps, ∀ beyond other : String → Ty → List Block,
    (doc.step root)^[steps] beyond path ty = (doc.step root)^[steps] other path ty

theorem underWithin_eq (doc : Documentation) (root : String) (room : Nat) :
    doc.underWithin root room = (doc.step root)^[room] fun _ _ => [] := by
  induction room with
  | zero => rfl
  | succ room ih =>
    rw [Function.iterate_succ_apply', ← ih]
    rfl

theorem markedWithin_eq (doc : Documentation) (root : String) (room : Nat) :
    doc.markedWithin root room = (doc.step root)^[room] fun _ _ => [.title ""] := by
  induction room with
  | zero => rfl
  | succ room ih =>
    rw [Function.iterate_succ_apply', ← ih]
    rfl

/-- Nothing is under any value. -/
theorem under_of_any {next : String → Ty → List Block} {default : Option Json}
    (h : ty.shape = Ty.any.shape) : doc.under root next path default ty = [] := by
  obtain ⟨notes, const, shape⟩ := ty
  cases h
  rfl

/-- What is under a type is a matter of what is under the targets that it goes into. -/
theorem under_congr {next other : String → Ty → List Block} {default : Option Json}
    (h : ∀ target, ty.Enters target → doc.session.canInline target = true → ∀ path found,
      found.shape = ((doc.session.get? target).getD .any).shape →
        next path found = other path found) :
    doc.under root next path default ty = doc.under root other path default ty := by
  have w : Simulation doc doc.excluded root
      (fun part => ∀ target, part.Enters target → ty.Enters target)
      (fun found => ∃ target, ty.Enters target ∧ doc.session.canInline target = true ∧
        found.shape = ((doc.session.get? target).getD .any).shape) fun _ => Eq :=
    { part := fun met ho hp target enters => met target (.part ho hp enters)
      target := fun met enters inline => ⟨_, met _ enters, inline, rfl⟩
      of_shape := fun ⟨target, enters, inline, shape⟩ hs => ⟨target, enters, inline, hs.trans shape⟩
      nil := rfl
      append := fun same others => by rw [same, others]
      property := fun _ _ _ _ same => by rw [same]
      value := fun _ _ _ same => by rw [same] }
  refine w.under (fun path found ⟨target, enters, inline, shape⟩ => ?_) ty (fun _ => id) path default
  exact h target enters inline path found shape

/-! ## Without circles it ends -/

/-- As many steps as there are names left, and two, decide what is under a type.  All names that
were met lead to whatever the type goes into, so none of them comes again. -/
theorem iterate_eq (beyond : String → Ty → List Block) (room : Nat) :
    ∀ (path : String) (ty : Ty) (met : List String) (steps : Nat), ¬ doc.session.Circles ty →
      doc.session.Behind met ty → doc.session.unmet met + 1 ≤ room →
      doc.session.unmet met + 2 ≤ steps →
      (doc.step root)^[steps] beyond path ty = (doc.step root)^[room] (fun _ _ => []) path ty := by
  induction room with
  | zero => exact fun _ _ _ _ _ _ room _ => absurd room (Nat.not_succ_le_zero _)
  | succ room ih =>
    intro path ty met steps straight behind enough more
    obtain ⟨steps, rfl⟩ : ∃ fewer, steps = fewer + 2 := ⟨steps - 2, by omega⟩
    rw [Function.iterate_succ_apply' _ (steps + 1), Function.iterate_succ_apply' _ room]
    refine under_congr fun target enters inline inner found shape => ?_
    cases hg : doc.session.get? target with
    | none =>
      rw [hg] at shape
      rw [Function.iterate_succ_apply', step, under_of_any shape]
      cases room with
      | zero => rfl
      | succ room => rw [Function.iterate_succ_apply', step, under_of_any shape]
    | some kept =>
      rw [hg] at shape
      have goes : doc.session.GoesInto ty target := ⟨enters, inline, by rw [hg]; rfl⟩
      have less := Session.unmet_cons_lt goes.2.2 (behind.not_mem straight goes)
      have onward := Session.straight_of_enters straight enters inline (by rw [shape, hg])
      exact ih inner found (target :: met) (steps + 1) onward (behind.cons goes hg shape) (by omega)
        (by omega)

/-- Without circles two steps more than there are names in the cache are enough. -/
theorem underAll_ends (straight : ¬ doc.session.Circles ty) (root path : String)
    (beyond : String → Ty → List Block) (more : Nat) :
    (doc.step root)^[doc.session.cache.length + 2 + more] beyond path ty =
      doc.underAll root path ty := by
  have names := doc.session.unmet_le []
  rw [underAll, underWithin_eq]
  exact iterate_eq beyond _ path ty [] _ straight nofun (by omega) (by omega)

/-- Without circles what is under a type is told by what is under the targets. -/
theorem underAll_eq (straight : ¬ doc.session.Circles ty) (root path : String) :
    doc.underAll root path ty = doc.under root (doc.underAll root) path ty.default? ty := by
  rw [← underAll_ends straight root path (fun _ _ => []) 1, Function.iterate_succ_apply']
  refine under_congr fun target enters inline inner found shape => ?_
  exact underAll_ends (Session.straight_of_enters straight enters inline shape) root inner _ 0

/-! ## With a circle it does not -/

/-- Nothing is left out of a documentation. -/
structure Whole (doc : Documentation) : Prop where
  recursive : doc.recursive = true
  excluded : doc.excluded = []

theorem Whole.entryBlocks (whole : doc.Whole) (address : Address) (entry : Entry) (ty : Ty)
    (inner : Unit → List Block) :
    doc.entryBlocks address entry ty inner =
      [.entry address ty.id { entry with
          required := ty.annotations.required, deprecated := ty.annotations.deprecated }
        (descriptionOf ty ++ inner ())] := by
  rw [Documentation.entryBlocks, isExcluded, whole.excluded, whole.recursive]
  rfl

/-- What is inside an entry is there, in one piece. -/
theorem Whole.infix_entryBlocks (whole : doc.Whole) (address : Address) (entry : Entry) (ty : Ty)
    (inner : Unit → List Block) :
    eventsOfAll (inner ()) <:+: eventsOfAll (doc.entryBlocks address entry ty inner) := by
  rw [whole.entryBlocks]
  simp only [eventsOfAll, Block.events, Block.eventsOfAll_append, List.append_nil]
  exact (List.suffix_append _ _).isInfix.trans
    ((List.prefix_append _ _).isInfix.trans (List.suffix_cons _ _).isInfix)

/-- What is made of an item is there, in one piece. -/
theorem infix_flatMap {α : Type} {items : List α} {item : α} (f : α → List Block)
    (h : item ∈ items) : eventsOfAll (f item) <:+: eventsOfAll (items.flatMap f) := by
  induction items with
  | nil => cases h
  | cons first rest ih =>
    rw [List.flatMap_cons, Block.eventsOfAll_append]
    rcases List.mem_cons.mp h with rfl | h
    · exact (List.prefix_append _ _).isInfix
    · exact (ih h).trans (List.suffix_append _ _).isInfix

/-- What is inside the entry of a property is there. -/
theorem Whole.infix_memberBlocks (whole : doc.Whole) (next : String → Ty → List Block)
    (given : Option Json) (name : String) (child : Ty) :
    eventsOfAll (doc.memberInner root next (Address.join path name) given child) <:+:
      eventsOfAll (doc.memberBlocks root next path given name child) :=
  whole.infix_entryBlocks _ _ _ fun _ => doc.memberInner root next (Address.join path name) given child

/-- What is inside the entry of a value is there. -/
theorem Whole.infix_valueBlocks (whole : doc.Whole) (root : String)
    (next : String → Ty → List Block) (path : String) (item : Ty) :
    eventsOfAll (doc.under root next (Address.join path (doc.session.print item false))
        item.default? item) <:+: eventsOfAll (doc.valueBlocks root next path item) :=
  whole.infix_entryBlocks _ _ _ fun _ => doc.under root next _ item.default? item

/-- What is made of a target, with something else said about it maybe, is among some blocks, in one
piece. -/
def HoldsTarget (doc : Documentation) (next : String → Ty → List Block) (target : String)
    (blocks : List Block) : Prop :=
  ∃ path found, found.shape = ((doc.session.get? target).getD .any).shape ∧
    eventsOfAll (next path found) <:+: eventsOfAll blocks

theorem HoldsTarget.mono {next : String → Ty → List Block} {blocks others : List Block}
    (h : doc.HoldsTarget next target blocks) (within : eventsOfAll blocks <:+: eventsOfAll others) :
    doc.HoldsTarget next target others := by
  obtain ⟨path, found, shape, there⟩ := h
  exact ⟨path, found, shape, there.trans within⟩

/-- What a property goes into is there. -/
theorem holdsTarget_memberInner {next : String → Ty → List Block} {child : Ty}
    (enters : child.Enters target)
    (h : ∀ path default, doc.HoldsTarget next target (doc.under root next path default child))
    (path : String) (given : Option Json) :
    doc.HoldsTarget next target (doc.memberInner root next path given child) := by
  rw [memberInner]
  cases hs : standIn? doc.session child with
  | none => exact h path _
  | some standIn =>
    obtain ⟨other, _, hu, -, rfl, shape, -⟩ := exists_of_standIn? hs
    obtain rfl := (Ty.enters_iff_of_unwrapOptional hu).mp enters
    refine ⟨path, shown doc.session given child, ?_, List.infix_rfl⟩
    rw [← shape, shown, hs]
    rfl

/-- Whatever is gone into is there. -/
theorem Whole.holdsTarget_under (whole : doc.Whole) {next : String → Ty → List Block}
    (goes : doc.session.GoesInto ty target) :
    ∀ path default, doc.HoldsTarget next target (doc.under root next path default ty) := by
  obtain ⟨enters, inline, cached⟩ := goes
  induction enters with
  | @reference ty target ho ht =>
    intro path default
    obtain ⟨kept, hg⟩ := Option.isSome_iff_exists.mp cached
    obtain ⟨reference, hr, ht⟩ := List.mem_filterMap.mp ht
    rw [under_plain ho, followed]
    refine ⟨path, kept, by rw [hg]; rfl, List.IsInfix.trans ?_ (infix_flatMap _ hr)⟩
    simp [ht, inline, hg]
  | @part ty part parts target ho hm enters ih =>
    have ih := ih inline cached
    intro path default
    cases ty.layout with
    | option hp ho' =>
      rw [ho'] at ho
      cases ho
      rw [under_option hp, ← List.mem_singleton.mp hm]
      exact ih path _
    | @group notes const member members rest ho' =>
      rw [ho'] at ho
      cases ho
      obtain ⟨⟨name, child⟩, hc, rfl⟩ := List.mem_map.mp hm
      rw [under, underMembers_eq]
      have inside := (holdsTarget_memberInner enters ih (Address.join path name)
        ((memberDefaults default).bind fun table => Table.get? table name)).mono
          (whole.infix_memberBlocks next _ name child)
      exact inside.mono (infix_flatMap (fun member : String × Ty => doc.memberBlocks root next path
        ((memberDefaults default).bind fun table => table.get? member.1) member.1 member.2) hc)
    | values hp ho' =>
      rw [ho'] at ho
      cases ho
      rw [under_enum hp, underValues_eq]
      have inside := (ih _ _).mono (whole.infix_valueBlocks root next path part)
      exact inside.mono (infix_flatMap _ hm)
    | plain _ ho' =>
      rw [ho'] at ho
      cases ho

/-- If what is under a type runs in a circle, a mark that stands for what is beyond any number of
steps is met. -/
theorem Whole.title_mem_iterate (whole : doc.Whole) (root : String) (steps : Nat) :
    ∀ (path : String) (ty : Ty), doc.session.Circles ty →
      .title "" ∈ eventsOfAll ((doc.step root)^[steps] (fun _ _ => [.title ""]) path ty) := by
  induction steps with
  | zero => exact fun _ _ _ => List.mem_singleton.mpr rfl
  | succ steps ih =>
    intro path ty ⟨target, goes, turns⟩
    rw [Function.iterate_succ_apply']
    obtain ⟨inner, found, shape, within⟩ := whole.holdsTarget_under goes path ty.default?
    obtain ⟨kept, hg⟩ := Option.isSome_iff_exists.mp goes.2.2
    rw [hg] at shape
    exact within.subset (ih inner found ((turns.circles hg).of_shape shape))

/-- Nothing under a type has a title. -/
theorem title_not_mem_underWithin (doc : Documentation) (root : String) (room : Nat) (path : String)
    (ty : Ty) : .title "" ∉ eventsOfAll (doc.underWithin root room path ty) := by
  have entry (address : Address) (entry : Entry) (ty : Ty) (inner : Unit → List Block)
      (h : .title "" ∉ eventsOfAll (inner ())) :
      .title "" ∉ eventsOfAll (doc.entryBlocks address entry ty inner) := by
    have described : .title "" ∉ eventsOfAll (descriptionOf ty) := by
      rw [descriptionOf]
      cases ty.annotations.description <;> simp [eventsOfAll, Block.events]
    rw [entryBlocks]
    split
    · exact List.not_mem_nil
    · split <;> simp [eventsOfAll, Block.events, Block.eventsOfAll_append, described, h]
  have w : Walk doc root (fun _ => True) fun blocks => .title "" ∉ eventsOfAll blocks :=
    { child := fun _ _ => trivial
      of_shape := fun _ _ => trivial
      target := fun _ _ _ => trivial
      nil := List.not_mem_nil
      append := fun h h' => by simp [Block.eventsOfAll_append, h, h']
      property := fun _ _ _ _ h => entry _ _ _ _ h
      value := fun _ _ _ h => entry _ _ _ _ h }
  exact w.underWithin room path ty trivial

/-- What is under a type ends unless it runs in a circle. -/
theorem ends_of_not_circles (straight : ¬ doc.session.Circles ty) : doc.Ends root path ty :=
  ⟨_, fun beyond other => by
    rw [underAll_ends straight root path beyond 0, underAll_ends straight root path other 0]⟩

/-- If nothing is left out, it ends only then. -/
theorem Whole.ends_iff (whole : doc.Whole) : doc.Ends root path ty ↔ ¬ doc.session.Circles ty := by
  refine ⟨fun ⟨steps, same⟩ circles => ?_, ends_of_not_circles⟩
  have marked := whole.title_mem_iterate root steps path ty circles
  rw [same _ fun _ _ => [], ← underWithin_eq] at marked
  exact title_not_mem_underWithin doc root steps path ty marked

/-- Whether it ends can be told by going in as deep as there are types in the cache. -/
theorem Whole.isEndless_iff (whole : doc.Whole) :
    doc.isEndless root path ty = true ↔ ¬ doc.Ends root path ty := by
  rw [whole.ends_iff, not_not, isEndless, List.contains_iff_mem, markedWithin_eq]
  refine ⟨fun marked => ?_, fun circles => whole.title_mem_iterate root _ path ty circles⟩
  by_contra straight
  rw [underAll_ends straight root path _ 0, underAll] at marked
  exact title_not_mem_underWithin doc root _ path ty marked

end Documentation

/-! ## What ends -/

namespace Session

/-- Signatures and examples end, in whatever session and of whatever type.  What is under a type
ends unless it runs in a circle, and if nothing is left out, only then.  After loading some names,
whether they load or not, a circle passes the empty name, unless a resource has that name by
mistake. -/
theorem walks_end (session : Session) :
    (∀ beyond more ty parens,
      Ty.printWith (session.showStep^[session.cache.length + 1 + more] beyond []) parens ty =
        session.print ty parens) ∧
    (∀ selection beyond more ty,
      exampleWith ((session.followStep selection)^[session.cache.length + 1 + more] beyond [])
        selection none ty = session.exampleOf ty selection) ∧
    (∀ doc : Documentation, doc.session = session → ∀ root path ty,
      (¬ session.Circles ty → ∀ beyond more,
        (doc.step root)^[session.cache.length + 2 + more] beyond path ty =
          doc.underAll root path ty) ∧
      (doc.Whole → (doc.Ends root path ty ↔ ¬ session.Circles ty))) ∧
    ∀ (registry : Registry) (keyword : String) (uris : List String), registry.Built →
      registry.Named → session = (fresh registry keyword).loadAll uris → ∀ ty,
        session.Circles ty → TransGen session.Opens "" "" := by
  refine ⟨session.print_ends, session.example_ends, ?_, ?_⟩
  · rintro doc rfl root path ty
    exact ⟨fun straight => Documentation.underAll_ends straight root path,
      Documentation.Whole.ends_iff⟩
  · rintro registry keyword uris hb hn rfl ty circles
    obtain ⟨hreg, -, sound⟩ := sound_loadAll keyword hb hn uris
    refine opens_empty (fun id cycle => ?_) circles
    exact Nat.lt_irrefl _ (sound.age_of_inlines (by rwa [hreg]) (by rwa [hreg]) cycle)

/-- An object under the empty name that has itself for a property. -/
def innermost : Json :=
  .object [("type", .string "object"),
    ("properties", .object [("self", .object [("$ref", .string "")])])]

/-- What is under that object has no end, and it is the empty name that is to blame. -/
theorem innermost_walks_end :
    ∃ ty, ((fresh (Registry.register {} "" innermost).crawl "mark").loadAll [""]).get? "" =
        some ty ∧
      ¬ Documentation.Ends ⟨(fresh (Registry.register {} "" innermost).crawl "mark").loadAll [""],
        true, false, []⟩ "" "" ty ∧
      TransGen ((fresh (Registry.register {} "" innermost).crawl "mark").loadAll [""]).Opens
        "" "" := by
  have computed : ((((fresh (Registry.register {} "" innermost).crawl "mark").loadAll
      [""]).get? "").map fun ty => Documentation.isEndless
        ⟨(fresh (Registry.register {} "" innermost).crawl "mark").loadAll [""], true, false, []⟩
        "" "" ty) = some true := by decide +kernel
  obtain ⟨ty, hg, endless⟩ := Option.map_eq_some_iff.mp computed
  have whole : Documentation.Whole
      ⟨(fresh (Registry.register {} "" innermost).crawl "mark").loadAll [""], true, false, []⟩ :=
    ⟨rfl, rfl⟩
  have open' := whole.isEndless_iff.mp endless
  obtain ⟨-, -, walks, empty⟩ :=
    walks_end ((fresh (Registry.register {} "" innermost).crawl "mark").loadAll [""])
  have circles := not_not.mp (mt ((walks _ rfl "" "" ty).2 whole).mpr open')
  exact ⟨ty, hg, open', empty _ "mark" [""] (.crawl (.register "" innermost .empty))
    (Registry.named_crawl _) rfl ty circles⟩

end Session

end SchemaDoc
