import Mathlib.Logic.Relation
import SchemaDoc.Proofs.Registry.Places
import SchemaDoc.Proofs.Schema.Answers
import SchemaDoc.Proofs.Session.Steps

/-!
# Where types come from

Every type in the cache of a session was built from the schema at some place and from types
that answer its references, `Registry.Makes`.  A reference is answered in one of two ways,
`Registry.Answers`.  Either its target was in the cache already, and its scope is taken over.
Or its target was being compiled at that time, so it was marked as recursive, and it lies on a
cycle of references together with the type itself.

That is an invariant of runs, `Session.Sound`.  It is stated over the places that are being
visited, each of which refers to the next, since they are the other half of such a cycle.
`Loads.sound` says that runs keep it and `Session.sound_loadAll` that a session has it after
loading some names, whether they load or not.
-/

namespace SchemaDoc

open Relation (ReflTransGen TransGen)
open Session (targetName)

/-! ## The graph of references -/

namespace Registry

/-- The schema at a place refers to another place. -/
def Leads (registry : Registry) (keyword : String) (place other : Place) : Prop :=
  ∃ contents, registry.contentsAt place = .ok contents ∧
    ∃ reference ∈ (Schema.ofJson keyword contents).references,
      registry.placeOf place.name reference.text = .ok other

/-- The schema under a name refers to another name. -/
def Refers (registry : Registry) (keyword id target : String) : Prop :=
  ∃ place other, registry.Found place ∧ place.id = id ∧ registry.Leads keyword place other ∧
    other.id = target

end Registry

/-! ## Answers -/

/-- The type of a reference to a place. -/
def Schema.Reference.typeTo (reference : Schema.Reference) (place : Place) (scope : Scope) : Ty :=
  (reference.overlay.apply
    (.reference (if place.id = "" then reference.text else place.id))).withScope scope

/-- A reference to a place has one target. -/
theorem Schema.Reference.mem_targets_typeTo {reference : Schema.Reference} {place : Place}
    {scope : Scope} {name : String} :
    name ∈ (reference.typeTo place scope).targets ↔
      name = if place.id = "" then reference.text else place.id :=
  List.mem_singleton

namespace Registry

/-- How a reference of the schema at a place is answered, given what was in the cache. -/
inductive Answers (registry : Registry) (keyword : String) (recursive : List String)
    (earlier : Table String Ty) (place : Place) (reference : Schema.Reference) : Ty → Prop where
  | kept {other : Place} {target : Ty} :
      registry.placeOf place.name reference.text = .ok other →
      earlier.get? other.id = some target →
      Answers registry keyword recursive earlier place reference
        (reference.typeTo other target.annotations.scope)
  | looped {other : Place} :
      registry.placeOf place.name reference.text = .ok other →
      other.id ∈ recursive →
      TransGen (registry.Refers keyword) place.id place.id →
      Answers registry keyword recursive earlier place reference (reference.typeTo other {})

/-- A type is built from the schema at a place of some name and from answers to its
references. -/
def Makes (registry : Registry) (keyword : String)
    (answers : Place → Schema.Reference → Ty → Prop) (id : String) (ty : Ty) : Prop :=
  ∃ place contents types, registry.Found place ∧ place.id = id ∧
    registry.contentsAt place = .ok contents ∧
    ty = ((Schema.ofJson keyword contents).build types).withId id ∧
    List.Forall₂ (answers place) (Schema.ofJson keyword contents).references types

variable {registry : Registry} {keyword : String}

theorem Makes.imp {answers answers' : Place → Schema.Reference → Ty → Prop} {id : String}
    {ty : Ty} (h : registry.Makes keyword answers id ty)
    (himp : ∀ place reference ty, answers place reference ty → answers' place reference ty) :
    registry.Makes keyword answers' id ty := by
  obtain ⟨place, contents, types, found, hid, hc, hty, answered⟩ := h
  exact ⟨place, contents, types, found, hid, hc, hty, answered.imp fun r t => himp place r t⟩

/-- A type goes by the name it is made for. -/
theorem Makes.id {answers : Place → Schema.Reference → Ty → Prop} {id : String} {ty : Ty}
    (h : registry.Makes keyword answers id ty) : ty.id = id := by
  obtain ⟨-, -, -, -, -, -, rfl, -⟩ := h
  rfl

theorem Answers.mono {recursive recursive' : List String} {earlier earlier' : Table String Ty}
    (hr : recursive ⊆ recursive')
    (he : ∀ id ty, earlier.get? id = some ty → earlier'.get? id = some ty) {place : Place}
    {reference : Schema.Reference} {ty : Ty}
    (h : registry.Answers keyword recursive earlier place reference ty) :
    registry.Answers keyword recursive' earlier' place reference ty := by
  cases h with
  | kept hp hg => exact .kept hp (he _ _ hg)
  | looped hp hm hcycle => exact .looped hp (hr hm) hcycle

end Registry

/-! ## The invariant -/

namespace Session

/-- The places that a session is visiting, innermost first. -/
structure Stack (session : Session) (places : List Place) : Prop where
  bases : session.bases = places.map Place.name
  compiling : session.compiling = places.map Place.id
  found : ∀ place ∈ places, session.registry.Found place
  chain : places.IsChain fun inner outer =>
    session.registry.Refers session.keyword outer.id inner.id

/-- What holds of a session at any time in a run. -/
structure Sound (session : Session) (places : List Place) : Prop
    extends Stack session places where
  fresh : ∀ id ∈ session.compiling, session.get? id = none
  origin : ∀ front id ty back, session.cache = front ++ (id, ty) :: back →
    session.registry.Makes session.keyword
      (session.registry.Answers session.keyword session.recursive front) id ty

/-- A name that is read is a reference of the innermost schema, if there is one. -/
def Reads (session : Session) (places : List Place) (uri : String) : Prop :=
  ∀ place rest, places = place :: rest → ∀ other,
    session.registry.placeOf place.name uri = .ok other →
      session.registry.Refers session.keyword place.id other.id

variable {session after : Session} {place : Place} {places : List Place}

/-! ## Stacks -/

/-- Names are joined onto the name of the innermost place. -/
theorem Stack.base (h : session.Stack (place :: places)) : session.base = place.name := by
  rw [Session.base, h.bases, List.map_cons, List.headD_cons]

theorem Stack.numberSign_base (hb : session.registry.Built) (h : session.Stack places) :
    '#' ∉ session.base.toList := by
  cases places with
  | nil =>
    rw [Session.base, h.bases]
    decide
  | cons place rest =>
    rw [h.base]
    exact (h.found place List.mem_cons_self).numberSign_name hb

/-- A place to which a name leads is found. -/
theorem Stack.found_placeOf (hb : session.registry.Built) (h : session.Stack places)
    {uri : String} (hp : session.registry.placeOf session.base uri = .ok place) :
    session.registry.Found place := ⟨_, uri, h.numberSign_base hb, hp⟩

theorem Stack.visit (hb : session.registry.Built) (h : session.Stack places) {uri : String}
    (hp : session.registry.placeOf session.base uri = .ok place)
    (hr : session.Reads places uri) : (session.visit place).Stack (place :: places) where
  bases := congrArg (place.name :: ·) h.bases
  compiling := congrArg (place.id :: ·) h.compiling
  found := by
    have found := h.found_placeOf hb hp
    exact List.forall_mem_cons.mpr ⟨found, h.found⟩
  chain := by
    cases places with
    | nil => exact .singleton _
    | cons outer rest =>
      rw [h.base] at hp
      exact h.chain.cons_cons (hr outer rest rfl place hp)

/-- Each place that is visited reaches the innermost one. -/
theorem Stack.reaches (h : session.Stack (place :: places)) {id : String}
    (hi : id ∈ session.compiling) :
    ReflTransGen (session.registry.Refers session.keyword) id place.id := by
  have chain := h.chain
  rw [h.compiling] at hi
  clear h
  induction places generalizing place with
  | nil =>
    rw [List.map_singleton, List.mem_singleton] at hi
    exact hi ▸ .refl
  | cons outer rest ih =>
    rw [List.isChain_cons_cons] at chain
    rw [List.map_cons] at hi
    rcases List.mem_cons.mp hi with rfl | hi
    · exact .refl
    · exact (ih hi chain.2).tail chain.1

/-! ## Steps -/

theorem Sound.countUse (h : session.Sound places) (id : String) :
    (session.countUse id).Sound places := { h with }

theorem Sound.beginCount (h : session.Sound places) (id : String) :
    (session.beginCount id).Sound places := { h with }

theorem Sound.markRecursive (h : session.Sound places) (id : String) :
    (session.markRecursive id).Sound places where
  bases := h.bases
  compiling := h.compiling
  found := h.found
  chain := h.chain
  fresh := h.fresh
  origin front name ty back hc :=
    (h.origin front name ty back hc).imp fun _ _ _ =>
      .mono (session.extends_markRecursive id).recursive fun _ _ hg => hg

theorem Sound.visit (hb : session.registry.Built) (h : session.Sound places) {uri : String}
    (hp : session.registry.placeOf session.base uri = .ok place)
    (hr : session.Reads places uri) (hn : session.get? place.id = none) :
    (session.visit place).Sound (place :: places) where
  toStack := h.toStack.visit hb hp hr
  fresh := List.forall_mem_cons.mpr ⟨hn, h.fresh⟩
  origin := h.origin

theorem Sound.leave (h : after.Sound (place :: places)) :
    (after.leave place.id).Sound places where
  bases := by
    rw [Session.leave, h.bases]
    rfl
  compiling := by
    rw [Session.leave, h.compiling]
    exact List.erase_cons_head ..
  found := (List.forall_mem_cons.mp h.found).2
  chain := h.chain.of_cons
  fresh id hi := h.fresh id (List.mem_of_mem_erase hi)
  origin := h.origin

/-- What is compiled is kept with its origin. -/
theorem Sound.finish (h : after.Sound (place :: places))
    (hi : place.id ∉ places.map Place.id) {ty : Ty}
    (made : after.registry.Makes after.keyword
      (after.registry.Answers after.keyword after.recursive after.cache) place.id ty) :
    (after.finish place ty).Sound places := by
  have left := h.leave
  have cache : (after.finish place ty).cache = after.cache ++ [(place.id, ty)] :=
    Table.put_of_get?_none
      (h.fresh place.id (by rw [h.compiling]; exact List.mem_cons_self)) ty
  refine { left with fresh := fun id hid => ?_, origin := fun front id kept back hc => ?_ }
  · have other : place.id ≠ id := by
      rintro rfl
      have compiling : (after.leave place.id).compiling = places.map Place.id := left.compiling
      exact hi (compiling ▸ hid)
    have absent := left.fresh id hid
    rw [Session.get?] at absent ⊢
    rw [Session.finish, keep, Table.get?_put, if_neg other]
    exact absent
  · rw [cache] at hc
    -- The new type stands at the end, and whatever stands before it was there.
    rcases List.eq_nil_or_concat back with rfl | ⟨init, last, rfl⟩
    · obtain ⟨rfl, e⟩ := List.append_inj' hc rfl
      cases e
      exact made
    · rw [List.concat_eq_append, ← List.cons_append, ← List.append_assoc] at hc
      exact h.origin front id kept init (List.append_inj' hc rfl).1

/-! ## Runs -/

end Session

/-- A name that is loaded leads to a place, whose type is in the cache then, unless it is
being compiled. -/
theorem Loads.target {session after : Session} {uri : String} {ty : Ty}
    (h : Loads session uri (.ok ty) after) :
    ∃ place, session.registry.placeOf session.base uri = .ok place ∧
      (after.get? place.id = some ty ∨
        place.id ∈ after.compiling ∧ place.id ∈ after.recursive ∧ ty = Ty.any.withId place.id) := by
  cases h with
  | cached hp hg => exact ⟨_, hp, .inl hg⟩
  | reentered hp hg met =>
    exact ⟨_, hp, .inr ⟨met, Session.mem_recursive_markRecursive _ _, rfl⟩⟩
  | compiled hp hg idle hc follows =>
    refine ⟨_, hp, .inl ?_⟩
    rw [Session.get?, Session.finish, Session.keep, Table.get?_put, if_pos rfl]

namespace Session

/-- What a name is loaded as is in the cache, and stays there. -/
theorem exists_get?_of_load {session loaded : Session} (rest : session.Resting) {uri : String} {ty : Ty}
    (h : session.load uri = (.ok ty, loaded)) (more : List String) :
    ∃ id, (loaded.loadAll more).get? id = some ty := by
  have run := loads_load session uri
  rw [h] at run
  have idle := rest.of_extends run.extends
  obtain ⟨place, -, kept | ⟨met, -⟩⟩ := run.target
  · have later := (loadAll_induction (P := loaded.Extends)
      (fun _ _ _ _ _ same loads => same.trans loads.extends) more loaded idle (.refl _)).1
    exact ⟨_, later.get? kept⟩
  · rw [idle.compiling] at met
    cases met

variable {session after : Session} {places : List Place} {reference : Schema.Reference}
variable {other : Place}

/-- Nothing is known of the settings under a target that is being compiled. -/
theorem typeOf_any (session : Session) (reference : Schema.Reference) (other : Place) :
    session.typeOf reference (Ty.any.withId other.id) = reference.typeTo other {} := by
  have name : targetName reference.text (Ty.any.withId other.id) =
      if other.id = "" then reference.text else other.id := rfl
  have unknown : (Ty.any.withId other.id).annotations.scope = {} := rfl
  rw [typeOf, name, Schema.Reference.typeTo, unknown, ite_self]

/-- The scope of a target that is in the cache is taken over.  Only a place without a name is
referred to by the text of the reference, and that text is no name that is being compiled. -/
theorem Sound.typeOf_kept (hb : session.registry.Built) (hn : session.registry.Named)
    (h : session.Sound places) {base : String} {target : Ty}
    (hp : session.registry.placeOf base reference.text = .ok other) (hid : target.id = other.id)
    (idle : other.id ∉ session.compiling) :
    session.typeOf reference target = reference.typeTo other target.annotations.scope := by
  have name : targetName reference.text target =
      if other.id = "" then reference.text else other.id := by
    rw [targetName, hid]
  have idle : (if other.id = "" then reference.text else other.id) ∉ session.compiling := by
    split
    · rename_i empty
      rcases Registry.eq_empty_of_placeOf hn hp empty with text | text
      · rwa [text, ← empty]
      · rw [text, h.compiling]
        intro sign
        obtain ⟨place, hm, hid⟩ := List.mem_map.mp sign
        exact (h.found place hm).id_ne_numberSign hb hid
    · exact idle
  rw [typeOf, name, Schema.Reference.typeTo]
  simp [idle]

/-- A type in the cache goes by its name. -/
theorem Sound.id_of_get? (h : session.Sound places) {id : String} {ty : Ty}
    (hg : session.get? id = some ty) : ty.id = id := by
  obtain ⟨front, back, hc⟩ := List.append_of_mem (Table.mem_of_get? hg)
  exact (h.origin front id ty back hc).id

/-- A reference of the innermost schema is read as such. -/
theorem Sound.reads {place : Place} (h : session.Sound (place :: places)) {contents : Json}
    (hc : session.registry.contentsAt place = .ok contents)
    (hr : reference ∈ session.referencesOf contents) :
    session.Reads (place :: places) reference.text := by
  intro inner rest e other hp
  cases e
  exact ⟨_, other, h.found _ List.mem_cons_self, rfl, ⟨contents, hc, reference, hr, hp⟩, rfl⟩

/-- A reference of the innermost schema that was followed is answered. -/
theorem Sound.answers {place : Place} {target : Ty} (hb : session.registry.Built)
    (hn : session.registry.Named) (hs : session.Sound (place :: places))
    (hr : session.Reads (place :: places) reference.text)
    (loads : Loads session reference.text (.ok target) after)
    (h : after.Sound (place :: places)) :
    after.registry.Answers after.keyword after.recursive after.cache place reference
      (after.typeOf reference target) := by
  have same := loads.extends
  obtain ⟨other, hp, kept | ⟨compiling, recursive, rfl⟩⟩ := loads.target
  · rw [hs.base, ← same.registry] at hp
    have idle : other.id ∉ after.compiling := by
      intro met
      rw [h.fresh _ met] at kept
      cases kept
    rw [← same.registry] at hb hn
    rw [h.typeOf_kept hb hn hp (h.id_of_get? kept) idle]
    exact .kept hp kept
  · rw [hs.base] at hp
    have leads := hr place places rfl other hp
    rw [typeOf_any]
    refine .looped (by rwa [same.registry]) recursive ?_
    have back := h.reaches compiling
    rw [same.registry, same.keyword] at back ⊢
    exact .head' leads back

end Session

/-- Some references of the schema at a place are still to be followed. -/
structure Session.Pending (session : Session) (place : Place) (contents : Json)
    (references : List Schema.Reference) : Prop where
  built : session.registry.Built
  named : session.registry.Named
  stands : session.registry.contentsAt place = .ok contents
  within : references ⊆ session.referencesOf contents

/-- After the first of them the others are still to be followed. -/
theorem Session.Pending.later {session after : Session} {place : Place} {contents : Json}
    {reference : Schema.Reference} {rest : List Schema.Reference}
    (h : session.Pending place contents (reference :: rest)) (same : session.Extends after) :
    after.Pending place contents rest where
  built := same.registry ▸ h.built
  named := same.registry ▸ h.named
  stands := same.registry ▸ h.stands
  within := by
    have rest := List.subset_of_cons_subset h.within
    rwa [Session.referencesOf, ← same.keyword] at rest

mutual

/-- Loading a name keeps a session sound, whether it succeeds or not. -/
theorem Loads.sound {session after : Session} {uri : String} {result : Except LoadError Ty}
    {places : List Place} (h : Loads session uri result after)
    (hb : session.registry.Built) (hn : session.registry.Named) (hs : session.Sound places)
    (hr : session.Reads places uri) : after.Sound places := by
  match h with
  | .lost _ => exact hs
  | .cached _ _ => exact hs
  | .reentered _ _ _ => exact hs.markRecursive _
  | .missing _ _ _ _ => exact hs.beginCount _
  | .failed hp new idle hc follows =>
    exact (follows.sound ⟨hb, hn, hc, List.Subset.refl _⟩ (hs.visit hb hp hr new)).1.leave
  | .compiled hp new idle hc follows =>
    obtain ⟨sound, answered⟩ :=
      follows.sound ⟨hb, hn, hc, List.Subset.refl _⟩ (hs.visit hb hp hr new)
    refine sound.finish (by rwa [← hs.compiling]) ?_
    have found := hs.found_placeOf hb hp
    have same := follows.extends
    have answered := answered _ rfl
    rw [same.registry, same.keyword] at answered ⊢
    exact ⟨_, _, _, found, rfl, hc, rfl, answered⟩

/-- Following references of the innermost schema keeps a session sound and answers them. -/
theorem Follows.sound {session after : Session} {references : List Schema.Reference}
    {result : Except LoadError (List Ty)} {place : Place} {places : List Place} {contents : Json}
    (h : Follows session references result after) (hp : session.Pending place contents references)
    (hs : session.Sound (place :: places)) :
    after.Sound (place :: places) ∧ ∀ types, result = .ok types →
      List.Forall₂ (after.registry.Answers after.keyword after.recursive after.cache place)
        references types := by
  match h with
  | .done => exact ⟨hs, fun _ e => by cases e; exact .nil⟩
  | .stopped loads =>
    have reads := hs.reads hp.stands (hp.within List.mem_cons_self)
    exact ⟨loads.sound hp.built hp.named hs reads, nofun⟩
  | .failed loads follows =>
    have reads := hs.reads hp.stands (hp.within List.mem_cons_self)
    have middle := loads.sound hp.built hp.named hs reads
    have counted := fun id => hp.later (loads.extends.trans (Session.extends_countUse _ id))
    exact ⟨(follows.sound (counted _) (middle.countUse _)).1, nofun⟩
  | .next loads follows =>
    have reads := hs.reads hp.stands (hp.within List.mem_cons_self)
    have middle := loads.sound hp.built hp.named hs reads
    have counted := fun id => hp.later (loads.extends.trans (Session.extends_countUse _ id))
    obtain ⟨sound, answered⟩ := follows.sound (counted _) (middle.countUse _)
    refine ⟨sound, fun types e => ?_⟩
    cases e
    have later := (Session.extends_countUse _ _).trans follows.extends
    refine .cons ?_ (answered _ rfl)
    have answer := hs.answers hp.built hp.named reads loads middle
    rw [later.registry, later.keyword]
    exact answer.mono later.recursive fun _ _ hg => later.get? hg

end

namespace Session

/-- A session that has loaded nothing. -/
def fresh (registry : Registry) (keyword : String) : Session := { registry, keyword }

theorem fresh_resting (registry : Registry) (keyword : String) :
    (fresh registry keyword).Resting := ⟨rfl, rfl⟩

theorem fresh_sound (registry : Registry) (keyword : String) :
    (fresh registry keyword).Sound [] where
  bases := rfl
  compiling := rfl
  found := nofun
  chain := .nil
  fresh := nofun
  origin front id ty back h := by cases front <;> cases h

/-- A session is sound after loading some names, whether they load or not. -/
theorem sound_loadAll {registry : Registry} (keyword : String) (hb : registry.Built)
    (hn : registry.Named) (uris : List String) :
    ((fresh registry keyword).loadAll uris).registry = registry ∧
      ((fresh registry keyword).loadAll uris).keyword = keyword ∧
      ((fresh registry keyword).loadAll uris).Sound [] := by
  have run := loadAll_induction
    (P := fun session => session.registry = registry ∧ session.keyword = keyword ∧
      session.Sound [])
    (fun session uri result after _ h loads => by
      obtain ⟨hreg, hkey, sound⟩ := h
      have same := loads.extends
      refine ⟨same.registry.trans hreg, same.keyword.trans hkey, ?_⟩
      exact loads.sound (hreg ▸ hb) (hreg ▸ hn) sound nofun)
    uris (fresh registry keyword) (fresh_resting registry keyword)
    ⟨rfl, rfl, fresh_sound registry keyword⟩
  exact run.1

end Session

end SchemaDoc
