import SchemaDoc.Proofs.Documentation.Covered

/-!
# Where settings are documented

A documentation gets from an object to its properties, from an option to what is in it and from a
reference that may be inlined to its target, and it carries defaults along.  It goes on with the
default that it is *told* last: that of a property if the object gives it one, and that of the type
that it goes into otherwise.  An example gets to the same places, but there the default of an object
is *in effect* for everything below it.  A `Site` keeps both, and `Session.Leads` is how one gets
from one site to others, property by property, behind options and references.

From an object to its properties, and behind a reference that stands in for a property, both carry
the same: what is told is in effect, `Setting.told_inner`.  That gets lost at options and at
references that are reached in another way.  There the documentation goes on with the default of
what is behind them, whatever was in effect.  If that gives a property something else, the
documentation *loses* a default, `Setting.Loses`.

Each setting that a type leads to has an entry inside the entries of those above it,
`Documentation.Full.under_of_leads`.
-/

namespace SchemaDoc

open Documentation (memberDefaults propertyEntry standIn?)
open Relation (ReflTransGen TransGen)

/-! ## Sites and settings -/

/-- The default that an object gives a property, if the object has the default. -/
def Documentation.memberDefault (default : Option Json) (name : String) : Option Json :=
  (memberDefaults default).bind fun table => table.get? name

open Documentation (memberDefault)

/-- A type at a place that documentation and example have in common. -/
structure Site where
  ty : Ty
  /-- The default with which the documentation goes on. -/
  told : Option Json
  /-- The default that is in effect in the example, or the constant of an option in its place. -/
  effect : Option Json
  /-- The example is what is in effect, as it is.  So it is inside an option. -/
  fixed : Bool

/-- The site of a type that is documented on its own. -/
def Site.ofRoot (root : Ty) : Site := ⟨root, root.default?, root.default?, false⟩

/-- A property of the object at a site. -/
structure Setting where
  /-- The site above it. -/
  outer : Site
  /-- The site of the object, the same or behind options and references there. -/
  site : Site
  name : String
  child : Ty

namespace Setting

/-- Its type as it is documented. -/
def shown (session : Session) (setting : Setting) : Ty :=
  Documentation.shown session (memberDefault setting.site.told setting.name) setting.child

/-- The head of its entry. -/
def entry (session : Session) (setting : Setting) : Entry :=
  propertyEntry session (memberDefault setting.site.told setting.name) setting.name setting.child

/-- The default that is in effect for it.  Inside an option its own does not matter. -/
def inEffect (setting : Setting) : Option Json :=
  if setting.site.fixed then memberDefault setting.site.effect setting.name
  else (memberDefault setting.site.effect setting.name).or setting.child.default?

/-- The site below it. -/
def inner (session : Session) (setting : Setting) : Site where
  ty := setting.shown session
  told := (setting.shown session).default?
  effect :=
    if setting.site.fixed then setting.inEffect
    else if setting.child.isOptional then setting.inEffect.or setting.child.const
    else setting.inEffect.or ((standIn? session setting.child).bind Ty.default?)
  fixed := setting.site.fixed || setting.child.isOptional

/-- What the documentation is told gives the setting what is in effect for it. -/
def Alike (setting : Setting) : Prop :=
  (memberDefault setting.site.told setting.name).or setting.child.default? =
    (memberDefault setting.site.effect setting.name).or setting.child.default?

/-- A default in effect is lost: the object is inside an option, or it is behind a reference that is
not that of a property, and what is there does not give the setting the same. -/
def Loses (setting : Setting) : Prop :=
  setting.site.effect.isSome ∧ (setting.site.fixed ∨ setting.outer.ty.target?.isSome) ∧
    ¬ setting.Alike

/-- No default is in effect for the setting.  It is optional, and it has a constant or what stands in
for it has a default, or what stands in for it is optional and has a constant. -/
def Unsettled (session : Session) (setting : Setting) : Prop :=
  setting.inEffect = none ∧
    if setting.child.isOptional then
      setting.child.const.isSome ∨ (setting.shown session).default?.isSome
    else (setting.shown session).isOptional ∧ (setting.shown session).const.isSome

end Setting

/-- From an option to what is in it, or from a reference that may be inlined to its target. -/
inductive Session.Sheds (session : Session) : Site → Site → Prop where
  | option {site : Site} {item : Ty} : site.ty.present? = some item →
      Sheds session site
        { ty := item
          told := item.default?
          effect := if site.fixed then site.effect else site.effect.or site.ty.const
          fixed := true }
  | follow {site : Site} {target : String} {found : Ty} : site.ty.target? = some target →
      session.canInline target = true → session.get? target = some found →
      Sheds session site
        { ty := found
          told := found.default?
          effect := if site.fixed then site.effect else site.effect.or found.default?
          fixed := site.fixed }

/-- Settings one below the other, beginning with one at a site or behind the options and references
there. -/
inductive Session.Leads (session : Session) : Site → List Setting → Prop where
  | here {site : Site} : Leads session site []
  | property {setting : Setting} {settings : List Setting} :
      ReflTransGen session.Sheds setting.outer setting.site →
      Table.get? setting.site.ty.properties setting.name = some setting.child →
      Leads session (setting.inner session) settings →
      Leads session setting.outer (setting :: settings)

/-! ## What is gone into on the way -/

namespace Session

variable {session : Session} {site next : Site} {setting : Setting}

theorem GoesInto.of_present? {ty item : Ty} (h : ty.present? = some item) {target : String}
    (goes : session.GoesInto item target) : session.GoesInto ty target :=
  ⟨.part (by rw [Ty.parts?, h]) List.mem_cons_self goes.1, goes.2⟩

/-- What a property goes into, its object goes into. -/
theorem GoesInto.of_property {ty child : Ty} {name : String}
    (h : Table.get? ty.properties name = some child) {target : String}
    (goes : session.GoesInto child target) : session.GoesInto ty target := by
  have mem := Table.mem_of_get? h
  refine ⟨?_, goes.2⟩
  obtain ⟨notes, const, shape⟩ := ty
  cases shape with
  | object members rest =>
    cases members with
    | nil => cases mem
    | cons member members => exact .part rfl (List.mem_map_of_mem mem) goes.1
  | _ => cases mem

theorem Sheds.straight (h : session.Sheds site next) (straight : ¬ session.Circles site.ty) :
    ¬ session.Circles next.ty := by
  cases h with
  | option hp => exact fun circles => straight (circles.mono fun _ => .of_present? hp)
  | follow ht inline hg =>
    exact fun circles => straight ((goesInto_of_target? ht inline hg).circles hg circles)

theorem straight_of_sheds (h : ReflTransGen session.Sheds site next)
    (straight : ¬ session.Circles site.ty) : ¬ session.Circles next.ty := by
  induction h with
  | refl => exact straight
  | tail _ last ih => exact last.straight ih

end Session

namespace Documentation

variable {session : Session} {child ty : Ty} {given : Option Json}

/-- The default with which a property is documented: that which its object gives, its own, or that of
what stands in for it. -/
theorem default?_shown (session : Session) (given : Option Json) (child : Ty) :
    (shown session given child).default? =
      (given.or child.default?).or ((standIn? session child).bind Ty.default?) := by
  have given_default (ty : Ty) : (withGiven given ty).default? = given.or ty.default? := rfl
  rw [shown, given_default]
  cases hs : standIn? session child with
  | none => rw [Option.getD_none, Option.bind_none, Option.or_none]
  | some ty =>
    obtain ⟨-, found, -, -, -, -, -, -, default⟩ := exists_of_standIn? hs
    rw [Option.getD_some, Option.bind_some, default, Option.or_assoc]
    cases child.default? <;> rfl

/-- The entry of a property shows its default, or null for an option without one. -/
theorem of_default_innerEntry {name text : String}
    (h : (innerEntry session name ty).default = some text) :
    (∃ default, ty.default? = some default ∧ default.compact = text) ∨
      ty.default? = none ∧ ty.isOptional = true ∧ "null" = text := by
  cases hg : isGroup ty with
  | true =>
    rw [innerEntry, memberEntry, if_pos hg, hg] at h
    cases h
  | false =>
    simp only [innerEntry, memberEntry, hg] at h
    cases hd : ty.default? with
    | none =>
      refine .inr ⟨rfl, ?_⟩
      cases ho : ty.isOptional <;> simp [hd, ho] at h ⊢
      exact h
    | some default =>
      refine .inl ⟨default, rfl, ?_⟩
      simpa [hd] using h

end Documentation

namespace Setting

variable {session : Session} {setting : Setting}

theorem name_entry (setting : Setting) (session : Session) :
    (setting.entry session).name = setting.name := Documentation.name_innerEntry ..

/-- What is gone into is straight, below a straight object. -/
theorem straight_inner (hc : Table.get? setting.site.ty.properties setting.name = some setting.child)
    (straight : ¬ session.Circles setting.site.ty) :
    ¬ session.Circles (setting.inner session).ty := by
  have own : ¬ session.Circles setting.child :=
    fun circles => straight (circles.mono fun _ => .of_property hc)
  cases hs : standIn? session setting.child with
  | none =>
    have same : (setting.inner session).ty.shape = setting.child.shape := by
      rw [inner, shown, Documentation.shown, hs]
      rfl
    exact fun circles => own (circles.of_shape same.symm)
  | some ty =>
    obtain ⟨target, _, ht, inline, rfl, shape, -⟩ := Documentation.exists_of_standIn? hs
    refine Session.straight_of_enters own ((Ty.enters_iff_of_unwrapOptional ht).mpr rfl) inline ?_
    rw [← shape, inner, shown, Documentation.shown, hs]
    rfl

/-! ## What is told is in effect -/

/-- A default in effect for a setting is told, if what is told is alike. -/
theorem told_of_inEffect (alike : setting.Alike) {value : Json}
    (h : setting.inEffect = some value) : (setting.inner session).told = some value := by
  have given : (memberDefault setting.site.effect setting.name).or setting.child.default? =
      some value := by
    rw [inEffect] at h
    split at h
    · rw [h, Option.some_or]
    · exact h
  rw [inner]
  dsimp only
  rw [shown, Documentation.default?_shown, alike, given, Option.some_or]

/-- Below a setting that is no option what is told is in effect, if it is above. -/
theorem told_inner (alike : setting.Alike) (made : (setting.inner session).fixed = false) :
    (setting.inner session).told = (setting.inner session).effect := by
  rw [inner] at made
  dsimp only at made
  obtain ⟨open', present⟩ := Bool.or_eq_false_iff.mp made
  rw [inner]
  dsimp only
  rw [shown, Documentation.default?_shown, alike, inEffect]
  simp only [open', present, Bool.false_eq_true, if_false]

/-- A default with which a setting is documented is in effect below it. -/
theorem effect_of_told (alike : setting.Alike) (settled : ¬ setting.Unsettled session)
    (known : setting.site.fixed = true → setting.inEffect.isSome) {default : Json}
    (told : (setting.shown session).default? = some default) :
    (setting.inner session).effect = some default := by
  cases hi : setting.inEffect with
  | some value =>
    obtain rfl := Option.some.inj ((setting.told_of_inEffect alike hi).symm.trans told)
    simp [inner, hi]
  | none =>
    have free : setting.site.fixed = false := by simpa [hi] using known
    have present : setting.child.isOptional = false := by
      by_contra optional
      refine settled ⟨hi, ?_⟩
      rw [if_pos (by simpa using optional)]
      exact .inr (Option.isSome_of_eq_some told)
    exact (setting.told_inner alike (by simp [inner, free, present])).symm.trans told

end Setting

/-! ## The entry of a setting -/

/-- An entry stands among some blocks, inside others: these are the names of those and its own. -/
inductive Block.Under (head : Entry) : List String → List Block → Prop where
  | here {address : Address} {id name : String} {inner blocks : List Block} : head.name = name →
      .entry address id head inner ∈ blocks → Under head [name] blocks
  | inside {address : Address} {id name : String} {outer : Entry} {inner blocks : List Block}
      {names : List String} : outer.name = name → .entry address id outer inner ∈ blocks →
      Under head names inner → Under head (name :: names) blocks

theorem Block.Under.mono {head : Entry} {names : List String} {blocks others : List Block}
    (h : Under head names blocks) (sub : blocks ⊆ others) : Under head names others := by
  cases h with
  | here name hm => exact .here name (sub hm)
  | inside name hm inner => exact .inside name (sub hm) inner

namespace Documentation

variable {doc : Documentation} {root path : String} {site next : Site} {setting : Setting}

/-- What is documented at a site. -/
def underSite (doc : Documentation) (root path : String) (site : Site) : List Block :=
  doc.under root (doc.underAll root) path site.told site.ty

/-- A reference that may be inlined is documented as its target. -/
theorem under_of_target? {go : String → Ty → List Block} {default : Option Json} {ty found : Ty}
    {target : String} (ht : ty.target? = some target) (inline : doc.session.canInline target = true)
    (hg : doc.session.get? target = some found) :
    doc.under root go path default ty = go path found := by
  obtain ⟨notes, const, shape⟩ := ty
  cases shape with
  | reference other =>
    cases ht
    rw [under_plain rfl]
    simp [Ty.references, followed, Ty.target?, inline, hg]
  | _ => cases ht

/-- Options and references at a site are documented as what is in them. -/
theorem underSite_of_sheds (h : ReflTransGen doc.session.Sheds site next)
    (straight : ¬ doc.session.Circles site.ty) :
    doc.underSite root path site = doc.underSite root path next := by
  induction h with
  | refl => rfl
  | tail before step ih =>
    have straight := step.straight (Session.straight_of_sheds before straight)
    rw [ih, underSite, underSite]
    cases step with
    | option hp => exact under_option hp
    | follow ht inline hg => rw [under_of_target? ht inline hg, underAll_eq straight]

/-- A setting is documented by its entry, with what is documented at the site below. -/
theorem Whole.memberBlocks_eq (whole : doc.Whole)
    (straight : ¬ doc.session.Circles (setting.inner doc.session).ty) :
    doc.memberBlocks root (doc.underAll root) path
        (memberDefault setting.site.told setting.name) setting.name setting.child =
      [.entry ⟨root, Address.join path setting.name⟩ (setting.shown doc.session).id
        (setting.entry doc.session) (descriptionOf (setting.shown doc.session) ++
          doc.underSite root (Address.join path setting.name) (setting.inner doc.session))] := by
  have inner : doc.memberInner root (doc.underAll root) (Address.join path setting.name)
      (memberDefault setting.site.told setting.name) setting.child =
      doc.underSite root (Address.join path setting.name) (setting.inner doc.session) := by
    rw [memberInner]
    cases hs : standIn? doc.session setting.child with
    | some ty => exact underAll_eq straight root _
    | none =>
      refine under_of_shape ?_
      rw [Setting.inner, Setting.shown, shown, hs]
      rfl
  rw [memberBlocks, whole.entryBlocks, inner]
  rfl

/-- A setting has its entry among what is documented at the site above. -/
theorem Whole.mem_underSite (whole : doc.Whole) (root path : String)
    (h : ReflTransGen doc.session.Sheds setting.outer setting.site)
    (hc : Table.get? setting.site.ty.properties setting.name = some setting.child)
    (straight : ¬ doc.session.Circles setting.outer.ty) :
    .entry ⟨root, Address.join path setting.name⟩ (setting.shown doc.session).id
        (setting.entry doc.session) (descriptionOf (setting.shown doc.session) ++
          doc.underSite root (Address.join path setting.name) (setting.inner doc.session)) ∈
      doc.underSite root path setting.outer := by
  rw [underSite_of_sheds h straight]
  have inner := setting.straight_inner hc (Session.straight_of_sheds h straight)
  have mem : (setting.name, setting.child) ∈ setting.site.ty.properties := Table.mem_of_get? hc
  rw [underSite]
  cases hs : setting.site.ty with
  | mk notes const shape =>
    rw [hs] at mem
    cases shape with
    | object members rest =>
      cases members with
      | nil => cases mem
      | cons member members =>
        rw [under, underMembers_eq, List.mem_flatMap]
        refine ⟨_, mem, ?_⟩
        change _ ∈ doc.memberBlocks root (doc.underAll root) path
          (memberDefault setting.site.told setting.name) setting.name setting.child
        rw [whole.memberBlocks_eq inner]
        exact List.mem_cons_self
    | _ => cases mem

/-- A setting has an entry inside those of the settings above it. -/
theorem Whole.under_of_leads (whole : doc.Whole) {settings : List Setting} :
    ∀ {site : Site} {path : String}, ¬ doc.session.Circles site.ty →
      doc.session.Leads site (settings ++ [setting]) →
      Block.Under (setting.entry doc.session) ((settings ++ [setting]).map Setting.name)
        (doc.underSite root path site) := by
  induction settings with
  | nil =>
    intro site path straight leads
    cases leads with
    | property h hc _ =>
      exact .here (setting.name_entry _) (whole.mem_underSite root path h hc straight)
  | cons first rest ih =>
    intro site path straight leads
    cases leads with
    | property h hc leads =>
      have inner := first.straight_inner hc (Session.straight_of_sheds h straight)
      refine .inside (first.name_entry _) (whole.mem_underSite root path h hc straight) ?_
      exact (ih inner leads).mono (List.subset_append_right _ _)

/-- The type that is documented has an entry. -/
theorem Full.entry_mem_blocks (full : doc.Full) (title : Option String) (ty : Ty) :
    .entry ⟨ty.id, ""⟩ ty.id
        { kind := .setting
          name := ty.id
          required := ty.annotations.required
          deprecated := ty.annotations.deprecated }
        (descriptionOf ty ++ doc.underAll ty.id "" ty) ∈ doc.blocks title ty := by
  rw [blocks, typeBlocks, full.unwrapped?]
  dsimp only
  rw [full.whole.entryBlocks]
  exact List.mem_append_left _ (List.mem_append_right _ List.mem_cons_self)

/-- The settings that the type leads to have entries inside that. -/
theorem Full.under_of_leads (full : doc.Full) (title : Option String) {ty : Ty}
    (straight : ¬ doc.session.Circles ty) {settings : List Setting}
    (leads : doc.session.Leads (.ofRoot ty) (settings ++ [setting])) :
    Block.Under (setting.entry doc.session)
      (ty.id :: (settings ++ [setting]).map Setting.name) (doc.blocks title ty) := by
  have below := @Whole.under_of_leads doc ty.id setting full.whole settings (.ofRoot ty) "" straight
    leads
  rw [underSite, Site.ofRoot, ← underAll_eq straight] at below
  exact .inside rfl (full.entry_mem_blocks title ty) (below.mono (List.subset_append_right _ _))

end Documentation

end SchemaDoc
