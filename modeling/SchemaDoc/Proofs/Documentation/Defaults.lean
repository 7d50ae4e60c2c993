import SchemaDoc.Proofs.Documentation.Sites
import SchemaDoc.Proofs.Session.Selections

/-!
# Defaults in a documentation and in an example

A documentation shows the default of a setting, and an example holds a value for it.  If no default
is lost on the way to a setting, the value is the default that is shown, unless the value is an
object, `Session.shown_eq_held`.

That follows from what an example holds at a `Site`, `Session.Fits`.  Outside of options it is the
example of the type there with the default in effect.  Inside an option it is what is in effect, as
it is.  Where the documentation of the root ends, an example follows every reference on the way,
`Session.Ahead.follow`, so what fits a site leads to what fits the sites below.

An optional setting without a default is null in an example, or its constant.  The documentation
shows the default of the type that stands in for it, and null without one.  So such settings are
*unsettled*, `Setting.Unsettled`, and there the two may differ.
-/

namespace SchemaDoc

open Documentation (memberDefault standIn?)
open Relation (ReflTransGen TransGen)

namespace Session

/-! ## Examples with a default -/

section Examples

variable {session : Session} {follow : String → Option Json → Json} {selection : Selection}
variable {given other : Option Json} {a b ty : Ty} {value : Json}

/-- Of the annotations only the default matters, and that only if none is given. -/
theorem exampleWith_congr (shape : a.shape = b.shape) (const : a.const = b.const)
    (same : given.or a.default? = other.or b.default?) :
    exampleWith follow selection given a = exampleWith follow selection other b := by
  obtain ⟨notes, only, built⟩ := a
  obtain ⟨notes', only', built'⟩ := b
  cases shape
  cases const
  replace same : given.or notes.default = other.or notes'.default := same
  cases built <;> simp only [exampleWith, same]

/-- The example of an option is its default, its constant or null. -/
theorem exampleWith_of_isOptional (h : ty.isOptional = true) :
    exampleWith follow selection given ty = ((given.or ty.default?).or ty.const).getD .null := by
  obtain ⟨notes, const, shape⟩ := ty
  cases shape with
  | union form items nullable => rfl
  | _ => cases h

theorem exampleWith_of_target? {target : String} (h : ty.target? = some target) :
    exampleWith follow selection given ty = follow target (given.or ty.default?) := by
  obtain ⟨notes, const, rfl⟩ := Ty.exists_of_target? h
  rfl

/-- What the example of an object has under the name of a property is the example of that. -/
theorem eq_of_get?_exampleWith {name : String} {child : Ty}
    (hc : Table.get? ty.properties name = some child)
    (h : (exampleWith follow .all given ty).get? name = some value) :
    value = exampleWith follow .all (memberDefault (given.or ty.default?) name) child := by
  obtain ⟨notes, const, shape⟩ := ty
  cases shape with
  | object members rest =>
    replace hc : Table.get? members name = some child := hc
    replace h : Table.get? (exampleMembers follow .all ((given.or notes.default).bind Json.asObject?)
      members) name = some value := h
    obtain ⟨shown, -⟩ := exists_of_get?_exampleMembers _ _ _ (Option.isSome_of_eq_some h)
    rw [get?_exampleMembers _ .all _ shown hc rfl] at h
    exact (Option.some.inj h).symm
  | _ => cases hc

/-- An example with a default is the default, unless it is an object. -/
theorem exampleWith_some (follows : ∀ target, (follow target (some value)).asObject? = none →
      follow target (some value) = value) (default : given.or ty.default? = some value)
    (plain : (exampleWith follow selection given ty).asObject? = none) :
    exampleWith follow selection given ty = value := by
  obtain ⟨notes, const, shape⟩ := ty
  replace default : given.or notes.default = some value := default
  cases shape with
  | object members rest => cases plain
  | reference target =>
    simp only [exampleWith, default] at plain ⊢
    exact follows target plain
  | _ => simp only [exampleWith, default, Option.some_or, Option.getD_some]

theorem followExample_of_get?_eq_none {target : String} (h : session.get? target = none)
    (room : Nat) (expanding : List String) :
    session.followExample selection room expanding target given = given.getD .null := by
  cases room with
  | zero => rfl
  | succ room => rw [followExample, h, ite_self]

theorem followExample_some (room : Nat) : ∀ (expanding : List String) (target : String),
    (session.followExample selection room expanding target (some value)).asObject? = none →
      session.followExample selection room expanding target (some value) = value := by
  induction room with
  | zero => exact fun _ _ _ => rfl
  | succ room ih =>
    intro expanding target plain
    rw [followExample] at plain ⊢
    split
    · rfl
    · rename_i new
      rw [if_neg new] at plain
      cases hg : session.get? target with
      | none => rfl
      | some found =>
        rw [hg] at plain
        exact exampleWith_some (ih _) (Option.some_or ..) plain

end Examples

/-! ## Room for what is ahead -/

/-- An example can follow every reference ahead: there is room, and the names that it follows
already lead there. -/
structure Ahead (session : Session) (ty : Ty) (room : Nat) (expanding : List String) : Prop where
  room : session.unmet expanding ≤ room
  behind : session.Behind expanding ty

section Ahead

variable {session : Session} {ty found : Ty} {target : String} {room : Nat}
variable {expanding : List String}

theorem Ahead.mono {a b : Ty} (h : session.Ahead a room expanding)
    (into : ∀ target, session.GoesInto b target → session.GoesInto a target) :
    session.Ahead b room expanding where
  room := h.room
  behind name hm target goes := h.behind name hm target (into target goes)

/-- A target is followed, and then what is in it is ahead. -/
theorem Ahead.follow (h : session.Ahead ty room expanding) (straight : ¬ session.Circles ty)
    (goes : session.GoesInto ty target) (hg : session.get? target = some found) :
    ∃ less, session.Ahead found less (target :: expanding) ∧ ∀ selection given,
      session.followExample selection room expanding target given =
        exampleWith (session.followExample selection less (target :: expanding)) selection given
          found := by
  have new := h.behind.not_mem straight goes
  have fewer := unmet_cons_lt goes.2.2 new
  have enough := h.room
  obtain ⟨less, rfl⟩ : ∃ less, room = less + 1 := ⟨room - 1, by omega⟩
  refine ⟨less, ⟨by omega, h.behind.cons goes hg rfl⟩, fun selection given => ?_⟩
  rw [followExample, if_neg (by simpa using new), hg]

end Ahead

/-! ## Examples at a site -/

/-- The value that an example of all settings holds at a site: what is in effect there, or the
example of the type with that for a default. -/
inductive Fits (session : Session) (site : Site) (value : Json) : Prop where
  | fixed : site.fixed = true → value = site.effect.getD .null → Fits session site value
  | made {room : Nat} {expanding : List String} : site.fixed = false →
      session.Ahead site.ty room expanding → site.effect.or site.ty.default? = site.effect →
      value = exampleWith (session.followExample .all room expanding) .all site.effect site.ty →
      Fits session site value

section Fits

variable {session : Session} {site next : Site} {setting : Setting} {value member : Json}

theorem fits_ofRoot (session : Session) (root : Ty) :
    session.Fits (.ofRoot root) (session.exampleOf root .all) := by
  refine .made rfl ⟨session.unmet_le [], nofun⟩ (Option.or_self ..) ?_
  exact exampleWith_congr rfl rfl (by rw [Option.none_or, Site.ofRoot, Option.or_self])

/-- If a default is in effect, the value is the default or an object. -/
theorem Fits.eq_of_effect (fits : session.Fits site value) {default : Json}
    (h : site.effect = some default) (plain : value.asObject? = none) : value = default := by
  cases fits with
  | fixed _ hv => rw [hv, h, Option.getD_some]
  | made _ _ _ hv =>
    rw [h] at hv
    rw [hv] at plain ⊢
    exact exampleWith_some (followExample_some _ _) (Option.some_or ..) plain

/-- Options and references at a site hold the value of what is in them. -/
theorem Fits.shed (fits : session.Fits site value) (straight : ¬ session.Circles site.ty)
    (h : session.Sheds site next) : session.Fits next value := by
  cases h with
  | @option item hp =>
    cases fits with
    | fixed hf hv => exact .fixed rfl (by rw [hv, if_pos hf])
    | made hf _ own hv =>
      refine .fixed rfl ?_
      rw [hv, exampleWith_of_isOptional (Ty.isOptional_of_present? hp), own, if_neg (by simp [hf])]
  | @follow target found ht inline hg =>
    cases fits with
    | fixed hf hv => exact .fixed hf (by rw [hv, if_pos hf])
    | made hf ahead own hv =>
      obtain ⟨less, ahead, follows⟩ :=
        ahead.follow straight (goesInto_of_target? ht inline hg) hg
      have unfixed : ¬ site.fixed = true := by simp [hf]
      refine .made hf ahead ?_ ?_
      · rw [if_neg unfixed, Option.or_assoc, Option.or_self]
      · rw [hv, exampleWith_of_target? ht, own, follows, if_neg unfixed]
        exact exampleWith_congr rfl rfl (by rw [Option.or_assoc, Option.or_self])

theorem Fits.of_sheds (fits : session.Fits site value) (straight : ¬ session.Circles site.ty)
    (h : ReflTransGen session.Sheds site next) : session.Fits next value := by
  induction h with
  | refl => exact fits
  | tail before last ih => exact ih.shed (straight_of_sheds before straight) last

/-- Where a value is as it is, what it holds for a setting is in effect. -/
theorem Fits.inEffect_of_fixed (fits : session.Fits setting.site value)
    (held : value.get? setting.name = some member) (fixed : setting.site.fixed = true) :
    setting.inEffect = some member := by
  cases fits with
  | fixed _ hv =>
    rw [Setting.inEffect, if_pos fixed]
    subst hv
    cases he : setting.site.effect with
    | none =>
      rw [he] at held
      cases held
    | some default =>
      rw [he] at held
      cases default <;> exact held
  | made hf _ _ _ =>
    rw [hf] at fixed
    cases fixed

/-- The example of a property that is no option fits what stands in for it. -/
theorem fits_of_shown {room : Nat} {expanding : List String} {child : Ty} {given told : Option Json}
    (straight : ¬ session.Circles child) (present : child.isOptional = false)
    (ahead : session.Ahead child room expanding) (made : site.fixed = false)
    (ty : site.ty = Documentation.shown session told child) (own : site.ty.default? = site.effect)
    (effect : site.effect =
      (given.or child.default?).or ((standIn? session child).bind Ty.default?)) :
    session.Fits site
      (exampleWith (session.followExample .all room expanding) .all given child) := by
  have whole : site.effect.or site.ty.default? = site.effect := by rw [own, Option.or_self]
  cases hs : standIn? session child with
  | none =>
    rw [Documentation.shown, hs] at ty
    rw [hs, Option.bind_none, Option.or_none] at effect
    have same : site.ty.shape = child.shape := by rw [ty]; rfl
    refine .made made (ahead.mono fun _ goes => goes.of_shape same.symm) whole ?_
    exact exampleWith_congr same.symm (by rw [ty]; rfl) (by rw [whole, effect])
  | some standIn =>
    obtain ⟨target, found, ht, inline, hf, shape, -, const, default⟩ :=
      Documentation.exists_of_standIn? hs
    rw [Ty.unwrapOptional_of_not_isOptional present] at ht
    rw [Documentation.shown, hs] at ty
    have shape : site.ty.shape = found.shape := by rw [ty, ← shape]; rfl
    have const : site.ty.const = found.const := by rw [ty, ← const]; rfl
    replace effect : site.effect = (given.or child.default?).or found.default? := by
      rw [effect, hs, Option.bind_some, default]
      cases given <;> cases child.default? <;> rfl
    rw [exampleWith_of_target? ht]
    cases hg : session.get? target with
    | none =>
      -- Any value stands in for it, and in the example it has its default.
      obtain rfl : Ty.any = found := by simpa [hg] using hf
      refine .made made (ahead.mono fun _ goes => ?_) whole ?_
      · cases (goes.of_shape shape.symm).1.mem_targets
      · rw [followExample_of_get?_eq_none hg,
          exampleWith_congr shape const (by rw [whole, effect] : _ = Option.or _ Ty.any.default?)]
        simp [exampleWith, Ty.any, Ty.ofLeaf, Ty.ofShape, Shape.neutral]
    | some kept =>
      obtain rfl : kept = found := by simpa [hg] using hf
      obtain ⟨less, ahead, follows⟩ :=
        ahead.follow straight (goesInto_of_target? ht inline hg) hg
      refine .made made (ahead.mono fun _ goes => goes.of_shape shape.symm) whole ?_
      rw [follows]
      exact exampleWith_congr shape.symm const.symm (by rw [whole, effect])

/-- An object holds for each of its settings the value that fits below. -/
theorem Fits.inner (fits : session.Fits setting.site value)
    (straight : ¬ session.Circles setting.site.ty)
    (hc : Table.get? setting.site.ty.properties setting.name = some setting.child)
    (alike : setting.Alike) (held : value.get? setting.name = some member) :
    session.Fits (setting.inner session) member := by
  cases hf : setting.site.fixed with
  | true =>
    -- What is held for it is in effect, so it is as it is again.
    have value := fits.inEffect_of_fixed held hf
    refine .fixed (by simp [Setting.inner, hf]) ?_
    simp [Setting.inner, hf, value]
  | false =>
    cases fits with
    | fixed hf' _ => exact absurd (hf.symm.trans hf') Bool.false_ne_true
    | made _ ahead own hv =>
      rw [hv] at held
      have held := eq_of_get?_exampleWith hc held
      rw [own] at held
      have inEffect : setting.inEffect =
          (memberDefault setting.site.effect setting.name).or setting.child.default? := by
        rw [Setting.inEffect, hf, if_neg Bool.false_ne_true]
      cases ho : setting.child.isOptional with
      | true =>
        -- The example of an option goes no further, whatever stands in for it.
        refine .fixed (by simp [Setting.inner, ho]) ?_
        rw [held, exampleWith_of_isOptional ho, ← inEffect]
        simp [Setting.inner, hf, ho]
      | false =>
        have made : (setting.inner session).fixed = false := by simp [Setting.inner, hf, ho]
        have told := setting.told_inner alike made
        rw [held]
        refine fits_of_shown (fun circles => straight (circles.mono fun _ => .of_property hc)) ho
          (ahead.mono fun _ => .of_property hc) made rfl told ?_
        rw [← inEffect]
        simp [Setting.inner, hf, ho]

/-- Null is the value that fits below an optional setting that is documented without a default. -/
theorem Fits.eq_null (fits : session.Fits (setting.inner session) member)
    (alike : setting.Alike) (settled : ¬ setting.Unsettled session)
    (known : setting.site.fixed = true → setting.inEffect.isSome)
    (told : (setting.shown session).default? = none)
    (optional : (setting.shown session).isOptional = true) : member = .null := by
  have hi : setting.inEffect = none := by
    by_contra effect
    obtain ⟨value, hi⟩ := Option.ne_none_iff_exists'.mp effect
    have known := @Setting.told_of_inEffect session setting alike value hi
    exact Option.some_ne_none _ (known.symm.trans told)
  have free : setting.site.fixed = false := by simpa [hi] using known
  cases ho : setting.child.isOptional with
  | true =>
    have const : setting.child.const = none := by
      by_contra const
      refine settled ⟨hi, ?_⟩
      rw [if_pos ho]
      exact .inl (Option.isSome_iff_ne_none.mpr const)
    cases fits with
    | fixed _ hv => simpa [Setting.inner, free, ho, hi, const] using hv
    | made hf _ _ _ => simp [Setting.inner, ho] at hf
  | false =>
    have const : (setting.shown session).const = none := by
      by_contra const
      refine settled ⟨hi, ?_⟩
      rw [if_neg (by simp [ho])]
      exact ⟨optional, Option.isSome_iff_ne_none.mpr const⟩
    have made : (setting.inner session).fixed = false := by simp [Setting.inner, free, ho]
    have effect := (setting.told_inner alike made).symm.trans told
    cases fits with
    | fixed hf _ => exact absurd (made.symm.trans hf) Bool.false_ne_true
    | made _ _ own hv =>
      have hv := hv.trans (exampleWith_of_isOptional optional)
      rw [own, effect] at hv
      simpa [Setting.inner, const] using hv

/-- A default that is shown for a setting is the value that fits below, unless that is an object. -/
theorem Fits.compact_eq (fits : session.Fits (setting.inner session) member)
    (alike : setting.Alike) (settled : ¬ setting.Unsettled session)
    (known : setting.site.fixed = true → setting.inEffect.isSome)
    (plain : member.asObject? = none) {text : String}
    (shows : (setting.entry session).default = some text) : member.compact = text := by
  rcases Documentation.of_default_innerEntry shows with ⟨default, own, rfl⟩ | ⟨none, optional, rfl⟩
  · rw [fits.eq_of_effect (setting.effect_of_told alike settled known own) plain]
  · rw [fits.eq_null alike settled known none optional]
    rfl

end Fits

/-! ## Down to a setting -/

section Leads

variable {session : Session} {site next : Site} {setting : Setting} {value member : Json}

theorem fixed_of_sheds (h : ReflTransGen session.Sheds site next) (fixed : site.fixed = true) :
    next.fixed = true := by
  induction h with
  | refl => exact fixed
  | tail _ last ih =>
    cases last with
    | option _ => rfl
    | follow _ _ _ => exact ih

/-- Something is shed in an option or at a reference. -/
theorem eq_or_of_sheds (h : ReflTransGen session.Sheds site next) :
    next = site ∨ next.fixed = true ∨ site.ty.target?.isSome := by
  rcases h.cases_head with rfl | ⟨middle, first, others⟩
  · exact .inl rfl
  · cases first with
    | option _ => exact .inr (.inl (fixed_of_sheds others rfl))
    | follow ht _ _ => exact .inr (.inr (Option.isSome_of_eq_some ht))

/-- If nothing is in effect behind references, nothing is told. -/
theorem told_of_sheds (h : ReflTransGen session.Sheds site next)
    (even : site.fixed = false → site.told = site.effect) (made : next.fixed = false)
    (absent : next.effect = none) : next.told = none := by
  rcases h.cases_tail with rfl | ⟨middle, -, last⟩
  · rw [even made, absent]
  · cases last with
    | option _ => cases made
    | follow _ _ _ =>
      rw [show middle.fixed = false from made] at absent
      exact (Option.or_eq_none_iff.mp absent).2

/-- What an example holds at a site that the documentation ends for, where what is told is in effect
unless the site is inside an option. -/
structure Level (session : Session) (site : Site) (value : Json) : Prop where
  straight : ¬ session.Circles site.ty
  even : site.fixed = false → site.told = site.effect
  fits : session.Fits site value

/-- What is told is alike for a setting that loses no default. -/
theorem Level.alike (level : session.Level setting.outer value)
    (h : ReflTransGen session.Sheds setting.outer setting.site) (keeps : ¬ setting.Loses)
    (held : value.get? setting.name = some member) : setting.Alike := by
  by_contra differs
  have fits := level.fits.of_sheds level.straight h
  cases hf : setting.site.fixed with
  | true =>
    -- If nothing were in effect, null would hold nothing for the setting.
    have known := fits.inEffect_of_fixed held hf
    rw [Setting.inEffect, if_pos hf] at known
    cases he : setting.site.effect with
    | none =>
      rw [he] at known
      cases known
    | some default => exact keeps ⟨by rw [he]; rfl, .inl hf, differs⟩
  | false =>
    -- A reference loses nothing unless a default is in effect, and nothing else is shed here.
    rcases eq_or_of_sheds h with same | fixed | reference
    · rw [same] at hf
      rw [Setting.Alike, same, level.even hf] at differs
      exact differs rfl
    · exact absurd (hf.symm.trans fixed) Bool.false_ne_true
    · cases he : setting.site.effect with
      | none =>
        rw [Setting.Alike, he, told_of_sheds h level.even hf he] at differs
        exact differs rfl
      | some default => exact keeps ⟨by rw [he]; rfl, .inr reference, differs⟩

/-- From a setting that loses no default one gets to a site like the one above. -/
theorem Level.inner (level : session.Level setting.outer value)
    (h : ReflTransGen session.Sheds setting.outer setting.site)
    (hc : Table.get? setting.site.ty.properties setting.name = some setting.child)
    (keeps : ¬ setting.Loses) (held : value.get? setting.name = some member) :
    session.Level (setting.inner session) member := by
  have straight := straight_of_sheds h level.straight
  have alike := level.alike h keeps held
  have fits := level.fits.of_sheds level.straight h
  exact ⟨setting.straight_inner hc straight, setting.told_inner alike,
    fits.inner straight hc alike held⟩

/-- If no default is lost on the way, the default that is shown is the value at the end. -/
theorem Level.compact_eq {settings : List Setting} (settled : ¬ setting.Unsettled session)
    (plain : member.asObject? = none) {text : String}
    (shows : (setting.entry session).default = some text) : ∀ {site : Site} {value : Json},
      session.Level site value → session.Leads site (settings ++ [setting]) →
      (∀ above ∈ settings ++ [setting], ¬ above.Loses) →
      value.at? ((settings ++ [setting]).map Setting.name) = some member → member.compact = text := by
  -- On the settings above, at any site: a setting on the way leads from one level to the next.
  induction settings with
  | nil =>
    intro site value level leads keeps held
    cases leads with
    | property h hc _ =>
      obtain ⟨keeps, -⟩ := List.forall_mem_cons.mp keeps
      obtain ⟨found, held, same⟩ := Option.bind_eq_some_iff.mp held
      cases same
      have fits := level.fits.of_sheds level.straight h
      have known (fixed : setting.site.fixed = true) : setting.inEffect.isSome :=
        Option.isSome_of_eq_some (fits.inEffect_of_fixed held fixed)
      exact (level.inner h hc keeps held).fits.compact_eq (level.alike h keeps held) settled known
        plain shows
  | cons first rest ih =>
    intro site value level leads keeps held
    cases leads with
    | property h hc leads =>
      obtain ⟨keep, keeps⟩ := List.forall_mem_cons.mp keeps
      obtain ⟨found, held, below⟩ := Option.bind_eq_some_iff.mp held
      exact ih (level.inner h hc keep held) leads keeps below

end Leads

end Session

/-! ## Defaults agree -/

namespace Session

/-- Of a name that loads, everything is documented, with an entry for each setting that properties
lead to.  If no default is lost on the way and the setting is settled, the default that the entry
shows is the value that an example of all settings has for it, unless that is an object. -/
theorem shown_eq_held {session loaded : Session} {uri : String} {root : Ty}
    (hl : session.load uri = (.ok root, loaded)) (straight : ¬ loaded.Circles root)
    (title : Option String) :
    ∃ blocks, session.document uri { recursive := true, title } = (.ok blocks, loaded) ∧
      ∀ settings setting, loaded.Leads (.ofRoot root) (settings ++ [setting]) →
        Block.Under (setting.entry loaded) (root.id :: (settings ++ [setting]).map Setting.name)
          blocks ∧
        ∀ text value, (setting.entry loaded).default = some text →
          (loaded.exampleOf root .all).at? ((settings ++ [setting]).map Setting.name) = some value →
          value.asObject? = none → (∀ passed ∈ settings ++ [setting], ¬ passed.Loses) →
          ¬ setting.Unsettled loaded → value.compact = text := by
  have full : Documentation.Full ⟨loaded, true, false, []⟩ := ⟨rfl, rfl, rfl⟩
  refine ⟨Documentation.blocks ⟨loaded, true, false, []⟩ title root, ?_, ?_⟩
  · rw [document, hl]
    rfl
  · intro settings setting leads
    refine ⟨full.under_of_leads title straight leads, ?_⟩
    intro text value shows held plain keeps settled
    have level : loaded.Level (.ofRoot root) (loaded.exampleOf root .all) :=
      ⟨straight, fun _ => rfl, loaded.fits_ofRoot root⟩
    exact level.compact_eq settled plain shows leads keeps held

/-- An object that gives a default to a property of the defined type, of which there is no other
use. -/
def inheritingSchema : Json :=
  definingSchema [("properties", .object [("p", definedReference)]),
    ("default", .object [("p", .object [("x", .string "v")])])]

/-- The settings `p` and `x`, the one inside the other. -/
def nestedSettings (loaded : Session) (root p x : Ty) : Setting × Setting :=
  let outer : Setting := ⟨.ofRoot root, .ofRoot root, "p", p⟩
  (outer, ⟨outer.inner loaded, outer.inner loaded, "x", x⟩)

/-- What the object gives is shown and held for the property of the defined type. -/
theorem inherited_shown_eq_held :
    ∃ root loaded blocks p x text value,
      (fresh (Registry.register {} "Root" inheritingSchema).crawl "mark").load "Root" =
        (.ok root, loaded) ∧
      (fresh (Registry.register {} "Root" inheritingSchema).crawl "mark").document "Root"
        { recursive := true } = (.ok blocks, loaded) ∧
      Block.Under ((nestedSettings loaded root p x).2.entry loaded) [root.id, "p", "x"] blocks ∧
      ((nestedSettings loaded root p x).2.entry loaded).default = some text ∧
      (loaded.exampleOf root .all).at? ["p", "x"] = some value ∧ value.compact = text := by
  have computed : passes ((fresh (Registry.register {} "Root" inheritingSchema).crawl "mark").load
      "Root") (fun root loaded =>
        ((Table.get? root.properties "p").bind fun p =>
          (Table.get? (nestedSettings loaded root p p).2.site.ty.properties "x").map fun x =>
            let inner := (nestedSettings loaded root p x).2
            root.target?.isNone && !inner.site.fixed && inner.outer.ty.target?.isNone &&
              inner.inEffect.isSome && (inner.entry loaded).default.isSome &&
              (((loaded.exampleOf root .all).at? ["p", "x"]).map fun value =>
                value.asObject?.isNone) == some true) == some true) = true := by decide +kernel
  obtain ⟨root, loaded, hl, computed⟩ := exists_of_passes computed
  obtain ⟨p, hp, computed⟩ := Option.bind_eq_some_iff.mp (eq_of_beq computed)
  obtain ⟨x, hx, computed⟩ := Option.map_eq_some_iff.mp computed
  simp only [Bool.and_eq_true, Bool.not_eq_true', Option.isNone_iff_eq_none] at computed
  obtain ⟨⟨⟨⟨⟨top, open'⟩, object⟩, effect⟩, shows⟩, holds⟩ := computed
  obtain ⟨text, shows⟩ := Option.isSome_iff_exists.mp shows
  obtain ⟨value, held, plain⟩ := Option.map_eq_some_iff.mp (eq_of_beq holds)
  simp only [Option.isNone_iff_eq_none] at plain
  have c := complete_of_load "mark" (.register "Root" inheritingSchema .empty) (by decide +kernel)
    (by decide +kernel) [] rfl hl
  obtain ⟨blocks, hd, agree⟩ := shown_eq_held hl (c.not_circles root) none
  obtain ⟨entry, agree⟩ := agree [(nestedSettings loaded root p x).1]
    (nestedSettings loaded root p x).2 (@Leads.property _ (nestedSettings loaded root p x).1 _ .refl
      hp (@Leads.property _ (nestedSettings loaded root p x).2 _ .refl hx .here))
  refine ⟨root, loaded, blocks, p, x, text, value, hl, hd, entry, shows, held, ?_⟩
  refine agree text value shows held plain ?_ fun unsettled => ?_
  · refine List.forall_mem_cons.mpr ⟨?_, List.forall_mem_cons.mpr ⟨?_, nofun⟩⟩
    · rintro ⟨-, fixed | reference, -⟩
      · cases fixed
      · rw [show (nestedSettings loaded root p x).1.outer.ty = root from rfl, top] at reference
        cases reference
    · rintro ⟨-, fixed | reference, -⟩
      · exact absurd (open'.symm.trans fixed) Bool.false_ne_true
      · rw [object] at reference
        cases reference
  · rw [unsettled.1] at effect
    cases effect

/-- An option of a type with a default. -/
def optingSchema : Json :=
  objectSchema [("q", .object [("anyOf", .array [.object [("$ref", .string "#/$defs/A")],
      .object [("type", .string "null")]])])]
    [("$defs", .object [("A", .object [("type", .string "integer"), ("default", .ofNat 3)])])]

/-- Not every default that is shown is the value in the example: an option without a default is
null there, whatever the type that stands in for it has for a default. -/
theorem not_shown_eq_held :
    ¬ ∀ (registry : Registry) (keyword uri : String) (root : Ty) (loaded : Session),
      (fresh registry.crawl keyword).load uri = (.ok root, loaded) →
      ∃ blocks, (fresh registry.crawl keyword).document uri { recursive := true } =
          (.ok blocks, loaded) ∧
        ∀ settings setting, loaded.Leads (.ofRoot root) (settings ++ [setting]) →
          Block.Under (setting.entry loaded) (root.id :: (settings ++ [setting]).map Setting.name)
            blocks →
          ∀ text value, (setting.entry loaded).default = some text →
            (loaded.exampleOf root .all).at? ((settings ++ [setting]).map Setting.name) =
              some value →
            value.asObject? = none → value.compact = text := by
  intro all
  have computed : passes ((fresh (Registry.register {} "Root" optingSchema).crawl "mark").load
      "Root") (fun root loaded =>
        ((Table.get? root.properties "q").bind fun q =>
            (Setting.entry loaded ⟨.ofRoot root, .ofRoot root, "q", q⟩).default) == some "3" &&
          (((loaded.exampleOf root .all).at? ["q"]).map fun value =>
            (value.asObject?.isNone, value.compact)) == some (true, "null")) = true := by
    decide +kernel
  obtain ⟨root, loaded, hl, computed⟩ := exists_of_passes computed
  simp only [Bool.and_eq_true] at computed
  obtain ⟨shows, held⟩ := computed
  obtain ⟨q, hq, shows⟩ := Option.bind_eq_some_iff.mp (eq_of_beq shows)
  obtain ⟨value, held, null⟩ := Option.map_eq_some_iff.mp (eq_of_beq held)
  obtain ⟨plain, null⟩ := Prod.mk.inj null
  have c := complete_of_load "mark" (.register "Root" optingSchema .empty) (by decide +kernel)
    (by decide +kernel) [] rfl hl
  obtain ⟨blocks, hd, agree⟩ := all _ "mark" "Root" root loaded hl
  obtain ⟨root', hl', rfl⟩ := load_of_document hd
  rw [hl] at hl'
  cases hl'
  have full : Documentation.Full ⟨loaded, true, false, []⟩ := ⟨rfl, rfl, rfl⟩
  have leads : loaded.Leads (.ofRoot root) ([] ++ [⟨.ofRoot root, .ofRoot root, "q", q⟩]) :=
    @Leads.property _ ⟨.ofRoot root, .ofRoot root, "q", q⟩ _ .refl hq .here
  have same := agree _ _ leads (full.under_of_leads none (c.not_circles root) leads) "3" value
    shows held (Option.isNone_iff_eq_none.mp plain)
  rw [null] at same
  exact absurd same (by decide)

end Session

end SchemaDoc
