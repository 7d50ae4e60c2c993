import SchemaDoc.Proofs.Session.Origins
import SchemaDoc.Proofs.Ty.Unscoped

/-!
# The order of loads

What a name is compiled to is a matter of the name.  Two sessions over one registry that have
loaded other names, or the same in another order, have built a type of the same schema and of
references to the same places, `Registry.Makes.related`.  They may only know more or less of
the settings under a target, so the types are equal without their scopes.

If no cycle of references is reached from the name, nothing on the way was met while it was
being compiled.  Then the scopes are equal too, by induction on the place in the cache.

All this is so if the name of a resource says what its contents are.  It need not if a
document embeds a resource under its own name, `not_load_order`.
-/

namespace SchemaDoc

open Relation (ReflTransGen TransGen)

namespace Registry

/-- No cycle of references is reached from a name. -/
def Acyclic (registry : Registry) (keyword id : String) : Prop :=
  ∀ other, ReflTransGen (registry.Refers keyword) id other →
    ¬ TransGen (registry.Refers keyword) other other

variable {registry : Registry} {keyword id : String}

theorem Acyclic.of_refers {target : String} (h : registry.Acyclic keyword id)
    (refers : registry.Refers keyword id target) : registry.Acyclic keyword target :=
  fun other reaches => h other (.head refers reaches)

/-- No cycle is reached from a schema without references. -/
theorem acyclic_of_references (hb : registry.Built) (hc : registry.Consistent) {place : Place}
    {contents : Json} (found : registry.Found place)
    (stands : registry.contentsAt place = .ok contents)
    (none : (Schema.ofJson keyword contents).references = []) :
    registry.Acyclic keyword place.id := by
  have lone (target : String) : ¬ registry.Refers keyword place.id target := by
    rintro ⟨own, -, found', hid, ⟨contents', stands', reference, hr, -⟩, -⟩
    rw [found'.contentsAt_eq hb hc found hid, stands] at stands'
    cases stands'
    rw [none] at hr
    cases hr
  intro other reaches cycle
  rcases reaches.cases_head with rfl | ⟨next, refers, -⟩
  · obtain ⟨next, refers, -⟩ := TransGen.head'_iff.mp cycle
    exact lone next refers
  · exact lone next refers

/-- Types made for one name are related if the answers to each reference are. -/
theorem Makes.related {answers answers' : Place → Schema.Reference → Ty → Prop}
    {R : Ty → Ty → Prop} (hb : registry.Built) (hc : registry.Consistent)
    (congr : Ty.Congruence R) (withId : ∀ a b, R a b → R (a.withId id) (b.withId id))
    {ty ty' : Ty} (h : registry.Makes keyword answers id ty)
    (h' : registry.Makes keyword answers' id ty')
    (each : ∀ place place' reference answer answer', place.id = id → place'.id = id →
        place.name = place'.name →
      (∀ other, registry.placeOf place.name reference.text = .ok other →
        registry.Refers keyword id other.id) →
      answers place reference answer → answers' place' reference answer' → R answer answer') :
    R ty ty' := by
  obtain ⟨place, contents, types, found, hid, stands, rfl, answered⟩ := h
  obtain ⟨place', contents', types', found', hid', stands', rfl, answered'⟩ := h'
  have same := found.contentsAt_eq hb hc found' (hid.trans hid'.symm)
  obtain ⟨name, -⟩ := found.eq_of_id hb found' (hid.trans hid'.symm)
  rw [stands, stands'] at same
  cases same
  refine withId _ _ (Schema.build_congr congr _ ?_)
  rw [List.forall₂_iff_get]
  have length := answered.length_eq.symm.trans answered'.length_eq
  refine ⟨length, fun i hi hi' => ?_⟩
  have hr : i < (Schema.ofJson keyword contents).references.length := answered.length_eq ▸ hi
  refine each place place' _ _ _ hid hid' name (fun other hp => ?_)
    (answered.get hr hi) (answered'.get hr hi')
  exact ⟨place, other, found, hid, ⟨contents, stands, _, List.get_mem _ ⟨i, hr⟩, hp⟩, rfl⟩

/-- Either answer to a reference is a type of the reference to the place it leads to. -/
theorem Answers.eq_typeTo {recursive : List String} {earlier : Table String Ty} {place : Place}
    {reference : Schema.Reference} {ty : Ty}
    (h : registry.Answers keyword recursive earlier place reference ty) :
    ∃ other scope, registry.placeOf place.name reference.text = .ok other ∧
      ty = reference.typeTo other scope := by
  cases h with
  | kept hp _ => exact ⟨_, _, hp, rfl⟩
  | looped hp _ _ => exact ⟨_, _, hp, rfl⟩

end Registry

namespace Session

variable {first second : Session} {places places' : List Place} {id : String} {ty ty' : Ty}

/-- The type of a name comes from what was in the cache before. -/
theorem Sound.origin_of_get? (h : first.Sound places) (hg : first.get? id = some ty) :
    ∃ front back, first.cache = front ++ (id, ty) :: back ∧
      first.registry.Makes first.keyword
        (first.registry.Answers first.keyword first.recursive front) id ty := by
  obtain ⟨front, back, hc, -⟩ := Table.split_of_get? hg
  exact ⟨front, back, hc, h.origin front id ty back hc⟩

/-- Two sessions agree on a type but for its scopes. -/
theorem Sound.unscoped_eq (hb : first.registry.Built) (hc : first.registry.Consistent)
    (hs : first.Sound places) (hs' : second.Sound places')
    (registry : second.registry = first.registry) (keyword : second.keyword = first.keyword)
    (hg : first.get? id = some ty) (hg' : second.get? id = some ty') :
    ty.unscoped = ty'.unscoped := by
  obtain ⟨front, -, -, made⟩ := hs.origin_of_get? hg
  obtain ⟨front', -, -, made'⟩ := hs'.origin_of_get? hg'
  rw [registry, keyword] at made'
  refine made.related hb hc Ty.unscoped_congruence (fun a b h => Ty.unscoped_withId h id) made' ?_
  intro place place' reference answer answer' _ _ name _ answers answers'
  obtain ⟨other, scope, hp, rfl⟩ := answers.eq_typeTo
  obtain ⟨other', scope', hp', rfl⟩ := answers'.eq_typeTo
  rw [← name, hp] at hp'
  cases hp'
  rw [Schema.Reference.typeTo, Schema.Reference.typeTo, Ty.unscoped_withScope,
    Ty.unscoped_withScope]

/-- Two sessions agree on a type from which no cycle is reached. -/
theorem Sound.eq_of_acyclic (hb : first.registry.Built) (hc : first.registry.Consistent)
    (hs : first.Sound places) (hs' : second.Sound places')
    (registry : second.registry = first.registry) (keyword : second.keyword = first.keyword)
    {front back : Table String Ty} (split : first.cache = front ++ (id, ty) :: back)
    (hg' : second.get? id = some ty') (acyclic : first.registry.Acyclic first.keyword id) :
    ty = ty' := by
  -- The induction is on what was compiled before the name in the first session.
  induction h : front.length using Nat.strongRecOn generalizing id ty ty' front back with
  | ind length ih =>
    obtain ⟨front', back', split', made'⟩ := hs'.origin_of_get? hg'
    rw [registry, keyword] at made'
    refine (hs.origin front id ty back split).related hb hc .eq (fun a b h => h ▸ rfl) made' ?_
    intro place place' reference answer answer' hid hid' name refers answers answers'
    have noLoop : ¬ TransGen (first.registry.Refers first.keyword) id id := acyclic id .refl
    cases answers with
    | looped _ _ cycle => exact absurd (hid ▸ cycle) noLoop
    | @kept other target hp earlier =>
      cases answers' with
      | looped _ _ cycle => exact absurd (hid' ▸ cycle) noLoop
      | @kept other' target' hp' earlier' =>
        rw [← name, hp] at hp'
        cases hp'
        obtain ⟨older, newer, rfl, -⟩ := Table.split_of_get? earlier
        have kept' : second.get? other.id = some target' := by
          rw [Session.get?, split', Table.get?_append, earlier', Option.some_or]
        have shorter : older.length < length := by
          rw [← h, List.length_append, List.length_cons]
          omega
        have before : first.cache = older ++ (other.id, target) :: (newer ++ (id, ty) :: back) := by
          rw [split, List.append_assoc, List.cons_append]
        rw [ih _ shorter before kept' (acyclic.of_refers (refers other hp)) rfl]

/-- Whatever names two sessions have loaded, a name that both have compiled has one type but
for its scopes, and one type if no cycle of references is reached from it. -/
theorem load_order {registry : Registry} (keyword : String) (hb : registry.Built)
    (hs : registry.Separate) (ht : registry.NoTwins) (uris uris' : List String) {id : String}
    {ty ty' : Ty} (hg : ((fresh registry.crawl keyword).loadAll uris).get? id = some ty)
    (hg' : ((fresh registry.crawl keyword).loadAll uris').get? id = some ty') :
    ty.unscoped = ty'.unscoped ∧ (registry.crawl.Acyclic keyword id → ty = ty') := by
  have built := Registry.Built.crawl hb
  have named := Registry.named_crawl registry
  have consistent := Registry.consistent_crawl hb hs ht
  obtain ⟨hreg, hkey, sound⟩ := sound_loadAll keyword built named uris
  obtain ⟨hreg', hkey', sound'⟩ := sound_loadAll keyword built named uris'
  generalize (fresh registry.crawl keyword).loadAll uris = first at *
  generalize (fresh registry.crawl keyword).loadAll uris' = second at *
  rw [← hreg] at built consistent hreg'
  rw [← hkey] at hkey'
  refine ⟨sound.unscoped_eq built consistent sound' hreg' hkey' hg hg', fun acyclic => ?_⟩
  obtain ⟨front, back, split, -⟩ := sound.origin_of_get? hg
  rw [← hreg, ← hkey] at acyclic
  exact sound.eq_of_acyclic built consistent sound' hreg' hkey' split hg' acyclic

/-- The definition in the sample has one type, whether the sample is loaded before or not. -/
theorem sample_load_order :
    ∃ ty ty',
      ((fresh (Registry.register {} "Root" sampleSchema).crawl "mark").loadAll ["Root"]).get?
        "Root#/$defs/T" = some ty ∧
      ((fresh (Registry.register {} "Root" sampleSchema).crawl "mark").loadAll
        ["Root#/$defs/T"]).get? "Root#/$defs/T" = some ty' ∧ ty = ty' := by
  have cached : (((fresh (Registry.register {} "Root" sampleSchema).crawl "mark").loadAll
      ["Root"]).get? "Root#/$defs/T").isSome := by decide +kernel
  have cached' : (((fresh (Registry.register {} "Root" sampleSchema).crawl "mark").loadAll
      ["Root#/$defs/T"]).get? "Root#/$defs/T").isSome := by decide +kernel
  obtain ⟨ty, hg⟩ := Option.isSome_iff_exists.mp cached
  obtain ⟨ty', hg'⟩ := Option.isSome_iff_exists.mp cached'
  have built : (Registry.register {} "Root" sampleSchema).Built := .register _ _ .empty
  have separate : (Registry.register {} "Root" sampleSchema).Separate := by decide +kernel
  have noTwins : (Registry.register {} "Root" sampleSchema).NoTwins := by decide +kernel
  have agree := load_order "mark" built separate noTwins ["Root"] ["Root#/$defs/T"] hg hg'
  -- The definition has no references.
  let place : Place := ⟨⟨sampleSchema, none⟩, "Root", "/$defs/T"⟩
  have found : (Registry.register {} "Root" sampleSchema).crawl.Found place :=
    ⟨"", "Root#/$defs/T", by decide, by rfl⟩
  have stands : (Registry.register {} "Root" sampleSchema).crawl.contentsAt place =
      .ok (.object [("type", .string "string")]) := by cbv
  have acyclic : (Registry.register {} "Root" sampleSchema).crawl.Acyclic "mark" place.id :=
    Registry.acyclic_of_references built.crawl
      (Registry.consistent_crawl built separate noTwins) found stands (by rfl)
  exact ⟨ty, ty', hg, hg', agree.2 acyclic⟩

/-! ## A document with a twin -/

/-- A document that embeds a resource under its own name. -/
def twins : Registry :=
  Registry.register {} "Root" (.object [("$id", .string "b"), ("type", .string "integer"),
    ("$defs", .object [("e", .object [("$id", .string "b"), ("type", .string "string")])])])

/-- The name of a document with a twin means the one or the other. -/
theorem not_load_order :
    ¬ ∀ (registry : Registry) (keyword : String) (uris uris' : List String) (id : String)
        (ty ty' : Ty), registry.Built → registry.Separate →
      (fresh registry.crawl keyword).loadsAll uris = true →
      (fresh registry.crawl keyword).loadsAll uris' = true →
      ((fresh registry.crawl keyword).loadAll uris).get? id = some ty →
      ((fresh registry.crawl keyword).loadAll uris').get? id = some ty' →
      ty.unscoped = ty'.unscoped := by
  intro agree
  have document : ((((fresh twins.crawl "mark").loadAll ["Root"]).get? "b").bind Ty.leaf?) =
      some .integer := by decide +kernel
  have embedded : ((((fresh twins.crawl "mark").loadAll ["b"]).get? "b").bind Ty.leaf?) =
      some .string := by decide +kernel
  obtain ⟨ty, hg, integer⟩ := Option.bind_eq_some_iff.mp document
  obtain ⟨ty', hg', string⟩ := Option.bind_eq_some_iff.mp embedded
  have same := agree twins "mark" ["Root"] ["b"] "b" ty ty' (.register _ _ .empty)
    (by decide +kernel) (by decide +kernel) (by decide +kernel) hg hg'
  rw [← Ty.leaf?_unscoped, same, Ty.leaf?_unscoped, string] at integer
  cases integer

end Session

end SchemaDoc
