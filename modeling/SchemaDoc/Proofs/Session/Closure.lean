import SchemaDoc.Proofs.Registry.Addressed
import SchemaDoc.Proofs.Session.Origins

/-!
# The cache is closed under references

While a name is compiled its references may lead to names that are still being compiled.  If
loading succeeds all of them are kept in the end.  So what was added to the cache refers to
names that are known, `Loads.closes`, and after loads that all succeed the cache is closed
under references.

A name in the cache is moreover the name by which its type is found again,
`Session.cache_closed`: the name of a resource leads to a resource of that name, and no
document that has a name makes one known that has none.
-/

namespace SchemaDoc

/-! ## Names that are known -/

namespace Registry

/-- A reference of the schema at a place leads to a place whose name is known. -/
def Resolves (registry : Registry) (known : String → Prop) (place : Place)
    (reference : Schema.Reference) (ty : Ty) : Prop :=
  ∃ other scope, registry.placeOf place.name reference.text = .ok other ∧
    ty = reference.typeTo other scope ∧ known other.id

end Registry

namespace Session

/-- A name is compiled or is being compiled. -/
def Knows (session : Session) (id : String) : Prop :=
  (session.get? id).isSome ∨ id ∈ session.compiling

/-- A type is built from a schema whose references all lead to names that are known. -/
def Closed (session : Session) (id : String) (ty : Ty) : Prop :=
  session.registry.Makes session.keyword (session.registry.Resolves session.Knows) id ty

variable {session after : Session} {place : Place}

theorem Knows.of_extends {id : String} (h : session.Knows id) (same : session.Extends after) :
    after.Knows id := by
  rcases h with cached | compiling
  · exact .inl (same.isSome_get? cached)
  · exact .inr (by rw [same.compiling]; exact compiling)

/-- What is known while a place is visited is known when it is done. -/
theorem Knows.finish {id : String} (h : after.Knows id) (ty : Ty) :
    (after.finish place ty).Knows id := by
  unfold Knows Session.finish keep Session.get?
  dsimp only
  rw [Table.get?_put]
  by_cases hid : place.id = id
  · exact .inl (by rw [if_pos hid]; rfl)
  · rw [if_neg hid]
    exact h.imp_right fun compiling => (List.mem_erase_of_ne (Ne.symm hid)).mpr compiling

theorem Resolves.imp {registry : Registry} {known known' : String → Prop} {place : Place}
    {reference : Schema.Reference} {ty : Ty} (h : registry.Resolves known place reference ty)
    (himp : ∀ id, known id → known' id) : registry.Resolves known' place reference ty := by
  obtain ⟨other, scope, hp, hty, known⟩ := h
  exact ⟨other, scope, hp, hty, himp _ known⟩

theorem Closed.of_extends {id : String} {ty : Ty} (h : session.Closed id ty)
    (same : session.Extends after) : after.Closed id ty := by
  rw [Closed, same.registry, same.keyword]
  exact h.imp fun _ _ _ resolves => Resolves.imp resolves fun _ known => known.of_extends same

theorem Closed.finish {id : String} {ty : Ty} (h : after.Closed id ty) (own : Ty) :
    (after.finish place own).Closed id ty :=
  Registry.Makes.imp h fun _ _ _ resolves => Resolves.imp resolves fun _ known => known.finish own

/-- A reference that was followed leads to a name that is known. -/
theorem Sound.resolves {places : List Place} {reference : Schema.Reference} {target : Ty}
    (hb : session.registry.Built) (hn : session.registry.Named)
    (hs : session.Sound (place :: places)) (hr : session.Reads (place :: places) reference.text)
    (loads : Loads session reference.text (.ok target) after)
    (h : after.Sound (place :: places)) :
    after.registry.Resolves after.Knows place reference (after.typeOf reference target) := by
  obtain ⟨other, hp, known⟩ := loads.target
  have known : after.Knows other.id := known.imp (fun hg => by rw [hg]; rfl) fun met => met.1
  rw [hs.base, ← loads.extends.registry] at hp
  have answer := hs.answers hb hn hr loads h
  generalize after.typeOf reference target = answered at answer ⊢
  cases answer with
  | kept hp' hg => exact ⟨_, _, hp', rfl, .inl (by rw [Session.get?, hg]; rfl)⟩
  | looped hp' _ _ =>
    rw [hp] at hp'
    cases hp'
    exact ⟨_, _, hp, rfl, known⟩

end Session

/-! ## Runs that succeed -/

mutual

/-- What is added to the cache by loading a name refers to names that are known, if the name
loads. -/
theorem Loads.closes {session after : Session} {uri : String} {result : Except LoadError Ty}
    {places : List Place} (h : Loads session uri result after) (hb : session.registry.Built)
    (hn : session.registry.Named) (hs : session.Sound places) (hr : session.Reads places uri)
    {ty : Ty} (ok : result = .ok ty) :
    ∀ id kept, after.get? id = some kept → session.get? id = some kept ∨ after.Closed id kept := by
  match h with
  | .lost _ => cases ok
  | .missing _ _ _ _ => cases ok
  | .failed _ _ _ _ _ => cases ok
  | .cached _ _ => exact fun _ _ hg => .inl hg
  | .reentered _ _ _ => exact fun _ _ hg => .inl hg
  | @Loads.compiled _ inner _ place contents types hp new idle hc follows =>
    have found := hs.found_placeOf hb hp
    have same := follows.extends
    obtain ⟨closed, resolved⟩ :=
      follows.closes ⟨hb, hn, hc, List.Subset.refl _⟩ (hs.visit hb hp hr new) rfl
    have own : inner.Closed place.id (session.built place contents types) := by
      rw [same.registry] at resolved
      rw [Session.Closed, same.registry, same.keyword]
      exact ⟨place, contents, types, found, rfl, hc, rfl, resolved⟩
    intro id kept hg
    rw [Session.get?, Session.finish, Session.keep, Table.get?_put] at hg
    split at hg
    · rename_i hid
      subst hid
      cases hg
      exact .inr (own.finish _)
    · exact (closed id kept hg).imp_right fun closed => closed.finish _

/-- What is added to the cache by following references refers to names that are known, and
so do the references, if none of them fails. -/
theorem Follows.closes {session after : Session} {references : List Schema.Reference}
    {result : Except LoadError (List Ty)} {place : Place} {places : List Place} {contents : Json}
    (h : Follows session references result after)
    (hp : session.Pending place contents references) (hs : session.Sound (place :: places))
    {types : List Ty} (ok : result = .ok types) :
    (∀ id kept, after.get? id = some kept → session.get? id = some kept ∨ after.Closed id kept) ∧
      List.Forall₂ (after.registry.Resolves after.Knows place) references types := by
  match h with
  | .stopped _ => cases ok
  | .failed _ _ => cases ok
  | .done =>
    cases ok
    exact ⟨fun _ _ hg => .inl hg, .nil⟩
  | .next loads follows =>
    cases ok
    have reads := hs.reads hp.stands (hp.within List.mem_cons_self)
    have middle := loads.sound hp.built hp.named hs reads
    have first := loads.closes hp.built hp.named hs reads rfl
    have counted := fun id => hp.later (loads.extends.trans (Session.extends_countUse _ id))
    obtain ⟨closed, resolved⟩ := follows.closes (counted _) (middle.countUse _) rfl
    have later := (Session.extends_countUse _ _).trans follows.extends
    refine ⟨fun id kept hg => ?_, .cons ?_ resolved⟩
    · rcases closed id kept hg with hg | closed
      · exact (first id kept hg).imp_right fun closed => closed.of_extends later
      · exact .inr closed
    · have resolves := hs.resolves hp.built hp.named reads loads middle
      rw [later.registry]
      exact Session.Resolves.imp resolves fun _ known => known.of_extends later

end

namespace Session

/-! ## Loads that all succeed -/

/-- After loads that all succeed every type in the cache refers to names in the cache. -/
theorem closed_loadAll {uris : List String} :
    ∀ {session : Session}, session.registry.Built → session.registry.Named →
      session.Resting → session.Sound [] →
      (∀ id ty, session.get? id = some ty → session.Closed id ty) →
      session.loadsAll uris = true →
      ∀ id ty, (session.loadAll uris).get? id = some ty → (session.loadAll uris).Closed id ty := by
  induction uris with
  | nil => exact fun _ _ _ _ closed _ => closed
  | cons uri others ih =>
    intro session hb hn rest sound closed ok
    rw [loadsAll, Bool.and_eq_true] at ok
    obtain ⟨first, later⟩ := ok
    have run := loads_load session uri
    have same := run.extends
    have succeeds : ∃ ty, (session.load uri).1 = .ok ty := by
      cases h : (session.load uri).1 with
      | error error =>
        rw [h] at first
        cases first
      | ok ty => exact ⟨ty, rfl⟩
    obtain ⟨ty, hty⟩ := succeeds
    refine ih (same.registry ▸ hb) (same.registry ▸ hn) (rest.of_extends same)
      (run.sound hb hn sound nofun) (fun id kept hg => ?_) later
    rcases run.closes hb hn sound nofun hty id kept hg with old | new
    · exact (closed id kept old).of_extends same
    · exact new

/-- Loading a name that leads to a type in the cache gives that type and changes nothing. -/
theorem load_of_get? {session : Session} {uri : String} {place : Place} {ty : Ty}
    (hp : session.registry.placeOf session.base uri = .ok place)
    (hg : session.get? place.id = some ty) : session.load uri = (.ok ty, session) := by
  rw [load, steps, loadWithin, loadWith_run, hp]
  dsimp only
  rw [hg]

/-- The references of a type whose references are known lead to types in the cache, if
nothing is being compiled and no place is without a name. -/
theorem Closed.targets {session : Session} {id : String} {ty : Ty} (h : session.Closed id ty)
    (hb : session.registry.Built) (rest : session.Resting)
    (given : ∀ place, session.registry.Found place → place.name ≠ "") :
    ∀ target ∈ ty.targets, (session.get? target).isSome := by
  intro target ht
  obtain ⟨place, contents, types, found, -, -, rfl, resolved⟩ := h
  rw [Ty.targets_withId] at ht
  obtain ⟨answer, hm, ht⟩ := Schema.mem_targets_build ht
  obtain ⟨reference, -, other, scope, hp, rfl, known⟩ := exists_of_forall₂_right resolved hm
  have named : other.id ≠ "" := fun empty =>
    given other ⟨_, _, found.numberSign_name hb, hp⟩ (Place.id_eq_empty empty).1
  rw [Schema.Reference.mem_targets_typeTo, if_neg named] at ht
  rw [ht]
  refine known.resolve_right fun met => ?_
  rw [rest.compiling] at met
  cases met

/-- The name of such a type leads back to it, if the name of each resource does. -/
theorem Closed.load_id {session : Session} {id : String} {ty : Ty} (h : session.Closed id ty)
    (hb : session.registry.Built) (rest : session.Resting)
    (given : ∀ place, session.registry.Found place → place.name ≠ "")
    (settled : ∀ uri resource, session.registry.resources.get? uri = some resource →
      ∃ named, session.registry.resources.get? (resource.nameAt uri) = some named ∧
        named.nameAt (resource.nameAt uri) = resource.nameAt uri)
    (hg : session.get? id = some ty) : session.load id = (.ok ty, session) := by
  obtain ⟨place, -, -, found, rfl, -⟩ := h
  obtain ⟨back, hp, hid⟩ := found.placeOf_id hb settled (given place found)
  have outside : session.base = "" := by rw [base, rest.bases, List.headD_nil]
  exact load_of_get? (by rw [outside]; exact hp) (by rw [hid]; exact hg)

/-- After loads that all succeed each type in the cache goes by its name, loading that name
gives the type and changes nothing, and all references in it lead to types in the cache. -/
theorem cache_closed {registry : Registry} (keyword : String) (hb : registry.Built)
    (ha : registry.Addressed) (hs : registry.Separate) (uris : List String)
    (ok : (fresh registry.crawl keyword).loadsAll uris = true) {id : String} {ty : Ty}
    (hg : ((fresh registry.crawl keyword).loadAll uris).get? id = some ty) :
    ty.id = id ∧
      ((fresh registry.crawl keyword).loadAll uris).load id =
        (.ok ty, (fresh registry.crawl keyword).loadAll uris) ∧
      ∀ target ∈ ty.targets,
        (((fresh registry.crawl keyword).loadAll uris).get? target).isSome := by
  have built := Registry.Built.crawl hb
  have closed : ((fresh registry.crawl keyword).loadAll uris).Closed id ty :=
    closed_loadAll built (Registry.named_crawl registry) (fresh_resting _ keyword)
      (fresh_sound _ keyword) nofun ok id ty hg
  have rest := resting_loadAll uris (fresh_resting registry.crawl keyword)
  have hreg := (sound_loadAll keyword built (Registry.named_crawl registry) uris).1
  generalize (fresh registry.crawl keyword).loadAll uris = session at *
  have given (place : Place) (h : session.registry.Found place) : place.name ≠ "" :=
    Registry.Found.name_ne_empty hb ha (hreg ▸ h)
  refine ⟨closed.id, ?_, closed.targets (hreg ▸ built) rest given⟩
  refine closed.load_id (hreg ▸ built) rest given (fun uri resource hr => ?_) hg
  rw [hreg] at hr ⊢
  exact Registry.exists_nameAt hb hs hr

/-- The sample refers to itself, and to a definition twice. -/
theorem sample_cache_closed :
    ∃ ty, ((fresh (Registry.register {} "Root" sampleSchema).crawl "mark").loadAll
        ["Root"]).load "Root" =
      (.ok ty, (fresh (Registry.register {} "Root" sampleSchema).crawl "mark").loadAll ["Root"]) ∧
      ∀ target ∈ ty.targets, (((fresh (Registry.register {} "Root" sampleSchema).crawl
        "mark").loadAll ["Root"]).get? target).isSome := by
  have cached : (((fresh (Registry.register {} "Root" sampleSchema).crawl "mark").loadAll
      ["Root"]).get? "Root").isSome := by decide +kernel
  obtain ⟨ty, hg⟩ := Option.isSome_iff_exists.mp cached
  have closed := cache_closed "mark" (.register "Root" sampleSchema .empty) (by decide +kernel)
    (by decide +kernel) ["Root"] (by decide +kernel) hg
  exact ⟨ty, closed.2⟩

end Session

end SchemaDoc
