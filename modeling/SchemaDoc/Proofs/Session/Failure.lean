import SchemaDoc.Proofs.Session.Closure

/-!
# Names that do not load

A name does not load if a chain of references leads from it to one that leads nowhere.  What
is in the cache is taken from there, so the chain must not pass through a name in the cache:
`Registry.Fails`, and `Session.isOk_load_iff` says that nothing else fails.

A load that fails keeps what it has compiled before.  Among that may be a type whose
references lead to a name that was being compiled, and so was never kept.  That type is found
in the cache from then on, while a session that has loaded nothing fails to compile it,
`Session.load_after_failure` and `Session.broken_load_after_failure`.  After loads that all
succeed there is no such type.
-/

namespace SchemaDoc

namespace Registry

/-- A chain of references leads from a name to one that leads nowhere, and passes through no
name that is known. -/
inductive Fails (registry : Registry) (keyword : String) (known : String → Prop) :
    String → String → Prop where
  | lost {base uri : String} {error : LoadError} :
      registry.placeOf base uri = .error error →
      Fails registry keyword known base uri
  | missing {base uri : String} {place : Place} {error : LoadError} :
      registry.placeOf base uri = .ok place →
      ¬ known place.id →
      registry.contentsAt place = .error error →
      Fails registry keyword known base uri
  | through {base uri : String} {place : Place} {contents : Json}
      {reference : Schema.Reference} :
      registry.placeOf base uri = .ok place →
      ¬ known place.id →
      registry.contentsAt place = .ok contents →
      reference ∈ (Schema.ofJson keyword contents).references →
      Fails registry keyword known place.name reference.text →
      Fails registry keyword known base uri

variable {registry : Registry} {keyword : String} {known known' : String → Prop}

/-- The less is known, the more fails. -/
theorem Fails.anti {base uri : String} (h : registry.Fails keyword known base uri)
    (himp : ∀ id, known' id → known id) : registry.Fails keyword known' base uri := by
  induction h with
  | lost hp => exact .lost hp
  | missing hp new hc => exact .missing hp (fun h => new (himp _ h)) hc
  | through hp new hc hr _ ih => exact .through hp (fun h => new (himp _ h)) hc hr ih

end Registry

/-! ## What fails -/

mutual

/-- A name that does not load fails, if what is known is in the cache. -/
theorem Loads.fails {session after : Session} {uri : String} {result : Except LoadError Ty}
    (h : Loads session uri result after) {known : String → Prop}
    (cached : ∀ id, known id → (session.get? id).isSome) {error : LoadError}
    (failed : result = .error error) :
    session.registry.Fails session.keyword known session.base uri := by
  have unknown {id : String} (new : session.get? id = none) : ¬ known id := by
    intro h
    have kept := cached id h
    rw [new] at kept
    cases kept
  match h with
  | .cached _ _ => cases failed
  | .reentered _ _ _ => cases failed
  | .compiled _ _ _ _ _ => cases failed
  | .lost hp => exact .lost hp
  | .missing hp new _ hc => exact .missing hp (unknown new) hc
  | .failed hp new _ hc follows =>
    obtain ⟨reference, hr, fails⟩ := follows.fails cached rfl
    exact .through hp (unknown new) hc hr fails

/-- If following some references does not succeed, one of them fails. -/
theorem Follows.fails {session after : Session} {references : List Schema.Reference}
    {result : Except LoadError (List Ty)} (h : Follows session references result after)
    {known : String → Prop} (cached : ∀ id, known id → (session.get? id).isSome)
    {error : LoadError} (failed : result = .error error) :
    ∃ reference ∈ references,
      session.registry.Fails session.keyword known session.base reference.text := by
  match h with
  | .done => cases failed
  | .next _ _ => cases failed
  | .stopped loads => exact ⟨_, List.mem_cons_self, loads.fails cached rfl⟩
  | .failed loads follows =>
    have same := fun id => loads.extends.trans (Session.extends_countUse _ id)
    obtain ⟨reference, hr, fails⟩ :=
      follows.fails (fun id h => (same _).isSome_get? (cached id h)) rfl
    rw [(same _).registry, (same _).keyword, Session.base, (same _).bases] at fails
    exact ⟨reference, List.mem_cons_of_mem _ hr, fails⟩

end

namespace Session

/-! ## What does not fail -/

/-- The references of the schema at a place whose type is closed lead to names that are
known. -/
theorem Closed.resolves {session : Session} {place : Place} {ty : Ty}
    (h : session.Closed place.id ty) (hb : session.registry.Built)
    (hc : session.registry.Consistent) (found : session.registry.Found place) :
    ∃ contents, session.registry.contentsAt place = .ok contents ∧
      ∀ reference ∈ (Schema.ofJson session.keyword contents).references,
        ∃ other, session.registry.placeOf place.name reference.text = .ok other ∧
          session.Knows other.id := by
  obtain ⟨own, contents, types, found', hid, stands, -, resolved⟩ := h
  rw [found'.contentsAt_eq hb hc found hid] at stands
  obtain ⟨name, -⟩ := found'.eq_of_id hb found hid
  refine ⟨contents, stands, fun reference hr => ?_⟩
  obtain ⟨-, -, other, -, hp, -, known⟩ := exists_of_forall₂_right resolved.flip hr
  exact ⟨other, by rw [← name]; exact hp, known⟩

/-- A name that fails leads to nothing in the cache, if all that is in the cache and not known
refers to names in the cache. -/
theorem get?_of_fails {session : Session} {known : String → Prop}
    (hb : session.registry.Built) (hc : session.registry.Consistent) (rest : session.Resting)
    (closed : ∀ id ty, session.get? id = some ty → known id ∨ session.Closed id ty)
    {base uri : String} (h : session.registry.Fails session.keyword known base uri) :
    '#' ∉ base.toList →
      ∀ place, session.registry.placeOf base uri = .ok place → session.get? place.id = none := by
  have made {base uri : String} {place : Place} (hbase : '#' ∉ base.toList)
      (hp : session.registry.placeOf base uri = .ok place) (new : ¬ known place.id)
      (cached : session.get? place.id ≠ none) :=
    have kept := (Option.ne_none_iff_exists'.mp cached).choose_spec
    ((closed _ _ kept).resolve_left new).resolves hb hc ⟨base, uri, hbase, hp⟩
  induction h with
  | lost hp =>
    intro _ place hp'
    rw [hp] at hp'
    cases hp'
  | missing hp new stands =>
    intro hbase place hp'
    rw [hp] at hp'
    cases hp'
    by_contra cached
    obtain ⟨contents, stands', -⟩ := made hbase hp new cached
    rw [stands] at stands'
    cases stands'
  | through hp new stands hr _ ih =>
    intro hbase place hp'
    rw [hp] at hp'
    cases hp'
    by_contra cached
    obtain ⟨contents, stands', resolves⟩ := made hbase hp new cached
    rw [stands] at stands'
    cases stands'
    obtain ⟨other, hother, known⟩ := resolves _ hr
    have name := Registry.Found.numberSign_name hb ⟨_, _, hbase, hp⟩
    rcases known with known | met
    · rw [ih name other hother] at known
      cases known
    · rw [rest.compiling] at met
      cases met

/-- A name loads in a session at rest if and only if it does not fail. -/
theorem isOk_load_iff {session : Session} {known : String → Prop}
    (hb : session.registry.Built) (hn : session.registry.Named)
    (hc : session.registry.Consistent) (rest : session.Resting) (sound : session.Sound [])
    (cached : ∀ id, known id → (session.get? id).isSome)
    (closed : ∀ id ty, session.get? id = some ty → known id ∨ session.Closed id ty)
    (uri : String) :
    (session.load uri).1.isOk = true ↔ ¬ session.registry.Fails session.keyword known "" uri := by
  have run := loads_load session uri
  have same := run.extends
  have outside : session.base = "" := by rw [base, rest.bases, List.headD_nil]
  cases hr : (session.load uri).1 with
  | error error =>
    have fails := run.fails cached hr
    rw [outside] at fails
    exact iff_of_false (by simp [Except.isOk, Except.toBool]) (fun h => h fails)
  | ok ty =>
    refine iff_of_true rfl fun fails => ?_
    rw [hr] at run
    obtain ⟨place, hp, found⟩ := run.target
    have kept : (session.load uri).2.get? place.id = some ty := by
      refine found.resolve_right fun met => ?_
      rw [same.compiling, rest.compiling] at met
      cases met.1
    -- What the load has added is closed, and so is what was not known.
    have all (id : String) (kept : Ty) (hg : (session.load uri).2.get? id = some kept) :
        known id ∨ (session.load uri).2.Closed id kept := by
      rcases run.closes hb hn sound nofun rfl id kept hg with old | new
      · exact (closed id kept old).imp_right fun closed => closed.of_extends same
      · exact .inr new
    rw [outside] at hp
    rw [← same.registry, ← same.keyword] at fails
    have absent := get?_of_fails (same.registry ▸ hb) (same.registry ▸ hc)
      (rest.of_extends same) all fails (by decide) place (by rw [same.registry]; exact hp)
    rw [absent] at kept
    cases kept

/-- When a name loads in a session that has loaded others, whether they loaded or not, and
when it loads in a session that has loaded nothing.  The answers differ if the name fails, but
each chain of references that shows it passes through a name in the cache.  They do not differ
after loads that all succeed. -/
theorem load_after_failure {registry : Registry} (keyword : String) (hb : registry.Built)
    (hs : registry.Separate) (ht : registry.NoTwins) (uris : List String) (uri : String) :
    ((((fresh registry.crawl keyword).loadAll uris).load uri).1.isOk = true ↔
        ¬ registry.crawl.Fails keyword
          (fun id => (((fresh registry.crawl keyword).loadAll uris).get? id).isSome) "" uri) ∧
      (((fresh registry.crawl keyword).load uri).1.isOk = true ↔
        ¬ registry.crawl.Fails keyword (fun _ => False) "" uri) ∧
      ((((fresh registry.crawl keyword).loadAll uris).load uri).1.isOk =
          ((fresh registry.crawl keyword).load uri).1.isOk ↔
        (registry.crawl.Fails keyword (fun _ => False) "" uri →
          registry.crawl.Fails keyword
            (fun id => (((fresh registry.crawl keyword).loadAll uris).get? id).isSome) "" uri)) ∧
      ((fresh registry.crawl keyword).loadsAll uris = true →
        (((fresh registry.crawl keyword).loadAll uris).load uri).1.isOk =
          ((fresh registry.crawl keyword).load uri).1.isOk) := by
  have built := Registry.Built.crawl hb
  have named := Registry.named_crawl registry
  have consistent := Registry.consistent_crawl hb hs ht
  have start := fresh_sound registry.crawl keyword
  have calm := fresh_resting registry.crawl keyword
  have first : ((fresh registry.crawl keyword).load uri).1.isOk = true ↔
      ¬ registry.crawl.Fails keyword (fun _ => False) "" uri :=
    isOk_load_iff built named consistent calm start nofun nofun uri
  have closed (ok : (fresh registry.crawl keyword).loadsAll uris = true) (id : String) (ty : Ty)
      (hg : ((fresh registry.crawl keyword).loadAll uris).get? id = some ty) :
      ((fresh registry.crawl keyword).loadAll uris).Closed id ty :=
    closed_loadAll built named calm start nofun ok id ty hg
  have rest := resting_loadAll uris calm
  obtain ⟨hreg, hkey, sound⟩ := sound_loadAll keyword built named uris
  generalize (fresh registry.crawl keyword).loadAll uris = session at *
  have later (known : String → Prop) (cached : ∀ id, known id → (session.get? id).isSome)
      (closed : ∀ id ty, session.get? id = some ty → known id ∨ session.Closed id ty) :
      (session.load uri).1.isOk = true ↔ ¬ registry.crawl.Fails keyword known "" uri := by
    have loads := isOk_load_iff (hreg ▸ built) (hreg ▸ named) (hreg ▸ consistent) rest sound
      cached closed uri
    rwa [hreg, hkey] at loads
  have own := later (fun id => (session.get? id).isSome) (fun _ h => h)
    fun id ty hg => .inl (by rw [hg]; rfl)
  refine ⟨own, first, ?_, fun ok => ?_⟩
  · rw [Bool.eq_iff_iff, own, first, not_iff_not]
    exact ⟨fun same => same.mpr, fun poisoned => ⟨fun fails => fails.anti nofun, poisoned⟩⟩
  · have alike := later (fun _ => False) nofun fun id ty hg => .inr (closed ok id ty hg)
    rw [Bool.eq_iff_iff, alike, first]

/-- An object type with a definition that refers back to it, and then with a reference that
leads nowhere. -/
def broken : Registry :=
  Registry.register {} "Root" (.object [("type", .string "object"),
    ("properties", .object [
      ("a", .object [("$ref", .string "#/$defs/A")]),
      ("z", .object [("$ref", .string "Missing")])]),
    ("$defs", .object [("A", .object [("type", .string "object"),
      ("properties", .object [("back", .object [("$ref", .string "#")])])])])])

/-- After the object type has failed to load its definition loads, which it does not
otherwise.  The definition is in the cache, the object type is not. -/
theorem broken_load_after_failure :
    (((fresh broken.crawl "mark").loadAll ["Root"]).load "Root#/$defs/A").1.isOk = true ∧
      ((fresh broken.crawl "mark").load "Root#/$defs/A").1.isOk = false ∧
      broken.crawl.Fails "mark" (fun _ => False) "" "Root#/$defs/A" ∧
      ¬ broken.crawl.Fails "mark"
        (fun id => (((fresh broken.crawl "mark").loadAll ["Root"]).get? id).isSome) ""
        "Root#/$defs/A" := by
  have loads : (((fresh broken.crawl "mark").loadAll ["Root"]).load "Root#/$defs/A").1.isOk =
      true := by decide +kernel
  have fails : ((fresh broken.crawl "mark").load "Root#/$defs/A").1.isOk = false := by
    decide +kernel
  have built : broken.Built := .register _ _ .empty
  obtain ⟨later, first, -⟩ := load_after_failure "mark" built (by decide +kernel)
    (by decide +kernel) ["Root"] "Root#/$defs/A"
  refine ⟨loads, fails, ?_, later.mp loads⟩
  by_contra known
  rw [← first, fails] at known
  cases known

end Session

end SchemaDoc
