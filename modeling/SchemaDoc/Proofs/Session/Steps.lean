import Mathlib.Logic.Function.Iterate
import SchemaDoc.Proofs.Session.Runs

/-!
# Steps of loading

Loading takes a limited number of steps, and the limit is never met, in whatever session it
begins.  A name that is being compiled is not entered again, and each name below the first is
that of a place to which a text of the registry leads from a resource.  There are no more such
places than pairs of a resource and a text, `Registry.length_referenceIds`, and each one that is
entered leaves one less, `Session.spare_visit_lt`.

So what loading gives is what the rules give, `Session.loads_iff`, and it does not matter what
a call beyond the limit would answer, `Session.load_ends`.  What each run keeps holds after
loading some names, `Session.loadAll_induction`.
-/

namespace SchemaDoc

open Session (targetName textsOf)

namespace Registry

/-- The names of all places to which a text of the registry leads from a resource. -/
def referenceIds (registry : Registry) : List String :=
  registry.resources.flatMap fun entry =>
    (textsOf registry).filterMap fun text =>
      (registry.placeOf (entry.2.nameAt entry.1) text).toOption.map Place.id

theorem length_referenceIds (registry : Registry) :
    registry.referenceIds.length + 2 ≤ Session.steps registry := by
  rw [referenceIds, Session.steps, List.length_flatMap]
  have each : ∀ entries : List (String × Resource),
      (entries.map fun entry => ((textsOf registry).filterMap fun text =>
        (registry.placeOf (entry.2.nameAt entry.1) text).toOption.map Place.id).length).sum ≤
      entries.length * (textsOf registry).length := by
    intro entries
    induction entries with
    | nil => simp
    | cons entry rest ih =>
      have one := List.length_filterMap_le (fun text =>
        (registry.placeOf (entry.2.nameAt entry.1) text).toOption.map Place.id) (textsOf registry)
      rw [List.map_cons, List.sum_cons, List.length_cons, Nat.add_mul]
      omega
  have := each registry.resources
  omega

end Registry

namespace Session

/-! ## Names that are left -/

/-- How many of the names to which references may lead are not being compiled. -/
def spare (session : Session) : Nat :=
  (session.registry.referenceIds.filter fun id => decide (id ∉ session.compiling)).length

/-- A text of the registry is read in a resource. -/
def ReadsText (session : Session) (text : String) : Prop :=
  text ∈ textsOf session.registry ∧ ∃ uri resource,
    session.registry.resources.get? uri = some resource ∧ session.base = resource.nameAt uri

variable {session later : Session} {place : Place} {uri text : String}

theorem ReadsText.mem_referenceIds (h : session.ReadsText text)
    (hp : session.registry.placeOf session.base text = .ok place) :
    place.id ∈ session.registry.referenceIds := by
  obtain ⟨ht, uri, resource, hr, hbase⟩ := h
  rw [hbase] at hp
  refine List.mem_flatMap.mpr ⟨_, Table.mem_of_get? hr, List.mem_filterMap.mpr ⟨text, ht, ?_⟩⟩
  rw [hp]
  rfl

theorem spare_add_two_le (session : Session) : session.spare + 2 ≤ steps session.registry := by
  have some := List.length_filter_le (fun id => decide (id ∉ session.compiling))
    session.registry.referenceIds
  have all := Registry.length_referenceIds session.registry
  rw [spare]
  omega

theorem Extends.spare_eq (h : session.Extends later) : later.spare = session.spare := by
  rw [spare, spare, h.registry, h.compiling]

/-- A place that is visited leaves the others. -/
theorem spare_visit (session : Session) (place : Place) :
    (session.visit place).spare =
      ((session.registry.referenceIds.filter fun id => decide (id ∉ session.compiling)).filter
        fun id => decide (id ≠ place.id)).length := by
  rw [List.filter_filter]
  refine congrArg List.length (List.filter_congr fun id _ => ?_)
  change decide (id ∉ place.id :: session.compiling) = _
  simp [List.mem_cons]

theorem spare_visit_le (session : Session) (place : Place) :
    (session.visit place).spare ≤ session.spare := by
  rw [spare_visit]
  exact List.length_filter_le ..

/-- A reference that is entered leaves one name less. -/
theorem spare_visit_lt (h : place.id ∈ session.registry.referenceIds)
    (idle : place.id ∉ session.compiling) : (session.visit place).spare < session.spare := by
  rw [spare_visit, spare, List.length_filter_lt_length_iff_exists]
  exact ⟨place.id, List.mem_filter.mpr ⟨h, by simpa using idle⟩, by simp⟩

/-- The references of a schema that is being compiled are texts of the registry. -/
theorem readsText_of_visit {contents : Json} {reference : Schema.Reference}
    (hp : session.registry.placeOf session.base uri = .ok place)
    (hc : session.registry.contentsAt place = .ok contents)
    (hr : reference ∈ session.referencesOf contents)
    (hl : (session.visit place).Extends later) : later.ReadsText reference.text := by
  have texts := Registry.referenceTexts_contentsAt hp hc
  obtain ⟨resource, name, -⟩ := Registry.placeOf_eq_ok_iff.mp hp
  rw [ReadsText, hl.registry]
  refine ⟨(Schema.ofJson_within contents fun text ht => texts ht).references reference hr,
    _, place.resource, resource, ?_⟩
  rw [base, hl.bases]
  exact name

/-! ## Loading follows the rules -/

theorem referTo_run (next : String → Loading Ty) (reference : Schema.Reference)
    (session : Session) :
    referTo next reference session =
      match next reference.text session with
      | (.ok target, after) =>
        (.ok (after.typeOf reference target), after.countUse (targetName reference.text target))
      | (.error error, after) => (.error error, after) := by
  rw [referTo, Loading.bind_run]
  rcases next reference.text session with ⟨_ | target, after⟩ <;> rfl

/-- Following references follows the rules if loading each of them does. -/
theorem follows_of_loads {next : String → Loading Ty} {references : List Schema.Reference} :
    ∀ session : Session,
      (∀ reference ∈ references, ∀ later, session.Extends later →
        Loads later reference.text (next reference.text later).1 (next reference.text later).2) →
      Follows session references (references.mapM (referTo next) session).1
        (references.mapM (referTo next) session).2 := by
  induction references with
  | nil => exact fun _ _ => .done
  | cons reference rest ih =>
    intro session loads
    have first := loads reference List.mem_cons_self session (.refl _)
    rw [Schema.mapM_cons_run, referTo_run]
    cases hn : next reference.text session with
    | mk result middle =>
      rw [hn] at first
      cases result with
      | error error => exact .stopped first
      | ok target =>
        have onward := first.extends.trans
          (extends_countUse middle (targetName reference.text target))
        have others := ih _ fun reference hr later hl =>
          loads reference (List.mem_cons_of_mem _ hr) later (onward.trans hl)
        dsimp only
        cases hm : rest.mapM (referTo next)
            (middle.countUse (targetName reference.text target)) with
        | mk result after =>
          rw [hm] at others
          cases result with
          | error error => exact .failed first others
          | ok types => exact .next first others

/-- One step of loading, told as the rules tell it. -/
theorem loadWith_run (next : String → Loading Ty) (uri : String) (session : Session) :
    loadWith next uri session =
      match session.registry.placeOf session.base uri with
      | .error error => (.error error, session)
      | .ok place =>
        match session.get? place.id with
        | some ty => (.ok ty, session)
        | none =>
          if place.id ∈ session.compiling then
            (.ok (Ty.any.withId place.id), session.markRecursive place.id)
          else
            match session.registry.contentsAt place with
            | .error error => (.error error, session.beginCount place.id)
            | .ok contents =>
              match (session.referencesOf contents).mapM (referTo next) (session.visit place) with
              | (.error error, after) => (.error error, after.leave place.id)
              | (.ok types, after) =>
                (.ok (session.built place contents types),
                  after.finish place (session.built place contents types)) := by
  rw [loadWith, Loading.bind_run, Loading.get_run]
  dsimp only
  rw [Loading.bind_run, Loading.liftM_run]
  cases session.registry.placeOf session.base uri with
  | error error => rfl
  | ok place =>
    dsimp only
    cases session.get? place.id with
    | some ty => rfl
    | none =>
      simp only [List.contains_iff_mem]
      split
      · rfl
      · rw [Loading.bind_run, Loading.modify_run]
        dsimp only
        rw [Loading.bind_run, Loading.liftM_run]
        cases session.registry.contentsAt place with
        | error error => rfl
        | ok contents =>
          dsimp only
          rw [Loading.bind_run, inside, Schema.compile_run]
          cases hm : (session.referencesOf contents).mapM (referTo next) (session.visit place) with
          | mk result after =>
            rw [referencesOf, visit] at hm
            rw [hm]
            cases result <;> rfl

/-- A step of loading follows the rules if the calls it makes do. -/
theorem loads_loadWith {next : String → Loading Ty}
    (loads : ∀ place, session.registry.placeOf session.base uri = .ok place →
      place.id ∉ session.compiling → ∀ later, (session.visit place).Extends later →
      ∀ text, later.ReadsText text → Loads later text (next text later).1 (next text later).2) :
    Loads session uri (loadWith next uri session).1 (loadWith next uri session).2 := by
  rw [loadWith_run]
  cases hp : session.registry.placeOf session.base uri with
  | error error => exact .lost hp
  | ok place =>
    dsimp only
    cases hg : session.get? place.id with
    | some ty => exact .cached hp hg
    | none =>
      dsimp only
      split
      · rename_i met
        exact .reentered hp hg met
      · rename_i idle
        cases hc : session.registry.contentsAt place with
        | error error => exact .missing hp hg idle hc
        | ok contents =>
          have follows := follows_of_loads (session.visit place) fun reference hr later hl =>
            loads place hp idle later hl reference.text (readsText_of_visit hp hc hr hl)
          dsimp only
          cases hm : (session.referencesOf contents).mapM (referTo next)
              (session.visit place) with
          | mk result after =>
            rw [hm] at follows
            cases result with
            | error error => exact .failed hp hg idle hc follows
            | ok types => exact .compiled hp hg idle hc follows

/-- A text is read by the rules in more steps than there are names left. -/
theorem loads_iterate_text (beyond : String → Loading Ty) :
    ∀ (steps : Nat) (session : Session) (text : String), session.ReadsText text →
      session.spare < steps →
      Loads session text (loadWith^[steps] beyond text session).1
        (loadWith^[steps] beyond text session).2 := by
  intro steps
  induction steps with
  | zero => exact fun _ _ _ room => absurd room (Nat.not_lt_zero _)
  | succ steps ih =>
    intro session text reads room
    rw [Function.iterate_succ_apply']
    refine loads_loadWith fun place hp idle later hl text' reads' => ih later text' reads' ?_
    have less := spare_visit_lt (reads.mem_referenceIds hp) idle
    rw [hl.spare_eq]
    omega

/-- Any name is loaded by the rules in one step more. -/
theorem loads_iterate (beyond : String → Loading Ty) {steps : Nat} (session : Session)
    (uri : String) (room : session.spare + 2 ≤ steps) :
    Loads session uri (loadWith^[steps] beyond uri session).1
      (loadWith^[steps] beyond uri session).2 := by
  obtain ⟨more, rfl⟩ := Nat.exists_eq_add_of_le' room
  rw [← Nat.add_assoc, Function.iterate_succ_apply']
  refine loads_loadWith fun place hp idle later hl text reads => ?_
  have le := spare_visit_le session place
  refine loads_iterate_text beyond _ later text reads ?_
  rw [hl.spare_eq]
  omega

theorem loadWithin_eq (steps : Nat) : loadWithin steps = loadWith^[steps] (loadWithin 0) := by
  induction steps with
  | zero => rfl
  | succ steps ih =>
    rw [Function.iterate_succ_apply', ← ih]
    rfl

/-- Loading a name follows the rules. -/
theorem loads_load (session : Session) (uri : String) :
    Loads session uri (session.load uri).1 (session.load uri).2 := by
  rw [load, loadWithin_eq]
  exact loads_iterate _ session uri (spare_add_two_le session)

end Session

/-! ## The rules tell what loading gives -/

section Rules

open Session (loadWith loadWith_run referTo referTo_run)

/-- What a step gives with enough steps behind it, enough steps give. -/
theorem Session.exists_iterate {session : Session} {uri : String}
    {outcome : Except LoadError Ty × Session} (enough : Nat)
    (h : ∀ steps, enough ≤ steps → ∀ beyond,
      loadWith (loadWith^[steps] beyond) uri session = outcome) :
    ∃ enough, ∀ steps, enough ≤ steps → ∀ beyond,
      loadWith^[steps] beyond uri session = outcome := by
  refine ⟨enough + 1, fun steps room beyond => ?_⟩
  obtain ⟨more, rfl⟩ := Nat.exists_eq_add_of_le' room
  rw [← Nat.add_assoc, Function.iterate_succ_apply']
  exact h _ (Nat.le_add_left ..) beyond

mutual

/-- What the rules give is what all sufficient numbers of steps give. -/
theorem Loads.run {session after : Session} {uri : String} {result : Except LoadError Ty}
    (h : Loads session uri result after) :
    ∃ enough, ∀ steps, enough ≤ steps → ∀ beyond,
      loadWith^[steps] beyond uri session = (result, after) := by
  match h with
  | .lost hp => exact Session.exists_iterate 0 fun _ _ _ => by rw [loadWith_run, hp]
  | .cached hp hg => exact Session.exists_iterate 0 fun _ _ _ => by simp only [loadWith_run, hp, hg]
  | .reentered hp hg met =>
    exact Session.exists_iterate 0 fun _ _ _ => by simp only [loadWith_run, hp, hg, if_pos met]
  | .missing hp hg idle hc =>
    exact Session.exists_iterate 0 fun _ _ _ => by
      simp only [loadWith_run, hp, hg, if_neg idle, hc]
  | .failed hp hg idle hc follows =>
    obtain ⟨enough, run⟩ := follows.run
    exact Session.exists_iterate enough fun steps room _ => by
      simp only [loadWith_run, hp, hg, if_neg idle, hc, run steps room]
  | .compiled hp hg idle hc follows =>
    obtain ⟨enough, run⟩ := follows.run
    exact Session.exists_iterate enough fun steps room _ => by
      simp only [loadWith_run, hp, hg, if_neg idle, hc, run steps room]

theorem Follows.run {session after : Session} {references : List Schema.Reference}
    {result : Except LoadError (List Ty)} (h : Follows session references result after) :
    ∃ enough, ∀ steps, enough ≤ steps → ∀ beyond,
      references.mapM (referTo (loadWith^[steps] beyond)) session = (result, after) := by
  match h with
  | .done => exact ⟨0, fun _ _ _ => rfl⟩
  | .stopped loads =>
    obtain ⟨enough, run⟩ := loads.run
    refine ⟨enough, fun steps room beyond => ?_⟩
    rw [Schema.mapM_cons_run, referTo_run, run steps room]
  | .failed loads follows =>
    obtain ⟨enough, run⟩ := loads.run
    obtain ⟨enough', run'⟩ := follows.run
    refine ⟨max enough enough', fun steps room beyond => ?_⟩
    rw [Schema.mapM_cons_run, referTo_run, run steps (Nat.le_trans (Nat.le_max_left ..) room)]
    dsimp only
    rw [run' steps (Nat.le_trans (Nat.le_max_right ..) room), Schema.finish]
  | .next loads follows =>
    obtain ⟨enough, run⟩ := loads.run
    obtain ⟨enough', run'⟩ := follows.run
    refine ⟨max enough enough', fun steps room beyond => ?_⟩
    rw [Schema.mapM_cons_run, referTo_run, run steps (Nat.le_trans (Nat.le_max_left ..) room)]
    dsimp only
    rw [run' steps (Nat.le_trans (Nat.le_max_right ..) room), Schema.finish]

end

/-- The rules give one result. -/
theorem Loads.unique {session after after' : Session} {uri : String}
    {result result' : Except LoadError Ty} (h : Loads session uri result after)
    (h' : Loads session uri result' after') : (result, after) = (result', after') := by
  obtain ⟨enough, run⟩ := h.run
  obtain ⟨enough', run'⟩ := h'.run
  rw [← run (max enough enough') (Nat.le_max_left ..) (fun _ => throw (.unretrievable uri)),
    run' (max enough enough') (Nat.le_max_right ..)]

end Rules

namespace Session

/-- What loading gives is what the rules give. -/
theorem loads_iff {session after : Session} {uri : String} {result : Except LoadError Ty} :
    Loads session uri result after ↔ session.load uri = (result, after) := by
  constructor
  · exact fun h => (loads_load session uri).unique h
  · intro h
    have loads := loads_load session uri
    rwa [h] at loads

/-- Loading ends, in whatever session and whatever the documents refer to.  It is the recursion
that the rules describe, each call of which loads its references as `load` does, and no call is
nested deeper than the steps allow, since it does not matter what such a call would answer. -/
theorem load_ends (session : Session) (uri : String) :
    (∀ result after, Loads session uri result after ↔ session.load uri = (result, after)) ∧
      session.load uri = loadWith (fun text later => later.load text) uri session ∧
      ∀ (beyond : String → Loading Ty) (more : Nat),
        loadWith^[steps session.registry + more] beyond uri session = session.load uri := by
  refine ⟨fun _ _ => loads_iff, ?_, fun beyond more => ?_⟩
  · exact (loads_load session uri).unique
      (loads_loadWith fun _ _ _ later _ text _ => loads_load later text)
  · have room := Nat.le_add_right_of_le (k := more) (spare_add_two_le session)
    exact (loads_iterate beyond session uri room).unique (loads_load session uri)

/-! ## Loading some names -/

/-- A session at rest: nothing is being compiled. -/
structure Resting (session : Session) : Prop where
  bases : session.bases = []
  compiling : session.compiling = []

theorem Resting.of_extends {session after : Session} (h : session.Resting)
    (he : session.Extends after) : after.Resting :=
  ⟨he.bases.trans h.bases, he.compiling.trans h.compiling⟩

/-- Whether some names load, one after the other. -/
def loadsAll (session : Session) : List String → Bool
  | [] => true
  | uri :: rest => (session.load uri).1.isOk && (session.load uri).2.loadsAll rest

/-- Loading some names, then one, and then more is loading all of them. -/
theorem loadAll_of_load {session loaded : Session} {uris : List String} {uri : String}
    {result : Except LoadError Ty} (h : (session.loadAll uris).load uri = (result, loaded))
    (more : List String) : session.loadAll (uris ++ uri :: more) = loaded.loadAll more := by
  rw [loadAll, List.foldl_append, List.foldl_cons]
  change ((session.loadAll uris).load uri).2.loadAll more = _
  rw [h]

/-- What holds of a session at rest and is kept by each run holds after loading some
names. -/
theorem loadAll_induction {P : Session → Prop}
    (step : ∀ session uri result after, session.Resting → P session →
      Loads session uri result after → P after) :
    ∀ (uris : List String) (session : Session), session.Resting → P session →
      P (session.loadAll uris) ∧ (session.loadAll uris).Resting := by
  intro uris
  induction uris with
  | nil => exact fun session rest h => ⟨h, rest⟩
  | cons uri others ih =>
    intro session rest h
    have run := loads_load session uri
    exact ih _ (rest.of_extends run.extends) (step _ _ _ _ rest h run)

theorem resting_loadAll {session : Session} (uris : List String) (rest : session.Resting) :
    (session.loadAll uris).Resting :=
  (loadAll_induction (P := fun _ => True) (fun _ _ _ _ _ _ _ => trivial) uris session rest
    trivial).2

end Session

end SchemaDoc
