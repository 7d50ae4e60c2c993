import SchemaDoc.Proofs.Schema.Texts

/-!
# Runs of a session

What loading a name does to a session is told by rules that count no steps: `Loads` for a
name and `Follows` for the references of a schema, one after the other.  Six things may come
of a name.  Its document is not registered, it is compiled already, it is being compiled,
nothing stands there, a reference in its schema fails, or it is compiled and kept.

`Loads.extends` says what every run leaves as it is.  A session is back where it was, with
some more types at the end of its cache, none of which was there before or was being
compiled.  That loading follows the rules is a matter of the steps it may take, see
`SchemaDoc.Proofs.Session.Steps`.
-/

namespace SchemaDoc

open Session (targetName)

/-! ## The rules -/

namespace Session

/-- A session that begins to compile the schema at a place. -/
def visit (session : Session) (place : Place) : Session :=
  (session.beginCount place.id).enter place.id place.name

/-- A session that has compiled the schema at a place. -/
def finish (session : Session) (place : Place) (ty : Ty) : Session :=
  (session.leave place.id).keep place.id ty

/-- Visiting a place changes no count. -/
theorem useCount_visit (session : Session) (place : Place) (name : String) :
    (session.visit place).useCount name = session.useCount name := useCount_beginCount ..

/-- The references of a value, read as a schema. -/
def referencesOf (session : Session) (contents : Json) : List Schema.Reference :=
  (Schema.ofJson session.keyword contents).references

/-- The type of the schema at a place, whose references are answered by some types. -/
def built (session : Session) (place : Place) (contents : Json) (types : List Ty) : Ty :=
  ((Schema.ofJson session.keyword contents).build types).withId place.id

end Session

mutual

/-- Loading a name in a session gives a result and leaves a session. -/
inductive Loads : Session → String → Except LoadError Ty → Session → Prop where
  | lost {session : Session} {uri : String} {error : LoadError} :
      session.registry.placeOf session.base uri = .error error →
      Loads session uri (.error error) session
  | cached {session : Session} {uri : String} {place : Place} {ty : Ty} :
      session.registry.placeOf session.base uri = .ok place →
      session.get? place.id = some ty →
      Loads session uri (.ok ty) session
  | reentered {session : Session} {uri : String} {place : Place} :
      session.registry.placeOf session.base uri = .ok place →
      session.get? place.id = none →
      place.id ∈ session.compiling →
      Loads session uri (.ok (Ty.any.withId place.id)) (session.markRecursive place.id)
  | missing {session : Session} {uri : String} {place : Place} {error : LoadError} :
      session.registry.placeOf session.base uri = .ok place →
      session.get? place.id = none →
      place.id ∉ session.compiling →
      session.registry.contentsAt place = .error error →
      Loads session uri (.error error) (session.beginCount place.id)
  | failed {session after : Session} {uri : String} {place : Place} {contents : Json}
      {error : LoadError} :
      session.registry.placeOf session.base uri = .ok place →
      session.get? place.id = none →
      place.id ∉ session.compiling →
      session.registry.contentsAt place = .ok contents →
      Follows (session.visit place) (session.referencesOf contents) (.error error) after →
      Loads session uri (.error error) (after.leave place.id)
  | compiled {session after : Session} {uri : String} {place : Place} {contents : Json}
      {types : List Ty} :
      session.registry.placeOf session.base uri = .ok place →
      session.get? place.id = none →
      place.id ∉ session.compiling →
      session.registry.contentsAt place = .ok contents →
      Follows (session.visit place) (session.referencesOf contents) (.ok types) after →
      Loads session uri (.ok (session.built place contents types))
        (after.finish place (session.built place contents types))

/-- Following some references in a session gives their types, or an error, and leaves a
session. -/
inductive Follows :
    Session → List Schema.Reference → Except LoadError (List Ty) → Session → Prop where
  | done {session : Session} : Follows session [] (.ok []) session
  | stopped {session after : Session} {reference : Schema.Reference}
      {rest : List Schema.Reference} {error : LoadError} :
      Loads session reference.text (.error error) after →
      Follows session (reference :: rest) (.error error) after
  | failed {session middle after : Session} {reference : Schema.Reference}
      {rest : List Schema.Reference} {target : Ty} {error : LoadError} :
      Loads session reference.text (.ok target) middle →
      Follows (middle.countUse (targetName reference.text target)) rest (.error error) after →
      Follows session (reference :: rest) (.error error) after
  | next {session middle after : Session} {reference : Schema.Reference}
      {rest : List Schema.Reference} {target : Ty} {types : List Ty} :
      Loads session reference.text (.ok target) middle →
      Follows (middle.countUse (targetName reference.text target)) rest (.ok types) after →
      Follows session (reference :: rest) (.ok (middle.typeOf reference target :: types)) after

end

/-! ## What every run leaves as it is -/

/-- A session is where another was, and has only counted, marked and compiled more names. -/
structure Session.Extends (before after : Session) : Prop where
  registry : after.registry = before.registry
  keyword : after.keyword = before.keyword
  bases : after.bases = before.bases
  compiling : after.compiling = before.compiling
  uses : ∀ id, before.useCount id ≤ after.useCount id
  recursive : before.recursive ⊆ after.recursive
  cache : ∃ added : Table String Ty, after.cache = before.cache ++ added ∧
    ∀ entry ∈ added, before.get? entry.1 = none ∧ entry.1 ∉ before.compiling

namespace Session

theorem Extends.refl (session : Session) : session.Extends session :=
  ⟨rfl, rfl, rfl, rfl, fun _ => Nat.le_refl _, List.Subset.refl _, [], by simp, by simp⟩

theorem Extends.get? {before after : Session} (h : before.Extends after) {id : String} {ty : Ty}
    (hg : before.get? id = some ty) : after.get? id = some ty := by
  obtain ⟨added, hc, -⟩ := h.cache
  rw [Session.get?, hc, Table.get?_append]
  rw [Session.get?] at hg
  rw [hg, Option.some_or]

theorem Extends.isSome_get? {before after : Session} (h : before.Extends after) {id : String}
    (hg : (before.get? id).isSome) : (after.get? id).isSome := by
  obtain ⟨ty, hty⟩ := Option.isSome_iff_exists.mp hg
  rw [h.get? hty]
  rfl

theorem Extends.trans {first second third : Session} (h : first.Extends second)
    (h' : second.Extends third) : first.Extends third where
  registry := h'.registry.trans h.registry
  keyword := h'.keyword.trans h.keyword
  bases := h'.bases.trans h.bases
  compiling := h'.compiling.trans h.compiling
  uses id := Nat.le_trans (h.uses id) (h'.uses id)
  recursive := List.Subset.trans h.recursive h'.recursive
  cache := by
    obtain ⟨added, hc, fresh⟩ := h.cache
    obtain ⟨added', hc', fresh'⟩ := h'.cache
    refine ⟨added ++ added', by rw [hc', hc, List.append_assoc], fun entry he => ?_⟩
    rcases List.mem_append.mp he with he | he
    · exact fresh entry he
    · obtain ⟨new, idle⟩ := fresh' entry he
      rw [h.compiling] at idle
      refine ⟨?_, idle⟩
      cases hg : first.get? entry.1 with
      | none => rfl
      | some ty =>
        rw [h.get? hg] at new
        cases new

theorem extends_countUse (session : Session) (id : String) :
    session.Extends (session.countUse id) := by
  refine ⟨rfl, rfl, rfl, rfl, fun name => ?_, List.Subset.refl _, [], by simp [countUse], by simp⟩
  rw [useCount_countUse]
  exact Nat.le_add_right _ _

theorem extends_beginCount (session : Session) (id : String) :
    session.Extends (session.beginCount id) :=
  ⟨rfl, rfl, rfl, rfl, fun _ => Nat.le_of_eq (useCount_beginCount ..).symm,
    List.Subset.refl _, [], by simp [beginCount], by simp⟩

theorem extends_markRecursive (session : Session) (id : String) :
    session.Extends (session.markRecursive id) := by
  refine ⟨rfl, rfl, rfl, rfl, fun _ => Nat.le_refl _, fun name h => ?_, [], by simp [markRecursive],
    by simp⟩
  unfold markRecursive
  dsimp only
  split
  · exact h
  · exact List.mem_cons_of_mem _ h

theorem mem_recursive_markRecursive (session : Session) (id : String) :
    id ∈ (session.markRecursive id).recursive := by
  unfold markRecursive
  dsimp only
  split
  · assumption
  · exact List.mem_cons_self

/-- Leaving a place takes back that it was visited. -/
theorem extends_leave {session after : Session} {place : Place}
    (h : (session.visit place).Extends after) : session.Extends (after.leave place.id) where
  registry := h.registry
  keyword := h.keyword
  bases := by
    rw [leave, h.bases]
    rfl
  compiling := by
    rw [leave, h.compiling]
    exact List.erase_cons_head ..
  uses id := by
    rw [← useCount_visit session place id]
    exact h.uses id
  recursive := h.recursive
  cache := by
    obtain ⟨added, hc, fresh⟩ := h.cache
    refine ⟨added, hc, fun entry he => ⟨(fresh entry he).1, fun hm => ?_⟩⟩
    exact (fresh entry he).2 (List.mem_cons_of_mem _ hm)

/-- A name that is being compiled is not kept meanwhile. -/
theorem get?_of_visit {session after : Session} {place : Place}
    (h : (session.visit place).Extends after) (hn : session.get? place.id = none) :
    after.get? place.id = none := by
  obtain ⟨added, hc, fresh⟩ := h.cache
  rw [Session.get?, hc, Table.get?_append]
  have old : Table.get? (session.visit place).cache place.id = none := hn
  rw [old, Option.none_or, Table.get?_eq_none_iff]
  intro hk
  obtain ⟨entry, he, hid⟩ := List.mem_map.mp hk
  exact (fresh entry he).2 (by rw [hid]; exact List.mem_cons_self)

/-- What is compiled comes last in the cache. -/
theorem cache_finish {session after : Session} {place : Place}
    (h : (session.visit place).Extends after) (hn : session.get? place.id = none) (ty : Ty) :
    (after.finish place ty).cache = after.cache ++ [(place.id, ty)] :=
  Table.put_of_get?_none (get?_of_visit h hn) ty

theorem extends_finish {session after : Session} {place : Place}
    (h : (session.visit place).Extends after) (hn : session.get? place.id = none)
    (hi : place.id ∉ session.compiling) (ty : Ty) :
    session.Extends (after.finish place ty) := by
  have left := extends_leave h
  refine { left with cache := ?_ }
  obtain ⟨added, hc, fresh⟩ := left.cache
  refine ⟨added ++ [(place.id, ty)], ?_, fun entry he => ?_⟩
  · rw [cache_finish h hn, ← List.append_assoc, ← hc]
    rfl
  · rcases List.mem_append.mp he with he | he
    · exact fresh entry he
    · rw [List.mem_singleton] at he
      subst he
      exact ⟨hn, hi⟩

end Session

mutual

/-- Loading a name leaves a session where it was. -/
theorem Loads.extends {session after : Session} {uri : String} {result : Except LoadError Ty}
    (h : Loads session uri result after) : session.Extends after := by
  match h with
  | .lost _ => exact .refl _
  | .cached _ _ => exact .refl _
  | .reentered _ _ _ => exact Session.extends_markRecursive _ _
  | .missing _ _ _ _ => exact Session.extends_beginCount _ _
  | .failed _ _ _ _ follows => exact Session.extends_leave follows.extends
  | .compiled _ new idle _ follows => exact Session.extends_finish follows.extends new idle _

/-- Following references leaves a session where it was. -/
theorem Follows.extends {session after : Session} {references : List Schema.Reference}
    {result : Except LoadError (List Ty)} (h : Follows session references result after) :
    session.Extends after := by
  match h with
  | .done => exact .refl _
  | .stopped loads => exact loads.extends
  | .failed loads follows =>
    exact loads.extends.trans ((Session.extends_countUse _ _).trans follows.extends)
  | .next loads follows =>
    exact loads.extends.trans ((Session.extends_countUse _ _).trans follows.extends)

end

/-! ## Results that pass a check -/

namespace Session

/-- A result and the session that is left with it pass a check. -/
def passes {α : Type} (outcome : Except LoadError α × Session) (check : α → Session → Bool) : Bool :=
  match outcome with
  | (.ok result, session) => check result session
  | (.error _, _) => false

theorem exists_of_passes {α : Type} {outcome : Except LoadError α × Session}
    {check : α → Session → Bool} (h : passes outcome check = true) :
    ∃ result session, outcome = (.ok result, session) ∧ check result session = true := by
  obtain ⟨error | result, session⟩ := outcome
  · cases h
  · exact ⟨result, session, rfl, h⟩

end Session

end SchemaDoc
