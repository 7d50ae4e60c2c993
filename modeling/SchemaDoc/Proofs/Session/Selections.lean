import SchemaDoc.Proofs.Session.Scopes
import SchemaDoc.Session.Example

/-!
# Settings of a user and of a project

An example of all settings holds values at *paths* of names.  Where such a path leads is told by
the properties that it passes, `Session.Along`: one after the other, with references followed in
between, and at the end a value that may have members of its own, since it may be a default.  A
selection that admits all properties on the way has a value there too, `Session.Reaches`.

So a setting is lost by filtering only if neither the selection of the user nor that of the
project admits all of them.  The last one is of the one or of the other.  Since scopes cover
children, so is whatever is above it, unless a property on the way is *detached*: it is marked,
which makes it one of the user alone whatever is in it, or it is a reference that leads back to a
type with settings of the user that was being compiled, so that its scope was not known, which
makes it one of the project alone.
That is `Session.selections_cover`.
-/

namespace SchemaDoc

/-- The value at a path of names inside a value. -/
def Json.at? (value : Json) : List String → Option Json
  | [] => some value
  | name :: path => (value.get? name).bind fun member => member.at? path

/-- What a selection has is a matter of the scope. -/
theorem Selection.admits_congr (selection : Selection) {a b : Ty}
    (h : a.annotations.scope = b.annotations.scope) : selection.admits a = selection.admits b := by
  cases selection <;> simp [admits, h]

/-- A selection that has a child has the type, if its scope covers the child. -/
theorem Selection.admits_of_child {selection : Selection} {ty child : Ty}
    (covers : ty.annotations.scope = .ofTypes ty.children) (hc : child ∈ ty.children)
    (h : selection.admits child) : selection.admits ty := by
  cases selection with
  | all => rfl
  | user =>
    rw [admits, covers]
    exact List.any_eq_true.mpr ⟨child, hc, h⟩
  | project =>
    rw [admits, covers]
    exact List.any_eq_true.mpr ⟨child, hc, h⟩

/-- A property that is not marked is in every selection in which its type is. -/
theorem Selection.admits_orProject {selection : Selection} {ty : Ty} {scope : Scope}
    (h : selection.admits (ty.withScope scope)) :
    selection.admits (ty.withScope scope.orProject) := by
  cases selection with
  | all => rfl
  | user => exact h
  | project => exact Bool.or_eq_true_iff.mpr (.inl h)

/-- A property without a scope is in every selection in which one is that is not of the user. -/
theorem Selection.admits_unscoped {selection : Selection} {ty other : Ty} {scope : Scope}
    (project : scope.user = false) (h : selection.admits (other.withScope scope.orProject)) :
    selection.admits (ty.withScope (Scope.orProject {})) := by
  cases selection with
  | all => rfl
  | user => exact absurd (project.symm.trans h) Bool.false_ne_true
  | project => rfl

/-- Every property is of the user or of the project. -/
theorem Ty.SettledProperty.user_or_project {knows : String → Scope → Prop} {marks : String → Prop}
    {name : String} {ty : Ty} (h : ty.SettledProperty knows marks name) :
    Selection.user.admits ty ∨ Selection.project.admits ty := by
  rcases h with ⟨scope, hs, -⟩ | ⟨hs, -⟩
  · simp only [Selection.admits, hs, Scope.orProject]
    cases scope.user <;> simp
  · simp [Selection.admits, hs]

namespace Session

/-! ## Paths -/

/-- Properties one below the other, beginning with one of a type.  References are followed. -/
inductive Along (session : Session) : Ty → List (String × Ty) → Prop where
  | here {ty : Ty} : Along session ty []
  | property {ty member : Ty} {name : String} {steps : List (String × Ty)} :
      Table.get? ty.properties name = some member → Along session member steps →
      Along session ty ((name, member) :: steps)
  | follow {ty found : Ty} {target : String} {steps : List (String × Ty)} :
      ty.target? = some target → session.get? target = some found → Along session found steps →
      Along session ty steps

/-- Examples of a type, one for each selection, hold what the example of all settings holds
wherever all properties on the way are admitted. -/
def Reaches (session : Session) (ty : Ty) (examples : Selection → Json) : Prop :=
  ∀ path, ((examples .all).at? path).isSome →
    ∃ steps extra, path = steps.map Prod.fst ++ extra ∧ session.Along ty steps ∧
      ∀ selection : Selection, (∀ step ∈ steps, selection.admits step.2) →
        ((examples selection).at? path).isSome

variable {session : Session}

/-- What does not depend on the selection is in all of them. -/
theorem reaches_const (ty : Ty) (value : Json) : session.Reaches ty fun _ => value :=
  fun path held => ⟨[], path, rfl, .here, fun _ _ => held⟩

/-- The examples of a reference are those of its target. -/
theorem Reaches.follow {ty found : Ty} {target : String} {examples : Selection → Json}
    (ht : ty.target? = some target) (hg : session.get? target = some found)
    (h : session.Reaches found examples) : session.Reaches ty examples := by
  intro path held
  obtain ⟨steps, extra, hp, along, selected⟩ := h path held
  exact ⟨steps, extra, hp, .follow ht hg along, selected⟩

/-! ## Members of an example -/

section Members

variable (follow : String → Option Json → Json) (selection : Selection)
variable (defaults : Option (Table String Json)) {members : List (String × Ty)} {name : String}

/-- A member of an example is that of a property. -/
theorem exists_of_get?_exampleMembers
    (h : (Table.get? (exampleMembers follow selection defaults members) name).isSome) :
    isInternal name = false ∧ ∃ member, Table.get? members name = some member := by
  induction members with
  | nil => cases h
  | cons entry rest ih =>
    obtain ⟨key, ty⟩ := entry
    rw [exampleMembers] at h
    rw [Table.get?]
    split at h
    · refine ⟨(ih h).1, ?_⟩
      split
      · exact ⟨ty, rfl⟩
      · exact (ih h).2
    · rename_i kept
      rw [Table.get?] at h
      split at h
      · rename_i hk
        rw [if_pos hk]
        simp only [Bool.or_eq_true, not_or, Bool.not_eq_true] at kept
        exact ⟨hk ▸ kept.1, ty, rfl⟩
      · rename_i hk
        rw [if_neg hk]
        exact ih h

/-- A property that is admitted has a member. -/
theorem get?_exampleMembers {member : Ty} (shown : isInternal name = false)
    (hm : Table.get? members name = some member) (admitted : selection.admits member) :
    Table.get? (exampleMembers follow selection defaults members) name =
      some (exampleWith follow selection (defaults.bind fun table => table.get? name) member) := by
  induction members with
  | nil => cases hm
  | cons entry rest ih =>
    obtain ⟨key, ty⟩ := entry
    rw [Table.get?] at hm
    rw [exampleMembers]
    split at hm
    · rename_i hk
      cases hm
      subst hk
      simp [shown, admitted, Table.get?]
    · rename_i hk
      split
      · exact ih hm
      · rw [Table.get?, if_neg hk]
        exact ih hm

end Members

/-- The examples of an object reach what those of its properties reach. -/
theorem reaches_object {follow : Selection → String → Option Json → Json} (ty : Ty)
    (defaults : Option (Table String Json))
    (h : ∀ name member, Table.get? ty.properties name = some member → ∀ given,
      session.Reaches member fun selection => exampleWith (follow selection) selection given member) :
    session.Reaches ty fun selection =>
      .object (exampleMembers (follow selection) selection defaults ty.properties) := by
  intro path held
  cases path with
  | nil => exact ⟨[], [], rfl, .here, fun _ _ => rfl⟩
  | cons name path =>
    rw [Json.at?, Json.get?] at held
    have present := Option.isSome_of_isSome_bind held
    obtain ⟨shown, member, hm⟩ := exists_of_get?_exampleMembers _ _ _ present
    rw [get?_exampleMembers _ _ _ shown hm rfl, Option.bind_some] at held
    obtain ⟨steps, extra, rfl, along, selected⟩ := h name member hm _ path held
    refine ⟨(name, member) :: steps, extra, rfl, .property hm along, fun selection admitted => ?_⟩
    obtain ⟨first, others⟩ := List.forall_mem_cons.mp admitted
    rw [Json.at?, Json.get?, get?_exampleMembers _ _ _ shown hm first]
    exact selected selection others

/-! ## Examples -/

/-- The examples of a type reach what all settings hold, if those of its references do. -/
theorem reaches_exampleWith {follow : Selection → String → Option Json → Json}
    (follows : ∀ (ty : Ty) target given, ty.target? = some target →
      session.Reaches ty fun selection => follow selection target given) (ty : Ty) :
    ∀ given, session.Reaches ty fun selection =>
      exampleWith (follow selection) selection given ty := by
  induction ty using Ty.induct with
  | step ty ih =>
    intro given
    obtain ⟨notes, const, shape⟩ := ty
    cases shape with
    | object members rest =>
      simp only [exampleWith]
      refine reaches_object ⟨notes, const, .object members rest⟩ _ fun name member hm => ?_
      exact ih member (Ty.mem_children.mpr (.inl ⟨_, Table.mem_of_get? hm, rfl⟩))
    | reference target =>
      simp only [exampleWith]
      exact follows _ target _ rfl
    | leaf _ => exact reaches_const _ _
    | array _ _ => exact reaches_const _ _
    | tuple _ _ => exact reaches_const _ _
    | union _ _ _ => exact reaches_const _ _
    | intersection _ => exact reaches_const _ _

/-- The examples of a target reach what all settings hold. -/
theorem reaches_followExample (room : Nat) :
    ∀ (expanding : List String) (ty : Ty) (target : String) (given : Option Json),
      ty.target? = some target →
      session.Reaches ty fun selection =>
        session.followExample selection room expanding target given := by
  induction room with
  | zero => exact fun _ _ _ _ _ => reaches_const _ _
  | succ room ih =>
    intro expanding ty target given ht
    simp only [followExample]
    split
    · exact reaches_const _ _
    · cases hg : session.get? target with
      | none => exact reaches_const _ _
      | some found => exact .follow ht hg (reaches_exampleWith (ih _) found given)

/-- The examples of a type reach what all settings hold. -/
theorem reaches_exampleOf (session : Session) (ty : Ty) :
    session.Reaches ty (session.exampleOf ty) :=
  reaches_exampleWith (reaches_followExample _ _) ty none

/-! ## Selections on the way -/

/-- A reference that leads, through others without a scope maybe, to a type with settings of the
user whose name was met while it was being compiled. -/
inductive LeadsBack (session : Session) : Ty → Prop where
  | here {ty found : Ty} {target : String} :
      ty.target? = some target → target ∈ session.recursive → session.get? target = some found →
      found.annotations.scope.user = true → LeadsBack session ty
  | next {ty found : Ty} {target : String} :
      ty.target? = some target → session.get? target = some found →
      found.annotations.scope = {} → LeadsBack session found → LeadsBack session ty

/-- The scope of a property is not that of what is below it: it is marked, so that it is of the
user alone though its type is not, or it is a reference that leads back, so that it is of the
project alone though there are settings of the user behind it. -/
def Detached (session : Session) (property : String × Ty) : Prop :=
  (session.registry.Marks session.keyword property.1 ∧
      property.2.annotations.scope = ⟨true, false⟩ ∧ ¬ property.2.Agrees session.KnowsScope) ∨
    property.2.annotations.scope = ⟨false, true⟩ ∧ session.LeadsBack property.2

section Along

variable {places : List Place} {selection : Selection} {ty : Ty} {steps : List (String × Ty)}

/-- A selection that admits the last property on the way admits those above it, unless the scope
of one of them says nothing of what is below it. -/
theorem Along.admits (hb : session.registry.Built) (hn : session.registry.Named)
    (sound : session.Sound places) (h : session.Along ty steps)
    (inside : ty.Everywhere
      (Ty.Scoped session.KnowsScope (session.registry.Marks session.keyword)))
    (attached : ∀ step ∈ steps.dropLast, ¬ session.Detached step) {last : String × Ty}
    (hl : steps.getLast? = some last) (ha : selection.admits last.2) :
    (∀ step ∈ steps, selection.admits step.2) ∧
      ∀ scope, (ty.withScope scope).Settled session.KnowsScope →
        (scope = {} → ¬ session.LeadsBack ty) →
          selection.admits (ty.withScope scope.orProject) := by
  induction h with
  | here => cases hl
  | @property ty member name steps hm along ih =>
    have child : member ∈ ty.children :=
      Ty.mem_children.mpr (.inl ⟨_, Table.mem_of_get? hm, rfl⟩)
    have settled := inside.here.properties _ (Table.mem_of_get? hm)
    have first : selection.admits member ∧ ∀ step ∈ steps, selection.admits step.2 := by
      cases steps with
      | nil =>
        cases hl
        exact ⟨ha, List.forall_mem_nil _⟩
      | cons next rest =>
        rw [List.dropLast_cons_cons, List.forall_mem_cons] at attached
        rw [List.getLast?_cons_cons] at hl
        obtain ⟨others, own⟩ := ih (inside.inside _ child) attached.2 hl
        refine ⟨?_, others⟩
        obtain ⟨agreeing, forward⟩ := not_or.mp attached.1
        have agrees : member.Agrees session.KnowsScope := by
          by_contra differs
          obtain ⟨forced, marked⟩ := settled.resolve_left differs
          exact agreeing ⟨marked, forced, differs⟩
        obtain ⟨scope, hs, settled⟩ := agrees
        rw [selection.admits_congr (b := member.withScope scope.orProject) hs]
        exact own scope settled fun empty back => forward ⟨by rw [hs, empty]; rfl, back⟩
    refine ⟨List.forall_mem_cons.mpr first, fun scope covers _ => Selection.admits_orProject ?_⟩
    exact Selection.admits_of_child (covers.covers (Ty.target?_of_child child)) child first.1
  | @follow ty found target steps ht hg along ih =>
    have whole := sound.scopedWhole hb hn hg
    obtain ⟨others, own⟩ := ih whole.2 attached hl
    refine ⟨others, fun scope known forward => ?_⟩
    have known : session.KnowsScope target scope := by
      have known := known
      rw [Ty.Settled, show (ty.withScope scope).target? = some target from ht] at known
      exact known
    rcases known with same | ⟨met, rfl⟩
    · have same := same found hg
      have admitted := own found.annotations.scope (whole.1.congr rfl rfl)
        fun empty back => forward (same ▸ empty) (.next ht hg empty back)
      rwa [same] at admitted
    · -- The target was being compiled.  If it has no settings of the user, none is lost.
      have project : found.annotations.scope.user = false :=
        Bool.eq_false_iff.mpr fun user => forward rfl (.here ht met hg user)
      exact Selection.admits_unscoped project (own found.annotations.scope (whole.1.congr rfl rfl)
        fun empty back => forward rfl (.next ht hg empty back))

/-- Each property on the way is of the user or of the project. -/
theorem Along.user_or_project (hb : session.registry.Built) (hn : session.registry.Named)
    (sound : session.Sound places) (h : session.Along ty steps)
    (inside : ty.Everywhere
      (Ty.Scoped session.KnowsScope (session.registry.Marks session.keyword))) :
    ∀ step ∈ steps, Selection.user.admits step.2 ∨ Selection.project.admits step.2 := by
  induction h with
  | here => exact List.forall_mem_nil _
  | @property ty member name steps hm along ih =>
    have child : member ∈ ty.children :=
      Ty.mem_children.mpr (.inl ⟨_, Table.mem_of_get? hm, rfl⟩)
    have settled := inside.here.properties _ (Table.mem_of_get? hm)
    exact List.forall_mem_cons.mpr ⟨settled.user_or_project, ih (inside.inside _ child)⟩
  | follow ht hg along ih => exact ih (sound.scopedWhole hb hn hg).2

end Along

/-! ## Filtering loses no setting -/

/-- Wherever the example of all settings of a loaded type holds a value, that of the settings of
the user or that of the settings of the project holds one, unless the path passes a property
whose scope is not that of what is below it: one that is marked though its type is not of the user
alone, or a reference of the project alone that leads back to a type that was being compiled and has
settings of the user. -/
theorem selections_cover {registry : Registry} (keyword : String) (hb : registry.Built)
    (hn : registry.Named) (uris : List String) {uri : String} {root : Ty} {loaded : Session}
    (hl : ((fresh registry keyword).loadAll uris).load uri = (.ok root, loaded))
    (more : List String) {path : List String}
    (held : (((loaded.loadAll more).exampleOf root .all).at? path).isSome) :
    (((loaded.loadAll more).exampleOf root .user).at? path).isSome ∨
      (((loaded.loadAll more).exampleOf root .project).at? path).isSome ∨
      ∃ steps extra, path = steps.map Prod.fst ++ extra ∧
        (loaded.loadAll more).Along root steps ∧
        ∃ step ∈ steps.dropLast, (loaded.loadAll more).Detached step := by
  obtain ⟨id, hg⟩ :=
    exists_get?_of_load (resting_loadAll uris (fresh_resting registry keyword)) hl more
  have run := loadAll_of_load hl more
  obtain ⟨hreg, -, sound⟩ := sound_loadAll keyword hb hn (uris ++ uri :: more)
  rw [run] at hreg sound
  generalize loaded.loadAll more = session at *
  subst hreg
  have whole := sound.scopedWhole hb hn hg
  obtain ⟨steps, extra, hp, along, selected⟩ := reaches_exampleOf session root path held
  by_contra lost
  simp only [not_or] at lost
  obtain ⟨noUser, noProject, plain⟩ := lost
  have attached : ∀ step ∈ steps.dropLast, ¬ session.Detached step := fun step hs detached =>
    plain ⟨steps, extra, hp, along, step, hs, detached⟩
  cases hlast : steps.getLast? with
  | none =>
    obtain rfl := List.getLast?_eq_none_iff.mp hlast
    exact noUser (selected .user (List.forall_mem_nil _))
  | some last =>
    have admitted {selection : Selection} (ha : selection.admits last.2) :=
      selected selection (along.admits hb hn sound whole.2 attached hlast ha).1
    rcases along.user_or_project hb hn sound whole.2 last (List.mem_of_getLast? hlast) with h | h
    · exact noUser (admitted h)
    · exact noProject (admitted h)

/-! ## Settings that are lost -/

/-- At a path the example of all settings of a name holds a value that filtering loses. -/
def losesPath (session : Session) (uri : String) (path : List String) : Bool :=
  match session.load uri with
  | (.ok root, loaded) =>
    ((loaded.exampleOf root .all).at? path).isSome &&
      !((loaded.exampleOf root .user).at? path).isSome &&
      !((loaded.exampleOf root .project).at? path).isSome
  | (.error _, _) => false

/-- An object with some properties, and other keywords. -/
def objectSchema (properties others : List (String × Json)) : Json :=
  .object (("type", .string "object") :: ("properties", .object properties) :: others)

/-- A setting of the user. -/
def markedSetting : Json := .object [("type", .string "boolean"), ("mark", .bool true)]

/-- An object that has itself for a property, and a setting of the user. -/
def loopedSchema : Json :=
  objectSchema [("self", .object [("$ref", .string "#")]), ("u", markedSetting)] []

/-- While the object was compiled nothing was known of the settings in it. -/
theorem looped_selections_cover :
    ∃ root loaded, (fresh (Registry.register {} "Root" loopedSchema).crawl "mark").load "Root" =
        (.ok root, loaded) ∧
      ((loaded.exampleOf root .all).at? ["self", "u"]).isSome ∧
      ∃ steps extra, ["self", "u"] = steps.map Prod.fst ++ extra ∧ loaded.Along root steps ∧
        ∃ step ∈ steps.dropLast, loaded.Detached step := by
  have lost : (fresh (Registry.register {} "Root" loopedSchema).crawl "mark").losesPath "Root"
      ["self", "u"] = true := by decide +kernel
  rw [losesPath] at lost
  split at lost
  · rename_i root loaded hl
    simp only [Bool.and_eq_true, Bool.not_eq_true'] at lost
    obtain ⟨⟨held, noUser⟩, noProject⟩ := lost
    refine ⟨root, loaded, hl, held, ?_⟩
    rcases selections_cover "mark" (.crawl (.register "Root" loopedSchema .empty))
      (Registry.named_crawl _) [] hl [] held with user | project | passed
    · exact absurd (noUser.symm.trans user) Bool.false_ne_true
    · exact absurd (noProject.symm.trans project) Bool.false_ne_true
    · exact passed
  · cases lost

/-- A marked object with a setting that is not marked. -/
def markedSchema : Json :=
  objectSchema [("p", objectSchema [("q", .object [("type", .string "boolean")])]
    [("mark", .bool true)])] []

/-- A document that goes by the empty name, one that goes by the name under which the first is
registered, and a reference to the first. -/
def strayRegistry : Registry :=
  ((Registry.register {} "foo" (.object [("$id", .string ""), ("type", .string "string")])).register
    "bar" (objectSchema [("a", markedSetting)] [("$id", .string "foo")])).register
    "Root" (objectSchema [("p", .object [("$ref", .string "foo")])] [])

/-- Filtering loses a setting inside a marked object, one behind a reference that leads back, and,
without crawling, one behind a reference to a document that goes by the empty name. -/
theorem not_selections_cover :
    (fresh (Registry.register {} "Root" markedSchema).crawl "mark").losesPath "Root" ["p", "q"] ∧
      (fresh (Registry.register {} "Root" loopedSchema).crawl "mark").losesPath "Root"
        ["self", "u"] ∧
      ((fresh strayRegistry "mark").loadAll ["bar"]).losesPath "Root" ["p", "a"] := by
  decide +kernel

end Session

end SchemaDoc
