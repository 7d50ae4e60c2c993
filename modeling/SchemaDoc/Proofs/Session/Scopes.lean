import SchemaDoc.Proofs.Session.Cycles
import SchemaDoc.Proofs.Session.Inherited
import SchemaDoc.Proofs.Ty.Scopes

/-!
# The scopes of types in the cache

A page and an example tell settings of a user from settings of a project by the scope of a type,
which is to *cover* its children: it has a kind of setting if and only if one of them has.  In
the cache every type does at every depth, but for properties of an object, about which the
object has a say, and for arrays and unions that are loose in a union or an intersection:
`Session.cache_scopes`.

A reference has the scope of its target, or none if that was met while it was being compiled,
`Sound.scopedWhole`.
-/

namespace SchemaDoc

/-- The scope of a type covers its children.  A reference has none. -/
def Ty.Covers (ty : Ty) : Prop :=
  ty.target? = none → ty.annotations.scope = .ofTypes ty.children

instance (ty : Ty) : Decidable ty.Covers := inferInstanceAs (Decidable (_ → _))

theorem Ty.Settled.covers {knows : String → Scope → Prop} {ty : Ty} (h : ty.Settled knows) :
    ty.Covers := by
  intro ht
  rw [Settled, ht] at h
  exact h

/-- The children of a type cover theirs, but for properties, which are said more about, and for
loose members of a union or of an intersection. -/
def Ty.CoversInside (ty : Ty) : Prop :=
  ∀ child ∈ ty.unnamedChildren, child.Covers ∨ ty.members?.isSome ∧ child.Loose

/-- A property of some name is marked in a schema of a registry. -/
def Registry.Marks (registry : Registry) (keyword name : String) : Prop :=
  ∃ place contents, registry.Found place ∧ registry.contentsAt place = .ok contents ∧
    (Schema.ofJson keyword contents).Marks name

namespace Session

/-- Every type in the cache covers its children, and so does every type below it that is no
property of an object and no loose member of a union or of an intersection, whatever names were
loaded and whether they loaded or not. -/
theorem cache_scopes (registry : Registry) (keyword : String) (uris : List String) {id : String}
    {ty : Ty} (h : ((fresh registry keyword).loadAll uris).get? id = some ty) :
    ty.Covers ∧ ty.Everywhere Ty.CoversInside := by
  obtain ⟨schema, types, rfl, answers⟩ := cache_built registry keyword uris id ty h
  -- Here nothing is asked of references, and any property may be marked.
  let knows : String → Scope → Prop := fun _ _ => True
  let marks : String → Prop := fun _ => True
  have whole : ∀ answer ∈ types, answer.ScopedWhole knows marks := by
    intro answer ha
    obtain ⟨overlay, name, scope, rfl⟩ := answers answer ha
    exact Ty.scopedWhole_of_target rfl trivial
  obtain ⟨settled, inside⟩ :=
    (Ty.assembly_scoped knows marks).build (fun _ _ => trivial : schema.MarksOnly marks) whole
  have settled : ((schema.build types).withId id).Settled knows := settled.congr rfl rfl
  have inside : ((schema.build types).withId id).Everywhere (Ty.Scoped knows marks) :=
    Ty.scoped_of_shape inside rfl
  refine ⟨settled.covers, inside.imp fun part directly child hc => ?_⟩
  exact (directly.unnamed child hc).imp_left Ty.Settled.covers

/-- An array of objects with a setting of the user, or null. -/
def looseSchema : Json :=
  .object [("type", .array [.string "array", .string "null"]),
    ("items", .object [("type", .string "object"), ("properties", .object [
      ("u", .object [("type", .string "boolean"), ("mark", .bool true)])])])]

/-- The array has no scope, though its items have settings of the user. -/
theorem loose_cache_scopes :
    ∃ ty, ((fresh (Registry.register {} "Root" looseSchema).crawl "mark").loadAll ["Root"]).get?
        "Root" = some ty ∧
      (∃ array ∈ ty.unnamedChildren, array.Loose ∧ ¬ array.Covers ∧
        ∃ item ∈ array.children, item.annotations.scope = ⟨true, false⟩) ∧
      ty.Covers ∧ ty.Everywhere Ty.CoversInside := by
  have computed : (((fresh (Registry.register {} "Root" looseSchema).crawl "mark").loadAll
      ["Root"]).get? "Root").any (fun ty => decide (∃ array ∈ ty.unnamedChildren,
        array.Loose ∧ ¬ array.Covers ∧
          ∃ item ∈ array.children, item.annotations.scope = ⟨true, false⟩)) = true := by
    decide +kernel
  obtain ⟨ty, hg, seen⟩ := (Option.any_eq_true _ _).mp computed
  exact ⟨ty, hg, of_decide_eq_true seen, cache_scopes _ _ _ hg⟩

/-! ## References -/

/-- The scope of a reference is that of its target, or there is none, the target having been met
while it was being compiled. -/
def KnowsScope (session : Session) (target : String) (scope : Scope) : Prop :=
  (∀ found, session.get? target = some found → found.annotations.scope = scope) ∨
    target ∈ session.recursive ∧ scope = {}

variable {session : Session} {places : List Place}

/-- The scope of an answer is that of its target, or there is none, the target having been met
while it was being compiled. -/
theorem Sound.knowsScope (hb : session.registry.Built) (hn : session.registry.Named)
    (h : session.Sound places) {front back : Table String Ty} (hc : session.cache = front ++ back)
    {place : Place} {reference : Schema.Reference} {answer : Ty}
    (answers : session.registry.Answers session.keyword session.recursive front place reference
      answer) :
    ∃ target, answer.target? = some target ∧
      session.KnowsScope target answer.annotations.scope := by
  have named {other : Place} (hp : session.registry.placeOf place.name reference.text = .ok other) :
      (if other.id = "" then reference.text else other.id) = "#" ∨
        (if other.id = "" then reference.text else other.id) = other.id := by
    split
    · rename_i empty
      rw [empty]
      exact (Registry.eq_empty_of_placeOf hn hp empty).symm
    · exact .inr rfl
  cases answers with
  | @kept other target hp hg =>
    refine ⟨_, rfl, .inl fun found hf => ?_⟩
    rcases named hp with sign | same
    · rw [sign, h.get?_numberSign hb] at hf
      cases hf
    · rw [same, Session.get?, hc, Table.get?_append, hg] at hf
      cases hf
      rfl
  | @looped other hp met _ =>
    refine ⟨_, rfl, ?_⟩
    rcases named hp with sign | same
    · left
      rw [sign, h.get?_numberSign hb]
      nofun
    · right
      rw [same]
      exact ⟨met, rfl⟩

/-- Every type in the cache is settled, and so is all that is in it but for properties that are
marked in the registry and for loose arrays and unions. -/
theorem Sound.scopedWhole (hb : session.registry.Built) (hn : session.registry.Named)
    (h : session.Sound places) {id : String} {ty : Ty} (hg : session.get? id = some ty) :
    ty.ScopedWhole session.KnowsScope (session.registry.Marks session.keyword) := by
  obtain ⟨front, back, hc, -⟩ := Table.split_of_get? hg
  obtain ⟨place, contents, types, found, -, stands, rfl, answered⟩ := h.origin front id ty back hc
  have marks : (Schema.ofJson session.keyword contents).MarksOnly
      (session.registry.Marks session.keyword) := fun _ marked =>
    ⟨place, contents, found, stands, marked⟩
  have whole : ∀ answer ∈ types, answer.ScopedWhole session.KnowsScope
      (session.registry.Marks session.keyword) := by
    intro answer ha
    obtain ⟨reference, -, answers⟩ := exists_of_forall₂_right answered ha
    obtain ⟨target, ht, known⟩ := h.knowsScope hb hn hc answers
    exact Ty.scopedWhole_of_target ht known
  obtain ⟨settled, inside⟩ := (Ty.assembly_scoped _ _).build marks whole
  exact ⟨settled.congr rfl rfl, Ty.scoped_of_shape inside rfl⟩

end Session

end SchemaDoc
