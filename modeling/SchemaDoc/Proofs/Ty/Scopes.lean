import SchemaDoc.Proofs.Schema.Assembly
import SchemaDoc.Proofs.Ty.NormalForm

/-!
# The scopes of what is compiled

A type is *settled* if its scope is what its children have between them.  Of a reference that
cannot be said, since its target is no child of it, so what a reference has to satisfy is a
parameter.

Compiling settles the type of every schema.  But on the way it puts arrays and unions together
that are not settled: such a type is *loose*, it has no scope at all.  A loose type that is all
there is to a schema is settled in the end.  One that became a member of a union or of an
intersection stays loose, and the scope of that does not have what the loose type has inside.
The properties of an object are settled up to what the object says about them: a marked
property is a setting of the user whatever is in it, and one that is no setting of the user is
one of the project.

`Ty.assembly_scoped` says so of all that compiling builds.
-/

namespace SchemaDoc

/-! ## Scopes -/

/-- What some types have between them. -/
def Scope.ofTypes (types : List Ty) : Scope where
  user := types.any fun ty => ty.annotations.scope.user
  project := types.any fun ty => ty.annotations.scope.project

/-- The scope of a property that is not marked. -/
def Scope.orProject (scope : Scope) : Scope :=
  { scope with project := scope.project || !scope.user }

namespace Ty

/-- The named members of an object. -/
def properties (ty : Ty) : List (String × Ty) :=
  match ty.shape with
  | .object members _ => members
  | _ => []

/-- The children without those that are properties of an object. -/
def unnamedChildren (ty : Ty) : List Ty :=
  match ty.shape with
  | .object _ rest => rest.toList
  | shape => shape.parts

/-- Whether a type is an array of items of one type. -/
def isArray (ty : Ty) : Bool :=
  match ty.shape with
  | .array .. => true
  | _ => false

/-- A type has the scope that its children have between them, or it is a reference with a scope
that is known of its target. -/
def Settled (knows : String → Scope → Prop) (ty : Ty) : Prop :=
  match ty.target? with
  | some target => knows target ty.annotations.scope
  | none => ty.annotations.scope = .ofTypes ty.children

/-- An array or a union has no scope. -/
def Loose (ty : Ty) : Prop := (ty.isArray ∨ ty.isUnion) ∧ ty.annotations.scope = {}

instance (ty : Ty) : Decidable ty.Loose := inferInstanceAs (Decidable (_ ∧ _))

/-- A property has the scope that its type has without what the object says about it. -/
def Agrees (knows : String → Scope → Prop) (ty : Ty) : Prop :=
  ∃ scope, ty.annotations.scope = scope.orProject ∧ (ty.withScope scope).Settled knows

/-- A property of an object has the scope of its type, or it is marked. -/
def SettledProperty (knows : String → Scope → Prop) (marks : String → Prop) (name : String)
    (ty : Ty) : Prop :=
  ty.Agrees knows ∨ ty.annotations.scope = ⟨true, false⟩ ∧ marks name

/-- What is directly in a type is settled, or it is a loose member of a union or of an
intersection. -/
structure Scoped (knows : String → Scope → Prop) (marks : String → Prop) (ty : Ty) : Prop where
  properties : ∀ entry ∈ ty.properties, entry.2.SettledProperty knows marks entry.1
  unnamed : ∀ child ∈ ty.unnamedChildren,
    child.Settled knows ∨ ty.members?.isSome ∧ child.Loose

variable {knows : String → Scope → Prop} {marks : String → Prop} {a b ty : Ty}

/-- A child is a property or has no name. -/
theorem mem_children : a ∈ ty.children ↔
    (∃ entry ∈ ty.properties, entry.2 = a) ∨ a ∈ ty.unnamedChildren := by
  obtain ⟨notes, const, shape⟩ := ty
  cases shape <;> simp [children, Shape.parts, properties, unnamedChildren]

/-! ## What is a matter of the shape and of the scope -/

theorem Settled.congr (h : a.Settled knows) (hs : b.shape = a.shape)
    (he : b.annotations.scope = a.annotations.scope) : b.Settled knows := by
  rw [Settled, target?, children, hs, he]
  exact h

theorem Loose.congr (h : a.Loose) (hs : b.shape = a.shape)
    (he : b.annotations.scope = a.annotations.scope) : b.Loose := by
  rw [Loose, isArray, isUnion, hs, he]
  exact h

/-- What is directly in a type is a matter of its shape. -/
theorem scoped_of_shape (h : a.Everywhere (Scoped knows marks)) (hs : b.shape = a.shape) :
    b.Everywhere (Scoped knows marks) := by
  refine Everywhere.of_shape hs ?_ h
  rintro ⟨properties, unnamed⟩
  constructor
  · rw [Ty.properties, hs]
    exact properties
  · rw [unnamedChildren, members?, hs]
    exact unnamed

/-! ## Settling -/

/-- Only a type without children keeps its scope. -/
theorem settled_propagateScope (h : ty.children = [] → ty.Settled knows) :
    ty.propagateScope.Settled knows := by
  cases hc : ty.children with
  | nil =>
    rw [propagateScope, hc]
    exact h hc
  | cons first rest =>
    have noTarget : ty.target? = none := target?_of_child (hc ▸ List.mem_cons_self)
    rw [Settled, target?, children, shape_propagateScope]
    rw [target?] at noTarget
    rw [noTarget, propagateScope, hc]
    exact congrArg Scope.ofTypes hc.symm

/-- A loose type without children has the scope that these have. -/
theorem Loose.settled (h : ty.Loose) (hc : ty.children = []) : ty.Settled knows := by
  obtain ⟨notes, const, shape⟩ := ty
  obtain ⟨array | union, scope⟩ := h
  · cases shape <;> cases array
    cases hc
  · cases shape <;> cases union
    rw [Settled, target?, hc]
    exact scope

/-! ## Arms, wholes and properties -/

/-- What a schema is compiled to. -/
def ScopedWhole (knows : String → Scope → Prop) (marks : String → Prop) (ty : Ty) : Prop :=
  ty.Settled knows ∧ ty.Everywhere (Scoped knows marks)

/-- What is put together on the way. -/
def ScopedArm (knows : String → Scope → Prop) (marks : String → Prop) (ty : Ty) : Prop :=
  (ty.Settled knows ∨ ty.Loose) ∧ ty.Everywhere (Scoped knows marks)

/-- A property of an object. -/
def ScopedProperty (knows : String → Scope → Prop) (marks : String → Prop) (name : String)
    (ty : Ty) : Prop :=
  ty.SettledProperty knows marks name ∧ ty.Everywhere (Scoped knows marks)

/-- What is in a type is scoped if its children are. -/
theorem everywhere_scoped
    (hp : ∀ entry ∈ ty.properties, entry.2.ScopedProperty knows marks entry.1)
    (hu : ∀ child ∈ ty.unnamedChildren, (child.Settled knows ∨ ty.members?.isSome ∧ child.Loose) ∧
      child.Everywhere (Scoped knows marks)) : ty.Everywhere (Scoped knows marks) := by
  refine .intro ⟨fun entry he => (hp entry he).1, fun child hc => (hu child hc).1⟩ fun child hc => ?_
  rcases mem_children.mp hc with ⟨entry, he, rfl⟩ | hc
  · exact (hp entry he).2
  · exact (hu child hc).2

/-- In a type without children there is nothing that is not scoped. -/
theorem everywhere_of_nil (hc : ty.children = []) : ty.Everywhere (Scoped knows marks) := by
  have noChild (child : Ty) : child ∉ ty.children := hc ▸ List.not_mem_nil
  refine everywhere_scoped (fun entry he => ?_) fun child h => ?_
  · exact (noChild _ (mem_children.mpr (.inl ⟨entry, he, rfl⟩))).elim
  · exact (noChild _ (mem_children.mpr (.inr h))).elim

/-- A type without children and without a scope. -/
theorem scopedWhole_of_nil (ht : ty.target? = none) (hc : ty.children = [])
    (hs : ty.annotations.scope = {}) : ty.ScopedWhole knows marks := by
  refine ⟨?_, everywhere_of_nil hc⟩
  rw [Settled, ht, hc]
  exact hs

/-- A reference whose scope is known of its target. -/
theorem scopedWhole_of_target {target : String} (ht : ty.target? = some target)
    (h : knows target ty.annotations.scope) : ty.ScopedWhole knows marks := by
  refine ⟨?_, everywhere_of_nil (children_of_target? ht)⟩
  rw [Settled, ht]
  exact h

/-- A type that has no scope and is no reference is settled when its scope is made to cover its
children. -/
theorem scopedWhole_propagateScope (ht : ty.target? = none) (hs : ty.annotations.scope = {})
    (inside : ty.Everywhere (Scoped knows marks)) : ty.propagateScope.ScopedWhole knows marks := by
  refine ⟨settled_propagateScope fun hc => ?_, scoped_of_shape inside (shape_propagateScope _)⟩
  rw [Settled, ht, hc]
  exact hs

/-- Whatever its parts are, a schema is compiled to a settled type. -/
theorem ScopedArm.whole (overlay : Schema.Overlay) (h : ty.ScopedArm knows marks) :
    (overlay.apply ty).propagateScope.ScopedWhole knows marks := by
  obtain ⟨settled | loose, inside⟩ := h
  · refine ⟨settled_propagateScope fun _ => settled.congr rfl rfl, ?_⟩
    exact scoped_of_shape inside (shape_propagateScope _)
  · refine ⟨settled_propagateScope fun hc => ?_, scoped_of_shape inside (shape_propagateScope _)⟩
    have loose : (overlay.apply ty).Loose := loose.congr rfl rfl
    exact loose.settled hc

/-- What is in an arm, but for properties, are arms. -/
theorem ScopedArm.unnamed (h : ty.ScopedArm knows marks) :
    ∀ child ∈ ty.unnamedChildren, child.ScopedArm knows marks := fun child hc =>
  ⟨(h.2.here.unnamed child hc).imp_right And.right, h.2.inside child (mem_children.mpr (.inr hc))⟩

theorem ScopedArm.alternatives (h : ty.ScopedArm knows marks) :
    ∀ item ∈ ty.alternatives, item.ScopedArm knows marks := by
  have unnamed := h.unnamed
  rw [Ty.alternatives]
  split
  · rename_i hs
    rwa [unnamedChildren, hs] at unnamed
  · exact List.forall_mem_singleton.mpr h

theorem ScopedArm.conjuncts (h : ty.ScopedArm knows marks) :
    ∀ item ∈ ty.conjuncts, item.ScopedArm knows marks := by
  have unnamed := h.unnamed
  rw [Ty.conjuncts]
  split
  · rename_i hs
    rwa [unnamedChildren, hs] at unnamed
  · exact List.forall_mem_singleton.mpr h

/-- In a union or an intersection of arms. -/
theorem everywhere_of_members {items : List Ty} (hm : ty.members? = some items)
    (h : ∀ item ∈ items, item.ScopedArm knows marks) : ty.Everywhere (Scoped knows marks) := by
  have parts : ty.properties = [] ∧ ty.unnamedChildren = items := by
    obtain ⟨notes, const, shape⟩ := ty
    cases shape <;> cases hm <;> exact ⟨rfl, rfl⟩
  have unnamed : ∀ entry ∈ ty.properties, entry.2.ScopedProperty knows marks entry.1 := by
    rw [parts.1]
    exact List.forall_mem_nil _
  refine everywhere_scoped unnamed fun item hi => ?_
  obtain ⟨arm, inside⟩ := h item (parts.2 ▸ hi)
  exact ⟨arm.imp_right fun loose => ⟨by rw [hm]; rfl, loose⟩, inside⟩

/-- A union of arms is an arm: it is loose if it is more than one of them. -/
theorem scopedArm_oneOf {types : List Ty} (h : ∀ ty ∈ types, ty.ScopedArm knows marks) :
    (oneOf types).ScopedArm knows marks := by
  have kept := forall_distinctFrom_flatMap (fun _ => ScopedArm.alternatives) h
    ((types.flatMap Ty.alternatives).filterMap bareLeaf?)
  rw [oneOf, unionOfFlat]
  split
  · rename_i item hd
    exact kept item (hd ▸ List.mem_cons_self)
  · exact ⟨.inr ⟨.inr rfl, rfl⟩, everywhere_of_members rfl kept⟩

/-- An intersection of arms, under what a schema says besides, is a whole. -/
theorem scopedWhole_allOf (overlay : Schema.Overlay) {types : List Ty}
    (h : ∀ ty ∈ types, ty.ScopedArm knows marks) :
    (overlay.apply (allOf types)).propagateScope.ScopedWhole knows marks := by
  have kept := forall_distinctFrom_flatMap (fun _ => ScopedArm.conjuncts) h []
  rw [allOf, intersectionOfFlat]
  split
  · rename_i item hd
    exact (kept item (hd ▸ List.mem_cons_self)).whole overlay
  · refine scopedWhole_propagateScope rfl rfl (scoped_of_shape ?_ rfl)
    exact everywhere_of_members rfl kept

/-- What an object says about a property. -/
theorem scopedProperty_propertyType (defaults : Table String Json) (required : List String)
    {name : String} {marked : Bool} (hm : marked = true → marks name)
    (h : ty.ScopedWhole knows marks) :
    (Schema.propertyType defaults required name marked ty).ScopedProperty knows marks name := by
  refine ⟨?_, scoped_of_shape h.2 rfl⟩
  cases marked with
  | true => exact .inr ⟨rfl, hm rfl⟩
  | false => exact .inl ⟨ty.annotations.scope, rfl, h.1.congr rfl rfl⟩

/-- Compiling puts settled types together of settled types and of loose arms. -/
theorem assembly_scoped (knows : String → Scope → Prop) (marks : String → Prop) :
    Assembly marks (ScopedArm knows marks) (ScopedWhole knows marks)
      (fun name ty => ty.ScopedProperty knows marks name) where
  any := scopedWhole_of_nil rfl rfl rfl
  leaf _ := (scopedWhole_of_nil rfl rfl rfl).imp_left .inl
  const value := by
    refine (scopedWhole_of_nil ?_ ?_ ?_).imp_left .inl <;> unfold ofConst <;> split <;> rfl
  array unique item h := by
    refine ⟨.inr ⟨.inl rfl, rfl⟩, everywhere_scoped nofun fun child hc => ?_⟩
    obtain rfl := List.mem_singleton.mp hc
    exact And.imp_left .inl h
  object {members rest} hm hr := by
    have inside : (ofShape (.object members rest)).Everywhere (Scoped knows marks) :=
      everywhere_scoped hm fun child hc => (hr child (Option.mem_toList.mp hc)).imp_left .inl
    exact (scopedWhole_propagateScope rfl rfl inside).imp_left .inl
  property defaults required _ _ _ hm h := scopedProperty_propertyType defaults required hm h
  ofWhole h := h.imp_left .inl
  oneOf _ h := scopedArm_oneOf h
  tuple overlay items tail hi ht := by
    have inside : (ofShape (.tuple items tail)).Everywhere (Scoped knows marks) := by
      refine everywhere_scoped nofun fun child hc => .imp_left .inl ?_
      rcases List.mem_append.mp hc with hc | hc
      · exact hi child hc
      · exact ht child (Option.mem_toList.mp hc)
    exact scopedWhole_propagateScope rfl rfl (scoped_of_shape inside rfl)
  anything overlay := scopedWhole_propagateScope rfl rfl (everywhere_of_nil rfl)
  allOf overlay _ _ h := scopedWhole_allOf overlay h

end Ty

end SchemaDoc
