import SchemaDoc.Documentation.Walk
import SchemaDoc.Proofs.Ty.Scopes

/-!
# Walks over a type

The documentation of a type is made by a walk that goes into the members of objects, the values
of enumerations and the targets of references, `Documentation.under`.  A type is taken apart into
some *parts*, `Ty.parts?`, or it has none and only the references in it are followed.  So the walk
*enters* the targets in the parts, `Ty.Enters`, and no others.

Statements about the blocks that a walk makes are inductions over all of that.  The induction is
done here once, for two walks side by side that differ in what they leave out and in how they go
into targets, `Documentation.Simulation`.  A statement about one walk, `Documentation.Walk`, is a
case of it.  A whole documentation is put together from the walks over its types,
`Documentation.of_typeBlocks`.
-/

namespace SchemaDoc

/-! ## Types inside options -/

namespace Ty

/-- The member of an optional type that is not null. -/
def present? (ty : Ty) : Option Ty :=
  match ty.shape with
  | .union _ items nullable =>
    if nullable && items.length == 2 then items.find? fun item => !item.isNull else none
  | _ => none

theorem mem_children_of_present? {ty item : Ty} (h : ty.present? = some item) :
    item ∈ ty.children := by
  obtain ⟨notes, const, shape⟩ := ty
  cases shape with
  | union form items nullable =>
    rw [present?] at h
    dsimp only at h
    split at h
    · exact List.mem_of_find?_eq_some h
    · cases h
  | leaf _ => cases h
  | reference _ => cases h
  | object _ _ => cases h
  | array _ _ => cases h
  | tuple _ _ => cases h
  | intersection _ => cases h

/-- The first type that is not null, unwrapped. -/
theorem firstPresent?_eq (items : List Ty) :
    firstPresent? items = (items.find? fun item => !item.isNull).map unwrapOptional := by
  induction items with
  | nil => rfl
  | cons item rest ih =>
    rw [firstPresent?, List.find?_cons]
    cases item.isNull with
    | true => exact ih
    | false => rfl

/-- An option is unwrapped as its member is, and any other type is unwrapped already. -/
theorem unwrapOptional_eq (ty : Ty) :
    ty.unwrapOptional = (ty.present?.map unwrapOptional).getD ty := by
  obtain ⟨notes, const, shape⟩ := ty
  cases shape with
  | union form items nullable =>
    rw [unwrapOptional, present?]
    dsimp only
    split
    · rw [firstPresent?_eq]
    · rfl
  | leaf _ => rfl
  | reference _ => rfl
  | object _ _ => rfl
  | array _ _ => rfl
  | tuple _ _ => rfl
  | intersection _ => rfl

theorem unwrapOptional_of_present? {ty item : Ty} (h : ty.present? = some item) :
    ty.unwrapOptional = item.unwrapOptional := by
  rw [unwrapOptional_eq, h]
  rfl

theorem isOptional_of_present? {ty item : Ty} (h : ty.present? = some item) :
    ty.isOptional = true := by
  obtain ⟨notes, const, shape⟩ := ty
  cases shape with
  | union form items nullable =>
    rw [present?] at h
    dsimp only at h
    split at h
    · assumption
    · cases h
  | _ => cases h

theorem unwrapOptional_of_not_isOptional {ty : Ty} (h : ty.isOptional = false) :
    ty.unwrapOptional = ty := by
  rw [unwrapOptional_eq]
  cases hp : ty.present? with
  | none => rfl
  | some item => exact absurd (h.symm.trans (isOptional_of_present? hp)) Bool.false_ne_true

theorem unwrapOptional_of_target? {ty : Ty} {target : String} (h : ty.target? = some target) :
    ty.unwrapOptional = ty := by
  obtain ⟨notes, const, rfl⟩ := exists_of_target? h
  rfl

/-! ## Parts -/

/-- The parts of a type that are documented one by one, if it is taken apart: the properties of an
object, the values of an enumeration, and the member of an option. -/
def parts? (ty : Ty) : Option (List Ty) :=
  match ty.present?, ty.shape with
  | some item, _ => some [item]
  | none, .object (member :: members) _ => some ((member :: members).map Prod.snd)
  | none, .union .enum items _ => some items
  | none, _ => none

/-- How a type is documented: as what is in an option, member by member, value by value, or by
following its references. -/
inductive Layout : Ty → Prop where
  | option {ty item : Ty} : ty.present? = some item → ty.parts? = some [item] → Layout ty
  | group {notes : Annotations} {const : Option Json} {member : String × Ty}
      {members : List (String × Ty)} {rest : Option Ty} :
      parts? ⟨notes, const, .object (member :: members) rest⟩ =
        some ((member :: members).map Prod.snd) →
      Layout ⟨notes, const, .object (member :: members) rest⟩
  | values {notes : Annotations} {const : Option Json} {items : List Ty} {nullable : Bool} :
      present? ⟨notes, const, .union .enum items nullable⟩ = none →
      parts? ⟨notes, const, .union .enum items nullable⟩ = some items →
      Layout ⟨notes, const, .union .enum items nullable⟩
  | plain {ty : Ty} : ty.present? = none → ty.parts? = none → Layout ty

theorem layout (ty : Ty) : ty.Layout := by
  cases hp : ty.present? with
  | some item => exact .option hp (by rw [parts?, hp])
  | none =>
    obtain ⟨notes, const, shape⟩ := ty
    cases shape with
    | object members rest =>
      cases members with
      | nil => exact .plain hp rfl
      | cons member members => exact .group rfl
    | union form items nullable =>
      cases form with
      | oneOf => exact .plain hp (by rw [parts?, hp])
      | enum => exact .values hp (by rw [parts?, hp])
    | leaf _ => exact .plain hp rfl
    | reference _ => exact .plain hp rfl
    | array _ _ => exact .plain hp rfl
    | tuple _ _ => exact .plain hp rfl
    | intersection _ => exact .plain hp rfl

theorem parts?_subset {ty : Ty} {parts : List Ty} (h : ty.parts? = some parts) :
    parts ⊆ ty.children := by
  cases ty.layout with
  | option hp ho =>
    rw [ho] at h
    cases h
    exact fun part hm => List.mem_singleton.mp hm ▸ mem_children_of_present? hp
  | group ho =>
    rw [ho] at h
    cases h
    exact List.subset_append_left _ _
  | values _ ho =>
    rw [ho] at h
    cases h
    exact List.Subset.refl _
  | plain _ ho =>
    rw [ho] at h
    cases h

/-- The documentation of a type goes into the target of a reference, if that may be inlined: the
reference stands in a part of the type, or in the type if it is not taken apart. -/
inductive Enters : Ty → String → Prop where
  | part {ty part : Ty} {parts : List Ty} {target : String} : ty.parts? = some parts →
      part ∈ parts → Enters part target → Enters ty target
  | reference {ty : Ty} {target : String} : ty.parts? = none → target ∈ ty.targets →
      Enters ty target

theorem Enters.mem_targets {ty : Ty} {target : String} (h : ty.Enters target) :
    target ∈ ty.targets := by
  induction h with
  | part ho hm _ ih => exact targets_subset_of_child (parts?_subset ho hm) ih
  | reference _ ht => exact ht

/-- What is entered is a matter of the shape. -/
theorem enters_of_shape {a b : Ty} (h : b.shape = a.shape) {target : String}
    (enters : a.Enters target) : b.Enters target := by
  have parts : b.parts? = a.parts? := by simp only [parts?, present?, h]
  cases enters with
  | part ho hm inner => exact .part (parts.trans ho) hm inner
  | reference ho ht => exact .reference (parts.trans ho) (targets_of_shape h ▸ ht)

/-- If a type is a reference inside options, its target is what is entered. -/
theorem enters_iff_of_unwrapOptional {ty : Ty} {target name : String} :
    ty.unwrapOptional.target? = some target → (ty.Enters name ↔ name = target) := by
  induction ty using Ty.induct with
  | step ty ih =>
    intro h
    cases hp : ty.present? with
    | some item =>
      have ho : ty.parts? = some [item] := by rw [parts?, hp]
      rw [unwrapOptional_of_present? hp] at h
      rw [← ih item (mem_children_of_present? hp) h]
      refine ⟨fun enters => ?_, .part ho List.mem_cons_self⟩
      cases enters with
      | part ho' hm inner =>
        rw [ho] at ho'
        cases ho'
        rwa [List.mem_singleton.mp hm] at inner
      | reference ho' _ =>
        rw [ho] at ho'
        cases ho'
    | none =>
      rw [unwrapOptional_eq, hp] at h
      obtain ⟨notes, const, shape⟩ := ty
      cases shape with
      | reference other =>
        cases h
        refine ⟨fun enters => ?_, fun same => .reference rfl (List.mem_singleton.mpr same)⟩
        exact List.mem_singleton.mp enters.mem_targets
      | leaf _ => cases h
      | object _ _ => cases h
      | array _ _ => cases h
      | tuple _ _ => cases h
      | union _ _ _ => cases h
      | intersection _ => cases h

end Ty

namespace Documentation

/-! ## What is under a type -/

section Under

variable {doc : Documentation} {root path : String} {next : String → Ty → List Block}
variable {default : Option Json}

theorem underPresent?_eq (items : List Ty) :
    doc.underPresent? root next path items =
      (items.find? fun item => !item.isNull).map fun item =>
        doc.under root next path item.default? item := by
  induction items with
  | nil => rfl
  | cons item rest ih =>
    rw [underPresent?, List.find?_cons]
    cases item.isNull with
    | true => exact ih
    | false => rfl

/-- Under an option is what is under its member, with the default of that. -/
theorem under_option {ty item : Ty} (h : ty.present? = some item) :
    doc.under root next path default ty = doc.under root next path item.default? item := by
  obtain ⟨notes, const, shape⟩ := ty
  cases shape with
  | union form items nullable =>
    rw [Ty.present?] at h
    dsimp only at h
    split at h
    · rename_i optional
      simp only [under, if_pos optional, underPresent?_eq, h, Option.map_some]
    · cases h
  | leaf _ => cases h
  | reference _ => cases h
  | object _ _ => cases h
  | array _ _ => cases h
  | tuple _ _ => cases h
  | intersection _ => cases h

/-- Under a union of constants that is no option are its values. -/
theorem under_enum {notes : Annotations} {const : Option Json} {items : List Ty} {nullable : Bool}
    (h : Ty.present? ⟨notes, const, .union .enum items nullable⟩ = none) :
    doc.under root next path default ⟨notes, const, .union .enum items nullable⟩ =
      doc.underValues root next path items := by
  rw [Ty.present?] at h
  dsimp only at h
  split at h
  · rename_i optional
    simp only [under, if_pos optional, underPresent?_eq, h, Option.map_none]
  · rename_i other
    simp only [under, if_neg other]

/-- Of any other union that is no option the references are followed. -/
theorem under_oneOf {notes : Annotations} {const : Option Json} {items : List Ty}
    {nullable : Bool} (h : Ty.present? ⟨notes, const, .union .oneOf items nullable⟩ = none) :
    doc.under root next path default ⟨notes, const, .union .oneOf items nullable⟩ =
      doc.followed (next path) (Ty.references ⟨notes, const, .union .oneOf items nullable⟩) := by
  rw [Ty.present?] at h
  dsimp only at h
  split at h
  · rename_i optional
    simp only [under, if_pos optional, underPresent?_eq, h, Option.map_none]
  · rename_i other
    simp only [under, if_neg other]

/-- Of a type that is not taken apart the references are followed. -/
theorem under_plain {ty : Ty} (h : ty.parts? = none) :
    doc.under root next path default ty = doc.followed (next path) ty.references := by
  cases ty.layout with
  | option _ ho =>
    rw [ho] at h
    cases h
  | group ho =>
    rw [ho] at h
    cases h
  | values _ ho =>
    rw [ho] at h
    cases h
  | plain hp ho =>
    obtain ⟨notes, const, shape⟩ := ty
    cases shape with
    | object members rest =>
      cases members with
      | nil => rfl
      | cons member members => cases ho
    | union form items nullable =>
      cases form with
      | oneOf => exact under_oneOf hp
      | enum =>
        rw [Ty.parts?, hp] at ho
        cases ho
    | leaf _ => rfl
    | reference _ => rfl
    | array _ _ => rfl
    | tuple _ _ => rfl
    | intersection _ => rfl

/-- What is under a type is a matter of the shape and the default. -/
theorem under_of_shape {a b : Ty} (h : a.shape = b.shape) :
    doc.under root next path default a = doc.under root next path default b := by
  obtain ⟨notes, const, shape⟩ := a
  obtain ⟨notes', const', shape'⟩ := b
  cases h
  cases shape with
  | object members rest =>
    cases members with
    | nil => cases rest <;> rfl
    | cons member members => rfl
  | tuple items tail => cases tail <;> rfl
  | _ => rfl

end Under

/-- The type of a property as it is documented: its target stands in for it if it may be inlined,
and the default is the one that the object gives. -/
def shown (session : Session) (given : Option Json) (child : Ty) : Ty :=
  withGiven given ((standIn? session child).getD child)

/-- What stands in for a property is the target of a reference that may be inlined, with the default
of the property before its own. -/
theorem exists_of_standIn? {session : Session} {child ty : Ty}
    (h : standIn? session child = some ty) :
    ∃ target found, child.unwrapOptional.target? = some target ∧
      session.canInline target = true ∧ (session.get? target).getD .any = found ∧
      ty.shape = found.shape ∧ ty.id = found.id ∧ ty.const = found.const ∧
      ty.default? = child.default?.or found.default? := by
  rw [standIn?] at h
  split at h
  · cases h
  · rename_i target ht
    split at h
    · rename_i inline
      cases h
      exact ⟨target, _, ht, inline, rfl, rfl, rfl, rfl, rfl⟩
    · cases h

theorem of_standIn? {session : Session} {child ty : Ty} (h : standIn? session child = some ty) :
    ∃ target ∈ child.targets, session.canInline target = true ∧
      ty.shape = ((session.get? target).getD .any).shape ∧
      ty.id = ((session.get? target).getD .any).id := by
  obtain ⟨target, _, ht, inline, rfl, shape, id, -⟩ := exists_of_standIn? h
  have enters := (Ty.enters_iff_of_unwrapOptional ht).mpr rfl
  exact ⟨target, enters.mem_targets, inline, shape, id⟩

/-! ## Members and values -/

section Members

variable (doc : Documentation) (root : String) (next : String → Ty → List Block) (path : String)

/-- What is under a property: its target stands in for it, or it is gone into itself. -/
def memberInner (given : Option Json) (child : Ty) : List Block :=
  match standIn? doc.session child with
  | some _ => next path (shown doc.session given child)
  | none => doc.under root next path (shown doc.session given child).default? child

/-- The entry of a property below a path, given the default that its object gives it. -/
def memberBlocks (given : Option Json) (name : String) (child : Ty) : List Block :=
  entryBlocks doc ⟨root, Address.join path name⟩
    (innerEntry doc.session name (shown doc.session given child)) (shown doc.session given child)
    fun _ => doc.memberInner root next (Address.join path name) given child

theorem underMembers_eq (defaults : Option (Table String Json)) (members : List (String × Ty)) :
    doc.underMembers root next path defaults members = members.flatMap fun member =>
      doc.memberBlocks root next path (defaults.bind fun table => table.get? member.1) member.1
        member.2 := by
  induction members with
  | nil => rfl
  | cons member rest ih =>
    obtain ⟨name, child⟩ := member
    rw [underMembers, ih, List.flatMap_cons]
    refine congrArg (· ++ _) ?_
    cases hs : standIn? doc.session child <;>
      simp only [memberBlocks, memberInner, shown, hs, Option.getD_none, Option.getD_some]

/-- The entry of a value below a path. -/
def valueBlocks (item : Ty) : List Block :=
  entryBlocks doc ⟨root, Address.join path (doc.session.print item false)⟩
    { kind := .value, name := doc.session.print item false } item
    fun _ => doc.under root next (Address.join path (doc.session.print item false)) item.default? item

theorem underValues_eq (items : List Ty) :
    doc.underValues root next path items = items.flatMap (doc.valueBlocks root next path) := by
  induction items with
  | nil => rfl
  | cons item rest ih => rw [underValues, ih, List.flatMap_cons, valueBlocks]

end Members

/-! ## Two walks -/

/-- Two walks that leave out different entries: the types that are met are of one kind, the
targets that are gone into are of another, and the blocks that are made below a path are related. -/
structure Simulation (doc : Documentation) (excluded : List Address) (root : String)
    (T N : Ty → Prop) (R : String → List Block → List Block → Prop) : Prop where
  part : ∀ {ty part : Ty} {parts : List Ty}, T ty → ty.parts? = some parts → part ∈ parts → T part
  target : ∀ {ty : Ty} {target : String}, T ty → ty.Enters target →
    doc.session.canInline target = true → N ((doc.session.get? target).getD .any)
  of_shape : ∀ {a b : Ty}, N a → b.shape = a.shape → N b
  nil : ∀ {path : String}, R path [] []
  append : ∀ {path : String} {blocks blocks' others others' : List Block}, R path blocks blocks' →
    R path others others' → R path (blocks ++ others) (blocks' ++ others')
  property : ∀ {ty child : Ty} {name : String} {inner inner' : List Block} (path : String)
    (given : Option Json), T ty → (name, child) ∈ ty.properties →
    R (Address.join path name) inner inner' →
    R path (entryBlocks doc ⟨root, Address.join path name⟩
        (innerEntry doc.session name (shown doc.session given child))
        (shown doc.session given child) fun _ => inner)
      (entryBlocks { doc with excluded } ⟨root, Address.join path name⟩
        (innerEntry doc.session name (shown doc.session given child))
        (shown doc.session given child) fun _ => inner')
  value : ∀ {ty item : Ty} {inner inner' : List Block} (path : String), T ty →
    item ∈ ty.children → R (Address.join path (doc.session.print item false)) inner inner' →
    R path (entryBlocks doc ⟨root, Address.join path (doc.session.print item false)⟩
        { kind := .value, name := doc.session.print item false } item fun _ => inner)
      (entryBlocks { doc with excluded } ⟨root, Address.join path (doc.session.print item false)⟩
        { kind := .value, name := doc.session.print item false } item fun _ => inner')

namespace Simulation

variable {doc : Documentation} {excluded : List Address} {root : String} {T N : Ty → Prop}
variable {R : String → List Block → List Block → Prop} (w : Simulation doc excluded root T N R)
variable {next next' : String → Ty → List Block}

include w

theorem flatMap {α : Type} (path : String) {items : List α} {f g : α → List Block}
    (h : ∀ item ∈ items, R path (f item) (g item)) :
    R path (items.flatMap f) (items.flatMap g) := by
  induction items with
  | nil => exact w.nil
  | cons item rest ih =>
    rw [List.forall_mem_cons] at h
    rw [List.flatMap_cons, List.flatMap_cons]
    exact w.append h.1 (ih h.2)

/-- What stands in for a property that is met is gone into. -/
theorem standIn {child ty : Ty} (h : standIn? doc.session child = some ty) (hc : T child) :
    N ty := by
  obtain ⟨target, _, ht, inline, rfl, shape, -⟩ := exists_of_standIn? h
  exact w.of_shape (w.target hc ((Ty.enters_iff_of_unwrapOptional ht).mpr rfl) inline) shape

variable (hn : ∀ path ty, N ty → R path (next path ty) (next' path ty))

include hn

/-- Following the references of a type that is not taken apart. -/
theorem followed {ty : Ty} (h : T ty) (ho : ty.parts? = none) (path : String) :
    R path (doc.followed (next path) ty.references)
      ({ doc with excluded }.followed (next' path) ty.references) := by
  refine w.flatMap path fun reference hr => ?_
  dsimp only
  split
  · exact w.nil
  · rename_i target ht
    split
    · rename_i inline
      have mem : target ∈ ty.targets := List.mem_filterMap.mpr ⟨reference, hr, ht⟩
      have met := w.target h (.reference ho mem) inline
      cases hg : doc.session.get? target with
      | none => exact w.nil
      | some found =>
        rw [hg] at met
        exact hn path found met
    · exact w.nil

/-- The entry of a property. -/
theorem memberBlocks {ty child : Ty} {name : String} (h : T ty) (path : String)
    (given : Option Json) (mem : (name, child) ∈ ty.properties) (part : T child)
    (ih : ∀ path default, R path (doc.under root next path default child)
      ({ doc with excluded }.under root next' path default child)) :
    R path (doc.memberBlocks root next path given name child)
      ({ doc with excluded }.memberBlocks root next' path given name child) := by
  refine w.property path given h mem ?_
  cases hs : standIn? doc.session child with
  | some target =>
    have met : N (shown doc.session given child) := by
      rw [shown, hs]
      exact w.of_shape (w.standIn hs part) rfl
    simp only [memberInner, hs]
    exact hn _ _ met
  | none =>
    simp only [memberInner, hs]
    exact ih _ _

/-- What is under a type. -/
theorem under (ty : Ty) : T ty → ∀ path default, R path (doc.under root next path default ty)
    ({ doc with excluded }.under root next' path default ty) := by
  induction ty using Ty.induct with
  | step ty ih =>
    intro h path default
    have parts (part : Ty) {parts : List Ty} (ho : ty.parts? = some parts) (hp : part ∈ parts) :
        ∀ path default, R path (doc.under root next path default part)
          ({ doc with excluded }.under root next' path default part) :=
      ih part (Ty.parts?_subset ho hp) (w.part h ho hp)
    cases ty.layout with
    | option hp ho =>
      rw [under_option hp, under_option hp]
      exact parts _ ho List.mem_cons_self _ _
    | group ho =>
      rw [Documentation.under, Documentation.under, underMembers_eq, underMembers_eq]
      refine w.flatMap path fun member hm => w.memberBlocks hn h path _ hm ?_ ?_
      · exact w.part h ho (List.mem_map_of_mem hm)
      · exact parts _ ho (List.mem_map_of_mem hm)
    | values hp ho =>
      rw [under_enum hp, under_enum hp, underValues_eq, underValues_eq]
      exact w.flatMap path fun item hi => w.value path h hi (parts item ho hi _ _)
    | plain _ ho =>
      rw [under_plain ho, under_plain ho]
      exact w.followed hn h ho path

variable (into : ∀ ty, N ty → T ty)

include into

omit hn in
/-- What is under a type that is gone into, with targets inside each other. -/
theorem underWithin (room : Nat) :
    ∀ path ty, N ty → R path (doc.underWithin root room path ty)
      ({ doc with excluded }.underWithin root room path ty) := by
  induction room with
  | zero => exact fun _ _ _ => w.nil
  | succ room ih => exact fun path ty h => w.under ih ty (into ty h) path _

omit hn in
/-- What is under a type that is gone into. -/
theorem underAll (path : String) {ty : Ty} (h : N ty) :
    R path (doc.underAll root path ty) ({ doc with excluded }.underAll root path ty) :=
  w.underWithin into _ path ty h

end Simulation

/-! ## One walk -/

/-- A walk meets types of some kind and makes blocks of some kind. -/
structure Walk (doc : Documentation) (root : String) (T : Ty → Prop) (P : List Block → Prop) :
    Prop where
  child : ∀ {ty child : Ty}, T ty → child ∈ ty.children → T child
  of_shape : ∀ {a b : Ty}, T a → b.shape = a.shape → T b
  target : ∀ {ty : Ty} {target : String}, T ty → target ∈ ty.targets →
    doc.session.canInline target = true → T ((doc.session.get? target).getD .any)
  nil : P []
  append : ∀ {blocks others : List Block}, P blocks → P others → P (blocks ++ others)
  property : ∀ {ty child : Ty} {name : String} {inner : List Block} (path : String)
    (given : Option Json), T ty → (name, child) ∈ ty.properties → P inner →
    P (entryBlocks doc ⟨root, Address.join path name⟩
      (innerEntry doc.session name (shown doc.session given child))
      (shown doc.session given child) fun _ => inner)
  value : ∀ {ty item : Ty} {inner : List Block} (path : String), T ty → item ∈ ty.children →
    P inner →
    P (entryBlocks doc ⟨root, Address.join path (doc.session.print item false)⟩
      { kind := .value, name := doc.session.print item false } item fun _ => inner)

namespace Walk

variable {doc : Documentation} {root : String} {T : Ty → Prop} {P : List Block → Prop}
variable (w : Walk doc root T P)

include w

/-- A walk beside itself. -/
theorem simulation : Simulation doc doc.excluded root T T fun _ blocks _ => P blocks where
  part h ho hp := w.child h (Ty.parts?_subset ho hp)
  target h enters inline := w.target h enters.mem_targets inline
  of_shape := w.of_shape
  nil := w.nil
  append := w.append
  property := w.property
  value := w.value

theorem flatMap {α : Type} {items : List α} {f : α → List Block} (h : ∀ item ∈ items, P (f item)) :
    P (items.flatMap f) := w.simulation.flatMap "" (g := f) h

/-- What is under a type, with targets inside each other. -/
theorem underWithin (room : Nat) (path : String) (ty : Ty) (h : T ty) :
    P (doc.underWithin root room path ty) :=
  w.simulation.underWithin (fun _ => id) room path ty h

/-- What is under a type. -/
theorem underAll (path : String) {ty : Ty} (h : T ty) : P (doc.underAll root path ty) :=
  w.underWithin _ path ty h

/-- What is documented for a property of a type that is met is met too. -/
theorem shown {ty child : Ty} {name : String} (h : T ty) (hc : (name, child) ∈ ty.properties)
    (given : Option Json) : T (Documentation.shown doc.session given child) := by
  have met : T child := w.child h (Ty.mem_children.mpr (.inl ⟨_, hc, rfl⟩))
  cases hi : standIn? doc.session child with
  | none => exact w.of_shape met (by rw [Documentation.shown, hi]; rfl)
  | some standIn =>
    exact w.of_shape (w.simulation.standIn hi met) (by rw [Documentation.shown, hi]; rfl)

end Walk

/-! ## Whole documentations -/

section Blocks

variable {doc : Documentation}

/-- The types that come last are documented as types. -/
theorem exists_of_mem_remaining {types : List (String × Ty)} :
    ∀ {done : List String} {blocks : List Block}, blocks ∈ doc.remaining done types →
      ∃ entry ∈ types, blocks = doc.typeBlocks entry.2 := by
  induction types with
  | nil => exact fun h => nomatch h
  | cons entry rest ih =>
    intro done blocks h
    rw [remaining] at h
    split at h
    · obtain ⟨later, hl, hb⟩ := ih h
      exact ⟨later, List.mem_cons_of_mem _ hl, hb⟩
    · rcases List.mem_cons.mp h with rfl | h
      · exact ⟨entry, List.mem_cons_self, rfl⟩
      · obtain ⟨later, hl, hb⟩ := ih h
        exact ⟨later, List.mem_cons_of_mem _ hl, hb⟩

/-- A documentation is put together from titles and the blocks of types. -/
theorem of_typeBlocks {P : List Block → Prop} (nil : P [])
    (append : ∀ {blocks others : List Block}, P blocks → P others → P (blocks ++ others))
    (titled : ∀ text, P [.title text]) {root : Ty} (own : P (doc.typeBlocks root))
    (others : ∀ entry ∈ doc.session.loaded, P (doc.typeBlocks entry.2)) (title : Option String) :
    P (doc.blocks title root) := by
  have flatten {sections : List (List Block)} (h : ∀ blocks ∈ sections, P blocks) :
      P sections.flatten := by
    induction sections with
    | nil => exact nil
    | cons blocks rest ih =>
      rw [List.forall_mem_cons] at h
      exact append h.1 (ih h.2)
  have last (done : List String) : P (doc.typesSection done) := by
    have types : P (doc.remaining done doc.session.loaded).flatten := by
      refine flatten fun blocks hb => ?_
      obtain ⟨entry, he, rfl⟩ := exists_of_mem_remaining hb
      exact others entry he
    rw [typesSection]
    split
    · exact nil
    · exact append (titled typesTitle) types
  have first : P (title.map Block.title).toList := by
    cases title with
    | none => exact nil
    | some text => exact titled text
  rw [blocks]
  refine append (append first own) ?_
  split
  · exact last _
  · exact nil

end Blocks

end Documentation

end SchemaDoc
