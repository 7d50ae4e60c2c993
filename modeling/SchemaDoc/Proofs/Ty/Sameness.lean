import SchemaDoc.Proofs.Json.Equality
import SchemaDoc.Proofs.Ty.NormalForm

/-!
# Types that are the same

Whether two types are the same is told by their constants, the kinds of their shapes and their
children, `Ty.same_iff`.  As with values it is transitive as it stands, and reflexive and symmetric
for types in which no object has a key twice, `Ty.KeysOnce`.  Types that are the same have one
digest, so a set that finds types by their digests has no two types that are the same.

Nothing that is said about a type counts.  With other annotations at any depth, `Ty.reannotate`, it
compares as before and has its old digest, so two types with equal bare types, `Ty.bare`, cannot be
told apart.  `Ty.same_equivalence` has all of that.
-/

namespace SchemaDoc

namespace Shape

variable {α β : Type}

/-! ## One layer of a type -/

/-- A shape with other parts. -/
def map (f : α → β) : Shape α → Shape β
  | .leaf kind => .leaf kind
  | .reference target => .reference target
  | .object members rest => .object (members.map fun member => (member.1, f member.2)) (rest.map f)
  | .array unique item => .array unique (f item)
  | .tuple items tail => .tuple (items.map f) (tail.map f)
  | .union form items nullable => .union form (items.map f) nullable
  | .intersection items => .intersection (items.map f)

theorem map_congr {f g : α → β} {s : Shape α} (equal : ∀ part ∈ s.parts, f part = g part) :
    s.map f = s.map g := by
  cases s with
  | leaf kind => rfl
  | reference target => rfl
  | object members rest =>
    rw [parts, List.forall_mem_append, List.forall_mem_map] at equal
    have mapped : members.map (fun member => (member.1, f member.2)) =
        members.map fun member => (member.1, g member.2) :=
      List.map_congr_left fun member hm => by rw [equal.1 member hm]
    rw [map, map, mapped, Option.map_congr fun ty ht => equal.2 ty (Option.mem_toList.mpr ht)]
  | array unique item => rw [map, map, equal item List.mem_cons_self]
  | tuple items tail =>
    rw [parts, List.forall_mem_append] at equal
    rw [map, map, List.map_congr_left equal.1,
      Option.map_congr fun ty ht => equal.2 ty (Option.mem_toList.mpr ht)]
  | union form items nullable =>
    rw [parts] at equal
    rw [map, map, List.map_congr_left equal]
  | intersection items =>
    rw [parts] at equal
    rw [map, map, List.map_congr_left equal]

/-- An object has each key once. -/
def KeysOnce : Shape α → Prop
  | .object members _ => (Table.keys members).Nodup
  | _ => True

/-- Two shapes are of one kind, and their parts are related: key by key, and else position by
position. -/
inductive Alike (R : α → β → Prop) : Shape α → Shape β → Prop where
  | leaf (kind : Leaf) : Alike R (.leaf kind) (.leaf kind)
  | reference (target : String) : Alike R (.reference target) (.reference target)
  | object {members : Table String α} {others : Table String β} {rest : Option α}
      {rest' : Option β} : members.length = others.length → Table.Agrees R members others →
      List.Forall₂ R rest.toList rest'.toList →
      Alike R (.object members rest) (.object others rest')
  | array (unique : Bool) {item : α} {other : β} : R item other →
      Alike R (.array unique item) (.array unique other)
  | tuple {items : List α} {others : List β} {tail : Option α} {tail' : Option β} :
      List.Forall₂ R items others → List.Forall₂ R tail.toList tail'.toList →
      Alike R (.tuple items tail) (.tuple others tail')
  | union (form : UnionForm) {items : List α} {others : List β} (nullable : Bool) :
      List.Forall₂ R items others →
      Alike R (.union form items nullable) (.union form others nullable)
  | intersection {items : List α} {others : List β} : List.Forall₂ R items others →
      Alike R (.intersection items) (.intersection others)

namespace Alike

theorem refl {R : α → α → Prop} {s : Shape α} (keys : s.KeysOnce)
    (h : ∀ part ∈ s.parts, R part part) : s.Alike R s := by
  cases s with
  | leaf kind => exact .leaf kind
  | reference target => exact .reference target
  | object members rest =>
    rw [parts, List.forall_mem_append, List.forall_mem_map] at h
    exact .object rfl (.refl keys h.1) (List.forall₂_same.mpr h.2)
  | array unique item => exact .array unique (h item List.mem_cons_self)
  | tuple items tail =>
    rw [parts, List.forall_mem_append] at h
    exact .tuple (List.forall₂_same.mpr h.1) (List.forall₂_same.mpr h.2)
  | union form items nullable => exact .union form nullable (List.forall₂_same.mpr h)
  | intersection items => exact .intersection (List.forall₂_same.mpr h)

variable {R : α → β → Prop} {s : Shape α} {t : Shape β}

theorem symm {S : β → α → Prop} (h : s.Alike R t) (keys : s.KeysOnce)
    (flip : ∀ part ∈ s.parts, ∀ other, R part other → S other part) : t.Alike S s := by
  cases h with
  | leaf kind => exact .leaf kind
  | reference target => exact .reference target
  | object length members rest =>
    rw [parts, List.forall_mem_append, List.forall_mem_map] at flip
    exact .object length.symm (members.symm keys length flip.1) (forall₂_symm rest flip.2)
  | array unique item => exact .array unique (flip _ List.mem_cons_self _ item)
  | tuple items tail =>
    rw [parts, List.forall_mem_append] at flip
    exact .tuple (forall₂_symm items flip.1) (forall₂_symm tail flip.2)
  | union form nullable items => exact .union form nullable (forall₂_symm items flip)
  | intersection items => exact .intersection (forall₂_symm items flip)

theorem trans {γ : Type} {S : β → γ → Prop} {T : α → γ → Prop} {u : Shape γ} (h : s.Alike R t)
    (h' : t.Alike S u) (compose : ∀ part ∈ s.parts, ∀ b c, R part b → S b c → T part c) :
    s.Alike T u := by
  cases h with
  | leaf kind =>
    cases h' with
    | leaf => exact .leaf kind
  | reference target =>
    cases h' with
    | reference => exact .reference target
  | object length members rest =>
    rw [parts, List.forall_mem_append, List.forall_mem_map] at compose
    cases h' with
    | object length' members' rest' =>
      exact .object (length.trans length') (members.trans members' compose.1)
        (forall₂_trans rest rest' compose.2)
  | array unique item =>
    cases h' with
    | array _ item' => exact .array unique (compose _ List.mem_cons_self _ _ item item')
  | tuple items tail =>
    rw [parts, List.forall_mem_append] at compose
    cases h' with
    | tuple items' tail' =>
      exact .tuple (forall₂_trans items items' compose.1) (forall₂_trans tail tail' compose.2)
  | union form nullable items =>
    cases h' with
    | union _ _ items' => exact .union form nullable (forall₂_trans items items' compose)
  | intersection items =>
    cases h' with
    | intersection items' => exact .intersection (forall₂_trans items items' compose)

end Alike

/-- Shapes with other parts are alike as the old ones are, if the parts are related as the old ones
are. -/
theorem alike_map {γ δ : Type} {R : γ → δ → Prop} {S : α → β → Prop} {f : α → γ} {g : β → δ}
    {s : Shape α} {t : Shape β}
    (h : ∀ part ∈ s.parts, ∀ other, R (f part) (g other) ↔ S part other) :
    (s.map f).Alike R (t.map g) ↔ s.Alike S t := by
  have list {items : List α} {others : List β} (sub : items ⊆ s.parts) :
      List.Forall₂ R (items.map f) (others.map g) ↔ List.Forall₂ S items others := by
    rw [List.forall₂_map_left_iff, List.forall₂_map_right_iff]
    exact forall₂_congr_of_mem fun item hi => h item (sub hi)
  have option {item : Option α} {other : Option β} (sub : item.toList ⊆ s.parts) :
      List.Forall₂ R (item.map f).toList (other.map g).toList ↔
        List.Forall₂ S item.toList other.toList := by
    rw [Option.toList_map, Option.toList_map]
    exact list sub
  constructor
  · intro alike
    cases s with
    | leaf kind =>
      cases t with
      | leaf _ =>
        cases alike
        exact .leaf kind
      | _ => cases alike
    | reference target =>
      cases t with
      | reference _ =>
        cases alike
        exact .reference target
      | _ => cases alike
    | object members rest =>
      cases t with
      | object others rest' =>
        cases alike with
        | object length agrees last =>
          rw [List.length_map, List.length_map] at length
          rw [parts, List.forall_mem_append, List.forall_mem_map] at h
          refine .object length ((Table.agrees_map h.1).mp agrees) ?_
          exact (option (List.subset_append_right _ _)).mp last
      | _ => cases alike
    | array unique item =>
      cases t with
      | array _ other =>
        cases alike with
        | array _ related => exact .array unique ((h item List.mem_cons_self other).mp related)
      | _ => cases alike
    | tuple items tail =>
      cases t with
      | tuple others tail' =>
        cases alike with
        | tuple related last =>
          exact .tuple ((list (List.subset_append_left _ _)).mp related)
            ((option (List.subset_append_right _ _)).mp last)
      | _ => cases alike
    | union form items nullable =>
      cases t with
      | union _ others _ =>
        cases alike with
        | union _ _ related => exact .union form nullable ((list (List.Subset.refl _)).mp related)
      | _ => cases alike
    | intersection items =>
      cases t with
      | intersection others =>
        cases alike with
        | intersection related => exact .intersection ((list (List.Subset.refl _)).mp related)
      | _ => cases alike
  · intro alike
    cases alike with
    | leaf kind => exact .leaf kind
    | reference target => exact .reference target
    | object length agrees last =>
      rw [parts, List.forall_mem_append, List.forall_mem_map] at h
      refine .object (by rw [List.length_map, List.length_map, length])
        ((Table.agrees_map h.1).mpr agrees) ?_
      exact (option (List.subset_append_right _ _)).mpr last
    | array unique related => exact .array unique ((h _ List.mem_cons_self _).mpr related)
    | tuple related last =>
      exact .tuple ((list (List.subset_append_left _ _)).mpr related)
        ((option (List.subset_append_right _ _)).mpr last)
    | union form nullable related =>
      exact .union form nullable ((list (List.Subset.refl _)).mpr related)
    | intersection related => exact .intersection ((list (List.Subset.refl _)).mpr related)

/-- The digest of a shape, after its kind, given those of its parts. -/
def digestWith (digest : α → List Json.Mark) : Shape α → List Json.Mark
  | .leaf _ => []
  | .reference target => [.text target]
  | .object members rest =>
    Json.joinByKey (members.map fun member => (member.1, digest member.2)) ++
      rest.toList.flatMap digest
  | .array _ item => digest item
  | .tuple items tail => .size items.length :: items.flatMap digest ++ tail.toList.flatMap digest
  | .union _ items nullable => .bool nullable :: .size items.length :: items.flatMap digest
  | .intersection items => .size items.length :: items.flatMap digest

/-- Alike shapes have one digest if related parts have one. -/
theorem Alike.digestWith_eq {R : α → β → Prop} {s : Shape α} {t : Shape β} (h : s.Alike R t)
    (keys : s.KeysOnce) {f : α → List Json.Mark} {g : β → List Json.Mark}
    (equal : ∀ part ∈ s.parts, ∀ other, R part other → f part = g other) :
    s.digestWith f = t.digestWith g := by
  cases h with
  | leaf kind => rfl
  | reference target => rfl
  | object length agrees last =>
    rw [parts, List.forall_mem_append, List.forall_mem_map] at equal
    have joined := Json.joinByKey_eq_of_perm (by rwa [Table.keys, List.map_map])
      (agrees.map_perm keys length equal.1)
    simp only [digestWith, joined, List.flatMap, map_eq_of_forall₂ last equal.2]
  | array unique related => exact equal _ List.mem_cons_self _ related
  | tuple related last =>
    rw [parts, List.forall_mem_append] at equal
    simp only [digestWith, List.flatMap, map_eq_of_forall₂ related equal.1,
      map_eq_of_forall₂ last equal.2, related.length_eq]
  | union form nullable related =>
    simp only [digestWith, List.flatMap, map_eq_of_forall₂ related equal, related.length_eq]
  | intersection related =>
    simp only [digestWith, List.flatMap, map_eq_of_forall₂ related equal, related.length_eq]

theorem digestWith_map (digest : β → List Json.Mark) (f : α → β) (s : Shape α) :
    (s.map f).digestWith digest = s.digestWith fun part => digest (f part) := by
  cases s <;> simp [map, digestWith, Option.toList_map, List.flatMap_map, Function.comp_def]

theorem digestWith_congr {f g : α → List Json.Mark} {s : Shape α}
    (equal : ∀ part ∈ s.parts, f part = g part) : s.digestWith f = s.digestWith g := by
  have digests (f : α → List Json.Mark) : (s.map f).digestWith id = s.digestWith f :=
    digestWith_map id f s
  rw [← digests f, map_congr equal, digests g]

end Shape

namespace Ty

/-! ## Comparing types -/

theorem sameItems_iff {items others : List Ty} :
    sameItems items others = true ↔ List.Forall₂ (fun a b => a.same b = true) items others := by
  induction items generalizing others with
  | nil => cases others <;> simp [sameItems]
  | cons item rest ih => cases others <;> simp [sameItems, ih]

theorem sameMembers_iff {members others : Table String Ty} :
    sameMembers members others = true ↔
      Table.Agrees (fun a b => a.same b = true) members others := by
  induction members with
  | nil => exact iff_of_true (by rw [sameMembers]) nofun
  | cons member rest ih =>
    obtain ⟨name, ty⟩ := member
    rw [sameMembers, Bool.and_eq_true, ih, Table.agrees_cons]
    refine and_congr_left fun _ => ?_
    cases Table.get? others name <;> simp

theorem sameOption_iff {value other : Option Json} :
    Json.sameOption value other = true ↔
      List.Forall₂ (fun a b => a.same b = true) value.toList other.toList := by
  cases value <;> cases other <;> simp [Json.sameOption]

/-- Two types are the same if their constants and their children are and their shapes are alike. -/
theorem same_iff {a b : Ty} :
    a.same b = true ↔
      List.Forall₂ (fun a b => a.same b = true) a.const.toList b.const.toList ∧
        a.shape.Alike (fun a b => a.same b = true) b.shape := by
  obtain ⟨notes, const, shape⟩ := a
  obtain ⟨notes', const', shape'⟩ := b
  conv_lhs => unfold same
  dsimp only
  rw [Bool.and_eq_true, sameOption_iff]
  refine and_congr_right fun _ => ⟨fun h => ?_, fun h => ?_⟩
  · split at h
    · exact eq_of_beq h ▸ .leaf _
    · exact eq_of_beq h ▸ .reference _
    · rename_i members rest others rest'
      simp only [Bool.and_eq_true, beq_iff_eq, sameMembers_iff] at h
      obtain ⟨⟨length, agrees⟩, last⟩ := h
      refine .object length agrees ?_
      cases rest <;> cases rest' <;> simp_all
    · rw [Bool.and_eq_true, beq_iff_eq] at h
      exact h.1 ▸ .array _ h.2
    · rename_i items tail others tail'
      rw [Bool.and_eq_true, sameItems_iff] at h
      refine .tuple h.1 ?_
      have last := h.2
      cases tail <;> cases tail' <;> simp_all
    · simp only [Bool.and_eq_true, beq_iff_eq, sameItems_iff] at h
      obtain ⟨⟨rfl, rfl⟩, items⟩ := h
      exact .union _ _ items
    · exact .intersection (sameItems_iff.mp h)
    · cases h
  · cases h with
    | leaf kind => exact beq_self_eq_true kind
    | reference target => exact beq_self_eq_true target
    | @object members others rest rest' length agrees last =>
      simp only [Bool.and_eq_true, beq_iff_eq, sameMembers_iff]
      refine ⟨⟨length, agrees⟩, ?_⟩
      cases rest <;> cases rest' <;> simp_all
    | array unique related =>
      rw [Bool.and_eq_true]
      exact ⟨beq_self_eq_true unique, related⟩
    | @tuple items others tail tail' related last =>
      rw [Bool.and_eq_true, sameItems_iff]
      refine ⟨related, ?_⟩
      cases tail <;> cases tail' <;> simp_all
    | union form nullable related =>
      simp only [Bool.and_eq_true, beq_self_eq_true, sameItems_iff, true_and]
      exact related
    | intersection related => exact sameItems_iff.mpr related

/-! ## Sameness is an equivalence -/

/-- Neither an object nor the constant of a type has a key twice. -/
def KeysOnce (ty : Ty) : Prop :=
  ty.shape.KeysOnce ∧ ∀ value ∈ ty.const.toList, value.uniqueKeys = true

theorem same_refl {a : Ty} : a.Everywhere KeysOnce → a.same a = true := by
  induction a using induct with
  | step a ih =>
    intro keys
    refine same_iff.mpr ⟨List.forall₂_same.mpr fun value hv => ?_, ?_⟩
    · exact Json.same_refl (keys.here.2 value hv)
    · exact .refl keys.here.1 fun child hc => ih child hc (keys.inside child hc)

theorem same_symm {a : Ty} : ∀ {b : Ty}, a.Everywhere KeysOnce → a.same b = true →
    b.same a = true := by
  induction a using induct with
  | step a ih =>
    intro b keys h
    obtain ⟨const, shape⟩ := same_iff.mp h
    refine same_iff.mpr ⟨forall₂_symm const fun value hv _ => ?_, ?_⟩
    · exact Json.same_symm (keys.here.2 value hv)
    · exact shape.symm keys.here.1 fun child hc _ => ih child hc (keys.inside child hc)

theorem same_trans {a : Ty} : ∀ {b c : Ty}, a.same b = true → b.same c = true →
    a.same c = true := by
  induction a using induct with
  | step a ih =>
    intro b c h h'
    obtain ⟨const, shape⟩ := same_iff.mp h
    obtain ⟨const', shape'⟩ := same_iff.mp h'
    refine same_iff.mpr ⟨forall₂_trans const const' fun _ _ _ _ => Json.same_trans, ?_⟩
    exact shape.trans shape' fun child hc _ _ => ih child hc

/-! ## Types that are the same have one digest -/

theorem digestItems_eq (items : List Ty) : digestItems items = items.flatMap digest := by
  induction items with
  | nil => rw [digestItems, List.flatMap_nil]
  | cons item rest ih => rw [digestItems, ih, List.flatMap_cons]

theorem digestMembers_eq (members : List (String × Ty)) :
    digestMembers members = members.map fun member => (member.1, member.2.digest) := by
  induction members with
  | nil => rw [digestMembers, List.map_nil]
  | cons member rest ih => rw [digestMembers, ih, List.map_cons]

/-- A digest is the kind of the shape, the constant and the parts. -/
theorem digest_eq (ty : Ty) :
    ty.digest =
      .kind (shapeIndex ty.shape) :: (constDigest ty.const ++ ty.shape.digestWith digest) := by
  obtain ⟨notes, const, shape⟩ := ty
  cases shape with
  | object members rest => cases rest <;> simp [digest, Shape.digestWith, digestMembers_eq]
  | tuple items tail => cases tail <;> simp [digest, Shape.digestWith, digestItems_eq]
  | _ => simp only [digest, Shape.digestWith, digestItems_eq]

/-- Alike shapes have one place among the shapes. -/
theorem shapeIndex_eq_of_alike {R : Ty → Ty → Prop} {s t : Shape Ty} (h : s.Alike R t) :
    shapeIndex s = shapeIndex t := by
  cases h with
  | union form nullable _ => cases form <;> rfl
  | _ => rfl

theorem constDigest_eq_of_same {value other : Option Json}
    (keys : ∀ json ∈ value.toList, json.uniqueKeys = true)
    (h : List.Forall₂ (fun a b => a.same b = true) value.toList other.toList) :
    constDigest value = constDigest other := by
  cases value with
  | none =>
    cases other with
    | none => rfl
    | some _ => cases h
  | some json =>
    cases other with
    | none => cases h
    | some _ =>
      cases h with
      | cons same _ =>
        rw [constDigest, constDigest,
          Json.digest_eq_of_same (keys json List.mem_cons_self) same]

theorem digest_eq_of_same {a : Ty} : ∀ {b : Ty}, a.Everywhere KeysOnce → a.same b = true →
    a.digest = b.digest := by
  induction a using induct with
  | step a ih =>
    intro b keys h
    obtain ⟨const, shape⟩ := same_iff.mp h
    rw [digest_eq, digest_eq, shapeIndex_eq_of_alike shape,
      constDigest_eq_of_same keys.here.2 const, shape.digestWith_eq keys.here.1 ?_]
    exact fun child hc _ => ih child hc (keys.inside child hc)

/-! ## What is said about a type -/

mutual

/-- A type with other annotations, at any depth. -/
def reannotate (change : Annotations → Annotations) : Ty → Ty
  | ⟨notes, const, shape⟩ =>
    { annotations := change notes
      const
      shape :=
        match shape with
        | .leaf kind => .leaf kind
        | .reference target => .reference target
        | .object members rest =>
          .object (reannotateMembers change members)
            (match rest with
              | some ty => some (ty.reannotate change)
              | none => none)
        | .array unique item => .array unique (item.reannotate change)
        | .tuple items tail =>
          .tuple (reannotateItems change items)
            (match tail with
              | some ty => some (ty.reannotate change)
              | none => none)
        | .union form items nullable => .union form (reannotateItems change items) nullable
        | .intersection items => .intersection (reannotateItems change items) }
termination_by structural ty => ty

/-- Some members whose types have other annotations. -/
def reannotateMembers (change : Annotations → Annotations) : List (String × Ty) → List (String × Ty)
  | [] => []
  | (name, ty) :: rest => (name, ty.reannotate change) :: reannotateMembers change rest
termination_by structural members => members

/-- Some types with other annotations. -/
def reannotateItems (change : Annotations → Annotations) : List Ty → List Ty
  | [] => []
  | ty :: rest => ty.reannotate change :: reannotateItems change rest
termination_by structural items => items

end

/-- A type without annotations, at any depth. -/
def bare : Ty → Ty := reannotate fun _ => {}

section Reannotate

variable (change : Annotations → Annotations)

theorem reannotateMembers_eq (members : List (String × Ty)) :
    reannotateMembers change members =
      members.map fun member => (member.1, member.2.reannotate change) := by
  induction members with
  | nil => rfl
  | cons member rest ih => rw [reannotateMembers, ih, List.map_cons]

theorem reannotateItems_eq (items : List Ty) :
    reannotateItems change items = items.map (reannotate change) := by
  induction items with
  | nil => rfl
  | cons item rest ih => rw [reannotateItems, ih, List.map_cons]

/-- The annotations change at a type and at those of its children. -/
theorem reannotate_mk (notes : Annotations) (const : Option Json) (shape : Shape Ty) :
    reannotate change ⟨notes, const, shape⟩ =
      ⟨change notes, const, shape.map (reannotate change)⟩ := by
  cases shape with
  | leaf => rfl
  | reference => rfl
  | object members rest =>
    cases rest <;> simp only [reannotate, reannotateMembers_eq, Shape.map, Option.map]
  | array => rfl
  | tuple items tail =>
    cases tail <;> simp only [reannotate, reannotateItems_eq, Shape.map, Option.map]
  | union form items nullable => simp only [reannotate, reannotateItems_eq, Shape.map]
  | intersection items => simp only [reannotate, reannotateItems_eq, Shape.map]

@[simp] theorem const_reannotate (ty : Ty) : (ty.reannotate change).const = ty.const := by
  cases ty
  rw [reannotate_mk]

@[simp] theorem shape_reannotate (ty : Ty) :
    (ty.reannotate change).shape = ty.shape.map (reannotate change) := by
  cases ty
  rw [reannotate_mk]

@[simp] theorem same_reannotate (a : Ty) : ∀ b : Ty,
    (a.reannotate change).same (b.reannotate change) = a.same b := by
  induction a using induct with
  | step a ih =>
    intro b
    rw [Bool.eq_iff_iff, same_iff, same_iff, const_reannotate, const_reannotate, shape_reannotate,
      shape_reannotate, Shape.alike_map fun child hc other => by rw [ih child hc other]]

theorem digest_reannotate (ty : Ty) : (ty.reannotate change).digest = ty.digest := by
  induction ty using induct with
  | step ty ih =>
    have index : shapeIndex (ty.shape.map (reannotate change)) = shapeIndex ty.shape := by
      cases ty.shape with
      | union form => cases form <;> rfl
      | _ => rfl
    rw [digest_eq, digest_eq, const_reannotate, shape_reannotate, index, Shape.digestWith_map,
      Shape.digestWith_congr ih]

end Reannotate

/-! ## The equivalence -/

/-- Sameness is an equivalence on types that have each key once, types that are the same have one
digest, and neither depends on what is said about a type at any depth. -/
theorem same_equivalence :
    (∀ a : Ty, a.Everywhere KeysOnce → a.same a = true ∧
      ∀ b : Ty, a.same b = true → b.same a = true ∧ a.digest = b.digest) ∧
    (∀ a b c : Ty, a.same b = true → b.same c = true → a.same c = true) ∧
    ∀ a a' b b' : Ty, a.bare = a'.bare → b.bare = b'.bare →
      a.same b = a'.same b' ∧ a.digest = a'.digest := by
  refine ⟨fun a keys => ⟨same_refl keys, fun b h => ?_⟩, fun _ _ _ => same_trans, ?_⟩
  · exact ⟨same_symm keys h, digest_eq_of_same keys h⟩
  · intro a a' b b' ha hb
    constructor
    · calc a.same b = a.bare.same b.bare := (same_reannotate _ a b).symm
        _ = a'.bare.same b'.bare := by rw [ha, hb]
        _ = a'.same b' := same_reannotate _ a' b'
    · calc a.digest = a.bare.digest := (digest_reannotate _ a).symm
        _ = a'.bare.digest := by rw [ha]
        _ = a'.digest := digest_reannotate _ a'

/-- An object with a string and a constant that has zero among its members: in one order or the
other, with zero of one sign or the other, and with a title or without. -/
def zeroAndText (swapped : Bool) : Ty :=
  let zero : String × Json := ("zero", .number (.double (Binary64.zero swapped)))
  let null : String × Json := ("null", .null)
  let fixed : String × Ty :=
    ("fixed", ofConst (.object (if swapped then [null, zero] else [zero, null])))
  let text : String × Ty :=
    ("text", (ofLeaf .string).annotate fun notes =>
      { notes with title := if swapped then some "Text" else none })
  ofShape (.object (if swapped then [text, fixed] else [fixed, text]) none)

/-- The two orders are one type. -/
theorem zeroAndText_same :
    (zeroAndText false).Everywhere KeysOnce ∧ (zeroAndText false).same (zeroAndText true) = true ∧
      (zeroAndText true).same (zeroAndText false) = true ∧
      (zeroAndText false).digest = (zeroAndText true).digest ∧
      (zeroAndText true).same (zeroAndText true) = true ∧
      (zeroAndText false).same (zeroAndText true).bare = true := by
  have nodup : (Table.keys [("fixed", ()), ("text", ())]).Nodup := by decide
  have keys : (zeroAndText false).Everywhere KeysOnce := by
    refine .intro ⟨nodup, nofun⟩
      (List.forall_mem_cons.mpr ⟨?fixed, List.forall_mem_singleton.mpr ?text⟩)
    case fixed => exact .intro ⟨trivial, by decide⟩ nofun
    case text => exact .intro ⟨trivial, nofun⟩ nofun
  have same : (zeroAndText false).same (zeroAndText true) = true := by decide
  obtain ⟨equal, trans, unseen⟩ := same_equivalence
  obtain ⟨back, digest⟩ := (equal _ keys).2 _ same
  have untold : (zeroAndText true).bare = (zeroAndText true).bare.bare := rfl
  obtain ⟨bare, -⟩ := unseen (zeroAndText false) _ (zeroAndText true) _ rfl untold
  exact ⟨keys, same, back, digest, trans _ _ _ back same, bare ▸ same⟩

end Ty

end SchemaDoc
