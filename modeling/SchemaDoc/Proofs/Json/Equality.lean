import SchemaDoc.Proofs.Json.Keys
import SchemaDoc.Proofs.Table

/-!
# Equality of values

Equality of values is told by their parts, `Json.same_iff`: items are compared position by
position and members key by key.  It is transitive as it stands.  That a value equals itself, and
that the sides may be exchanged, takes objects that have each key once, since a look-up sees only
the first member of a key.

Values that are equal have one digest, `Json.digest_eq_of_same`.  Their members may come in any
order, but the digest has them sorted by key, and it leaves out the sign of zero.
-/

namespace SchemaDoc.Json

/-! ## Induction -/

/-- The values that a value is built of. -/
def parts : Json → List Json
  | .array items => items
  | .object members => members.map Prod.snd
  | _ => []

/-- Induction on the parts of a value. -/
theorem induct {motive : Json → Prop}
    (step : ∀ value : Json, (∀ part ∈ value.parts, motive part) → motive value) (value : Json) :
    motive value := by
  refine Json.rec (motive_1 := motive) (motive_2 := fun items => ∀ item ∈ items, motive item)
    (motive_3 := fun members => ∀ part ∈ members.map Prod.snd, motive part)
    (motive_4 := fun member => motive member.2)
    (step _ nofun) (fun _ => step _ nofun) (fun _ => step _ nofun) (fun _ => step _ nofun)
    ?array ?object ?noItem ?item ?noMember ?member ?pair value
  case array => exact fun items inItems => step (.array items) inItems
  case object => exact fun members inMembers => step (.object members) inMembers
  case noItem => exact nofun
  case item => exact fun _ _ first others => List.forall_mem_cons.mpr ⟨first, others⟩
  case noMember => exact nofun
  case member => exact fun _ _ first others => List.forall_mem_cons.mpr ⟨first, others⟩
  case pair => exact fun _ _ h => h

/-- The parts of a value have their keys once if the value has. -/
theorem uniqueKeys_of_part {value part : Json} (h : value.uniqueKeys = true)
    (hp : part ∈ value.parts) : part.uniqueKeys = true := by
  cases value with
  | array items => exact uniqueKeys_array.mp h part hp
  | object members =>
    obtain ⟨member, hm, rfl⟩ := List.mem_map.mp hp
    exact (uniqueKeys_object.mp h).2 member hm
  | _ => cases hp

/-! ## Values that are equal -/

theorem sameItems_iff {items others : List Json} :
    sameItems items others = true ↔ List.Forall₂ (fun a b => a.same b = true) items others := by
  induction items generalizing others with
  | nil => cases others <;> simp [sameItems]
  | cons item rest ih => cases others <;> simp [sameItems, ih]

theorem sameMembers_iff {members others : Table String Json} :
    sameMembers members others = true ↔
      Table.Agrees (fun a b => a.same b = true) members others := by
  induction members with
  | nil => exact iff_of_true rfl nofun
  | cons member rest ih =>
    obtain ⟨key, value⟩ := member
    rw [sameMembers, Bool.and_eq_true, ih, Table.agrees_cons]
    refine and_congr_left fun _ => ?_
    cases Table.get? others key <;> simp

/-- Two values are of one kind, and their parts are equal. -/
inductive Alike : Json → Json → Prop where
  | null : Alike .null .null
  | bool (value : Bool) : Alike (.bool value) (.bool value)
  | number {m n : Number} : m.same n = true → Alike (.number m) (.number n)
  | string (text : String) : Alike (.string text) (.string text)
  | array {items others : List Json} : List.Forall₂ (fun a b => a.same b = true) items others →
      Alike (.array items) (.array others)
  | object {members others : Table String Json} : members.length = others.length →
      Table.Agrees (fun a b => a.same b = true) members others →
      Alike (.object members) (.object others)

theorem same_iff {a b : Json} : a.same b = true ↔ a.Alike b := by
  constructor
  · intro h
    unfold same at h
    split at h
    · exact .null
    · exact eq_of_beq h ▸ .bool _
    · exact .number h
    · exact eq_of_beq h ▸ .string _
    · exact .array (sameItems_iff.mp h)
    · rw [Bool.and_eq_true] at h
      exact .object (eq_of_beq h.1) (sameMembers_iff.mp h.2)
    · cases h
  · intro h
    cases h with
    | null => rfl
    | bool value => exact beq_self_eq_true value
    | number h => exact h
    | string text => exact beq_self_eq_true text
    | array h => exact sameItems_iff.mpr h
    | object length h =>
      rw [same, Bool.and_eq_true]
      exact ⟨beq_iff_eq.mpr length, sameMembers_iff.mpr h⟩

/-! ## Numbers -/

namespace Number

theorem same_refl (n : Number) : n.same n = true := by
  cases n with
  | integer value => exact beq_self_eq_true value
  | double value => exact value.same_refl

theorem same_symm {m n : Number} (h : m.same n = true) : n.same m = true := by
  cases m <;> cases n <;> simp_all [Number.same, Binary64.same_comm]

theorem same_trans {l m n : Number} (h : l.same m = true) (h' : m.same n = true) :
    l.same n = true := by
  cases l <;> cases m <;> cases n <;> simp_all [Number.same, Binary64.same_iff]
  grind

theorem digest_eq_of_same {m n : Number} (h : m.same n = true) : m.digest = n.digest := by
  cases m <;> cases n <;> simp_all [Number.same, Number.digest, Binary64.same_iff]
  grind

end Number

/-! ## Equality is an equivalence -/

theorem same_refl {a : Json} : a.uniqueKeys = true → a.same a = true := by
  induction a using induct with
  | step a ih =>
    intro keys
    have ih : ∀ part ∈ a.parts, part.same part = true := fun part hp =>
      ih part hp (uniqueKeys_of_part keys hp)
    rw [same_iff]
    cases a with
    | null => exact .null
    | bool value => exact .bool value
    | number value => exact .number value.same_refl
    | string text => exact .string text
    | array items => exact .array (List.forall₂_same.mpr ih)
    | object members =>
      exact .object rfl
        (.refl (uniqueKeys_object.mp keys).1 fun _ hm => ih _ (List.mem_map_of_mem hm))

theorem same_symm {a : Json} : ∀ {b : Json}, a.uniqueKeys = true → a.same b = true →
    b.same a = true := by
  induction a using induct with
  | step a ih =>
    intro b keys h
    have ih : ∀ part ∈ a.parts, ∀ other, part.same other = true → other.same part = true :=
      fun part hp other => ih part hp (uniqueKeys_of_part keys hp)
    rw [same_iff] at h ⊢
    cases h with
    | null => exact .null
    | bool value => exact .bool value
    | number h => exact .number (Number.same_symm h)
    | string text => exact .string text
    | array h => exact .array (forall₂_symm h ih)
    | object length h =>
      exact .object length.symm (h.symm (uniqueKeys_object.mp keys).1 length
        fun _ hm => ih _ (List.mem_map_of_mem hm))

theorem same_trans {a : Json} : ∀ {b c : Json}, a.same b = true → b.same c = true →
    a.same c = true := by
  induction a using induct with
  | step a ih =>
    intro b c h h'
    have ih : ∀ part ∈ a.parts, ∀ other third, part.same other = true →
        other.same third = true → part.same third = true := fun part hp _ _ => ih part hp
    rw [same_iff] at h h' ⊢
    cases h with
    | null => exact h'
    | bool value => exact h'
    | string text => exact h'
    | number h =>
      cases h' with
      | number h' => exact .number (Number.same_trans h h')
    | array h =>
      cases h' with
      | array h' => exact .array (forall₂_trans h h' ih)
    | object length h =>
      cases h' with
      | object length' h' =>
        exact .object (length.trans length') (h.trans h' fun _ hm => ih _ (List.mem_map_of_mem hm))

/-! ## Values that are equal have one digest -/

theorem digestItems_eq (items : List Json) : digestItems items = items.flatMap digest := by
  induction items with
  | nil => rfl
  | cons item rest ih => rw [digestItems, ih, List.flatMap_cons]

theorem digestMembers_eq (members : List (String × Json)) :
    digestMembers members = members.map fun member => (member.1, member.2.digest) := by
  induction members with
  | nil => rfl
  | cons member rest ih => rw [digestMembers, ih, List.map_cons]

/-- Digests under different keys may be joined in any order. -/
theorem joinByKey_eq_of_perm {digests others : List (String × List Mark)}
    (nodup : (Table.keys digests).Nodup) (h : digests.Perm others) :
    joinByKey digests = joinByKey others := by
  have perm := List.mergeSort_perm digests fun a b => a.1 ≤ b.1
  refine congrArg (List.flatMap _) (Table.eq_of_perm ((perm.map Prod.fst).nodup_iff.mpr nodup) ?_
    (Table.pairwise_mergeSort digests) (Table.pairwise_mergeSort others))
  exact perm.trans (h.trans (List.mergeSort_perm _ _).symm)

theorem digest_eq_of_same {a : Json} : ∀ {b : Json}, a.uniqueKeys = true → a.same b = true →
    a.digest = b.digest := by
  induction a using induct with
  | step a ih =>
    intro b keys h
    have ih : ∀ part ∈ a.parts, ∀ other, part.same other = true → part.digest = other.digest :=
      fun part hp other => ih part hp (uniqueKeys_of_part keys hp)
    rw [same_iff] at h
    cases h with
    | null => rfl
    | bool value => rfl
    | string text => rfl
    | number h => simp only [digest, Number.digest_eq_of_same h]
    | array h =>
      simp only [digest, digestItems_eq, List.flatMap, map_eq_of_forall₂ h ih, h.length_eq]
    | object length h =>
      have nodup := (uniqueKeys_object.mp keys).1
      have perm := h.map_perm nodup length fun _ hm => ih _ (List.mem_map_of_mem hm)
      simp only [digest, digestMembers_eq]
      refine congrArg _ (joinByKey_eq_of_perm ?_ perm)
      rwa [Table.keys, List.map_map]

end SchemaDoc.Json
