import Mathlib.Data.List.Forall2
import Mathlib.Data.Option.Basic
import SchemaDoc.Schema.Compile

/-!
# Congruences of types

A relation between types is a *congruence* if building types of related parts gives
related types.  It may forget some of what there is to a type: two types may be related
if they differ only in their scopes, or a type to any other if all its references are
of some kind.
-/

namespace SchemaDoc

/-! ## Related lists -/

/-- What holds of the left sides of related lists holds of each. -/
theorem forall_of_forall₂_left {α β : Type} {P : α → Prop} {as : List α} {bs : List β}
    (h : List.Forall₂ (fun a _ => P a) as bs) : ∀ a ∈ as, P a := by
  induction h with
  | nil => simp
  | cons first _ rest => exact List.forall_mem_cons.mpr ⟨first, rest⟩

/-- Each on the right has one to which it is related. -/
theorem exists_of_forall₂_right {α β : Type} {R : α → β → Prop} {as : List α} {bs : List β}
    (h : List.Forall₂ R as bs) {b : β} (hb : b ∈ bs) : ∃ a ∈ as, R a b := by
  induction h with
  | nil => cases hb
  | cons first _ rest =>
    rcases List.mem_cons.mp hb with rfl | hb
    · exact ⟨_, List.mem_cons_self, first⟩
    · obtain ⟨a, ha, hab⟩ := rest hb
      exact ⟨a, List.mem_cons_of_mem _ ha, hab⟩

/-! ## Congruences -/

/-- Two members have one name and related types. -/
def MemberRelated (R : Ty → Ty → Prop) (a b : String × Ty) : Prop := a.1 = b.1 ∧ R a.2 b.2

/-- Everything that compiling builds is related if its parts are.  No union or intersection is
built of no types. -/
structure Ty.Congruence (R : Ty → Ty → Prop) : Prop where
  leaf : ∀ kind, R (.ofLeaf kind) (.ofLeaf kind)
  const : ∀ value, R (.ofConst value) (.ofConst value)
  array : ∀ unique {a b}, R a b → R (.ofShape (.array unique a)) (.ofShape (.array unique b))
  tuple : ∀ {as bs a b}, List.Forall₂ R as bs → Option.Rel R a b →
    R (.ofShape (.tuple as a)) (.ofShape (.tuple bs b))
  object : ∀ {as bs a b}, List.Forall₂ (MemberRelated R) as bs → Option.Rel R a b →
    R (.ofShape (.object as a)) (.ofShape (.object bs b))
  oneOf : ∀ {a b as bs}, R a b → List.Forall₂ R as bs → R (.oneOf (a :: as)) (.oneOf (b :: bs))
  allOf : ∀ {a b as bs}, R a b → List.Forall₂ R as bs → R (.allOf (a :: as)) (.allOf (b :: bs))
  overlay : ∀ (overlay : Schema.Overlay) {a b}, R a b → R (overlay.apply a) (overlay.apply b)
  property : ∀ defaults required name marked {a b}, R a b →
    R (Schema.propertyType defaults required name marked a)
      (Schema.propertyType defaults required name marked b)
  propagateScope : ∀ {a b : Ty}, R a b → R a.propagateScope b.propagateScope

namespace Ty.Congruence

variable {R : Ty → Ty → Prop} (h : Congruence R)

include h

/-- Without an item schema there is an array of anything. -/
theorem getD_any {a b : Option Ty} (hab : Option.Rel R a b) : R (a.getD .any) (b.getD .any) := by
  cases hab with
  | none => exact h.leaf .any
  | some hab => exact hab

theorem arrayType (unique : Bool) (maxItems : Option Nat) {a b : Ty} {as bs : Option (List Ty)}
    (hab : R a b) (hs : Option.Rel (List.Forall₂ R) as bs) :
    R (Schema.arrayType unique maxItems a as) (Schema.arrayType unique maxItems b bs) := by
  cases hs with
  | none => exact h.array unique hab
  | some hs =>
    simp only [Schema.arrayType, hs.length_eq]
    split
    · exact h.tuple hs .none
    · exact h.tuple hs (.some hab)

theorem combine (overlay : Schema.Overlay) {as bs cs ds : List Ty} (hs : List.Forall₂ R as bs)
    (hd : List.Forall₂ R cs ds) :
    R (Schema.combine overlay as cs) (Schema.combine overlay bs ds) := by
  unfold Schema.combine
  refine h.propagateScope (h.overlay overlay ?_)
  cases hs with
  | nil =>
    cases hd with
    | nil => exact h.leaf .any
    | cons hd hds => exact h.allOf hd hds
  | cons hs hss => exact h.allOf (h.oneOf hs hss) hd

end Ty.Congruence

/-- Members with one name and one type are one member. -/
theorem memberRelated_eq : MemberRelated Eq = Eq := by
  funext a b
  exact propext Prod.ext_iff.symm

/-- Equality is a congruence. -/
theorem Ty.Congruence.eq : Ty.Congruence Eq where
  leaf _ := rfl
  const _ := rfl
  array _ _ _ h := by rw [h]
  tuple hs h := by
    rw [List.forall₂_eq_eq_eq] at hs
    cases h <;> simp_all
  object hs h := by
    rw [memberRelated_eq, List.forall₂_eq_eq_eq] at hs
    cases h <;> simp_all
  oneOf h hs := by
    rw [List.forall₂_eq_eq_eq] at hs
    rw [h, hs]
  allOf h hs := by
    rw [List.forall₂_eq_eq_eq] at hs
    rw [h, hs]
  overlay _ _ _ h := by rw [h]
  property _ _ _ _ _ _ h := by rw [h]
  propagateScope h := by rw [h]

end SchemaDoc
