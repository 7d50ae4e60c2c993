import Mathlib.Data.List.Forall2
import Mathlib.Data.List.Nodup
import Mathlib.Data.List.Perm.Subperm
import Mathlib.Data.List.Sort
import SchemaDoc.Table

/-!
# Lists and tables that agree

Two lists may be compared position by position, and two tables key by key.  A table *agrees* with
another if each of its keys has a value there to which its own is related.  That says nothing of
order, and nothing of keys that only the other table has.  Between tables of one length, of which
the first repeats no key, it is a matter of both sides, `Table.Agrees.symm`, and if related values
are made equal the entries are the same but for their order, `Table.Agrees.map_perm`.

What is known of a relation is only ever asked of the values in the lists or tables at hand, since
these are the parts of something that an induction goes over.
-/

namespace SchemaDoc

/-! ## Lists -/

section Lists

variable {α β γ : Type} {R : α → β → Prop} {as : List α} {bs : List β}

theorem forall₂_imp_of_mem {S : α → β → Prop} (h : List.Forall₂ R as bs)
    (himp : ∀ a ∈ as, ∀ b, R a b → S a b) : List.Forall₂ S as bs :=
  ((List.forall₂_and_left as bs).mpr ⟨himp, h⟩).imp fun _ b hab => hab.1 b hab.2

theorem forall₂_congr_of_mem {S : α → β → Prop} (h : ∀ a ∈ as, ∀ b, R a b ↔ S a b) :
    List.Forall₂ R as bs ↔ List.Forall₂ S as bs :=
  ⟨fun hab => forall₂_imp_of_mem hab fun a ha b => (h a ha b).mp,
    fun hab => forall₂_imp_of_mem hab fun a ha b => (h a ha b).mpr⟩

theorem forall₂_symm {S : β → α → Prop} (h : List.Forall₂ R as bs)
    (flip : ∀ a ∈ as, ∀ b, R a b → S b a) : List.Forall₂ S bs as :=
  (forall₂_imp_of_mem h flip).flip

theorem forall₂_trans {S : β → γ → Prop} {T : α → γ → Prop} (h : List.Forall₂ R as bs) :
    ∀ {cs : List γ}, List.Forall₂ S bs cs → (∀ a ∈ as, ∀ b c, R a b → S b c → T a c) →
      List.Forall₂ T as cs := by
  induction h with
  | nil =>
    intro cs h' _
    cases h'
    exact .nil
  | cons first _ ih =>
    intro cs h' compose
    cases h' with
    | cons first' rest' =>
      rw [List.forall_mem_cons] at compose
      exact .cons (compose.1 _ _ first first') (ih rest' compose.2)

/-- Lists are equal if related values are made equal. -/
theorem map_eq_of_forall₂ {f : α → γ} {g : β → γ} (h : List.Forall₂ R as bs)
    (equal : ∀ a ∈ as, ∀ b, R a b → f a = g b) : as.map f = bs.map g := by
  rw [← List.forall₂_eq_eq_eq, List.forall₂_map_left_iff, List.forall₂_map_right_iff]
  exact forall₂_imp_of_mem h equal

end Lists

/-! ## Tables -/

namespace Table

variable {κ α β γ : Type} [DecidableEq κ]

/-- Each key of a table has a value in another to which its own is related. -/
def Agrees (R : α → β → Prop) (table : Table κ α) (others : Table κ β) : Prop :=
  ∀ entry ∈ table, ∃ value, others.get? entry.1 = some value ∧ R entry.2 value

theorem agrees_cons {R : α → β → Prop} {key : κ} {a : α} {rest : Table κ α} {others : Table κ β} :
    Agrees R ((key, a) :: rest) others ↔
      (∃ value, others.get? key = some value ∧ R a value) ∧ Agrees R rest others :=
  List.forall_mem_cons

/-- The value under a key, after all values were changed. -/
theorem get?_map (f : α → β) (table : Table κ α) (key : κ) :
    Table.get? (table.map fun entry => (entry.1, f entry.2)) key = (table.get? key).map f := by
  induction table with
  | nil => rfl
  | cons entry rest ih =>
    rw [List.map_cons, get?, get?]
    split
    · rfl
    · exact ih

/-- Tables with other values agree as the old ones do, if the values are related as the old ones
are. -/
theorem agrees_map {γ δ : Type} {R : γ → δ → Prop} {S : α → β → Prop} {f : α → γ} {g : β → δ}
    {table : Table κ α} {others : Table κ β}
    (h : ∀ entry ∈ table, ∀ value, R (f entry.2) (g value) ↔ S entry.2 value) :
    Agrees R (table.map fun entry => (entry.1, f entry.2))
      (others.map fun entry => (entry.1, g entry.2)) ↔ Agrees S table others := by
  rw [Agrees, List.forall_mem_map, Agrees]
  refine forall₂_congr fun entry he => ?_
  rw [get?_map]
  simp only [Option.map_eq_some_iff, exists_exists_and_eq_and]
  exact exists_congr fun value => and_congr_right fun _ => h entry he value

namespace Agrees

variable {R : α → β → Prop} {table : Table κ α} {others : Table κ β}

theorem refl {R : α → α → Prop} (nodup : table.keys.Nodup)
    (h : ∀ entry ∈ table, R entry.2 entry.2) : Agrees R table table :=
  fun entry he => ⟨entry.2, get?_of_mem nodup he, h entry he⟩

theorem trans {S : β → γ → Prop} {T : α → γ → Prop} {third : Table κ γ} (h : Agrees R table others)
    (h' : Agrees S others third)
    (compose : ∀ entry ∈ table, ∀ b c, R entry.2 b → S b c → T entry.2 c) :
    Agrees T table third := by
  intro entry he
  obtain ⟨b, hb, related⟩ := h entry he
  obtain ⟨c, hc, related'⟩ := h' _ (mem_of_get? hb)
  exact ⟨c, hc, compose entry he b c related related'⟩

theorem keys_subset (h : Agrees R table others) : table.keys ⊆ others.keys := by
  intro key hk
  obtain ⟨entry, he, rfl⟩ := List.mem_map.mp hk
  obtain ⟨value, hv, -⟩ := h entry he
  exact List.mem_map_of_mem (mem_of_get? hv)

section Length

variable (h : Agrees R table others) (nodup : table.keys.Nodup)
variable (length : table.length = others.length)

include h nodup length

/-- There is no room for other keys, nor for a key that comes twice. -/
theorem keys_perm : table.keys.Perm others.keys := by
  refine (List.subperm_of_subset nodup h.keys_subset).perm_of_length_le ?_
  exact Nat.le_of_eq (by simp [keys, length])

theorem keys_nodup : others.keys.Nodup := (h.keys_perm nodup length).nodup_iff.mp nodup

theorem symm {S : β → α → Prop}
    (flip : ∀ entry ∈ table, ∀ value, R entry.2 value → S value entry.2) :
    Agrees S others table := by
  intro other ho
  have hk : other.1 ∈ table.keys :=
    (h.keys_perm nodup length).mem_iff.mpr (List.mem_map_of_mem ho)
  obtain ⟨entry, he, same⟩ := List.mem_map.mp hk
  obtain ⟨value, hv, related⟩ := h entry he
  -- The key has one value only, so it is the one that the entry is related to.
  rw [same, get?_of_mem (h.keys_nodup nodup length) ho, Option.some_inj] at hv
  subst hv
  exact ⟨entry.2, same ▸ get?_of_mem nodup he, flip entry he _ related⟩

/-- If related values are made equal, the entries are the same but for their order. -/
theorem map_perm {f : α → γ} {g : β → γ}
    (equal : ∀ entry ∈ table, ∀ value, R entry.2 value → f entry.2 = g value) :
    (table.map fun entry => (entry.1, f entry.2)).Perm
      (others.map fun entry => (entry.1, g entry.2)) := by
  have distinct : (table.map fun entry => (entry.1, f entry.2)).Nodup := by
    refine List.Nodup.of_map Prod.fst ?_
    rwa [List.map_map]
  refine (List.subperm_of_subset distinct fun pair hp => ?_).perm_of_length_le (by simp [length])
  obtain ⟨entry, he, rfl⟩ := List.mem_map.mp hp
  obtain ⟨value, hv, related⟩ := h entry he
  rw [equal entry he value related]
  exact List.mem_map_of_mem (f := fun entry : κ × β => (entry.1, g entry.2)) (mem_of_get? hv)

end Length

end Agrees

/-! ### Order of keys -/

section Order

variable {table others : Table String α}

theorem pairwise_mergeSort (table : Table String α) :
    (table.mergeSort fun a b => a.1 ≤ b.1).Pairwise fun a b => a.1 ≤ b.1 := by
  refine (List.pairwise_mergeSort ?_ ?_ table).imp of_decide_eq_true
  · intro a b c hab hbc
    exact decide_eq_true (String.le_trans (of_decide_eq_true hab) (of_decide_eq_true hbc))
  · intro a b
    simpa using String.le_total a.1 b.1

/-- Tables in order are equal if they have the same entries and repeat no key. -/
theorem eq_of_perm (nodup : table.keys.Nodup) (h : table.Perm others)
    (ordered : table.Pairwise fun a b => a.1 ≤ b.1)
    (ordered' : others.Pairwise fun a b => a.1 ≤ b.1) : table = others := by
  refine List.Perm.eq_of_pairwise (fun a b ha hb hab hba => ?_) ordered ordered' h
  -- A key comes once, so entries with one key are one entry.
  exact List.inj_on_of_nodup_map nodup ha (h.mem_iff.mpr hb) (String.le_antisymm hab hba)

/-- It does not matter how a table is put in order. -/
theorem mergeSort_eq_insertionSort (nodup : table.keys.Nodup) :
    (table.mergeSort fun a b => a.1 ≤ b.1) = table.insertionSort fun a b => a.1 ≤ b.1 := by
  have total : Std.Total fun a b : String × α => a.1 ≤ b.1 := ⟨fun a b => String.le_total a.1 b.1⟩
  have trans : IsTrans (String × α) fun a b => a.1 ≤ b.1 := ⟨fun _ _ _ => String.le_trans⟩
  have perm := List.mergeSort_perm table fun a b => a.1 ≤ b.1
  exact eq_of_perm ((perm.map Prod.fst).nodup_iff.mpr nodup)
    (perm.trans (List.perm_insertionSort _ table).symm) (pairwise_mergeSort table)
    (List.pairwise_insertionSort _ table)

end Order

end Table

end SchemaDoc
