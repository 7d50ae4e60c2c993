import SchemaDoc.Proofs.Session.Origins

/-!
# References are counted

A session counts how many references lead to a name, and a type to which one leads at most may
be written out in its place.  No type is written out twice: every reference in the cache was
counted, `Session.use_sites`.

Some references that were counted are in no type that is kept.  A load may fail, a union may drop
a member, and while a schema is compiled its answers are not in the cache yet.  The references in
those answers are what `Loads.sites_le` and `Follows.sites_le` allow for.
-/

namespace SchemaDoc

open Ty (hits)
open Session (targetName)

namespace Session

/-- How many references to a name there are in the types of the cache, at any depth. -/
def sites (session : Session) (name : String) : Nat := hits name session.cache.values

variable {session after : Session} {name : String}

/-- The reference that is counted is the one in the type that is made for it. -/
theorem useCount_targetName (session : Session) (reference : Schema.Reference) (target : Ty)
    (name : String) :
    (session.countUse (targetName reference.text target)).useCount name =
      session.useCount name + hits name [session.typeOf reference target] := by
  have shape : (session.typeOf reference target).shape =
      (Ty.reference (targetName reference.text target)).shape := rfl
  rw [useCount_countUse, Ty.hits_of_shape shape, Ty.hits_singleton, Ty.targets_reference,
    List.count_singleton]
  simp only [beq_iff_eq]

/-- What is kept adds its references. -/
theorem sites_finish {place : Place} (h : (session.visit place).Extends after)
    (new : session.get? place.id = none) (ty : Ty) :
    (after.finish place ty).sites name = after.sites name + hits name [ty] := by
  rw [sites, Table.values, cache_finish h new, List.map_append, Ty.hits_append]
  rfl

end Session

mutual

/-- If the references in the cache and some others were counted, they still are after loading a
name. -/
theorem Loads.sites_le {session after : Session} {uri name : String}
    {result : Except LoadError Ty} {others : Nat} (h : Loads session uri result after)
    (hc : session.sites name + others ≤ session.useCount name) :
    after.sites name + others ≤ after.useCount name := by
  match h with
  | .lost _ => exact hc
  | .cached _ _ => exact hc
  | .reentered _ _ _ => exact hc
  | .missing _ _ _ _ =>
    rw [Session.useCount_beginCount]
    exact hc
  | .failed _ _ _ _ follows =>
    rw [← Session.useCount_visit] at hc
    exact (follows.sites_le hc).1
  | @Loads.compiled _ inner _ place contents types _ new _ _ follows =>
    rw [← Session.useCount_visit session place] at hc
    have answered := (follows.sites_le hc).2 types rfl
    have own : hits name [session.built place contents types] ≤ hits name types := by
      rw [Session.built, Ty.hits_withId]
      exact Schema.hits_build ..
    rw [Session.sites_finish follows.extends new]
    change _ ≤ inner.useCount name
    omega

/-- If the references in the cache and some others were counted, they still are after following
some references, and so are the references in the types to which these lead. -/
theorem Follows.sites_le {session after : Session} {name : String}
    {references : List Schema.Reference} {result : Except LoadError (List Ty)} {others : Nat}
    (h : Follows session references result after)
    (hc : session.sites name + others ≤ session.useCount name) :
    after.sites name + others ≤ after.useCount name ∧ ∀ types, result = .ok types →
      after.sites name + (others + hits name types) ≤ after.useCount name := by
  match h with
  | .done => exact ⟨hc, fun _ e => by cases e; exact hc⟩
  | .stopped loads => exact ⟨loads.sites_le hc, nofun⟩
  | @Follows.failed _ middle _ reference _ target _ loads follows =>
    have counted := Nat.add_le_add_right (loads.sites_le hc)
      (hits name [middle.typeOf reference target])
    rw [← Session.useCount_targetName, Nat.add_assoc] at counted
    exact ⟨Nat.le_trans (by omega) (follows.sites_le counted).1, nofun⟩
  | @Follows.next _ middle _ reference _ target types loads follows =>
    have counted := Nat.add_le_add_right (loads.sites_le hc)
      (hits name [middle.typeOf reference target])
    rw [← Session.useCount_targetName, Nat.add_assoc] at counted
    have answered := (follows.sites_le counted).2 types rfl
    refine ⟨by omega, fun all e => ?_⟩
    cases e
    rw [Ty.hits_cons]
    omega

end

namespace Session

/-- There are no more references to a name than were counted, in the whole cache and whatever
names were loaded, and whether they loaded or not.  So if a type may be written out in place of a
reference, it is in one place at most. -/
theorem use_sites (registry : Registry) (keyword : String) (uris : List String) (name : String) :
    ((fresh registry keyword).loadAll uris).sites name ≤
        ((fresh registry keyword).loadAll uris).useCount name ∧
      (name ≠ "" → ((fresh registry keyword).loadAll uris).canInline name = true →
        ((fresh registry keyword).loadAll uris).sites name ≤ 1) := by
  have counted := (loadAll_induction
    (P := fun session => session.sites name + 0 ≤ session.useCount name)
    (fun _ _ _ _ _ hc loads => loads.sites_le hc) uris (fresh registry keyword)
    (fresh_resting registry keyword) (Nat.le_refl 0)).1
  refine ⟨counted, fun given allowed => Nat.le_trans counted ?_⟩
  simp only [canInline, Bool.or_eq_true, beq_iff_eq, given, false_or, Bool.and_eq_true,
    decide_eq_true_eq] at allowed
  exact allowed.2

/-- An object type that refers to two definitions, to one of them twice in a union. -/
def usesSchema : Json :=
  .object [("type", .string "object"), ("properties", .object [
      ("a", .object [("$ref", .string "#/$defs/A")]),
      ("b", .object [("anyOf", .array [
        .object [("$ref", .string "#/$defs/B")], .object [("$ref", .string "Root#/$defs/B")],
        .object [("type", .string "null")]])])]),
    ("$defs", .object [("A", .object [("type", .string "string")]),
      ("B", .object [("type", .string "integer")])])]

/-- The one definition is written out in the one place that refers to it.  The other is not,
since the reference that the union drops was counted as well. -/
theorem sample_use_sites :
    ((fresh (Registry.register {} "Root" usesSchema).crawl "mark").loadAll ["Root"]).sites
        "Root#/$defs/A" ≤ 1 ∧
      ((fresh (Registry.register {} "Root" usesSchema).crawl "mark").loadAll ["Root"]).sites
        "Root#/$defs/B" ≤ 2 ∧
      ((fresh (Registry.register {} "Root" usesSchema).crawl "mark").loadAll ["Root"]).canInline
        "Root#/$defs/B" = false := by
  have uses := use_sites (Registry.register {} "Root" usesSchema).crawl "mark" ["Root"]
  have twice : ((fresh (Registry.register {} "Root" usesSchema).crawl "mark").loadAll
      ["Root"]).useCount "Root#/$defs/B" = 2 := by decide +kernel
  refine ⟨(uses "Root#/$defs/A").2 (by decide) (by decide +kernel), ?_, by decide +kernel⟩
  rw [← twice]
  exact (uses "Root#/$defs/B").1

end Session

end SchemaDoc
