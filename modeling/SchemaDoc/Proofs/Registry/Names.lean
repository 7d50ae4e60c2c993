import Mathlib.Data.List.Nodup
import SchemaDoc.Proofs.Uri
import SchemaDoc.Registry.Crawl
import SchemaDoc.Registry.Place

/-!
# Names in a registry

A registry is filled by registering documents and by crawling, `Registry.Built`.  A resource
goes by the name under which it is registered, unless it is a document that declares
another, `crawl_nameAt`.

So a name that is looked up has no number sign in it, and neither has the name that the
resource found goes by, `numberSign_nameAt`.  After crawling only the resource under the
empty name goes by the empty name, `crawl_nameAt_ne_empty`.
-/

namespace SchemaDoc.Registry

/-- A registry that was filled by registering documents and by crawling. -/
inductive Built : Registry → Prop
  | empty : Built {}
  | register {registry : Registry} (uri : String) (contents : Json) :
      Built registry → Built (registry.register uri contents)
  | crawl {registry : Registry} : Built registry → Built registry.crawl

/-! ## Changes of the table -/

section Put

variable {P : Table String Resource → Prop} {registry : Registry}
variable (put : ∀ table uri resource, P table → P (Table.put table uri resource))

include put

theorem foldl_record_of_put (found : List Finding) (h : P registry.resources) :
    P (found.foldl record registry).resources := by
  induction found generalizing registry with
  | nil => exact h
  | cons finding rest ih =>
    cases finding with
    | resource uri contents => exact ih (put _ _ _ h)
    | anchor => exact ih h

theorem adopt_of_put (uri : String) (resource : Resource) (h : P registry.resources) :
    P (registry.adopt uri resource).resources := by
  have named : P (registry.renamed uri (nameOf uri resource)) := by
    unfold renamed
    split
    · exact put _ _ _ h
    · exact h
  unfold adopt
  split
  · exact h
  · dsimp only
    split
    · exact named
    · exact put _ _ _ named

/-- What holds of the resources and of a table with one more resource holds after crawling some
documents. -/
theorem crawlAll_of_put (documents : List (String × Resource)) (h : P registry.resources) :
    P (registry.crawlAll documents).resources := by
  induction documents generalizing registry with
  | nil => exact h
  | cons document rest ih => exact ih (foldl_record_of_put put _ (adopt_of_put put _ _ h))

end Put

/-- No name is registered twice. -/
theorem Built.nodup {registry : Registry} (h : registry.Built) :
    registry.resources.keys.Nodup := by
  induction h with
  | empty => exact .nil
  | register uri contents _ ih => exact Table.nodup_put ih _ _
  | crawl _ ih =>
    exact crawlAll_of_put (P := fun table => table.keys.Nodup)
      (fun _ uri resource nodup => Table.nodup_put nodup uri resource) _ ih

/-! ## Names after crawling -/

/-- Crawling changes no resource but those it finds, and those go by their names. -/
theorem get?_record {registry : Registry} {finding : Finding} {uri : String}
    {resource : Resource} (h : (registry.record finding).resources.get? uri = some resource) :
    resource.nameAt uri = uri ∨ registry.resources.get? uri = some resource := by
  cases finding with
  | resource found contents =>
    rw [record, Table.get?_put] at h
    split at h
    · rename_i hu
      cases h
      exact .inl hu
    · exact .inr h
  | anchor => exact .inr h

theorem get?_foldl_record {found : List Finding} {uri : String} {resource : Resource} :
    ∀ {registry : Registry}, (found.foldl record registry).resources.get? uri = some resource →
      resource.nameAt uri = uri ∨ registry.resources.get? uri = some resource := by
  induction found with
  | nil => exact fun h => .inr h
  | cons finding rest ih =>
    intro registry h
    rcases ih h with h | h
    · exact .inl h
    · exact get?_record h

/-- A document that is adopted goes by the name it declares. -/
theorem get?_adopt {registry : Registry} {document uri : String} {contents resource : Resource}
    (h : (registry.adopt document contents).resources.get? uri = some resource) :
    resource.nameAt uri = uri ∨
      (uri = document ∧ resource.nameAt uri = nameOf document contents) ∨
      (registry.resources.get? uri = some resource ∧ (uri = document → contents.id = none)) := by
  unfold adopt at h
  split at h
  · rename_i none
    exact .inr (.inr ⟨h, fun _ => none⟩)
  · dsimp only at h
    have named : (registry.renamed document (nameOf document contents)).get? uri = some resource →
        (uri = document ∧ resource.nameAt uri = nameOf document contents) ∨
          (registry.resources.get? uri = some resource ∧ (uri = document → contents.id = none)) := by
      intro h
      unfold renamed at h
      split at h
      · rw [Table.get?_put] at h
        split at h
        · rename_i hu
          cases h
          exact .inl ⟨hu.symm, rfl⟩
        · rename_i hu
          exact .inr ⟨h, fun e => absurd e.symm hu⟩
      · rename_i missing
        refine .inr ⟨h, fun e => ?_⟩
        rw [e, missing] at h
        cases h
    split at h
    · exact .inr (named h)
    · rw [Table.get?_put] at h
      split at h
      · rename_i hu
        cases h
        exact .inl hu
      · exact .inr (named h)

/-- After crawling a resource goes by the name under which it is registered, unless it is a
document that declares another. -/
theorem crawl_nameAt {registry : Registry} {uri : String} {resource : Resource}
    (h : registry.crawl.resources.get? uri = some resource) :
    resource.nameAt uri = uri ∨
      ∃ document, (uri, document) ∈ registry.resources ∧
        resource.nameAt uri = nameOf uri document := by
  -- Before its turn a document is as it was registered.
  have all (documents : List (String × Resource)) (hd : documents ⊆ registry.resources) :
      ∀ current : Registry,
        (∀ uri resource, current.resources.get? uri = some resource →
          resource.nameAt uri = uri ∨
            (∃ document, (uri, document) ∈ registry.resources ∧
              resource.nameAt uri = nameOf uri document) ∨
            (uri, resource) ∈ documents) →
        ∀ uri resource, (current.crawlAll documents).resources.get? uri = some resource →
          resource.nameAt uri = uri ∨
            ∃ document, (uri, document) ∈ registry.resources ∧
              resource.nameAt uri = nameOf uri document := by
    induction documents with
    | nil =>
      intro current known uri resource h
      rcases known uri resource h with h | h | h
      · exact .inl h
      · exact .inr h
      · cases h
    | cons document rest ih =>
      intro current known
      refine ih (List.subset_of_cons_subset hd) _ fun uri resource h => ?_
      rcases get?_foldl_record h with h | h
      · exact .inl h
      · rcases get?_adopt h with h | ⟨rfl, h⟩ | ⟨h, plain⟩
        · exact .inl h
        · exact .inr (.inl ⟨_, hd List.mem_cons_self, h⟩)
        · rcases known uri resource h with h | h | h
          · exact .inl h
          · exact .inr (.inl h)
          · rcases List.mem_cons.mp h with rfl | h
            · have plain := plain rfl
              left
              rw [Resource.nameAt, plain, Option.getD_none]
            · exact .inr (.inr h)
  exact all registry.resources (List.Subset.refl _) registry
    (fun uri resource h => .inr (.inr (Table.mem_of_get? h))) uri resource h

/-! ## What names are like -/

/-- A document that is not crawled declares a name without a fragment. -/
theorem numberSign_id_ofContents {contents : Json} {id : String}
    (h : (Resource.ofContents contents).id = some id) : '#' ∉ id.toList := by
  obtain ⟨declared, -, rfl⟩ := Option.map_eq_some_iff.mp h
  exact Uri.numberSign_defrag declared

/-- The name that a document declares is joined onto a name. -/
theorem numberSign_nameOf {uri : String} {document : Resource} (hu : '#' ∉ uri.toList)
    (hn : '#' ∉ (document.nameAt uri).toList) : '#' ∉ (nameOf uri document).toList := by
  rw [nameOf]
  rw [Resource.nameAt] at hn
  cases hi : document.id with
  | none => exact hu
  | some declared =>
    rw [hi] at hn
    exact Uri.numberSign_join hu hn

/-- A resource whose name under the registry is a name goes by a name. -/
theorem Built.numberSign_nameAt {registry : Registry} (h : registry.Built) {uri : String}
    {resource : Resource} (hr : registry.resources.get? uri = some resource)
    (hu : '#' ∉ uri.toList) : '#' ∉ (resource.nameAt uri).toList := by
  induction h generalizing uri resource with
  | empty => cases hr
  | register key contents _ ih =>
    rw [Registry.register, Table.get?_put] at hr
    split at hr
    · cases hr
      rw [Resource.nameAt]
      cases hi : (Resource.ofContents contents).id with
      | none => exact hu
      | some id => exact numberSign_id_ofContents hi
    · exact ih hr hu
  | @crawl registry built ih =>
    rcases crawl_nameAt hr with h | ⟨document, hm, h⟩
    · rwa [h]
    · rw [h]
      exact numberSign_nameOf hu (ih (Table.get?_of_mem built.nodup hm) hu)

/-- A document that is registered under a name goes by a name. -/
theorem nameOf_ne_empty {uri : String} (hu : uri ≠ "") (document : Resource) :
    nameOf uri document ≠ "" := by
  rw [nameOf]
  split
  · exact fun empty => hu (Uri.join_eq_empty empty).1
  · exact hu

/-- After crawling only the resource under the empty name goes by it. -/
theorem crawl_nameAt_ne_empty {registry : Registry} {uri : String} {resource : Resource}
    (h : registry.crawl.resources.get? uri = some resource) (hu : uri ≠ "") :
    resource.nameAt uri ≠ "" := by
  rcases crawl_nameAt h with h | ⟨document, -, h⟩
  · rwa [h]
  · rw [h]
    exact nameOf_ne_empty hu document

end SchemaDoc.Registry
