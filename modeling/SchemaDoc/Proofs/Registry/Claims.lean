import Mathlib.Data.List.Pairwise
import SchemaDoc.Proofs.Registry.Names

/-!
# Claims

A document *claims* the name under which it is registered, the name it goes by, and the
names of the resources embedded in it.  Documents are *separate* if no two of them claim one
name.

Crawling a document changes what is registered under its claims and nothing else,
`get?_crawlDocument`.  So if the documents are separate, what a name stands for after
crawling is a matter of the one document that claims it, `crawl_claimed`.  Two things follow.
The name of a resource leads to a resource of that name, `exists_nameAt`.  And if moreover no
document embeds a resource under its own name, all resources of one name have the same
contents, `contents_eq_of_nameAt`.
-/

namespace SchemaDoc

/-- The name of the resource that was found. -/
def Finding.uri? : Finding → Option String
  | .resource uri _ => some uri
  | .anchor .. => none

namespace Registry

/-- The names of the resources embedded in a document. -/
def embedded (uri : String) (resource : Resource) : List String :=
  (Finding.findings (nameOf uri resource) "" true resource.contents).filterMap Finding.uri?

/-- The names that a document claims. -/
def claims (uri : String) (resource : Resource) : List String :=
  uri :: nameOf uri resource :: embedded uri resource

theorem nameOf_mem_claims (uri : String) (resource : Resource) :
    nameOf uri resource ∈ claims uri resource := List.mem_cons_of_mem _ List.mem_cons_self

theorem mem_claims_of_embedded {uri name : String} {resource : Resource}
    (h : name ∈ embedded uri resource) : name ∈ claims uri resource :=
  List.mem_cons_of_mem _ (List.mem_cons_of_mem _ h)

/-- No two documents claim one name. -/
def Separate (registry : Registry) : Prop :=
  registry.resources.Pairwise fun a b => (claims a.1 a.2).Disjoint (claims b.1 b.2)

instance (registry : Registry) : Decidable registry.Separate :=
  inferInstanceAs (Decidable (registry.resources.Pairwise fun a b =>
    ∀ name ∈ claims a.1 a.2, name ∈ claims b.1 b.2 → False))

/-- No document embeds a resource under the name that it declares itself, unless it is
registered under that name. -/
def NoTwins (registry : Registry) : Prop :=
  ∀ document ∈ registry.resources,
    nameOf document.1 document.2 ∈ embedded document.1 document.2 →
      nameOf document.1 document.2 = document.1

instance (registry : Registry) : Decidable registry.NoTwins :=
  inferInstanceAs (Decidable (∀ document ∈ registry.resources,
    nameOf document.1 document.2 ∈ embedded document.1 document.2 →
      nameOf document.1 document.2 = document.1))

variable {registry : Registry}

/-! ## What crawling a document changes -/

theorem get?_foldl_record_of_not_mem {found : List Finding} {name : String}
    (h : name ∉ found.filterMap Finding.uri?) :
    ∀ registry : Registry,
      (found.foldl record registry).resources.get? name = registry.resources.get? name := by
  induction found with
  | nil => exact fun _ => rfl
  | cons finding rest ih =>
    intro registry
    cases finding with
    | resource uri contents =>
      change name ∉ uri :: rest.filterMap Finding.uri? at h
      rw [List.mem_cons, not_or] at h
      rw [List.foldl_cons, ih h.2, record, Table.get?_put, if_neg (Ne.symm h.1)]
    | anchor => exact ih h _

/-- What is found is registered under its name. -/
theorem get?_foldl_record_of_mem {found : List Finding} {name : String}
    (h : name ∈ found.filterMap Finding.uri?) :
    ∀ registry : Registry, ∃ contents,
      (found.foldl record registry).resources.get? name = some ⟨contents, some name⟩ := by
  induction found with
  | nil => cases h
  | cons finding rest ih =>
    intro registry
    by_cases hr : name ∈ rest.filterMap Finding.uri?
    · exact ih hr _
    · rw [List.foldl_cons, get?_foldl_record_of_not_mem hr]
      cases finding with
      | resource uri contents =>
        change name ∈ uri :: rest.filterMap Finding.uri? at h
        rw [List.mem_cons] at h
        obtain rfl := h.resolve_right hr
        exact ⟨contents, by rw [record, Table.get?_put, if_pos rfl]⟩
      | anchor => exact absurd h hr

theorem get?_renamed (uri name other : String) :
    Table.get? (registry.renamed uri name) other =
      if uri = other then (registry.resources.get? uri).map ({ · with id := some name })
      else registry.resources.get? other := by
  rw [renamed]
  split
  · rename_i old h
    rw [Table.get?_put, h]
    rfl
  · rename_i h
    split
    · rename_i hu
      rw [← hu, h]
      rfl
    · rfl

/-- A document that declares a name is known under it. -/
theorem adopt_of_id {uri : String} {resource : Resource} {id : String}
    (h : resource.id = some id) (other : String) :
    (registry.adopt uri resource).resources.get? other =
      if nameOf uri resource = other then
        (Table.get? (registry.renamed uri (nameOf uri resource)) other).or
          (some ⟨resource.contents, some (nameOf uri resource)⟩)
      else Table.get? (registry.renamed uri (nameOf uri resource)) other := by
  unfold adopt
  rw [h]
  dsimp only
  generalize nameOf uri resource = name
  by_cases hn : name = other
  · subst hn
    rw [if_pos rfl]
    split
    · rename_i known
      rw [Option.or_eq_left_of_isSome known]
    · rename_i new
      rw [Table.get?_put, if_pos rfl]
      rw [Table.has, Option.not_isSome_iff_eq_none] at new
      rw [new, Option.none_or]
  · rw [if_neg hn]
    split
    · rfl
    · rw [Table.get?_put, if_neg hn]

theorem get?_crawlDocument {document : String × Resource} {name : String}
    (h : name ∉ claims document.1 document.2) :
    (registry.crawlDocument document).resources.get? name = registry.resources.get? name := by
  obtain ⟨uri, resource⟩ := document
  simp only [claims, List.mem_cons, not_or] at h
  rw [crawlDocument, get?_foldl_record_of_not_mem h.2.2]
  cases hi : resource.id with
  | none => rw [adopt, hi]
  | some id =>
    rw [adopt_of_id hi, if_neg (Ne.symm h.2.1), get?_renamed, if_neg (Ne.symm h.1)]

theorem get?_crawlAll {documents : List (String × Resource)} {name : String}
    (h : ∀ document ∈ documents, name ∉ claims document.1 document.2) :
    (registry.crawlAll documents).resources.get? name = registry.resources.get? name := by
  induction documents generalizing registry with
  | nil => rfl
  | cons document rest ih =>
    rw [List.forall_mem_cons] at h
    exact (ih h.2).trans (get?_crawlDocument h.1)

/-! ## Names of separate documents -/

/-- A name has one document that claims it. -/
theorem Separate.eq_of_claims (hs : registry.Separate) {a b : String × Resource}
    (ha : a ∈ registry.resources) (hb : b ∈ registry.resources) {name : String}
    (hna : name ∈ claims a.1 a.2) (hnb : name ∈ claims b.1 b.2) : a = b := by
  by_contra hab
  have : Std.Symm fun a b : String × Resource =>
      (claims a.1 a.2).Disjoint (claims b.1 b.2) := ⟨fun _ _ h _ hb ha => h ha hb⟩
  exact hs.forall ha hb hab hna hnb

/-- While the documents before it are crawled nothing changes under the claims of a
document, nor after its own turn. -/
theorem Separate.crawl_get? (hb : registry.Built) (hs : registry.Separate) {uri : String}
    {resource : Resource} (hm : (uri, resource) ∈ registry.resources) :
    ∃ current : Registry, current.resources.get? uri = some resource ∧
      (∀ name ∈ claims uri resource, name ≠ uri → current.resources.get? name = none) ∧
      ∀ name ∈ claims uri resource,
        registry.crawl.resources.get? name =
          (current.crawlDocument (uri, resource)).resources.get? name := by
  obtain ⟨before, after, split⟩ := List.append_of_mem hm
  have pairs := hs
  rw [Separate, split, List.pairwise_append, List.pairwise_cons] at pairs
  obtain ⟨-, ⟨others, -⟩, earlier⟩ := pairs
  have untouched (name : String) (hn : name ∈ claims uri resource) :
      (registry.crawlAll before).resources.get? name = registry.resources.get? name :=
    get?_crawlAll fun document hd hc =>
      earlier document hd _ List.mem_cons_self hc hn
  refine ⟨registry.crawlAll before, ?_, fun name hn other => ?_, fun name hn => ?_⟩
  · rw [untouched uri List.mem_cons_self, Table.get?_of_mem hb.nodup hm]
  · rw [untouched name hn, Table.get?_eq_none_iff]
    intro known
    obtain ⟨⟨_, document⟩, hd, rfl⟩ := List.mem_map.mp known
    have same := hs.eq_of_claims hd hm List.mem_cons_self hn
    exact other (congrArg Prod.fst same)
  · have whole : registry.crawl =
        ((registry.crawlAll before).crawlDocument (uri, resource)).crawlAll after := by
      rw [crawl, crawlAll, split, List.foldl_append, List.foldl_cons]
      rfl
    rw [whole]
    exact get?_crawlAll fun document hd hc => others document hd hn hc

/-- What a claimed name stands for after crawling: a resource that the document embeds, or
the document under the name it goes by. -/
theorem crawl_claimed (hb : registry.Built) (hs : registry.Separate) {uri name : String}
    {document resource : Resource} (hm : (uri, document) ∈ registry.resources)
    (hn : name ∈ claims uri document)
    (hr : registry.crawl.resources.get? name = some resource) :
    (name ∈ embedded uri document ∧ resource.nameAt name = name) ∨
      (name ∉ embedded uri document ∧ (name = uri ∨ name = nameOf uri document) ∧
        resource.contents = document.contents ∧ resource.nameAt name = nameOf uri document) := by
  obtain ⟨current, here, elsewhere, crawled⟩ := hs.crawl_get? hb hm
  rw [crawled name hn, crawlDocument] at hr
  by_cases he : name ∈ embedded uri document
  · obtain ⟨contents, found⟩ := get?_foldl_record_of_mem he (current.adopt uri document)
    rw [found] at hr
    cases hr
    exact .inl ⟨he, rfl⟩
  · rw [get?_foldl_record_of_not_mem he] at hr
    refine .inr ⟨he, ?_⟩
    simp only [claims, List.mem_cons, he, or_false] at hn
    refine ⟨hn, ?_⟩
    cases hi : document.id with
    | none =>
      have same : nameOf uri document = uri := by rw [nameOf, hi]
      rw [same] at hn ⊢
      obtain rfl := hn.elim id id
      rw [adopt, hi] at hr
      dsimp only at hr
      rw [here] at hr
      cases hr
      exact ⟨rfl, by rw [Resource.nameAt, hi, Option.getD_none]⟩
    | some id =>
      rw [adopt_of_id hi, get?_renamed, here] at hr
      by_cases hu : uri = name
      · subst hu
        rw [if_pos rfl, Option.map_some, Option.some_or, ite_self] at hr
        cases hr
        exact ⟨rfl, rfl⟩
      · obtain rfl := hn.resolve_left (Ne.symm hu)
        rw [if_pos rfl, if_neg hu, elsewhere _ (nameOf_mem_claims _ _) (Ne.symm hu), Option.none_or]
          at hr
        cases hr
        exact ⟨rfl, rfl⟩

/-- What is registered after crawling is claimed. -/
theorem exists_claim {name : String} {resource : Resource}
    (hr : registry.crawl.resources.get? name = some resource) :
    ∃ document ∈ registry.resources, name ∈ claims document.1 document.2 := by
  by_contra none
  push Not at none
  rw [crawl, get?_crawlAll none] at hr
  exact none _ (Table.mem_of_get? hr) List.mem_cons_self

/-- A document is known under the name it goes by. -/
theorem exists_nameOf (hb : registry.Built) (hs : registry.Separate) {uri : String}
    {document : Resource} (hm : (uri, document) ∈ registry.resources) :
    ∃ resource, registry.crawl.resources.get? (nameOf uri document) = some resource := by
  obtain ⟨current, here, -, crawled⟩ := hs.crawl_get? hb hm
  rw [crawled _ (nameOf_mem_claims _ _), crawlDocument]
  by_cases he : nameOf uri document ∈ embedded uri document
  · obtain ⟨contents, found⟩ := get?_foldl_record_of_mem he (current.adopt uri document)
    exact ⟨_, found⟩
  · rw [get?_foldl_record_of_not_mem he]
    cases hi : document.id with
    | none => exact ⟨document, by rw [adopt, hi, nameOf, hi]; exact here⟩
    | some id =>
      rw [adopt_of_id hi, if_pos rfl]
      cases Table.get? (current.renamed uri (nameOf uri document)) (nameOf uri document) with
      | none => exact ⟨_, rfl⟩
      | some resource => exact ⟨resource, rfl⟩

/-- The name of a resource leads to a resource of that name. -/
theorem exists_nameAt (hb : registry.Built) (hs : registry.Separate) {uri : String}
    {resource : Resource} (hr : registry.crawl.resources.get? uri = some resource) :
    ∃ named, registry.crawl.resources.get? (resource.nameAt uri) = some named ∧
      named.nameAt (resource.nameAt uri) = resource.nameAt uri := by
  obtain ⟨⟨key, document⟩, hm, hn⟩ := exists_claim hr
  rcases crawl_claimed hb hs hm hn hr with ⟨-, own⟩ | ⟨-, -, -, declared⟩
  · exact ⟨resource, by rw [own]; exact hr, by rw [own, own]⟩
  · obtain ⟨named, found⟩ := exists_nameOf hb hs hm
    refine ⟨named, by rw [declared, found], ?_⟩
    rw [declared]
    rcases crawl_claimed hb hs hm (nameOf_mem_claims key document) found with ⟨-, own⟩ | ⟨-, -, -, own⟩
    · exact own
    · exact own

/-- The name of a document is not that of an embedded resource, unless the document is
hidden by that resource. -/
theorem nameOf_ne_of_embedded (hs : registry.Separate) (ht : registry.NoTwins)
    {a b : String × Resource} (ha : a ∈ registry.resources) (hb : b ∈ registry.resources)
    {uri name : String} (he : name ∈ embedded a.1 a.2) (hu : uri ∉ embedded b.1 b.2)
    (hub : uri = b.1 ∨ uri = nameOf b.1 b.2) : nameOf b.1 b.2 ≠ name := by
  rintro rfl
  obtain rfl : a = b := hs.eq_of_claims ha hb
    (mem_claims_of_embedded he) (nameOf_mem_claims _ _)
  have registered := ht a ha he
  rw [registered] at he hub
  have own : uri = a.1 := hub.elim id id
  rw [own] at hu
  exact hu he

/-- Resources of one name have the same contents, if no document has a twin. -/
theorem contents_eq_of_nameAt (hb : registry.Built) (hs : registry.Separate)
    (ht : registry.NoTwins) {uri₁ uri₂ : String} {resource₁ resource₂ : Resource}
    (h₁ : registry.crawl.resources.get? uri₁ = some resource₁)
    (h₂ : registry.crawl.resources.get? uri₂ = some resource₂)
    (hn : resource₁.nameAt uri₁ = resource₂.nameAt uri₂) :
    resource₁.contents = resource₂.contents := by
  obtain ⟨document₁, hm₁, hc₁⟩ := exists_claim h₁
  obtain ⟨document₂, hm₂, hc₂⟩ := exists_claim h₂
  rcases crawl_claimed hb hs hm₁ hc₁ h₁ with ⟨he₁, own₁⟩ | ⟨he₁, at₁, contents₁, name₁⟩ <;>
    rcases crawl_claimed hb hs hm₂ hc₂ h₂ with ⟨he₂, own₂⟩ | ⟨he₂, at₂, contents₂, name₂⟩
  · obtain rfl : uri₁ = uri₂ := by rw [← own₁, hn, own₂]
    rw [h₁] at h₂
    exact congrArg Resource.contents (Option.some.inj h₂)
  · rw [own₁, name₂] at hn
    exact absurd hn.symm (nameOf_ne_of_embedded hs ht hm₁ hm₂ he₁ he₂ at₂)
  · rw [name₁, own₂] at hn
    exact absurd hn (nameOf_ne_of_embedded hs ht hm₂ hm₁ he₂ he₁ at₁)
  · have claimed : nameOf document₁.1 document₁.2 ∈ claims document₂.1 document₂.2 := by
      rw [← name₁, hn, name₂]
      exact nameOf_mem_claims _ _
    rw [contents₁, contents₂, hs.eq_of_claims hm₁ hm₂ (nameOf_mem_claims _ _) claimed]

end Registry

end SchemaDoc
