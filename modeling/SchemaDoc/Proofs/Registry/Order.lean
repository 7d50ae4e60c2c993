import SchemaDoc.Proofs.Registry.Claims

/-!
# The order of crawling

The documents of a registry are crawled one after the other, and each turn writes into the same
two tables.  What a registry knows under a name, `Registry.under`, is the resource and its
anchors.  A turn changes it only if the document claims the name, `under_crawlDocument`, and what
it then is depends on what it was and on nothing that is known under other names,
`under_crawlDocument_congr`.

So if no two documents claim one name, a name is a matter of the one turn of the document that
claims it, `under_crawlAll`, whatever that document does within itself.  Whoever has the turn
first makes no difference, `crawl_order`.
-/

namespace SchemaDoc

namespace Finding

/-- The key and the place of an anchor. -/
def place? : Finding → Option ((String × String) × AnchorPlace)
  | .resource .. => none
  | .anchor own name pointer => some ((own, name), ⟨own, pointer⟩)

/-- An anchor of an object belongs to the resource that the object stands in. -/
theorem eq_of_mem_anchorOf {base pointer own name place : String} {members : Table String Json}
    (h : .anchor own name place ∈ anchorOf base pointer members) : own = base := by
  unfold anchorOf at h
  split at h
  · cases List.mem_singleton.mp h
    rfl
  · cases h

mutual

/-- An anchor that is found in a resource belongs to it or to one that is found with it. -/
theorem owner_of_mem_findings {base pointer own name place : String} {isTop : Bool} (value : Json)
    (h : .anchor own name place ∈ findings base pointer isTop value) :
    own = base ∨ own ∈ (findings base pointer isTop value).filterMap uri? := by
  match value with
  | .object members =>
    rw [findings] at h ⊢
    split at h
    · -- The object begins a resource, which is found before all that is in it.
      rename_i uri _
      right
      rw [List.filterMap_cons, List.filterMap_append]
      rcases List.mem_append.mp ((List.mem_cons.mp h).resolve_left nofun) with h | h
      · exact eq_of_mem_anchorOf h ▸ List.mem_cons_self
      · rcases owner_of_mem_inMembers members h with rfl | found
        · exact List.mem_cons_self
        · exact List.mem_cons_of_mem _ (List.mem_append_right _ found)
    · rw [List.filterMap_append]
      rcases List.mem_append.mp h with h | h
      · exact .inl (eq_of_mem_anchorOf h)
      · exact (owner_of_mem_inMembers members h).imp_right (List.mem_append_right _)
  | .array items => exact owner_of_mem_inItems items h
  | .null | .bool _ | .number _ | .string _ => cases h
termination_by structural value

theorem owner_of_mem_inMembers {base pointer own name place : String}
    (members : List (String × Json)) (h : .anchor own name place ∈ inMembers base pointer members) :
    own = base ∨ own ∈ (inMembers base pointer members).filterMap uri? := by
  match members with
  | [] => cases h
  | (key, value) :: rest =>
    rw [inMembers] at h ⊢
    rw [List.filterMap_append]
    rcases List.mem_append.mp h with h | h
    · split at h
      · cases h
      · rename_i hk
        rw [if_neg hk]
        exact (owner_of_mem_findings value h).imp_right (List.mem_append_left _)
    · exact (owner_of_mem_inMembers rest h).imp_right (List.mem_append_right _)
termination_by structural members

theorem owner_of_mem_inItems {base pointer own name place : String} {position : Nat}
    (items : List Json) (h : .anchor own name place ∈ inItems base pointer position items) :
    own = base ∨ own ∈ (inItems base pointer position items).filterMap uri? := by
  match items with
  | [] => cases h
  | item :: rest =>
    rw [inItems] at h ⊢
    rw [List.filterMap_append]
    rcases List.mem_append.mp h with h | h
    · exact (owner_of_mem_findings item h).imp_right (List.mem_append_left _)
    · exact (owner_of_mem_inItems rest h).imp_right (List.mem_append_right _)
termination_by structural items

end

end Finding

namespace Registry

/-- What is known under a name: the resource and its anchors. -/
def under (registry : Registry) (name : String) :
    Option Resource × (String → Option AnchorPlace) :=
  (registry.resources.get? name, fun anchor => registry.anchors.get? (name, anchor))

variable {registry other : Registry} {name : String}

/-! ## One turn -/

/-- Of the anchors that are recorded under one key the last stays. -/
theorem get?_anchors_foldl_record (found : List Finding) (key : String × String) :
    ∀ registry : Registry, (found.foldl record registry).anchors.get? key =
      (Table.get? (found.filterMap Finding.place?).reverse key).or (registry.anchors.get? key) := by
  induction found with
  | nil => exact fun _ => rfl
  | cons finding rest ih =>
    intro registry
    rw [List.foldl_cons, ih]
    cases finding with
    | resource uri contents => rfl
    | anchor own anchor place =>
      have keyed : (registry.record (.anchor own anchor place)).anchors.get? key =
          (Table.get? [((own, anchor), ⟨own, place⟩)] key).or (registry.anchors.get? key) := by
        rw [record, Table.get?_put, Table.get?]
        split <;> rfl
      rw [keyed, ← Option.or_assoc, ← Table.get?_append, ← List.reverse_cons]
      rfl

/-- What is recorded depends on what was known under the name. -/
theorem under_record_congr (h : registry.under name = other.under name) (finding : Finding) :
    (registry.record finding).under name = (other.record finding).under name := by
  obtain ⟨hr, ha⟩ := Prod.mk.inj h
  cases finding with
  | resource uri contents => simp only [under, record, Table.get?_put, hr, ha]
  | anchor own anchor pointer =>
    refine Prod.ext hr (funext fun asked => ?_)
    simp only [under, record, Table.get?_put]
    rw [congrFun ha asked]

theorem under_foldl_record_congr (found : List Finding) :
    ∀ {registry other : Registry}, registry.under name = other.under name →
      (found.foldl record registry).under name = (found.foldl record other).under name := by
  induction found with
  | nil => exact id
  | cons finding rest ih => exact fun h => ih (under_record_congr h finding)

@[simp] theorem anchors_adopt (registry : Registry) (uri : String) (resource : Resource) :
    (registry.adopt uri resource).anchors = registry.anchors := by
  rw [adopt]
  split <;> rfl

/-- A document is adopted under a name in view of what was known under that name. -/
theorem get?_adopt_congr (h : registry.resources.get? name = other.resources.get? name)
    (uri : String) (resource : Resource) :
    (registry.adopt uri resource).resources.get? name =
      (other.adopt uri resource).resources.get? name := by
  cases hi : resource.id with
  | none =>
    rw [adopt, adopt, hi]
    exact h
  | some id =>
    rw [adopt_of_id hi, adopt_of_id hi, get?_renamed, get?_renamed]
    by_cases hu : uri = name
    · subst hu
      rw [h]
    · rw [if_neg hu, if_neg hu, h]

/-- What is known under a name after a turn depends on what was known under it before. -/
theorem under_crawlDocument_congr (h : registry.under name = other.under name)
    (document : String × Resource) :
    (registry.crawlDocument document).under name = (other.crawlDocument document).under name := by
  obtain ⟨hr, ha⟩ := Prod.mk.inj h
  refine under_foldl_record_congr _ (Prod.ext (get?_adopt_congr hr _ _) ?_)
  simp only [under, anchors_adopt]
  exact ha

/-- The places of the anchors of a document, under their keys. -/
def placesIn (document : String × Resource) : Table (String × String) AnchorPlace :=
  (Finding.findings (nameOf document.1 document.2) "" true document.2.contents).filterMap
    Finding.place?

theorem get?_anchors_crawlDocument (registry : Registry) (document : String × Resource)
    (key : String × String) :
    (registry.crawlDocument document).anchors.get? key =
      (Table.get? (placesIn document).reverse key).or (registry.anchors.get? key) := by
  rw [crawlDocument, get?_anchors_foldl_record, anchors_adopt]
  rfl

/-- An anchor of a document belongs to a resource that the document claims. -/
theorem mem_claims_of_mem_placesIn {document : String × Resource}
    {place : (String × String) × AnchorPlace} (h : place ∈ placesIn document) :
    place.1.1 ∈ claims document.1 document.2 := by
  obtain ⟨finding, hf, hp⟩ := List.mem_filterMap.mp h
  cases finding with
  | resource => cases hp
  | anchor own name pointer =>
    cases hp
    rcases Finding.owner_of_mem_findings _ hf with rfl | found
    · exact nameOf_mem_claims _ _
    · exact mem_claims_of_embedded found

/-- A turn changes nothing under a name that the document does not claim. -/
theorem under_crawlDocument {document : String × Resource}
    (h : name ∉ claims document.1 document.2) :
    (registry.crawlDocument document).under name = registry.under name := by
  refine Prod.ext (get?_crawlDocument h) (funext fun anchor => ?_)
  have unrecorded : Table.get? (placesIn document).reverse (name, anchor) = none := by
    rw [Table.get?_eq_none_iff, Table.keys, List.map_reverse, List.mem_reverse]
    intro hm
    obtain ⟨place, hp, hk⟩ := List.mem_map.mp hm
    have claimed := mem_claims_of_mem_placesIn hp
    rw [hk] at claimed
    exact h claimed
  have kept := registry.get?_anchors_crawlDocument document (name, anchor)
  rwa [unrecorded, Option.none_or] at kept

/-! ## All turns -/

/-- What nobody claims stays as it was. -/
theorem under_crawlAll_of_not_claimed {documents : List (String × Resource)}
    (h : ∀ document ∈ documents, name ∉ claims document.1 document.2) :
    ∀ registry : Registry, (registry.crawlAll documents).under name = registry.under name := by
  induction documents with
  | nil => exact fun _ => rfl
  | cons document rest ih =>
    rw [List.forall_mem_cons] at h
    exact fun registry => (ih h.2 _).trans (under_crawlDocument h.1)

/-- Among documents that claim different names, what is known under a name after all turns is
what the turn of the document that claims it makes of it. -/
theorem under_crawlAll {documents : List (String × Resource)}
    (hs : documents.Pairwise fun a b => (claims a.1 a.2).Disjoint (claims b.1 b.2))
    {document : String × Resource} (hm : document ∈ documents)
    (hn : name ∈ claims document.1 document.2) (registry : Registry) :
    (registry.crawlAll documents).under name = (registry.crawlDocument document).under name := by
  obtain ⟨before, after, rfl⟩ := List.append_of_mem hm
  rw [List.pairwise_append, List.pairwise_cons] at hs
  obtain ⟨-, ⟨later, -⟩, earlier⟩ := hs
  have notBefore : ∀ a ∈ before, name ∉ claims a.1 a.2 :=
    fun a ha hc => earlier a ha _ List.mem_cons_self hc hn
  have notAfter : ∀ a ∈ after, name ∉ claims a.1 a.2 := fun a ha hc => later a ha hn hc
  rw [crawlAll, List.foldl_append, List.foldl_cons]
  calc (registry.crawlAll before |>.crawlDocument document |>.crawlAll after).under name
      = (registry.crawlAll before |>.crawlDocument document).under name :=
        under_crawlAll_of_not_claimed notAfter _
    _ = (registry.crawlDocument document).under name :=
        under_crawlDocument_congr (under_crawlAll_of_not_claimed notBefore _) _

/-- In whatever order the documents of a registry are crawled, if no two of them claim one name
the same resources are known in the end, with the same contents and names, and the same anchors
at the same places. -/
theorem crawl_order (hs : registry.Separate) {documents : List (String × Resource)}
    (hp : documents.Perm registry.resources) :
    (∀ uri, (registry.crawlAll documents).resources.get? uri = registry.crawl.resources.get? uri) ∧
      ∀ key, (registry.crawlAll documents).anchors.get? key = registry.crawl.anchors.get? key := by
  have hs' : documents.Pairwise fun a b => (claims a.1 a.2).Disjoint (claims b.1 b.2) :=
    hp.symm.pairwise hs fun h _ hb ha => h ha hb
  -- In either order only the turn of the one document that claims a name counts.
  have same (name : String) :
      (registry.crawlAll documents).under name = registry.crawl.under name := by
    by_cases claimed : ∃ document ∈ documents, name ∈ claims document.1 document.2
    · obtain ⟨document, hm, hn⟩ := claimed
      rw [under_crawlAll hs' hm hn, crawl, under_crawlAll hs (hp.mem_iff.mp hm) hn]
    · push Not at claimed
      rw [under_crawlAll_of_not_claimed claimed, crawl,
        under_crawlAll_of_not_claimed fun document hm => claimed document (hp.mem_iff.mpr hm)]
  refine ⟨fun uri => congrArg Prod.fst (same uri), fun key => ?_⟩
  exact congrFun (congrArg Prod.snd (same key.1)) key.2

/-- A document that declares another name and embeds two resources under one name, and a document
beside it. -/
def crowded : Registry :=
  (Registry.register {} "A" (.object [("$id", .string "a"), ("$defs", .object [
    ("x", .object [("$id", .string "inner"), ("$anchor", .string "n")]),
    ("y", .object [("$id", .string "inner"), ("z", .object [("$anchor", .string "n")])])])])).register
    "B" (.object [("$anchor", .string "n")])

/-- The last of the two embedded resources stays, and its anchor, whichever document comes first. -/
theorem crowded_crawl_order :
    crowded.Separate ∧ crowded.resources.reverse.Perm crowded.resources ∧
      (∀ uri, (crowded.crawlAll crowded.resources.reverse).resources.get? uri =
        crowded.crawl.resources.get? uri) ∧
      (crowded.crawlAll crowded.resources.reverse).anchors.get? ("inner", "n") =
        crowded.crawl.anchors.get? ("inner", "n") ∧
      crowded.crawl.anchors.get? ("inner", "n") = some ⟨"inner", "/z"⟩ :=
  have separate : crowded.Separate := by decide +kernel
  have order := crawl_order separate crowded.resources.reverse_perm
  ⟨separate, crowded.resources.reverse_perm, order.1, order.2 _, by decide +kernel⟩

end Registry

end SchemaDoc
