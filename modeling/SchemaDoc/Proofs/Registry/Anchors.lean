import Mathlib.Data.List.Forall2
import SchemaDoc.Proofs.Json.Keys
import SchemaDoc.Proofs.Registry.Order
import SchemaDoc.Proofs.Registry.Pointers

/-!
# Anchors lead back

Crawling writes for each anchor the resource it stands in and a pointer to it, and forgets the
object that declares it.  `Finding.anchored` lists these objects in the order in which they are
met, without any pointer.  The two lists go side by side, `Finding.leads_findings`: each place
leads to the object, as long as every resource that is found is what is known under its name.

The pointer is written while the crawl goes down from the beginning of the resource, and a
resource that begins on the way starts a pointer of its own, so following it meets no other
resource.  If no name is claimed twice, neither by two documents nor within one, every resource
that is found is still known in the end, `crawl_of_resource_mem`.  So each anchor that is recorded
leads to the object that declared it last, `recorded_anchor`.
-/

namespace SchemaDoc

namespace Finding

/-- An object under the name of the resource it stands in and of its anchor, if it has one. -/
def anchoredOf (own : String) (members : Table String Json) : List ((String × String) × Json) :=
  match (members.get? "$anchor").bind Json.asString? with
  | some name => [((own, name), .object members)]
  | none => []

mutual

/-- The objects with an anchor in a value, in the order in which they are met, under the name of
the resource they stand in and of the anchor. -/
def anchored (base : String) (isTop : Bool) : Json → List ((String × String) × Json)
  | .object members =>
    let own := (embedded? base isTop (.object members)).getD base
    anchoredOf own members ++ anchoredInMembers own members
  | .array items => anchoredInItems base items
  | _ => []
termination_by structural value => value

/-- The objects with an anchor in the members of an object. -/
def anchoredInMembers (base : String) : List (String × Json) → List ((String × String) × Json)
  | [] => []
  | (key, value) :: rest =>
    (if key ∈ dataKeys then [] else anchored base false value) ++ anchoredInMembers base rest
termination_by structural members => members

/-- The objects with an anchor in the items of an array. -/
def anchoredInItems (base : String) : List Json → List ((String × String) × Json)
  | [] => []
  | item :: rest => anchored base false item ++ anchoredInItems base rest
termination_by structural items => items

end

/-! ## Places and objects side by side -/

section Leads

variable (known : String → Option Json)

/-- A place leads to an object, and both belong to one key. -/
def Leads (place : (String × String) × AnchorPlace) (object : (String × String) × Json) : Prop :=
  place.1 = object.1 ∧ ∃ root, known place.2.resource = some root ∧
    Pointer.follow root place.2.pointer = .ok object.2

/-- All resources that are found are known. -/
def Knows (found : List Finding) : Prop :=
  ∀ uri contents, .resource uri contents ∈ found → known uri = some contents

variable {known}

theorem Knows.of_subset {found part : List Finding} (h : Knows known found) (hp : part ⊆ found) :
    Knows known part := fun uri contents hm => h uri contents (hp hm)

theorem leads_anchorOf {own pointer : String} {root : Json} {members : Table String Json}
    (hb : known own = some root) (hp : Pointer.follow root pointer = .ok (.object members)) :
    List.Forall₂ (Leads known) ((anchorOf own pointer members).filterMap place?)
      (anchoredOf own members) := by
  rw [anchorOf, anchoredOf]
  cases (members.get? "$anchor").bind Json.asString? with
  | some name => exact .cons ⟨rfl, root, hb, hp⟩ .nil
  | none => exact .nil

mutual

/-- The anchors that are found lead to the objects that declare them, one by one. -/
theorem leads_findings {base pointer : String} {isTop : Bool} {root : Json} (value : Json)
    (hk : value.uniqueKeys = true) (hb : known base = some root)
    (hp : embedded? base isTop value = none → Pointer.follow root pointer = .ok value)
    (hf : Knows known (findings base pointer isTop value)) :
    List.Forall₂ (Leads known) ((findings base pointer isTop value).filterMap place?)
      (anchored base isTop value) := by
  match value with
  | .object members =>
    obtain ⟨nodup, hk⟩ := Json.uniqueKeys_object.mp hk
    -- From the beginning of the resource a pointer leads to the object, and on to its members.
    have part {own pointer : String} {root : Json} (hb : known own = some root)
        (hp : Pointer.follow root pointer = .ok (.object members))
        (hf : Knows known (inMembers own pointer members)) :
        List.Forall₂ (Leads known)
          ((anchorOf own pointer members ++ inMembers own pointer members).filterMap place?)
          (anchoredOf own members ++ anchoredInMembers own members) := by
      rw [List.filterMap_append]
      refine List.rel_append (leads_anchorOf hb hp) (leads_inMembers members hk hb ?_ hf)
      intro key value hm he
      refine Pointer.follow_extend hp ?_ (Option.map_eq_none_iff.mp he)
      rw [Pointer.child?, String.ofList_toList]
      exact Table.get?_of_mem nodup hm
    rw [findings] at hf ⊢
    rw [anchored]
    split at hf
    · rename_i uri he
      rw [he]
      -- The pointer begins anew, at the object.
      exact part (hf uri _ List.mem_cons_self) rfl
        (hf.of_subset (List.subset_cons_of_subset _ (List.subset_append_right _ _)))
    · rename_i he
      rw [he]
      exact part hb (hp he) (hf.of_subset (List.subset_append_right _ _))
  | .array items =>
    refine leads_inItems items (Json.uniqueKeys_array.mp hk) hb ?_ hf
    intro i item hi he
    refine Pointer.follow_extend (hp (by cases isTop <;> rfl)) ?_
      (Option.map_eq_none_iff.mp he)
    rw [Pointer.child?, Pointer.index?_toString, Option.bind_some, Nat.zero_add, hi]
  | .null | .bool _ | .number _ | .string _ => exact .nil
termination_by structural value

theorem leads_inMembers {base pointer : String} {root : Json} (members : List (String × Json))
    (hk : ∀ member ∈ members, member.2.uniqueKeys = true) (hb : known base = some root)
    (hp : ∀ key value, (key, value) ∈ members → embedded? base false value = none →
      Pointer.follow root (Pointer.extend pointer key) = .ok value)
    (hf : Knows known (inMembers base pointer members)) :
    List.Forall₂ (Leads known) ((inMembers base pointer members).filterMap place?)
      (anchoredInMembers base members) := by
  match members with
  | [] => exact .nil
  | (key, value) :: rest =>
    rw [inMembers] at hf ⊢
    rw [anchoredInMembers, List.filterMap_append]
    refine List.rel_append ?_ (leads_inMembers rest (List.forall_mem_cons.mp hk).2 hb
      (fun key value hm => hp key value (List.mem_cons_of_mem _ hm))
      (hf.of_subset (List.subset_append_right _ _)))
    split
    · exact .nil
    · rename_i hd
      rw [if_neg hd] at hf
      exact leads_findings value (hk _ List.mem_cons_self) hb (hp key value List.mem_cons_self)
        (hf.of_subset (List.subset_append_left _ _))
termination_by structural members

theorem leads_inItems {base pointer : String} {position : Nat} {root : Json} (items : List Json)
    (hk : ∀ item ∈ items, item.uniqueKeys = true) (hb : known base = some root)
    (hp : ∀ i item, items[i]? = some item → embedded? base false item = none →
      Pointer.follow root (Pointer.extend pointer (toString (position + i))) = .ok item)
    (hf : Knows known (inItems base pointer position items)) :
    List.Forall₂ (Leads known) ((inItems base pointer position items).filterMap place?)
      (anchoredInItems base items) := by
  match items with
  | [] => exact .nil
  | item :: rest =>
    rw [inItems] at hf ⊢
    rw [anchoredInItems, List.filterMap_append]
    refine List.rel_append ?_ (leads_inItems rest (List.forall_mem_cons.mp hk).2 hb ?_
      (hf.of_subset (List.subset_append_right _ _)))
    · exact leads_findings item (hk _ List.mem_cons_self) hb (hp 0 item rfl)
        (hf.of_subset (List.subset_append_left _ _))
    · -- What is next for the rest is one further for the whole.
      intro i other hi
      rw [Nat.add_assoc, Nat.add_comm 1 i]
      exact hp (i + 1) other hi
termination_by structural items

end

end Leads

end Finding

namespace Registry

/-- The objects with an anchor in a document. -/
def anchoredIn (document : String × Resource) : List ((String × String) × Json) :=
  Finding.anchored (nameOf document.1 document.2) true document.2.contents

/-- The objects with an anchor in all documents of a registry, in the order in which they are
met. -/
def anchored (registry : Registry) : List ((String × String) × Json) :=
  registry.resources.flatMap anchoredIn

/-- No document claims the name it goes by, or the name of an embedded resource, twice. -/
def SingleClaims (registry : Registry) : Prop :=
  ∀ document ∈ registry.resources,
    (nameOf document.1 document.2 :: embedded document.1 document.2).Nodup

instance (registry : Registry) : Decidable registry.SingleClaims :=
  inferInstanceAs (Decidable (∀ document ∈ registry.resources,
    (nameOf document.1 document.2 :: embedded document.1 document.2).Nodup))

variable {registry : Registry}

/-! ## What is recorded in the end -/

/-- Of the anchors of all documents the last stays under its key. -/
theorem get?_anchors_crawlAll (documents : List (String × Resource)) (key : String × String) :
    ∀ registry : Registry, (registry.crawlAll documents).anchors.get? key =
      (Table.get? (documents.flatMap placesIn).reverse key).or (registry.anchors.get? key) := by
  induction documents with
  | nil => exact fun _ => rfl
  | cons document rest ih =>
    intro registry
    rw [crawlAll, List.foldl_cons, ← crawlAll, ih, get?_anchors_crawlDocument, ← Option.or_assoc,
      ← Table.get?_append, ← List.reverse_append, List.flatMap_cons]

/-- Of resources that are found under different names each stays. -/
theorem get?_foldl_record_of_nodup {found : List Finding}
    (h : (found.filterMap Finding.uri?).Nodup) {uri : String} {contents : Json}
    (hm : .resource uri contents ∈ found) :
    ∀ registry : Registry,
      (found.foldl record registry).resources.get? uri = some ⟨contents, some uri⟩ := by
  induction found with
  | nil => cases hm
  | cons finding rest ih =>
    intro registry
    rcases List.mem_cons.mp hm with rfl | hm
    · have new : uri ∉ rest.filterMap Finding.uri? := (List.nodup_cons.mp h).1
      rw [List.foldl_cons, get?_foldl_record_of_not_mem new, record, Table.get?_put, if_pos rfl]
    · refine ih ?_ hm _
      cases finding with
      | resource => exact (List.nodup_cons.mp h).2
      | anchor => exact h

/-- A resource that is found in a document is known under its name. -/
theorem crawl_of_resource_mem (hs : registry.Separate) (hc : registry.SingleClaims)
    {document : String × Resource} (hm : document ∈ registry.resources) {uri : String}
    {contents : Json}
    (hf : .resource uri contents ∈
      Finding.findings (nameOf document.1 document.2) "" true document.2.contents) :
    registry.crawl.resources.get? uri = some ⟨contents, some uri⟩ := by
  have claimed : uri ∈ claims document.1 document.2 :=
    mem_claims_of_embedded (List.mem_filterMap.mpr ⟨_, hf, rfl⟩)
  have turn := congrArg Prod.fst (under_crawlAll hs hm claimed registry)
  refine turn.trans ?_
  rw [crawlDocument]
  exact get?_foldl_record_of_nodup (List.nodup_cons.mp (hc _ hm)).2 hf _

/-- A document is known under the name it goes by. -/
theorem crawl_contents_of_nameOf (hb : registry.Built) (hs : registry.Separate)
    (hc : registry.SingleClaims) {document : String × Resource}
    (hm : document ∈ registry.resources) :
    (registry.crawl.resources.get? (nameOf document.1 document.2)).map Resource.contents =
      some document.2.contents := by
  obtain ⟨resource, hr⟩ := exists_nameOf hb hs hm
  rcases crawl_claimed hb hs hm (nameOf_mem_claims _ _) hr with ⟨twice, -⟩ | ⟨-, -, same, -⟩
  · exact absurd twice (List.nodup_cons.mp (hc _ hm)).1
  · rw [hr, Option.map_some, same]

/-- What stands first under a key in one list stands beside what stands first in the other. -/
theorem exists_get?_beside {α β κ : Type} [DecidableEq κ] {R : κ × α → κ × β → Prop}
    (key : ∀ {a b}, R a b → a.1 = b.1) {places : Table κ α} {objects : Table κ β}
    (h : List.Forall₂ R places objects) {k : κ} {a : α}
    (hg : Table.get? places k = some a) : ∃ b, Table.get? objects k = some b ∧ R (k, a) (k, b) := by
  induction h with
  | nil => cases hg
  | @cons x y _ _ related _ ih =>
    obtain ⟨k', a'⟩ := x
    obtain ⟨k'', b⟩ := y
    obtain rfl : k' = k'' := key related
    rw [Table.get?] at hg ⊢
    split
    · rename_i hk
      subst hk
      rw [if_pos rfl] at hg
      cases hg
      exact ⟨b, rfl, related⟩
    · rename_i hk
      rw [if_neg hk] at hg
      exact ih hg

/-- The places of all anchors lead to the objects that declare them, one by one. -/
theorem leads_anchored (hb : registry.Built) (hs : registry.Separate) (hc : registry.SingleClaims)
    (hk : ∀ document ∈ registry.resources, document.2.contents.uniqueKeys = true) :
    List.Forall₂
      (Finding.Leads fun uri => (registry.crawl.resources.get? uri).map Resource.contents)
      (registry.resources.flatMap placesIn) registry.anchored := by
  have each (documents : List (String × Resource)) (hd : documents ⊆ registry.resources) :
      List.Forall₂
        (Finding.Leads fun uri => (registry.crawl.resources.get? uri).map Resource.contents)
        (documents.flatMap placesIn) (documents.flatMap anchoredIn) := by
    induction documents with
    | nil => exact .nil
    | cons document rest ih =>
      have hm : document ∈ registry.resources := hd List.mem_cons_self
      rw [List.flatMap_cons, List.flatMap_cons]
      refine List.rel_append ?_ (ih (List.subset_of_cons_subset hd))
      refine Finding.leads_findings _ (hk _ hm) (crawl_contents_of_nameOf hb hs hc hm)
        (fun _ => rfl) fun uri contents hf => ?_
      rw [crawl_of_resource_mem hs hc hm hf, Option.map_some]
  exact each _ (List.Subset.refl _)

/-- If no name is claimed twice, every anchor that crawling records leads to a value, which is the
object that declared the anchor in that resource last, and each anchor that is declared is
recorded. -/
theorem recorded_anchor (hb : registry.Built) (hn : registry.anchors = [])
    (hs : registry.Separate) (hc : registry.SingleClaims)
    (hk : ∀ document ∈ registry.resources, document.2.contents.uniqueKeys = true)
    (uri name : String) :
    (∀ place, registry.crawl.anchors.get? (uri, name) = some place →
      ∃ object, registry.crawl.anchor uri name = .ok object ∧
        Table.get? registry.anchored.reverse (uri, name) = some object) ∧
    ∀ object, Table.get? registry.anchored.reverse (uri, name) = some object →
      ∃ place, registry.crawl.anchors.get? (uri, name) = some place := by
  have recorded : registry.crawl.anchors.get? (uri, name) =
      Table.get? (registry.resources.flatMap placesIn).reverse (uri, name) := by
    rw [crawl, get?_anchors_crawlAll, hn, Table.get?, Option.or_none]
  -- The table keeps the last place under a key, which stands first if both lists are reversed.
  have sides := List.rel_reverse (leads_anchored hb hs hc hk)
  constructor
  · intro place h
    obtain ⟨object, hg, -, root, known, followed⟩ :=
      exists_get?_beside And.left sides (recorded ▸ h)
    refine ⟨object, ?_, hg⟩
    obtain ⟨resource, found, rfl⟩ := Option.map_eq_some_iff.mp known
    simp only [anchor, h, get, found]
    change resource.follow place.resource place.pointer = .ok object
    rw [Resource.follow, followed]
  · intro object h
    obtain ⟨place, hg, -⟩ := exists_get?_beside (fun leads => leads.1.symm) sides.flip h
    exact ⟨place, recorded.trans hg⟩

/-- Keys that have to be escaped, and a resource in a resource that declares one anchor twice. -/
def knotted : Registry :=
  Registry.register {} "Root" (.object [("$id", .string "root"),
    ("~/", .array [.null, .object [("", .object [("$anchor", .string "a")])]]),
    ("0", .object [("$id", .string "inner"), ("x", .object [("$anchor", .string "a")]),
      ("y", .object [("$anchor", .string "a"), ("title", .string "last")])])])

/-- Both resources have an anchor of one name, and each leads to its own object. -/
theorem knotted_recorded_anchor :
    (∃ object, knotted.crawl.anchor "root" "a" = .ok object ∧
      Table.get? knotted.anchored.reverse ("root", "a") = some object) ∧
    ∃ object, knotted.crawl.anchor "inner" "a" = .ok object ∧
      Table.get? knotted.anchored.reverse ("inner", "a") = some object :=
  have built : knotted.Built := .register _ _ .empty
  have separate : knotted.Separate := by decide +kernel
  have single : knotted.SingleClaims := by decide +kernel
  have keys : ∀ document ∈ knotted.resources, document.2.contents.uniqueKeys = true := by
    decide +kernel
  have outer : knotted.crawl.anchors.get? ("root", "a") = some ⟨"root", "/~0~1/1/"⟩ := by
    decide +kernel
  have inner : knotted.crawl.anchors.get? ("inner", "a") = some ⟨"inner", "/y"⟩ := by
    decide +kernel
  ⟨(recorded_anchor built rfl separate single keys "root" "a").1 _ outer,
    (recorded_anchor built rfl separate single keys "inner" "a").1 _ inner⟩

end Registry

end SchemaDoc
