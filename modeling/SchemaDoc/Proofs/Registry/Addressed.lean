import SchemaDoc.Proofs.Registry.Places

/-!
# Documents with an address

A text is an *address* if it is not empty and has no fragment.  Crawling documents that are
registered under addresses finds resources under addresses only: what is joined onto an
address leads somewhere, `Finding.isAddress_findings`.  So nothing is known under the empty
name, and no place is without a name, `Registry.Found.name_ne_empty`.
-/

namespace SchemaDoc

/-- A text that is not empty and has no fragment. -/
def Uri.IsAddress (uri : String) : Prop := uri ≠ "" ∧ '#' ∉ uri.toList

instance (uri : String) : Decidable (Uri.IsAddress uri) := inferInstanceAs (Decidable (_ ∧ _))

/-- A name that is declared does not begin with its fragment. -/
theorem Json.head?_declaredId {value : Json} {id : String} (h : value.declaredId? = some id) :
    id.toList.head? ≠ some '#' := by
  rw [declaredId?, Option.filter_eq_some_iff] at h
  simpa using h.2

namespace Finding

open Uri (IsAddress)

/-- An object that begins a resource inside an address begins it at an address. -/
theorem isAddress_embedded {base uri : String} {isTop : Bool} {value : Json}
    (hb : IsAddress base) (h : embedded? base isTop value = some uri) : IsAddress uri := by
  rw [embedded?] at h
  split at h
  · cases h
  · obtain ⟨id, hid, rfl⟩ := Option.map_eq_some_iff.mp h
    refine ⟨?_, Uri.numberSign_defrag _⟩
    cases hd : id.toList.head? with
    | none =>
      rw [List.head?_eq_none_iff, String.toList_eq_nil_iff] at hd
      rw [hd, Uri.join, if_pos rfl, Uri.defrag_name hb.2]
      exact hb.1
    | some c =>
      have sign : c ≠ '#' := fun e => Json.head?_declaredId hid (e ▸ hd)
      obtain ⟨d, hjoin, hne⟩ := Uri.head?_join base hd sign
      exact Uri.defrag_ne_empty hjoin hne

/-- An anchor is no resource. -/
theorem uri?_of_mem_anchorOf {base pointer : String} {members : Table String Json}
    {finding : Finding} (h : finding ∈ anchorOf base pointer members) : finding.uri? = none := by
  unfold anchorOf at h
  split at h
  · rw [List.mem_singleton] at h
    rw [h, uri?]
  · cases h

mutual

/-- The resources inside an address are found at addresses. -/
theorem isAddress_findings {base pointer : String} {isTop : Bool} (hb : IsAddress base)
    (value : Json) :
    ∀ finding ∈ findings base pointer isTop value, ∀ uri ∈ finding.uri?, IsAddress uri := by
  intro finding hf uri hu
  match value with
  | .object members =>
    rw [findings] at hf
    split at hf
    · rename_i own he
      have address := isAddress_embedded hb he
      rcases List.mem_cons.mp hf with rfl | hf
      · cases hu
        exact address
      · rcases List.mem_append.mp hf with hf | hf
        · rw [uri?_of_mem_anchorOf hf] at hu
          cases hu
        · exact isAddress_inMembers address members finding hf uri hu
    · rcases List.mem_append.mp hf with hf | hf
      · rw [uri?_of_mem_anchorOf hf] at hu
        cases hu
      · exact isAddress_inMembers hb members finding hf uri hu
  | .array items => exact isAddress_inItems hb items finding hf uri hu
  | .null | .bool _ | .number _ | .string _ => cases hf
termination_by structural value

theorem isAddress_inMembers {base pointer : String} (hb : IsAddress base)
    (members : List (String × Json)) :
    ∀ finding ∈ inMembers base pointer members, ∀ uri ∈ finding.uri?, IsAddress uri := by
  intro finding hf uri hu
  match members with
  | [] => cases hf
  | (key, value) :: rest =>
    rw [inMembers] at hf
    rcases List.mem_append.mp hf with hf | hf
    · split at hf
      · cases hf
      · exact isAddress_findings hb value finding hf uri hu
    · exact isAddress_inMembers hb rest finding hf uri hu
termination_by structural members

theorem isAddress_inItems {base pointer : String} {position : Nat} (hb : IsAddress base)
    (items : List Json) :
    ∀ finding ∈ inItems base pointer position items, ∀ uri ∈ finding.uri?, IsAddress uri := by
  intro finding hf uri hu
  match items with
  | [] => cases hf
  | item :: rest =>
    rw [inItems] at hf
    rcases List.mem_append.mp hf with hf | hf
    · exact isAddress_findings hb item finding hf uri hu
    · exact isAddress_inItems hb rest finding hf uri hu
termination_by structural items

end

end Finding

namespace Registry

/-- Every document is registered under an address. -/
def Addressed (registry : Registry) : Prop :=
  ∀ document ∈ registry.resources, Uri.IsAddress document.1

instance (registry : Registry) : Decidable registry.Addressed :=
  inferInstanceAs (Decidable (∀ document ∈ registry.resources, Uri.IsAddress document.1))

variable {registry : Registry}

/-- What a document claims are addresses. -/
theorem Addressed.claims (hb : registry.Built) (ha : registry.Addressed) {uri name : String}
    {document : Resource} (hm : (uri, document) ∈ registry.resources)
    (hn : name ∈ claims uri document) : Uri.IsAddress name := by
  have own : Uri.IsAddress uri := ha _ hm
  have declared : Uri.IsAddress (nameOf uri document) :=
    ⟨nameOf_ne_empty own.1 document,
      numberSign_nameOf own.2 (hb.numberSign_nameAt (Table.get?_of_mem hb.nodup hm) own.2)⟩
  rcases List.mem_cons.mp hn with rfl | hn
  · exact own
  · rcases List.mem_cons.mp hn with rfl | hn
    · exact declared
    · obtain ⟨finding, hf, hu⟩ := List.mem_filterMap.mp hn
      exact Finding.isAddress_findings declared _ finding hf name hu

/-- No place that is found after crawling is without a name. -/
theorem Found.name_ne_empty (hb : registry.Built) (ha : registry.Addressed) {place : Place}
    (h : registry.crawl.Found place) : place.name ≠ "" := by
  obtain ⟨base, uri, -, hp⟩ := h
  obtain ⟨hr, hn, -⟩ := placeOf_eq_ok_iff.mp hp
  obtain ⟨document, hm, claimed⟩ := exists_claim hr
  rw [hn]
  exact crawl_nameAt_ne_empty hr (ha.claims hb hm claimed).1

end Registry

end SchemaDoc
