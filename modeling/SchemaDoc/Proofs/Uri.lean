import SchemaDoc.Proofs.Url.Fragment
import SchemaDoc.Uri

/-!
# Names and fragments

A name is what stands before the first number sign.  Names joined onto each other give
names, `numberSign_join`, and a name and a fragment can be told apart again,
`defrag_name_fragment`.  A reference that is not empty and does not begin with its fragment
is never joined to an empty name.
-/

namespace SchemaDoc.Uri

open Text (cut? cutLast?)

/-! ## Cutting a fragment off -/

theorem numberSign_defrag (uri : String) : '#' ∉ (defrag uri).1.toList := by
  rw [defrag]
  split
  · rename_i hc
    rw [String.toList_ofList]
    exact (Text.cut?_eq_some_iff.mp hc).2
  · rename_i hc
    exact Text.cut?_eq_none_iff.mp hc

/-- A name has no fragment. -/
theorem defrag_name {name : String} (h : '#' ∉ name.toList) : defrag name = (name, "") := by
  rw [defrag, Text.cut?_eq_none_iff.mpr h]

/-- A name and a fragment are told apart. -/
theorem defrag_name_fragment {name : String} (h : '#' ∉ name.toList) (fragment : String) :
    defrag (name ++ "#" ++ fragment) = (name, fragment) := by
  have cut : cut? '#' (name ++ "#" ++ fragment).toList = some (name.toList, fragment.toList) :=
    Text.cut?_eq_some_iff.mpr ⟨by simp, h⟩
  rw [defrag, cut]
  simp

/-- A text that does not begin with its fragment has a name. -/
theorem defrag_ne_empty {uri : String} {c : Char} (h : uri.toList.head? = some c) (hc : c ≠ '#') :
    (defrag uri).1 ≠ "" := by
  intro empty
  rw [defrag] at empty
  split at empty
  · rename_i document fragment cut
    have whole := (Text.cut?_eq_some_iff.mp cut).1
    rw [String.ofList_eq_empty_iff] at empty
    rw [whole, empty] at h
    exact hc (Option.some.inj h).symm
  · subst empty
    cases h

/-! ## Joining -/

theorem folder_subset {document folder name : List Char}
    (h : cutLast? '/' document = some (folder, name)) : folder ⊆ document := by
  obtain ⟨pieces, hc, he⟩ := Option.map_eq_some_iff.mp h
  cases he
  intro c hm
  have whole := (Text.cut?_eq_some_iff.mp hc).1
  rw [← List.mem_reverse, whole]
  exact List.mem_append_right _ (List.mem_cons_of_mem _ (List.mem_reverse.mp hm))

theorem numberSign_joinName (base : String) {reference : String}
    (h : '#' ∉ reference.toList) : '#' ∉ (joinName base reference).toList := by
  rw [joinName]
  split
  · rename_i hr
    exact absurd (hr ▸ List.mem_cons_self) h
  · exact h
  · split
    · rename_i folder _ hc
      have folder : '#' ∉ folder := fun sign => numberSign_defrag base (folder_subset hc sign)
      simp [h, folder]
    · exact h

/-- No part of a URL that is joined onto another holds a number sign. -/
theorem joined_bare {base reference : String} {url : Url}
    (h : ((Url.parse? base).bind fun url => Url.resolve? (some url) reference) = some url) :
    url.Bare := by
  obtain ⟨own, ho, h⟩ := Option.bind_eq_some_iff.mp h
  refine Url.resolve?_bare (fun other he => ?_) h
  cases he
  exact Url.parse?_bare ho

/-- Names joined onto each other give a name. -/
theorem numberSign_join {base reference : String} (hb : '#' ∉ base.toList)
    (hr : '#' ∉ reference.toList) : '#' ∉ (join base reference).toList := by
  rw [join]
  split
  · exact hb
  · split
    · exact hr
    · split
      · rename_i url hu
        obtain ⟨own, -, ho⟩ := Option.bind_eq_some_iff.mp hu
        exact Url.numberSign_render (joined_bare hu) (Url.fragment_of_resolve? hr ho)
      · exact numberSign_joinName base hr

/-- Nothing is relative to the empty name. -/
theorem join_empty (reference : String) : join "" reference = reference := by
  have none : Url.parse? "" = none := by decide +kernel
  have name : joinName "" reference = reference := by
    rw [joinName]
    split
    · rename_i hr
      rw [← String.toList_inj]
      simp [hr, defrag, cut?]
    · rfl
    · rfl
  rw [join, none, name]
  split
  · rename_i h
    exact h.symm
  · split <;> rfl

/-- What a reference is joined to begins with no fragment if the reference does not. -/
theorem head?_join (base : String) {reference : String} {c : Char}
    (h : reference.toList.head? = some c) (hc : c ≠ '#') :
    ∃ d, (join base reference).toList.head? = some d ∧ d ≠ '#' := by
  rw [join]
  split
  · rename_i empty
    rw [empty] at h
    cases h
  · split
    · exact ⟨c, h, hc⟩
    · split
      · rename_i url hu
        exact Url.head?_render (joined_bare hu)
      · rw [joinName]
        split
        · rename_i hr
          rw [hr] at h
          exact absurd (Option.some.inj h).symm hc
        · exact ⟨c, h, hc⟩
        · split
          · rename_i folder _ hf
            cases folder with
            | nil => exact ⟨'/', by simp, by decide⟩
            | cons first rest =>
              refine ⟨first, by simp, ?_⟩
              rintro rfl
              exact numberSign_defrag base (folder_subset hf List.mem_cons_self)
          · exact ⟨c, h, hc⟩

/-- Only nothing joined onto nothing gives nothing. -/
theorem join_eq_empty {base reference : String} (h : join base reference = "") :
    base = "" ∧ reference = "" := by
  rw [join] at h
  split at h
  · rename_i empty
    exact ⟨h, empty⟩
  · rename_i given
    split at h
    · exact absurd h given
    · split at h
      · rename_i url hu
        obtain ⟨c, hc, -⟩ := Url.head?_render (joined_bare hu)
        rw [h] at hc
        cases hc
      · rw [joinName] at h
        split at h
        · simp at h
        · exact absurd h given
        · split at h
          · simp at h
          · exact absurd h given

end SchemaDoc.Uri
