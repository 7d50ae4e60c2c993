import SchemaDoc.Proofs.Uri
import SchemaDoc.Proofs.Url.Apart
import SchemaDoc.Registry.Place

/-!
# References with a document and a fragment

A reference with a document and a fragment should lead where the fragment alone leads inside the
document.  It does if it is a URL by itself or if it is joined onto a plain name, since then it is
kept as it is written.  But a reference that is *read against* a URL is encoded together with its
fragment, and a bare fragment is not.  So `Uri.join` keeps the fragment if and only if no character of
it is encoded, as long as the fragment does not matter to the document, `Uri.join_fragment`.

The fragment matters to the document only behind a reference that ends in a blank or in `@`.
-/

namespace SchemaDoc

open Text (percentEncode)

/-- A fragment is the end of the text of a URL. -/
theorem Url.render_fragment (url : Url) (fragment : List Char) :
    { url with fragment := some fragment }.render =
      { url with fragment := none }.render ++ "#" ++ String.ofList fragment := by
  rw [← String.toList_inj]
  simp [render, renderPart, renderAuthority]

/-! ## Where a reference leads -/

namespace Place

/-- A bare fragment leads to itself. -/
theorem locate_fragment (base fragment : String) :
    locate base ("#" ++ fragment) = (base, fragment) := by
  simp [locate]

/-- A reference that is more than a fragment is joined. -/
theorem locate_of_ne {base reference fragment : String} (given : reference ≠ "")
    (name : '#' ∉ reference.toList) :
    locate base (reference ++ "#" ++ fragment) =
      Uri.defrag (Uri.join base (reference ++ "#" ++ fragment)) := by
  cases hr : reference.toList with
  | nil => exact absurd (String.toList_eq_nil_iff.mp hr) given
  | cons c rest =>
    have sign : c ≠ '#' := fun same => name (hr ▸ same ▸ List.mem_cons_self)
    simp [locate, hr, sign]

end Place

namespace Uri

variable {base reference : String}

/-! ## Joining with a fragment -/

/-- The URL of a reference, read against a base. -/
def against? (base reference : String) : Option Url :=
  (Url.parse? base).bind fun url => Url.resolve? (some url) reference

/-- A reference is no URL by itself, but it is one read against a base. -/
def ReadAgainst (base reference : String) : Prop :=
  (Url.parse? reference).isSome = false ∧ (against? base reference).isSome = true

instance (base reference : String) : Decidable (ReadAgainst base reference) :=
  inferInstanceAs (Decidable (_ ∧ _))

theorem join_eq (given : reference ≠ "") :
    join base reference =
      if (Url.parse? reference).isSome then reference
      else
        match against? base reference with
        | some url => url.render
        | none => joinName base reference := by
  rw [join, if_neg given]
  rfl

theorem against?_fragment (base : String) (name : '#' ∉ reference.toList) (fragment : String) :
    against? base (reference ++ "#" ++ fragment) =
      (against? base (reference ++ "#")).map fun url =>
        { url with
          fragment := some (percentEncode Url.inFragment (Url.stripEnd fragment.toList)) } := by
  rw [against?, against?]
  cases Url.parse? base with
  | none => rfl
  | some url => exact Url.resolve?_fragment (some url) name fragment

/-- A reference with a fragment takes the place of a name as the reference does. -/
theorem joinName_fragment (base : String) (given : reference ≠ "") (name : '#' ∉ reference.toList)
    (fragment : String) :
    joinName base (reference ++ "#" ++ fragment) = joinName base reference ++ "#" ++ fragment := by
  cases hr : reference.toList with
  | nil => exact absurd (String.toList_eq_nil_iff.mp hr) given
  | cons c rest =>
    have text : (reference ++ "#" ++ fragment).toList = c :: (rest ++ '#' :: fragment.toList) := by
      simp [hr]
    have sign : c ≠ '#' := fun same => name (hr ▸ same ▸ List.mem_cons_self)
    rw [joinName, joinName, text, hr]
    by_cases root : c = '/'
    · subst root
      rfl
    · simp only [List.cons.injEq, sign, root, false_and, imp_self, implies_true]
      cases Text.cutLast? '/' (defrag base).1.toList with
      | none => rfl
      | some parts => simp only [String.append_assoc]

/-- The document of a reference with a fragment, whatever the fragment is. -/
def documentOf (base reference : String) : String :=
  if (Url.parse? (reference ++ "#")).isSome then reference
  else
    match against? base (reference ++ "#") with
    | some url => { url with fragment := none }.render
    | none => joinName base reference

/-- A reference with a fragment leads to its document, and the fragment is encoded if the reference
is read against the base. -/
theorem defrag_join_fragment (base : String) (given : reference ≠ "")
    (name : '#' ∉ reference.toList) (fragment : String) :
    defrag (join base (reference ++ "#" ++ fragment)) =
      (documentOf base reference, if ReadAgainst base (reference ++ "#") then
        String.ofList (percentEncode Url.inFragment (Url.stripEnd fragment.toList)) else fragment) := by
  have text : reference ++ "#" ++ fragment ≠ "" := by simp [given]
  have alone : (Url.parse? (reference ++ "#" ++ fragment)).isSome =
      (Url.parse? (reference ++ "#")).isSome := by
    rw [Url.parse?, Url.resolve?_fragment none name, Option.isSome_map]
    rfl
  rw [join_eq text, alone, against?_fragment base name, documentOf]
  cases hp : (Url.parse? (reference ++ "#")).isSome with
  | true => simp [ReadAgainst, hp, defrag_name_fragment name]
  | false =>
    cases ha : against? base (reference ++ "#") with
    | some url =>
      have bare := joined_bare ha
      have document : '#' ∉ { url with fragment := none }.render.toList :=
        Url.numberSign_render ⟨bare.scheme, bare.authority, bare.path, bare.query⟩ rfl
      simp [ReadAgainst, hp, ha, Url.render_fragment, defrag_name_fragment document]
    | none =>
      simp [ReadAgainst, ha, joinName_fragment base given name,
        defrag_name_fragment (numberSign_joinName base name)]

/-- Behind a reference that ends neither in a blank nor in `@`, a fragment does not matter to the
document. -/
theorem documentOf_eq_join (base : String) (name : '#' ∉ reference.toList) {last : Char}
    (hl : reference.toList.getLast? = some last) (blank : Url.isSpace last = false)
    (site : last ≠ '@') :
    documentOf base reference = join base reference ∧
      (ReadAgainst base (reference ++ "#") ↔ ReadAgainst base reference) := by
  have given : reference ≠ "" := by
    rintro rfl
    cases hl
  have alone : (Url.parse? (reference ++ "#")).isSome = (Url.parse? reference).isSome := by
    rw [Url.parse?, Url.resolve?_numberSign none name hl blank site, Option.isSome_map]
    rfl
  have read : against? base (reference ++ "#") = (against? base reference).map fun url =>
      { url with fragment := some [] } := by
    rw [against?, against?]
    cases Url.parse? base with
    | none => rfl
    | some url => exact Url.resolve?_numberSign (some url) name hl blank site
  constructor
  · rw [documentOf, join_eq given, alone, read]
    cases ha : against? base reference with
    | none => rfl
    | some url =>
      obtain ⟨own, -, hu⟩ := Option.bind_eq_some_iff.mp ha
      have same : { url with fragment := none } = url := by
        rw [← Url.fragment_of_resolve? name hu]
      simp only [Option.map_some, same]
  · rw [ReadAgainst, ReadAgainst, alone, read, Option.isSome_map]

/-! ## Which fragments are kept -/

/-- A reference leads to its document whether a fragment follows or not, and no character of the
fragment is encoded behind it. -/
def KeepsFragment (base reference fragment : String) : Prop :=
  (defrag (join base (reference ++ "#"))).1 = join base reference ∧
    (ReadAgainst base (reference ++ "#") → ∀ c ∈ fragment.toList, Url.inFragment c = true)

theorem defrag_join_numberSign (base : String) (given : reference ≠ "")
    (name : '#' ∉ reference.toList) :
    (defrag (join base (reference ++ "#"))).1 = documentOf base reference := by
  have alone := congrArg Prod.fst (defrag_join_fragment base given name "")
  rwa [String.append_empty] at alone

theorem keepsFragment_iff (base : String) (given : reference ≠ "") (name : '#' ∉ reference.toList)
    (fragment : String) :
    defrag (join base (reference ++ "#" ++ fragment)) = (join base reference, fragment) ↔
      KeepsFragment base reference fragment := by
  rw [defrag_join_fragment base given name, Prod.mk.injEq, KeepsFragment,
    defrag_join_numberSign base given name]
  refine and_congr_right fun _ => ?_
  by_cases read : ReadAgainst base (reference ++ "#")
  · rw [if_pos read, ← Url.encode_stripEnd_eq_iff, ← String.toList_inj, String.toList_ofList]
    exact ⟨fun same _ => same, fun same => same read⟩
  · rw [if_neg read]
    exact iff_of_true rfl fun reads => absurd reads read

/-- A reference with a document and a fragment leads to these two, as the bare fragment does inside
the document, if and only if the fragment is kept.  Behind a reference that ends neither in a blank
nor in `@` it is kept unless the reference is read against a URL and the fragment has a character that
is encoded. -/
theorem join_fragment (base fragment : String) (given : reference ≠ "")
    (name : '#' ∉ reference.toList) :
    (defrag (join base (reference ++ "#" ++ fragment)) = (join base reference, fragment) ↔
      KeepsFragment base reference fragment) ∧
    (Place.locate base (reference ++ "#" ++ fragment) =
        Place.locate (join base reference) ("#" ++ fragment) ↔
      KeepsFragment base reference fragment) ∧
    ∀ last, reference.toList.getLast? = some last → Url.isSpace last = false → last ≠ '@' →
      (KeepsFragment base reference fragment ↔
        (ReadAgainst base reference → ∀ c ∈ fragment.toList, Url.inFragment c = true)) := by
  have kept := keepsFragment_iff base given name fragment
  refine ⟨kept, ?_, fun last hl blank site => ?_⟩
  · rw [← kept, Place.locate_fragment, Place.locate_of_ne given name]
  · obtain ⟨document, read⟩ := documentOf_eq_join base name hl blank site
    rw [KeepsFragment, defrag_join_numberSign base given name, read]
    exact and_iff_right document

/-- A fragment of letters is kept. -/
theorem letters_join_fragment :
    "b.json" ≠ "" ∧ '#' ∉ "b.json".toList ∧
      defrag (join "https://example.com/a.json" ("b.json" ++ "#" ++ "/$defs/ab")) =
        (join "https://example.com/a.json" "b.json", "/$defs/ab") := by
  have given : "b.json" ≠ "" := by decide
  have name : '#' ∉ "b.json".toList := by decide
  obtain ⟨joined, -, ends⟩ := join_fragment "https://example.com/a.json" "/$defs/ab" given name
  have letters : "/$defs/ab".toList.all Url.inFragment = true := by decide
  have kept := (ends 'n' rfl (by decide) (by decide)).mpr fun _ => List.all_eq_true.mp letters
  exact ⟨given, name, joined.mpr kept⟩

-- A blank is encoded, and the bare fragment has it as it is.
example : Place.locate "https://example.com/a.json" "b.json#/$defs/a b" =
      ("https://example.com/b.json", "/$defs/a%20b") ∧
    Place.locate "https://example.com/b.json" "#/$defs/a b" =
      ("https://example.com/b.json", "/$defs/a b") := by
  decide +kernel

end Uri

end SchemaDoc
