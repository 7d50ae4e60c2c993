import SchemaDoc.Proofs.Text.Encoding
import SchemaDoc.Url.Resolve

/-!
# Where a URL holds a number sign

In the text of a URL a number sign begins the fragment.  So no other part may hold one,
whatever text the URL is read from: the sign is encoded or refused where it could stand, or
the piece that the part is read from was cut before it.

`Url.resolve?_bare` says so of what `Url.resolve?` gives, and `Url.numberSign_render` that
the text of a URL without a fragment has no number sign.
-/

namespace SchemaDoc

/-! ## Texts that are written -/

namespace Text

/-- Encoding adds percent signs and digits only. -/
theorem numberSign_percentEncode {keep : Char → Bool} {cs : List Char}
    (h : '#' ∈ percentEncode keep cs) : '#' ∈ cs ∧ keep '#' = true := by
  obtain ⟨c, hc, h⟩ := List.mem_flatMap.mp h
  rcases mem_percentEncodeChar h with ⟨rfl, kept⟩ | h | h
  · exact ⟨hc, kept⟩
  · exact absurd h (by decide)
  · exact absurd h (by decide)

/-- A number is written in digits. -/
theorem mem_toDigits {c : Char} {base : Nat} (hb : 1 < base) (n : Nat)
    (h : c ∈ Nat.toDigits base n) : ∃ digit, c = Nat.digitChar digit := by
  induction n using Nat.strongRecOn with
  | ind n ih =>
    rw [Nat.toDigits_eq_if hb] at h
    split at h
    · exact ⟨n, List.mem_singleton.mp h⟩
    · rename_i hn
      rcases List.mem_append.mp h with h | h
      · exact ih _ (Nat.div_lt_self (by omega) hb) h
      · exact ⟨_, List.mem_singleton.mp h⟩

theorem numberSign_toDigits {base : Nat} (hb : 1 < base) (n : Nat) :
    '#' ∉ Nat.toDigits base n := by
  intro h
  obtain ⟨digit, h⟩ := mem_toDigits hb n h
  by_cases hd : digit < 16
  · have small : ∀ digit < 16, '#' ≠ Nat.digitChar digit := by decide
    exact small digit hd h
  · rw [Nat.digitChar_eq_star.mpr (by omega)] at h
    exact absurd h (by decide)

end Text

namespace Url

open Text (cut? cutLast? percentEncode)

/-! ## Hosts -/

namespace Host

theorem numberSign_renderIpv4 (address : Nat) : '#' ∉ renderIpv4 address := by
  simp [renderIpv4, Text.numberSign_toDigits]

theorem numberSign_ipv4? {text host : List Char} (h : ipv4? text = some host) : '#' ∉ host := by
  simp only [ipv4?, Option.bind_eq_bind] at h
  split at h
  · cases h
  · obtain ⟨numbers, -, h⟩ := Option.bind_eq_some_iff.mp h
    obtain ⟨last, -, h⟩ := Option.bind_eq_some_iff.mp h
    split at h
    · cases h
      exact numberSign_renderIpv4 _
    · cases h

theorem numberSign_domain? {text host : List Char} (h : domain? text = some host) :
    '#' ∉ host := by
  simp only [domain?, Option.bind_eq_bind] at h
  obtain ⟨decoded, -, h⟩ := Option.bind_eq_some_iff.mp h
  obtain ⟨domain, -, h⟩ := Option.bind_eq_some_iff.mp h
  split at h
  · cases h
  · rename_i allowed
    split at h
    · exact numberSign_ipv4? h
    · cases h
      intro sign
      simp only [Bool.or_eq_true, List.any_eq_true, not_or, not_exists, not_and] at allowed
      exact allowed.2 '#' sign (by decide)

theorem numberSign_renderGroups (groups : List Nat) :
    '#' ∉ [':'].intercalate (groups.map renderGroup) := by
  induction groups with
  | nil => decide
  | cons group rest ih =>
    have digits : '#' ∉ renderGroup group := Text.numberSign_toDigits (by decide) group
    cases rest with
    | nil => simpa using digits
    | cons next more =>
      rw [List.map_cons] at ih
      rw [List.map_cons, List.map_cons, List.intercalate_cons_cons]
      simp [digits, ih]

theorem numberSign_renderIpv6 (groups : List Nat) : '#' ∉ renderIpv6 groups := by
  rw [renderIpv6]
  dsimp only
  split
  · exact numberSign_renderGroups groups
  · simp only [List.mem_append, List.mem_cons, not_or]
    exact ⟨numberSign_renderGroups _, by decide, by decide, numberSign_renderGroups _⟩

/-- A host holds no number sign. -/
theorem numberSign_parse? {special : Bool} {text host : List Char}
    (h : parse? special text = some host) : '#' ∉ host := by
  unfold parse? at h
  split at h
  · split at h
    · obtain ⟨groups, -, rfl⟩ := Option.map_eq_some_iff.mp h
      simp [numberSign_renderIpv6]
    · cases h
  · split at h
    · exact numberSign_domain? h
    · split at h
      · cases h
      · rename_i allowed
        cases h
        intro sign
        have sign := (Text.numberSign_percentEncode sign).1
        simp only [List.any_eq_true, not_exists, not_and] at allowed
        exact allowed '#' sign (by decide)

end Host

/-! ## Paths -/

namespace Trail

variable {trail : Trail}

theorem numberSign_dropName (isFile : Bool) (h : '#' ∉ trail) : '#' ∉ trail.dropName isFile := by
  rw [dropName]
  split
  · exact h
  · exact fun sign => h (List.dropWhile_subset _ sign)

theorem numberSign_dropSlash (h : '#' ∉ trail) : '#' ∉ trail.dropSlash := by
  rw [dropSlash.eq_def]
  split
  · split
    · exact fun sign => h (List.mem_cons_of_mem _ sign)
    · exact h
  · exact h

theorem numberSign_close (h : '#' ∉ trail) : '#' ∉ trail.close := by
  rw [close]
  split
  · exact h
  · simpa using h

theorem numberSign_goUp (isFile isLast : Bool) (h : '#' ∉ trail) :
    '#' ∉ trail.goUp isFile isLast := by
  have up := numberSign_dropName isFile (numberSign_dropSlash h)
  rw [goUp]
  split
  · exact up
  · exact numberSign_close up

/-- A name is encoded before it is written. -/
theorem numberSign_enter (isFile : Bool) (name : List Char) (isLast : Bool) (h : '#' ∉ trail) :
    '#' ∉ trail.enter isFile name isLast := by
  have written : ∀ name, '#' ∉ (percentEncode inPath name).reverse := by
    intro name sign
    exact absurd (Text.numberSign_percentEncode (List.mem_reverse.mp sign)).2 (by decide)
  have closed : '#' ∉
      (if isFile && trail.isOnlyDrive && !name.isEmpty then trail.close else trail) := by
    split
    · exact numberSign_close h
    · exact h
  unfold enter
  dsimp only
  split
  · exact numberSign_goUp isFile isLast closed
  · split
    · exact numberSign_close closed
    · split
      · rw [List.mem_append, not_or]
        exact ⟨written _, closed⟩
      · simp only [List.mem_cons, List.mem_append, not_or]
        exact ⟨by decide, written _, closed⟩

theorem numberSign_enterAll (isFile : Bool) (names : List (List Char)) (h : '#' ∉ trail) :
    '#' ∉ trail.enterAll isFile names := by
  induction names generalizing trail with
  | nil => exact h
  | cons name rest ih =>
    cases rest with
    | nil => exact numberSign_enter isFile name true h
    | cons next more => exact ih (numberSign_enter isFile name false h)

theorem numberSign_enterText (scheme : String) (text : List Char) (h : '#' ∉ trail) :
    '#' ∉ trail.enterText scheme text := numberSign_enterAll _ _ h

theorem numberSign_ofFile (h : '#' ∉ trail) : '#' ∉ trail.ofFile := by
  rw [ofFile, path, List.mem_cons, not_or]
  exact ⟨by decide, fun sign => h (List.mem_reverse.mp (List.dropWhile_subset _ sign))⟩

end Trail

theorem numberSign_rootedTrail (scheme : String) (text : List Char) :
    '#' ∉ rootedTrail scheme text := by
  rw [rootedTrail.eq_def]
  split
  · exact Trail.numberSign_enterText _ _ (by decide)
  · split <;> decide

theorem numberSign_pathAfter (scheme : String) {path : List Char} (text : List Char)
    (h : '#' ∉ path) : '#' ∉ pathAfter scheme path text := by
  rw [pathAfter, Trail.path, List.mem_reverse]
  exact Trail.numberSign_enterText _ _ (by rwa [Trail.ofPath, List.mem_reverse])

theorem numberSign_filePathAfter {path : List Char} (text : List Char) (h : '#' ∉ path) :
    '#' ∉ filePathAfter path text := by
  rw [filePathAfter]
  refine Trail.numberSign_ofFile (Trail.numberSign_enterText _ _ ?_)
  rwa [Trail.ofPath, List.mem_reverse]

theorem numberSign_folder (isFile : Bool) {path : List Char} (h : '#' ∉ path) :
    '#' ∉ folder isFile path := by
  rw [folder, Trail.path, List.mem_reverse]
  exact Trail.numberSign_dropName _ (by rwa [Trail.ofPath, List.mem_reverse])

/-! ## URLs -/

/-- No part of a URL but its fragment holds a number sign. -/
structure Bare (url : Url) : Prop where
  scheme : '#' ∉ url.scheme.toList
  authority : ∀ authority, url.authority = some authority → '#' ∉ authority.render
  path : '#' ∉ url.path
  query : ∀ query, url.query = some query → '#' ∉ query

/-- An authority is bare if its host is and the rest is encoded. -/
theorem numberSign_render_authority {userinfo host : List Char} (port : Option Nat)
    (h : '#' ∉ host) :
    '#' ∉ Authority.render { readUserinfo userinfo with host, port } := by
  have encoded : ∀ text, '#' ∉ percentEncode inUserinfo text := fun text sign =>
    absurd (Text.numberSign_percentEncode sign).2 (by decide)
  have userinfo : '#' ∉ Authority.renderUserinfo { readUserinfo userinfo with host, port } := by
    unfold Authority.renderUserinfo readUserinfo
    split <;> dsimp only <;> split
    · simp
    · split <;> simp [encoded]
    · simp
    · simp [encoded]
  rw [Authority.render]
  cases port with
  | none => simp [userinfo, h]
  | some port => simp [userinfo, h, Text.numberSign_toDigits]

theorem ofSite?_bare {scheme : String} {text : List Char} {isEnd : Bool} {url : Url}
    (hs : '#' ∉ scheme.toList) (h : ofSite? scheme text isEnd = some url) : url.Bare := by
  unfold ofSite? at h
  dsimp only at h
  split at h
  · cases h
  · split at h
    · cases h
    · split at h
      · cases h
      · obtain ⟨host, hh, h⟩ := Option.bind_eq_some_iff.mp h
        obtain ⟨port, -, h⟩ := Option.bind_eq_some_iff.mp h
        cases h
        refine ⟨hs, ?_, ?_, ?_⟩
        · intro authority ha
          cases ha
          exact numberSign_render_authority port (Host.numberSign_parse? hh)
        · simpa [Trail.path] using numberSign_rootedTrail scheme _
        · intro query hq
          cases hq

theorem file_bare {host path : List Char} (hh : '#' ∉ host) (hp : '#' ∉ path) :
    (file host path).Bare := by
  refine ⟨show '#' ∉ "file".toList by decide, ?_, hp, ?_⟩
  · intro authority ha
    cases ha
    simpa [Authority.render, Authority.renderUserinfo] using hh
  · intro query hq
    cases hq

theorem fileOfSite?_bare {text : List Char} {url : Url} (h : fileOfSite? text = some url) :
    url.Bare := by
  have fromRoot (text : List Char) : (file [] (filePathAfter ['/'] text)).Bare :=
    file_bare (by decide) (numberSign_filePathAfter text (by decide))
  unfold fileOfSite? at h
  dsimp only at h
  split at h
  · cases h
    exact fromRoot _
  · split at h
    · cases h
      exact fromRoot _
    · obtain ⟨host, hh, h⟩ := Option.bind_eq_some_iff.mp h
      split at h
      · cases h
        exact fromRoot _
      · cases h
        refine file_bare ?_ (Trail.numberSign_ofFile (numberSign_rootedTrail _ _))
        split
        · decide
        · exact Host.numberSign_parse? hh

theorem Bare.fileHost {url : Url} (h : url.Bare) : '#' ∉ url.fileHost := by
  rw [Url.fileHost]
  cases ha : url.authority with
  | none => decide
  | some authority =>
    intro sign
    exact h.authority authority ha (by simp_all [Authority.render])

theorem numberSign_leadingDrive {path : List Char} (h : '#' ∉ path) :
    '#' ∉ leadingDrive path := by
  rw [leadingDrive]
  split
  · rw [List.mem_cons, not_or]
    exact ⟨by decide, fun sign => h (List.mem_of_mem_drop (List.takeWhile_subset _ sign))⟩
  · decide

theorem fileFromRoot_bare {base : Option Url} (hb : ∀ url, base = some url → url.Bare)
    (text : List Char) : (fileFromRoot base text).Bare := by
  have alone (host : List Char) (hh : '#' ∉ host) : (file host (filePathAfter [] text)).Bare :=
    file_bare hh (numberSign_filePathAfter text (by decide))
  cases base with
  | none => exact alone [] (by decide)
  | some base =>
    have hb := hb base rfl
    unfold fileFromRoot
    dsimp only
    split
    · exact alone [] (by decide)
    · split
      · exact alone _ hb.fileHost
      · exact file_bare (by decide)
          (numberSign_filePathAfter text (numberSign_leadingDrive hb.path))

theorem fileOf?_bare {base : Option Url} {text : List Char} {url : Url}
    (hb : ∀ url, base = some url → url.Bare) (h : fileOf? base text = some url) : url.Bare := by
  have alone : (file [] (filePathAfter ['/'] text)).Bare :=
    file_bare (by decide) (numberSign_filePathAfter text (by decide))
  unfold fileOf? at h
  split at h
  · cases h
    exact hb _ rfl
  · split at h
    · split at h
      · split at h
        · exact fileOfSite?_bare h
        · cases h
          exact fileFromRoot_bare hb _
      · cases h
        exact fileFromRoot_bare hb _
    · split at h
      · have hb := hb _ rfl
        split at h
        · cases h
          exact alone
        · cases h
          exact file_bare hb.fileHost
            (numberSign_filePathAfter _ (numberSign_folder true hb.path))
      · cases h
        exact alone
  · cases h
    exact file_bare (by decide) (by decide)

theorem Bare.withPath {url : Url} (h : url.Bare) {path : List Char} (hp : '#' ∉ path) :
    { url with path, query := none }.Bare where
  scheme := h.scheme
  authority := h.authority
  path := hp
  query _ hq := nomatch hq

theorem relative?_bare {base : Url} {text : List Char} {isEnd : Bool} {url : Url}
    (hb : base.Bare) (h : relative? base text isEnd = some url) : url.Bare := by
  unfold relative? at h
  dsimp only at h
  split at h
  · cases h
    exact hb
  · exact ofSite?_bare hb.scheme h
  · split at h
    · split at h
      · exact ofSite?_bare hb.scheme h
      · cases h
        exact hb.withPath (numberSign_pathAfter _ _ (by decide))
    · cases h
      refine hb.withPath (numberSign_pathAfter _ _ ?_)
      split
      · decide
      · exact numberSign_folder false hb.path

theorem absolute?_bare {base : Option Url} {scheme : String} {text : List Char} {isEnd : Bool}
    {url : Url} (hb : ∀ url, base = some url → url.Bare) (hs : '#' ∉ scheme.toList)
    (ht : '#' ∉ text) (h : absolute? base scheme text isEnd = some url) : url.Bare := by
  have sibling : ∀ url, (base.filter fun base => base.scheme = scheme) = some url → url.Bare :=
    fun url hu => hb url (Option.filter_eq_some_iff.mp hu).1
  have alone (path : List Char) (hp : '#' ∉ path) : Bare { scheme, path } :=
    ⟨hs, nofun, hp, nofun⟩
  unfold absolute? at h
  dsimp only at h
  split at h
  · exact fileOf?_bare sibling h
  · split at h
    · split at h
      · rename_i base hs'
        split at h
        · exact relative?_bare (sibling base hs') h
        · exact ofSite?_bare hs h
      · exact ofSite?_bare hs h
    · split at h
      · exact ofSite?_bare hs h
      · cases h
        exact alone _ (numberSign_pathAfter _ _ (by decide))
      · cases h
        exact alone _ fun sign => ht (Text.numberSign_percentEncode sign).1

/-! ## Reading -/

/-- The pieces of a text before its fragment hold no number sign. -/
structure Reference.Bare (reference : Reference) : Prop where
  scheme : ∀ scheme, reference.scheme = some scheme → '#' ∉ scheme.toList
  body : '#' ∉ reference.body

theorem eq_numberSign_of_toLower {c : Char} (h : c.toLower = '#') : c = '#' := by
  unfold Char.toLower at h
  split at h
  · rename_i upper
    have low : 65 ≤ c.val.toNat := UInt32.le_iff_toNat_le.mp upper.1
    have high : c.val.toNat ≤ 90 := UInt32.le_iff_toNat_le.mp upper.2
    have value : (c.val.toNat + 32) % 2 ^ 32 = 35 := congrArg Char.toNat h
    omega
  · exact h

/-- What is behind the scheme is the end of the text. -/
theorem suffix_of_cutScheme? {text : List Char} {parts : String × List Char}
    (h : cutScheme? text = some parts) : parts.2 <:+ text := by
  unfold cutScheme? at h
  split at h
  · rename_i name rest hc
    split at h
    · cases h
      rw [(Text.cut?_eq_some_iff.mp hc).1]
      exact ⟨name ++ [':'], by simp⟩
    · cases h
  · cases h

theorem cutScheme?_bare {text : List Char} {parts : String × List Char}
    (h : cutScheme? text = some parts) : '#' ∉ parts.1.toList := by
  unfold cutScheme? at h
  split at h
  · split at h
    · rename_i allowed
      cases h
      rw [String.toList_ofList]
      intro sign
      obtain ⟨c, hm, hl⟩ := List.mem_map.mp sign
      rw [Bool.and_eq_true, List.all_eq_true] at allowed
      have := allowed.2 c hm
      rw [eq_numberSign_of_toLower hl] at this
      exact absurd this (by decide)
    · cases h
  · cases h

theorem subset_of_cut? {mark : Char} {text before after : List Char}
    (h : cut? mark text = some (before, after)) : before ⊆ text := by
  rw [(Text.cut?_eq_some_iff.mp h).1]
  exact List.subset_append_left _ _

namespace Reference

variable {query fragment : Option (List Char)} {text : List Char}

theorem ofBody_bare (h : '#' ∉ text) : (ofBody query fragment text).Bare := by
  unfold ofBody
  split
  · rename_i hc
    exact ⟨fun _ hs => Option.some.inj hs ▸ cutScheme?_bare hc,
      fun sign => h ((suffix_of_cutScheme? hc).subset sign)⟩
  · exact ⟨nofun, h⟩

theorem ofMain_bare (h : '#' ∉ text) : (ofMain fragment text).Bare := by
  unfold ofMain
  split
  · rename_i hc
    exact ofBody_bare fun sign => h (subset_of_cut? hc sign)
  · exact ofBody_bare h

/-- The pieces of a text are cut where it has a number sign. -/
theorem ofText_bare (text : List Char) : (ofText text).Bare := by
  unfold ofText
  split
  · rename_i hc
    exact ofMain_bare (Text.cut?_eq_some_iff.mp hc).2
  · rename_i hc
    exact ofMain_bare (Text.cut?_eq_none_iff.mp hc)

theorem fragment_ofMain : (ofMain fragment text).fragment = fragment := by
  unfold ofMain
  split <;> unfold ofBody <;> split <;> rfl

end Reference

theorem main?_bare {base : Option Url} {reference : Reference} {url : Url}
    (hb : ∀ url, base = some url → url.Bare) (hr : reference.Bare)
    (h : main? base reference = some url) : url.Bare := by
  unfold main? at h
  split at h
  · rename_i hs
    exact absolute?_bare hb (hr.scheme _ hs) hr.body h
  · cases h
  · have hb' := hb _ rfl
    split at h
    · split at h
      · cases h
        exact hb'
      · cases h
    · split at h
      · exact fileOf?_bare hb h
      · exact relative?_bare hb' h

/-- What is read against a bare URL is bare, whatever the text. -/
theorem resolve?_bare {base : Option Url} {text : String} {url : Url}
    (hb : ∀ url, base = some url → url.Bare) (h : resolve? base text = some url) : url.Bare := by
  obtain ⟨main, hm, rfl⟩ := Option.map_eq_some_iff.mp h
  have bare := main?_bare hb (Reference.ofText_bare _) hm
  refine { bare with query := fun query hq => ?_ }
  have excluded : inQuery main.scheme '#' = false := by
    unfold inQuery
    split <;> decide
  cases hr : (Reference.ofText text.toList).query with
  | none =>
    rw [hr] at hq
    exact bare.query query hq
  | some own =>
    rw [hr] at hq
    cases hq
    intro sign
    have kept := (Text.numberSign_percentEncode sign).2
    rw [excluded] at kept
    cases kept

/-- A URL is bare but for its fragment. -/
theorem parse?_bare {text : String} {url : Url} (h : parse? text = some url) : url.Bare := by
  rw [parse?] at h
  exact resolve?_bare (fun _ hb => absurd hb (by simp)) h

/-! ## Texts of URLs -/

/-- A text without a number sign denotes a URL without a fragment. -/
theorem fragment_of_resolve? {base : Option Url} {text : String} {url : Url}
    (ht : '#' ∉ text.toList) (h : resolve? base text = some url) : url.fragment = none := by
  obtain ⟨main, -, rfl⟩ := Option.map_eq_some_iff.mp h
  have inner : strip text.toList ⊆ text.toList := by
    intro c hc
    have hc := List.mem_reverse.mp (List.mem_filter.mp hc).1
    exact List.dropWhile_subset _ (List.mem_reverse.mp (List.dropWhile_subset _ hc))
  have whole : cut? '#' (strip text.toList) = none :=
    Text.cut?_eq_none_iff.mpr fun sign => ht (inner sign)
  have none : (Reference.ofText text.toList).fragment = none := by
    rw [Reference.ofText, whole]
    exact Reference.fragment_ofMain
  simp only [none, Option.map_none]

/-- The text of a bare URL without a fragment holds no number sign. -/
theorem numberSign_render {url : Url} (h : url.Bare) (hf : url.fragment = none) :
    '#' ∉ url.render.toList := by
  have authority : '#' ∉ url.renderAuthority := by
    unfold renderAuthority
    split
    · rename_i ha
      simpa using h.authority _ ha
    · decide
    · decide
  have query : '#' ∉ renderPart '?' url.query := by
    cases hq : url.query with
    | none => decide
    | some query => simpa [renderPart] using h.query query hq
  have fragment : renderPart '#' url.fragment = [] := by rw [hf, renderPart]
  rw [render, String.toList_ofList, fragment]
  simp [h.scheme, h.path, authority, query]

/-- The text of a URL begins with the scheme or with a colon. -/
theorem head?_render {url : Url} (h : url.Bare) :
    ∃ c, url.render.toList.head? = some c ∧ c ≠ '#' := by
  rw [render, String.toList_ofList]
  cases hs : url.scheme.toList with
  | nil => exact ⟨':', rfl, by decide⟩
  | cons c rest =>
    refine ⟨c, rfl, ?_⟩
    rintro rfl
    exact h.scheme (hs ▸ List.mem_cons_self)

end Url

end SchemaDoc
