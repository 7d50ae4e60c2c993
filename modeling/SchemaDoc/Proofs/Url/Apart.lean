import SchemaDoc.Proofs.Url.Fragment

/-!
# References with a fragment

A reference with a fragment is read as the one without it, and the fragment is encoded by itself,
`Url.resolve?_fragment`.  The encoded fragment is the fragment if and only if all its characters may
stand in one, `Url.encode_stripEnd_eq_iff`.

That there is a fragment at all matters in three places.  Blanks at the end of a reference count if a
fragment follows, the last part of a URL with a lone `@` for a site has to end the text, and nothing
but a fragment may be relative to a URL with a plain path.  A reference that ends neither in a blank
nor in `@` is read alike with and without a fragment, `Url.resolve?_numberSign`.
-/

namespace SchemaDoc

namespace Url

open Text (cut? percentEncode)

/-- The end of a text is the end of what the text ends. -/
theorem getLast?_of_suffix {suffix text : List Char} (h : suffix <:+ text) {last : Char}
    (hl : suffix.getLast? = some last) : text.getLast? = some last := by
  obtain ⟨front, rfl⟩ := h
  rw [List.getLast?_append, hl, Option.some_or]

/-! ## Blanks around a fragment -/

/-- Whether a character counts: line breaks and tabs do not. -/
def counts (c : Char) : Bool := c != '\t' && c != '\n' && c != '\r'

/-- A text without blanks at its start, and without what does not count. -/
def stripStart (text : List Char) : List Char := (text.dropWhile isSpace).filter counts

/-- A text without blanks at its end, and without what does not count. -/
def stripEnd (text : List Char) : List Char :=
  ((text.reverse.dropWhile isSpace).reverse).filter counts

theorem counts_of_not_isSpace {c : Char} (h : isSpace c = false) : counts c = true := by
  simp only [counts, Bool.and_eq_true, bne_iff_ne, ne_eq]
  refine ⟨⟨?_, ?_⟩, ?_⟩ <;>
    · rintro rfl
      exact absurd h (by decide)

/-- Before a fragment only the blanks at the start are left out, and behind it those at the end. -/
theorem strip_fragment (main fragment : List Char) :
    strip (main ++ '#' :: fragment) = stripStart main ++ '#' :: stripEnd fragment := by
  have sign : isSpace '#' = false := by decide
  have first : (main ++ '#' :: fragment).dropWhile isSpace =
      main.dropWhile isSpace ++ '#' :: fragment := by
    rw [List.dropWhile_append]
    split
    · rename_i blank
      rw [List.isEmpty_iff.mp blank, List.dropWhile_cons, sign]
      rfl
    · rfl
  have last (front : List Char) : ((front ++ '#' :: fragment).reverse.dropWhile isSpace).reverse =
      front ++ '#' :: (fragment.reverse.dropWhile isSpace).reverse := by
    rw [List.reverse_append, List.reverse_cons, List.append_assoc, List.dropWhile_append]
    split
    · rename_i blank
      rw [List.isEmpty_iff.mp blank]
      simp [sign]
    · simp
  rw [strip, first, last]
  exact (List.filter_append ..).trans (by rw [List.filter_cons]; rfl)

/-- A text that does not end in a blank has none at its end to leave out. -/
theorem strip_eq_stripStart {text : List Char}
    (h : ∀ c, text.getLast? = some c → isSpace c = false) : strip text = stripStart text := by
  have suffix := List.dropWhile_suffix (l := text) isSpace
  have kept : ((text.dropWhile isSpace).reverse.dropWhile isSpace).reverse =
      text.dropWhile isSpace := by
    cases hr : (text.dropWhile isSpace).reverse with
    | nil => rw [List.reverse_eq_nil_iff.mp hr]; rfl
    | cons c rest =>
      have last : (text.dropWhile isSpace).getLast? = some c := by
        rw [List.getLast?_eq_head?_reverse, hr]
        rfl
      rw [List.dropWhile_cons, h c (getLast?_of_suffix suffix last), if_neg Bool.false_ne_true, ← hr,
        List.reverse_reverse]
  rw [strip, kept]
  rfl

/-- The end of a text counts if it is no blank. -/
theorem getLast?_stripStart {text : List Char} {c : Char} (h : text.getLast? = some c)
    (hc : isSpace c = false) : (stripStart text).getLast? = some c := by
  obtain ⟨front, rfl⟩ := List.getLast?_eq_some_iff.mp h
  have last : (front ++ [c]).dropWhile isSpace = front.dropWhile isSpace ++ [c] := by
    rw [List.dropWhile_append]
    split
    · rename_i blank
      rw [List.isEmpty_iff.mp blank, List.dropWhile_cons, hc]
      rfl
    · rfl
  rw [stripStart, last, List.filter_append, List.filter_cons, counts_of_not_isSpace hc, if_pos rfl]
  exact List.getLast?_concat

/-! ## The text of a fragment -/

theorem inFragment_of_isAlphanum {c : Char} (h : c.isAlphanum = true) : inFragment c = true := by
  have ascii : c.toNat < 128 := by
    rcases Bool.or_eq_true_iff.mp h with letter | digit
    · rcases Bool.or_eq_true_iff.mp letter with upper | lower
      · have high : c.toNat ≤ 90 := (of_decide_eq_true upper : 65 ≤ c.toNat ∧ c.toNat ≤ 90).2
        omega
      · have high : c.toNat ≤ 122 := of_decide_eq_true (Bool.and_eq_true_iff.mp lower).2
        omega
    · have high : c.toNat ≤ 57 := of_decide_eq_true (Bool.and_eq_true_iff.mp digit).2
      omega
  have all : ∀ n < 128, (Char.ofNat n).isAlphanum = true → inFragment (Char.ofNat n) = true := by
    decide +kernel
  have kept := all c.toNat ascii
  rw [Char.ofNat_toNat] at kept
  exact kept h

theorem isSpace_of_inFragment {c : Char} (h : inFragment c = true) : isSpace c = false := by
  simp only [inFragment, mayStand, Bool.and_eq_true, decide_eq_true_eq, Bool.not_eq_true'] at h
  cases blank : isSpace c with
  | false => rfl
  | true =>
    have low : c.toNat ≤ 0x20 := by simpa [isSpace] using blank
    rw [Char.toNat_inj.mp (Nat.le_antisymm low h.1.1 : c.toNat = ' '.toNat)] at h
    exact absurd h.2 (by decide)

theorem stripEnd_of_inFragment {fragment : List Char} (h : ∀ c ∈ fragment, inFragment c = true) :
    stripEnd fragment = fragment := by
  have kept : fragment.reverse.dropWhile isSpace = fragment.reverse := by
    cases hr : fragment.reverse with
    | nil => rfl
    | cons c rest =>
      have last : c ∈ fragment := List.mem_reverse.mp (hr ▸ List.mem_cons_self)
      rw [List.dropWhile_cons, isSpace_of_inFragment (h c last), if_neg Bool.false_ne_true]
  rw [stripEnd, kept, List.reverse_reverse, List.filter_eq_self]
  exact fun c hc => counts_of_not_isSpace (isSpace_of_inFragment (h c hc))

/-- A fragment is encoded as it is if and only if all its characters may stand in one. -/
theorem encode_stripEnd_eq_iff {fragment : List Char} :
    percentEncode inFragment (stripEnd fragment) = fragment ↔
      ∀ c ∈ fragment, inFragment c = true := by
  constructor
  · intro same c hc
    rw [← same] at hc
    obtain ⟨d, -, hc⟩ := List.mem_flatMap.mp hc
    rcases Text.mem_percentEncodeChar hc with ⟨rfl, kept⟩ | rfl | alphanum
    · exact kept
    · decide
    · exact inFragment_of_isAlphanum alphanum
  · intro kept
    rw [stripEnd_of_inFragment kept, Text.percentEncode_eq_self kept]

/-! ## Pieces with and without a fragment -/

namespace Reference

/-- The fragment is a piece of its own. -/
theorem ofMain_fragment (fragment other : Option (List Char)) (text : List Char) :
    { ofMain other text with fragment } = ofMain fragment text := by
  unfold ofMain
  split <;> unfold ofBody <;> split <;> rfl

theorem ofText_fragment {main : List Char} (h : '#' ∉ main) (fragment : List Char) :
    ofText (main ++ '#' :: fragment) = ofMain (some (stripEnd fragment)) (stripStart main) := by
  have bare : '#' ∉ stripStart main := fun sign =>
    h (List.dropWhile_subset _ (List.mem_filter.mp sign).1)
  rw [ofText, strip_fragment, Text.cut?_eq_some_iff.mpr ⟨rfl, bare⟩]

/-- A text without a fragment that does not end in a blank. -/
theorem ofText_bare_end {main : List Char} (h : '#' ∉ main)
    (last : ∀ c, main.getLast? = some c → isSpace c = false) :
    ofText main = ofMain none (stripStart main) := by
  have bare : '#' ∉ stripStart main := fun sign =>
    h (List.dropWhile_subset _ (List.mem_filter.mp sign).1)
  rw [ofText, strip_eq_stripStart last, Text.cut?_eq_none_iff.mpr bare]

end Reference

/-- What a fragment is does not matter to the other parts of a URL. -/
theorem main?_fragment (base : Option Url) (fragment other text : List Char) :
    main? base (Reference.ofMain (some fragment) text) =
      main? base (Reference.ofMain (some other) text) := by
  rw [← Reference.ofMain_fragment (some fragment) none, ← Reference.ofMain_fragment (some other) none]
  rfl

/-- A reference with a fragment is read as one with any, and the fragment is encoded by itself. -/
theorem resolve?_fragment (base : Option Url) {main : String} (h : '#' ∉ main.toList)
    (fragment : String) :
    resolve? base (main ++ "#" ++ fragment) = (resolve? base (main ++ "#")).map fun url =>
      { url with fragment := some (percentEncode inFragment (stripEnd fragment.toList)) } := by
  have text : (main ++ "#" ++ fragment).toList = main.toList ++ '#' :: fragment.toList := by simp
  have none : (main ++ "#").toList = main.toList ++ '#' :: [] := by simp
  rw [resolve?, resolve?, text, none, Reference.ofText_fragment h, Reference.ofText_fragment h,
    main?_fragment base _ (stripEnd []), Option.map_map,
    ← Reference.ofMain_fragment (some (stripEnd fragment.toList)) (some (stripEnd []))]
  rfl

/-! ## Texts that end alike -/

variable {text : List Char}

/-- Whether a text ends in something else than `@`. -/
def EndsPlain (text : List Char) : Prop := text.getLast? ≠ some '@'

theorem EndsPlain.suffix (h : EndsPlain text) {suffix : List Char} (hs : suffix <:+ text) :
    EndsPlain suffix := fun last => h (getLast?_of_suffix hs last)

/-- Only a lone `@` has neither a user nor a site. -/
theorem eq_of_cutUserinfo (h : cutUserinfo text = (some [], [])) : text = ['@'] := by
  rw [cutUserinfo] at h
  split at h
  · rename_i userinfo site hc
    cases h
    obtain ⟨⟨after, before⟩, hc, he⟩ := Option.map_eq_some_iff.mp hc
    have whole := (Text.cut?_eq_some_iff.mp hc).1
    simp only [Prod.mk.injEq, List.reverse_eq_nil_iff] at he
    rw [he.1, he.2] at whole
    exact List.reverse_eq_iff.mp whole
  · cases h

/-- If nothing follows a lone `@`, the text is no more than that. -/
theorem lone_site (h : EndsPlain text) (inSite : Char → Bool) (isEnd : Bool) :
    (decide ((cutUserinfo (text.takeWhile inSite)).1 = some []) &&
        (cutUserinfo (text.takeWhile inSite)).2.isEmpty &&
        !((text.dropWhile inSite).isEmpty && isEnd)) =
      (decide ((cutUserinfo (text.takeWhile inSite)).1 = some []) &&
        (cutUserinfo (text.takeWhile inSite)).2.isEmpty) := by
  cases hr : text.dropWhile inSite with
  | cons c rest => simp
  | nil =>
    have whole := List.takeWhile_append_dropWhile (p := inSite) (l := text)
    rw [hr, List.append_nil] at whole
    have away : (decide ((cutUserinfo text).1 = some []) && (cutUserinfo text).2.isEmpty) = false := by
      rw [Bool.eq_false_iff]
      intro both
      simp only [Bool.and_eq_true, decide_eq_true_eq, List.isEmpty_iff] at both
      rw [eq_of_cutUserinfo (Prod.ext both.1 both.2)] at h
      exact h rfl
    rw [whole, away, Bool.false_and]

/-- The end of a text matters to an authority only if it is a lone `@`. -/
theorem ofSite?_end (scheme : String) (h : EndsPlain text) (isEnd other : Bool) :
    ofSite? scheme text isEnd = ofSite? scheme text other := by
  unfold ofSite?
  dsimp only
  rw [lone_site h, lone_site h]

/-- The text of a reference is relative to a URL in the same way whether it ends or not. -/
theorem relative?_end (base : Url) (h : EndsPlain text) (isEnd other : Bool) :
    relative? base text isEnd = relative? base text other := by
  unfold relative?
  dsimp only
  split
  · rfl
  · exact ofSite?_end _ (h.suffix (List.suffix_append ['/', '/'] _)) ..
  · rename_i a rest _
    have inner : EndsPlain rest := h.suffix (List.suffix_cons a rest)
    rw [ofSite?_end _ (inner.suffix (List.dropWhile_suffix _)) isEnd other]

theorem absolute?_end (base : Option Url) (scheme : String) (h : EndsPlain text)
    (isEnd other : Bool) :
    absolute? base scheme text isEnd = absolute? base scheme text other := by
  have site : ofSite? scheme (text.dropWhile (isSlash true)) isEnd =
      ofSite? scheme (text.dropWhile (isSlash true)) other :=
    ofSite?_end _ (h.suffix (List.dropWhile_suffix _)) ..
  unfold absolute?
  dsimp only
  rw [site]
  split
  · rfl
  · split
    · split
      · rw [relative?_end _ h isEnd other]
      · rfl
    · split
      · exact ofSite?_end _ (h.suffix (List.suffix_append ['/', '/'] _)) ..
      · rfl
      · rfl

/-- An empty fragment does not matter to the other parts of a URL behind a query, nor behind a body
that does not end in `@` and is not empty, unless a scheme is before it. -/
theorem main?_end (base : Option Url) (scheme : Option String) (body : List Char)
    (query : Option (List Char))
    (h : query.isSome = true ∨ EndsPlain body ∧ (scheme = none → body ≠ [])) :
    main? base ⟨scheme, body, query, some []⟩ = main? base ⟨scheme, body, query, none⟩ := by
  cases scheme with
  | some scheme =>
    cases query with
    | some query => rfl
    | none => exact absolute?_end base scheme (h.resolve_left Bool.false_ne_true).1 ..
  | none =>
    cases base with
    | none => rfl
    | some base =>
      cases query with
      | some query => simp [main?, Reference.endsInBody]
      | none =>
        obtain ⟨plain, given⟩ := h.resolve_left Bool.false_ne_true
        simp [main?, Reference.endsInBody, given rfl, relative?_end base plain false true]

/-- A text that is not empty and does not end in `@` is read alike with and without an empty
fragment. -/
theorem main?_ofMain_end (base : Option Url) (given : text ≠ []) (h : EndsPlain text) :
    main? base (Reference.ofMain (some []) text) = main? base (Reference.ofMain none text) := by
  have ofBody {query : Option (List Char)} {body : List Char}
      (h : query.isSome = true ∨ EndsPlain body ∧ body ≠ []) :
      main? base (Reference.ofBody query (some []) body) =
        main? base (Reference.ofBody query none body) := by
    rw [Reference.ofBody, Reference.ofBody]
    cases hc : cutScheme? body with
    | none => exact main?_end base none body query (h.imp_right fun h => ⟨h.1, fun _ => h.2⟩)
    | some parts =>
      refine main?_end base _ _ query (h.imp_right fun h => ⟨h.1.suffix ?_, nofun⟩)
      exact suffix_of_cutScheme? hc
  rw [Reference.ofMain, Reference.ofMain]
  cases cut? '?' text with
  | some parts => exact ofBody (.inl rfl)
  | none => exact ofBody (.inr ⟨h, given⟩)

/-- A reference that ends neither in a blank nor in `@` is read alike with and without an empty
fragment. -/
theorem resolve?_numberSign (base : Option Url) {main : String} (h : '#' ∉ main.toList)
    {last : Char} (hl : main.toList.getLast? = some last) (blank : isSpace last = false)
    (site : last ≠ '@') :
    resolve? base (main ++ "#") = (resolve? base main).map fun url =>
      { url with fragment := some [] } := by
  have text : (main ++ "#").toList = main.toList ++ '#' :: [] := by simp
  have ends : (stripStart main.toList).getLast? = some last := getLast?_stripStart hl blank
  have given : stripStart main.toList ≠ [] := by
    intro empty
    rw [empty] at ends
    cases ends
  have plain : EndsPlain (stripStart main.toList) := by
    rw [EndsPlain, ends]
    exact fun same => site (Option.some.inj same)
  rw [resolve?, resolve?, text, Reference.ofText_fragment h,
    Reference.ofText_bare_end h fun c hc => by rwa [← Option.some.inj (hl.symm.trans hc)],
    show stripEnd [] = [] from rfl, main?_ofMain_end base given plain, Option.map_map,
    ← Reference.ofMain_fragment (some []) none]
  rfl

end Url

end SchemaDoc
