import Mathlib.Data.List.Chain
import SchemaDoc.Proofs.Signature.Characters

/-!
# Names in a signature

The name of a type begins with a letter or an underscore, and each dot in it is followed by another
word of the name, `Token.IsName`.  By itself such a name is one stretch of the rule for names.  But
the rule for keywords comes before it, and a word also ends before `#`, `/`, `$`, `-` and a dot.  So
a name is read as one token if and only if its first word is no keyword, `Token.tokenize_name`, even
if more follows that word.
-/

namespace SchemaDoc.Token

open Text

/-- A text that may name a type. -/
structure IsName (id : List Char) : Prop where
  begins : ∃ c ∈ id.head?, c.isAlpha = true ∨ c = '_'
  chars : ∀ c ∈ id, isNameChar c = true ∨ c = '.'
  /-- A dot is before another word of the name. -/
  dots : id.IsChain fun c d => c = '.' → isNameChar d = true
  /-- And no dot is at the end. -/
  ends : id.getLast? ≠ some '.'

instance (id : List Char) : Decidable (IsName id) :=
  decidable_of_iff
    ((id.head?.any fun c => c.isAlpha || c == '_') = true ∧
      (id.all fun c => isNameChar c || c == '.') = true ∧
      (id.IsChain fun c d => c = '.' → isNameChar d = true) ∧ id.getLast? ≠ some '.')
    ⟨fun ⟨begins, chars, dots, ends⟩ =>
        ⟨by simpa [Option.any_eq_true] using begins, by simpa using chars, dots, ends⟩,
      fun ⟨begins, chars, dots, ends⟩ =>
        ⟨by simpa [Option.any_eq_true] using begins, by simpa using chars, dots, ends⟩⟩

/-! ## Keywords at the start -/

theorem takeWhile_of_atWordEnd {word rest : List Char} (chars : ∀ c ∈ word, isWord c = true)
    (ends : atWordEnd rest = true) : (word ++ rest).takeWhile isWord = word := by
  have stops : rest.takeWhile isWord = [] := by
    cases rest with
    | nil => rfl
    | cons c more => simpa [atWordEnd] using ends
  rw [List.takeWhile_append_of_pos chars, stops, List.append_nil]

/-- The keyword at the start of a text is its first word. -/
theorem takeWhile_of_keyword? {cs word stretch : List Char} {optional : Bool}
    (h : keyword? cs = some (word, stretch, optional)) : cs.takeWhile isWord = word := by
  obtain ⟨mem, rest, rfl, ends, -⟩ := keyword?_eq_some h
  exact takeWhile_of_atWordEnd (isWord_of_mem_keywords mem) ends

theorem atWordEnd_dropWhile (cs : List Char) : atWordEnd (cs.dropWhile isWord) = true := by
  cases h : cs.dropWhile isWord with
  | nil => rfl
  | cons c rest =>
    have stops := List.head_dropWhile_not isWord (h ▸ List.cons_ne_nil c rest)
    simpa [h, atWordEnd] using stops

/-- A text begins with a keyword if its first word is one. -/
theorem isSome_keyword? {cs : List Char} (h : cs.takeWhile isWord ∈ keywords) :
    (keyword? cs).isSome = true := by
  have whole : cs.takeWhile isWord ++ cs.dropWhile isWord = cs := List.takeWhile_append_dropWhile
  have starts : (cs.takeWhile isWord).isPrefixOf cs = true :=
    List.isPrefixOf_iff_prefix.mpr (List.takeWhile_prefix _)
  have after : cs.drop (cs.takeWhile isWord).length = cs.dropWhile isWord := by
    have left : (cs.takeWhile isWord ++ cs.dropWhile isWord).drop (cs.takeWhile isWord).length =
        cs.dropWhile isWord := List.drop_left
    rwa [whole] at left
  rw [keyword?, Option.isSome_map, List.find?_isSome]
  refine ⟨_, h, ?_⟩
  rw [starts, after, atWordEnd_dropWhile]
  rfl

theorem keyword?_eq_none_iff {cs : List Char} :
    keyword? cs = none ↔ cs.takeWhile isWord ∉ keywords := by
  constructor
  · intro h mem
    have found := isSome_keyword? mem
    rw [h] at found
    cases found
  · intro h
    rw [Option.eq_none_iff_forall_not_mem]
    rintro ⟨word, stretch, optional⟩ found
    rw [takeWhile_of_keyword? found] at h
    exact h (keyword?_eq_some found).1

/-! ## Names -/

namespace IsName

variable {id : List Char}

theorem exists_cons (h : IsName id) : ∃ c rest, id = c :: rest ∧ (c.isAlpha = true ∨ c = '_') := by
  obtain ⟨c, hc, begins⟩ := h.begins
  obtain ⟨rest, rfl⟩ := List.head?_eq_some_iff.mp hc
  exact ⟨c, rest, rfl, begins⟩

theorem ends_of_cons {c : Char} {rest : List Char} (ends : (c :: rest).getLast? ≠ some '.') :
    rest.getLast? ≠ some '.' := by
  cases rest with
  | nil => simp
  | cons d more => rwa [List.getLast?_cons_cons] at ends

/-- A name is what the rule takes after its first character. -/
theorem nameRest_eq (chars : ∀ c ∈ id, isNameChar c = true ∨ c = '.')
    (dots : id.IsChain fun c d => c = '.' → isNameChar d = true) (ends : id.getLast? ≠ some '.') :
    nameRest id = id := by
  fun_induction nameRest id with
  | case1 c rest hc ih =>
    rw [ih (fun d hd => chars d (by simp [hd])) dots.tail.tail (ends_of_cons (ends_of_cons ends))]
  | case2 c rest hc => exact absurd ((List.isChain_cons_cons.mp dots).1 rfl) hc
  | case3 c rest _ hc ih =>
    rw [ih (fun d hd => chars d (by simp [hd])) dots.tail (ends_of_cons ends)]
  | case4 c rest alone hc =>
    obtain rfl := (chars c List.mem_cons_self).resolve_left hc
    cases rest with
    | nil => exact absurd rfl ends
    | cons d more => exact absurd rfl (alone d more rfl)
  | case5 => rfl

variable (h : IsName id)

include h

theorem plainName?_eq : plainName? id = some id := by
  obtain ⟨c, rest, rfl, begins⟩ := h.exists_cons
  have word : isWord c = true := begins.elim isWord_of_isAlpha fun same => same ▸ rfl
  have more : nameRest rest = rest :=
    nameRest_eq (fun d hd => h.chars d (by simp [hd])) h.dots.tail (ends_of_cons h.ends)
  simp [plainName?, word, more]

theorem not_mem {c : Char} (name : isNameChar c = false) (dot : c ≠ '.') : c ∉ id := fun hc =>
  (h.chars c hc).elim (fun char => by simp [char] at name) dot

/-- There is no scheme in front of a name. -/
theorem name?_eq : name? id = some id := by
  obtain ⟨c, rest, rfl, -⟩ := h.exists_cons
  have colon : ':' ∉ c :: rest := h.not_mem (by decide) (by decide)
  rw [name?, h.plainName?_eq]
  split
  · split
    · rename_i more scheme
      have mem : ':' ∈ rest :=
        (List.dropWhile_sublist isSchemeChar).subset (by rw [scheme]; exact List.mem_cons_self)
      exact absurd (List.mem_cons_of_mem c mem) colon
    · rfl
  · rfl

end IsName

/-! ## The first token -/

section First

variable {c : Char} {rest : List Char}

/-- Keywords are the first rule that a text with a letter or an underscore at its start leaves. -/
theorem first_of_begins (begins : c.isAlpha = true ∨ c = '_') :
    Lexeme.first c rest =
      ((rules.drop 4).findSome? fun rule => rule (c :: rest)).getD ⟨[c], some (.other c)⟩ := by
  have plain : isPlain c = true :=
    isPlain_of_isWord (begins.elim isWord_of_isAlpha fun same => same ▸ rfl)
  obtain ⟨blank, quote, -⟩ := isPlain_eq_true.mp plain
  have dot : c ≠ '.' := by
    rintro rfl
    simp at begins
  have digit : isDigit c = false := begins.elim isDigit_of_isAlpha fun same => same ▸ rfl
  simp [Lexeme.first, rules, blanks?_eq_none blank, ellipsis?_eq_none dot, literal?_eq_none quote,
    number?_eq_none digit dot]

theorem first_of_isName (h : IsName (c :: rest)) (word : (c :: rest).takeWhile isWord ∉ keywords) :
    Lexeme.first c rest = .carrying .name (c :: rest) := by
  obtain ⟨d, more, same, begins⟩ := h.exists_cons
  obtain ⟨rfl, rfl⟩ := List.cons.inj same
  simp [first_of_begins begins, rules, keyword?_eq_none_iff.mpr word, h.name?_eq]

theorem first_of_keyword? {word stretch : List Char} {optional : Bool}
    (h : keyword? (c :: rest) = some (word, stretch, optional)) :
    Lexeme.first c rest = ⟨stretch, some (.keyword (String.ofList word) optional)⟩ := by
  have letters : ∀ word ∈ keywords, word.head?.any Char.isAlpha = true := by decide
  obtain ⟨mem, more, same, -⟩ := keyword?_eq_some h
  obtain ⟨d, hd, letter⟩ := (Option.any_eq_true _ _).mp (letters word mem)
  obtain ⟨others, rfl⟩ := List.head?_eq_some_iff.mp hd
  obtain ⟨rfl, -⟩ := List.cons.inj same
  simp [first_of_begins (.inl letter), rules, h]

end First

/-! ## Names as tokens -/

/-- A text whose first word is a keyword is read as that keyword, and on from there. -/
theorem tokenize_of_keyword {id : String} (noMark : '?' ∉ id.toList)
    (word : id.toList.takeWhile isWord ∈ keywords) :
    ∃ more, tokenize id = .keyword (String.ofList (id.toList.takeWhile isWord)) false :: more := by
  obtain ⟨⟨led, stretch, optional⟩, found⟩ := Option.isSome_iff_exists.mp (isSome_keyword? word)
  rw [takeWhile_of_keyword? found]
  obtain ⟨-, rest, hid, -, shape⟩ := keyword?_eq_some found
  have plain : optional = false := by
    rcases shape with ⟨plain, -⟩ | ⟨-, more, marked, -⟩
    · exact plain
    · have mem : '?' ∈ rest.dropWhile isBlank := by
        rw [marked]
        exact List.mem_cons_self
      refine absurd ?_ noMark
      rw [hid]
      exact List.mem_append_right led ((List.dropWhile_sublist isBlank).subset mem)
  subst plain
  obtain ⟨more, cut⟩ := (keyword?_starts found).1
  cases hcs : id.toList with
  | nil =>
    rw [hcs] at found
    cases found
  | cons c others =>
    rw [hcs] at found cut
    have first := first_of_keyword? found
    rw [tokenize, hcs, lexemes_cons (by rw [first, cut]), first]
    exact ⟨_, rfl⟩

/-- A name is one token unless its first word is a keyword, which is its first token then. -/
theorem tokenize_name (id : String) (h : IsName id.toList) :
    (tokenize id = [.name id] ↔ id.toList.takeWhile isWord ∉ keywords) ∧
      (id.toList.takeWhile isWord ∈ keywords → ∃ more,
        tokenize id = .keyword (String.ofList (id.toList.takeWhile isWord)) false :: more) := by
  have noMark : '?' ∉ id.toList := h.not_mem (by decide) (by decide)
  refine ⟨⟨fun named word => ?_, fun word => ?_⟩, tokenize_of_keyword noMark⟩
  · obtain ⟨more, led⟩ := tokenize_of_keyword noMark word
    cases named.symm.trans led
  · obtain ⟨c, rest, hid, -⟩ := h.exists_cons
    rw [hid] at h word
    have first := first_of_isName h word
    have alone : lexemes (c :: rest) = [Lexeme.carrying .name (c :: rest)] := by
      have whole : c :: rest = (Lexeme.first c rest).text ++ [] := by simp [first, Lexeme.carrying]
      rw [lexemes_cons whole, first]
      rfl
    rw [tokenize, hid, alone]
    simp [Lexeme.carrying, ← hid]

/-- A longer word is no keyword, and what follows a keyword does not make it part of a name. -/
theorem dotted_tokenize_name :
    IsName "settings.v-1#/$defs/A".toList ∧
      tokenize "settings.v-1#/$defs/A" = [.name "settings.v-1#/$defs/A"] ∧
      IsName "array.json#/$defs/A".toList ∧
      ∃ more, tokenize "array.json#/$defs/A" = .keyword "array" false :: more := by
  have settings : IsName "settings.v-1#/$defs/A".toList := by decide +kernel
  have array : IsName "array.json#/$defs/A".toList := by decide +kernel
  refine ⟨settings, ?_, array, ?_⟩
  · exact (tokenize_name _ settings).1.mpr (by decide +kernel)
  · exact (tokenize_name _ array).2 (by decide +kernel)

end SchemaDoc.Token
