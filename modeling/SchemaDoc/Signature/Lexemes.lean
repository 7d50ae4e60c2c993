import SchemaDoc.Signature.Token

/-!
# Lexemes of a signature

Each rule of `SchemaDoc.Token` applies to a stretch at the start of what is left of a
text, and that stretch is not empty.  So the lexemes are the text cut in pieces, and
only blanks are no token.

Main statement: `lexemes_text`, the stretches of the lexemes in order are the text.
-/

namespace SchemaDoc.Token

/-! ## The stretch of each rule -/

/-- A stretch at the start of a text with at least one character. -/
def Starts (stretch text : List Char) : Prop := stretch <+: text ∧ stretch ≠ []

/-- The characters of some kind at the start of a text, if there are any. -/
theorem starts_takeWhile {p : Char → Bool} {cs : List Char} (h : cs.takeWhile p ≠ []) :
    Starts (cs.takeWhile p) cs :=
  ⟨List.takeWhile_prefix p, h⟩

/-- A character with a stretch at the start of what follows it. -/
theorem starts_cons {c : Char} {stretch rest : List Char} (h : stretch <+: rest) :
    Starts (c :: stretch) (c :: rest) :=
  ⟨by simpa using h, by simp⟩

theorem blanks?_starts {cs run : List Char} (h : blanks? cs = some run) : Starts run cs := by
  simp only [blanks?, Option.ite_none_left_eq_some, List.isEmpty_iff, Option.some.injEq] at h
  obtain ⟨hne, rfl⟩ := h
  exact starts_takeWhile hne

theorem ellipsis?_starts {cs dots : List Char} (h : ellipsis? cs = some dots) :
    Starts dots cs := by
  unfold ellipsis? at h
  split at h
  · obtain rfl := Option.some.inj h
    exact ⟨by simp, by simp⟩
  · exact absurd h (by simp)

theorem literalRest?_isPrefix {quote : Char} {cs taken : List Char}
    (h : literalRest? quote cs = some taken) : taken <+: cs := by
  fun_induction literalRest? quote cs generalizing taken with
  | case1 => exact absurd h (by simp)
  | case2 => exact absurd h (by simp)
  | case3 c rest hc ih =>
    obtain ⟨inner, hi, rfl⟩ := Option.map_eq_some_iff.1 h
    simpa using ih hi
  | case4 c rest =>
    obtain rfl := Option.some.inj h
    simp
  | case5 => exact absurd h (by simp)
  | case6 c rest _ _ _ ih =>
    obtain ⟨inner, hi, rfl⟩ := Option.map_eq_some_iff.1 h
    simpa using ih hi

theorem literal?_starts {cs taken : List Char} (h : literal? cs = some taken) :
    Starts taken cs := by
  unfold literal? at h
  split at h
  · split at h
    · obtain ⟨inner, hi, rfl⟩ := Option.map_eq_some_iff.1 h
      exact starts_cons (literalRest?_isPrefix hi)
    · exact absurd h (by simp)
  · exact absurd h (by simp)

/-- The characters of some kind and a stretch at the start of what follows them. -/
theorem takeWhile_append_isPrefix {p : Char → Bool} {cs stretch : List Char}
    (h : stretch <+: cs.dropWhile p) : cs.takeWhile p ++ stretch <+: cs := by
  have whole : cs.takeWhile p ++ cs.dropWhile p = cs := List.takeWhile_append_dropWhile
  have joined : cs.takeWhile p ++ stretch <+: cs.takeWhile p ++ cs.dropWhile p :=
    (List.prefix_append_right_inj _).2 h
  rwa [whole] at joined

theorem exponent_isPrefix (cs : List Char) : exponent cs <+: cs := by
  unfold exponent
  split
  · next mark rest =>
    split
    · split
      next sign digits parts =>
        have both : sign ++ digits <+: rest := by
          split at parts
          all_goals
            obtain ⟨rfl, rfl⟩ := Prod.mk.inj parts
            simpa using List.takeWhile_prefix _
        split
        · simp
        · simpa using both
    · simp
  · simp

theorem number?_starts {cs taken : List Char} (h : number? cs = some taken) :
    Starts taken cs := by
  unfold number? at h
  split at h
  · next rest hrest =>
    simp only [Option.ite_none_left_eq_some, Option.some.injEq] at h
    obtain ⟨-, rfl⟩ := h
    refine ⟨takeWhile_append_isPrefix ?_, by simp⟩
    rw [hrest]
    simpa using takeWhile_append_isPrefix (exponent_isPrefix _)
  · simp only [Option.ite_none_left_eq_some, List.isEmpty_iff, Option.some.injEq] at h
    obtain ⟨hne, rfl⟩ := h
    exact ⟨takeWhile_append_isPrefix (exponent_isPrefix _), by simp [hne]⟩

theorem ne_nil_of_mem_keywords {word : List Char} (h : word ∈ keywords) : word ≠ [] := by
  have all : ∀ word ∈ keywords, word ≠ [] := by decide
  exact all word h

/-- A keyword is read where a word ends, together with the blanks behind it, and with a question
mark and the blanks behind that if the mark is next. -/
theorem keyword?_eq_some {cs word stretch : List Char} {optional : Bool}
    (h : keyword? cs = some (word, stretch, optional)) :
    word ∈ keywords ∧ ∃ rest, cs = word ++ rest ∧ atWordEnd rest = true ∧
      (optional = false ∧ stretch = word ++ rest.takeWhile Text.isBlank ∨
        optional = true ∧ ∃ more, rest.dropWhile Text.isBlank = '?' :: more ∧
          stretch = word ++ rest.takeWhile Text.isBlank ++ '?' :: more.takeWhile Text.isBlank) := by
  obtain ⟨found, hfound, hstretch⟩ := Option.map_eq_some_iff.1 h
  have mem := List.mem_of_find?_eq_some hfound
  have hword := List.find?_some hfound
  simp only [Bool.and_eq_true, List.isPrefixOf_iff_prefix] at hword
  obtain ⟨⟨rest, rfl⟩, ends⟩ := hword
  rw [List.drop_left] at ends
  simp only [List.drop_left] at hstretch
  split at hstretch
  · next more hmore =>
    simp only [Prod.mk.injEq] at hstretch
    obtain ⟨rfl, rfl, rfl⟩ := hstretch
    exact ⟨mem, rest, rfl, ends, .inr ⟨rfl, more, hmore, rfl⟩⟩
  · simp only [Prod.mk.injEq] at hstretch
    obtain ⟨rfl, rfl, rfl⟩ := hstretch
    exact ⟨mem, rest, rfl, ends, .inl ⟨rfl, rfl⟩⟩

theorem keyword?_starts {cs word stretch : List Char} {optional : Bool}
    (h : keyword? cs = some (word, stretch, optional)) : Starts stretch cs := by
  obtain ⟨mem, rest, rfl, -, ⟨-, rfl⟩ | ⟨-, more, hmore, rfl⟩⟩ := keyword?_eq_some h
  all_goals have hne := ne_nil_of_mem_keywords mem
  · exact ⟨(List.prefix_append_right_inj _).2 (List.takeWhile_prefix _), by simp [hne]⟩
  · refine ⟨?_, by simp [hne]⟩
    rw [List.append_assoc]
    refine (List.prefix_append_right_inj _).2 (takeWhile_append_isPrefix ?_)
    rw [hmore]
    simpa using List.takeWhile_prefix _

theorem nameRest_isPrefix (cs : List Char) : nameRest cs <+: cs := by
  fun_induction nameRest cs with
  | case1 c rest hc ih => simpa using ih
  | case2 => simp
  | case3 c rest _ hc ih => simpa using ih
  | case4 => simp
  | case5 => simp

theorem plainName?_starts {cs name : List Char} (h : plainName? cs = some name) :
    Starts name cs := by
  unfold plainName? at h
  split at h
  · simp only [Option.ite_none_right_eq_some, Option.some.injEq] at h
    obtain ⟨-, rfl⟩ := h
    exact starts_cons (nameRest_isPrefix _)
  · exact absurd h (by simp)

theorem name?_starts {cs name : List Char} (h : name? cs = some name) : Starts name cs := by
  unfold name? at h
  split at h
  · next c rest =>
    rcases Option.or_eq_some_iff.1 h with hs | ⟨-, hp⟩
    · split at hs
      · split at hs
        · next more hmore =>
          obtain ⟨plain, hplain, rfl⟩ := Option.map_eq_some_iff.1 hs
          refine starts_cons (takeWhile_append_isPrefix ?_)
          rw [hmore]
          simpa using (plainName?_starts hplain).1
        · exact absurd hs (by simp)
      · exact absurd hs (by simp)
    · exact plainName?_starts hp
  · exact absurd h (by simp)

theorem separator?_starts {cs : List Char} {mark : Char} (h : separator? cs = some mark) :
    Starts [mark] cs := by
  unfold separator? at h
  split at h
  · simp only [Option.ite_none_right_eq_some, Option.some.injEq] at h
    obtain ⟨-, rfl⟩ := h
    exact ⟨by simp, by simp⟩
  · exact absurd h (by simp)

theorem marks?_starts {cs run : List Char} (h : marks? cs = some run) : Starts run cs := by
  simp only [marks?, Option.ite_none_left_eq_some, List.isEmpty_iff, Option.some.injEq] at h
  obtain ⟨hne, rfl⟩ := h
  exact starts_takeWhile hne

/-! ## The stretches in order -/

/-- A rule applies to a stretch at the start of a text. -/
theorem rule_starts {rule : List Char → Option Lexeme} (mem : rule ∈ rules) {cs : List Char}
    {lexeme : Lexeme} (h : rule cs = some lexeme) : Starts lexeme.text cs := by
  simp only [rules, List.mem_cons, List.not_mem_nil, or_false] at mem
  rcases mem with rfl | rfl | rfl | rfl | rfl | rfl | rfl | rfl
  all_goals obtain ⟨taken, ht, rfl⟩ := Option.map_eq_some_iff.1 h
  · exact blanks?_starts ht
  · exact ellipsis?_starts ht
  · exact literal?_starts ht
  · exact number?_starts ht
  · exact keyword?_starts ht
  · exact name?_starts ht
  · exact separator?_starts ht
  · exact marks?_starts ht

/-- The lexeme at the start of a text is a stretch at its start. -/
theorem first_starts (c : Char) (rest : List Char) :
    Starts (Lexeme.first c rest).text (c :: rest) := by
  unfold Lexeme.first
  cases found : rules.findSome? fun rule => rule (c :: rest) with
  | none => exact ⟨by simp, by simp⟩
  | some lexeme =>
    obtain ⟨rule, mem, h⟩ := List.exists_of_findSome?_eq_some found
    exact rule_starts mem h

/-- The stretches of the lexemes are what is left of the text. -/
theorem lexemesAfter_text (taken : Nat) (cs : List Char) :
    (lexemesAfter taken cs).flatMap Lexeme.text = cs.drop taken := by
  induction cs generalizing taken with
  | nil => cases taken <;> simp [lexemesAfter]
  | cons c rest ih =>
    cases taken with
    | succ taken => simpa [lexemesAfter] using ih taken
    | zero =>
      obtain ⟨⟨more, hmore⟩, hne⟩ := first_starts c rest
      rw [lexemesAfter, List.flatMap_cons, ih]
      cases text : (Lexeme.first c rest).text with
      | nil => exact absurd text hne
      | cons first others =>
        rw [text, List.cons_append, List.cons.injEq] at hmore
        obtain ⟨rfl, rfl⟩ := hmore
        simp

/-- The stretches of the lexemes in order are the text. -/
theorem lexemes_text (cs : List Char) : (lexemes cs).flatMap Lexeme.text = cs := by
  simpa [lexemes] using lexemesAfter_text 0 cs

/-! ## Reading on -/

/-- A text after some of its characters is read from there. -/
theorem lexemesAfter_eq_drop (taken : Nat) (cs : List Char) :
    lexemesAfter taken cs = lexemes (cs.drop taken) := by
  induction cs generalizing taken with
  | nil => cases taken <;> simp [lexemes, lexemesAfter]
  | cons c rest ih =>
    cases taken with
    | zero => rfl
    | succ taken => simpa [lexemesAfter] using ih taken

/-- The lexemes of a text are the first one and those of what it leaves. -/
theorem lexemes_cons {c : Char} {rest more : List Char}
    (h : c :: rest = (Lexeme.first c rest).text ++ more) :
    lexemes (c :: rest) = Lexeme.first c rest :: lexemes more := by
  obtain ⟨-, hne⟩ := first_starts c rest
  rw [lexemes, lexemesAfter, lexemesAfter_eq_drop]
  cases text : (Lexeme.first c rest).text with
  | nil => exact absurd text hne
  | cons first others =>
    rw [text, List.cons_append, List.cons.injEq] at h
    rw [h.2]
    simp

/-- Every lexeme of a text is the first one of what is left of the text at some place. -/
theorem exists_first_of_mem {taken : Nat} {cs : List Char} {lexeme : Lexeme}
    (h : lexeme ∈ lexemesAfter taken cs) : ∃ c rest, lexeme = Lexeme.first c rest := by
  induction cs generalizing taken with
  | nil => cases taken <;> simp [lexemesAfter] at h
  | cons c rest ih =>
    cases taken with
    | succ taken => exact ih h
    | zero =>
      rcases List.mem_cons.mp h with rfl | h
      · exact ⟨c, rest, rfl⟩
      · exact ih h

end SchemaDoc.Token
