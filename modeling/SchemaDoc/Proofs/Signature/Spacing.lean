import SchemaDoc.Proofs.Json.Characters
import SchemaDoc.Proofs.Signature.Names

/-!
# Signatures that are spaced as their tokens are shown

A text is *spaced* if the only blanks in it outside of literals are those that a separator is shown
with, `Token.Spaced`.  Such a text is shown as it is, `Token.respaced_eq`.

Tokens and the pieces that a text is put together from need not end at the same places: a number
takes the first dot of an ellipsis, punctuation comes in runs and a keyword takes the blanks behind
it.  So a text is spaced by its characters, and what is shown is that every lexeme leaves a text
that is spaced again.  The one piece that has to be met as a whole is a name with a scheme, since the
colon in it is no separator.  It may stand at the start, behind an opening bracket and behind a
separator, that is where no token goes on into it.
-/

namespace SchemaDoc.Token

open Text

/-! ## Spaced texts -/

/-- The brackets that a name with a scheme may stand behind. -/
def isOpening (c : Char) : Bool := c == '(' || c == '[' || c == '\x7b'

theorem isOpening_of {p : Char → Bool} (apart : (['(', '[', '\x7b'].all fun c => !p c) = true)
    {c : Char} (h : p c = true) : isOpening c = false := by
  rw [Bool.eq_false_iff]
  intro opening
  simp only [isOpening, Bool.or_eq_true, beq_iff_eq] at opening
  rcases opening with (rfl | rfl) | rfl <;> simp [h] at apart

theorem plain_of_plainName? {cs name : List Char} (h : plainName? cs = some name) :
    ∀ c ∈ name, isPlain c = true ∧ isOpening c = false := fun _ hc =>
  have char := mem_of_plainName? h hc
  ⟨isPlain_of_mem_name char, char.elim (isOpening_of (by decide)) fun same => same ▸ rfl⟩

/-- The schemes that a name may have. -/
def schemes : List String := ["http", "https"]

/-- A scheme is one word, and no keyword. -/
theorem exists_of_mem_schemes {scheme : String} (h : scheme ∈ schemes) :
    ∃ letters, scheme.toList = 'h' :: letters ∧
      (∀ c ∈ 'h' :: letters, isWord c = true ∧ isSchemeChar c = true) ∧
        'h' :: letters ∉ keywords := by
  have chars {cs : List Char} (all : (cs.all fun c => isWord c && isSchemeChar c) = true) :
      ∀ c ∈ cs, isWord c = true ∧ isSchemeChar c = true := by simpa using all
  simp only [schemes, List.mem_cons, List.not_mem_nil, or_false] at h
  rcases h with rfl | rfl
  · exact ⟨['t', 't', 'p'], rfl, chars (by decide), by decide⟩
  · exact ⟨['t', 't', 'p', 's'], rfl, chars (by decide), by decide⟩

/-- A text whose blanks are those that separators are shown with.  It may be a name with a scheme
that it begins with, or it may not. -/
inductive Spaced : Bool → List Char → Prop
  | nil {mayName : Bool} : Spaced mayName []
  | plain {mayName : Bool} {c : Char} {rest : List Char} (plain : isPlain c = true)
      (h : Spaced (isOpening c) rest) : Spaced mayName (c :: rest)
  /-- A bar or an ampersand with a blank on either side. -/
  | between {mayName : Bool} {mark : Char} {rest : List Char} (mark_eq : mark = '|' ∨ mark = '&')
      (h : Spaced true rest) : Spaced mayName (' ' :: mark :: ' ' :: rest)
  /-- A comma or a colon with a blank behind it. -/
  | behind {mayName : Bool} {mark : Char} {rest : List Char} (mark_eq : mark = ',' ∨ mark = ':')
      (h : Spaced true rest) : Spaced mayName (mark :: ' ' :: rest)
  | literal {mayName : Bool} (text : String) {rest : List Char} (h : Spaced false rest) :
      Spaced mayName ((Json.quote text).toList ++ rest)
  | scheme {scheme : String} {c : Char} {rest : List Char} (mem : scheme ∈ schemes)
      (word : isWord c = true) (h : Spaced false (c :: rest)) :
      Spaced true (scheme.toList ++ ':' :: '/' :: '/' :: c :: rest)

namespace Spaced

variable {mayName : Bool} {c : Char} {rest : List Char}

/-- Where a name with a scheme may be, none has to be. -/
theorem mono (h : Spaced false rest) : Spaced mayName rest := by
  cases h with
  | nil => exact .nil
  | plain plain h => exact .plain plain h
  | between mark h => exact .between mark h
  | behind mark h => exact .behind mark h
  | literal text h => exact .literal text h

theorem append_plain {taken : List Char} (plain : AllPlain taken) :
    Spaced false rest → Spaced false (taken ++ rest) := by
  induction taken with
  | nil => exact id
  | cons c more ih =>
    obtain ⟨plain, others⟩ := List.forall_mem_cons.mp plain
    exact fun h => .plain plain (ih others h).mono

/-- What follows a plain character that no name with a scheme begins with. -/
theorem tail (h : Spaced mayName (c :: rest)) (plain : isPlain c = true)
    (apart : mayName = true → c ≠ 'h') : Spaced (isOpening c) rest := by
  generalize hcs : c :: rest = cs at h
  cases h with
  | nil => cases hcs
  | plain _ h =>
    obtain ⟨rfl, rfl⟩ := List.cons.inj hcs
    exact h
  | between _ _ =>
    obtain ⟨rfl, -⟩ := List.cons.inj hcs
    cases plain
  | behind mark _ =>
    obtain ⟨rfl, -⟩ := List.cons.inj hcs
    rcases mark with rfl | rfl <;> cases plain
  | literal text _ =>
    rw [Json.toList_quote] at hcs
    obtain ⟨rfl, -⟩ := List.cons.inj hcs
    cases plain
  | scheme mem _ _ =>
    obtain ⟨letters, hs, -⟩ := exists_of_mem_schemes mem
    rw [hs] at hcs
    exact absurd (List.cons.inj hcs).1 (apart rfl)

/-- What follows a blank. -/
theorem eq_of_blank (h : Spaced mayName (c :: rest)) (blank : isBlank c = true) :
    ∃ mark more, (mark = '|' ∨ mark = '&') ∧ rest = mark :: ' ' :: more := by
  generalize hcs : c :: rest = cs at h
  cases h with
  | nil => cases hcs
  | plain plain _ =>
    obtain ⟨rfl, -⟩ := List.cons.inj hcs
    rw [isBlank_of_isPlain plain] at blank
    cases blank
  | between mark _ =>
    obtain ⟨-, rfl⟩ := List.cons.inj hcs
    exact ⟨_, _, mark, rfl⟩
  | behind mark _ =>
    obtain ⟨rfl, -⟩ := List.cons.inj hcs
    rcases mark with rfl | rfl <;> cases blank
  | literal text _ =>
    rw [Json.toList_quote] at hcs
    obtain ⟨rfl, -⟩ := List.cons.inj hcs
    cases blank
  | scheme mem _ _ =>
    obtain ⟨letters, hs, -⟩ := exists_of_mem_schemes mem
    rw [hs] at hcs
    obtain ⟨rfl, -⟩ := List.cons.inj hcs
    cases blank

/-- What is left behind a run of marks.  No name with a scheme begins inside of it. -/
theorem drop_marks {taken : List Char} (marks : ∀ c ∈ taken, isMark c = true) :
    ∀ {mayName : Bool}, Spaced mayName (taken ++ rest) → ∃ mayName, Spaced mayName rest := by
  induction taken with
  | nil => exact fun h => ⟨_, h⟩
  | cons c more ih =>
    intro mayName h
    obtain ⟨mark, others⟩ := List.forall_mem_cons.mp marks
    refine ih others (h.tail (isPlain_of_isMark mark) fun _ same => ?_)
    rw [same] at mark
    cases mark

/-- What is left behind other plain characters. -/
theorem drop_word {taken : List Char}
    (plain : ∀ c ∈ taken, isPlain c = true ∧ isOpening c = false) :
    Spaced false (taken ++ rest) → Spaced false rest := by
  induction taken with
  | nil => exact id
  | cons c more ih =>
    intro h
    obtain ⟨⟨plain, closed⟩, others⟩ := List.forall_mem_cons.mp plain
    have next := h.tail plain nofun
    rw [closed] at next
    exact ih others next

/-- No name with a scheme begins with the first word. -/
theorem dropWhile_ne {cs : List Char} (h : Spaced false cs) (more : List Char) :
    cs.dropWhile isSchemeChar ≠ ':' :: '/' :: more := by
  induction cs with
  | nil => simp
  | cons c rest ih =>
    by_cases scheme : isSchemeChar c = true
    · have next := h.tail (isPlain_of_isSchemeChar scheme) nofun
      rw [isOpening_of (by decide) scheme] at next
      rw [List.dropWhile_cons_of_pos scheme]
      exact ih next
    · rw [List.dropWhile_cons_of_neg scheme]
      rintro same
      rw [same] at h
      generalize hcs : ':' :: '/' :: more = cs at h
      cases h with
      | nil => cases hcs
      | plain plain _ =>
        obtain ⟨rfl, -⟩ := List.cons.inj hcs
        cases plain
      | between _ _ => cases hcs
      | behind _ _ =>
        obtain ⟨-, hcs⟩ := List.cons.inj hcs
        cases hcs
      | literal text _ =>
        rw [Json.toList_quote] at hcs
        cases hcs

end Spaced

/-! ## How texts are shown -/

/-- The tokens of a text as they are shown, before anything is trimmed. -/
def respaced (cs : List Char) : List Char :=
  ((lexemes cs).filterMap Lexeme.token).flatMap fun token => token.display.toList

section Respaced

variable {c : Char} {rest text more : List Char}

theorem respaced_token {token : Token} (first : Lexeme.first c rest = ⟨text, some token⟩)
    (cut : c :: rest = text ++ more) :
    respaced (c :: rest) = token.display.toList ++ respaced more := by
  rw [respaced, lexemes_cons (by rw [first, cut]), first, List.filterMap_cons, List.flatMap_cons]
  rfl

/-- Blanks at the start are not shown. -/
theorem respaced_dropWhile (cs : List Char) : respaced (cs.dropWhile isBlank) = respaced cs := by
  cases cs with
  | nil => rfl
  | cons c rest =>
    by_cases blank : isBlank c = true
    · have first : Lexeme.first c rest = ⟨(c :: rest).takeWhile isBlank, none⟩ := by
        simp [Lexeme.first, rules, blanks?, blank]
      have cut : c :: rest = (Lexeme.first c rest).text ++ (c :: rest).dropWhile isBlank := by
        rw [first, List.takeWhile_append_dropWhile]
      rw [respaced, respaced, lexemes_cons cut, first, List.filterMap_cons]
    · rw [List.dropWhile_cons_of_neg blank]

theorem respaced_separator (h : isSeparator c = true) :
    respaced (c :: rest) = (separator c).display.toList ++ respaced rest := by
  have other {p : Char → Bool} (plain : ∀ {c : Char}, p c = true → isPlain c = true) :
      p c = false := by
    rw [Bool.eq_false_iff]
    intro hc
    rw [(isPlain_eq_true.mp (plain hc)).2.2] at h
    cases h
  have mem := mem_separators h
  have blank : isBlank c = false := eq_false_of_mem (by decide) mem
  have quote : isQuote c = false := eq_false_of_mem (by decide) mem
  have dot : c ≠ '.' := by
    rintro rfl
    cases h
  have first : Lexeme.first c rest = ⟨[c], some (.separator c)⟩ := by
    simp [Lexeme.first, rules, blanks?_eq_none blank, ellipsis?_eq_none dot,
      literal?_eq_none quote, number?_eq_none (other isPlain_of_isDigit) dot,
      keyword?_eq_none (other isPlain_of_isWord), name?_eq_none (other isPlain_of_isWord),
      separator?_cons, h]
  exact respaced_token first rfl

/-! ### Literals -/

/-- The inside of a literal: a backslash protects the next character, and there is no quote. -/
inductive Inside : List Char → Prop
  | nil : Inside []
  | char {c : Char} {rest : List Char} (escape : c ≠ '\\') (quote : c ≠ '"') (h : Inside rest) :
      Inside (c :: rest)
  | escape {c : Char} {rest : List Char} (line : c ≠ '\n') (h : Inside rest) :
      Inside ('\\' :: c :: rest)

theorem Inside.append_chars {taken : List Char} (h : ∀ c ∈ taken, c ≠ '\\' ∧ c ≠ '"') :
    Inside rest → Inside (taken ++ rest) := by
  induction taken with
  | nil => exact id
  | cons c more ih =>
    obtain ⟨⟨escape, quote⟩, others⟩ := List.forall_mem_cons.mp h
    exact fun h => .char escape quote (ih others h)

/-- What a string is written in can be inside of a literal. -/
theorem inside_quote (chars : List Char) : Inside (chars.flatMap Json.escapeChar) := by
  induction chars with
  | nil => exact .nil
  | cons c more ih =>
    rw [List.flatMap_cons]
    obtain ⟨same, escape, quote⟩ | ⟨mark, digits, same, line, inner⟩ := Json.escapeChar_cases c
    · rw [same]
      exact .char escape quote ih
    · rw [same]
      exact .escape line (ih.append_chars inner)

/-- A literal is read up to its second quote. -/
theorem Inside.literalRest? {inner : List Char} (h : Inside inner) (rest : List Char) :
    Token.literalRest? '"' (inner ++ '"' :: rest) = some (inner ++ ['"']) := by
  induction h with
  | nil => rfl
  | @char c more escape quote _ ih =>
    rw [List.cons_append, Token.literalRest?, if_neg (by simpa using quote),
      if_neg (by simpa using escape), ih]
    · rfl
    · intro next others same
      exact absurd same escape
  | escape line _ ih =>
    rw [List.cons_append, List.cons_append, Token.literalRest?, if_neg (by simpa using line), ih]
    rfl

/-- A literal is shown as it is. -/
theorem respaced_inside {inner : List Char} (h : Inside inner) (rest : List Char) :
    respaced ('"' :: (inner ++ '"' :: rest)) = '"' :: (inner ++ '"' :: respaced rest) := by
  have written : literal? ('"' :: (inner ++ '"' :: rest)) = some ('"' :: (inner ++ ['"'])) := by
    rw [literal?, if_pos (by decide), h.literalRest?]
    rfl
  have first : Lexeme.first '"' (inner ++ '"' :: rest) =
      .carrying .literal ('"' :: (inner ++ ['"'])) := by
    simp [Lexeme.first, rules, blanks?_eq_none (show isBlank '"' = false from rfl),
      ellipsis?_eq_none (show '"' ≠ '.' by decide), written]
  have cut : '"' :: (inner ++ '"' :: rest) = '"' :: (inner ++ ['"']) ++ rest := by simp
  rw [respaced_token first cut, display, String.toList_ofList]
  simp

theorem respaced_literal (text : String) (rest : List Char) :
    respaced ((Json.quote text).toList ++ rest) = (Json.quote text).toList ++ respaced rest := by
  rw [Json.toList_quote]
  simpa using respaced_inside (inside_quote text.toList) rest

end Respaced

/-! ## Spaced texts are shown as they are -/

/-- A text with some characters at its start that are shown as they are and leave a spaced text. -/
def Kept (cs : List Char) : Prop :=
  ∃ taken more mayName, taken ≠ [] ∧ cs = taken ++ more ∧
    respaced cs = taken ++ respaced more ∧ Spaced mayName more

section Kept

variable {c : Char} {rest taken : List Char}

theorem kept_of_first {token : Token} (first : Lexeme.first c rest = ⟨taken, some token⟩)
    (shown : token.display.toList = taken)
    (left : ∀ more, c :: rest = taken ++ more → ∃ mayName, Spaced mayName more) :
    Kept (c :: rest) := by
  obtain ⟨⟨more, cut⟩, hne⟩ := first_starts c rest
  rw [first] at cut hne
  obtain ⟨mayName, spaced⟩ := left more cut.symm
  exact ⟨taken, more, mayName, hne, cut.symm, shown ▸ respaced_token first cut.symm, spaced⟩

/-- Blanks between the characters that are kept and the rest are shown with the rest. -/
theorem kept_of_keyword? {word stretch : List Char} {optional : Bool}
    (found : keyword? (c :: rest) = some (word, stretch, optional))
    (h : Spaced false (c :: rest)) : Kept (c :: rest) := by
  have first := first_of_keyword? found
  obtain ⟨mem, after, cut, -, shape⟩ := keyword?_eq_some found
  have word_ne := ne_nil_of_mem_keywords mem
  have plain (c : Char) (hc : c ∈ word) : isPlain c = true ∧ isOpening c = false :=
    have char := isWord_of_mem_keywords mem c hc
    ⟨isPlain_of_isWord char, isOpening_of (by decide) char⟩
  have spaced : Spaced false after := Spaced.drop_word plain (cut ▸ h)
  rcases shape with ⟨rfl, rfl⟩ | ⟨rfl, more, marked, rfl⟩
  · have blanks : after.takeWhile isBlank ++ after.dropWhile isBlank = after :=
      List.takeWhile_append_dropWhile
    refine ⟨word, after, false, word_ne, cut, ?_, spaced⟩
    rw [respaced_token first (by rw [List.append_assoc, blanks, cut]), respaced_dropWhile]
    exact congrArg (· ++ _) String.toList_ofList
  · -- A blank is only before a bar or an ampersand, so the question mark is next.
    obtain rfl : after = '?' :: more := by
      cases after with
      | nil => cases marked
      | cons d others =>
        by_cases blank : isBlank d = true
        · obtain ⟨mark, inner, mark_eq, rfl⟩ := spaced.eq_of_blank blank
          rw [List.dropWhile_cons_of_pos blank] at marked
          rcases mark_eq with rfl | rfl <;> cases marked
        · rwa [List.dropWhile_cons_of_neg blank] at marked
    have blanks : more.takeWhile isBlank ++ more.dropWhile isBlank = more :=
      List.takeWhile_append_dropWhile
    refine ⟨word ++ ['?'], more, false, by simp, by simp [cut], ?_, spaced.tail rfl nofun⟩
    have none : ('?' :: more).takeWhile isBlank = [] := rfl
    rw [none, List.append_nil] at first
    rw [respaced_token first (by rw [List.append_assoc, List.cons_append, blanks, cut]),
      respaced_dropWhile]
    simp [display]

theorem kept_of_plain (plain : isPlain c = true) (h : Spaced (isOpening c) rest) :
    Kept (c :: rest) := by
  obtain ⟨blank, quote, separator⟩ := isPlain_eq_true.mp plain
  have whole : Spaced false (c :: rest) := .plain plain h
  cases found : rules.findSome? fun rule => rule (c :: rest) with
  | none =>
    have first : Lexeme.first c rest = ⟨[c], some (.other c)⟩ := by rw [Lexeme.first, found]; rfl
    refine kept_of_first first String.toList_ofList fun more cut => ⟨isOpening c, ?_⟩
    obtain rfl := (List.cons.inj cut).2
    exact h
  | some lexeme =>
    have first : Lexeme.first c rest = lexeme := by rw [Lexeme.first, found]; rfl
    obtain ⟨rule, mem, applies⟩ := List.exists_of_findSome?_eq_some found
    simp only [rules, List.mem_cons, List.not_mem_nil, or_false] at mem
    rcases mem with rfl | rfl | rfl | rfl | rfl | rfl | rfl | rfl
    all_goals obtain ⟨taken, ht, rfl⟩ := Option.map_eq_some_iff.1 applies
    · rw [blanks?_eq_none blank] at ht
      cases ht
    · obtain rfl : taken = ['.', '.', '.'] := by
        unfold ellipsis? at ht
        split at ht
        · exact (Option.some.inj ht).symm
        · cases ht
      refine kept_of_first first rfl fun more cut => ⟨_, Spaced.drop_word ?_ (cut ▸ whole)⟩
      have dot : isPlain '.' = true ∧ isOpening '.' = false := by decide
      simp only [List.forall_mem_cons]
      exact ⟨dot, dot, dot, List.forall_mem_nil _⟩
    · rw [literal?_eq_none quote] at ht
      cases ht
    · refine kept_of_first first String.toList_ofList fun more cut =>
        ⟨_, Spaced.drop_word (fun d hd => ⟨isPlain_of_number? ht d hd, ?_⟩) (cut ▸ whole)⟩
      exact (mem_of_number? ht hd).elim (isOpening_of (by decide +kernel))
        (isOpening_of (by decide))
    · exact kept_of_keyword? ht whole
    · rcases name?_eq_some ht with ht | ⟨d, others, more, inner, same, alpha, scheme, -, -⟩
      · exact kept_of_first first String.toList_ofList fun more cut =>
          ⟨_, Spaced.drop_word (plain_of_plainName? ht) (cut ▸ whole)⟩
      · obtain ⟨rfl, rfl⟩ := List.cons.inj same
        rw [isOpening_of (by decide) (isWord_of_isAlpha alpha)] at h
        exact absurd scheme (h.dropWhile_ne _)
    · rw [separator?_cons, separator] at ht
      cases ht
    · exact kept_of_first first String.toList_ofList fun more cut =>
        Spaced.drop_marks (isMark_of_marks? ht) (cut ▸ whole)

/-- A name with a scheme is one token, up to where its characters end. -/
theorem kept_of_scheme {scheme : String} (mem : scheme ∈ schemes) (word : isWord c = true)
    (h : Spaced false (c :: rest)) : Kept (scheme.toList ++ ':' :: '/' :: '/' :: c :: rest) := by
  obtain ⟨letters, hs, chars, free⟩ := exists_of_mem_schemes mem
  rw [hs, List.cons_append]
  have others := (List.forall_mem_cons.mp chars).2
  have keyword : keyword? ('h' :: (letters ++ ':' :: '/' :: '/' :: c :: rest)) = none := by
    rw [keyword?_eq_none_iff, ← List.cons_append,
      takeWhile_of_atWordEnd (fun d hd => (chars d hd).1) rfl]
    exact free
  have led : (letters ++ ':' :: '/' :: '/' :: c :: rest).takeWhile isSchemeChar = letters := by
    rw [List.takeWhile_append_of_pos fun d hd => (others d hd).2]
    exact List.append_nil letters
  have left : (letters ++ ':' :: '/' :: '/' :: c :: rest).dropWhile isSchemeChar =
      ':' :: '/' :: '/' :: c :: rest := List.dropWhile_append_of_pos fun d hd => (others d hd).2
  have plain : plainName? (c :: rest) = some (c :: nameRest rest) := if_pos word
  have name : name? ('h' :: (letters ++ ':' :: '/' :: '/' :: c :: rest)) =
      some ('h' :: (letters ++ ':' :: '/' :: '/' :: c :: nameRest rest)) := by
    rw [name?, if_pos (by decide), left, led]
    simp only [plain, Option.map_some, Option.some_or]
  have first : Lexeme.first 'h' (letters ++ ':' :: '/' :: '/' :: c :: rest) =
      .carrying .name ('h' :: (letters ++ ':' :: '/' :: '/' :: c :: nameRest rest)) := by
    have letter : 'h'.isAlpha = true := rfl
    simp [first_of_begins (.inl letter), rules, keyword, name]
  refine kept_of_first first String.toList_ofList fun more cut => ⟨false, ?_⟩
  simp only [List.cons_append, List.append_assoc, List.cons.injEq, true_and,
    List.append_cancel_left_eq] at cut
  rw [cut, ← List.cons_append] at h
  exact Spaced.drop_word (plain_of_plainName? plain) h

end Kept

theorem Spaced.kept {mayName : Bool} {cs : List Char} (h : Spaced mayName cs) (hne : cs ≠ []) :
    Kept cs := by
  cases h with
  | nil => exact absurd rfl hne
  | plain plain h => exact kept_of_plain plain h
  | @between _ mark rest mark_eq h =>
    refine ⟨[' ', mark, ' '], rest, true, by simp, rfl, ?_, h⟩
    rw [← respaced_dropWhile, ← respaced_dropWhile rest]
    rcases mark_eq with rfl | rfl
    all_goals exact (respaced_separator rfl).trans (congrArg _ (respaced_dropWhile _).symm)
  | @behind _ mark rest mark_eq h =>
    refine ⟨[mark, ' '], rest, true, by simp, rfl, ?_, h⟩
    rw [← respaced_dropWhile rest]
    rcases mark_eq with rfl | rfl
    all_goals exact (respaced_separator rfl).trans (congrArg _ (respaced_dropWhile _).symm)
  | literal text h =>
    refine ⟨_, _, false, ?_, rfl, respaced_literal text _, h⟩
    rw [Json.toList_quote]
    exact List.cons_ne_nil _ _
  | scheme mem word h => exact kept_of_scheme mem word h

/-- A spaced text is shown as it is. -/
theorem respaced_eq {mayName : Bool} {cs : List Char} (h : Spaced mayName cs) :
    respaced cs = cs := by
  generalize length : cs.length = n
  induction n using Nat.strong_induction_on generalizing mayName cs with
  | _ n ih =>
    by_cases hne : cs = []
    · rw [hne]
      rfl
    · obtain ⟨taken, more, left, taken_ne, rfl, shown, spaced⟩ := h.kept hne
      have shorter : more.length < n := by
        have := List.length_pos_iff.mpr taken_ne
        rw [List.length_append] at length
        omega
      rw [shown, ih _ shorter spaced rfl]

end SchemaDoc.Token
