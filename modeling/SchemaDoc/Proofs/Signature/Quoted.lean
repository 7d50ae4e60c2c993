import SchemaDoc.Proofs.Signature.Spacing
import SchemaDoc.Proofs.Signature.Spelling

/-!
# How texts with literals are shown

A text may have literals in it, `Token.Quoted`.  If no other quotes stand in it, `Quoted.Proper`,
the literals are shown as they are, and around them only blanks change, `Quoted.shows_respaced`:
no lexeme that begins before a literal goes on into it, `unquoted_first`, and what is left behind a
lexeme is read by itself.
-/

namespace SchemaDoc.Token

open Text

/-! ## Texts with literals -/

/-- A text with no quotes in it. -/
def Unquoted (cs : List Char) : Prop := ∀ c ∈ cs, isQuote c = false

instance (cs : List Char) : Decidable (Unquoted cs) :=
  List.decidableBAll (fun c => isQuote c = false) cs

/-- A text by its literals. -/
inductive Quoted where
  | plain (text : List Char)
  /-- A literal, by its inside and by what stands on either side. -/
  | literal (before inner : List Char) (after : Quoted)

namespace Quoted

/-- The text. -/
def written : Quoted → List Char
  | .plain text => text
  | .literal before inner after => before ++ '"' :: (inner ++ '"' :: after.written)

/-- The literals are what is between quotes, and there are no other quotes. -/
def Proper : Quoted → Prop
  | .plain text => Unquoted text
  | .literal before inner after => Unquoted before ∧ Inside inner ∧ after.Proper

/-- The insides of the literals. -/
def insides : Quoted → List (List Char)
  | .plain _ => []
  | .literal _ inner after => inner :: after.insides

/-- A text with other texts between the literals and inside of them. -/
def map (between inside : List Char → List Char) : Quoted → Quoted
  | .plain text => .plain (between text)
  | .literal before inner after =>
    .literal (between before) (inside inner) (after.map between inside)

/-- What a text is shown as: its literals as they are and in their order, and between them all
that is not blank. -/
def Shows : Quoted → List Char → Prop
  | .plain text, shown => solid shown = solid text
  | .literal before inner after, shown => ∃ front back,
    shown = front ++ '"' :: (inner ++ '"' :: back) ∧ solid front = solid before ∧ after.Shows back

variable {quoted : Quoted} {shown : List Char}

theorem firm_literal (inner : List Char) : Firm ('"' :: (inner ++ ['"'])) :=
  firm_between rfl rfl inner

theorem Shows.solid_eq (h : quoted.Shows shown) : solid shown = solid quoted.written := by
  induction quoted generalizing shown with
  | plain text => exact h
  | literal before inner after ih =>
    obtain ⟨front, back, rfl, same, h⟩ := h
    have quote (rest : List Char) :
        '"' :: (inner ++ '"' :: rest) = '"' :: inner ++ ['"'] ++ rest := by simp
    rw [written, quote, quote]
    simp only [solid_append, same, ih h]

/-! ### Trimming -/

theorem Shows.trimEnd (h : quoted.Shows shown) : quoted.Shows (Text.trimEnd shown) := by
  induction quoted generalizing shown with
  | plain text => exact (solid_trimEnd shown).trans h
  | literal before inner after ih =>
    obtain ⟨front, back, rfl, same, h⟩ := h
    have stays := trimEnd_append_firm front (firm_literal inner) back
    exact ⟨front, Text.trimEnd back, by simpa using stays, same, ih h⟩

/-- A text may be trimmed, since a literal is firm. -/
theorem Shows.trim (h : quoted.Shows shown) : quoted.Shows (Text.trim shown) := by
  cases quoted with
  | plain text => exact (solid_trim shown).trans h
  | literal before inner after =>
    obtain ⟨front, back, rfl, same, h⟩ := h
    have stays := trim_append_firm front (firm_literal inner) back
    exact ⟨trimStart front, Text.trimEnd back, by simpa using stays,
      (solid_trimStart front).trans same, h.trimEnd⟩

end Quoted

/-! ## Lexemes and literals -/

/-- Only a literal has quotes in it, and it begins with one. -/
theorem unquoted_first {c : Char} (h : isQuote c = false) (rest : List Char) :
    Unquoted (Lexeme.first c rest).text := by
  have plain {cs : List Char} (h : AllPlain cs) : Unquoted cs :=
    fun d hd => isQuote_of_isPlain (h d hd)
  have blanks (cs : List Char) : Unquoted (cs.takeWhile isBlank) :=
    fun d hd => isQuote_of_isBlank (List.mem_takeWhile_imp hd)
  unfold Lexeme.first
  cases found : rules.findSome? fun rule => rule (c :: rest) with
  | none => exact List.forall_mem_singleton.mpr h
  | some lexeme =>
    obtain ⟨rule, mem, applies⟩ := List.exists_of_findSome?_eq_some found
    simp only [rules, List.mem_cons, List.not_mem_nil, or_false] at mem
    rcases mem with rfl | rfl | rfl | rfl | rfl | rfl | rfl | rfl
    all_goals obtain ⟨taken, ht, rfl⟩ := Option.map_eq_some_iff.1 applies
    · simp only [blanks?, Option.ite_none_left_eq_some, Option.some.injEq] at ht
      obtain ⟨-, rfl⟩ := ht
      exact blanks _
    · unfold ellipsis? at ht
      split at ht
      · obtain rfl := Option.some.inj ht
        have dots : AllPlain ['.', '.', '.'] := by decide
        exact plain dots
      · cases ht
    · rw [literal?_eq_none h] at ht
      cases ht
    · exact plain (isPlain_of_number? ht)
    · obtain ⟨word, stretch, optional⟩ := taken
      obtain ⟨mem, rest, -, -, shape⟩ := keyword?_eq_some ht
      have word := plain fun d hd => isPlain_of_isWord (isWord_of_mem_keywords mem d hd)
      have front := List.forall_mem_append.mpr ⟨word, blanks rest⟩
      rcases shape with ⟨-, rfl⟩ | ⟨-, more, -, rfl⟩
      · exact front
      · have mark : isQuote '?' = false := rfl
        exact List.forall_mem_append.mpr ⟨front, List.forall_mem_cons.mpr ⟨mark, blanks more⟩⟩
    · intro d hd
      exact (mem_of_name? ht hd).elim isQuote_of_isPlain fun same => same ▸ rfl
    · have separator := mem_separators (separator?_eq_some ht)
      exact List.forall_mem_singleton.mpr (eq_false_of_mem (by decide) separator)
    · exact plain fun d hd => isPlain_of_isMark (isMark_of_marks? ht d hd)

/-- A lexeme is shown as it is but for blanks. -/
theorem exists_respaced_cons {c : Char} {rest more : List Char}
    (cut : c :: rest = (Lexeme.first c rest).text ++ more) :
    ∃ shown, respaced (c :: rest) = shown ++ respaced more ∧
      solid shown = solid (Lexeme.first c rest).text := by
  rw [respaced, lexemes_cons cut]
  have sound := sound_first c rest
  generalize Lexeme.first c rest = lexeme at sound
  cases sound with
  | blank blank => exact ⟨[], rfl, (solid_of_allBlank blank).symm⟩
  | token spells after =>
    refine ⟨_, rfl, ?_⟩
    rw [spells.solid_display, solid_append, solid_of_allBlank after, List.append_nil]

/-- What stands before a literal is shown as it is but for blanks, whatever comes then. -/
theorem exists_respaced_append {before : List Char} (h : Unquoted before) {rest : List Char}
    (quote : ∀ c ∈ rest.head?, isQuote c = true) :
    ∃ shown, respaced (before ++ rest) = shown ++ respaced rest ∧ solid shown = solid before := by
  generalize length : before.length = n
  induction n using Nat.strong_induction_on generalizing before with
  | _ n ih =>
    cases before with
    | nil => exact ⟨[], rfl, rfl⟩
    | cons c more =>
      obtain ⟨⟨left, cut⟩, nonempty⟩ := first_starts c (more ++ rest)
      have unquoted := unquoted_first (List.forall_mem_cons.mp h).1 (more ++ rest)
      obtain ⟨shown, first, same⟩ := exists_respaced_cons cut.symm
      -- The lexeme ends before the literal.
      obtain ⟨after, hb, rfl⟩ : ∃ after, c :: more = (Lexeme.first c (more ++ rest)).text ++ after ∧
          left = after ++ rest := by
        rw [← List.cons_append] at cut
        rcases List.append_eq_append_iff.mp cut with ⟨after, hb, hl⟩ | ⟨after, ht, hr⟩
        · exact ⟨after, hb, hl⟩
        · cases after with
          | nil => exact ⟨[], by simpa using ht.symm, hr.symm⟩
          | cons d others =>
            have closed := unquoted d (by simp [ht])
            rw [quote d (by simp [hr])] at closed
            cases closed
      have shorter : after.length < n := by
        have taken := List.length_pos_iff.mpr nonempty
        have all := congrArg List.length hb
        rw [List.length_append] at all
        omega
      have others : Unquoted after := (List.forall_mem_append.mp (hb ▸ h)).2
      obtain ⟨back, onward, same'⟩ := ih _ shorter others rfl
      refine ⟨shown ++ back, ?_, ?_⟩
      · rw [List.cons_append, first, onward, List.append_assoc]
      · rw [hb, solid_append, solid_append, same, same']

/-- The literals of a text are shown as they are, and between them only blanks change. -/
theorem Quoted.shows_respaced {quoted : Quoted} (h : quoted.Proper) :
    quoted.Shows (respaced quoted.written) := by
  induction quoted with
  | plain text =>
    have ends : ∀ c ∈ [].head?, isQuote c = true := nofun
    obtain ⟨shown, all, same⟩ := exists_respaced_append h ends
    rw [List.append_nil] at all
    rw [written, all]
    exact (congrArg solid (List.append_nil shown)).trans same
  | literal before inner after ih =>
    obtain ⟨unquoted, inside, proper⟩ := h
    have quote : ∀ c ∈ ('"' :: (inner ++ '"' :: after.written)).head?, isQuote c = true := by
      simp [isQuote]
    obtain ⟨shown, front, same⟩ := exists_respaced_append unquoted quote
    refine ⟨shown, respaced after.written, ?_, same, ih proper⟩
    rw [written, front, respaced_inside inside]

end SchemaDoc.Token
