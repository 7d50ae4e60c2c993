import Mathlib.Data.List.TakeWhile
import SchemaDoc.Signature.Lexemes

/-!
# The characters of tokens

A character is *plain* if it is no blank, no quote and no separator, `Token.isPlain`.  All others
are in one short list, so that a class of characters is plain if it has none of these.  Digits, the
characters of names and punctuation marks are plain, and therefore numbers, keywords, marks and
names without a scheme are written in plain characters only.

Which rules can apply is mostly seen from the first character of a text.
-/

namespace SchemaDoc.Token

open Text

/-! ## Plain characters -/

/-- A character that neither stands between tokens nor separates nor quotes. -/
def isPlain (c : Char) : Bool := !isBlank c && !isQuote c && !isSeparator c

theorem isPlain_eq_true {c : Char} :
    isPlain c = true ↔ isBlank c = false ∧ isQuote c = false ∧ isSeparator c = false := by
  simp [isPlain, and_assoc]

theorem isBlank_of_isPlain {c : Char} (h : isPlain c = true) : isBlank c = false :=
  (isPlain_eq_true.mp h).1

theorem isQuote_of_isPlain {c : Char} (h : isPlain c = true) : isQuote c = false :=
  (isPlain_eq_true.mp h).2.1

/-- A text of plain characters. -/
def AllPlain (cs : List Char) : Prop := ∀ c ∈ cs, isPlain c = true

-- By the characters of the text.  Going through all characters there are is no option.
instance (cs : List Char) : Decidable (AllPlain cs) :=
  List.decidableBAll (fun c => isPlain c = true) cs

/-- A class with none of some characters. -/
theorem eq_false_of_mem {p : Char → Bool} {cs : List Char}
    (apart : (cs.all fun c => !p c) = true) {c : Char} (h : c ∈ cs) : p c = false := by
  simpa using List.all_eq_true.mp apart c h

/-- The blank characters, by their numbers. -/
def blankNumbers : List Nat :=
  [9, 10, 11, 12, 13, 0x20, 0x85, 0xA0, 0x1680, 0x2000, 0x2001, 0x2002, 0x2003, 0x2004, 0x2005,
    0x2006, 0x2007, 0x2008, 0x2009, 0x200A, 0x2028, 0x2029, 0x202F, 0x205F, 0x3000]

def quotes : List Char := ['"', '\x27', '\x60']

theorem mem_quotes {c : Char} (h : isQuote c = true) : c ∈ quotes := by
  simpa [isQuote, quotes, or_assoc] using h

theorem isQuote_of_isBlank {c : Char} (h : isBlank c = true) : isQuote c = false := by
  rw [Bool.eq_false_iff]
  intro quote
  have solid : isBlank c = false := eq_false_of_mem (by decide) (mem_quotes quote)
  rw [h] at solid
  cases solid

def separators : List Char := ['=', ':', ',', '|', '&']

theorem mem_separators {c : Char} (h : isSeparator c = true) : c ∈ separators := by
  simpa [isSeparator, separators, or_assoc] using h

/-- The characters that are not plain. -/
def specials : List Char := blankNumbers.map Char.ofNat ++ (quotes ++ separators)

theorem mem_specials {c : Char} (h : isPlain c = false) : c ∈ specials := by
  simp only [isPlain, Bool.and_eq_false_iff, Bool.not_eq_false'] at h
  rw [specials, List.mem_append, List.mem_append]
  rcases h with (blank | quote) | separator
  · refine .inl (List.mem_map.mpr ⟨c.toNat, ?_, Char.ofNat_toNat c⟩)
    simp only [isBlank, Bool.or_eq_true, Bool.and_eq_true, decide_eq_true_eq, beq_iff_eq] at blank
    simp only [blankNumbers, List.mem_cons, List.not_mem_nil, or_false]
    omega
  · exact .inr (.inl (mem_quotes quote))
  · exact .inr (.inr (mem_separators separator))

/-- A class with none of the other characters is plain. -/
theorem isPlain_of {p : Char → Bool} (apart : (specials.all fun c => !p c) = true) {c : Char}
    (h : p c = true) : isPlain c = true := by
  by_contra other
  rw [eq_false_of_mem apart (mem_specials (by simpa using other))] at h
  cases h

theorem isPlain_of_isWord {c : Char} (h : isWord c = true) : isPlain c = true :=
  isPlain_of (by decide +kernel) h

theorem isPlain_of_isDigit {c : Char} (h : isDigit c = true) : isPlain c = true :=
  isPlain_of (by decide +kernel) h

theorem isPlain_of_isMark {c : Char} (h : isMark c = true) : isPlain c = true :=
  isPlain_of (by decide +kernel) h

theorem isPlain_of_isNameChar {c : Char} (h : isNameChar c = true) : isPlain c = true := by
  simp only [isNameChar, Bool.or_eq_true, beq_iff_eq] at h
  rcases h with (((h | rfl) | rfl) | rfl) | rfl
  · exact isPlain_of_isWord h
  all_goals rfl

theorem isPlain_of_isSchemeChar {c : Char} (h : isSchemeChar c = true) : isPlain c = true := by
  simp only [isSchemeChar, Bool.or_eq_true, beq_iff_eq] at h
  rcases h with ((h | rfl) | rfl) | rfl
  · exact isPlain_of_isWord h
  all_goals rfl

theorem isWord_of_isAlpha {c : Char} (h : c.isAlpha = true) : isWord c = true :=
  isWord_of_isAlphanum (by simp [Char.isAlphanum, h])

/-- A letter of ASCII is no digit of any script. -/
theorem isDigit_of_isAlpha {c : Char} (h : c.isAlpha = true) : isDigit c = false := by
  have bounds : 65 ≤ c.toNat ∧ c.toNat ≤ 90 ∨ 97 ≤ c.toNat ∧ c.toNat ≤ 122 := by
    rcases Bool.or_eq_true_iff.mp h with upper | lower
    · exact .inl (of_decide_eq_true upper)
    · obtain ⟨low, high⟩ := Bool.and_eq_true_iff.mp lower
      exact .inr ⟨of_decide_eq_true low, of_decide_eq_true high⟩
  rw [isDigit_ascii (by omega)]
  simp only [Char.isDigit, Bool.and_eq_false_iff, decide_eq_false_iff_not, UInt32.le_iff_toNat_le]
  have value : c.toNat = c.val.toNat := rfl
  have nine : '9'.val.toNat = 57 := rfl
  omega

/-! ## What tokens are written in -/

/-- The characters that a number has besides digits. -/
def isNumberMark (c : Char) : Bool := ['.', 'e', 'E', '+', '-'].contains c

theorem mem_exponent {cs : List Char} {c : Char} (h : c ∈ exponent cs) :
    isDigit c = true ∨ isNumberMark c = true := by
  have digit {cs : List Char} (h : c ∈ cs.takeWhile isDigit) : isDigit c = true :=
    List.mem_takeWhile_imp h
  unfold exponent at h
  split at h
  · next mark rest =>
    split at h
    · next hmark =>
      split at h
      next sign digits parts =>
        split at h
        · cases h
        · rcases List.mem_cons.mp h with rfl | h
          · simp only [Bool.or_eq_true, beq_iff_eq] at hmark
            rcases hmark with rfl | rfl <;> exact .inr rfl
          · split at parts
            all_goals
              obtain ⟨rfl, rfl⟩ := Prod.mk.inj parts
              rcases List.mem_append.mp h with h | h
            · exact .inr (List.mem_singleton.mp h ▸ rfl)
            · exact .inl (digit h)
            · exact .inr (List.mem_singleton.mp h ▸ rfl)
            · exact .inl (digit h)
            · cases h
            · exact .inl (digit h)
    · cases h
  · cases h

theorem mem_of_number? {cs taken : List Char} (h : number? cs = some taken) {c : Char}
    (hc : c ∈ taken) : isDigit c = true ∨ isNumberMark c = true := by
  have digit {cs : List Char} (h : c ∈ cs.takeWhile isDigit) : isDigit c = true :=
    List.mem_takeWhile_imp h
  unfold number? at h
  split at h
  · simp only [Option.ite_none_left_eq_some, Option.some.injEq] at h
    obtain ⟨-, rfl⟩ := h
    rcases List.mem_append.mp hc with hc | hc
    · exact .inl (digit hc)
    · rcases List.mem_cons.mp hc with rfl | hc
      · exact .inr rfl
      · exact (List.mem_append.mp hc).elim (fun hc => .inl (digit hc)) mem_exponent
  · simp only [Option.ite_none_left_eq_some, Option.some.injEq] at h
    obtain ⟨-, rfl⟩ := h
    exact (List.mem_append.mp hc).elim (fun hc => .inl (digit hc)) mem_exponent

theorem isPlain_of_number? {cs taken : List Char} (h : number? cs = some taken) :
    AllPlain taken := fun _ hc =>
  (mem_of_number? h hc).elim isPlain_of_isDigit (isPlain_of (by decide +kernel))

theorem mem_nameRest {cs : List Char} {c : Char} (h : c ∈ nameRest cs) :
    isNameChar c = true ∨ c = '.' := by
  fun_induction nameRest cs with
  | case1 d rest hd ih =>
    rcases List.mem_cons.mp h with rfl | h
    · exact .inr rfl
    · exact (List.mem_cons.mp h).elim (fun same => .inl (same ▸ hd)) ih
  | case3 d rest _ hd ih =>
    exact (List.mem_cons.mp h).elim (fun same => .inl (same ▸ hd)) ih
  | case2 | case4 | case5 => cases h

theorem mem_of_plainName? {cs name : List Char} (h : plainName? cs = some name) {c : Char}
    (hc : c ∈ name) : isNameChar c = true ∨ c = '.' := by
  unfold plainName? at h
  split at h
  · next first rest =>
    simp only [Option.ite_none_right_eq_some, Option.some.injEq] at h
    obtain ⟨word, rfl⟩ := h
    rcases List.mem_cons.mp hc with rfl | hc
    · exact .inl (by simp [isNameChar, word])
    · exact mem_nameRest hc
  · cases h

theorem isPlain_of_mem_name {c : Char} (h : isNameChar c = true ∨ c = '.') : isPlain c = true :=
  h.elim isPlain_of_isNameChar fun same => same ▸ rfl

/-- A name has a scheme in front of it, or is written in plain characters. -/
theorem name?_eq_some {cs name : List Char} (h : name? cs = some name) :
    plainName? cs = some name ∨
      ∃ c rest more inner, cs = c :: rest ∧ c.isAlpha = true ∧
        rest.dropWhile isSchemeChar = ':' :: '/' :: '/' :: more ∧ plainName? more = some inner ∧
        name = c :: (rest.takeWhile isSchemeChar ++ ':' :: '/' :: '/' :: inner) := by
  unfold name? at h
  split at h
  · next c rest =>
    rcases Option.or_eq_some_iff.1 h with hs | ⟨-, hp⟩
    · split at hs
      · next alpha =>
        split at hs
        · next more hmore =>
          obtain ⟨inner, hi, rfl⟩ := Option.map_eq_some_iff.1 hs
          exact .inr ⟨c, rest, more, inner, rfl, alpha, hmore, hi, rfl⟩
        · cases hs
      · cases hs
    · exact .inl hp
  · cases h

/-- A name is written in plain characters, but for the colon behind a scheme. -/
theorem mem_of_name? {cs name : List Char} (h : name? cs = some name) {c : Char} (hc : c ∈ name) :
    isPlain c = true ∨ c = ':' := by
  rcases name?_eq_some h with h | ⟨first, rest, more, inner, -, alpha, -, hi, rfl⟩
  · exact .inl (isPlain_of_mem_name (mem_of_plainName? h hc))
  · rcases List.mem_cons.mp hc with rfl | hc
    · exact .inl (isPlain_of_isWord (isWord_of_isAlpha alpha))
    · rcases List.mem_append.mp hc with hc | hc
      · exact .inl (isPlain_of_isSchemeChar (List.mem_takeWhile_imp hc))
      · rw [List.mem_cons, List.mem_cons, List.mem_cons] at hc
        rcases hc with rfl | rfl | rfl | hc
        · exact .inr rfl
        · exact .inl rfl
        · exact .inl rfl
        · exact .inl (isPlain_of_mem_name (mem_of_plainName? hi hc))

theorem isBlank_of_mem_name {cs name : List Char} (h : name? cs = some name) {c : Char}
    (hc : c ∈ name) : isBlank c = false :=
  (mem_of_name? h hc).elim isBlank_of_isPlain fun same => same ▸ rfl

theorem separator?_eq_some {cs : List Char} {mark : Char} (h : separator? cs = some mark) :
    isSeparator mark = true := by
  unfold separator? at h
  split at h
  · simp only [Option.ite_none_right_eq_some, Option.some.injEq] at h
    obtain ⟨separator, rfl⟩ := h
    exact separator
  · cases h

theorem isWord_of_mem_keywords {word : List Char} (h : word ∈ keywords) :
    ∀ c ∈ word, isWord c = true := by
  have all : ∀ word ∈ keywords, word.all isWord = true := by decide
  exact List.all_eq_true.mp (all word h)

theorem isMark_of_marks? {cs run : List Char} (h : marks? cs = some run) :
    ∀ c ∈ run, isMark c = true := by
  simp only [marks?, Option.ite_none_left_eq_some, Option.some.injEq] at h
  obtain ⟨-, rfl⟩ := h
  exact fun c hc => List.mem_takeWhile_imp hc

/-- A literal stands between two quotes of one kind. -/
theorem literalRest?_ends {quote : Char} {cs taken : List Char}
    (h : literalRest? quote cs = some taken) : ∃ inner, taken = inner ++ [quote] := by
  fun_induction literalRest? quote cs generalizing taken with
  | case1 | case2 | case5 => cases h
  | case3 c rest _ ih =>
    obtain ⟨more, hm, rfl⟩ := Option.map_eq_some_iff.1 h
    obtain ⟨inner, rfl⟩ := ih hm
    exact ⟨'\\' :: c :: inner, rfl⟩
  | case4 c rest _ same =>
    obtain rfl := Option.some.inj h
    exact ⟨[], by simpa using same⟩
  | case6 c rest _ _ _ ih =>
    obtain ⟨more, hm, rfl⟩ := Option.map_eq_some_iff.1 h
    obtain ⟨inner, rfl⟩ := ih hm
    exact ⟨c :: inner, rfl⟩

theorem literal?_quoted {cs taken : List Char} (h : literal? cs = some taken) :
    ∃ quote inner, isQuote quote = true ∧ taken = quote :: (inner ++ [quote]) := by
  unfold literal? at h
  split at h
  · next c rest =>
    split at h
    · next quote =>
      obtain ⟨more, hm, rfl⟩ := Option.map_eq_some_iff.1 h
      obtain ⟨inner, rfl⟩ := literalRest?_ends hm
      exact ⟨c, inner, quote, rfl⟩
    · cases h
  · cases h

/-! ## Which rules apply -/

section Rules

variable {c : Char} {rest : List Char}

theorem blanks?_eq_none (h : isBlank c = false) : blanks? (c :: rest) = none := by
  simp [blanks?, h]

theorem ellipsis?_eq_none (h : c ≠ '.') : ellipsis? (c :: rest) = none := by
  unfold ellipsis?
  split
  · rename_i same
    exact absurd (List.cons.inj same).1 h
  · rfl

theorem literal?_eq_none (h : isQuote c = false) : literal? (c :: rest) = none := by
  simp [literal?, h]

theorem number?_eq_none (digit : isDigit c = false) (dot : c ≠ '.') :
    number? (c :: rest) = none := by
  have whole : (c :: rest).takeWhile isDigit = [] := by simp [digit]
  have after : (c :: rest).dropWhile isDigit = c :: rest := by simp [digit]
  rw [number?, whole, after]
  split
  · rename_i same
    exact absurd (List.cons.inj same).1 dot
  · rfl

theorem keyword?_eq_none (h : isWord c = false) : keyword? (c :: rest) = none := by
  rw [Option.eq_none_iff_forall_not_mem]
  rintro ⟨word, stretch, optional⟩ found
  obtain ⟨mem, more, same, -⟩ := keyword?_eq_some found
  obtain ⟨first, others, rfl⟩ := List.exists_cons_of_ne_nil (ne_nil_of_mem_keywords mem)
  have word := isWord_of_mem_keywords mem first List.mem_cons_self
  rw [← (List.cons.inj same).1, h] at word
  cases word

theorem name?_eq_none (h : isWord c = false) : name? (c :: rest) = none := by
  have letter : c.isAlpha = false := by
    rw [Bool.eq_false_iff]
    exact fun alpha => by simp [isWord_of_isAlpha alpha] at h
  simp [name?, plainName?, letter, h]

theorem separator?_cons : separator? (c :: rest) = if isSeparator c then some c else none := rfl

end Rules

end SchemaDoc.Token
