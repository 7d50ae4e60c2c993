import SchemaDoc.Proofs.Signature.Characters
import SchemaDoc.Signature.Highlight

/-!
# What tokens keep of a signature

A signature is made of its tokens and of blanks, `Token.MadeOf`: each token stands in it as it is
written, `Token.Spells`, and all that stands between them is blank.  What is shown of a token is
what was written, but for blanks.  So a normalized signature is the signature but for blanks.

Only blanks at the ends are trimmed away.  A text is *firm* if there are none, `Text.Firm`, and a
firm text stays wherever it stands, `Text.trim_append_firm`.  A literal is firm.  What is shown of any
token is firm but for the blanks around a separator, and a token in color is firm as a whole.  So it
does not matter whether styles are left out before a text is trimmed or after.
-/

namespace SchemaDoc

namespace Text

/-! ## Texts without blanks -/

/-- The characters that are not blank. -/
def solid (cs : List Char) : List Char := cs.filter fun c => !isBlank c

/-- A text of blanks. -/
def AllBlank (cs : List Char) : Prop := ∀ c ∈ cs, isBlank c = true

theorem solid_append (left right : List Char) : solid (left ++ right) = solid left ++ solid right :=
  List.filter_append ..

theorem solid_of_allBlank {cs : List Char} (h : AllBlank cs) : solid cs = [] := by
  rw [solid, List.filter_eq_nil_iff]
  exact fun c hc => by simp [h c hc]

theorem allBlank_nil : AllBlank [] := List.forall_mem_nil _

theorem allBlank_takeWhile (cs : List Char) : AllBlank (cs.takeWhile isBlank) :=
  fun _ hc => List.mem_takeWhile_imp hc

theorem AllBlank.append {left right : List Char} (hl : AllBlank left) (hr : AllBlank right) :
    AllBlank (left ++ right) :=
  List.forall_mem_append.mpr ⟨hl, hr⟩

theorem solid_trimStart (cs : List Char) : solid (trimStart cs) = solid cs := by
  have whole : cs.takeWhile isBlank ++ trimStart cs = cs := List.takeWhile_append_dropWhile
  have front := solid_of_allBlank (allBlank_takeWhile cs)
  calc solid (trimStart cs)
      = solid (cs.takeWhile isBlank) ++ solid (trimStart cs) := by rw [front, List.nil_append]
    _ = solid cs := by rw [← solid_append, whole]

theorem trimEnd_eq_reverse (cs : List Char) : trimEnd cs = (trimStart cs.reverse).reverse := rfl

theorem solid_reverse (cs : List Char) : solid cs.reverse = (solid cs).reverse :=
  List.filter_reverse ..

theorem solid_trimEnd (cs : List Char) : solid (trimEnd cs) = solid cs := by
  rw [trimEnd_eq_reverse, solid_reverse, solid_trimStart, solid_reverse, List.reverse_reverse]

theorem solid_trim (cs : List Char) : solid (trim cs) = solid cs :=
  (solid_trimEnd _).trans (solid_trimStart cs)

/-! ## Firm texts -/

/-- A text with no blanks at its ends. -/
def Firm (cs : List Char) : Prop :=
  (∃ c ∈ cs.head?, isBlank c = false) ∧ ∃ c ∈ cs.getLast?, isBlank c = false

theorem firm_of_solid {cs : List Char} (nonempty : cs ≠ []) (h : ∀ c ∈ cs, isBlank c = false) :
    Firm cs :=
  ⟨⟨cs.head nonempty, List.head?_eq_some_head nonempty, h _ (List.head_mem nonempty)⟩,
    ⟨cs.getLast nonempty, List.getLast?_eq_some_getLast nonempty, h _ (List.getLast_mem nonempty)⟩⟩

theorem firm_between {first last : Char} (hf : isBlank first = false) (hl : isBlank last = false)
    (inner : List Char) : Firm (first :: (inner ++ [last])) := by
  refine ⟨⟨first, rfl, hf⟩, last, ?_, hl⟩
  rw [← List.cons_append, List.getLast?_concat]
  rfl

theorem Firm.reverse {cs : List Char} (h : Firm cs) : Firm cs.reverse := by
  rw [Firm, List.head?_reverse, List.getLast?_reverse]
  exact ⟨h.2, h.1⟩

/-- Between firm texts anything may stand. -/
theorem Firm.append {left right : List Char} (hl : Firm left) (middle : List Char)
    (hr : Firm right) : Firm (left ++ middle ++ right) := by
  obtain ⟨⟨c, hc, hb⟩, -⟩ := hl
  obtain ⟨-, d, hd, he⟩ := hr
  obtain ⟨more, rfl⟩ := List.head?_eq_some_iff.mp hc
  obtain ⟨front, rfl⟩ := List.getLast?_eq_some_iff.mp hd
  refine ⟨⟨c, rfl, hb⟩, d, ?_, he⟩
  rw [← List.append_assoc, List.getLast?_concat]
  rfl

theorem trimStart_append_firm (before : List Char) {core : List Char} (h : Firm core)
    (after : List Char) :
    trimStart (before ++ core ++ after) = trimStart before ++ core ++ after := by
  obtain ⟨⟨c, hc, hb⟩, -⟩ := h
  obtain ⟨more, rfl⟩ := List.head?_eq_some_iff.mp hc
  rw [trimStart, trimStart, List.append_assoc, List.dropWhile_append]
  split
  · rename_i blank
    rw [List.isEmpty_iff.mp blank]
    simp [hb]
  · rw [List.append_assoc]

theorem trimEnd_append_firm (before : List Char) {core : List Char} (h : Firm core)
    (after : List Char) : trimEnd (before ++ core ++ after) = before ++ core ++ trimEnd after := by
  have back := trimStart_append_firm after.reverse h.reverse before.reverse
  rw [trimEnd_eq_reverse, trimEnd_eq_reverse]
  simp only [List.reverse_append, List.append_assoc] at back ⊢
  rw [back]
  simp

/-- A firm text stays when what is around it is trimmed. -/
theorem trim_append_firm (before : List Char) {core : List Char} (h : Firm core)
    (after : List Char) :
    trim (before ++ core ++ after) = trimStart before ++ core ++ trimEnd after := by
  rw [trim, trimStart_append_firm before h, trimEnd_append_firm _ h]

theorem Firm.ne_nil {cs : List Char} (h : Firm cs) : cs ≠ [] := by
  rintro rfl
  obtain ⟨⟨c, hc, -⟩, -⟩ := h
  cases hc

/-! ### Blanks around a firm text -/

theorem trim_of_allBlank {cs : List Char} (h : AllBlank cs) : trim cs = [] := by
  have start : trimStart cs = [] := List.dropWhile_eq_nil_iff.mpr h
  rw [trim, start]
  rfl

theorem AllBlank.reverse {cs : List Char} (h : AllBlank cs) : AllBlank cs.reverse :=
  fun c hc => h c (List.mem_reverse.mp hc)

theorem trim_blanks_append {before core after : List Char} (hb : AllBlank before)
    (firm : Firm core) (ha : AllBlank after) : trim (before ++ core ++ after) = core := by
  have start : trimStart before = [] := List.dropWhile_eq_nil_iff.mpr hb
  have ends : trimEnd after = [] := by
    rw [trimEnd_eq_reverse, List.reverse_eq_nil_iff]
    exact List.dropWhile_eq_nil_iff.mpr ha.reverse
  rw [trim_append_firm before firm, start, ends, List.nil_append, List.append_nil]

theorem takeWhile_blanks_append {before core : List Char} (hb : AllBlank before)
    (firm : Firm core) (after : List Char) :
    (before ++ core ++ after).takeWhile isBlank = before := by
  obtain ⟨⟨c, hc, solid⟩, -⟩ := firm
  obtain ⟨more, rfl⟩ := List.head?_eq_some_iff.mp hc
  rw [List.append_assoc, List.takeWhile_append_of_pos hb, List.cons_append,
    List.takeWhile_cons_of_neg (by simp [solid]), List.append_nil]

theorem exists_first_solid {cs : List Char} (h : ¬AllBlank cs) :
    ∃ before c more, cs = before ++ c :: more ∧ AllBlank before ∧ isBlank c = false := by
  induction cs with
  | nil => exact absurd allBlank_nil h
  | cons c rest ih =>
    cases blank : isBlank c with
    | false => exact ⟨[], c, rest, rfl, allBlank_nil, blank⟩
    | true =>
      have others : ¬AllBlank rest := fun all => h (List.forall_mem_cons.mpr ⟨blank, all⟩)
      obtain ⟨before, d, more, rfl, hb, solid⟩ := ih others
      exact ⟨c :: before, d, more, rfl, List.forall_mem_cons.mpr ⟨blank, hb⟩, solid⟩

/-- A text is blank, or it is firm but for blanks at its ends. -/
theorem allBlank_or_firm (cs : List Char) : AllBlank cs ∨
    ∃ before core after, cs = before ++ core ++ after ∧ AllBlank before ∧ Firm core ∧
      AllBlank after := by
  by_cases blank : AllBlank cs
  · exact .inl blank
  obtain ⟨before, c, more, rfl, hb, first⟩ := exists_first_solid blank
  have some : ¬AllBlank (c :: more).reverse := fun all => by
    have blank := all c (by simp)
    rw [first] at blank
    cases blank
  obtain ⟨behind, d, others, back, ha, last⟩ := exists_first_solid some
  have whole : c :: more = others.reverse ++ [d] ++ behind.reverse := by
    rw [← List.reverse_reverse (c :: more), back]
    simp
  refine .inr ⟨before, others.reverse ++ [d], behind.reverse, ?_, hb, ⟨⟨c, ?_, first⟩, d, ?_, last⟩,
    ha.reverse⟩
  · simp [whole]
  · have head := congrArg List.head? whole
    rwa [List.head?_cons, List.head?_append, Option.or_of_isSome (by simp), eq_comm] at head
  · rw [List.getLast?_concat]
    rfl

end Text

namespace Token

open Text

/-! ## Signatures made of tokens -/

/-- How a token may be written in a signature. -/
inductive Spells : Token → List Char → Prop
  | ellipsis : Spells .ellipsis ['.', '.', '.']
  | literal (text : String) : Spells (.literal text) text.toList
  | number (text : String) : Spells (.number text) text.toList
  | keyword (text : String) : Spells (.keyword text false) text.toList
  /-- Blanks may stand before the question mark. -/
  | optional (text : String) {blanks : List Char} (h : AllBlank blanks) :
      Spells (.keyword text true) (text.toList ++ blanks ++ ['?'])
  | name (text : String) : Spells (.name text) text.toList
  | separator (mark : Char) : Spells (.separator mark) [mark]
  | marks (text : String) : Spells (.marks text) text.toList
  | other (c : Char) : Spells (.other c) [c]

/-- A signature consists of some tokens in order, and of blanks. -/
inductive MadeOf : List Token → List Char → Prop
  | nil : MadeOf [] []
  | blank {c : Char} {tokens : List Token} {rest : List Char} (blank : isBlank c = true)
      (h : MadeOf tokens rest) : MadeOf tokens (c :: rest)
  | token {token : Token} {stretch : List Char} {tokens : List Token} {rest : List Char}
      (spells : Spells token stretch) (h : MadeOf tokens rest) :
      MadeOf (token :: tokens) (stretch ++ rest)

theorem MadeOf.blanks {blanks : List Char} (blank : AllBlank blanks) {tokens : List Token}
    {rest : List Char} (h : MadeOf tokens rest) : MadeOf tokens (blanks ++ rest) := by
  induction blanks with
  | nil => exact h
  | cons c more ih =>
    obtain ⟨first, others⟩ := List.forall_mem_cons.mp blank
    exact .blank first (ih others)

/-! ## What is shown of a token -/

/-- What is shown of a token is firm, or it has no style and is firm but for blanks around it. -/
def Neat (token : Token) : Prop :=
  Firm token.display.toList ∨
    token.style? = none ∧ ∃ before core after, token.display.toList = before ++ core ++ after ∧
      AllBlank before ∧ AllBlank after ∧ Firm core

theorem firm_of_plain {cs : List Char} (nonempty : cs ≠ []) (h : AllPlain cs) : Firm cs :=
  firm_of_solid nonempty fun c hc => isBlank_of_isPlain (h c hc)

theorem neat_separator {mark : Char} (h : isSeparator mark = true) : (separator mark).Neat := by
  have blank : isBlank mark = false := eq_false_of_mem (by decide) (mem_separators h)
  have firm : Firm [mark] := ⟨⟨mark, rfl, blank⟩, mark, rfl, blank⟩
  have one : AllBlank [' '] := by
    intro c hc
    rw [List.mem_singleton.mp hc]
    rfl
  refine .inr ⟨rfl, ?_⟩
  rw [display]
  split
  · exact ⟨[' '], [mark], [' '], String.toList_ofList, one, one, firm⟩
  · exact ⟨[], [mark], [' '], String.toList_ofList, allBlank_nil, one, firm⟩

theorem neat_keyword {word : List Char} (h : word ∈ keywords) (optional : Bool) :
    (keyword (String.ofList word) optional).Neat := by
  have chars : AllPlain word := fun c hc => isPlain_of_isWord (isWord_of_mem_keywords h c hc)
  have nonempty := ne_nil_of_mem_keywords h
  left
  rw [display]
  split
  · rw [String.toList_append, String.toList_ofList]
    have mark : AllPlain ['?'] := by decide
    exact firm_of_plain (by simp [nonempty]) (List.forall_mem_append.mpr ⟨chars, mark⟩)
  · rw [String.toList_ofList]
    exact firm_of_plain nonempty chars

theorem firm_of_literal? {cs taken : List Char} (h : literal? cs = some taken) : Firm taken := by
  obtain ⟨quote, inner, hq, rfl⟩ := literal?_quoted h
  have blank : isBlank quote = false := eq_false_of_mem (by decide) (mem_quotes hq)
  exact firm_between blank blank inner

/-! ## Lexemes -/

/-- A lexeme is blank, or it is a token as it is written, with blanks behind it. -/
inductive Lexeme.Sound : Lexeme → Prop
  | blank {text : List Char} (h : AllBlank text) : Sound ⟨text, none⟩
  | token {stretch blanks : List Char} {token : Token} (spells : Spells token stretch)
      (after : AllBlank blanks) (neat : token.Neat) : Sound ⟨stretch ++ blanks, some token⟩

/-- A token with no blanks behind it. -/
theorem Lexeme.Sound.alone {stretch : List Char} {token : Token} (spells : Spells token stretch)
    (neat : token.Neat) : Lexeme.Sound ⟨stretch, some token⟩ := by
  have sound := Lexeme.Sound.token spells allBlank_nil neat
  rwa [List.append_nil] at sound

theorem madeOf_of_sound {lexemes : List Lexeme} (h : ∀ lexeme ∈ lexemes, lexeme.Sound) :
    MadeOf (lexemes.filterMap Lexeme.token) (lexemes.flatMap Lexeme.text) := by
  induction lexemes with
  | nil => exact .nil
  | cons lexeme rest ih =>
    obtain ⟨first, others⟩ := List.forall_mem_cons.mp h
    rw [List.flatMap_cons]
    cases first with
    | blank blank => exact .blanks blank (ih others)
    | token spells after =>
      rw [List.append_assoc]
      exact .token spells (.blanks after (ih others))

/-- A token that carries its stretch is written and shown as that stretch. -/
theorem sound_carrying {make : String → Token} {text : List Char} (firm : Firm text)
    (spells : ∀ text, Spells (make text) text.toList) (shows : ∀ text, (make text).display = text) :
    (Lexeme.carrying make text).Sound := by
  have written := spells (String.ofList text)
  have neat : (make (String.ofList text)).Neat := .inl (by rwa [shows, String.toList_ofList])
  rw [String.toList_ofList] at written
  exact .alone written neat

/-- A rule takes a token as it is written. -/
theorem sound_of_rule {rule : List Char → Option Lexeme} (mem : rule ∈ rules) {cs : List Char}
    {lexeme : Lexeme} (h : rule cs = some lexeme) : lexeme.Sound := by
  simp only [rules, List.mem_cons, List.not_mem_nil, or_false] at mem
  rcases mem with rfl | rfl | rfl | rfl | rfl | rfl | rfl | rfl
  all_goals obtain ⟨taken, ht, rfl⟩ := Option.map_eq_some_iff.1 h
  · simp only [blanks?, Option.ite_none_left_eq_some, Option.some.injEq] at ht
    obtain ⟨-, rfl⟩ := ht
    exact .blank (allBlank_takeWhile _)
  · unfold ellipsis? at ht
    split at ht
    · obtain rfl := Option.some.inj ht
      have firm : Firm ['.', '.', '.'] := ⟨⟨'.', rfl, rfl⟩, '.', rfl, rfl⟩
      exact .alone .ellipsis (.inl firm)
    · cases ht
  · exact sound_carrying (firm_of_literal? ht) .literal fun _ => rfl
  · have firm := firm_of_plain (number?_starts ht).2 (isPlain_of_number? ht)
    exact sound_carrying firm .number fun _ => rfl
  · obtain ⟨word, stretch, optional⟩ := taken
    obtain ⟨mem, rest, -, -, ⟨rfl, rfl⟩ | ⟨rfl, more, -, rfl⟩⟩ := keyword?_eq_some ht
    · have spells := Spells.keyword (String.ofList word)
      rw [String.toList_ofList] at spells
      exact .token spells (allBlank_takeWhile _) (neat_keyword mem _)
    · have spells := Spells.optional (String.ofList word) (allBlank_takeWhile rest)
      rw [String.toList_ofList] at spells
      rw [List.append_cons]
      exact .token spells (allBlank_takeWhile _) (neat_keyword mem _)
  · refine sound_carrying (firm_of_solid (name?_starts ht).2 fun c hc => ?_) .name fun _ => rfl
    exact isBlank_of_mem_name ht hc
  · have separator := separator?_eq_some ht
    exact .alone (.separator _) (neat_separator separator)
  · have firm := firm_of_plain (marks?_starts ht).2 fun c hc =>
      isPlain_of_isMark (isMark_of_marks? ht c hc)
    exact sound_carrying firm .marks fun _ => rfl

theorem sound_first (c : Char) (rest : List Char) : (Lexeme.first c rest).Sound := by
  unfold Lexeme.first
  cases found : rules.findSome? fun rule => rule (c :: rest) with
  | some lexeme =>
    obtain ⟨rule, mem, h⟩ := List.exists_of_findSome?_eq_some found
    exact sound_of_rule mem h
  | none =>
    -- A blank would be taken by the first rule.
    have blank : isBlank c = false := by
      have none := List.findSome?_eq_none_iff.mp found _ List.mem_cons_self
      simpa [blanks?] using none
    have firm : Firm [c] := ⟨⟨c, rfl, blank⟩, c, rfl, blank⟩
    exact .alone (.other c) (.inl (by rwa [display, String.toList_ofList]))

theorem sound_of_mem_lexemes {cs : List Char} : ∀ lexeme ∈ lexemes cs, lexeme.Sound := by
  intro lexeme mem
  obtain ⟨c, rest, rfl⟩ := exists_first_of_mem mem
  exact sound_first c rest

/-! ## Signatures -/

/-- A signature is made of its tokens. -/
theorem madeOf_tokenize (signature : String) : MadeOf (tokenize signature) signature.toList := by
  have sound : ∀ lexeme ∈ lexemes signature.toList, lexeme.Sound := sound_of_mem_lexemes
  have made := madeOf_of_sound sound
  rwa [lexemes_text] at made

theorem neat_of_mem_tokenize {signature : String} {token : Token}
    (h : token ∈ tokenize signature) : token.Neat := by
  obtain ⟨lexeme, mem, ht⟩ := List.mem_filterMap.mp h
  cases sound_of_mem_lexemes lexeme mem with
  | blank => cases ht
  | token _ _ neat =>
    obtain rfl := Option.some.inj ht
    exact neat

theorem Spells.solid_display {token : Token} {stretch : List Char} (h : Spells token stretch) :
    solid token.display.toList = solid stretch := by
  cases h with
  | ellipsis | literal | number | keyword | name | marks => rfl
  | optional text blank =>
    rw [display, if_pos rfl, String.toList_append, solid_append, solid_append, solid_append,
      solid_of_allBlank blank, List.append_nil]
    rfl
  | separator mark =>
    rw [display]
    split
    all_goals
      rw [String.toList_ofList]
      rfl
  | other c => rw [display, String.toList_ofList]

theorem MadeOf.solid_display {tokens : List Token} {cs : List Char} (h : MadeOf tokens cs) :
    solid (tokens.flatMap fun token => token.display.toList) = solid cs := by
  induction h with
  | nil => rfl
  | blank blank _ ih => rw [ih, solid, solid, List.filter_cons_of_neg (by simp [blank])]
  | token spells _ ih =>
    rw [List.flatMap_cons, solid_append, solid_append, spells.solid_display, ih]

theorem toList_normalize (signature : String) : (normalize signature).toList =
    trim ((tokenize signature).flatMap fun token => token.display.toList) :=
  String.toList_ofList

theorem solid_normalize (signature : String) :
    solid (normalize signature).toList = solid signature.toList := by
  rw [toList_normalize, solid_trim]
  exact (madeOf_tokenize signature).solid_display

/-- A literal stands in a normalized signature between what is shown of the tokens around it. -/
theorem toList_normalize_literal {signature : String} {before after : List Token} {text : String}
    (h : tokenize signature = before ++ .literal text :: after) :
    (normalize signature).toList =
      trimStart (before.flatMap fun token => token.display.toList) ++ text.toList ++
        trimEnd (after.flatMap fun token => token.display.toList) := by
  have firm : Firm text.toList := by
    have mem : literal text ∈ tokenize signature := by simp [h]
    rcases neat_of_mem_tokenize mem with firm | ⟨styled, -⟩
    · exact firm
    · cases styled
  rw [toList_normalize, h, List.flatMap_append, List.flatMap_cons, ← List.append_assoc]
  exact trim_append_firm _ firm _

/-! ## Styles -/

/-- A text without its styles.  An escape character begins one, and the next `m` ends it. -/
def withoutStyles (inStyle : Bool) : List Char → List Char
  | [] => []
  | c :: rest =>
    if inStyle then withoutStyles (c != 'm') rest
    else if c = '\x1b' then withoutStyles true rest
    else c :: withoutStyles false rest

example : withoutStyles false "\x1b[1;36mA\x1b[0m | \x1b[34mnull\x1b[0m".toList =
    "A | null".toList := by
  decide

/-- A text is another one without its styles, and none goes on behind it. -/
def Strips (styled text : List Char) : Prop :=
  ∀ rest, withoutStyles false (styled ++ rest) = text ++ withoutStyles false rest

theorem Strips.append {styled text styled' text' : List Char} (h : Strips styled text)
    (h' : Strips styled' text') : Strips (styled ++ styled') (text ++ text') := fun rest => by
  rw [List.append_assoc, h, h', List.append_assoc]

theorem strips_self {text : List Char} (h : '\x1b' ∉ text) : Strips text text := by
  intro rest
  induction text with
  | nil => rfl
  | cons c more ih =>
    rw [List.mem_cons, not_or] at h
    rw [List.cons_append, withoutStyles, if_neg Bool.false_ne_true, if_neg (Ne.symm h.1), ih h.2]
    rfl

theorem strips_styleOn {code : String} (h : 'm' ∉ code.toList) : Strips (styleOn code) [] := by
  have skip (chars rest : List Char) (hc : 'm' ∉ chars) :
      withoutStyles true (chars ++ 'm' :: rest) = withoutStyles false rest := by
    induction chars with
    | nil => rfl
    | cons c more ih =>
      rw [List.mem_cons, not_or] at hc
      have goes : (c != 'm') = true := by simpa using Ne.symm hc.1
      rw [List.cons_append, withoutStyles, if_pos rfl, goes, ih hc.2]
  intro rest
  have written : styleOn code ++ rest = '\x1b' :: '[' :: (code.toList ++ 'm' :: rest) := by
    simp [styleOn]
  rw [written, withoutStyles, if_neg Bool.false_ne_true, if_pos rfl, withoutStyles, if_pos rfl]
  exact skip code.toList rest h

/-- A text with no style in it is not changed inside. -/
theorem restyleAfter_eq {style text : List Char} (h : '\x1b' ∉ text) :
    restyleAfter style 0 text = text := by
  induction text with
  | nil => rfl
  | cons c rest ih =>
    rw [List.mem_cons, not_or] at h
    have other : styleOff.isPrefixOf (c :: rest) = false := by
      rw [Bool.eq_false_iff, ne_eq, List.isPrefixOf_iff_prefix, styleOff, styleOn,
        List.cons_prefix_cons]
      exact fun same => h.1 same.1
    rw [restyleAfter, other, if_neg Bool.false_ne_true, ih h.2]

theorem strips_paint {code : String} {text : List Char} (hc : 'm' ∉ code.toList)
    (h : '\x1b' ∉ text) : Strips (paint code text) text := by
  have off : Strips styleOff [] := strips_styleOn (by decide)
  rw [paint, restyleAfter_eq h]
  have stripped := ((strips_styleOn hc).append (strips_self h)).append off
  rwa [List.nil_append, List.append_nil] at stripped

theorem firm_styleOn (code : String) : Firm (styleOn code) :=
  firm_between rfl rfl ('[' :: code.toList)

theorem firm_paint (code : String) (text : List Char) : Firm (paint code text) :=
  (firm_styleOn code).append _ (firm_styleOn "0")

/-! ## Tokens in color -/

/-- Two texts with the same blanks at their ends, of which the first is the second without its
styles. -/
def Alike (text styled : List Char) : Prop :=
  ∃ before core painted after, text = before ++ core ++ after ∧
    styled = before ++ painted ++ after ∧ AllBlank before ∧ AllBlank after ∧ Firm core ∧
    Firm painted ∧ Strips painted core

theorem not_mem_of_allBlank {cs : List Char} (h : AllBlank cs) : '\x1b' ∉ cs := fun hc => by
  have blank := h _ hc
  cases blank

theorem Alike.append {text styled text' styled' : List Char} (h : Alike text styled)
    (h' : Alike text' styled') : Alike (text ++ text') (styled ++ styled') := by
  obtain ⟨before, core, painted, after, rfl, rfl, hb, ha, firm, firmly, strips⟩ := h
  obtain ⟨before', core', painted', after', rfl, rfl, hb', ha', firm', firmly', strips'⟩ := h'
  have between := strips_self (not_mem_of_allBlank (ha.append hb'))
  refine ⟨before, core ++ (after ++ before') ++ core', painted ++ (after ++ before') ++ painted',
    after', by simp, by simp, hb, ha', firm.append _ firm', firmly.append _ firmly', ?_⟩
  exact (strips.append between).append strips'

theorem Alike.trim {text styled : List Char} (h : Alike text styled) :
    withoutStyles false (Text.trim styled) = Text.trim text := by
  obtain ⟨before, core, painted, after, rfl, rfl, hb, ha, firm, firmly, strips⟩ := h
  have stripped := strips []
  rw [List.append_nil] at stripped
  rw [trim_blanks_append hb firm ha, trim_blanks_append hb firmly ha]
  simpa [withoutStyles] using stripped

theorem style_ends {token : Token} {code : String} (h : token.style? = some code) :
    'm' ∉ code.toList := by
  unfold style? at h
  split at h
  all_goals cases h
  all_goals decide

theorem alike_shown {token : Token} (neat : token.Neat) (h : '\x1b' ∉ token.display.toList)
    (color : Bool) : Alike token.display.toList (token.shown color) := by
  have same : token.style? = none → token.shown color = token.display.toList := by
    intro plain
    simp [shown, plain]
  rcases neat with firm | ⟨plain, before, core, after, whole, hb, ha, firm⟩
  · rw [shown]
    split
    · rename_i code style
      have hm : 'm' ∉ code.toList := by
        cases color with
        | true => exact style_ends style
        | false => cases style
      exact ⟨[], _, _, [], by simp, by simp, allBlank_nil, allBlank_nil, firm, firm_paint _ _,
        strips_paint hm h⟩
    · exact ⟨[], _, _, [], by simp, by simp, allBlank_nil, allBlank_nil, firm, firm, strips_self h⟩
  · rw [same plain]
    have inner : '\x1b' ∉ core := fun hc => h (by simp [whole, hc])
    exact ⟨before, core, core, after, whole, whole, hb, ha, firm, firm, strips_self inner⟩

theorem alike_flatMap_shown {tokens : List Token} (nonempty : tokens ≠ []) (color : Bool)
    (h : ∀ token ∈ tokens, token.Neat ∧ '\x1b' ∉ token.display.toList) :
    Alike (tokens.flatMap fun token => token.display.toList) (tokens.flatMap (shown color)) := by
  induction tokens with
  | nil => exact absurd rfl nonempty
  | cons token rest ih =>
    obtain ⟨⟨neat, plain⟩, others⟩ := List.forall_mem_cons.mp h
    have first := alike_shown neat plain color
    rw [List.flatMap_cons, List.flatMap_cons]
    cases rest with
    | nil => simpa using first
    | cons next more => exact first.append (ih (List.cons_ne_nil _ _) others)

/-- An escape character that is shown was written. -/
theorem not_mem_display {signature : String} (h : '\x1b' ∉ signature.toList) {token : Token}
    (mem : token ∈ tokenize signature) : '\x1b' ∉ token.display.toList := fun hc => by
  have shown : '\x1b' ∈ solid ((tokenize signature).flatMap fun token => token.display.toList) :=
    List.mem_filter.mpr ⟨List.mem_flatMap.mpr ⟨token, mem, hc⟩, rfl⟩
  rw [(madeOf_tokenize signature).solid_display] at shown
  exact h (List.mem_filter.mp shown).1

theorem withoutStyles_highlight {signature : String} (h : '\x1b' ∉ signature.toList)
    (color : Bool) :
    withoutStyles false (highlight color signature).toList = (normalize signature).toList := by
  rw [highlight, String.toList_ofList, toList_normalize]
  cases tokens : tokenize signature with
  | nil => rfl
  | cons token rest =>
    refine (alike_flatMap_shown (List.cons_ne_nil _ _) color fun token mem => ?_).trim
    rw [← tokens] at mem
    exact ⟨neat_of_mem_tokenize mem, not_mem_display h mem⟩

/-! ## Nothing is lost -/

/-- A signature is made of its tokens and of blanks.  Normalizing it changes blanks only, outside of
literals, and without its styles it is shown as it is normalized. -/
theorem tokenize_lossless (signature : String) :
    MadeOf (tokenize signature) signature.toList ∧
      solid (normalize signature).toList = solid signature.toList ∧
      (∀ before text after, tokenize signature = before ++ .literal text :: after →
        (normalize signature).toList =
          trimStart (before.flatMap fun token => token.display.toList) ++ text.toList ++
            trimEnd (after.flatMap fun token => token.display.toList)) ∧
      ('\x1b' ∉ signature.toList → ∀ color,
        withoutStyles false (highlight color signature).toList = (normalize signature).toList) :=
  ⟨madeOf_tokenize signature, solid_normalize signature, fun _ _ _ => toList_normalize_literal,
    withoutStyles_highlight⟩

/-- The blanks in a literal stay, while those around a keyword go. -/
theorem quoted_tokenize_lossless :
    normalize " a :null ?|'x  y'" = "a: null? | 'x  y'" ∧
      solid "a: null? | 'x  y'".toList = solid " a :null ?|'x  y'".toList ∧
      trimStart "a: null? | ".toList ++ "'x  y'".toList = "a: null? | 'x  y'".toList ∧
      withoutStyles false (highlight true " a :null ?|'x  y'").toList =
        "a: null? | 'x  y'".toList := by
  obtain ⟨-, solid_eq, literal_stays, shown⟩ := tokenize_lossless " a :null ?|'x  y'"
  have shape : normalize " a :null ?|'x  y'" = "a: null? | 'x  y'" := by decide +kernel
  rw [shape] at solid_eq literal_stays shown
  have tokens : tokenize " a :null ?|'x  y'" =
      [.name "a", .separator ':', .keyword "null" true, .separator '|', .literal "'x  y'"] := by
    decide +kernel
  have stays := literal_stays [.name "a", .separator ':', .keyword "null" true, .separator '|']
    "'x  y'" [] tokens
  refine ⟨shape, solid_eq, ?_, shown (by decide) true⟩
  exact (List.append_nil _).symm.trans stays.symm

end Token

end SchemaDoc
