import Mathlib.Data.List.TakeWhile
import SchemaDoc.Page.Markdown

/-!
# How code spans are read

In Markdown a run of grave accents, *ticks*, opens a code span if one of the same length comes
later.  The span ends with the next such run, `Markdown.reading`; a run without one is text.  Ticks
that meet are one run, so what counts is where a run begins and ends, `Markdown.chunks`.

`Page.code` has two delimiters.  A text with ticks stands between runs of two, and a run of two in
it would end the span early.  An empty text leaves no span at all, since its delimiters meet.
Nothing else goes wrong, `Page.reading_flatMap_eq_iff`: where code is not followed by a tick and
other text has none, what is read is what was meant exactly if all code is lasting,
`Page.Lasting`.

Escapes are left out, since a page has a backslash in code only.
-/

namespace SchemaDoc

namespace Markdown

/-! ## Runs of ticks -/

/-- A run of ticks, or any other character. -/
inductive Chunk where
  | ticks (count : Nat)
  | char (c : Char)
deriving DecidableEq, Repr

/-- The text of a chunk. -/
def Chunk.written : Chunk → List Char
  | .ticks count => List.replicate count '\x60'
  | .char c => [c]

/-- Chunks behind one more tick. -/
def tick : List Chunk → List Chunk
  | .ticks count :: rest => .ticks (count + 1) :: rest
  | rest => .ticks 1 :: rest

/-- The chunks of a text. -/
def chunks : List Char → List Chunk
  | [] => []
  | c :: rest => if c = '\x60' then tick (chunks rest) else .char c :: chunks rest

theorem chunks_cons {c : Char} (h : c ≠ '\x60') (rest : List Char) :
    chunks (c :: rest) = .char c :: chunks rest := if_neg h

theorem written_tick (rest : List Chunk) :
    (tick rest).flatMap Chunk.written = '\x60' :: rest.flatMap Chunk.written := by
  unfold tick
  split <;> simp [Chunk.written, List.replicate_succ]

theorem written_chunks (cs : List Char) : (chunks cs).flatMap Chunk.written = cs := by
  induction cs with
  | nil => rfl
  | cons c rest ih =>
    rw [chunks]
    split
    · rename_i same
      rw [written_tick, ih, same]
    · rw [List.flatMap_cons, ih]
      rfl

theorem chunks_of_noTick {cs : List Char} (h : '\x60' ∉ cs) : chunks cs = cs.map .char := by
  induction cs with
  | nil => rfl
  | cons c rest ih =>
    simp only [List.mem_cons, not_or] at h
    rw [chunks_cons (Ne.symm h.1), ih h.2, List.map_cons]

theorem tick_append {chunks : List Chunk} (h : chunks ≠ []) (more : List Chunk) :
    tick (chunks ++ more) = tick chunks ++ more := by
  match chunks, h with
  | .ticks _ :: _, _ => rfl
  | .char _ :: _, _ => rfl

theorem chunks_ne_nil {cs : List Char} (h : cs ≠ []) : chunks cs ≠ [] := by
  intro none
  have written := written_chunks cs
  rw [none] at written
  exact h written.symm

/-- Texts that do not meet in a tick have their chunks apart. -/
theorem chunks_append {left right : List Char}
    (h : left.getLast? ≠ some '\x60' ∨ right.head? ≠ some '\x60') :
    chunks (left ++ right) = chunks left ++ chunks right := by
  induction left with
  | nil => rfl
  | cons c rest ih =>
    cases rest with
    | cons d more =>
      rw [List.getLast?_cons_cons] at h
      rw [List.cons_append, chunks, chunks, ih h]
      split
      · exact tick_append (chunks_ne_nil (List.cons_ne_nil d more)) _
      · rfl
    | nil =>
      rw [List.cons_append, List.nil_append]
      by_cases same : c = '\x60'
      · subst same
        have next : right.head? ≠ some '\x60' := h.resolve_left fun h => h rfl
        cases right with
        | nil => rfl
        | cons d others =>
          have other : d ≠ '\x60' := fun same => next (congrArg some same)
          rw [chunks, if_pos rfl, chunks_cons other]
          rfl
      · rw [chunks_cons same, chunks_cons same]
        rfl

/-! ## Reading -/

/-- A character, or a code span by what stands between its delimiters. -/
inductive Inline where
  | char (c : Char)
  | code (text : List Char)
deriving DecidableEq, Repr

/-- What chunks are read as, after some that are read already. -/
def readingAfter : Nat → List Chunk → List Inline
  | _, [] => []
  | taken + 1, _ :: rest => readingAfter taken rest
  | 0, .char c :: rest => .char c :: readingAfter 0 rest
  | 0, .ticks count :: rest =>
    if .ticks count ∈ rest then
      let inner := rest.takeWhile (· ≠ .ticks count)
      .code (inner.flatMap Chunk.written) :: readingAfter (inner.length + 1) rest
    else List.replicate count (.char '\x60') ++ readingAfter 0 rest
termination_by structural _ chunks => chunks

/-- What a text is read as. -/
def reading (text : List Char) : List Inline := readingAfter 0 (chunks text)

theorem readingAfter_eq_drop (taken : Nat) (chunks : List Chunk) :
    readingAfter taken chunks = readingAfter 0 (chunks.drop taken) := by
  induction chunks generalizing taken with
  | nil => cases taken <;> rfl
  | cons chunk rest ih =>
    cases taken with
    | zero => rfl
    | succ taken => exact ih taken

/-- A span ends with the next run of its length. -/
theorem readingAfter_code {count : Nat} {inner : List Chunk} (h : .ticks count ∉ inner)
    (more : List Chunk) :
    readingAfter 0 (.ticks count :: (inner ++ .ticks count :: more)) =
      .code (inner.flatMap Chunk.written) :: readingAfter 0 more := by
  have other : ∀ chunk ∈ inner, decide (chunk ≠ .ticks count) = true := by
    intro chunk hm
    exact decide_eq_true fun same => h (same ▸ hm)
  have upTo : (inner ++ .ticks count :: more).takeWhile (· ≠ .ticks count) = inner := by
    rw [List.takeWhile_append_of_pos other, List.takeWhile_cons_of_neg (by simp), List.append_nil]
  rw [readingAfter, if_pos (by simp)]
  dsimp only
  rw [upTo, readingAfter_eq_drop, ← List.drop_drop, List.drop_left, List.drop_one, List.tail_cons]

theorem readingAfter_chars (text : List Char) (more : List Chunk) :
    readingAfter 0 (text.map .char ++ more) = text.map .char ++ readingAfter 0 more := by
  induction text with
  | nil => rfl
  | cons c rest ih =>
    rw [List.map_cons, List.cons_append, readingAfter, ih]
    rfl

example : reading "a\x60b\x60\x60c\x60\x60".toList =
    [.char 'a', .char '\x60', .char 'b', .code ['c']] := by decide

/-! ### Lines -/

/-- The characters that something is read as. -/
def Inline.chars : Inline → List Char
  | .char c => [c]
  | .code text => text

theorem mem_of_mem_readingAfter {taken : Nat} {chunks : List Chunk} {item : Inline} {c : Char}
    (h : item ∈ readingAfter taken chunks) (hc : c ∈ item.chars) :
    c ∈ chunks.flatMap Chunk.written := by
  induction chunks generalizing taken with
  | nil => cases taken <;> cases h
  | cons chunk rest ih =>
    rw [List.flatMap_cons, List.mem_append]
    cases taken with
    | succ taken => exact .inr (ih h)
    | zero =>
      cases chunk with
      | char d =>
        rcases List.mem_cons.mp h with rfl | h
        · exact .inl hc
        · exact .inr (ih h)
      | ticks count =>
        rw [readingAfter] at h
        split at h
        · rcases List.mem_cons.mp h with rfl | h
          · obtain ⟨chunk, hm, hc⟩ := List.mem_flatMap.mp hc
            exact .inr (List.mem_flatMap.mpr ⟨chunk, (List.takeWhile_sublist _).subset hm, hc⟩)
          · exact .inr (ih h)
        · rcases List.mem_append.mp h with h | h
          · obtain ⟨some, rfl⟩ := List.mem_replicate.mp h
            obtain rfl := List.mem_singleton.mp hc
            exact .inl (List.mem_replicate.mpr ⟨some, rfl⟩)
          · exact .inr (ih h)

/-- Nothing is read that is not written. -/
theorem mem_of_mem_reading {text : List Char} {item : Inline} {c : Char} (h : item ∈ reading text)
    (hc : c ∈ item.chars) : c ∈ text := by
  have written := mem_of_mem_readingAfter h hc
  rwa [written_chunks] at written

def isLineEnd (c : Char) : Bool := c == '\n' || c == '\r'

/-- A text with no end of a line in it. -/
def OneLine (text : List Char) : Prop := ∀ c ∈ text, isLineEnd c = false

/-- A text up to where its line ends. -/
def firstLine (text : List Char) : List Char := text.takeWhile fun c => !isLineEnd c

end Markdown

namespace Page

open Markdown

/-! ## Code spans -/

/-- The length of the delimiters of a code span. -/
def delimiter (text : String) : Nat := if '\x60' ∈ text.toList then 2 else 1

/-- What stands between the delimiters. -/
def padded (text : String) : List Char :=
  if '\x60' ∈ text.toList then ' ' :: (text.toList ++ [' ']) else text.toList

/-- A text is lasting if it stays one span as code: it is not empty, and no run of ticks in it is
of length two. -/
def Lasting (text : String) : Prop := text ≠ "" ∧ .ticks 2 ∉ chunks text.toList

instance (text : String) : Decidable (Lasting text) :=
  inferInstanceAs (Decidable (text ≠ "" ∧ Chunk.ticks 2 ∉ chunks text.toList))

theorem toList_code (text : String) : (code text).toList =
    List.replicate (delimiter text) '\x60' ++ padded text ++
      List.replicate (delimiter text) '\x60' := by
  unfold code delimiter padded
  simp only [List.contains_iff_mem]
  split <;> simp [List.replicate_succ]

theorem chunks_padded {text : String} (h : '\x60' ∈ text.toList) :
    chunks (padded text) = .char ' ' :: (chunks text.toList ++ [.char ' ']) := by
  have blank : ' ' ≠ '\x60' := by decide
  rw [padded, if_pos h, chunks_cons blank, chunks_append (.inr (by simp))]
  rfl

/-- Only a run of two ticks is of the length of the delimiters. -/
theorem delimiter_mem_padded_iff (text : String) :
    .ticks (delimiter text) ∈ chunks (padded text) ↔ .ticks 2 ∈ chunks text.toList := by
  by_cases ticks : '\x60' ∈ text.toList
  · rw [chunks_padded ticks, delimiter, if_pos ticks]
    simp
  · rw [padded, if_neg ticks, chunks_of_noTick ticks]
    simp

/-! ## Pieces of a line -/

/-- A piece of a line. -/
inductive Piece where
  | plain (text : List Char)
  | code (text : String)

namespace Piece

/-- The text of a piece. -/
def text : Piece → List Char
  | .plain text => text
  | .code text => text.toList

/-- A piece as it is written. -/
def written : Piece → List Char
  | .plain text => text
  | .code text => (Page.code text).toList

/-- What a piece is meant to be read as. -/
def meant : Piece → List Inline
  | .plain text => text.map .char
  | .code text => [.code (padded text)]

end Piece

/-- No tick stands beside the delimiters of the code in a line. -/
inductive Apart : List Piece → Prop
  | nil : Apart []
  | plain {text : List Char} {rest : List Piece} (noTick : '\x60' ∉ text) (h : Apart rest) :
      Apart (.plain text :: rest)
  | code {text : String} {rest : List Piece} (h : Apart rest)
      (next : (rest.flatMap Piece.written).head? ≠ some '\x60') : Apart (.code text :: rest)

theorem delimiter_cases (text : String) : delimiter text = 1 ∨ delimiter text = 2 := by
  unfold delimiter
  split
  · exact .inr rfl
  · exact .inl rfl

/-- Neither end of what stands between the delimiters is a tick. -/
theorem ends_padded {text : String} (h : text ≠ "") :
    padded text ≠ [] ∧ (padded text).head? ≠ some '\x60' ∧
      (padded text).getLast? ≠ some '\x60' := by
  unfold padded
  split
  · refine ⟨List.cons_ne_nil _ _, by simp, ?_⟩
    rw [← List.cons_append, List.getLast?_concat]
    decide
  · rename_i noTick
    exact ⟨fun empty => h (String.toList_inj.mp empty),
      fun same => noTick (List.mem_of_head? same), fun same => noTick (List.mem_of_getLast? same)⟩

theorem chunks_code_append {text : String} (h : text ≠ "") {rest : List Char}
    (next : rest.head? ≠ some '\x60') :
    chunks ((code text).toList ++ rest) = .ticks (delimiter text) ::
      (chunks (padded text) ++ .ticks (delimiter text) :: chunks rest) := by
  obtain ⟨nonempty, first, last⟩ := ends_padded h
  have run : chunks (List.replicate (delimiter text) '\x60') = [.ticks (delimiter text)] := by
    rcases delimiter_cases text with one | two
    · rw [one]
      rfl
    · rw [two]
      rfl
  have opens (more : List Char) : (padded text ++ more).head? ≠ some '\x60' := by
    rwa [List.head?_append, Option.or_of_isSome (by simpa using nonempty)]
  rw [toList_code, List.append_assoc, List.append_assoc, chunks_append (.inr (opens _)),
    chunks_append (.inl last), chunks_append (.inr next), run]
  rfl

/-- A lasting text is read as one span. -/
theorem reading_code_append {text : String} (h : Lasting text) {rest : List Char}
    (next : rest.head? ≠ some '\x60') :
    reading ((code text).toList ++ rest) = .code (padded text) :: reading rest := by
  obtain ⟨nonempty, apart⟩ := h
  rw [reading, chunks_code_append nonempty next,
    readingAfter_code ((delimiter_mem_padded_iff text).not.mpr apart), written_chunks]
  rfl

/-- No other text is. -/
theorem reading_code_append_ne {text : String} (h : ¬Lasting text) {rest : List Char}
    (next : rest.head? ≠ some '\x60') (more : List Inline) :
    reading ((code text).toList ++ rest) ≠ .code (padded text) :: more := by
  by_cases empty : text = ""
  · -- The delimiters are one run, and what it opens is not empty.
    subst empty
    have both : chunks ((code "").toList ++ rest) = .ticks 2 :: chunks rest :=
      chunks_append (.inr next)
    rw [reading, both, readingAfter]
    split
    · intro same
      obtain ⟨same, -⟩ := List.cons.inj same
      cases rest with
      | nil => contradiction
      | cons c others =>
        have other : c ≠ '\x60' := fun same => next (congrArg some same)
        rw [chunks_cons other, List.takeWhile_cons_of_pos (by simp)] at same
        cases same
    · exact fun same => nomatch (List.cons.inj same).1
  · -- The first run of this length ends the span.
    have runs : .ticks 2 ∈ chunks text.toList := by
      by_contra apart
      exact h ⟨empty, apart⟩
    obtain ⟨before, after, cut, first⟩ :=
      List.eq_append_cons_of_mem ((delimiter_mem_padded_iff text).mpr runs)
    rw [reading, chunks_code_append empty next, cut, List.append_assoc, List.cons_append,
      readingAfter_code first]
    intro same
    have shorter : before.flatMap Chunk.written = padded text :=
      Inline.code.inj (List.cons.inj same).1
    have length := congrArg List.length (written_chunks (padded text))
    rw [cut, ← shorter, List.flatMap_append, List.flatMap_cons, Chunk.written, List.length_append,
      List.length_append, List.length_replicate] at length
    have some := delimiter_cases text
    omega

/-- A line is read as it was meant exactly if all code in it is lasting. -/
theorem reading_flatMap_eq_iff {pieces : List Piece} (h : Apart pieces) :
    reading (pieces.flatMap Piece.written) = pieces.flatMap Piece.meant ↔
      ∀ text, .code text ∈ pieces → Lasting text := by
  induction h with
  | nil => simp [reading, chunks, readingAfter]
  | @plain text rest noTick h ih =>
    have read : reading (text ++ rest.flatMap Piece.written) =
        text.map .char ++ reading (rest.flatMap Piece.written) := by
      have last : text.getLast? ≠ some '\x60' := fun same => noTick (List.mem_of_getLast? same)
      rw [reading, chunks_append (.inl last), chunks_of_noTick noTick]
      exact readingAfter_chars text _
    rw [List.flatMap_cons, List.flatMap_cons, Piece.written, read, Piece.meant,
      List.append_cancel_left_eq, ih]
    simp
  | @code text rest h next ih =>
    rw [List.flatMap_cons, List.flatMap_cons, Piece.written, Piece.meant, List.singleton_append]
    by_cases lasting : Lasting text
    · rw [reading_code_append lasting next, List.cons.injEq, ih]
      simp [lasting]
    · exact iff_of_false (reading_code_append_ne lasting next _) fun all =>
        lasting (all text List.mem_cons_self)

/-! ### Headings -/

theorem oneLine_written {piece : Piece} (h : OneLine piece.text) : OneLine piece.written := by
  cases piece with
  | plain text => exact h
  | code text =>
    intro c hc
    rw [Piece.written, toList_code, List.append_assoc, List.mem_append, List.mem_append] at hc
    have tick (run : c ∈ List.replicate (delimiter text) '\x60') : isLineEnd c = false :=
      List.eq_of_mem_replicate run ▸ rfl
    rcases hc with run | inner | run
    · exact tick run
    · unfold padded at inner
      split at inner
      · rcases List.mem_cons.mp inner with rfl | inner
        · rfl
        · rcases List.mem_append.mp inner with inner | inner
          · exact h c inner
          · exact List.mem_singleton.mp inner ▸ rfl
      · exact h c inner
    · exact tick run

/-- What a piece shows is in what it is meant to be read as. -/
theorem exists_mem_meant {piece : Piece} {c : Char} (h : c ∈ piece.text) :
    ∃ item ∈ piece.meant, c ∈ item.chars := by
  cases piece with
  | plain text => exact ⟨.char c, List.mem_map_of_mem h, List.mem_singleton_self c⟩
  | code text =>
    refine ⟨.code (padded text), List.mem_singleton_self _, ?_⟩
    change c ∈ padded text
    unfold padded
    split
    · exact List.mem_cons_of_mem _ (List.mem_append_left _ h)
    · exact h

/-- A heading, which ends with its line, is read as it was meant exactly if all of it is on that
line and all code in it is lasting. -/
theorem reading_firstLine_eq_iff {pieces : List Piece} (h : Apart pieces) :
    reading (firstLine (pieces.flatMap Piece.written)) = pieces.flatMap Piece.meant ↔
      (∀ piece ∈ pieces, OneLine piece.text) ∧ ∀ text, .code text ∈ pieces → Lasting text := by
  have whole (lines : ∀ piece ∈ pieces, OneLine piece.text) :
      firstLine (pieces.flatMap Piece.written) = pieces.flatMap Piece.written := by
    refine List.takeWhile_eq_self_iff.mpr fun c hc => ?_
    obtain ⟨piece, hp, hc⟩ := List.mem_flatMap.mp hc
    rw [oneLine_written (lines piece hp) c hc]
    rfl
  constructor
  · intro read
    have lines : ∀ piece ∈ pieces, OneLine piece.text := by
      intro piece hp c hc
      obtain ⟨item, hi, hc⟩ := exists_mem_meant hc
      have mem := mem_of_mem_reading (read ▸ List.mem_flatMap.mpr ⟨piece, hp, hi⟩) hc
      simpa using List.mem_takeWhile_imp mem
    rw [whole lines] at read
    exact ⟨lines, (reading_flatMap_eq_iff h).mp read⟩
  · rintro ⟨lines, lasting⟩
    rw [whole lines]
    exact (reading_flatMap_eq_iff h).mpr lasting

end Page

end SchemaDoc
