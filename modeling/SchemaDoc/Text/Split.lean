/-!
# Cutting texts

`splitWhere` cuts a text at every character of some kind, `cut?` at the first
occurrence of a character and `cutLast?` at the last.  The character at a cut
belongs to no piece.

`intercalate_splitOn` says that the pieces with the character between them are the
text again, and `cut?_eq_some_iff` that `cut?` finds the first occurrence.
-/

namespace SchemaDoc.Text

/-- The pieces between the characters of some kind. -/
def splitWhere (cuts : Char → Bool) : List Char → List (List Char)
  | [] => [[]]
  | c :: rest =>
    match splitWhere cuts rest with
    | [] => [[c]]
    | piece :: more => if cuts c then [] :: piece :: more else (c :: piece) :: more

/-- The pieces between the occurrences of a character. -/
def splitOn (mark : Char) : List Char → List (List Char) := splitWhere (· == mark)

/-- What stands before and after the first occurrence of a character. -/
def cut? (mark : Char) : List Char → Option (List Char × List Char)
  | [] => none
  | c :: rest =>
    if c = mark then some ([], rest)
    else (cut? mark rest).map fun (before, after) => (c :: before, after)

/-- What stands before and after the last occurrence of a character. -/
def cutLast? (mark : Char) (cs : List Char) : Option (List Char × List Char) :=
  (cut? mark cs.reverse).map fun (after, before) => (before.reverse, after.reverse)

theorem splitWhere_ne_nil (cuts : Char → Bool) (cs : List Char) : splitWhere cuts cs ≠ [] := by
  cases cs with
  | nil => simp [splitWhere]
  | cons c rest =>
    rw [splitWhere]
    split
    · simp
    · split <;> simp

/-- The pieces with the character between them are the text. -/
theorem intercalate_splitOn (mark : Char) (cs : List Char) :
    [mark].intercalate (splitOn mark cs) = cs := by
  induction cs with
  | nil => rfl
  | cons c rest ih =>
    unfold splitOn at ih ⊢
    cases h : splitWhere (· == mark) rest with
    | nil => exact absurd h (splitWhere_ne_nil _ _)
    | cons piece more =>
      rw [h] at ih
      by_cases hc : c = mark
      · subst hc
        cases more <;> simp_all [splitWhere, List.intercalate, List.intersperse]
      · cases more <;> simp_all [splitWhere, List.intercalate, List.intersperse]

theorem cut?_eq_some_iff {mark : Char} {cs before after : List Char} :
    cut? mark cs = some (before, after) ↔ cs = before ++ mark :: after ∧ mark ∉ before := by
  induction cs generalizing before with
  | nil => simp [cut?]
  | cons c rest ih =>
    by_cases hc : c = mark
    · subst hc
      cases before with
      | nil => simp [cut?, eq_comm]
      | cons b more =>
        constructor
        · intro h
          simp [cut?] at h
        · rintro ⟨h, hm⟩
          simp only [List.cons_append, List.cons.injEq] at h
          exact absurd (by rw [h.1]; exact List.mem_cons_self) hm
    · cases before with
      | nil => simp [cut?, hc]
      | cons b more =>
        have step : cut? mark (c :: rest) = some (b :: more, after) ↔
            c = b ∧ cut? mark rest = some (more, after) := by
          rw [cut?, if_neg hc, Option.map_eq_some_iff]
          constructor
          · rintro ⟨⟨x, y⟩, h, hxy⟩
            simp only [Prod.mk.injEq, List.cons.injEq] at hxy
            obtain ⟨⟨hb, hm⟩, ha⟩ := hxy
            exact ⟨hb, by rw [h, hm, ha]⟩
          · rintro ⟨hb, h⟩
            exact ⟨_, h, by rw [hb]⟩
        rw [step, ih]
        simp only [List.cons_append, List.cons.injEq, List.mem_cons, not_or]
        constructor
        · rintro ⟨hb, h, hm⟩
          exact ⟨⟨hb, h⟩, fun e => hc (hb.trans e.symm), hm⟩
        · rintro ⟨⟨hb, h⟩, _, hm⟩
          exact ⟨hb, h, hm⟩

/-- A text without the character is not cut. -/
theorem cut?_eq_none_iff {mark : Char} {cs : List Char} : cut? mark cs = none ↔ mark ∉ cs := by
  induction cs with
  | nil => simp [cut?]
  | cons c rest ih =>
    by_cases hc : c = mark
    · simp [cut?, hc]
    · simp [cut?, hc, ih, Ne.symm hc]

/-! ## Tests -/

example : splitOn '/' "a//b/".toList = ["a".toList, [], "b".toList, []] := by decide
example : cut? '#' "a#b#c".toList = some ("a".toList, "b#c".toList) := by decide
example : cutLast? '#' "a#b#c".toList = some ("a#b".toList, "c".toList) := by decide

end SchemaDoc.Text
