import SchemaDoc.Json.Printer

/-!
# The characters of JSON texts

A number is written in digits and in four other characters, `Json.Number.numeral_render`, and is
written in some of them, `Json.Number.render_ne_empty`.  In a string a character stands for itself,
or for a backslash and what that protects, `Json.escapeChar_cases`: no quote ends the string before
its end.
-/

namespace SchemaDoc

namespace Text

/-! ## Numbers -/

/-- A character that numbers are written in. -/
def IsNumeral (c : Char) : Prop := c.isDigit = true ∨ c ∈ ['.', 'e', '+', '-']

instance : DecidablePred IsNumeral := fun _ => inferInstanceAs (Decidable (_ ∨ _))

/-- A text that could be in a number. -/
def Numeral (text : String) : Prop := ∀ c ∈ text.toList, IsNumeral c

instance (text : String) : Decidable (Numeral text) := List.decidableBAll IsNumeral text.toList

namespace Numeral

theorem append {left right : String} (hl : Numeral left) (hr : Numeral right) :
    Numeral (left ++ right) := by
  rw [Numeral, String.toList_append, List.forall_mem_append]
  exact ⟨hl, hr⟩

theorem ofList_digits {digits : List Char} (h : ∀ c ∈ digits, c.isDigit = true) :
    Numeral (String.ofList digits) := by
  intro c hc
  rw [String.toList_ofList] at hc
  exact .inl (h c hc)

theorem toString_nat (n : Nat) : Numeral (toString n) := by
  rw [Nat.toString_eq_ofList_toDigits]
  exact ofList_digits fun c hc => Nat.isDigit_of_mem_toDigits (by decide) (by decide) hc

theorem toString_int (n : Int) : Numeral (toString n) := by
  cases n with
  | ofNat n => exact toString_nat n
  | negSucc n =>
    have minus : Numeral "-" := by decide
    exact minus.append (toString_nat (n + 1))

end Numeral

end Text

/-- A decimal is written with digits and with the marks of its layout. -/
theorem Decimal.Layout.numeral_write {layout : Layout} (whole : Text.Numeral layout.wholeSuffix)
    (up : Text.Numeral layout.upMark) (down : Text.Numeral layout.downMark) (d : Decimal) :
    Text.Numeral (layout.write d) := by
  have digits : ∀ c ∈ d.significant, c.isDigit = true := by
    intro c hc
    rw [significant, List.mem_reverse] at hc
    have hc := List.mem_reverse.mp ((List.dropWhile_sublist _).subset hc)
    exact Nat.isDigit_of_mem_toDigits (by decide) (by decide) hc
  have zeros (count : Nat) : ∀ c ∈ List.replicate count '0', c.isDigit = true := by
    intro c hc
    rw [(List.mem_replicate.mp hc).2]
    rfl
  have point : Text.Numeral "." := by decide
  have front (count : Nat) : Text.Numeral (String.ofList (d.significant.take count)) :=
    .ofList_digits fun c hc => digits c (List.mem_of_mem_take hc)
  have back (count : Nat) : Text.Numeral (String.ofList (d.significant.drop count)) :=
    .ofList_digits fun c hc => digits c (List.mem_of_mem_drop hc)
  rw [write]
  dsimp only
  split
  · split
    · refine .append (by decide) (.ofList_digits ?_)
      exact List.forall_mem_append.mpr ⟨zeros _, digits⟩
    · split
      · refine .append (.ofList_digits ?_) whole
        exact List.forall_mem_append.mpr ⟨digits, zeros _⟩
      · exact ((front _).append point).append (back _)
  · refine .append (.append (.append (front 1) ?_) ?_) (.toString_nat _)
    · split
      · decide
      · exact point.append (back 1)
    · split
      · exact up
      · exact down

theorem Decimal.Layout.write_ne_empty (layout : Layout) (d : Decimal) : layout.write d ≠ "" := by
  rw [write]
  dsimp only
  split
  · split
    · simp
    · split
      · -- Zeros make up for missing digits.
        rename_i few
        intro empty
        have zeros := congrArg String.length empty
        simp only [String.length_append, String.length_ofList, List.length_append,
          List.length_replicate, String.length_empty] at zeros
        omega
      · simp
  · simp

namespace Json

open Text

theorem Number.numeral_render (n : Number) : Numeral n.render := by
  cases n with
  | integer n => exact .toString_int n
  | double x =>
    rw [render, renderDouble]
    have sign : Numeral (if x.negative then "-" else "") := by split <;> decide
    split
    · exact sign.append (by decide)
    · exact sign.append (Decimal.Layout.numeral_write (by decide) (by decide) (by decide) _)

theorem Number.render_ne_empty (n : Number) : n.render ≠ "" := by
  cases n with
  | integer n =>
    cases n with
    | ofNat n => exact Nat.repr_ne_empty
    | negSucc n =>
      have minus : "-" ++ toString (n + 1) ≠ "" := by simp
      exact minus
  | double x =>
    rw [render, renderDouble]
    split
    · simp
    · simp [Decimal.Layout.write_ne_empty]

/-! ## Strings -/

theorem toList_quote (text : String) :
    (quote text).toList = '"' :: (text.toList.flatMap escapeChar ++ ['"']) :=
  String.toList_ofList

/-- A digit neither ends a literal nor escapes anything. -/
theorem lowerHex_ne {n : Nat} (h : n < 16) : lowerHex n ≠ '\\' ∧ lowerHex n ≠ '"' := by
  have all : ∀ k : Fin 16, lowerHex k ≠ '\\' ∧ lowerHex k ≠ '"' := by decide
  exact all ⟨n, h⟩

/-- A character of a string stands for itself, or it is escaped by a backslash, with digits behind
the character that is protected. -/
theorem escapeChar_cases (c : Char) :
    escapeChar c = [c] ∧ c ≠ '\\' ∧ c ≠ '"' ∨
      ∃ mark digits, escapeChar c = '\\' :: mark :: digits ∧ mark ≠ '\n' ∧
        ∀ digit ∈ digits, digit ≠ '\\' ∧ digit ≠ '"' := by
  unfold escapeChar
  split
  all_goals try exact .inr ⟨_, [], rfl, by decide, List.forall_mem_nil _⟩
  rename_i quote escape _ _ _ _ _
  split
  · rename_i small
    refine .inr ⟨'u', _, rfl, by decide, ?_⟩
    have zero : ('0' : Char) ≠ '\\' ∧ '0' ≠ '"' := by decide
    have high := lowerHex_ne (show c.toNat / 16 < 16 by omega)
    have low := lowerHex_ne (show c.toNat % 16 < 16 by omega)
    simp only [List.forall_mem_cons]
    exact ⟨zero, zero, high, low, List.forall_mem_nil _⟩
  · exact .inl ⟨rfl, escape, quote⟩

end Json

end SchemaDoc
