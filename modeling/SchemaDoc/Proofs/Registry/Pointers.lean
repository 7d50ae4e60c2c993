import Mathlib.Data.List.Basic
import SchemaDoc.Registry.Pointer

/-!
# Following a pointer that was written

A pointer with one more step leads one step further, `Pointer.follow_extend`, whatever the key
is: a key is written without slashes, so that a pointer is cut where its steps were put together,
and `Pointer.unescape_escape` gives it back.  A position is written as a number and read as that
number.
-/

namespace SchemaDoc

namespace Text

/-- A text without the character is one piece. -/
theorem splitOn_of_not_mem {mark : Char} {piece : List Char} (h : mark ∉ piece) :
    splitOn mark piece = [piece] := by
  unfold splitOn
  induction piece with
  | nil => rfl
  | cons c rest ih =>
    rw [List.mem_cons, not_or] at h
    simp [splitWhere, ih h.2, Ne.symm h.1]

/-- A text is cut before its last piece. -/
theorem splitOn_append {mark : Char} (cs : List Char) {piece : List Char} (h : mark ∉ piece) :
    splitOn mark (cs ++ mark :: piece) = splitOn mark cs ++ [piece] := by
  have last := splitOn_of_not_mem h
  unfold splitOn at last ⊢
  induction cs with
  | nil => simp [splitWhere, last]
  | cons c rest ih =>
    rw [List.cons_append, splitWhere, ih, splitWhere]
    cases hs : splitWhere (· == mark) rest with
    | nil => exact absurd hs (splitWhere_ne_nil _ _)
    | cons first more =>
      dsimp only [List.cons_append]
      split <;> rfl

end Text

namespace Pointer

/-! ## Steps as they are written -/

/-- A key is written without slashes. -/
theorem slash_escape (key : List Char) : '/' ∉ escape key := by
  induction key with
  | nil => simp [escape]
  | cons c rest ih =>
    rw [escape]
    split
    · simp [ih]
    · split
      · simp [ih]
      · rename_i hc
        simp [ih, Ne.symm hc]

/-- A position is read as it is written. -/
theorem index?_toString (n : Nat) : index? (toString n).toList = some n := by
  have digits : ∀ c ∈ Nat.toDigits 10 n, c.isDigit = true :=
    fun c hc => Nat.isDigit_of_mem_toDigits (by decide) (by decide) hc
  have unsigned : ∀ rest, Nat.toDigits 10 n = '+' :: rest → False := fun rest hp =>
    absurd (digits '+' (by rw [hp]; exact List.mem_cons_self)) (by decide)
  have value : (Nat.toDigits 10 n).foldl (fun value d => 10 * value + Text.digitValue d) 0 = n :=
    Nat.ofDigitChars_ten_toDigits
  rw [Nat.toString_eq_ofList_toDigits, String.toList_ofList, index?,
    if_pos ⟨Nat.toDigits_ne_nil, List.all_eq_true.mpr digits⟩, value]
  exact unsigned

/-! ## Following -/

theorem descend_append (value : Json) (steps more : List (List Char)) :
    descend value (steps ++ more) = (descend value steps).bind fun inner => descend inner more := by
  induction steps generalizing value with
  | nil => rfl
  | cons step rest ih =>
    rw [List.cons_append, descend, descend]
    split
    · rfl
    · split
      · rfl
      · exact ih _

theorem follow_of_slash (value : Json) {pointer : String} {path : List Char}
    (h : pointer.toList = '/' :: path) :
    follow value pointer = descend value (Text.splitOn '/' path) := by
  simp only [follow, h]

theorem follow_of_ne_slash (value : Json) {pointer : String} {c : Char} {path : List Char}
    (h : pointer.toList = c :: path) (hc : c ≠ '/') : follow value pointer = .error .nowhere := by
  rw [follow, h]
  split
  · contradiction
  · rename_i same
    exact absurd (List.cons.inj same).1 hc
  · rfl

/-- A pointer is followed before its last step. -/
theorem follow_append (value : Json) (pointer : String) {step : List Char} (h : '/' ∉ step) :
    follow value (pointer ++ "/" ++ String.ofList step) =
      (follow value pointer).bind fun inner => descend inner [step] := by
  have written : (pointer ++ "/" ++ String.ofList step).toList = pointer.toList ++ '/' :: step := by
    simp
  cases hp : pointer.toList with
  | nil =>
    rw [hp, List.nil_append] at written
    rw [follow_of_slash _ written, Text.splitOn_of_not_mem h, follow, hp]
    rfl
  | cons c path =>
    rw [hp, List.cons_append] at written
    by_cases slash : c = '/'
    · subst slash
      rw [follow_of_slash _ written, Text.splitOn_append path h, descend_append,
        follow_of_slash _ hp]
    · rw [follow_of_ne_slash _ written slash, follow_of_ne_slash _ hp slash]
      rfl

/-- A pointer with one more step leads one step further, unless another resource begins there. -/
theorem follow_extend {value inner next : Json} {pointer key : String}
    (h : follow value pointer = .ok inner) (hc : child? inner key.toList = some next)
    (hn : next.declaredId? = none) : follow value (extend pointer key) = .ok next := by
  rw [extend, follow_append _ _ (slash_escape _), h]
  change descend inner [escape key.toList] = .ok next
  rw [descend, unescape_escape, hc]
  simp [hn, descend]

end Pointer

end SchemaDoc
