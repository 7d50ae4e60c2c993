import SchemaDoc.Text.Percent

/-!
# Reading encoded texts

The first byte of a character says how many there are, so bytes that begin with a character can
be cut behind it in one way only, `utf8_append_inj`, and texts with the same bytes are the same.
A text that is percent-encoded can be read back to its bytes, whatever characters stand as they
are, as long as the percent sign is not one of them, `percentBytes_percentEncode`.
-/

namespace SchemaDoc.Text

/-! ## Bytes -/

theorem toNat_lt (c : Char) : c.toNat < 0x110000 := by
  rcases c.valid with h | ⟨-, h⟩
  · exact Nat.lt_trans h (by decide)
  · exact h

/-- The four lengths of a character in bytes. -/
theorem utf8_cases (c : Char) :
    c.toNat < 0x80 ∧ utf8 c = [c.toNat] ∨
    c.toNat < 0x800 ∧ utf8 c = [0xC0 + c.toNat / 0x40, 0x80 + c.toNat % 0x40] ∨
    c.toNat < 0x10000 ∧ utf8 c =
      [0xE0 + c.toNat / 0x1000, 0x80 + c.toNat / 0x40 % 0x40, 0x80 + c.toNat % 0x40] ∨
    c.toNat < 0x110000 ∧ utf8 c =
      [0xF0 + c.toNat / 0x40000, 0x80 + c.toNat / 0x1000 % 0x40, 0x80 + c.toNat / 0x40 % 0x40,
        0x80 + c.toNat % 0x40] := by
  unfold utf8
  dsimp only
  by_cases one : c.toNat < 0x80
  · exact .inl ⟨one, if_pos one⟩
  rw [if_neg one]
  by_cases two : c.toNat < 0x800
  · exact .inr (.inl ⟨two, if_pos two⟩)
  rw [if_neg two]
  by_cases three : c.toNat < 0x10000
  · exact .inr (.inr (.inl ⟨three, if_pos three⟩))
  · exact .inr (.inr (.inr ⟨toNat_lt c, if_neg three⟩))

theorem lt_of_mem_utf8 {c : Char} {byte : Nat} (h : byte ∈ utf8 c) : byte < 256 := by
  rcases utf8_cases c with ⟨bound, e⟩ | ⟨bound, e⟩ | ⟨bound, e⟩ | ⟨bound, e⟩ <;>
    · simp only [e, List.mem_cons, List.not_mem_nil, or_false] at h
      omega

theorem utf8_ne_nil (c : Char) : utf8 c ≠ [] := by
  rcases utf8_cases c with ⟨-, e⟩ | ⟨-, e⟩ | ⟨-, e⟩ | ⟨-, e⟩ <;> simp [e]

/-- Where the bytes of the first character end is seen from the bytes. -/
theorem utf8_append_inj {c d : Char} {bytes others : List Nat}
    (h : utf8 c ++ bytes = utf8 d ++ others) : c = d ∧ bytes = others := by
  suffices same : c.toNat = d.toNat ∧ bytes = others from ⟨Char.toNat_inj.mp same.1, same.2⟩
  rcases utf8_cases c with ⟨hc, ec⟩ | ⟨hc, ec⟩ | ⟨hc, ec⟩ | ⟨hc, ec⟩ <;>
    rcases utf8_cases d with ⟨hd, ed⟩ | ⟨hd, ed⟩ | ⟨hd, ed⟩ | ⟨hd, ed⟩ <;>
    simp only [ec, ed, List.cons_append, List.nil_append, List.cons.injEq] at h
  -- characters of different lengths have different first bytes
  all_goals try omega
  · exact ⟨by omega, h.2.2⟩
  · exact ⟨by omega, h.2.2.2⟩
  · exact ⟨by omega, h.2.2.2.2⟩

/-- Texts with the same bytes are the same. -/
theorem flatMap_utf8_injective : Function.Injective fun cs : List Char => cs.flatMap utf8 := by
  intro cs
  induction cs with
  | nil =>
    intro ds h
    cases ds with
    | nil => rfl
    | cons d rest => exact absurd (List.append_eq_nil_iff.mp h.symm).1 (utf8_ne_nil d)
  | cons c rest ih =>
    intro ds h
    cases ds with
    | nil => exact absurd (List.append_eq_nil_iff.mp h).1 (utf8_ne_nil c)
    | cons d others =>
      obtain ⟨first, bytes⟩ := utf8_append_inj h
      rw [first, ih bytes]

/-! ## Percent-encoding -/

variable {keep : Char → Bool} {c d : Char}

theorem isAlphanum_upperHex {digit : Nat} (h : digit < 16) : (upperHex digit).isAlphanum = true := by
  have all : ∀ digit : Fin 16, (upperHex digit).isAlphanum = true := by decide
  exact all ⟨digit, h⟩

/-- Encoding a character adds percent signs, letters and digits only. -/
theorem mem_percentEncodeChar (h : d ∈ percentEncodeChar keep c) :
    d = c ∧ keep d = true ∨ d = '%' ∨ d.isAlphanum = true := by
  unfold percentEncodeChar at h
  split at h
  · rename_i kept
    obtain rfl := List.mem_singleton.mp h
    exact .inl ⟨rfl, kept⟩
  · obtain ⟨byte, hb, h⟩ := List.mem_flatMap.mp h
    have bound := lt_of_mem_utf8 hb
    simp only [percentByte, List.mem_cons, List.not_mem_nil, or_false] at h
    rcases h with h | h | h
    · exact .inr (.inl h)
    · exact .inr (.inr (h ▸ isAlphanum_upperHex (by omega)))
    · exact .inr (.inr (h ▸ isAlphanum_upperHex (by omega)))

theorem percentBytes_cons (h : c ≠ '%') (cs : List Char) :
    percentBytes (c :: cs) = utf8 c ++ percentBytes cs := by
  rw [percentBytes]
  rintro a b rest hc -
  exact h hc

theorem percentBytes_percentByte {byte : Nat} (h : byte < 256) (cs : List Char) :
    percentBytes (percentByte byte ++ cs) = byte :: percentBytes cs := by
  have high := (hexDigit?_hex (n := byte / 16) (by omega)).2
  have low := (hexDigit?_hex (n := byte % 16) (by omega)).2
  rw [percentByte, List.cons_append, List.cons_append, List.cons_append, List.nil_append,
    percentBytes, high, low]
  dsimp only
  rw [Nat.div_add_mod]

theorem percentBytes_percentEncodeChar (h : keep '%' = false) (c : Char) (cs : List Char) :
    percentBytes (percentEncodeChar keep c ++ cs) = utf8 c ++ percentBytes cs := by
  have encoded (bytes : List Nat) : (∀ byte ∈ bytes, byte < 256) →
      percentBytes (bytes.flatMap percentByte ++ cs) = bytes ++ percentBytes cs := by
    induction bytes with
    | nil => exact fun _ => rfl
    | cons byte rest ih =>
      intro bound
      obtain ⟨first, others⟩ := List.forall_mem_cons.mp bound
      rw [List.flatMap_cons, List.append_assoc, percentBytes_percentByte first, ih others,
        List.cons_append]
  unfold percentEncodeChar
  split
  · rename_i kept
    refine percentBytes_cons ?_ cs
    rintro rfl
    rw [h] at kept
    cases kept
  · exact encoded _ fun _ => lt_of_mem_utf8

/-- An encoded text is read back to its bytes. -/
theorem percentBytes_percentEncode (h : keep '%' = false) (cs : List Char) :
    percentBytes (percentEncode keep cs) = cs.flatMap utf8 := by
  induction cs with
  | nil => rfl
  | cons c rest ih =>
    rw [percentEncode] at ih
    rw [percentEncode, List.flatMap_cons, percentBytes_percentEncodeChar h, ih, List.flatMap_cons]

end SchemaDoc.Text
