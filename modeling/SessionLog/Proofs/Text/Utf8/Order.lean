/-
  SessionLog/Proofs/Text/Utf8/Order.lean
  ======================================
  **Texts compare as their octets do.**

  The first octet of a character tells how many there are, and of two characters the one
  with more octets has the greater first one. The octets that follow hold six bits of the
  code point each, so characters of equal width compare as their code points do.
-/
import SessionLog.Proofs.Text.Utf8

namespace SessionLog.Utf8

/-! ### Characters -/

theorem toNat_lt (c : Char) : c.toNat < 0x110000 := by
  have hvalid : c.toNat < 0xD800 ∨ (0xDFFF < c.toNat ∧ c.toNat < 0x110000) := c.valid
  omega

/-- The octets of a character, by their number: the first one has what the others, with six
    bits each, leave of the code point. -/
theorem encodeChar_cases (c : Char) :
    (c.toNat < 0x80 ∧ String.utf8EncodeChar c = [UInt8.ofNat c.toNat]) ∨
    ((0x80 ≤ c.toNat ∧ c.toNat < 0x800) ∧ String.utf8EncodeChar c =
      [UInt8.ofNat (0xC0 + c.toNat / 64), UInt8.ofNat (0x80 + c.toNat % 64)]) ∨
    ((0x800 ≤ c.toNat ∧ c.toNat < 0x10000) ∧ String.utf8EncodeChar c =
      [UInt8.ofNat (0xE0 + c.toNat / 64 / 64), UInt8.ofNat (0x80 + c.toNat / 64 % 64),
        UInt8.ofNat (0x80 + c.toNat % 64)]) ∨
    (0x10000 ≤ c.toNat ∧ String.utf8EncodeChar c =
      [UInt8.ofNat (0xF0 + c.toNat / 64 / 64 / 64), UInt8.ofNat (0x80 + c.toNat / 64 / 64 % 64),
        UInt8.ofNat (0x80 + c.toNat / 64 % 64), UInt8.ofNat (0x80 + c.toNat % 64)]) := by
  have hlt := toNat_lt c
  have hval : c.val.toNat = c.toNat := rfl
  have hlast : c.toNat % 64 + 0x80 = 0x80 + c.toNat % 64 := Nat.add_comm _ _
  have hnext : c.toNat / 64 % 64 + 0x80 = 0x80 + c.toNat / 64 % 64 := Nat.add_comm _ _
  simp only [String.utf8EncodeChar, hval]
  by_cases h1 : c.toNat ≤ 0x7F
  · exact Or.inl ⟨by omega, by rw [if_pos h1]⟩
  by_cases h2 : c.toNat ≤ 0x7FF
  · have hfirst : c.toNat / 64 % 32 + 0xC0 = 0xC0 + c.toNat / 64 := by omega
    refine Or.inr (Or.inl ⟨by omega, ?_⟩)
    rw [if_neg h1, if_pos h2, hfirst, hlast]
  by_cases h3 : c.toNat ≤ 0xFFFF
  · have hfirst : c.toNat / 4096 % 16 + 0xE0 = 0xE0 + c.toNat / 64 / 64 := by omega
    refine Or.inr (Or.inr (Or.inl ⟨by omega, ?_⟩))
    rw [if_neg h1, if_neg h2, if_pos h3, hfirst, hnext, hlast]
  · have hfirst : c.toNat / 262144 % 8 + 0xF0 = 0xF0 + c.toNat / 64 / 64 / 64 := by omega
    have hsecond : c.toNat / 4096 % 64 + 0x80 = 0x80 + c.toNat / 64 / 64 % 64 := by omega
    refine Or.inr (Or.inr (Or.inr ⟨by omega, ?_⟩))
    rw [if_neg h1, if_neg h2, if_neg h3, hfirst, hsecond, hnext, hlast]

theorem encodeChar_ne_nil (c : Char) : String.utf8EncodeChar c ≠ [] := by
  intro hnil
  rcases encodeChar_cases c with ⟨-, h⟩ | ⟨-, h⟩ | ⟨-, h⟩ | ⟨-, h⟩ <;> simp [hnil] at h

theorem ofNat_cons_lt_iff {a b : Nat} (ha : a < 256) (hb : b < 256) (front back : List UInt8) :
    UInt8.ofNat a :: front < UInt8.ofNat b :: back ↔ a < b ∨ (a = b ∧ front < back) := by
  rw [List.cons_lt_cons_iff, UInt8.lt_iff_toNat_lt, ← UInt8.toNat_inj, toNat_ofNat_of_lt ha,
    toNat_ofNat_of_lt hb]

/-- The octets of the lesser of two characters come first, whatever follows them. The cases
    are the numbers of octets of both. -/
theorem encodeChar_append_lt {c d : Char} (h : c < d) (front back : List UInt8) :
    String.utf8EncodeChar c ++ front < String.utf8EncodeChar d ++ back := by
  have hlt : c.toNat < d.toNat := h
  have hd := toNat_lt d
  rcases encodeChar_cases c with ⟨hn, hc'⟩ | ⟨hn, hc'⟩ | ⟨hn, hc'⟩ | ⟨hn, hc'⟩ <;>
    rcases encodeChar_cases d with ⟨hm, hd'⟩ | ⟨hm, hd'⟩ | ⟨hm, hd'⟩ | ⟨hm, hd'⟩ <;>
      rw [hc', hd'] <;>
      simp (disch := omega) only [List.cons_append, List.nil_append, ofNat_cons_lt_iff] <;>
      omega

/-! ### Texts -/

theorem append_lt_append_left_iff (front a b : List UInt8) :
    front ++ a < front ++ b ↔ a < b := by
  induction front with
  | nil => rfl
  | cons x front ih =>
    rw [List.cons_append, List.cons_append, List.cons_lt_cons_iff, ih]
    constructor
    · rintro (hlt | ⟨-, hlt⟩)
      · exact absurd hlt (UInt8.lt_irrefl x)
      · exact hlt
    · intro hlt
      exact Or.inr ⟨rfl, hlt⟩

theorem encode_cons (c : Char) (text : List Char) :
    encode (c :: text) = String.utf8EncodeChar c ++ encode text := List.flatMap_cons

/-- The cases are those of the order of lists: the first text ends, or one character decides,
    or the first ones are the same. -/
theorem encode_lt_of_lt {a b : List Char} (h : a < b) : encode a < encode b := by
  induction h with
  | @nil d b =>
    rw [encode_cons]
    cases hoctets : String.utf8EncodeChar d with
    | nil => exact absurd hoctets (encodeChar_ne_nil d)
    | cons x octets => exact List.nil_lt_cons x _
  | rel hlt => exact encodeChar_append_lt hlt _ _
  | @cons c a b _ ih =>
    rw [encode_cons, encode_cons, append_lt_append_left_iff]
    exact ih

@[simp] theorem encode_lt_encode_iff {a b : List Char} : encode a < encode b ↔ a < b := by
  constructor
  · intro hlt
    rcases Std.lt_trichotomy a b with h | rfl | h
    · exact h
    · exact absurd hlt (List.lt_irrefl _)
    · exact absurd hlt (List.lt_asymm (encode_lt_of_lt h))
  · exact encode_lt_of_lt

/-- The order of strings is the order of their octets. -/
@[simp] theorem encode_toList_le_iff {a b : String} :
    encode a.toList ≤ encode b.toList ↔ a ≤ b := by
  rw [← List.not_lt, encode_lt_encode_iff, ← String.lt_iff, String.not_lt]

end SessionLog.Utf8
