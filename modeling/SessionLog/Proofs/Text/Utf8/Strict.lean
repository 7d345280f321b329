/-
  SessionLog/Proofs/Text/Utf8/Strict.lean
  =======================================
  **The strict reading takes the octets of texts and nothing else.**

  The first octet of a character tells how many follow it, and the bounds of the second one
  leave out the code points that have fewer octets, the surrogates, and what lies above
  U+10FFFF. So a sequence that is completed is the one that its character has.
-/
import SessionLog.Proofs.Text.Utf8.Order

namespace SessionLog.Utf8

/-! ### Octets of one character -/

theorem toNat_ofNat_of_valid {n : Nat} (h : n.isValidChar) : (Char.ofNat n).toNat = n := by
  rw [Char.ofNat, dif_pos h]
  rfl

theorem uint8_ofNat_eq {n : Nat} {b : UInt8} (h : n = b.toNat) : UInt8.ofNat n = b := by
  rw [h, UInt8.ofNat_toNat]

variable {a b c d : UInt8}

theorem encodeChar_one (ha : a.toNat ≤ 0x7F) :
    String.utf8EncodeChar (Char.ofNat a.toNat) = [a] := by
  have hcode := toNat_ofNat_of_valid (n := a.toNat) (Or.inl (by omega))
  rcases encodeChar_cases (Char.ofNat a.toNat) with ⟨hn, h⟩ | ⟨hn, -⟩ | ⟨hn, -⟩ | ⟨hn, -⟩
  · rw [h, uint8_ofNat_eq (b := a) (by omega)]
  all_goals omega

theorem encodeChar_two (ha : 0xC2 ≤ a.toNat ∧ a.toNat ≤ 0xDF)
    (hb : 0x80 ≤ b.toNat ∧ b.toNat ≤ 0xBF) :
    String.utf8EncodeChar (Char.ofNat ((a.toNat - 0xC0) * 64 + (b.toNat - 0x80))) = [a, b] := by
  generalize hcode : (a.toNat - 0xC0) * 64 + (b.toNat - 0x80) = n
  have hvalid := toNat_ofNat_of_valid (n := n) (Or.inl (by omega))
  rcases encodeChar_cases (Char.ofNat n) with ⟨hn, -⟩ | ⟨-, h⟩ | ⟨hn, -⟩ | ⟨hn, -⟩
  · omega
  · rw [h, uint8_ofNat_eq (b := a) (by omega), uint8_ofNat_eq (b := b) (by omega)]
  all_goals omega

theorem encodeChar_three (ha : 0xE0 ≤ a.toNat ∧ a.toNat ≤ 0xEF)
    (hb : (if a.toNat = 0xE0 then 0xA0 else 0x80) ≤ b.toNat ∧
      b.toNat ≤ (if a.toNat = 0xED then 0x9F else 0xBF))
    (hc : 0x80 ≤ c.toNat ∧ c.toNat ≤ 0xBF) :
    String.utf8EncodeChar (Char.ofNat
      (((a.toNat - 0xE0) * 64 + (b.toNat - 0x80)) * 64 + (c.toNat - 0x80))) = [a, b, c] := by
  have hcontinues : 0x80 ≤ b.toNat ∧ b.toNat ≤ 0xBF := by grind
  have hnotOverlong : a.toNat = 0xE0 → 0xA0 ≤ b.toNat := by grind
  have hnotSurrogate : a.toNat = 0xED → b.toNat ≤ 0x9F := by grind
  generalize hcode : ((a.toNat - 0xE0) * 64 + (b.toNat - 0x80)) * 64 + (c.toNat - 0x80) = n
  have hvalid := toNat_ofNat_of_valid (n := n) (by unfold Nat.isValidChar; omega)
  rcases encodeChar_cases (Char.ofNat n) with ⟨hn, -⟩ | ⟨hn, -⟩ | ⟨-, h⟩ | ⟨hn, -⟩
  · omega
  · omega
  · rw [h, uint8_ofNat_eq (b := a) (by omega), uint8_ofNat_eq (b := b) (by omega),
      uint8_ofNat_eq (b := c) (by omega)]
  · omega

theorem encodeChar_four (ha : 0xF0 ≤ a.toNat ∧ a.toNat ≤ 0xF4)
    (hb : (if a.toNat = 0xF0 then 0x90 else 0x80) ≤ b.toNat ∧
      b.toNat ≤ (if a.toNat = 0xF4 then 0x8F else 0xBF))
    (hc : 0x80 ≤ c.toNat ∧ c.toNat ≤ 0xBF) (hd : 0x80 ≤ d.toNat ∧ d.toNat ≤ 0xBF) :
    String.utf8EncodeChar (Char.ofNat
      ((((a.toNat - 0xF0) * 64 + (b.toNat - 0x80)) * 64 + (c.toNat - 0x80)) * 64 +
        (d.toNat - 0x80))) = [a, b, c, d] := by
  have hcontinues : 0x80 ≤ b.toNat ∧ b.toNat ≤ 0xBF := by grind
  have hnotOverlong : a.toNat = 0xF0 → 0x90 ≤ b.toNat := by grind
  have hnotAbove : a.toNat = 0xF4 → b.toNat ≤ 0x8F := by grind
  generalize hcode : (((a.toNat - 0xF0) * 64 + (b.toNat - 0x80)) * 64 + (c.toNat - 0x80)) * 64 +
    (d.toNat - 0x80) = n
  have hvalid := toNat_ofNat_of_valid (n := n) (Or.inr (by omega))
  rcases encodeChar_cases (Char.ofNat n) with ⟨hn, -⟩ | ⟨hn, -⟩ | ⟨hn, -⟩ | ⟨-, h⟩
  · omega
  · omega
  · omega
  · rw [h, uint8_ofNat_eq (b := a) (by omega), uint8_ofNat_eq (b := b) (by omega),
      uint8_ofNat_eq (b := c) (by omega), uint8_ofNat_eq (b := d) (by omega)]

/-! ### Sequences that are completed -/

theorem accept_broken {state : State} {b : UInt8} (text : List Char)
    (h : step state b.toNat = .broken) : accept (some (state, text)) b = none := by
  simp [accept, h]

@[simp] theorem foldl_accept_none (octets : List UInt8) : octets.foldl accept none = none := by
  induction octets with
  | nil => rfl
  | cons b octets ih => exact ih

theorem first_broken {b : Nat} (hone : ¬b ≤ 0x7F) (htwo : ¬(0xC2 ≤ b ∧ b ≤ 0xDF))
    (hthree : ¬(0xE0 ≤ b ∧ b ≤ 0xEF)) (hfour : ¬(0xF0 ≤ b ∧ b ≤ 0xF4)) :
    first b = .broken := by
  unfold first
  repeat' rw [if_neg (by omega)]

variable {octets : List UInt8} {seen text : List Char}

/-- What is read on from the middle of a character to the end of one has the next octet of
    the character in front. -/
theorem exists_cons_of_foldl_accept {owed low high code : Nat}
    (h : octets.foldl accept (some (.tail owed low high code, seen)) = some (.start, text)) :
    ∃ b rest, octets = b :: rest ∧ (low ≤ b.toNat ∧ b.toNat ≤ high) ∧
      rest.foldl accept (accept (some (.tail owed low high code, seen)) b) =
        some (.start, text) := by
  cases octets with
  | nil => cases h
  | cons b rest =>
    rw [List.foldl_cons] at h
    by_cases hb : low ≤ b.toNat ∧ b.toNat ≤ high
    · exact ⟨b, rest, rfl, hb, h⟩
    · rw [accept_broken seen (step_tail_broken owed code hb), foldl_accept_none] at h
      cases h

/-- What is read from between characters has the octets of a character in front. The cases
    are the numbers of octets that the first one announces. -/
theorem exists_char_of_foldl_accept
    (h : (a :: octets).foldl accept (some (.start, seen)) = some (.start, text)) :
    ∃ char rest, a :: octets = String.utf8EncodeChar char ++ rest ∧
      rest.foldl accept (some (.start, char :: seen)) = some (.start, text) := by
  have hstart : step .start a.toNat = first a.toNat := rfl
  rw [List.foldl_cons] at h
  by_cases hone : a.toNat ≤ 0x7F
  · rw [accept_emit seen (hstart.trans (first_ascii hone))] at h
    exact ⟨_, octets, by rw [encodeChar_one hone]; rfl, h⟩
  by_cases htwo : 0xC2 ≤ a.toNat ∧ a.toNat ≤ 0xDF
  · rw [accept_more seen (hstart.trans (first_two htwo))] at h
    obtain ⟨b, rest, rfl, hb, h⟩ := exists_cons_of_foldl_accept h
    rw [accept_emit seen (step_tail_emit hb)] at h
    exact ⟨_, rest, by rw [encodeChar_two htwo hb]; rfl, h⟩
  by_cases hthree : 0xE0 ≤ a.toNat ∧ a.toNat ≤ 0xEF
  · rw [accept_more seen (hstart.trans (first_three hthree))] at h
    obtain ⟨b, rest, rfl, hb, h⟩ := exists_cons_of_foldl_accept h
    rw [accept_more seen (step_tail_more 0 hb)] at h
    obtain ⟨c, rest, rfl, hc, h⟩ := exists_cons_of_foldl_accept h
    rw [accept_emit seen (step_tail_emit hc)] at h
    exact ⟨_, rest, by rw [encodeChar_three hthree hb hc]; rfl, h⟩
  by_cases hfour : 0xF0 ≤ a.toNat ∧ a.toNat ≤ 0xF4
  · rw [accept_more seen (hstart.trans (first_four hfour))] at h
    obtain ⟨b, rest, rfl, hb, h⟩ := exists_cons_of_foldl_accept h
    rw [accept_more seen (step_tail_more 1 hb)] at h
    obtain ⟨c, rest, rfl, hc, h⟩ := exists_cons_of_foldl_accept h
    rw [accept_more seen (step_tail_more 0 hc)] at h
    obtain ⟨d, rest, rfl, hd, h⟩ := exists_cons_of_foldl_accept h
    rw [accept_emit seen (step_tail_emit hd)] at h
    exact ⟨_, rest, by rw [encodeChar_four hfour hb hc hd]; rfl, h⟩
  · rw [accept_broken seen (hstart.trans (first_broken hone htwo hthree hfour)),
      foldl_accept_none] at h
    cases h

/-! ### Texts -/

/-- The induction is on the number of octets, since a character takes several. -/
theorem exists_encode_of_foldl_accept
    (h : octets.foldl accept (some (.start, seen)) = some (.start, text)) :
    ∃ added, octets = encode added ∧ text = added.reverse ++ seen := by
  induction hlength : octets.length using Nat.strongRecOn generalizing octets seen with
  | _ n ih =>
    cases octets with
    | nil =>
      cases h
      exact ⟨[], rfl, rfl⟩
    | cons a octets =>
      obtain ⟨char, rest, hoctets, hrest⟩ := exists_char_of_foldl_accept h
      have hpos := List.length_pos_iff.2 (encodeChar_ne_nil char)
      have hshorter : rest.length < n := by
        rw [← hlength, hoctets, List.length_append]
        omega
      obtain ⟨added, rfl, rfl⟩ := ih _ hshorter hrest rfl
      refine ⟨char :: added, ?_, by simp⟩
      rw [hoctets, encode_cons]

/-- Octets are read as the text that they are the octets of, and others are not read. -/
theorem decode?_eq_some_iff : decode? octets = some text ↔ octets = encode text := by
  constructor
  · intro h
    rw [decode?] at h
    split at h
    · rename_i found hfound
      obtain ⟨added, hadded, rfl⟩ := exists_encode_of_foldl_accept hfound
      rw [List.append_nil, List.reverse_reverse] at h
      rw [hadded, Option.some.inj h]
    · cases h
  · rintro rfl
    exact decode?_encode text

end SessionLog.Utf8
