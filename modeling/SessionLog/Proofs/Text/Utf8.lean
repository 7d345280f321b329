/-
  SessionLog/Proofs/Text/Utf8.lean
  ================================
  **What the UTF-8 machine makes of encoded texts and of joined octets.**

  The strict reading gives back every text from its octets. The lenient reading is
  local at an ASCII octet: whatever sequence is open in front of it is dropped, and
  what follows is read as if nothing stood in front. An ASCII character comes of no
  other octet than its own.
-/
import SessionLog.Text.Utf8

namespace SessionLog.Utf8

/-! ### First octets -/

theorem first_ascii {b : Nat} (h : b ≤ 0x7F) : first b = .emit (Char.ofNat b) := by
  rw [first, if_pos h]

theorem first_two {b : Nat} (h : 0xC2 ≤ b ∧ b ≤ 0xDF) :
    first b = .more (.tail 0 0x80 0xBF (b - 0xC0)) := by
  rw [first, if_neg (by omega), if_pos h]

/-- Of three octets the first rules out overlong forms and surrogates in the second. -/
theorem first_three {b : Nat} (h : 0xE0 ≤ b ∧ b ≤ 0xEF) :
    first b = .more (.tail 1 (if b = 0xE0 then 0xA0 else 0x80)
      (if b = 0xED then 0x9F else 0xBF) (b - 0xE0)) := by
  rw [first, if_neg (by omega), if_neg (by omega)]
  by_cases he : b = 0xE0
  · subst he
    rfl
  · by_cases hd : b = 0xED
    · subst hd
      rfl
    · rw [if_neg he, if_neg hd, if_pos (by omega), if_neg he, if_neg hd]

/-- Of four octets the first rules out overlong forms and code points above U+10FFFF in
    the second. -/
theorem first_four {b : Nat} (h : 0xF0 ≤ b ∧ b ≤ 0xF4) :
    first b = .more (.tail 2 (if b = 0xF0 then 0x90 else 0x80)
      (if b = 0xF4 then 0x8F else 0xBF) (b - 0xF0)) := by
  rw [first, if_neg (by omega), if_neg (by omega), if_neg (by omega), if_neg (by omega),
    if_neg (by omega)]
  by_cases hf : b = 0xF0
  · subst hf
    rfl
  · by_cases hl : b = 0xF4
    · subst hl
      rfl
    · rw [if_neg hf, if_pos (by omega), if_neg hf, if_neg hl]

/-! ### Steps of the strict reading -/

theorem accept_more {state next : State} {b : UInt8} (text : List Char)
    (h : step state b.toNat = .more next) :
    accept (some (state, text)) b = some (next, text) := by
  simp [accept, h]

theorem accept_emit {state : State} {c : Char} {b : UInt8} (text : List Char)
    (h : step state b.toNat = .emit c) :
    accept (some (state, text)) b = some (.start, c :: text) := by
  simp [accept, h]

theorem step_tail_more {low high code b : Nat} (owed : Nat) (h : low ≤ b ∧ b ≤ high) :
    step (.tail (owed + 1) low high code) b =
      .more (.tail owed 0x80 0xBF (code * 64 + (b - 0x80))) := by
  rw [step, if_pos h]

theorem step_tail_emit {low high code b : Nat} (h : low ≤ b ∧ b ≤ high) :
    step (.tail 0 low high code) b = .emit (Char.ofNat (code * 64 + (b - 0x80))) := by
  rw [step, if_pos h]

theorem step_tail_broken {low high b : Nat} (owed code : Nat) (h : ¬(low ≤ b ∧ b ≤ high)) :
    step (.tail owed low high code) b = .broken := by
  cases owed <;> rw [step, if_neg h]

theorem toNat_ofNat_of_lt {n : Nat} (h : n < 256) : (UInt8.ofNat n).toNat = n := by
  rw [UInt8.toNat_ofNat']
  exact Nat.mod_eq_of_lt h

theorem ofNat_eq_of_toNat_eq {c : Char} {n : Nat} (h : n = c.toNat) : Char.ofNat n = c := by
  rw [h, Char.ofNat_toNat]

/-! ### Encoded texts -/

/-- Between characters, the octets of a character give the character. The cases are the
    numbers of octets that a code point takes. -/
theorem foldl_accept_encodeChar (c : Char) (text : List Char) :
    (String.utf8EncodeChar c).foldl accept (some (.start, text)) =
      some (.start, c :: text) := by
  have hvalid : c.toNat < 0xD800 ∨ (0xDFFF < c.toNat ∧ c.toNat < 0x110000) := c.valid
  have hval : c.val.toNat = c.toNat := rfl
  simp only [String.utf8EncodeChar, hval]
  by_cases h1 : c.toNat ≤ 0x7F
  · rw [if_pos h1, List.foldl_cons, List.foldl_nil]
    have hb := toNat_ofNat_of_lt (n := c.toNat) (by omega)
    apply accept_emit
    rw [hb, step, first_ascii h1, Char.ofNat_toNat]
  rw [if_neg h1]
  by_cases h2 : c.toNat ≤ 0x7FF
  · rw [if_pos h2]
    have hb := toNat_ofNat_of_lt (n := c.toNat / 64 % 32 + 192) (by omega)
    have hc := toNat_ofNat_of_lt (n := c.toNat % 64 + 128) (by omega)
    simp only [List.foldl_cons, List.foldl_nil]
    rw [accept_more text (by rw [hb, step, first_two (by omega)]),
      accept_emit text (by rw [hc, step_tail_emit (by omega)]),
      ofNat_eq_of_toNat_eq (c := c) (by omega)]
  rw [if_neg h2]
  by_cases h3 : c.toNat ≤ 0xFFFF
  · rw [if_pos h3]
    have hb := toNat_ofNat_of_lt (n := c.toNat / 4096 % 16 + 224) (by omega)
    have hc := toNat_ofNat_of_lt (n := c.toNat / 64 % 64 + 128) (by omega)
    have hd := toNat_ofNat_of_lt (n := c.toNat % 64 + 128) (by omega)
    simp only [List.foldl_cons, List.foldl_nil]
    rw [accept_more text (by rw [hb, step, first_three (by omega)]),
      accept_more text (by rw [hc, step_tail_more 0 (by constructor <;> split <;> omega)]),
      accept_emit text (by rw [hd, step_tail_emit (by omega)]),
      ofNat_eq_of_toNat_eq (c := c) (by omega)]
  · rw [if_neg h3]
    have hb := toNat_ofNat_of_lt (n := c.toNat / 262144 % 8 + 240) (by omega)
    have hc := toNat_ofNat_of_lt (n := c.toNat / 4096 % 64 + 128) (by omega)
    have hd := toNat_ofNat_of_lt (n := c.toNat / 64 % 64 + 128) (by omega)
    have he := toNat_ofNat_of_lt (n := c.toNat % 64 + 128) (by omega)
    simp only [List.foldl_cons, List.foldl_nil]
    rw [accept_more text (by rw [hb, step, first_four (by omega)]),
      accept_more text (by rw [hc, step_tail_more 1 (by constructor <;> split <;> omega)]),
      accept_more text (by rw [hd, step_tail_more 0 (by omega)]),
      accept_emit text (by rw [he, step_tail_emit (by omega)]),
      ofNat_eq_of_toNat_eq (c := c) (by omega)]

theorem foldl_accept_encode (text seen : List Char) :
    (encode text).foldl accept (some (.start, seen)) =
      some (.start, text.reverse ++ seen) := by
  induction text generalizing seen with
  | nil => rfl
  | cons c text ih =>
    rw [encode, List.flatMap_cons, List.foldl_append, foldl_accept_encodeChar, ← encode, ih,
      List.reverse_cons, List.append_assoc, List.singleton_append]

/-- A text is what its octets read back to. -/
@[simp] theorem decode?_encode (text : List Char) : decode? (encode text) = some text := by
  rw [decode?, foldl_accept_encode]
  simp

/-! ### Joined octets -/

/-- An open sequence goes on with octets above ASCII only, and so is the least character
    that it can end in. -/
def State.AboveAscii : State → Prop
  | .start => True
  | .tail owed low _ code => 0x80 ≤ low ∧ 0x80 ≤ (code * 64 + (low - 0x80)) * Nat.pow 64 owed

theorem first_aboveAscii {b : Nat} {next : State} (h : first b = .more next) :
    next.AboveAscii := by
  have hnone : Nat.pow 64 0 = 1 := rfl
  have hone : Nat.pow 64 1 = 64 := rfl
  have htwo : Nat.pow 64 2 = 4096 := rfl
  unfold first at h
  repeat' split at h
  all_goals first
    | (injection h with h; subst h; simp only [State.AboveAscii, hnone, hone, htwo]; omega)
    | exact absurd h (by simp)

theorem step_aboveAscii {state next : State} (hstate : state.AboveAscii) {b : Nat}
    (h : step state b = .more next) : next.AboveAscii := by
  cases state with
  | start => exact first_aboveAscii h
  | tail owed low high code =>
    obtain ⟨hlow, hleast⟩ := hstate
    by_cases hb : low ≤ b ∧ b ≤ high
    · cases owed with
      | zero =>
        rw [step_tail_emit hb] at h
        cases h
      | succ owed =>
        rw [step_tail_more owed hb] at h
        cases h
        refine ⟨Nat.le_refl _, ?_⟩
        simp only [Nat.sub_self, Nat.add_zero]
        calc
          0x80 ≤ (code * 64 + (low - 0x80)) * Nat.pow 64 (owed + 1) := hleast
          _ ≤ (code * 64 + (b - 0x80)) * Nat.pow 64 (owed + 1) :=
              Nat.mul_le_mul_right _ (by omega)
          _ = (code * 64 + (b - 0x80)) * 64 * Nat.pow 64 owed := by
              rw [Nat.mul_assoc, Nat.mul_comm 64]
              rfl
    · rw [step_tail_broken owed code hb] at h
      cases h

theorem resume_aboveAscii {state : State} (hstate : state.AboveAscii) (b : Nat) :
    (resume state b).1.AboveAscii := by
  unfold resume
  cases hs : step state b with
  | emit c => trivial
  | more next => exact step_aboveAscii hstate hs
  | broken =>
    cases hf : first b with
    | emit c => trivial
    | more next => exact first_aboveAscii hf
    | broken => trivial

/-- An ASCII octet is a character of its own, whatever was begun in front of it. -/
theorem resume_ascii {state : State} (hstate : state.AboveAscii) {b : Nat} (hb : b ≤ 0x7F) :
    resume state b = (.start, some (Char.ofNat b)) := by
  unfold resume
  cases state with
  | start => rw [step, first_ascii hb]
  | tail owed low high code =>
    have hlow : 0x80 ≤ low := hstate.1
    rw [step_tail_broken owed code (by omega), first_ascii hb]

theorem absorb_aboveAscii {seen : State × List Char} (hseen : seen.1.AboveAscii) (b : UInt8) :
    (absorb seen b).1.AboveAscii := by
  have h := resume_aboveAscii hseen b.toNat
  unfold absorb
  split <;> rename_i heq <;> rw [heq] at h <;> exact h

theorem foldl_absorb_aboveAscii (octets : List UInt8) {seen : State × List Char}
    (h : seen.1.AboveAscii) : (octets.foldl absorb seen).1.AboveAscii := by
  induction octets generalizing seen with
  | nil => exact h
  | cons b octets ih => exact ih (absorb_aboveAscii h b)

theorem foldl_absorb_append (octets : List UInt8) (state : State) (text seen : List Char) :
    octets.foldl absorb (state, text ++ seen) =
      ((octets.foldl absorb (state, text)).1, (octets.foldl absorb (state, text)).2 ++ seen) := by
  induction octets generalizing state text with
  | nil => rfl
  | cons b octets ih =>
    rw [List.foldl_cons, List.foldl_cons]
    cases hr : resume state b.toNat with
    | mk next emitted =>
      cases emitted with
      | none =>
        have hab (t : List Char) : absorb (state, t) b = (next, t) := by
          simp only [absorb, hr]
        rw [hab, hab, ih]
      | some c =>
        have hab (t : List Char) : absorb (state, t) b = (next, c :: t) := by
          simp only [absorb, hr]
        rw [hab, hab, ← List.cons_append, ih]

theorem eq_of_ofNat_eq {n a : Nat} (hpos : 0 < a) (ha : a ≤ 0x7F)
    (h : Char.ofNat n = Char.ofNat a) : n = a := by
  have hvalid : a.isValidChar := Or.inl (by omega)
  have hcode : (Char.ofNat a).toNat = a := by
    rw [Char.ofNat, dif_pos hvalid]
    rfl
  rw [← hcode, ← h, Char.ofNat]
  by_cases hn : n.isValidChar
  · rw [dif_pos hn]
    rfl
  · rw [Char.ofNat, dif_neg hn] at h
    rw [← h] at hcode
    exact absurd hcode (Nat.ne_of_lt hpos)

theorem first_emit {b : Nat} {c : Char} (h : first b = .emit c) : c = Char.ofNat b := by
  by_cases hb : b ≤ 0x7F
  · rw [first_ascii hb] at h
    exact (Step.emit.inj h).symm
  · unfold first at h
    rw [if_neg hb] at h
    repeat' split at h
    all_goals cases h

/-- What is completed is the octet itself or lies above ASCII. -/
theorem step_emit {state : State} (hstate : state.AboveAscii) {b : Nat} {c : Char}
    (h : step state b = .emit c) : ∃ n, c = Char.ofNat n ∧ (n = b ∨ 0x80 ≤ n) := by
  cases state with
  | start => exact ⟨b, first_emit h, Or.inl rfl⟩
  | tail owed low high code =>
    obtain ⟨hlow, hleast⟩ := hstate
    by_cases hb : low ≤ b ∧ b ≤ high
    · cases owed with
      | zero =>
        rw [step_tail_emit hb] at h
        have hnone : Nat.pow 64 0 = 1 := rfl
        rw [hnone] at hleast
        exact ⟨_, (Step.emit.inj h).symm, Or.inr (by omega)⟩
      | succ owed =>
        rw [step_tail_more owed hb] at h
        cases h
    · rw [step_tail_broken owed code hb] at h
      cases h

theorem resume_emit {state : State} (hstate : state.AboveAscii) {b : Nat} {c : Char}
    (h : (resume state b).2 = some c) : ∃ n, c = Char.ofNat n ∧ (n = b ∨ 0x80 ≤ n) := by
  unfold resume at h
  cases hs : step state b with
  | emit emitted =>
    rw [hs] at h
    cases h
    exact step_emit hstate hs
  | more next =>
    rw [hs] at h
    cases h
  | broken =>
    rw [hs] at h
    cases hf : first b with
    | emit emitted =>
      rw [hf] at h
      cases h
      exact ⟨b, first_emit hf, Or.inl rfl⟩
    | more next =>
      rw [hf] at h
      cases h
    | broken =>
      rw [hf] at h
      cases h

/-- An octet that is read adds an ASCII character only if it is that character. -/
theorem mem_absorb {seen : State × List Char} (hseen : seen.1.AboveAscii) {b : UInt8} {a : Nat}
    (hpos : 0 < a) (ha : a ≤ 0x7F) (h : Char.ofNat a ∈ (absorb seen b).2) :
    Char.ofNat a ∈ seen.2 ∨ b.toNat = a := by
  unfold absorb at h
  split at h
  · rename_i next c hresume
    rcases List.mem_cons.1 h with rfl | hmem
    · obtain ⟨n, hn, hcode⟩ := resume_emit hseen (congrArg Prod.snd hresume)
      have hna := eq_of_ofNat_eq hpos ha hn.symm
      exact Or.inr (by omega)
    · exact Or.inl hmem
  · exact Or.inl h

theorem mem_foldl_absorb {octets : List UInt8} {b : UInt8} (hpos : 0 < b.toNat)
    (hb : b.toNat ≤ 0x7F) {seen : State × List Char} (hseen : seen.1.AboveAscii)
    (h : Char.ofNat b.toNat ∈ (octets.foldl absorb seen).2) :
    Char.ofNat b.toNat ∈ seen.2 ∨ b ∈ octets := by
  induction octets generalizing seen with
  | nil => exact Or.inl h
  | cons octet octets ih =>
    rcases ih (absorb_aboveAscii hseen octet) h with hstep | hrest
    · rcases mem_absorb hseen hpos hb hstep with hbefore | hoctet
      · exact Or.inl hbefore
      · obtain rfl : octet = b := UInt8.toNat_inj.1 hoctet
        exact Or.inr List.mem_cons_self
    · exact Or.inr (List.mem_cons_of_mem octet hrest)

/-- The lenient reading makes up no ASCII character. The null character is left out, since
    `Char.ofNat` gives it for numbers that are no code points. -/
theorem mem_of_mem_decodeLenient {octets : List UInt8} {b : UInt8} (hpos : 0 < b.toNat)
    (hb : b.toNat ≤ 0x7F) (h : Char.ofNat b.toNat ∈ decodeLenient octets) : b ∈ octets := by
  have hstart : State.AboveAscii ((.start, []) : State × List Char).1 := trivial
  rcases mem_foldl_absorb hpos hb hstart (List.mem_reverse.1 h) with hnil | hmem
  · exact absurd hnil List.not_mem_nil
  · exact hmem

/-- The lenient reading falls apart at an ASCII octet. -/
theorem decodeLenient_append_cons (front back : List UInt8) {b : UInt8} (hb : b.toNat ≤ 0x7F) :
    decodeLenient (front ++ b :: back) =
      decodeLenient front ++ Char.ofNat b.toNat :: decodeLenient back := by
  have habove : (front.foldl absorb (.start, [])).1.AboveAscii :=
    foldl_absorb_aboveAscii front trivial
  unfold decodeLenient
  rw [List.foldl_append, List.foldl_cons]
  generalize front.foldl absorb (.start, []) = seen at habove ⊢
  have hab : absorb seen b = (.start, Char.ofNat b.toNat :: seen.2) := by
    simp only [absorb, resume_ascii habove hb]
  have hjoin := foldl_absorb_append back .start [] (Char.ofNat b.toNat :: seen.2)
  rw [List.nil_append] at hjoin
  rw [hab, hjoin, List.reverse_append, List.reverse_cons, List.append_assoc,
    List.singleton_append]

end SessionLog.Utf8
