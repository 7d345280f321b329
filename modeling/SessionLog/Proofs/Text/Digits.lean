/-
  SessionLog/Proofs/Text/Digits.lean
  ==================================
  **Decimal digits: read back as their number, and in its order.**

  A text of digits is a number in positional notation. What is written with a width is
  read by every reader that takes so many digits, and digits of one width stand in the
  order of their numbers, whatever follows them.
-/
import Mathlib.Algebra.Group.Nat.Defs
import SessionLog.Text.Digits

namespace SessionLog.Text

/-! ### Single digits -/

@[grind =] theorem isDigit_iff {c : Char} : isDigit c = true ↔ 0x30 ≤ c.toNat ∧ c.toNat ≤ 0x39 := by
  simp only [isDigit, Bool.and_eq_true, decide_eq_true_eq]
  exact Iff.rfl

theorem digitValue_lt {c : Char} (h : isDigit c = true) : digitValue c < 10 := by
  grind [digitValue]

theorem digit_lt_iff {a b : Char} (ha : isDigit a = true) (hb : isDigit b = true) :
    a < b ↔ digitValue a < digitValue b := by
  have hlt : a < b ↔ a.toNat < b.toNat := Iff.rfl
  rw [hlt]
  grind [digitValue]

theorem digitValue_inj {a b : Char} (ha : isDigit a = true) (hb : isDigit b = true)
    (h : digitValue a = digitValue b) : a = b := by
  apply Char.toNat_inj.1
  grind [digitValue]

/-! ### Texts of digits -/

def AllDigits (ds : List Char) : Prop := ∀ c ∈ ds, isDigit c = true

theorem AllDigits.append {xs ys : List Char} (hxs : AllDigits xs) (hys : AllDigits ys) :
    AllDigits (xs ++ ys) := fun c hc =>
  (List.mem_append.1 hc).elim (hxs c) (hys c)

theorem AllDigits.replicate_zero (n : Nat) : AllDigits (List.replicate n '0') := by
  intro c hc
  rw [List.eq_of_mem_replicate hc]
  rfl

theorem foldl_ofDigits (ds : List Char) (n : Nat) :
    ds.foldl (fun n c => n * 10 + digitValue c) n = n * 10 ^ ds.length + ofDigits ds := by
  induction ds generalizing n with
  | nil => simp [ofDigits]
  | cons c ds ih =>
    rw [ofDigits, List.foldl_cons, List.foldl_cons, ih, ih (0 * 10 + digitValue c),
      List.length_cons, Nat.pow_succ]
    grind

theorem ofDigits_append (xs ys : List Char) :
    ofDigits (xs ++ ys) = ofDigits xs * 10 ^ ys.length + ofDigits ys := by
  rw [ofDigits, List.foldl_append, foldl_ofDigits]
  rfl

theorem ofDigits_cons (c : Char) (ds : List Char) :
    ofDigits (c :: ds) = digitValue c * 10 ^ ds.length + ofDigits ds := by
  rw [← List.singleton_append, ofDigits_append]
  simp [ofDigits]

theorem ofDigits_lt {ds : List Char} (h : AllDigits ds) : ofDigits ds < 10 ^ ds.length := by
  induction ds with
  | nil => exact Nat.one_pos
  | cons c ds ih =>
    have hrest := ih fun d hd => h d (List.mem_cons_of_mem _ hd)
    have hvalue : digitValue c + 1 ≤ 10 := digitValue_lt (h c List.mem_cons_self)
    calc
      ofDigits (c :: ds) = digitValue c * 10 ^ ds.length + ofDigits ds := ofDigits_cons c ds
      _ < (digitValue c + 1) * 10 ^ ds.length := by rw [Nat.succ_mul]; omega
      _ ≤ 10 * 10 ^ ds.length := Nat.mul_le_mul_right _ hvalue
      _ = 10 ^ (c :: ds).length := by rw [List.length_cons, Nat.pow_succ, Nat.mul_comm]

theorem ofDigits_replicate_zero (n : Nat) : ofDigits (List.replicate n '0') = 0 := by
  induction n with
  | zero => rfl
  | succ n ih =>
    rw [List.replicate_succ, ofDigits_cons, ih]
    simp [digitValue]

/-- Digits of one length compare like their numbers; what follows decides between equals.
    The induction is on the digits, and the first in which two texts differ outweighs all
    behind it. -/
theorem append_lt_append_iff {xs ys : List Char} (hxs : AllDigits xs) (hys : AllDigits ys)
    (hlength : xs.length = ys.length) (u v : List Char) :
    xs ++ u < ys ++ v ↔
      ofDigits xs < ofDigits ys ∨ (ofDigits xs = ofDigits ys ∧ u < v) := by
  induction xs generalizing ys with
  | nil =>
    obtain rfl := List.eq_nil_of_length_eq_zero hlength.symm
    simp
  | cons a xs ih =>
    cases ys with
    | nil => cases hlength
    | cons b ys =>
      have ha := hxs a List.mem_cons_self
      have hb := hys b List.mem_cons_self
      have hxs' : AllDigits xs := fun c hc => hxs c (List.mem_cons_of_mem _ hc)
      have hys' : AllDigits ys := fun c hc => hys c (List.mem_cons_of_mem _ hc)
      have hlength' : xs.length = ys.length := Nat.succ.inj hlength
      have hx := ofDigits_lt hxs'
      have hy := ofDigits_lt hys'
      rw [List.cons_append, List.cons_append, List.cons_lt_cons_iff, ih hxs' hys' hlength',
        ofDigits_cons, ofDigits_cons, digit_lt_iff ha hb, hlength']
      rw [hlength'] at hx
      rcases Nat.lt_trichotomy (digitValue a) (digitValue b) with hlt | heq | hgt
      · -- the rest of the digits is worth less than one step of the first
        have hstep := Nat.mul_le_mul_right (10 ^ ys.length) (Nat.succ_le_of_lt hlt)
        rw [Nat.succ_mul] at hstep
        constructor
        · intro _
          left
          omega
        · intro _
          exact Or.inl hlt
      · have hab := digitValue_inj ha hb heq
        subst hab
        simp
      · have hstep := Nat.mul_le_mul_right (10 ^ ys.length) (Nat.succ_le_of_lt hgt)
        rw [Nat.succ_mul] at hstep
        have hne : a ≠ b := by
          rintro rfl
          exact Nat.lt_irrefl _ hgt
        constructor
        · rintro (hlt | ⟨heq, -⟩)
          · omega
          · exact absurd heq hne
        · rintro (hlt | ⟨heq, -⟩) <;> omega

/-! ### Written numbers -/

theorem digitValue_digitChar {n : Nat} (h : n < 10) : digitValue n.digitChar = n :=
  Nat.toNat_digitChar_sub_48_of_lt_ten h

theorem allDigits_digits (n : Nat) : AllDigits (digits n) := by
  intro c hc
  have h : c.isDigit = true := Nat.isDigit_of_mem_toDigits (by decide) (by decide) hc
  simp only [Char.isDigit, Bool.and_eq_true, decide_eq_true_eq] at h
  exact isDigit_iff.2 h

theorem digits_ne_nil (n : Nat) : digits n ≠ [] := Nat.toDigits_ne_nil

theorem length_digits_le {n width : Nat} (hwidth : 0 < width) (h : n < 10 ^ width) :
    (digits n).length ≤ width :=
  (Nat.length_toDigits_le_iff (by decide) hwidth).2 h

@[simp] theorem ofDigits_digits (n : Nat) : ofDigits (digits n) = n := by
  induction n using Nat.strongRecOn with
  | _ n ih =>
    by_cases h : n < 10
    · rw [digits, Nat.toDigits_of_lt_base h, ofDigits_cons, digitValue_digitChar h]
      simp [ofDigits]
    · have hten : 10 ≤ n := Nat.le_of_not_lt h
      have hlast : n % 10 < 10 := Nat.mod_lt _ (by decide)
      have hfront := ih (n / 10) (by omega)
      rw [digits] at hfront ⊢
      rw [Nat.toDigits_of_base_le (by decide) hten, ofDigits_append, hfront, ofDigits_cons,
        digitValue_digitChar hlast]
      simp only [List.length_cons, List.length_nil, ofDigits, List.foldl_nil]
      omega

theorem allDigits_padded (width n : Nat) : AllDigits (padded width n) :=
  (AllDigits.replicate_zero _).append (allDigits_digits n)

@[simp] theorem ofDigits_padded (width n : Nat) : ofDigits (padded width n) = n := by
  rw [padded, ofDigits_append, ofDigits_replicate_zero, ofDigits_digits, Nat.zero_mul,
    Nat.zero_add]

theorem length_padded (width n : Nat) :
    (padded width n).length = max width (digits n).length := by
  rw [padded, List.length_append, List.length_replicate]
  omega

theorem length_padded_of_lt {width n : Nat} (hwidth : 0 < width) (h : n < 10 ^ width) :
    (padded width n).length = width := by
  rw [length_padded, Nat.max_eq_left (length_digits_le hwidth h)]

theorem length_digits_mono {a b : Nat} (h : a ≤ b) : (digits a).length ≤ (digits b).length := by
  have hpos : 0 < (digits b).length := List.length_pos_iff.2 (digits_ne_nil b)
  have hb : b < 10 ^ (digits b).length :=
    (Nat.length_toDigits_le_iff (by decide) hpos).1 (Nat.le_refl _)
  exact length_digits_le hpos (Nat.lt_of_le_of_lt h hb)

theorem length_padded_mono (width : Nat) {a b : Nat} (h : a ≤ b) :
    (padded width a).length ≤ (padded width b).length := by
  have hdigits := length_digits_mono h
  rw [length_padded, length_padded]
  omega

theorem padded_lt_padded_iff {width a b : Nat} (hwidth : 0 < width) (ha : a < 10 ^ width)
    (hb : b < 10 ^ width) (u v : List Char) :
    padded width a ++ u < padded width b ++ v ↔ a < b ∨ (a = b ∧ u < v) := by
  have hlength : (padded width a).length = (padded width b).length := by
    rw [length_padded_of_lt hwidth ha, length_padded_of_lt hwidth hb]
  rw [append_lt_append_iff (allDigits_padded _ _) (allDigits_padded _ _) hlength,
    ofDigits_padded, ofDigits_padded]

/-! ### Reading -/

def NoDigit (text : List Char) : Prop := ∀ c ∈ text.head?, isDigit c = false

theorem NoDigit.nil : NoDigit [] := by
  intro c hc
  cases hc

theorem NoDigit.cons {c : Char} (h : isDigit c = false) (text : List Char) :
    NoDigit (c :: text) := by
  intro d hd
  cases hd
  exact h

theorem leadingDigits_append {ds : List Char} (hds : AllDigits ds) {rest : List Char}
    (hrest : NoDigit rest) : leadingDigits (ds ++ rest) = ds := by
  rw [leadingDigits, List.takeWhile_append_of_pos hds]
  cases rest with
  | nil => exact List.append_nil _
  | cons c rest =>
    rw [List.takeWhile_cons_of_neg (Bool.eq_false_iff.1 (hrest c rfl)), List.append_nil]

/-- A number that is read has no more digits than are taken. -/
theorem lt_of_number? {least most n : Nat} {text rest : List Char}
    (h : number? least most text = some (n, rest)) : n < 10 ^ most := by
  simp only [number?] at h
  split at h
  · cases h
  · cases h
    have hdigits : AllDigits (leadingDigits (text.take most)) :=
      List.all_eq_true.1 List.all_takeWhile
    have hlength : (leadingDigits (text.take most)).length ≤ most :=
      Nat.le_trans (List.takeWhile_prefix _).length_le (List.length_take_le _ _)
    exact Nat.lt_of_lt_of_le (ofDigits_lt hdigits) (Nat.pow_le_pow_right (by decide) hlength)

/-- Digits at the front of a text are read as their number if the reader takes so many of
    them and no others follow that it would take. -/
theorem number?_append {least most : Nat} {ds rest : List Char} (hds : AllDigits ds)
    (hleast : least ≤ ds.length)
    (hmost : ds.length = most ∨ (ds.length ≤ most ∧ NoDigit rest)) :
    number? least most (ds ++ rest) = some (ofDigits ds, rest) := by
  have htaken : leadingDigits ((ds ++ rest).take most) = ds := by
    rcases hmost with hlength | ⟨hle, hrest⟩
    · rw [List.take_left' hlength]
      have h := leadingDigits_append hds NoDigit.nil
      rwa [List.append_nil] at h
    · rw [List.take_append, List.take_of_length_le hle]
      apply leadingDigits_append hds
      intro c hc
      rw [List.head?_take] at hc
      split at hc
      · cases hc
      · exact hrest c hc
  simp [number?, htaken, Nat.not_lt.2 hleast]

theorem number?_padded {width n : Nat} (hwidth : 0 < width) (h : n < 10 ^ width)
    (rest : List Char) : number? width width (padded width n ++ rest) = some (n, rest) := by
  have hlength := length_padded_of_lt hwidth h
  rw [number?_append (allDigits_padded width n) (Nat.le_of_eq hlength.symm)
    (Or.inl hlength), ofDigits_padded]

/-- Numbers of one width are found again in front of any texts. -/
theorem padded_append_inj {width a b : Nat} (hwidth : 0 < width) (ha : a < 10 ^ width)
    (hb : b < 10 ^ width) {u v : List Char} (h : padded width a ++ u = padded width b ++ v) :
    a = b ∧ u = v := by
  have hread := congrArg (number? width width) h
  rw [number?_padded hwidth ha, number?_padded hwidth hb] at hread
  exact Prod.mk.inj (Option.some.inj hread)

end SessionLog.Text
