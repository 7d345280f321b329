/-
  SessionLog/Proofs/Text/Utf8/Suffix.lean
  =======================================
  **The lenient reading of an end of some octets.**

  A reading that starts later is in step with the whole one as soon as that is between
  characters. Until then the whole one takes octets that go on with a character, and none of
  these is a first octet: the later reading drops them. So what it reads is an end of what
  the whole one reads.
-/
import SessionLog.Proofs.Text.Utf8

namespace SessionLog.Utf8

/-! ### Octets that go on with a character -/

/-- An open sequence goes on with octets from 0x80 to 0xBF only. -/
def State.TakesTails : State → Prop
  | .start => True
  | .tail _ low high _ => 0x80 ≤ low ∧ high ≤ 0xBF

theorem first_of_tail {b : Nat} (hlow : 0x80 ≤ b) (hhigh : b ≤ 0xBF) : first b = .broken := by
  unfold first
  repeat' rw [if_neg (by omega)]

theorem first_takesTails {b : Nat} {next : State} (h : first b = .more next) :
    next.TakesTails := by
  unfold first at h
  repeat' split at h
  all_goals first
    | (injection h with h; subst h; simp only [State.TakesTails]; omega)
    | exact absurd h (by simp)

theorem step_takesTails {state next : State} {b : Nat} (h : step state b = .more next) :
    next.TakesTails := by
  cases state with
  | start => exact first_takesTails h
  | tail owed low high code =>
    by_cases hb : low ≤ b ∧ b ≤ high
    · cases owed with
      | zero =>
        rw [step_tail_emit hb] at h
        cases h
      | succ owed =>
        rw [step_tail_more owed hb] at h
        cases h
        exact ⟨Nat.le_refl _, Nat.le_refl _⟩
    · rw [step_tail_broken owed code hb] at h
      cases h

theorem resume_takesTails (state : State) (b : Nat) : (resume state b).1.TakesTails := by
  unfold resume
  cases hs : step state b with
  | emit c => trivial
  | more next => exact step_takesTails hs
  | broken =>
    cases hf : first b with
    | emit c => trivial
    | more next => exact first_takesTails hf
    | broken => trivial

/-- An octet is taken like a first one, or as a first one it is dropped. -/
theorem resume_eq_or {state : State} (hstate : state.TakesTails) (b : Nat) :
    resume state b = resume .start b ∨ resume .start b = (.start, none) := by
  cases state with
  | start => exact Or.inl rfl
  | tail owed low high code =>
    obtain ⟨hlow, hhigh⟩ := hstate
    by_cases hb : low ≤ b ∧ b ≤ high
    · right
      have hfirst : first b = .broken := first_of_tail (by omega) (by omega)
      simp only [resume, step, hfirst]
    · left
      have hstart : step .start b = first b := rfl
      rw [resume, resume, step_tail_broken owed code hb, hstart]
      cases first b <;> rfl

/-! ### Two readings -/

theorem absorb_eq (state : State) (text : List Char) (b : UInt8) :
    absorb (state, text) b =
      ((resume state b.toNat).1, (resume state b.toNat).2.toList ++ text) := by
  rw [absorb]
  split <;> rename_i hresume <;> rw [hresume] <;> rfl

/-- The induction is on the octets, up to the first one after which both readings are in the
    same state. -/
theorem foldl_absorb_start_prefix (octets : List UInt8) {state : State}
    (hstate : state.TakesTails) (text : List Char) :
    (octets.foldl absorb (.start, [])).2 <+: (octets.foldl absorb (state, text)).2 := by
  induction octets generalizing state text with
  | nil => exact List.nil_prefix
  | cons b octets ih =>
    rw [List.foldl_cons, List.foldl_cons, absorb_eq, absorb_eq]
    rcases resume_eq_or hstate b.toNat with hsame | hdropped
    · rw [hsame, List.append_nil, foldl_absorb_append]
      exact List.prefix_append _ _
    · rw [hdropped]
      exact ih (resume_takesTails state b.toNat) _

theorem foldl_absorb_takesTails (octets : List UInt8) {seen : State × List Char}
    (h : seen.1.TakesTails) : (octets.foldl absorb seen).1.TakesTails := by
  induction octets generalizing seen with
  | nil => exact h
  | cons b octets ih =>
    rw [List.foldl_cons, absorb_eq]
    exact ih (resume_takesTails seen.1 b.toNat)

theorem decodeLenient_suffix (front back : List UInt8) :
    decodeLenient back <:+ decodeLenient (front ++ back) := by
  have hstate : (front.foldl absorb (.start, [])).1.TakesTails :=
    foldl_absorb_takesTails front trivial
  rw [decodeLenient, decodeLenient, List.foldl_append, List.reverse_suffix]
  exact foldl_absorb_start_prefix back hstate _

end SessionLog.Utf8
