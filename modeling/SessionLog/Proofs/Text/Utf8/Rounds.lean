/-
  SessionLog/Proofs/Text/Utf8/Rounds.lean
  =======================================
  **The lenient reading, made of strict ones.**

  A strict reading comes to the end of the octets, or to a flaw: an octet that cannot stand
  where it is, or an end in the middle of a character. A lenient reading can be had in
  rounds. Each reads strictly, keeps the text in front of the flaw, drops the octets that are
  broken, and leaves the others to the next round. At least one octet is dropped, so there is
  a last round, and what the rounds have kept is what `decodeLenient` gives.

  The laws of the lenient reading follow: it changes no text, it falls apart at every ASCII
  octet, and the reading of an end is an end of the reading.
-/
import SessionLog.Proofs.Text.Utf8.Strict
import SessionLog.Proofs.Text.Utf8.Suffix

namespace SessionLog.Utf8

/-! ### Flaws -/

/-- Where a strict reading fails: the number of octets in front that are whole characters,
    and how many octets behind them are broken. There is no such number if the end of the
    octets comes too early. -/
structure Flaw where
  validUpTo : Nat
  errorLength : Option Nat
deriving DecidableEq, Repr

/-- The flaw that is found from a state on, with `whole` octets of characters and `begun`
    octets of the next one in front. The octet that breaks a sequence is no part of it, but
    one that cannot begin a character is broken by itself. -/
def flawFrom (state : State) (whole begun : Nat) : List UInt8 → Option Flaw
  | [] => if begun = 0 then none else some ⟨whole, none⟩
  | b :: octets =>
    match step state b.toNat with
    | .emit _ => flawFrom .start (whole + begun + 1) 0 octets
    | .more next => flawFrom next whole (begun + 1) octets
    | .broken => some ⟨whole, some (max begun 1)⟩

def flaw? (octets : List UInt8) : Option Flaw := flawFrom .start 0 0 octets

namespace Flaw

variable (flaw : Flaw) (octets : List UInt8)

/-- How many octets are dropped: the broken ones, or all that are left. -/
def skip : Nat := flaw.errorLength.getD (octets.drop flaw.validUpTo).length

/-- What is left to the next round. -/
def rest : List UInt8 := (octets.drop flaw.validUpTo).drop (flaw.skip octets)

end Flaw

/-- The text that is kept when at most so many rounds are allowed, behind the text of the
    rounds before. -/
def readInRounds : Nat → List Char → List UInt8 → Option (List Char)
  | 0, _, _ => none
  | rounds + 1, kept, octets =>
    match flaw? octets with
    | none => some (kept ++ (decode? octets).getD [])
    | some flaw =>
      readInRounds rounds (kept ++ (decode? (octets.take flaw.validUpTo)).getD [])
        (flaw.rest octets)

def IsText (octets : List UInt8) : Prop := ∃ text, octets = encode text

/-- What a round may rely on at a flaw: the octets in front are text, no longer front of the
    octets is, and behind them are octets to drop, as many as are dropped. -/
structure Flaw.IsFound (flaw : Flaw) (octets : List UInt8) : Prop where
  reads : IsText (octets.take flaw.validUpTo)
  longest : ∀ n ≤ octets.length, IsText (octets.take n) → n ≤ flaw.validUpTo
  drops : 0 < flaw.skip octets
  fits : flaw.validUpTo + flaw.skip octets ≤ octets.length

/-! ### Texts in front -/

/-- As long as the strict reading goes on, the lenient one does the same. -/
theorem foldl_absorb_of_accept {octets : List UInt8} {seen last : State × List Char}
    (h : octets.foldl accept (some seen) = some last) : octets.foldl absorb seen = last := by
  induction octets generalizing seen with
  | nil => exact Option.some.inj h
  | cons b octets ih =>
    obtain ⟨state, text⟩ := seen
    rw [List.foldl_cons] at h ⊢
    cases hs : step state b.toNat with
    | emit c =>
      rw [accept_emit text hs] at h
      rw [← ih h, absorb_eq, resume, hs]
      rfl
    | more next =>
      rw [accept_more text hs] at h
      rw [← ih h, absorb_eq, resume, hs]
      rfl
    | broken =>
      rw [accept_broken text hs, foldl_accept_none] at h
      cases h

/-- Behind a text the lenient reading starts afresh. -/
@[simp] theorem decodeLenient_encode_append (text : List Char) (back : List UInt8) :
    decodeLenient (encode text ++ back) = text ++ decodeLenient back := by
  have hjoin := foldl_absorb_append back .start [] text.reverse
  rw [List.nil_append] at hjoin
  rw [decodeLenient, List.foldl_append, foldl_absorb_of_accept (foldl_accept_encode text []),
    List.append_nil, hjoin, List.reverse_append, List.reverse_reverse, decodeLenient]

@[simp] theorem decodeLenient_encode (text : List Char) : decodeLenient (encode text) = text := by
  have hread := decodeLenient_encode_append text []
  rw [List.append_nil] at hread
  rw [hread]
  exact List.append_nil text

/-! ### Characters that are begun -/

/-- Octets that lead from between characters into the middle of one, or none. -/
inductive Opens : List UInt8 → State → Prop where
  | nil : Opens [] .start
  | concat {cut : List UInt8} {state next : State} {b : UInt8} (hcut : Opens cut state)
      (hstep : step state b.toNat = .more next) : Opens (cut ++ [b]) next

theorem first_ne_more_start (b : Nat) : first b ≠ .more .start := by
  intro h
  unfold first at h
  repeat' split at h
  all_goals cases h

theorem step_ne_more_start (state : State) (b : Nat) : step state b ≠ .more .start := by
  cases state with
  | start => exact first_ne_more_start b
  | tail owed low high code =>
    intro h
    by_cases hb : low ≤ b ∧ b ≤ high
    · cases owed with
      | zero =>
        rw [step_tail_emit hb] at h
        cases h
      | succ owed =>
        rw [step_tail_more owed hb] at h
        cases h
    · rw [step_tail_broken owed code hb] at h
      cases h

namespace Opens

variable {cut : List UInt8} {state : State}

theorem foldl_accept (h : Opens cut state) (text : List Char) :
    cut.foldl accept (some (.start, text)) = some (state, text) := by
  induction h with
  | nil => rfl
  | concat hcut hstep ih =>
    rw [List.foldl_append, ih, List.foldl_cons, List.foldl_nil, accept_more text hstep]

theorem ne_start (h : Opens cut state) (hne : cut ≠ []) : state ≠ .start := by
  cases h with
  | nil => exact absurd rfl hne
  | concat hcut hstep =>
    rintro rfl
    exact step_ne_more_start _ _ hstep

theorem eq_start (h : Opens cut state) (hnil : cut = []) : state = .start := by
  cases h with
  | nil => rfl
  | concat hcut hstep => exact absurd hnil (by simp)

/-- A front of the octets opens the same character. -/
theorem take (h : Opens cut state) (n : Nat) : ∃ before, Opens (cut.take n) before := by
  induction h with
  | nil => exact ⟨_, by simpa using Opens.nil⟩
  | @concat cut state next b hcut hstep ih =>
    by_cases hn : n ≤ cut.length
    · rw [List.take_append_of_le_length hn]
      exact ih
    · rw [List.take_of_length_le (by simp; omega)]
      exact ⟨next, hcut.concat hstep⟩

/-- Behind a text, a character that is begun and not completed makes no text. -/
theorem not_isText (h : Opens cut state) (hne : cut ≠ []) (text : List Char) :
    ¬IsText (encode text ++ cut) := by
  rintro ⟨other, hother⟩
  have hread := foldl_accept_encode other []
  rw [← hother, List.foldl_append, foldl_accept_encode, h.foldl_accept] at hread
  exact h.ne_start hne (congrArg Prod.fst (Option.some.inj hread))

/-- Nor does an octet in it that cannot stand. -/
theorem not_isText_cons (h : Opens cut state) {b : UInt8} (hb : step state b.toNat = .broken)
    (text : List Char) (back : List UInt8) : ¬IsText (encode text ++ (cut ++ b :: back)) := by
  rintro ⟨other, hother⟩
  have hread := foldl_accept_encode other []
  rw [← hother, List.foldl_append, foldl_accept_encode, List.foldl_append, h.foldl_accept,
    List.foldl_cons, accept_broken _ hb, foldl_accept_none] at hread
  cases hread

theorem decodeLenient_eq (h : Opens cut state) : decodeLenient cut = [] := by
  rw [decodeLenient, foldl_absorb_of_accept (h.foldl_accept [])]
  rfl

/-- The octet that breaks a sequence is read as if nothing stood in front of it. -/
theorem decodeLenient_append_cons (h : Opens cut state) {b : UInt8}
    (hb : step state b.toNat = .broken) (back : List UInt8) :
    decodeLenient (cut ++ b :: back) = decodeLenient (b :: back) := by
  have hstart : step .start b.toNat = first b.toNat := rfl
  have hresume : resume state b.toNat = resume .start b.toNat := by
    rw [resume, resume, hb, hstart]
    cases first b.toNat <;> rfl
  rw [decodeLenient, decodeLenient, List.foldl_append,
    foldl_absorb_of_accept (h.foldl_accept []), List.foldl_cons, List.foldl_cons, absorb_eq,
    absorb_eq, hresume]

end Opens

/-- An octet that cannot begin a character is dropped. -/
theorem decodeLenient_cons_of_broken {b : UInt8} (hb : step .start b.toNat = .broken)
    (back : List UInt8) : decodeLenient (b :: back) = decodeLenient back := by
  have hfirst : first b.toNat = .broken := hb
  rw [decodeLenient, decodeLenient, List.foldl_cons, absorb_eq, resume, hb]
  simp [hfirst]

/-! ### What a strict reading finds -/

/-- Some octets with a flaw: a text, a character that is begun, and the end of the octets or
    an octet that breaks it. -/
inductive Breaks : List UInt8 → Flaw → Prop where
  | unfinished (text : List Char) {cut : List UInt8} {state : State} (hcut : Opens cut state)
      (hne : cut ≠ []) : Breaks (encode text ++ cut) ⟨(encode text).length, none⟩
  | misplaced (text : List Char) {cut : List UInt8} {state : State} (hcut : Opens cut state)
      {b : UInt8} (hb : step state b.toNat = .broken) (back : List UInt8) :
      Breaks (encode text ++ (cut ++ b :: back))
        ⟨(encode text).length, some (max cut.length 1)⟩

/-- The induction is on the octets that have not been read; those that have been are a text
    and at most one character that is begun. -/
theorem flawFrom_spec (octets : List UInt8) (text : List Char) {cut : List UInt8} {state : State}
    (hcut : Opens cut state) :
    (flawFrom state (encode text).length cut.length octets = none ∧
      IsText (encode text ++ (cut ++ octets))) ∨
    ∃ flaw, flawFrom state (encode text).length cut.length octets = some flaw ∧
      Breaks (encode text ++ (cut ++ octets)) flaw := by
  induction octets generalizing text cut state with
  | nil =>
    rw [flawFrom, List.append_nil]
    by_cases hnil : cut = []
    · left
      exact ⟨if_pos (List.length_eq_zero_iff.2 hnil), text, by simp [hnil]⟩
    · right
      rw [if_neg (mt List.length_eq_zero_iff.1 hnil)]
      exact ⟨_, rfl, .unfinished text hcut hnil⟩
  | cons b octets ih =>
    rw [flawFrom]
    cases hs : step state b.toNat with
    | emit c =>
      have hread : decode? (encode text ++ (cut ++ [b])) = some (text ++ [c]) := by
        rw [decode?, List.foldl_append, foldl_accept_encode, List.foldl_append,
          hcut.foldl_accept, List.foldl_cons, List.foldl_nil, accept_emit _ hs]
        simp
      have hnext := ih (text ++ [c]) .nil
      rw [← decode?_eq_some_iff.1 hread] at hnext
      simpa [Nat.add_assoc] using hnext
    | more next =>
      have hnext := ih text (hcut.concat hs)
      simpa using hnext
    | broken =>
      right
      exact ⟨_, rfl, .misplaced text hcut hs octets⟩

theorem flaw?_cases (octets : List UInt8) :
    (flaw? octets = none ∧ IsText octets) ∨
      ∃ flaw, flaw? octets = some flaw ∧ Breaks octets flaw :=
  flawFrom_spec octets [] .nil

namespace Breaks

variable {octets : List UInt8} {flaw : Flaw}

/-- A longer front ends in the middle of a character, or has an octet in it that cannot
    stand. -/
theorem not_isText_take (h : Breaks octets flaw) {n : Nat} (hn : n ≤ octets.length)
    (hlong : flaw.validUpTo < n) : ¬IsText (octets.take n) := by
  cases h with
  | @unfinished text cut state hcut hne =>
    simp only [List.length_append] at hn hlong
    obtain ⟨before, hbefore⟩ := hcut.take (n - (encode text).length)
    rw [List.take_append, List.take_of_length_le (by omega)]
    apply hbefore.not_isText
    rw [Ne, List.take_eq_nil_iff, not_or]
    exact ⟨by omega, hne⟩
  | @misplaced text cut state hcut b hb back =>
    simp only at hlong
    rw [List.take_append, List.take_of_length_le (by omega)]
    -- the front ends in the character that is begun, or has the octet in it that breaks it
    by_cases hcutoff : n - (encode text).length ≤ cut.length
    · obtain ⟨before, hbefore⟩ := hcut.take (n - (encode text).length)
      rw [List.take_append_of_le_length hcutoff]
      apply hbefore.not_isText
      intro hnil
      have hlength := congrArg List.length hnil
      rw [List.length_take, List.length_nil] at hlength
      omega
    · obtain ⟨more, hmore⟩ : ∃ more, n - (encode text).length - cut.length = more + 1 :=
        ⟨n - (encode text).length - cut.length - 1, by omega⟩
      rw [List.take_append, List.take_of_length_le (by omega), hmore, List.take_succ_cons]
      exact hcut.not_isText_cons hb text _

theorem isFound (h : Breaks octets flaw) : flaw.IsFound octets where
  reads := by
    cases h with
    | unfinished text => exact ⟨text, List.take_left' rfl⟩
    | misplaced text => exact ⟨text, List.take_left' rfl⟩
  longest := by
    intro n hn hreads
    apply Nat.le_of_not_lt
    intro hlong
    exact h.not_isText_take hn hlong hreads
  drops := by
    cases h with
    | unfinished _ _ hne => simpa [Flaw.skip] using List.length_pos_iff.2 hne
    | misplaced =>
      simp only [Flaw.skip, Option.getD_some]
      omega
  fits := by
    cases h with
    | unfinished => simp [Flaw.skip]
    | misplaced =>
      simp only [Flaw.skip, Option.getD_some, List.length_append, List.length_cons]
      omega

/-- What is kept in a round and what is left to the next one read as all of the octets do. -/
theorem decodeLenient_eq (h : Breaks octets flaw) :
    decodeLenient octets =
      (decode? (octets.take flaw.validUpTo)).getD [] ++ decodeLenient (flaw.rest octets) := by
  cases h with
  | @unfinished text cut state hcut hne =>
    have hrest : Flaw.rest ⟨(encode text).length, none⟩ (encode text ++ cut) = [] := by
      simp [Flaw.rest, Flaw.skip]
    rw [decodeLenient_encode_append, hcut.decodeLenient_eq, hrest, List.take_left' rfl,
      decode?_encode]
    rfl
  | @misplaced text cut state hcut b hb back =>
    rw [decodeLenient_encode_append, hcut.decodeLenient_append_cons hb, List.take_left' rfl,
      decode?_encode, Option.getD_some, Flaw.rest, List.drop_left' rfl]
    congr 1
    -- the octet behind a character that is begun is left to the next round, a first one is not
    cases cut with
    | nil =>
      rw [hcut.eq_start rfl] at hb
      exact decodeLenient_cons_of_broken hb back
    | cons c cut =>
      have hdrop : ((c :: cut) ++ b :: back).drop (max (c :: cut).length 1) = b :: back := by
        rw [Nat.max_eq_left (by simp), List.drop_left' rfl]
      simp only [Flaw.skip, Option.getD_some, hdrop]

end Breaks

theorem breaks_of_flaw? {octets : List UInt8} {flaw : Flaw} (h : flaw? octets = some flaw) :
    Breaks octets flaw := by
  rcases flaw?_cases octets with ⟨hnone, -⟩ | ⟨found, hfound, hbreaks⟩
  · rw [hnone] at h
    cases h
  · rw [hfound] at h
    cases h
    exact hbreaks

theorem length_rest_lt {octets : List UInt8} {flaw : Flaw} (h : flaw.IsFound octets) :
    (flaw.rest octets).length < octets.length := by
  have hdrops := h.drops
  have hfits := h.fits
  rw [Flaw.rest, List.length_drop, List.length_drop]
  omega

theorem flaw?_eq_none_iff {octets : List UInt8} : flaw? octets = none ↔ IsText octets := by
  rcases flaw?_cases octets with ⟨hnone, hreads⟩ | ⟨flaw, hflaw, hbreaks⟩
  · simp [hnone, hreads]
  · have hfound := hbreaks.isFound
    have hdrops := hfound.drops
    have hfits := hfound.fits
    have hlong := hbreaks.not_isText_take (Nat.le_refl _) (by omega)
    rw [List.take_length] at hlong
    simp [hflaw, hlong]

/-! ### Rounds -/

/-- The induction is on the rounds that are allowed: there are more of them than octets, and
    each takes at least one octet. -/
theorem readInRounds_eq {rounds : Nat} {octets : List UInt8} (hrounds : octets.length < rounds)
    (kept : List Char) :
    readInRounds rounds kept octets = some (kept ++ decodeLenient octets) := by
  induction rounds generalizing octets kept with
  | zero => exact absurd hrounds (Nat.not_lt_zero _)
  | succ rounds ih =>
    rw [readInRounds]
    cases hflaw : flaw? octets with
    | none =>
      obtain ⟨text, rfl⟩ := flaw?_eq_none_iff.1 hflaw
      simp
    | some flaw =>
      have hbreaks := breaks_of_flaw? hflaw
      have hshorter := length_rest_lt hbreaks.isFound
      simp only
      rw [ih (by omega), hbreaks.decodeLenient_eq, List.append_assoc]

theorem decodeLenient_drop_suffix (octets : List UInt8) (n : Nat) :
    decodeLenient (octets.drop n) <:+ decodeLenient octets := by
  have hsuffix := decodeLenient_suffix (octets.take n) (octets.drop n)
  rw [List.take_append_drop] at hsuffix
  exact hsuffix

/-- The lenient reading gives back every text from its octets. At an ASCII octet it falls
    apart, also if that comes in the middle of a character. What it makes of an end of the
    octets is an end of what it makes of all of them. It comes of strict readings, round by
    round: a round finds no flaw exactly if all octets are text, and at a flaw it keeps the
    longest front that is text and drops at least one octet behind it, so more rounds than
    there are octets are never needed, but for the one that finds nothing left. -/
theorem lenient_reading_laws :
    (∀ text, decodeLenient (encode text) = text) ∧
    (∀ front back : List UInt8, ∀ b : UInt8, b.toNat ≤ 0x7F →
      decodeLenient (front ++ b :: back) =
        decodeLenient front ++ Char.ofNat b.toNat :: decodeLenient back) ∧
    (∀ octets n, decodeLenient (octets.drop n) <:+ decodeLenient octets) ∧
    (∀ octets, (flaw? octets = none ↔ IsText octets) ∧
      ∀ flaw, flaw? octets = some flaw →
        flaw.IsFound octets ∧ (flaw.rest octets).length < octets.length) ∧
    ∀ octets rounds, octets.length < rounds →
      readInRounds rounds [] octets = some (decodeLenient octets) := by
  refine ⟨decodeLenient_encode, ?_, decodeLenient_drop_suffix, ?_, ?_⟩
  · intro front back b hb
    exact decodeLenient_append_cons front back hb
  · intro octets
    refine ⟨flaw?_eq_none_iff, ?_⟩
    intro flaw hflaw
    have hfound := (breaks_of_flaw? hflaw).isFound
    exact ⟨hfound, length_rest_lt hfound⟩
  · intro octets rounds hrounds
    exact readInRounds_eq hrounds []

/-- An unfinished character, then a letter, then a surrogate and the beginning of another
    character. -/
def brokenOctets : List UInt8 :=
  [0x6F, 0x6B, 0xE2, 0x82] ++ 0x61 :: [0xED, 0xA0, 0x80, 0xF0, 0x9F]

theorem lenient_reading_laws_brokenOctets :
    decodeLenient brokenOctets =
        decodeLenient [0x6F, 0x6B, 0xE2, 0x82] ++
          'a' :: decodeLenient [0xED, 0xA0, 0x80, 0xF0, 0x9F] ∧
      flaw? brokenOctets = some ⟨2, some 2⟩ ∧ Flaw.IsFound ⟨2, some 2⟩ brokenOctets ∧
      brokenOctets.length < 11 ∧ readInRounds 11 [] brokenOctets = some ['o', 'k', 'a'] := by
  obtain ⟨-, hascii, -, hflaws, hrounds⟩ := lenient_reading_laws
  have hflaw : flaw? brokenOctets = some ⟨2, some 2⟩ := by decide +kernel
  have hlength : brokenOctets.length < 11 := by decide
  have hread : decodeLenient brokenOctets = ['o', 'k', 'a'] := by decide +kernel
  refine ⟨hascii _ _ 0x61 (by decide), hflaw, ((hflaws _).2 _ hflaw).1, hlength, ?_⟩
  rw [hrounds _ _ hlength, hread]

end SessionLog.Utf8
