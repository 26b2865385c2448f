import CareDirect.Accounts.SignUpVC

/-!
# What the two patterns accept

The password pattern does not ask for an uppercase letter, and its `\d` is any Unicode decimal digit; on all other
strings it is the announced policy (`password_policy_iff`). The local part of the email pattern has `.-_` inside a set,
which is the range from `.` to `_`: it has `@` and other punctuation, and it does not have `-`. On all other strings
the pattern is the intended grammar (`email_grammar_iff`).
-/

namespace CareDirect.Accounts

open Icu Pattern

/-! ## Characters -/

section Characters

variable {digits : Digits} {c a : Char}

theorem range_upper : 'A' ≤ c ∧ c ≤ 'Z' ↔ c.isUpper = true := by
  change _ ↔ decide ('A'.val ≤ c.val ∧ c.val ≤ 'Z'.val) = true
  rw [decide_eq_true_eq]
  exact Iff.rfl

theorem range_lower : 'a' ≤ c ∧ c ≤ 'z' ↔ c.isLower = true := by
  change _ ↔ (decide ('a'.val ≤ c.val) && decide (c.val ≤ 'z'.val)) = true
  rw [Bool.and_eq_true, decide_eq_true_eq, decide_eq_true_eq]
  exact Iff.rfl

theorem range_digit : '0' ≤ c ∧ c ≤ '9' ↔ c.isDigit = true := by
  change _ ↔ (decide ('0'.val ≤ c.val) && decide (c.val ≤ '9'.val)) = true
  rw [Bool.and_eq_true, decide_eq_true_eq, decide_eq_true_eq]
  exact Iff.rfl

theorem isAlpha_iff : c.isAlpha = true ↔ c.isUpper = true ∨ c.isLower = true := by
  change (c.isUpper || c.isLower) = true ↔ _
  rw [Bool.or_eq_true]

theorem isAlphanum_iff : c.isAlphanum = true ↔ c.isAlpha = true ∨ c.isDigit = true := by
  change (c.isAlpha || c.isDigit) = true ↔ _
  rw [Bool.or_eq_true]

theorem range_self : a ≤ c ∧ c ≤ a ↔ c = a := by
  constructor
  · exact fun h => Char.le_antisymm h.2 h.1
  · rintro rfl
    exact ⟨Char.le_refl c, Char.le_refl c⟩

/-- The special characters of the password pattern. -/
def specials : List Char := ['$', '@', '#', '!', '%', '*', '?', '&']

/-- A character of the last set of the password pattern. -/
def InAlphabet (digits : Digits) (c : Char) : Prop := c.isAlpha = true ∨ digits.decimal c = true ∨ c ∈ specials

theorem mem_lower : (CharSet.items [.range 'a' 'z']).mem digits c = true ↔ c.isLower = true := by
  rw [← range_lower]
  simp [CharSet.mem, Item.mem]

theorem mem_specials : (CharSet.items [.range '$' '$', .range '@' '@', .range '$' '$', .range '#' '#',
    .range '!' '!', .range '%' '%', .range '*' '*', .range '?' '?', .range '&' '&']).mem digits c = true ↔
    c ∈ specials := by
  simp only [CharSet.mem, List.any_cons, List.any_nil, Item.mem, range_self, Bool.or_eq_true, decide_eq_true_eq,
    Bool.or_false, specials, List.mem_cons, List.not_mem_nil, or_false]
  grind

theorem mem_alphabet : (CharSet.items [.range 'A' 'Z', .range 'a' 'z', .decimalDigit, .range '$' '$', .range '@' '@',
    .range '$' '$', .range '#' '#', .range '!' '!', .range '%' '%', .range '*' '*', .range '?' '?',
    .range '&' '&']).mem digits c = true ↔ InAlphabet digits c := by
  simp only [CharSet.mem, List.any_cons, List.any_nil, Item.mem, range_self, range_upper, range_lower,
    Bool.or_eq_true, decide_eq_true_eq, Bool.or_false, InAlphabet, isAlpha_iff, specials, List.mem_cons,
    List.not_mem_nil, or_false]
  grind

-- through `List.all`, which goes over the list alone; `Char` is finite, and deciding the bare `∀` may go over it
theorem terminators_plain : ∀ c ∈ lineTerminators, ¬ (c.isAlpha = true ∨ c ∈ specials) :=
  List.all_iff_forall_prop.1 (by decide)

theorem specials_ascii : ∀ c ∈ specials, c.toNat < 128 := List.all_iff_forall_prop.1 (by decide)

/-- The look-aheads can pass over every character of the alphabet. -/
theorem mem_any (h : InAlphabet digits c) : CharSet.any.mem digits c = true := by
  have hnot : c ∉ lineTerminators := by
    intro hc
    rcases h with h | h | h
    · exact terminators_plain c hc (.inl h)
    · rw [digits.decimal_terminator c hc] at h
      cases h
    · exact terminators_plain c hc (.inr h)
  simpa [CharSet.mem] using hnot

theorem ascii (h : c.isAlpha = true ∨ c.isDigit = true ∨ c ∈ specials) : c.toNat < 128 := by
  rcases h with h | h | h
  · rcases isAlpha_iff.1 h with h | h
    · have hc : c.toNat ≤ 90 := (range_upper.2 h).2
      omega
    · have hc : c.toNat ≤ 122 := (range_lower.2 h).2
      omega
  · exact isDigit_ascii h
  · exact specials_ascii c h

theorem forall_ascii {P : Char → Prop} (hP : ∀ n < 128, P (Char.ofNat n)) (hc : c.toNat < 128) : P c := by
  have h := hP c.toNat hc
  rwa [Char.ofNat_toNat] at h

/-- A character that the grammar has in the local part. -/
def LocalChar (c : Char) : Prop := c.isAlphanum = true ∨ c = '.' ∨ c = '-' ∨ c = '_'

/-- The other characters between `.` and `_`. -/
def slips : List Char := ['/', ':', ';', '<', '=', '>', '?', '@', '[', '\\', ']', '^']

instance : DecidablePred LocalChar := fun c =>
  inferInstanceAs (Decidable (c.isAlphanum = true ∨ c = '.' ∨ c = '-' ∨ c = '_'))

theorem not_localChar_of_slip : ∀ c ∈ slips, ¬ LocalChar c := List.all_iff_forall_prop.1 (by decide)

theorem slips_between : ∀ c ∈ slips, '.' ≤ c ∧ c ≤ '_' := List.all_iff_forall_prop.1 (by decide)

theorem range_slips : '.' ≤ c ∧ c ≤ '_' ↔
    c.isUpper = true ∨ c.isDigit = true ∨ c = '.' ∨ c = '_' ∨ c ∈ slips := by
  constructor
  · intro h
    have hc : c.toNat ≤ 95 := h.2
    exact forall_ascii (P := fun c => '.' ≤ c ∧ c ≤ '_' → c.isUpper = true ∨ c.isDigit = true ∨ c = '.' ∨ c = '_' ∨
      c ∈ slips) (by decide) (by omega) h
  · rintro (h | h | rfl | rfl | h)
    · rw [← range_upper] at h
      exact ⟨Char.le_trans (by decide) h.1, Char.le_trans h.2 (by decide)⟩
    · rw [← range_digit] at h
      exact ⟨Char.le_trans (by decide) h.1, Char.le_trans h.2 (by decide)⟩
    · decide
    · decide
    · exact slips_between c h

/-- The set in front of the `@`: the range takes the place of `-`. -/
theorem mem_local :
    (CharSet.items [.range 'A' 'Z', .range '0' '9', .range 'a' 'z', .range '.' '_']).mem digits c = true ↔
      LocalChar c ∧ c ≠ '-' ∨ c ∈ slips := by
  have hdash : c.isAlphanum = true → c ≠ '-' := by
    rintro h rfl
    revert h
    decide
  simp only [CharSet.mem, List.any_cons, List.any_nil, Item.mem, range_slips, range_upper, range_lower, range_digit,
    Bool.or_eq_true, decide_eq_true_eq, Bool.or_false, LocalChar]
  simp only [isAlphanum_iff, isAlpha_iff] at hdash ⊢
  have hdot : c = '.' → c ≠ '-' := by rintro rfl; decide
  have hlow : c = '_' → c ≠ '-' := by rintro rfl; decide
  grind

theorem mem_domain : (CharSet.items [.range 'A' 'Z', .range 'a' 'z', .range '0' '9', .range '.' '.',
    .range '-' '-']).mem digits c = true ↔ c.isAlphanum = true ∨ c = '.' ∨ c = '-' := by
  simp only [CharSet.mem, List.any_cons, List.any_nil, Item.mem, range_self, range_upper, range_lower, range_digit,
    Bool.or_eq_true, decide_eq_true_eq, Bool.or_false, isAlphanum_iff, isAlpha_iff]
  grind

theorem mem_tld : (CharSet.items [.range 'A' 'Z', .range 'a' 'z']).mem digits c = true ↔ c.isAlpha = true := by
  simp [CharSet.mem, Item.mem, range_upper, range_lower, isAlpha_iff]

end Characters

/-! ## Passwords -/

namespace SignUpVC

/-- The announced policy. -/
structure Policy (password : List Char) : Prop where
  atLeast : 6 ≤ password.length
  atMost : password.length ≤ 16
  alphabet : ∀ c ∈ password, c.isAlpha = true ∨ c.isDigit = true ∨ c ∈ specials
  upper : ∃ c ∈ password, c.isUpper = true
  lower : ∃ c ∈ password, c.isLower = true
  special : ∃ c ∈ password, c ∈ specials

/-- What the pattern asks for: no uppercase letter, and any decimal digits. -/
structure Accepted (digits : Digits) (password : List Char) : Prop where
  atLeast : 6 ≤ password.length
  atMost : password.length ≤ 16
  alphabet : ∀ c ∈ password, InAlphabet digits c
  lower : ∃ c ∈ password, c.isLower = true
  special : ∃ c ∈ password, c ∈ specials

variable {digits : Digits} {xs : List Char} {s : CharSet}

/-- Over the alphabet, a look-ahead just asks for a character of its set. -/
theorem lookahead_iff (h : ∀ c ∈ xs, InAlphabet digits c) :
    (∃ ys x zs, xs ++ [] = ys ++ x :: zs ∧ (∀ y ∈ ys, CharSet.any.mem digits y = true) ∧ s.mem digits x = true) ↔
      ∃ c ∈ xs, s.mem digits c = true := by
  rw [List.append_nil]
  constructor
  · rintro ⟨ys, x, zs, rfl, -, hx⟩
    exact ⟨x, by simp, hx⟩
  · rintro ⟨x, hx, hs⟩
    obtain ⟨ys, zs, rfl⟩ := List.append_of_mem hx
    exact ⟨ys, x, zs, rfl, fun y hy => mem_any (h y (List.mem_append_left _ hy)), hs⟩

theorem isValidPassword_iff (digits : Digits) (password : String) :
    isValidPassword digits password = some true ↔ Accepted digits password.toList := by
  have hcompile : compile "^(?=.*[a-z])(?=.*[$@$#!%*?&])[A-Za-z\\d$@$#!%*?&]{6,16}" =
      some (.seq .start (.seq (.ahead (.seq (.many .any 0 none) (.set (.items [.range 'a' 'z']))))
        (.seq (.ahead (.seq (.many .any 0 none) (.set (.items [.range '$' '$', .range '@' '@', .range '$' '$',
          .range '#' '#', .range '!' '!', .range '%' '%', .range '*' '*', .range '?' '?', .range '&' '&']))))
        (.many (.items [.range 'A' 'Z', .range 'a' 'z', .decimalDigit, .range '$' '$', .range '@' '@',
          .range '$' '$', .range '#' '#', .range '!' '!', .range '%' '%', .range '*' '*', .range '?' '?',
          .range '&' '&']) 6 (some 16))))) := by decide
  simp only [isValidPassword, selfMatches, hcompile, Option.map_some, Option.some.injEq]
  rw [fullMatch_iff, matches_start_seq, matches_ahead_seq, matches_ahead_seq, matches_many]
  simp only [mem_alphabet, true_and]
  constructor
  · rintro ⟨hlower, hspecial, halphabet, hlo, hhi⟩
    rw [lookahead_iff halphabet] at hlower hspecial
    simp only [mem_lower, mem_specials] at hlower hspecial
    exact ⟨hlo, hhi 16 rfl, halphabet, hlower, hspecial⟩
  · rintro ⟨hlo, hhi, halphabet, hlower, hspecial⟩
    rw [lookahead_iff halphabet, lookahead_iff halphabet]
    simp only [mem_lower, mem_specials]
    exact ⟨hlower, hspecial, halphabet, hlo, fun m hm => Option.some.inj hm ▸ hhi⟩

theorem Policy.accepted (h : Policy xs) : Accepted digits xs := by
  refine ⟨h.atLeast, h.atMost, fun c hc => ?_, h.lower, h.special⟩
  rcases h.alphabet c hc with hc | hc | hc
  · exact .inl hc
  · exact .inr (.inl (digits.decimal_of_isDigit hc))
  · exact .inr (.inr hc)

/-- What keeps a password from being accepted against the policy: an uppercase letter and no digits outside ASCII, or
another rule that it breaks. -/
def PolicyKept (digits : Digits) (xs : List Char) : Prop :=
  ((∃ c ∈ xs, c.isUpper = true) ∧ ∀ c ∈ xs, digits.decimal c = true → c.isDigit = true) ∨
    xs.length < 6 ∨ 16 < xs.length ∨ (∃ c ∈ xs, ¬ InAlphabet digits c) ∨
    (¬ ∃ c ∈ xs, c.isLower = true) ∨ ¬ ∃ c ∈ xs, c ∈ specials

theorem policyKept_iff : (Accepted digits xs ↔ Policy xs) ↔ PolicyKept digits xs := by
  constructor
  · intro h
    by_contra hnot
    simp only [PolicyKept, not_or, not_lt, not_exists, not_and, not_not, not_forall] at hnot
    obtain ⟨hextra, hlo, hhi, halphabet, hlower, hspecial⟩ := hnot
    have hlower' : ∃ c ∈ xs, c.isLower = true := by simpa using hlower
    have hspecial' : ∃ c ∈ xs, c ∈ specials := by simpa using hspecial
    have hpolicy := h.1 ⟨hlo, hhi, halphabet, hlower', hspecial'⟩
    obtain ⟨c, hc, hdecimal, hdigit⟩ := hextra hpolicy.upper
    exact hdigit ((digits.decimal_ascii c (ascii (hpolicy.alphabet c hc))).symm.trans hdecimal)
  · rintro (⟨hupper, hdigits⟩ | hlo | hhi | ⟨c, hc, hnot⟩ | hlower | hspecial)
    · refine ⟨fun h => ⟨h.atLeast, h.atMost, fun c hc => ?_, hupper, h.lower, h.special⟩, Policy.accepted⟩
      rcases h.alphabet c hc with ha | hd | hs
      · exact .inl ha
      · exact .inr (.inl (hdigits c hc hd))
      · exact .inr (.inr hs)
    · exact ⟨fun h => absurd h.atLeast (Nat.not_le_of_lt hlo), Policy.accepted⟩
    · exact ⟨fun h => absurd h.atMost (Nat.not_le_of_lt hhi), Policy.accepted⟩
    · exact ⟨fun h => absurd (h.alphabet c hc) hnot, Policy.accepted⟩
    · exact ⟨fun h => absurd h.lower hlower, Policy.accepted⟩
    · exact ⟨fun h => absurd h.special hspecial, Policy.accepted⟩

end SignUpVC

open SignUpVC

/-- **The password policy.** The pattern accepts exactly the passwords of the policy on the strings of `PolicyKept`. -/
theorem password_policy_iff (digits : Digits) (password : String) :
    (isValidPassword digits password = some true ↔ Policy password.toList) ↔ PolicyKept digits password.toList := by
  rw [isValidPassword_iff]
  exact policyKept_iff

/-- A password without an uppercase letter. -/
theorem password_policy_fails : ¬ (isValidPassword asciiDigits "abcde!" = some true ↔ Policy "abcde!".toList) := by
  intro h
  have haccepted : isValidPassword asciiDigits "abcde!" = some true := by decide
  have hplain : ∀ c ∈ "abcde!".toList, ¬ c.isUpper = true := List.all_iff_forall_prop.1 (by decide)
  obtain ⟨c, hc, hupper⟩ := (h.1 haccepted).upper
  exact hplain c hc hupper

/-! ## Emails -/

namespace SignUpVC

/-- `localPart`, `@`, a domain, a dot and a top-level domain of 2 to 6 letters. -/
structure Split (email localPart domain tld : List Char) : Prop where
  eq : email = localPart ++ '@' :: (domain ++ '.' :: tld)
  localPart_ne : localPart ≠ []
  domain_ne : domain ≠ []
  domainChars : ∀ c ∈ domain, c.isAlphanum = true ∨ c = '.' ∨ c = '-'
  atLeast : 2 ≤ tld.length
  atMost : tld.length ≤ 6
  letters : ∀ c ∈ tld, c.isAlpha = true

/-- The intended grammar. -/
def Grammar (email : List Char) : Prop := ∃ l d t, Split email l d t ∧ ∀ c ∈ l, LocalChar c

/-- The strings on which the pattern is the grammar: a local part without `-` and the other characters of the range,
or with a character that neither allows, or with both `-` and one of the others. -/
def GrammarKept (email : List Char) : Prop :=
  ∀ l d t, Split email l d t →
    (∀ c ∈ l, c ≠ '-' ∧ c ∉ slips) ∨ (∃ c ∈ l, ¬ LocalChar c ∧ c ∉ slips) ∨ '-' ∈ l ∧ ∃ c ∈ l, c ∈ slips

variable {l l' d d' t t' : List Char}

theorem isValidEmail_iff (digits : Digits) (email : String) : isValidEmail digits email = some true ↔
    ∃ l d t, Split email.toList l d t ∧ ∀ c ∈ l, LocalChar c ∧ c ≠ '-' ∨ c ∈ slips := by
  have hcompile : compile "[A-Z0-9a-z.-_]+@[A-Za-z0-9.-]+\\.[A-Za-z]{2,6}" =
      some (.seq (.many (.items [.range 'A' 'Z', .range '0' '9', .range 'a' 'z', .range '.' '_']) 1 none)
        (.seq (.set (.items [.range '@' '@']))
          (.seq (.many (.items [.range 'A' 'Z', .range 'a' 'z', .range '0' '9', .range '.' '.',
              .range '-' '-']) 1 none)
            (.seq (.set (.items [.range '.' '.']))
              (.many (.items [.range 'A' 'Z', .range 'a' 'z']) 2 (some 6)))))) := by
    decide
  have hsingle : ∀ a c : Char, (CharSet.items [.range a a]).mem digits c = true ↔ c = a := by
    intro a c
    simp [CharSet.mem, Item.mem, range_self]
  simp only [isValidEmail, selfMatches, hcompile, Option.map_some, Option.some.injEq]
  rw [fullMatch_iff, matches_many_seq Nat.one_pos]
  simp only [matches_set_seq, matches_many_seq Nat.one_pos, matches_many, mem_local, mem_domain, mem_tld, hsingle]
  constructor
  · rintro ⟨l, _, heq, ⟨hl, hlen, -⟩, _, _, rfl, rfl, d, _, rfl, ⟨hd, hdlen, -⟩, _, t, rfl, rfl, ht, hlo, hhi⟩
    exact ⟨l, d, t, ⟨heq, List.ne_nil_of_length_pos hlen, List.ne_nil_of_length_pos hdlen, hd, hlo, hhi 6 rfl, ht⟩, hl⟩
  · rintro ⟨l, d, t, h, hl⟩
    exact ⟨l, _, h.eq, ⟨hl, List.length_pos_of_ne_nil h.localPart_ne, by simp⟩, _, _, rfl, rfl, d, _, rfl,
      ⟨h.domainChars, List.length_pos_of_ne_nil h.domain_ne, by simp⟩, _, t, rfl, rfl, h.letters, h.atLeast,
      fun m hm => Option.some.inj hm ▸ h.atMost⟩

/-- Behind the local part there is no further `@`. -/
theorem Split.no_at {email : List Char} (h : Split email l d t) : '@' ∉ d ++ '.' :: t := by
  intro hat
  rcases List.mem_append.1 hat with hd | hd
  · exact absurd (h.domainChars _ hd) (by decide)
  · rcases List.mem_cons.1 hd with hc | ht
    · exact absurd hc (by decide)
    · exact absurd (h.letters _ ht) (by decide)

/-- The last occurrence of an element splits a list in one way. -/
theorem eq_of_last {a : Char} {r r' : List Char} (hr : a ∉ r) (hr' : a ∉ r') (h : l ++ a :: r = l' ++ a :: r') :
    l = l' := by
  rcases List.append_eq_append_iff.1 h with ⟨_ | ⟨b, m⟩, rfl, hm⟩ | ⟨_ | ⟨b, m⟩, rfl, hm⟩
  · exact (List.append_nil l).symm
  · rw [(List.cons.inj hm).2] at hr
    exact absurd (by simp) hr
  · exact List.append_nil l'
  · rw [(List.cons.inj hm).2] at hr'
    exact absurd (by simp) hr'

theorem Split.localPart_eq {email : List Char} (h : Split email l d t) (h' : Split email l' d' t') : l = l' :=
  eq_of_last h.no_at h'.no_at (h.eq.symm.trans h'.eq)

theorem Grammar.count_at {email : List Char} (h : Grammar email) : email.count '@' = 1 := by
  obtain ⟨l, d, t, h, hl⟩ := h
  have hat : '@' ∉ l := fun hc => absurd (hl _ hc) (by decide)
  rw [h.eq, List.count_append, List.count_cons_self, List.count_eq_zero_of_not_mem hat,
    List.count_eq_zero_of_not_mem h.no_at]

/-- On one string. -/
theorem grammarKept_iff {email : List Char} :
    ((∃ l d t, Split email l d t ∧ ∀ c ∈ l, LocalChar c ∧ c ≠ '-' ∨ c ∈ slips) ↔ Grammar email) ↔
      GrammarKept email := by
  constructor
  · intro h l d t hs
    by_contra hnot
    simp only [not_or, not_and, not_exists, not_forall, not_not] at hnot
    obtain ⟨⟨c, hc, hodd⟩, hall, hboth⟩ := hnot
    by_cases hdash : '-' ∈ l
    · -- the grammar has the string, the pattern does not
      have hlocal : ∀ c ∈ l, LocalChar c := by
        intro c hc
        by_contra hno
        exact hboth hdash c hc (hall c hc hno)
      obtain ⟨l', d', t', hs', hl'⟩ := h.2 ⟨l, d, t, hs, hlocal⟩
      cases hs.localPart_eq hs'
      rcases hl' _ hdash with ⟨-, hne⟩ | hslip
      · exact hne rfl
      · exact absurd hslip (by decide)
    · -- the pattern has the string, the grammar does not
      have haccepted : ∀ c ∈ l, LocalChar c ∧ c ≠ '-' ∨ c ∈ slips := by
        intro c hc
        by_cases hlocal : LocalChar c
        · exact .inl ⟨hlocal, fun he => hdash (he ▸ hc)⟩
        · exact .inr (hall c hc hlocal)
      obtain ⟨l', d', t', hs', hl'⟩ := h.1 ⟨l, d, t, hs, haccepted⟩
      cases hs.localPart_eq hs'
      have hslip := hodd fun he => hdash (he ▸ hc)
      exact not_localChar_of_slip c hslip (hl' c hc)
  · intro hkept
    constructor
    · rintro ⟨l, d, t, hs, hl⟩
      refine ⟨l, d, t, hs, fun c hc => ?_⟩
      rcases hkept l d t hs with hplain | ⟨c', hc', hno, hnot⟩ | ⟨hdash, -⟩
      · rcases hl c hc with ⟨hlocal, -⟩ | hslip
        · exact hlocal
        · exact absurd hslip (hplain c hc).2
      · rcases hl c' hc' with ⟨hlocal, -⟩ | hslip
        · exact absurd hlocal hno
        · exact absurd hslip hnot
      · rcases hl _ hdash with ⟨-, hne⟩ | hslip
        · exact absurd rfl hne
        · exact absurd hslip (by decide)
    · rintro ⟨l, d, t, hs, hl⟩
      refine ⟨l, d, t, hs, fun c hc => .inl ⟨hl c hc, ?_⟩⟩
      rcases hkept l d t hs with hplain | ⟨c', hc', hno, -⟩ | ⟨-, c', hc', hslip⟩
      · exact (hplain c hc).1
      · exact absurd (hl c' hc') hno
      · exact absurd (hl c' hc') (not_localChar_of_slip c' hslip)

end SignUpVC

/-- **The email grammar.** The pattern accepts exactly the strings of the grammar, which have exactly one `@`, on the
strings of `GrammarKept`. -/
theorem email_grammar_iff (digits : Digits) (email : String) :
    ((isValidEmail digits email = some true ↔ Grammar email.toList) ∧
      (isValidEmail digits email = some true → email.toList.count '@' = 1)) ↔ GrammarKept email.toList := by
  rw [← grammarKept_iff, isValidEmail_iff]
  exact ⟨And.left, fun h => ⟨h, fun haccepted => (h.1 haccepted).count_at⟩⟩

/-- A hyphen in the local part is rejected, a second `@` is accepted. -/
theorem email_grammar_fails : ¬ (isValidEmail asciiDigits "mary-ann@care.org" = some true ↔
      Grammar "mary-ann@care.org".toList) ∧
    ¬ (isValidEmail asciiDigits "a@b@care.org" = some true → "a@b@care.org".toList.count '@' = 1) := by
  constructor
  · intro h
    have hgrammar : Grammar "mary-ann@care.org".toList := by
      refine ⟨"mary-ann".toList, "care".toList, "org".toList, ⟨by decide, by decide, by decide, ?_, by decide,
        by decide, ?_⟩, ?_⟩
      · exact List.all_iff_forall_prop.1 (by decide)
      · exact List.all_iff_forall_prop.1 (by decide)
      · exact List.all_iff_forall_prop.1 (by decide)
    exact absurd (h.2 hgrammar) (by decide)
  · decide

end CareDirect.Accounts
