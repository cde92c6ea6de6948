import EventForge.Text.Numeral

/-!
# What numerals stand for

A text is read as a numeral exactly when it is an optional plus sign in front of one or more ASCII
digits whose value is within the bound (`numeral?_eq_some_iff`). The decimal text of a number holds
its digits (`toList_decimal`), so it is a numeral for that number.
-/

namespace EventForge.Text

variable {n acc bound : Nat} {cs : List Char}

theorem digit?_eq_some_iff {c : Char} {d : Nat} :
    digit? c = some d ↔ c.isDigit ∧ d = c.toNat - '0'.toNat := by
  have hdigit : c.isDigit ↔ '0' ≤ c ∧ c ≤ '9' := by
    simp [Char.isDigit, Char.le_def]
  rw [digit?, hdigit]
  split
  · next h => simp [h, eq_comm]
  · next h => simp [h]

/-- A sequence is read when it holds digits only, each a tenth of the one in front of it. -/
theorem digitsValue?_eq_some_iff :
    digitsValue? acc cs = some n ↔ (∀ c ∈ cs, c.isDigit) ∧ Nat.ofDigitChars 10 cs acc = n := by
  induction cs generalizing acc with
  | nil => simp [digitsValue?]
  | cons c cs ih =>
    simp only [digitsValue?, Option.bind_eq_some_iff, digit?_eq_some_iff, ih, List.forall_mem_cons,
      Nat.ofDigitChars_cons, Nat.mul_comm 10]
    constructor
    · rintro ⟨d, ⟨hc, rfl⟩, hcs, hn⟩
      exact ⟨⟨hc, hcs⟩, hn⟩
    · rintro ⟨⟨hc, hcs⟩, hn⟩
      exact ⟨_, ⟨hc, rfl⟩, hcs, hn⟩

/-- A numeral for a number: an optional plus sign, then one or more ASCII digits with that value. -/
def SpellsNumber (n : Nat) (cs : List Char) : Prop :=
  ∃ digits, (cs = digits ∨ cs = '+' :: digits) ∧ digits ≠ [] ∧ (∀ c ∈ digits, c.isDigit) ∧
    Nat.ofDigitChars 10 digits 0 = n

theorem numeral?_eq_some_iff : numeral? bound cs = some n ↔ SpellsNumber n cs ∧ n ≤ bound := by
  have hread : ∀ digits : List Char,
      (if digits = [] then none else (digitsValue? 0 digits).filter (· ≤ bound)) = some n ↔
        (digits ≠ [] ∧ (∀ c ∈ digits, c.isDigit) ∧ Nat.ofDigitChars 10 digits 0 = n) ∧
          n ≤ bound := by
    intro digits
    by_cases hnil : digits = []
    · simp [hnil]
    · simp [hnil, Option.filter_eq_some_iff, digitsValue?_eq_some_iff]
  rw [numeral?.eq_def]
  dsimp only
  split <;> rw [hread]
  · next rest =>
    constructor
    · rintro ⟨h, hn⟩
      exact ⟨⟨rest, .inr rfl, h⟩, hn⟩
    · rintro ⟨⟨digits, rfl | heq, h⟩, hn⟩
      · exact absurd (h.2.1 '+' (by simp)) (by decide)
      · exact ⟨(List.cons.inj heq).2 ▸ h, hn⟩
  · next hplus =>
    constructor
    · rintro ⟨h, hn⟩
      exact ⟨⟨cs, .inl rfl, h⟩, hn⟩
    · rintro ⟨⟨digits, rfl | heq, h⟩, hn⟩
      · exact ⟨h, hn⟩
      · exact absurd heq (hplus digits)

/-- A numeral holds nothing but digits and its sign. -/
theorem SpellsNumber.not_mem {c : Char} (h : SpellsNumber n cs) (hdigit : ¬ c.isDigit)
    (hplus : c ≠ '+') : c ∉ cs := by
  obtain ⟨digits, rfl | rfl, -, hdigits, -⟩ := h
  · exact fun hc => hdigit (hdigits c hc)
  · rw [List.mem_cons, not_or]
    exact ⟨hplus, fun hc => hdigit (hdigits c hc)⟩

theorem digitsOnto_eq (n : Nat) (rest : List Char) :
    digitsOnto n rest = Nat.toDigits 10 n ++ rest := by
  induction n using Nat.strongRecOn generalizing rest with
  | ind n ih =>
    have hchar : ∀ d < 10, Char.ofNat ('0'.toNat + d) = Nat.digitChar d := by decide
    rw [digitsOnto, Nat.toDigits_eq_if (by decide), hchar _ (Nat.mod_lt n (by decide))]
    split
    · next hn => rw [Nat.mod_eq_of_lt hn, List.singleton_append]
    · next hn => rw [ih _ (by omega), List.append_assoc, List.singleton_append]

theorem toList_decimal (n : Nat) : (decimal n).toList = Nat.toDigits 10 n := by
  rw [decimal, String.toList_ofList, digitsOnto_eq, List.append_nil]

theorem spellsNumber_decimal (n : Nat) : SpellsNumber n (decimal n).toList := by
  rw [toList_decimal]
  exact ⟨_, .inl rfl, Nat.toDigits_ne_nil,
    fun c hc => Nat.isDigit_of_mem_toDigits (by decide) (by decide) hc,
    Nat.ofDigitChars_ten_toDigits⟩

end EventForge.Text
