import Mathlib.Data.List.Basic
import Mathlib.Tactic.NormNum
import Scanout.Json.Parser

/-!
# Written numerals

A numeral is writable if its text is a number of a data text: every part consists of digits, and the
whole part has no zero in front of others. Such a text reads back as the numeral, in front of
whatever cannot belong to a number. The numeral of an integer is writable, and is the integer if
that fits a word of 64 bits.
-/

namespace Scanout.Json

variable {digits rest : List Char} {c : Char}

/-- What stands after a number does not go on with it. -/
def Stops (rest : List Char) : Prop :=
  ∀ c ∈ rest.head?, isDigit c = false ∧ c ≠ '.' ∧ c ≠ 'e' ∧ c ≠ 'E'

lemma Stops.nil : Stops [] := fun _ h => by cases h

lemma Stops.cons (hdigit : isDigit c = false) (hpoint : c ≠ '.') (he : c ≠ 'e') (hE : c ≠ 'E') :
    Stops (c :: rest) := by
  intro c' hc'
  cases hc'
  exact ⟨hdigit, hpoint, he, hE⟩

/-- A span ends where its characters do. -/
lemma takeWhile_span {p : Char → Bool} {body : List Char} (hbody : ∀ c ∈ body, p c = true)
    (hrest : ∀ c ∈ rest.head?, p c = false) : (body ++ rest).takeWhile p = body := by
  rw [List.takeWhile_append_of_pos hbody]
  cases rest with
  | nil => exact List.append_nil body
  | cons c rest => simp [hrest c rfl]

/-- A span ends where its characters do. -/
lemma dropWhile_span {p : Char → Bool} {body : List Char} (hbody : ∀ c ∈ body, p c = true)
    (hrest : ∀ c ∈ rest.head?, p c = false) : (body ++ rest).dropWhile p = rest := by
  rw [List.dropWhile_append_of_pos hbody]
  cases rest with
  | nil => rfl
  | cons c rest => simp [hrest c rfl]

lemma ne_of_isDigit {d : Char} (hc : isDigit c = true) (hd : isDigit d = false) : c ≠ d := by
  rintro rfl
  cases hc.symm.trans hd

/-- Digits are read up to the first character that is none. -/
lemma readDigits_append (hdigits : ∀ c ∈ digits, isDigit c = true) (hne : digits ≠ [])
    (hrest : ∀ c ∈ rest.head?, isDigit c = false) :
    readDigits (digits ++ rest) = some (digits, rest) := by
  rw [readDigits, takeWhile_span hdigits hrest, dropWhile_span hdigits hrest]
  simp [hne]

namespace Numeral

variable {n : Numeral} {i : Int} {m : Nat}

/-- The text of the numeral is a number. -/
structure Writable (n : Numeral) : Prop where
  whole : ∀ c ∈ n.whole, isDigit c = true
  whole_ne_nil : n.whole ≠ []
  length_whole : n.whole.head? = some '0' → n.whole.length = 1
  fraction : ∀ c ∈ n.fraction, isDigit c = true
  power : ∀ p ∈ n.exponent, (∀ c ∈ p.2, isDigit c = true) ∧ p.2 ≠ []

/-- Without a power of ten. -/
lemma Writable.plain {negative : Bool} {whole fraction : List Char}
    (hwhole : ∀ c ∈ whole, isDigit c = true) (hnil : whole ≠ [])
    (hlength : whole.head? = some '0' → whole.length = 1)
    (hfraction : ∀ c ∈ fraction, isDigit c = true) :
    (⟨negative, whole, fraction, none⟩ : Numeral).Writable where
  whole := hwhole
  whole_ne_nil := hnil
  length_whole := hlength
  fraction := hfraction
  power _ h := by cases h

/-- The fraction as a text. -/
def fractionText (n : Numeral) : List Char :=
  if n.fraction.isEmpty then [] else '.' :: n.fraction

/-- The power of ten as a text. -/
def powerText (n : Numeral) : List Char :=
  match n.exponent with
  | none => []
  | some (negative, digits) => 'e' :: (if negative then '-' else '+') :: digits

lemma text_eq : n.text = (if n.negative then ['-'] else []) ++
    (n.whole ++ (n.fractionText ++ n.powerText)) := by
  obtain ⟨negative, whole, fraction, exponent⟩ := n
  cases exponent <;> simp [text, fractionText, powerText]

namespace Writable

lemma readWhole (h : n.Writable) (hrest : ∀ c ∈ rest.head?, isDigit c = false) :
    readWhole (n.whole ++ rest) = some (n.whole, rest) := by
  simp only [Json.readWhole, readDigits_append h.whole h.whole_ne_nil hrest, bind, Option.bind]
  rw [if_neg fun hand => hand.2 (h.length_whole hand.1)]

lemma readFraction (h : n.Writable) (hrest : ∀ c ∈ rest.head?, isDigit c = false ∧ c ≠ '.') :
    readFraction (n.fractionText ++ rest) = some (n.fraction, rest) := by
  rw [fractionText]
  split
  · rename_i hempty
    rw [List.isEmpty_iff.mp hempty, List.nil_append]
    unfold Json.readFraction
    split
    · exact absurd rfl (hrest '.' rfl).2
    · rfl
  · rename_i hne
    rw [List.isEmpty_iff] at hne
    exact readDigits_append h.fraction hne fun c hc => (hrest c hc).1

lemma readExponent (h : n.Writable) (hrest : Stops rest) :
    readExponent (n.powerText ++ rest) = some (n.exponent, rest) := by
  rw [powerText]
  split
  · rename_i hnone
    rw [hnone, List.nil_append]
    cases rest with
    | nil => rfl
    | cons c rest =>
      obtain ⟨-, -, he, hE⟩ := hrest c rfl
      simp [Json.readExponent, he, hE]
  · rename_i negative digits hsome
    obtain ⟨hdigits, hne⟩ := h.power _ hsome
    have hread := readDigits_append hdigits hne fun c hc => (hrest c hc).1
    rw [hsome]
    cases negative <;> simp [Json.readExponent, hread]

/-- After the fraction there is a power of ten, or the end of the number. -/
lemma stops_powerText (hrest : Stops rest) :
    ∀ c ∈ (n.powerText ++ rest).head?, isDigit c = false ∧ c ≠ '.' := by
  intro c hc
  rw [powerText] at hc
  split at hc
  · exact ⟨(hrest c hc).1, (hrest c hc).2.1⟩
  · cases hc
    decide

/-- After the whole part there is no digit. -/
lemma stops_fractionText (hrest : Stops rest) :
    ∀ c ∈ (n.fractionText ++ (n.powerText ++ rest)).head?, isDigit c = false := by
  intro c hc
  rw [fractionText] at hc
  split at hc
  · exact (stops_powerText hrest c hc).1
  · cases hc
    decide

/-- The text of a numeral is a sign or a digit, and more. -/
lemma exists_text (h : n.Writable) :
    ∃ c s, n.text = c :: s ∧ (c = '-' ∨ isDigit c = true) := by
  rw [text_eq]
  cases n.negative with
  | true => exact ⟨'-', _, rfl, .inl rfl⟩
  | false =>
    obtain ⟨c, cs, hwhole⟩ := List.exists_cons_of_ne_nil h.whole_ne_nil
    refine ⟨c, cs ++ (n.fractionText ++ n.powerText), by rw [hwhole]; rfl, .inr ?_⟩
    exact h.whole c (hwhole ▸ List.mem_cons_self)

/-- The text of a numeral is read as the numeral. -/
lemma readNumeral (h : n.Writable) (hrest : Stops rest) :
    readNumeral (n.text ++ rest) = some (n, rest) := by
  have hwhole := h.readWhole (stops_fractionText (n := n) hrest)
  have hsign : Json.readNumeral (n.text ++ rest) =
      (Json.readWhole (n.whole ++ (n.fractionText ++ (n.powerText ++ rest)))).bind fun whole =>
        (Json.readFraction whole.2).bind fun fraction =>
          (Json.readExponent fraction.2).bind fun exponent =>
            some (⟨n.negative, whole.1, fraction.1, exponent.1⟩, exponent.2) := by
    rw [text_eq]
    cases n.negative with
    | true => simp [Json.readNumeral]
    | false =>
      obtain ⟨c, cs, hc⟩ := List.exists_cons_of_ne_nil h.whole_ne_nil
      have hminus : c ≠ '-' := ne_of_isDigit (h.whole c (hc ▸ List.mem_cons_self)) (by decide)
      simp [Json.readNumeral, hc, hminus]
  rw [hsign, hwhole]
  simp only [Option.bind_some, h.readFraction (stops_powerText hrest), h.readExponent hrest]

/-- The text of a numeral splits into its parts. -/
lemma numeralOfText_text (h : n.Writable) : numeralOfText n.text = n := by
  have hsign : n.text.head? = some '-' ↔ n.negative = true := by
    rw [text_eq]
    cases n.negative with
    | true => simp
    | false =>
      obtain ⟨c, cs, hc⟩ := List.exists_cons_of_ne_nil h.whole_ne_nil
      have hminus : c ≠ '-' := ne_of_isDigit (h.whole c (hc ▸ List.mem_cons_self)) (by decide)
      simp [hc, hminus]
  have hbody : (if n.negative then n.text.tail else n.text) =
      n.whole ++ n.fractionText ++ n.powerText := by
    rw [text_eq, List.append_assoc]
    cases n.negative <;> rfl
  have hmantissa : ∀ c ∈ n.whole ++ n.fractionText, decide (c ≠ 'e') = true := by
    intro c hc
    rw [decide_eq_true_eq]
    rcases List.mem_append.mp hc with hc | hc
    · exact ne_of_isDigit (h.whole c hc) (by decide)
    · rw [fractionText] at hc
      split at hc
      · cases hc
      · rcases List.mem_cons.mp hc with rfl | hc
        · decide
        · exact ne_of_isDigit (h.fraction c hc) (by decide)
  have hpower : ∀ c ∈ n.powerText.head?, decide (c ≠ 'e') = false := by
    intro c hc
    rw [powerText] at hc
    split at hc
    · cases hc
    · cases hc
      rfl
  have hwhole : ∀ c ∈ n.whole, decide (c ≠ '.') = true := by
    intro c hc
    rw [decide_eq_true_eq]
    exact ne_of_isDigit (h.whole c hc) (by decide)
  have hfraction : ∀ c ∈ n.fractionText.head?, decide (c ≠ '.') = false := by
    intro c hc
    rw [fractionText] at hc
    split at hc
    · cases hc
    · cases hc
      rfl
  have htail : n.fractionText.tail = n.fraction := by
    rw [fractionText]
    split
    · rename_i hempty
      rw [List.isEmpty_iff.mp hempty]
      rfl
    · rfl
  simp only [numeralOfText, hsign, hbody, takeWhile_span hmantissa hpower,
    dropWhile_span hmantissa hpower, takeWhile_span hwhole hfraction,
    dropWhile_span hwhole hfraction, htail]
  obtain ⟨negative, whole, fraction, exponent⟩ := n
  cases exponent with
  | none => simp [powerText]
  | some p =>
    obtain ⟨sign, digits⟩ := p
    cases sign <;> simp [powerText]

end Writable

/-- The digits of a number are collected to it. -/
lemma collect_eq {significand : Nat} (h : Nat.ofDigitChars 10 digits significand ≤ greatest) :
    collect significand digits = (Nat.ofDigitChars 10 digits significand, []) := by
  induction digits generalizing significand with
  | nil => rfl
  | cons c digits ih =>
    have hstep : Nat.ofDigitChars 10 (c :: digits) significand =
        Nat.ofDigitChars 10 digits (significand * 10 + digit c) := by
      rw [Nat.ofDigitChars_cons, Nat.mul_comm]
      rfl
    rw [hstep] at h ⊢
    have hle : significand * 10 + digit c ≤ greatest := by
      refine Nat.le_trans ?_ h
      rw [Nat.ofDigitChars_eq_ofDigitChars_zero]
      exact Nat.le_add_right_of_le (Nat.le_mul_of_pos_left _ (Nat.pow_pos (by decide)))
    rw [collect, if_pos hle]
    exact ih h

lemma isDigit_toDigits : ∀ c ∈ Nat.toDigits 10 m, isDigit c = true := by
  intro c hc
  have h := Nat.isDigit_of_mem_toDigits (by decide) (by decide) hc
  rw [Char.isDigit, Bool.and_eq_true, decide_eq_true_eq, decide_eq_true_eq] at h
  rw [isDigit, Bool.and_eq_true, decide_eq_true_eq, decide_eq_true_eq]
  exact h

/-- A number that is not zero has no zero in front. -/
lemma head?_toDigits (h : 0 < m) : (Nat.toDigits 10 m).head? ≠ some '0' := by
  induction m using Nat.strongRecOn with
  | ind m ih =>
    by_cases hlt : m < 10
    · have hdigit : ∀ m < 10, 0 < m → [m.digitChar].head? ≠ some '0' := by decide
      rw [Nat.toDigits_of_lt_base hlt]
      exact hdigit m hlt h
    · rw [Nat.toDigits_of_base_le (by decide) (Nat.not_lt.mp hlt),
        List.head?_append_of_ne_nil _ Nat.toDigits_ne_nil]
      exact ih (m / 10) (by omega) (by omega)

lemma Writable.ofInt : (ofInt i).Writable where
  whole := isDigit_toDigits
  whole_ne_nil := Nat.toDigits_ne_nil
  length_whole h := by
    have hzero : i.natAbs = 0 := by
      by_contra hne
      exact head?_toDigits (Nat.pos_of_ne_zero hne) h
    rw [Numeral.ofInt, hzero]
    rfl
  fraction := List.forall_mem_nil _
  power _ h := by cases h

/-- The numeral of an integer is that integer, if it fits a word of 64 bits. -/
lemma integer?_ofInt (hlo : -0x8000000000000000 ≤ i) (hhi : i ≤ greatest) :
    (ofInt i).integer? = some i := by
  have hdigits : Nat.ofDigitChars 10 (Nat.toDigits 10 i.natAbs) 0 = i.natAbs :=
    Nat.ofDigitChars_toDigits (by decide) (by decide)
  have hle : i.natAbs ≤ greatest := by
    rw [greatest] at hhi ⊢
    omega
  have hcollect : collect 0 (Nat.toDigits 10 i.natAbs) = (i.natAbs, []) := by
    rw [collect_eq (hdigits.symm ▸ hle), hdigits]
  simp only [integer?, ofInt, hcollect, isWhole, List.isEmpty_nil, Option.isNone_none,
    Bool.and_self, Bool.not_true, Bool.or_self, Bool.false_eq_true, if_false]
  by_cases hneg : i < 0
  · rw [decide_eq_true hneg, if_neg (by decide), if_pos ⟨by omega, by omega⟩]
    exact congrArg some (by omega)
  · rw [decide_eq_false hneg, Bool.not_false, if_pos rfl]
    exact congrArg some (by omega)

end Numeral

end Scanout.Json
