import Scanout.Proofs.Json.Records

/-!
# Numbers in texts

A finite number is written as its shortest decimal. That decimal is a writable numeral as soon as it
reads back at all: its digits are not zero unless none were found, and zero does not read back as
another number.
-/

namespace Scanout

open Binary

namespace Decimal

variable {f : Format} {tie : Tie} {m count fuel : Nat} {e : Int} {d : Decimal}

/-- Zero rounds to no other number. -/
lemma roundsTo_of_digits_eq_zero (hm : m ≠ 0) (hd : d.digits = 0) : roundsTo f m e d = false := by
  have hlow : 0 < (roundingInterval f m e).1 := by
    simp only [roundingInterval]
    split <;> omega
  have hscaled : 0 < (Format.scaled 1 1 (e - 2)).1 := by
    rw [Format.scaled]
    split
    · exact Nat.mul_pos Nat.one_pos (Nat.pow_pos Nat.two_pos)
    · exact Nat.one_pos
  have hnum : d.quotient.1 = 0 := by
    rw [quotient, hd]
    split <;> simp
  have hden : 0 < d.quotient.2 := by
    rw [quotient]
    split
    · exact Nat.one_pos
    · exact Nat.pow_pos (by decide)
  have hpos := Nat.mul_pos (Nat.mul_pos hlow hscaled) hden
  have heq : roundsTo f m e d =
      if (roundingInterval f m e).2.2 then
        (roundingInterval f m e).1 * (Format.scaled 1 1 (e - 2)).1 * d.quotient.2 ≤
            d.quotient.1 * (Format.scaled 1 1 (e - 2)).2 &&
          d.quotient.1 * (Format.scaled 1 1 (e - 2)).2 ≤
            (roundingInterval f m e).2.1 * (Format.scaled 1 1 (e - 2)).1 * d.quotient.2
      else
        (roundingInterval f m e).1 * (Format.scaled 1 1 (e - 2)).1 * d.quotient.2 <
            d.quotient.1 * (Format.scaled 1 1 (e - 2)).2 &&
          d.quotient.1 * (Format.scaled 1 1 (e - 2)).2 <
            (roundingInterval f m e).2.1 * (Format.scaled 1 1 (e - 2)).1 * d.quotient.2 :=
    rfl
  rw [heq, hnum, Nat.zero_mul]
  split
  · rw [decide_eq_false (Nat.not_le.mpr hpos), Bool.false_and]
  · rw [decide_eq_false (Nat.not_lt_zero _), Bool.false_and]

lemma roundsTo_of_ofCount? (h : ofCount? f tie m e count = some d) : roundsTo f m e d = true := by
  have hfirst : ∀ (p : Decimal → Bool) a b,
      (if p a then some a else if p b then some b else none) = some d → p d = true := by
    intro p a b h
    split at h
    · cases h
      assumption
    · split at h
      · cases h
        assumption
      · cases h
  exact hfirst (roundsTo f m e) _ _ h

lemma digits_trim_pos (h : 0 < d.digits) : 0 < (d.trim fuel).digits := by
  induction fuel generalizing d with
  | zero => exact h
  | succ fuel ih =>
    rw [trim]
    split
    · exact ih (by dsimp only; omega)
    · exact h

/-- The shortest decimal is not zero, unless there is none among those with few digits. -/
lemma digits_shortest (hm : m ≠ 0) :
    0 < (shortest binary32 tie m e).digits ∨ shortest binary32 tie m e = ⟨0, 9⟩ := by
  rw [shortest]
  cases hfind : (List.range (enoughDigits binary32)).findSome? fun n =>
      ofCount? binary32 tie m e (n + 1) with
  | none => exact .inr rfl
  | some d =>
    obtain ⟨n, -, hcount⟩ := List.exists_of_findSome?_eq_some hfind
    refine .inl (digits_trim_pos (Nat.pos_of_ne_zero fun hd => ?_))
    cases (roundsTo_of_ofCount? hcount).symm.trans (roundsTo_of_digits_eq_zero hm hd)

lemma isDigit_digitsOf {n : Nat} : ∀ c ∈ digitsOf n, Json.isDigit c = true :=
  Json.Numeral.isDigit_toDigits

lemma isDigit_zeros {i : Int} : ∀ c ∈ zeros i, Json.isDigit c = true := by
  intro c hc
  rw [List.eq_of_mem_replicate hc]
  rfl

section Numerals

variable {first : Char} {others : List Char}

lemma exists_numeral_inFull (negative : Bool) (place : Int)
    (hdigits : ∀ c ∈ first :: others, Json.isDigit c = true) (hfirst : first ≠ '0') :
    ∃ n : Json.Numeral, n.Writable ∧
      n.text = signText negative ++ inFull (first :: others) place true := by
  rw [inFull]
  split
  · refine ⟨⟨negative, ['0'], zeros (-place) ++ first :: others, none⟩,
      .plain ?_ (List.cons_ne_nil _ _) (fun _ => rfl) ?_, ?_⟩
    · intro c hc
      rw [List.mem_singleton.mp hc]
      rfl
    · intro c hc
      rcases List.mem_append.mp hc with hc | hc
      · exact isDigit_zeros c hc
      · exact hdigits c hc
    · simp [Json.Numeral.text, signText]
  · rename_i hplace
    obtain ⟨k, hk⟩ : ∃ k, place.toNat = k + 1 := ⟨place.toNat - 1, by omega⟩
    have hwhole : ∀ c ∈ (first :: others).take place.toNat ++
        zeros (place - (first :: others).length), Json.isDigit c = true := by
      intro c hc
      rcases List.mem_append.mp hc with hc | hc
      · exact hdigits c (List.mem_of_mem_take hc)
      · exact isDigit_zeros c hc
    have hfraction : ∀ c ∈ (first :: others).drop place.toNat, Json.isDigit c = true :=
      fun c hc => hdigits c (List.mem_of_mem_drop hc)
    rw [hk, List.take_succ_cons, List.cons_append] at hwhole
    have hhead : some first = some '0' → (first :: (others.take k ++
        zeros (place - (first :: others).length))).length = 1 :=
      fun h => absurd (Option.some.inj h) hfirst
    simp only [hk, List.take_succ_cons, List.drop_succ_cons, List.cons_append, if_true]
      at hfraction ⊢
    split
    · refine ⟨⟨negative, _, ['0'], none⟩, .plain hwhole (List.cons_ne_nil _ _) hhead ?_, ?_⟩
      · intro c hc
        rw [List.mem_singleton.mp hc]
        rfl
      · simp [Json.Numeral.text, signText]
    · rename_i hne
      refine ⟨⟨negative, _, others.drop k, none⟩, 
        .plain hwhole (List.cons_ne_nil _ _) hhead hfraction, ?_⟩
      simp [Json.Numeral.text, signText, hne]

lemma exists_numeral_withPower (negative : Bool) (place : Int)
    (hdigits : ∀ c ∈ first :: others, Json.isDigit c = true) :
    ∃ n : Json.Numeral, n.Writable ∧
      n.text = signText negative ++ withPower (first :: others) place true := by
  refine ⟨⟨negative, [first], others, some (decide (place - 1 < 0), digitsOf (place - 1).natAbs)⟩,
    ⟨?_, List.cons_ne_nil _ _, fun _ => rfl, ?_, ?_⟩, ?_⟩
  · intro c hc
    exact hdigits c (List.mem_singleton.mp hc ▸ List.mem_cons_self)
  · exact fun c hc => hdigits c (List.mem_cons_of_mem first hc)
  · rintro p ⟨⟩
    exact ⟨isDigit_digitsOf, Nat.toDigits_ne_nil⟩
  · cases others <;> by_cases hneg : place - 1 < 0 <;>
      simp [Json.Numeral.text, withPower, powerText, signText, hneg]

end Numerals

/-- A decimal is written as a writable numeral. -/
lemma exists_numeral (negative : Bool) (h : 0 < d.digits) :
    ∃ n : Json.Numeral, n.Writable ∧ n.text = signText negative ++ d.write data := by
  obtain ⟨first, others, hdigits⟩ := List.exists_cons_of_ne_nil
    (Nat.toDigits_ne_nil : Nat.toDigits 10 d.digits ≠ [])
  have hfirst : first ≠ '0' := by
    rintro rfl
    have hhead := Json.Numeral.head?_toDigits h
    rw [hdigits] at hhead
    exact hhead rfl
  have hall : ∀ c ∈ first :: others, Json.isDigit c = true := hdigits ▸ isDigit_digitsOf
  simp only [Decimal.write, digitsOf, hdigits]
  split
  · exact exists_numeral_inFull negative _ hall hfirst
  · exact exists_numeral_withPower negative _ hall

end Decimal

namespace Single

variable {x : Single} {xs ys : List Single} {α β : Type} {a : α}

/-- The text that is written for the number is read as the number. -/
def ReadsBack (x : Single) : Prop :=
  (Json.parse? (Json.ofSingle x).compact).bind Json.single? = some x

instance : DecidablePred ReadsBack := fun _ => inferInstanceAs (Decidable (_ = _))

/-- Without digits the text of a number is none. -/
lemma not_readsBack_of_text {negative : Bool} (hfinite : x.isFinite = true)
    (h : x.text Decimal.data = Decimal.signText negative ++ (⟨0, 9⟩ : Decimal).write Decimal.data) :
    ¬ x.ReadsBack := by
  have hnone : ∀ negative, Json.parse? (Json.number (Json.numeralOfText
      (Decimal.signText negative ++ (⟨0, 9⟩ : Decimal).write Decimal.data))).compact = none := by
    decide
  rw [ReadsBack, Json.ofSingle, if_pos hfinite, h, hnone]
  intro hread
  cases hread

/-- A number that reads back, if it is finite, is written as a writable value. -/
lemma writable_ofSingle (h : x.isFinite = true → x.ReadsBack) : (Json.ofSingle x).Writable := by
  by_cases hfinite : x.isFinite = true
  · have hnumeral : ∀ n : Json.Numeral, n.Writable → n.text = x.text Decimal.data →
        (Json.ofSingle x).Writable := by
      intro n hn htext
      rw [Json.ofSingle, if_pos hfinite, ← htext, hn.numeralOfText_text]
      exact .number hn
    have hvalue : ∃ negative m e, x.value = .finite negative m e := by
      rw [isFinite] at hfinite
      cases hx : x.value with
      | finite negative m e => exact ⟨negative, m, e, rfl⟩
      | nan => simp [hx] at hfinite
      | infinite negative => simp [hx] at hfinite
    obtain ⟨negative, m, e, hx⟩ := hvalue
    have htext : x.text Decimal.data =
        Decimal.signText negative ++ Decimal.magnitudeText binary32 Decimal.data m e := by
      rw [text, hx]
      rfl
    by_cases hm : m = 0
    · rw [Decimal.magnitudeText, if_pos hm] at htext
      refine hnumeral ⟨negative, ['0'], ['0'], none⟩
        (.plain ?_ (List.cons_ne_nil _ _) (fun _ => rfl) ?_) ?_
      · exact fun c hc => List.mem_singleton.mp hc ▸ rfl
      · exact fun c hc => List.mem_singleton.mp hc ▸ rfl
      · rw [htext]
        cases negative <;> rfl
    · rw [Decimal.magnitudeText, if_neg hm] at htext
      rcases Decimal.digits_shortest hm with hpos | hnone
      · obtain ⟨n, hn, hntext⟩ := Decimal.exists_numeral negative hpos
        exact hnumeral n hn (hntext.trans htext.symm)
      · rw [hnone] at htext
        exact absurd (h hfinite) (not_readsBack_of_text hfinite htext)
  · rw [Json.ofSingle, if_neg hfinite]
    exact .null

/-- The value, if all of the numbers are finite. -/
def whenFinite (xs : List Single) (a : α) : Option α :=
  if ∀ x ∈ xs, x.isFinite = true then some a else none

lemma whenFinite_bind_of_eq {f : α → Option β} {b : β} (h : f a = some b) :
    (whenFinite xs a).bind f = whenFinite xs b := by
  rw [whenFinite, whenFinite]
  split
  · exact h
  · rfl

@[simp] lemma whenFinite_bind {f : α → β} :
    (whenFinite xs a).bind (fun a => some (f a)) = whenFinite xs (f a) :=
  whenFinite_bind_of_eq rfl

/-- What depends on more numbers depends on all of them. -/
@[simp] lemma whenFinite_bind_whenFinite {f : α → β} :
    (whenFinite xs a).bind (fun a => whenFinite ys (f a)) = whenFinite (xs ++ ys) (f a) := by
  simp only [whenFinite, List.forall_mem_append]
  by_cases hxs : ∀ x ∈ xs, x.isFinite = true
  · rw [if_pos hxs, Option.bind_some, if_congr (and_iff_right hxs) rfl rfl]
  · rw [if_neg hxs, Option.bind_none, if_neg fun hand => hxs hand.1]

/-- A number that reads back, if it is finite, is read exactly if it is. -/
lemma single?_ofSingle (h : x.isFinite = true → x.ReadsBack) :
    (Json.ofSingle x).single? = whenFinite [x] x := by
  rw [whenFinite, if_congr List.forall_mem_singleton rfl rfl]
  by_cases hfinite : x.isFinite = true
  · have hread := h hfinite
    rw [ReadsBack, (writable_ofSingle h).parse?_compact, Option.bind_some] at hread
    rw [hread, if_pos hfinite]
  · rw [Json.ofSingle, if_neg hfinite, if_neg hfinite]
    rfl

end Single

namespace Json

open Single

variable {α : Type} {read : Json → Option α} {write : α → Json}

/-- The elements read back exactly if all of their numbers are finite. -/
lemma list?_map_whenFinite (singles : α → List Single) {xs : List α}
    (h : ∀ x ∈ xs, read (write x) = whenFinite (singles x) x) :
    list? read (.array (xs.map write)) = whenFinite (xs.flatMap singles) xs := by
  induction xs with
  | nil => rfl
  | cons x xs ih =>
    have hrest := ih fun y hy => h y (List.mem_cons_of_mem x hy)
    rw [list?] at hrest ⊢
    rw [List.map_cons, List.mapM_cons, h x List.mem_cons_self, hrest, List.flatMap_cons]
    show (whenFinite (singles x) x).bind (fun y =>
      (whenFinite (xs.flatMap singles) xs).bind fun ys => some (y :: ys)) = _
    simp

end Json

end Scanout
