import Scanout.Proofs.Json.Numerals

/-!
# Written values

A value whose numerals are writable and whose string literals denote texts is read back from the
text that it is written as, whatever blanks the breaks put between its parts. Each lemma on the
reading functions says what they do once the first character is known.
-/

namespace Scanout.Json

variable {blanks rest s : List Char} {c : Char} {fuel depth : Nat} {breaks : Breaks} {j : Json}

section Blanks

lemma skipBlanks_cons (h : isBlank c = false) : skipBlanks (c :: s) = c :: s := by
  rw [skipBlanks, List.dropWhile_cons_of_neg]
  simp [h]

lemma skipBlanks_blanks (h : ∀ c ∈ blanks, isBlank c = true) :
    skipBlanks (blanks ++ s) = skipBlanks s :=
  List.dropWhile_append_of_pos h

lemma readValue_blanks (h : ∀ c ∈ blanks, isBlank c = true) :
    readValue fuel (blanks ++ s) = readValue fuel s := by
  cases fuel with
  | zero => rw [readValue, readValue]
  | succ fuel => rw [readValue, readValue, skipBlanks_blanks h]

lemma readMembers_blanks (h : ∀ c ∈ blanks, isBlank c = true) :
    readMembers fuel (blanks ++ s) = readMembers fuel s := by
  cases fuel with
  | zero => rw [readMembers, readMembers]
  | succ fuel => rw [readMembers, readMembers, skipBlanks_blanks h]

lemma readElements_blanks (h : ∀ c ∈ blanks, isBlank c = true) :
    readElements fuel (blanks ++ s) = readElements fuel s := by
  cases fuel with
  | zero => rw [readElements, readElements]
  | succ fuel => rw [readElements, readElements, readValue_blanks h]

lemma stops_of_isBlank (h : isBlank c = true) : Stops (c :: s) := by
  simp only [isBlank, Bool.or_eq_true, decide_eq_true_eq] at h
  rcases h with ((rfl | rfl) | rfl) | rfl <;>
    exact .cons (by decide) (by decide) (by decide) (by decide)

/-- Blanks in front of what stops a number stop it too. -/
lemma Stops.after_blanks (h : Stops s) (hblanks : ∀ c ∈ blanks, isBlank c = true) :
    Stops (blanks ++ s) := by
  cases blanks with
  | nil => exact h
  | cons c blanks => exact stops_of_isBlank (hblanks c List.mem_cons_self)

/-- The breaks put only blanks between the parts of a value. -/
structure Breaks.Blank (breaks : Breaks) : Prop where
  newline : ∀ depth, ∀ c ∈ breaks.newline depth, isBlank c = true
  colon : ∃ blanks, breaks.colon = ':' :: blanks ∧ ∀ c ∈ blanks, isBlank c = true

lemma Breaks.Blank.none : Breaks.none.Blank where
  newline _ := List.forall_mem_nil _
  colon := ⟨[], rfl, List.forall_mem_nil _⟩

lemma Breaks.Blank.indented : Breaks.indented.Blank where
  newline depth c hc := by
    rcases List.mem_cons.mp hc with rfl | hc
    · rfl
    · rw [List.eq_of_mem_replicate hc]
      rfl
  colon := ⟨[' '], rfl, fun _ hc => List.mem_singleton.mp hc ▸ rfl⟩

end Blanks

section Literals

lemma hexValue?_hexDigit {n : Nat} (h : n < 16) : hexValue? (hexDigit n) = some n := by
  have hall : ∀ n < 16, hexValue? (hexDigit n) = some n := by decide
  exact hall n h

/-- A code unit below the surrogates is a character. -/
lemma joinPieces_unit {u : Nat} {ps : List Piece} (h : u < 0xD800) :
    joinPieces (.unit u :: ps) = (joinPieces ps).map (Char.ofNat u :: ·) := by
  have hhigh : ¬ (0xD800 ≤ u ∧ u < 0xDC00) := by omega
  have hlow : ¬ (0xDC00 ≤ u ∧ u < 0xE000) := by omega
  rw [joinPieces.eq_def]
  simp only [if_neg hhigh, if_neg hlow]

/-- A character reads back from its escape as one piece. -/
lemma exists_piece (c : Char) : ∃ piece,
    (∀ s, readPieces (escape c ++ s) = (readPieces s).map fun (ps, rest) => (piece :: ps, rest)) ∧
      ∀ ps, joinPieces (piece :: ps) = (joinPieces ps).map (c :: ·) := by
  by_cases hletter : c ∈ ['"', '\\', '\x08', '\x0c', '\n', '\r', '\t']
  · refine ⟨.char c, fun s => ?_, fun ps => rfl⟩
    simp only [List.mem_cons, List.not_mem_nil, or_false] at hletter
    rcases hletter with rfl | rfl | rfl | rfl | rfl | rfl | rfl <;>
      simp [escape, readPieces, escaped?, Option.map_eq_bind]
  · simp only [List.mem_cons, List.not_mem_nil, or_false, not_or] at hletter
    obtain ⟨hquote, hslash, hb, hf, hn, hr, ht⟩ := hletter
    by_cases hcontrol : c.toNat < 0x20
    · have hhigh : hexValue? (hexDigit (c.toNat / 16)) = some (c.toNat / 16) :=
        hexValue?_hexDigit (by omega)
      have hlow : hexValue? (hexDigit (c.toNat % 16)) = some (c.toNat % 16) :=
        hexValue?_hexDigit (by omega)
      have hzero : hexValue? '0' = some 0 := rfl
      refine ⟨.unit c.toNat, fun s => ?_, fun ps => ?_⟩
      · simp [escape, hquote, hslash, hb, hf, hn, hr, ht, hcontrol, readPieces, hzero, hhigh, hlow,
          Nat.div_add_mod', Option.map_eq_bind]
      · rw [joinPieces_unit (by omega), Char.ofNat_toNat]
    · refine ⟨.char c, fun s => ?_, fun ps => rfl⟩
      simp [escape, hquote, hslash, hb, hf, hn, hr, ht, hcontrol, readPieces,
        Option.map_eq_bind]

/-- The characters of a literal read back up to its closing quote. -/
lemma readPieces_escape (cs rest : List Char) : ∃ pieces,
    readPieces (cs.flatMap escape ++ '"' :: rest) = some (pieces, rest) ∧
      joinPieces pieces = some cs := by
  induction cs with
  | nil => exact ⟨[], by simp [readPieces], rfl⟩
  | cons c cs ih =>
    obtain ⟨pieces, hread, hjoin⟩ := ih
    obtain ⟨piece, hpiece, hchar⟩ := exists_piece c
    refine ⟨piece :: pieces, ?_, ?_⟩
    · rw [List.flatMap_cons, List.append_assoc, hpiece, hread]
      rfl
    · rw [hchar, hjoin]
      rfl

lemma readLiteral_escape (text : String) :
    readLiteral (text.toList.flatMap escape ++ '"' :: rest) = some (some text, rest) := by
  obtain ⟨pieces, hread, hjoin⟩ := readPieces_escape text.toList rest
  simp only [readLiteral, hread, Option.map_some, hjoin, String.ofList_toList]

end Literals

section Dispatch

variable {x : Json} {xs : List Json} {name : Literal} {ms : List (Literal × Json)}

lemma readValue_array (h : skipBlanks s = c :: rest) (hc : c ≠ ']') :
    readValue (fuel + 1) ('[' :: s) =
      (readElements fuel (c :: rest)).map fun (xs, rest) => (.array xs, rest) := by
  simp [readValue, skipBlanks_cons (c := '[') rfl, h, hc]

lemma readValue_object (h : skipBlanks s = c :: rest) (hc : c ≠ '\x7d') :
    readValue (fuel + 1) ('\x7b' :: s) =
      (readMembers fuel (c :: rest)).map fun (ms, rest) => (.object ms, rest) := by
  simp [readValue, skipBlanks_cons (c := '\x7b') rfl, h, hc]

lemma readValue_literal :
    readValue (fuel + 1) ('"' :: s) = (readLiteral s).map fun (l, rest) => (.string l, rest) := by
  simp [readValue, skipBlanks_cons (c := '"') rfl]

/-- The first character of a numeral is no other than a sign or a digit. -/
lemma ne_of_sign_or_digit {d : Char} (h : c = '-' ∨ isDigit c = true) (hdigit : isDigit d = false)
    (hminus : d ≠ '-') : c ≠ d := by
  rintro rfl
  rcases h with rfl | h
  · exact hminus rfl
  · cases h.symm.trans hdigit

lemma isBlank_of_sign_or_digit (h : c = '-' ∨ isDigit c = true) : isBlank c = false := by
  have hne : ∀ d, isDigit d = false → d ≠ '-' → c ≠ d := fun d => ne_of_sign_or_digit h
  simp only [isBlank, Bool.or_eq_false_iff, decide_eq_false_iff_not]
  exact ⟨⟨⟨hne _ rfl (by decide), hne _ rfl (by decide)⟩, hne _ rfl (by decide)⟩,
    hne _ rfl (by decide)⟩

lemma readValue_numeral (h : c = '-' ∨ isDigit c = true) :
    readValue (fuel + 1) (c :: s) =
      (readNumeral (c :: s)).map fun (n, rest) => (.number n, rest) := by
  have hne : ∀ d, isDigit d = false → d ≠ '-' → c ≠ d := fun d => ne_of_sign_or_digit h
  rw [readValue, skipBlanks_cons (isBlank_of_sign_or_digit h)]
  split <;> rename_i heq
  · exact absurd (List.cons.inj heq).1 (hne _ rfl (by decide))
  · exact absurd (List.cons.inj heq).1 (hne _ rfl (by decide))
  · exact absurd (List.cons.inj heq).1 (hne _ rfl (by decide))
  · exact absurd (List.cons.inj heq).1 (hne _ rfl (by decide))
  · exact absurd (List.cons.inj heq).1 (hne _ rfl (by decide))
  · exact absurd (List.cons.inj heq).1 (hne _ rfl (by decide))
  · rfl

lemma readElements_last (hx : readValue fuel s = some (x, blanks ++ ']' :: rest))
    (hblanks : ∀ c ∈ blanks, isBlank c = true) :
    readElements (fuel + 1) s = some ([x], rest) := by
  simp [readElements, hx, skipBlanks_blanks hblanks, skipBlanks_cons (c := ']') rfl]

lemma readElements_cons (hx : readValue fuel s = some (x, ',' :: rest)) :
    readElements (fuel + 1) s =
      (readElements fuel rest).map fun (xs, rest) => (x :: xs, rest) := by
  simp [readElements, hx, skipBlanks_cons (c := ',') rfl, Option.map_eq_bind]

lemma readMembers_last (hname : readLiteral s = some (name, ':' :: rest))
    {rest' : List Char} (hx : readValue fuel rest = some (x, blanks ++ '\x7d' :: rest'))
    (hblanks : ∀ c ∈ blanks, isBlank c = true) :
    readMembers (fuel + 1) ('"' :: s) = some ([(name, x)], rest') := by
  simp [readMembers, hname, hx, skipBlanks_blanks hblanks, skipBlanks_cons (c := '\x7d') rfl,
    skipBlanks_cons (c := '"') rfl, skipBlanks_cons (c := ':') rfl]

lemma readMembers_cons (hname : readLiteral s = some (name, ':' :: rest))
    {rest' : List Char} (hx : readValue fuel rest = some (x, ',' :: rest')) :
    readMembers (fuel + 1) ('"' :: s) =
      (readMembers fuel rest').map fun (ms, rest) => ((name, x) :: ms, rest) := by
  simp [readMembers, hname, hx, skipBlanks_cons (c := ',') rfl, skipBlanks_cons (c := '"') rfl,
    skipBlanks_cons (c := ':') rfl, Option.map_eq_bind]

end Dispatch

/-- Numerals are writable, and string literals denote texts. -/
inductive Writable : Json → Prop where
  | null : Writable .null
  | bool (b : Bool) : Writable (.bool b)
  | number {n : Numeral} (h : n.Writable) : Writable (.number n)
  | string (text : String) : Writable (.string (some text))
  | array {xs : List Json} (h : ∀ x ∈ xs, Writable x) : Writable (.array xs)
  | object {ms : List (Literal × Json)} (hnames : ∀ m ∈ ms, m.1.isSome = true)
      (hvalues : ∀ m ∈ ms, Writable m.2) : Writable (.object ms)

/-- A written value starts with a character that is no blank and closes nothing. -/
lemma Writable.exists_write (h : j.Writable) (breaks : Breaks) (depth : Nat) :
    ∃ c s, j.write breaks depth = c :: s ∧
    isBlank c = false ∧ c ≠ ']' ∧ c ≠ '\x7d' := by
  cases h with
  | null => exact ⟨'n', _, rfl, by decide⟩
  | bool b =>
    cases b with
    | true => exact ⟨'t', _, rfl, by decide⟩
    | false => exact ⟨'f', _, rfl, by decide⟩
  | number h =>
    obtain ⟨c, s, htext, hc⟩ := h.exists_text
    exact ⟨c, s, htext, isBlank_of_sign_or_digit hc, ne_of_sign_or_digit hc rfl (by decide),
      ne_of_sign_or_digit hc rfl (by decide)⟩
  | string text => exact ⟨'"', _, rfl, by decide⟩
  | @array xs h =>
    cases xs with
    | nil => exact ⟨'[', _, rfl, by decide⟩
    | cons x xs => exact ⟨'[', _, rfl, by decide⟩
  | @object ms hnames hvalues =>
    cases ms with
    | nil => exact ⟨'\x7b', _, rfl, by decide⟩
    | cons m ms => exact ⟨'\x7b', _, rfl, by decide⟩

/-- Wherever the value is written, and whatever stops it, it is read back. -/
def Legible (breaks : Breaks) (j : Json) : Prop :=
  ∀ fuel depth rest, (j.write breaks depth).length < fuel → Stops rest →
    readValue fuel (j.write breaks depth ++ rest) = some (j, rest)

namespace Legible

variable {x : Json} {xs : List Json} {m : Literal × Json} {ms : List (Literal × Json)}

/-- Elements are read back up to the closing bracket. -/
lemma readElements (fuel depth : Nat) (rest : List Char) (hbreaks : breaks.Blank)
    (hx : ∀ y ∈ x :: xs, Legible breaks y)
    (hfuel : (x.write breaks depth ++ writeElements breaks depth xs).length + 1 < fuel)
    (hblanks : ∀ c ∈ blanks, isBlank c = true) :
    Json.readElements fuel (x.write breaks depth ++
      (writeElements breaks depth xs ++ (blanks ++ ']' :: rest))) = some (x :: xs, rest) := by
  induction xs generalizing x fuel with
  | nil =>
    obtain ⟨fuel, rfl⟩ := Nat.exists_eq_add_one_of_ne_zero (Nat.ne_zero_of_lt hfuel)
    rw [writeElements, List.append_nil] at hfuel
    have hstops : Stops (blanks ++ ']' :: rest) :=
      (Stops.cons (by decide) (by decide) (by decide) (by decide)).after_blanks hblanks
    have hread := hx x List.mem_cons_self fuel depth _ (by omega) hstops
    rw [writeElements, List.nil_append]
    exact readElements_last hread hblanks
  | cons y ys ih =>
    obtain ⟨fuel, rfl⟩ := Nat.exists_eq_add_one_of_ne_zero (Nat.ne_zero_of_lt hfuel)
    rw [writeElements] at hfuel ⊢
    simp only [List.cons_append, List.append_assoc, List.length_append, List.length_cons] at hfuel ⊢
    have hread := hx x List.mem_cons_self fuel depth
      (',' :: (breaks.newline depth ++ (y.write breaks depth ++
        (writeElements breaks depth ys ++ (blanks ++ ']' :: rest)))))
      (by omega) (.cons (by decide) (by decide) (by decide) (by decide))
    have hrest := ih fuel (fun z hz => hx z (List.mem_cons_of_mem x hz))
      (by rw [List.length_append]; omega)
    rw [readElements_cons hread, readElements_blanks (hbreaks.newline depth), hrest]
    rfl

/-- The parts of a member: its name, a colon and its value. -/
lemma writeMember_append {text : String} (hcolon : breaks.colon = ':' :: blanks) :
    writeMember breaks depth (some text, x) ++ s =
      '"' :: (text.toList.flatMap escape ++
        '"' :: ':' :: (blanks ++ (x.write breaks depth ++ s))) := by
  simp [writeMember, literalText, hcolon]

lemma exists_writeMember (breaks : Breaks) (depth : Nat) (m : Literal × Json) :
    ∃ s, writeMember breaks depth m = '"' :: s := by
  obtain ⟨name, value⟩ := m
  simp [writeMember, literalText]

lemma length_write_lt_writeMember (breaks : Breaks) (depth : Nat) (m : Literal × Json) :
    (m.2.write breaks depth).length < (writeMember breaks depth m).length := by
  obtain ⟨name, value⟩ := m
  simp only [writeMember, literalText, List.length_append, List.length_cons]
  omega

/-- Members are read back up to the closing brace. -/
lemma readMembers (fuel depth : Nat) (rest : List Char) (hbreaks : breaks.Blank)
    (hnames : ∀ m' ∈ m :: ms, m'.1.isSome = true)
    (hvalues : ∀ m' ∈ m :: ms, Legible breaks m'.2)
    (hfuel : (writeMember breaks depth m ++ writeMembers breaks depth ms).length + 1 < fuel)
    (hblanks : ∀ c ∈ blanks, isBlank c = true) :
    Json.readMembers fuel (writeMember breaks depth m ++
      (writeMembers breaks depth ms ++ (blanks ++ '\x7d' :: rest))) = some (m :: ms, rest) := by
  obtain ⟨colonBlanks, hcolon, hcolonBlanks⟩ := hbreaks.colon
  induction ms generalizing m fuel with
  | nil =>
    obtain ⟨fuel, rfl⟩ := Nat.exists_eq_add_one_of_ne_zero (Nat.ne_zero_of_lt hfuel)
    have hlt := length_write_lt_writeMember breaks depth m
    obtain ⟨name, value⟩ := m
    obtain ⟨text, rfl⟩ := Option.isSome_iff_exists.mp (hnames _ List.mem_cons_self)
    rw [writeMembers, List.append_nil] at hfuel
    have hstops : Stops (blanks ++ '\x7d' :: rest) :=
      (Stops.cons (by decide) (by decide) (by decide) (by decide)).after_blanks hblanks
    have hread := hvalues _ List.mem_cons_self fuel depth _ (by omega) hstops
    rw [writeMembers, List.nil_append, writeMember_append hcolon]
    refine readMembers_last (readLiteral_escape text) ?_ hblanks
    rw [readValue_blanks hcolonBlanks]
    exact hread
  | cons m' ms ih =>
    obtain ⟨fuel, rfl⟩ := Nat.exists_eq_add_one_of_ne_zero (Nat.ne_zero_of_lt hfuel)
    have hlt := length_write_lt_writeMember breaks depth m
    obtain ⟨name, value⟩ := m
    obtain ⟨text, rfl⟩ := Option.isSome_iff_exists.mp (hnames _ List.mem_cons_self)
    rw [writeMembers] at hfuel ⊢
    simp only [List.cons_append, List.append_assoc, List.length_append, List.length_cons] at hfuel ⊢
    have hread := hvalues _ List.mem_cons_self fuel depth
      (',' :: (breaks.newline depth ++ (writeMember breaks depth m' ++
        (writeMembers breaks depth ms ++ (blanks ++ '\x7d' :: rest)))))
      (by omega) (.cons (by decide) (by decide) (by decide) (by decide))
    have hrest := ih fuel
      (fun m hm => hnames m (List.mem_cons_of_mem _ hm))
      (fun m hm => hvalues m (List.mem_cons_of_mem _ hm)) (by rw [List.length_append]; omega)
    rw [writeMember_append hcolon, readMembers_cons (readLiteral_escape text)
      ((readValue_blanks hcolonBlanks).trans hread), readMembers_blanks (hbreaks.newline depth),
      hrest]
    rfl

end Legible

/-- A writable value is read back wherever it is written. -/
theorem Writable.legible (h : j.Writable) (hbreaks : breaks.Blank) : Legible breaks j := by
  induction h with
  | null =>
    intro fuel depth rest hfuel _
    obtain ⟨fuel, rfl⟩ := Nat.exists_eq_add_one_of_ne_zero (Nat.ne_zero_of_lt hfuel)
    simp [write, readValue, skipBlanks_cons (c := 'n') rfl, readWord]
  | bool b =>
    intro fuel depth rest hfuel _
    obtain ⟨fuel, rfl⟩ := Nat.exists_eq_add_one_of_ne_zero (Nat.ne_zero_of_lt hfuel)
    cases b with
    | true => simp [write, readValue, skipBlanks_cons (c := 't') rfl, readWord]
    | false => simp [write, readValue, skipBlanks_cons (c := 'f') rfl, readWord]
  | @number n h =>
    intro fuel depth rest hfuel hrest
    obtain ⟨fuel, rfl⟩ := Nat.exists_eq_add_one_of_ne_zero (Nat.ne_zero_of_lt hfuel)
    obtain ⟨c, s, htext, hc⟩ := h.exists_text
    have hread := h.readNumeral hrest
    rw [htext, List.cons_append] at hread
    rw [write, htext, List.cons_append, readValue_numeral hc, hread]
    rfl
  | string text =>
    intro fuel depth rest hfuel _
    obtain ⟨fuel, rfl⟩ := Nat.exists_eq_add_one_of_ne_zero (Nat.ne_zero_of_lt hfuel)
    rw [write, literalText, Option.getD_some, List.cons_append, List.cons_append,
      readValue_literal, List.append_assoc, List.singleton_append, readLiteral_escape]
    rfl
  | @array xs h ih =>
    intro fuel depth rest hfuel _
    obtain ⟨fuel, rfl⟩ := Nat.exists_eq_add_one_of_ne_zero (Nat.ne_zero_of_lt hfuel)
    cases xs with
    | nil => simp [write, readValue, skipBlanks_cons (c := '[') rfl, skipBlanks_cons (c := ']') rfl]
    | cons x xs =>
      obtain ⟨c, s, hwrite, hblank, hclose, -⟩ :=
        (h x List.mem_cons_self).exists_write breaks (depth + 1)
      simp only [write, List.cons_append, List.append_assoc, List.length_cons, List.length_append,
        List.nil_append, List.length_nil] at hfuel ⊢
      have hread := Legible.readElements fuel (depth + 1) rest hbreaks ih
        (by rw [List.length_append]; omega) (hbreaks.newline depth)
      have hskip : skipBlanks (breaks.newline (depth + 1) ++ (x.write breaks (depth + 1) ++
          (writeElements breaks (depth + 1) xs ++ (breaks.newline depth ++ ']' :: rest)))) =
          c :: (s ++ (writeElements breaks (depth + 1) xs ++
            (breaks.newline depth ++ ']' :: rest))) := by
        rw [skipBlanks_blanks (hbreaks.newline _), hwrite, List.cons_append, skipBlanks_cons hblank]
      rw [readValue_array hskip hclose, ← List.cons_append, ← hwrite, hread]
      rfl
  | @object ms hnames hvalues ih =>
    intro fuel depth rest hfuel _
    obtain ⟨fuel, rfl⟩ := Nat.exists_eq_add_one_of_ne_zero (Nat.ne_zero_of_lt hfuel)
    cases ms with
    | nil =>
      simp [write, readValue, skipBlanks_cons (c := '\x7b') rfl, skipBlanks_cons (c := '\x7d') rfl]
    | cons m ms =>
      obtain ⟨s, hwrite⟩ := Legible.exists_writeMember breaks (depth + 1) m
      simp only [write, List.cons_append, List.append_assoc, List.length_cons, List.length_append,
        List.nil_append, List.length_nil] at hfuel ⊢
      have hread := Legible.readMembers fuel (depth + 1) rest hbreaks hnames ih
        (by rw [List.length_append]; omega) (hbreaks.newline depth)
      have hskip : skipBlanks (breaks.newline (depth + 1) ++ (writeMember breaks (depth + 1) m ++
          (writeMembers breaks (depth + 1) ms ++ (breaks.newline depth ++ '\x7d' :: rest)))) =
          '"' :: (s ++ (writeMembers breaks (depth + 1) ms ++
            (breaks.newline depth ++ '\x7d' :: rest))) := by
        rw [skipBlanks_blanks (hbreaks.newline _), hwrite, List.cons_append, skipBlanks_cons rfl]
      rw [readValue_object hskip (by decide), ← List.cons_append, ← hwrite, hread]
      rfl

lemma parse?_ofList (h : j.Writable) (hbreaks : breaks.Blank) :
    parse? (String.ofList (j.write breaks 0)) = some j := by
  have hread := h.legible hbreaks (j.write breaks 0).length.succ 0 [] (Nat.lt_succ_self _) .nil
  rw [List.append_nil] at hread
  simp only [parse?, String.toList_ofList, hread]
  rfl

/-- A value on one line is read back. -/
theorem Writable.parse?_compact (h : j.Writable) : parse? j.compact = some j :=
  parse?_ofList h .none

/-- A value with a line for each member is read back. -/
theorem Writable.parse?_pretty (h : j.Writable) : parse? j.pretty = some j :=
  parse?_ofList h .indented

end Scanout.Json
