import CallFlow.Json.Canonical
import CallFlow.Json.Reader

/-!
# Texts in canonical quotes

A text in canonical quotes is read back as the text it is, and as far as its
closing quote (`readText_canonicalString`). So where one text in quotes stands
in front of something and another in front of something else, and the two come
to the same characters, they are the same text in front of the same
(`canonicalString_append_inj`).

The case that takes care is a character that is escaped by two units: the first
is read as one that waits for a partner, and the second is its partner.
-/

namespace CallFlow.Json

/-! ## Digits of base sixteen -/

theorem hex?_digitChar : ∀ n < 16, Digit.hex? n.digitChar = some n := by decide

theorem hexText_one {n : Nat} (h : n < 16) : Quoted.hexText 1 n = [n.digitChar] := by
  rw [Quoted.hexText, Nat.toDigits_of_lt_base h]
  rfl

/-- A number is filled up in front: its last digit is the last one. -/
theorem hexText_succ {width : Nat} (hwidth : 0 < width) (n : Nat) :
    Quoted.hexText (width + 1) n = Quoted.hexText width (n / 16) ++ [(n % 16).digitChar] := by
  rw [Quoted.hexText, Quoted.hexText]
  by_cases hn : n < 16
  · obtain ⟨w, rfl⟩ : ∃ w, width = w + 1 := ⟨width - 1, by omega⟩
    rw [Nat.toDigits_of_lt_base hn, Nat.div_eq_of_lt hn, Nat.mod_eq_of_lt hn, Nat.toDigits_zero]
    simp [List.replicate_succ', List.append_assoc]
  · rw [Nat.toDigits_of_base_le (by decide) (by omega)]
    simp [List.append_assoc]

/-- **The four digits of a unit are read as the unit.** -/
theorem hexNumber?_hexText {n : Nat} (h : n < 0x10000) :
    ∃ a b c d, Quoted.hexText 4 n = [a, b, c, d] ∧ hexNumber? a b c d = some n := by
  refine ⟨(n / 16 / 16 / 16).digitChar, (n / 16 / 16 % 16).digitChar, (n / 16 % 16).digitChar,
    (n % 16).digitChar, ?_, ?_⟩
  · rw [hexText_succ (by decide), hexText_succ (by decide), hexText_succ (by decide),
      hexText_one (by omega)]
    rfl
  · rw [hexNumber?, hex?_digitChar _ (by omega), hex?_digitChar _ (by omega),
      hex?_digitChar _ (by omega), hex?_digitChar _ (by omega)]
    exact congrArg some (by omega)

/-! ## Characters -/

section Characters

variable (done rest : List Char)

/-- An escaped unit is read by what it is: a first surrogate waits, and any
other unit is a character. -/
theorem readText_escapeUnit {n : Nat} (h : n < 0x10000) :
    readText none done (escapeUnit n ++ rest)
      = if isHigh n then readText (some n) done rest
        else readText none (Char.ofNat n :: done) rest := by
  obtain ⟨a, b, c, d, htext, hnumber⟩ := hexNumber?_hexText h
  rw [escapeUnit, htext]
  show readText none done ('\\' :: 'u' :: a :: b :: c :: d :: rest) = _
  rw [readText.eq_def]
  simp only [hnumber]

/-- A second surrogate is read together with the first that waits for it. -/
theorem readText_escapeUnit_of_isLow {high n : Nat} (h : n < 0x10000) (hlow : isLow n = true) :
    readText (some high) done (escapeUnit n ++ rest)
      = readText none (joinSurrogates high n :: done) rest := by
  obtain ⟨a, b, c, d, htext, hnumber⟩ := hexNumber?_hexText h
  rw [escapeUnit, htext]
  show readText (some high) done ('\\' :: 'u' :: a :: b :: c :: d :: rest) = _
  rw [readText.eq_def]
  simp only [hnumber, if_pos hlow]

theorem readText_cons {c : Char} (hquote : c ≠ '"') (hslash : c ≠ '\\') :
    readText none done (c :: rest) = readText none (c :: done) rest := by
  rw [readText]
  · rfl
  all_goals simp_all

theorem isHigh_toNat (c : Char) : isHigh c.toNat = false := by
  have hvalid : c.toNat < 0xd800 ∨ 0xdfff < c.toNat ∧ c.toNat < 0x110000 := c.valid
  simp only [isHigh, Bool.and_eq_false_iff, decide_eq_false_iff_not]
  omega

/-- The two units of a character beyond the first plane are a pair of
surrogates that stands for it. -/
theorem surrogates_of_beyond {c : Char} (h : 0x10000 ≤ c.toNat) :
    isHigh (0xd800 + (c.toNat - 0x10000) / 0x400) = true
      ∧ isLow (0xdc00 + (c.toNat - 0x10000) % 0x400) = true
      ∧ joinSurrogates (0xd800 + (c.toNat - 0x10000) / 0x400)
          (0xdc00 + (c.toNat - 0x10000) % 0x400) = c := by
  have hvalid : c.toNat < 0xd800 ∨ 0xdfff < c.toNat ∧ c.toNat < 0x110000 := c.valid
  refine ⟨?_, ?_, ?_⟩
  · simp only [isHigh, Bool.and_eq_true, decide_eq_true_eq]
    omega
  · simp only [isLow, Bool.and_eq_true, decide_eq_true_eq]
    omega
  · have hsum : 0x10000 + (0xd800 + (c.toNat - 0x10000) / 0x400 - 0xd800) * 0x400
        + (0xdc00 + (c.toNat - 0x10000) % 0x400 - 0xdc00) = c.toNat := by omega
    rw [joinSurrogates, hsum, Char.ofNat_toNat]

/-- **A character is read as it was escaped.** -/
theorem readText_escape (c : Char) :
    readText none done (escape c ++ rest) = readText none (c :: done) rest := by
  have hunit : c.toNat < 0x10000 →
      readText none done (escapeUnit c.toNat ++ rest) = readText none (c :: done) rest := by
    intro hsmall
    rw [readText_escapeUnit done rest hsmall, isHigh_toNat, Char.ofNat_toNat]
    rfl
  unfold escape
  split
  next h => subst h; rfl
  next hquote =>
  split
  next h => subst h; rfl
  next hslash =>
  split
  next h => subst h; rfl
  split
  next h => subst h; rfl
  split
  next h => subst h; rfl
  split
  next h => subst h; rfl
  split
  next h => subst h; rfl
  split
  · exact readText_cons done rest hquote hslash
  split
  next h => exact hunit h
  next h =>
    have hvalid : c.toNat < 0xd800 ∨ 0xdfff < c.toNat ∧ c.toNat < 0x110000 := c.valid
    obtain ⟨hhigh, hlow, hjoin⟩ := surrogates_of_beyond (c := c) (by omega)
    rw [List.append_assoc, readText_escapeUnit _ _ (by omega), if_pos hhigh,
      readText_escapeUnit_of_isLow _ _ (by omega) hlow, hjoin]

end Characters

/-! ## Texts -/

/-- Characters are read as they were escaped, up to the closing quote. -/
theorem readText_flatMap_escape (cs done rest : List Char) :
    readText none done (cs.flatMap escape ++ '"' :: rest)
      = some (String.ofList (done.reverse ++ cs), rest) := by
  induction cs generalizing done with
  | nil => simp [readText, settle]
  | cons c cs ih =>
    rw [List.flatMap_cons, List.append_assoc, readText_escape, ih, List.reverse_cons,
      List.append_assoc, List.singleton_append]

/-- **A text in canonical quotes is read back**, and what stands behind it is
left. -/
theorem readText_canonicalString (s : String) (rest : List Char) :
    ∃ cs, canonicalString s ++ rest = '"' :: cs ∧ readText none [] cs = some (s, rest) := by
  refine ⟨s.toList.flatMap escape ++ '"' :: rest, by simp [canonicalString], ?_⟩
  rw [readText_flatMap_escape, List.reverse_nil, List.nil_append, String.ofList_toList]

/-- **What starts with a text in quotes starts with one only.** -/
theorem canonicalString_append_inj {s t : String} {rest others : List Char}
    (h : canonicalString s ++ rest = canonicalString t ++ others) : s = t ∧ rest = others := by
  obtain ⟨cs, hcs, hread⟩ := readText_canonicalString s rest
  obtain ⟨ds, hds, hread'⟩ := readText_canonicalString t others
  rw [hcs, hds, List.cons.injEq] at h
  rw [h.2, hread', Option.some.injEq, Prod.mk.injEq] at hread
  exact ⟨hread.1.symm, hread.2.symm⟩

end CallFlow.Json
