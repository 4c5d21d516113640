import CallFlow.Number.Decimal
import CallFlow.Proofs.Number.Numeral
import CallFlow.Proofs.Number.Search

/-!
# The text of a fraction is read back

The text of a finite fraction is read as a decimal of the same sign, and the
number of the decimal reads back as the fraction (`Shortest.read?_text`). So two
finite fractions of one text are the same, for a ratio reads back as one
fraction at most (`Shortest.eq_of_text_eq`).

However a fraction is written – out around the point, or with an exponent –
what is read is the number of its digits with the power of ten of the last one;
the zeros that were dropped at the end are made good by that power.
-/

namespace CallFlow

/-! ## The number of some digits -/

namespace Digit

theorem number_append (ds es : List Char) :
    number (ds ++ es) = number ds * 10 ^ es.length + number es := by
  have hnumber : ∀ cs, number cs = Nat.ofDigitChars 10 cs 0 := fun cs =>
    Nat.ofDigitChars_eq_foldl.symm
  rw [hnumber, hnumber, hnumber, Nat.ofDigitChars_append, Nat.ofDigitChars_eq_ofDigitChars_zero,
    Nat.mul_comm]

theorem number_replicate_zero (n : Nat) : number (List.replicate n '0') = 0 := by
  rw [number, ← Nat.ofDigitChars_eq_foldl, Nat.ofDigitChars_replicate_zero, Nat.mul_zero]

theorem number_cons_zero (ds : List Char) : number ('0' :: ds) = number ds := rfl

theorem number_decimalDigits (n : Nat) : number (decimalDigits n) = n := by
  rw [number, ← Nat.ofDigitChars_eq_foldl, decimalDigits, Nat.ofDigitChars_ten_toDigits]

end Digit

/-! ## Decimals -/

namespace Decimal

/-- The number of a decimal, the sign left aside. -/
def value (d : Decimal) : ℚ := d.digits * 10 ^ d.power

/-- Reads a decimal of which the sign is split off. -/
def readUnsigned? (negative : Bool) (cs : List Char) : Option Decimal :=
  let whole := cs.takeWhile Char.isDigit
  let rest := cs.dropWhile Char.isDigit
  let (places, rest) := match rest with
    | '.' :: behind => (behind.takeWhile Char.isDigit, behind.dropWhile Char.isDigit)
    | _ => ([], rest)
  if whole.isEmpty && places.isEmpty then none
  else
    (readExponent? rest).map fun e =>
      ⟨negative, Digit.number (whole ++ places), e - places.length⟩

theorem read?_eq (cs : List Char) :
    read? cs = readUnsigned? (splitSign cs).1 (splitSign cs).2 := rfl

/-- What starts with a digit has no sign. -/
theorem splitSign_of_isDigit {c : Char} (hc : c.isDigit = true) (cs : List Char) :
    splitSign (c :: cs) = (false, c :: cs) := by
  unfold splitSign
  split
  next heq =>
    obtain ⟨rfl, -⟩ := List.cons.inj heq
    cases hc
  next heq =>
    obtain ⟨rfl, -⟩ := List.cons.inj heq
    cases hc
  next => rfl

section Read

variable {whole places rest : List Char} (hwhole : ∀ c ∈ whole, c.isDigit = true)
  (hne : whole ≠ []) (negative : Bool)

include hwhole hne

/-- **Digits around a point are read.** -/
theorem readUnsigned?_point (hplaces : ∀ c ∈ places, c.isDigit = true)
    (hrest : ∀ c ∈ rest.head?, c.isDigit = false) :
    readUnsigned? negative (whole ++ '.' :: (places ++ rest))
      = (readExponent? rest).map fun e =>
          ⟨negative, Digit.number (whole ++ places), e - places.length⟩ := by
  have hstop : ∀ {cs : List Char}, (∀ c ∈ cs.head?, c.isDigit = false) →
      cs.takeWhile Char.isDigit = [] ∧ cs.dropWhile Char.isDigit = cs := by
    intro cs hcs
    cases cs with
    | nil => exact ⟨rfl, rfl⟩
    | cons c cs => simp [hcs c rfl]
  have hpoint : ∀ c ∈ ('.' :: (places ++ rest)).head?, c.isDigit = false := by
    rintro c ⟨⟩
    rfl
  unfold readUnsigned?
  simp only [List.takeWhile_append_of_pos hwhole, List.dropWhile_append_of_pos hwhole,
    (hstop hpoint).1, (hstop hpoint).2, List.takeWhile_append_of_pos hplaces,
    List.dropWhile_append_of_pos hplaces, (hstop hrest).1, (hstop hrest).2, List.append_nil]
  simp [hne]

/-- **Digits without a point are read** if an exponent stands behind them. -/
theorem readUnsigned?_exponent (exponent : List Char) :
    readUnsigned? negative (whole ++ 'e' :: exponent)
      = (readExponent? ('e' :: exponent)).map fun e => ⟨negative, Digit.number whole, e⟩ := by
  unfold readUnsigned?
  simp only [List.takeWhile_append_of_pos hwhole, List.dropWhile_append_of_pos hwhole]
  simp [hne, List.takeWhile, List.dropWhile, Char.isDigit]

end Read

/-- An exponent is written with a sign and the digits of its number, filled up in
front. -/
theorem exponentText_eq (e : Int) :
    ∃ ds, Shortest.exponentText e = (if e < 0 then '-' else '+') :: ds ∧ ds ≠ []
      ∧ (∀ c ∈ ds, c.isDigit = true) ∧ Digit.number ds = e.natAbs := by
  have hdigits : ∀ c ∈ decimalDigits e.natAbs, c.isDigit = true := fun c hc =>
    isDigit_of_mem_decimalDigits hc
  refine ⟨_, rfl, ?_⟩
  split
  · refine ⟨List.cons_ne_nil _ _, List.forall_mem_cons.mpr ⟨rfl, hdigits⟩, ?_⟩
    rw [Digit.number_cons_zero, Digit.number_decimalDigits]
  · exact ⟨Nat.toDigits_ne_nil, hdigits, Digit.number_decimalDigits _⟩

/-- **An exponent is read as it was written.** -/
theorem readExponent?_exponentText (e : Int) :
    readExponent? ('e' :: Shortest.exponentText e) = some e := by
  obtain ⟨ds, htext, hne, hdigits, hnumber⟩ := exponentText_eq e
  have hall : (ds.isEmpty || !ds.all Char.isDigit) = false := by
    simpa [hne] using hdigits
  rw [htext, readExponent?, if_pos (.inl rfl)]
  by_cases he : e < 0
  · rw [if_pos he, splitSign]
    dsimp only
    rw [hall, hnumber, if_neg Bool.false_ne_true, if_pos rfl]
    exact congrArg some (by omega)
  · rw [if_neg he, splitSign]
    dsimp only
    rw [hall, hnumber, if_neg Bool.false_ne_true, if_neg Bool.false_ne_true]
    exact congrArg some (by omega)

end Decimal

/-! ## Fractions -/

namespace Shortest

/-- Whether a text starts with a digit and is read, behind any sign, as a decimal of
some number. -/
def Spells (cs : List Char) (r : ℚ) : Prop :=
  (∃ c ∈ cs.head?, c.isDigit = true)
    ∧ ∀ negative, ∃ d, Decimal.readUnsigned? negative cs = some d ∧ d.negative = negative
      ∧ d.value = r

/-- Digits around a point are read as their number, the last of them counting the
places behind the point. -/
theorem spells_point {whole places : List Char} (hwhole : ∀ c ∈ whole, c.isDigit = true)
    (hne : whole ≠ []) (hplaces : ∀ c ∈ places, c.isDigit = true) :
    Spells (whole ++ '.' :: places)
      (Digit.number (whole ++ places) * 10 ^ (-(places.length : Int))) := by
  obtain ⟨c, rest, rfl⟩ := List.exists_cons_of_ne_nil hne
  refine ⟨⟨c, rfl, hwhole c List.mem_cons_self⟩, fun negative => ?_⟩
  have hend : ∀ x ∈ ([] : List Char).head?, x.isDigit = false := nofun
  have hread := Decimal.readUnsigned?_point hwhole hne negative hplaces hend
  rw [List.append_nil] at hread
  refine ⟨_, hread, rfl, ?_⟩
  rw [Decimal.value]
  dsimp only
  rw [Int.zero_sub]

section Digits

variable {ds : List Char} (hds : ∀ c ∈ ds, c.isDigit = true) (hne : ds ≠ []) (leading : Int)

include hds hne

/-- **Digits with an exponent are read as their number**, the first of them
counting the power they were written with. -/
theorem spells_withExponent :
    Spells (withExponent ds leading) (Digit.number ds * 10 ^ (leading + 1 - ds.length)) := by
  obtain ⟨c, rest, rfl⟩ := List.exists_cons_of_ne_nil hne
  have hc := hds c List.mem_cons_self
  have hfirst : ∀ c' ∈ [c], c'.isDigit = true := List.forall_mem_singleton.mpr hc
  refine ⟨⟨c, by cases rest <;> rfl, hc⟩, fun negative => ?_⟩
  cases rest with
  | nil =>
    refine ⟨⟨negative, Digit.number [c], leading⟩, ?_, rfl, ?_⟩
    · rw [withExponent]
      exact (Decimal.readUnsigned?_exponent hfirst (List.cons_ne_nil _ _) negative _).trans
        (by rw [Decimal.readExponent?_exponentText]; rfl)
    · simp [Decimal.value]
  | cons c' rest =>
    refine ⟨⟨negative, Digit.number (c :: c' :: rest), leading - (c' :: rest).length⟩, ?_, rfl, ?_⟩
    · have hstop : ∀ x ∈ ('e' :: exponentText leading).head?, x.isDigit = false := by
        rintro x ⟨⟩
        rfl
      have hread := Decimal.readUnsigned?_point hfirst (List.cons_ne_nil _ _) negative
        (fun x hx => hds x (List.mem_cons_of_mem _ hx)) hstop
      rw [Decimal.readExponent?_exponentText] at hread
      exact hread
    · rw [Decimal.value]
      congr 2
      simp only [List.length_cons]
      omega

/-- **Digits that are written out are read as their number**, the first of them
counting the power they were written with. -/
theorem spells_writtenOut :
    Spells (writtenOut ds leading ".0".toList)
      (Digit.number ds * 10 ^ (leading + 1 - ds.length)) := by
  have hzeros : ∀ n, ∀ c ∈ List.replicate n '0', c.isDigit = true := by
    intro n c hc
    obtain rfl := (List.mem_replicate.mp hc).2
    rfl
  have hpadded : ∀ n, ∀ c ∈ ds ++ List.replicate n '0', c.isDigit = true := fun n =>
    List.forall_mem_append.mpr ⟨hds, hzeros n⟩
  have hpos : 0 < ds.length := List.length_pos_iff.mpr hne
  unfold writtenOut
  split
  next hneg =>
    have hspells := spells_point (List.forall_mem_singleton.mpr (by decide : '0'.isDigit = true))
      (List.cons_ne_nil _ _) (List.forall_mem_append.mpr ⟨hzeros (-leading - 1).toNat, hds⟩)
    rw [List.singleton_append, List.singleton_append, Digit.number_cons_zero, Digit.number_append,
      Digit.number_replicate_zero, Nat.zero_mul, Nat.zero_add] at hspells
    convert hspells using 3
    simp only [List.length_append, List.length_replicate]
    omega
  next hpos =>
    dsimp only
    generalize hwhole : leading.toNat + 1 = whole
    by_cases hle : ds.length ≤ whole
    · -- all digits stand before the point, and zeros behind them
      have hlen : (ds ++ List.replicate (whole - ds.length) '0').length = whole := by
        rw [List.length_append, List.length_replicate]
        omega
      rw [List.take_of_length_le hlen.le, List.drop_of_length_le hlen.le]
      have hspells := spells_point (hpadded (whole - ds.length))
        (List.append_ne_nil_of_left_ne_nil hne _)
        (List.forall_mem_singleton.mpr (by decide : '0'.isDigit = true))
      rw [Digit.number_append, Digit.number_append, Digit.number_replicate_zero] at hspells
      convert hspells using 1
      · rfl
      · rw [show leading + 1 - (ds.length : Int) = ((whole - ds.length : Nat) : Int) by omega,
          zpow_natCast]
        simp [Digit.number]
    · -- the point stands among the digits
      have hfull : whole - ds.length = 0 := by omega
      rw [hfull, List.replicate_zero, List.append_nil]
      have hspells := spells_point (fun c hc => hds c (List.mem_of_mem_take hc))
        (List.ne_nil_of_length_pos (by rw [List.length_take]; omega : 0 < (ds.take whole).length))
        (fun c hc => hds c (List.mem_of_mem_drop hc) : ∀ c ∈ ds.drop whole, c.isDigit = true)
      rw [List.take_append_drop] at hspells
      have hbehind : (ds.drop whole).isEmpty = false := by
        rw [List.isEmpty_eq_false_iff, ← List.length_pos_iff, List.length_drop]
        omega
      rw [hbehind, if_neg Bool.false_ne_true]
      convert hspells using 3
      rw [List.length_drop]
      omega

end Digits

/-- What is left without the zeros at the end is all but zeros. -/
theorem exists_dropTrailingZeros (ds : List Char) :
    ∃ n, ds = dropTrailingZeros ds ++ List.replicate n '0' := by
  refine ⟨(ds.reverse.takeWhile (· = '0')).length, ?_⟩
  have hzeros : ds.reverse.takeWhile (· = '0')
      = List.replicate (ds.reverse.takeWhile (· = '0')).length '0' :=
    List.eq_replicate_of_mem fun c hc => by
      simpa using List.all_eq_true.mp List.all_takeWhile c hc
  have hsplit := congrArg List.reverse
    (List.takeWhile_append_dropWhile (p := (· = '0')) (l := ds.reverse))
  rw [List.reverse_reverse, List.reverse_append] at hsplit
  rw [dropTrailingZeros, ← List.reverse_replicate, ← hzeros]
  exact hsplit.symm

section Finite

variable {m : Nat} {q : Int}

/-- **The text of a fraction is read as the number of its digits.** -/
theorem spells_finiteText (hm : m ≠ 0) (hdigits : 0 < (digits m q).digits) :
    Spells (finiteText m q) ((digits m q).digits * 10 ^ (digits m q).power) := by
  obtain ⟨n, hn⟩ := exists_dropTrailingZeros (decimalDigits (digits m q).digits)
  have hkept : ∀ c ∈ dropTrailingZeros (decimalDigits (digits m q).digits), c.isDigit = true :=
    fun c hc => isDigit_of_mem_decimalDigits (mem_of_mem_dropTrailingZeros hc)
  have hnumber := congrArg Digit.number hn
  rw [Digit.number_decimalDigits, Digit.number_append, Digit.number_replicate_zero, Nat.add_zero,
    List.length_replicate] at hnumber
  have hlen := congrArg List.length hn
  rw [List.length_append, List.length_replicate] at hlen
  unfold finiteText
  rw [if_neg hm]
  dsimp only
  generalize dropTrailingZeros (decimalDigits (digits m q).digits) = kept at *
  have hne : kept ≠ [] := by
    rintro rfl
    rw [hnumber] at hdigits
    simp [Digit.number] at hdigits
  -- the zeros that were dropped are made good by the power
  have hvalue : ((digits m q).digits : ℚ) * 10 ^ (digits m q).power = Digit.number kept
      * 10 ^ ((digits m q).power + (decimalDigits (digits m q).digits).length - 1 + 1
        - kept.length) := by
    rw [hlen, show (digits m q).power + ((kept.length + n : Nat) : Int) - 1 + 1 - kept.length
      = n + (digits m q).power by omega, zpow_add₀ (by norm_num), zpow_natCast]
    conv_lhs => rw [hnumber]
    push_cast
    ring
  rw [hvalue]
  split
  · exact spells_writtenOut hkept hne _
  · exact spells_withExponent hkept hne _

/-- The digits of a fraction other than zero are no zero, for zero does not read back
as it. -/
theorem digits_pos (hm : 0 < m) (hnormal : Shape.Normal m q) : 0 < (digits m q).digits := by
  have hbegin : 0 < lowerEnd m q := by
    have hreach := reach_le m q
    have hlt : (reach m q : ℚ) < 4 * m := by exact_mod_cast (by omega : reach m q < 4 * m)
    exact mul_pos (sub_pos.mpr hlt) (two_zpow_pos _)
  have hread := (readsBack_digits hm hnormal).le.1
  by_contra hzero
  rw [Nat.eq_zero_of_not_pos hzero, Nat.cast_zero, zero_mul] at hread
  linarith

/-- **The text of a fraction is read as a number that reads back as it.** -/
theorem exists_spells_finiteText (hnormal : Shape.Normal m q) :
    ∃ r, Spells (finiteText m q) r ∧ ReadsBack m q r := by
  rcases Nat.eq_zero_or_pos m with rfl | hm
  · refine ⟨0, ?_, readsBack_of_lt ?_ ?_⟩
    · have hzero : ∀ c ∈ ['0'], c.isDigit = true := List.forall_mem_singleton.mpr (by decide)
      have hspells := spells_point hzero (List.cons_ne_nil _ _) hzero
      rwa [show Digit.number (['0'] ++ ['0']) = 0 from rfl, Nat.cast_zero, zero_mul] at hspells
    · rw [lowerEnd, Nat.cast_zero, mul_zero, zero_sub]
      have hreach : (0 : ℚ) < reach 0 q := by exact_mod_cast (by unfold reach; split <;> decide)
      exact mul_neg_of_neg_of_pos (neg_lt_zero.mpr hreach) (two_zpow_pos _)
    · rw [upperEnd]
      exact mul_pos (by norm_num) (two_zpow_pos _)
  · exact ⟨_, spells_finiteText hm.ne' (digits_pos hm hnormal), readsBack_digits hm hnormal⟩

end Finite

variable {x y : Float} {negative : Bool} {m : Nat} {q : Int}

/-- **The text of a finite fraction is read back**: as a decimal of its sign, of which
the number reads back as the fraction. -/
theorem read?_text (h : Binary.shape x = .finite negative m q) :
    ∃ d, Decimal.read? (text x) = some d ∧ d.negative = negative ∧ ReadsBack m q d.value := by
  obtain ⟨r, ⟨⟨c, hc, hdigit⟩, hspells⟩, hread⟩ :=
    exists_spells_finiteText (Shape.normal_of_ofBits h)
  obtain ⟨d, hd, hnegative, rfl⟩ := hspells negative
  refine ⟨d, ?_, hnegative, hread⟩
  rw [Decimal.read?_eq, text_of_finite h, ← hd]
  cases negative with
  | true => rfl
  | false =>
    obtain ⟨cs, hcs⟩ := List.head?_eq_some_iff.mp hc
    rw [hcs, if_neg Bool.false_ne_true, List.nil_append, Decimal.splitSign_of_isDigit hdigit]

/-- **A finite fraction is known by its text.** -/
theorem eq_of_text_eq {negative' : Bool} {m' : Nat} {q' : Int}
    (hx : Binary.shape x = .finite negative m q) (hy : Binary.shape y = .finite negative' m' q')
    (h : text x = text y) : x = y := by
  obtain ⟨d, hd, hnegative, hread⟩ := read?_text hx
  obtain ⟨d', hd', hnegative', hread'⟩ := read?_text hy
  obtain rfl : d = d' := Option.some.inj ((hd.symm.trans (congrArg _ h)).trans hd')
  obtain ⟨rfl, rfl⟩ := eq_of_readsBack (Shape.normal_of_ofBits hx) (Shape.normal_of_ofBits hy)
    hread hread'
  exact Binary.shape_injective (by rw [hx, hy, ← hnegative, ← hnegative'])

end Shortest

end CallFlow
