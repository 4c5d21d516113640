import CallFlow.Json.Reader
import CallFlow.Node.Kind

/-!
# What numbers are written with

A whole number is written with digits and, below zero, a sign. A finite
fraction is written with the characters that a reader takes for part of a
number, and with a point or an exponent among them, so it is never mistaken
for a whole number (`exists_mark_mem_finiteText`). The other fractions are words.

No value but a text stands for the name of a kind: the others are written in
brackets, as words, or as numbers (`NodeKind.eq_str_of_text_eq_name`).
-/

namespace CallFlow

open Json (isNumberPart)

theorem isNumberPart_of_isDigit {c : Char} (h : c.isDigit = true) : isNumberPart c = true := by
  simp [isNumberPart, h]

theorem isDigit_of_mem_decimalDigits {n : Nat} {c : Char} (h : c ∈ decimalDigits n) :
    c.isDigit = true :=
  Nat.isDigit_of_mem_toDigits (by decide) (by decide) h

theorem isDigit_or_of_mem_intText {n : Int} {c : Char} (h : c ∈ intText n) :
    c.isDigit = true ∨ c = '-' := by
  unfold intText at h
  split at h
  · exact (List.mem_cons.mp h).symm.imp_left isDigit_of_mem_decimalDigits
  · exact .inl (isDigit_of_mem_decimalDigits h)

theorem isNumberPart_of_mem_intText {n : Int} {c : Char} (h : c ∈ intText n) :
    isNumberPart c = true := by
  rcases isDigit_or_of_mem_intText h with h | rfl
  · exact isNumberPart_of_isDigit h
  · rfl

theorem decimalDigits_injective : Function.Injective decimalDigits := by
  intro m n h
  have hread := congrArg (fun ds => Nat.ofDigitChars 10 ds 0) h
  simpa [decimalDigits] using hread

/-- Different whole numbers are written differently. -/
theorem intText_injective : Function.Injective intText := by
  -- the sign is no digit, so it tells the two ways of writing apart
  have hsign : ∀ {m n : Nat}, '-' :: decimalDigits m ≠ decimalDigits n := by
    intro m n h
    have hdigit := isDigit_of_mem_decimalDigits (show '-' ∈ decimalDigits n from
      h ▸ List.mem_cons_self)
    exact absurd hdigit (by decide)
  intro a b h
  rw [intText, intText] at h
  by_cases ha : a < 0 <;> by_cases hb : b < 0 <;> simp only [ha, hb, if_true, if_false] at h
  · have := decimalDigits_injective (List.cons.inj h).2
    omega
  · exact absurd h hsign
  · exact absurd h.symm hsign
  · have := decimalDigits_injective h
    omega

theorem intText_ne_nil (n : Int) : intText n ≠ [] := by
  unfold intText
  split
  · exact List.cons_ne_nil _ _
  · exact Nat.toDigits_ne_nil

namespace Shortest

theorem mem_of_mem_dropTrailingZeros {ds : List Char} {c : Char} (h : c ∈ dropTrailingZeros ds) :
    c ∈ ds := by
  rw [dropTrailingZeros, List.mem_reverse] at h
  exact List.mem_reverse.mp ((List.dropWhile_sublist _).mem h)

/-- An exponent is written with parts of numbers. -/
theorem isNumberPart_of_mem_exponentText {e : Int} {c : Char} (h : c ∈ exponentText e) :
    isNumberPart c = true := by
  rw [exponentText, List.mem_cons] at h
  rcases h with rfl | h
  · split <;> rfl
  · refine isNumberPart_of_isDigit ?_
    split at h
    · rcases List.mem_cons.mp h with rfl | h
      · rfl
      · exact isDigit_of_mem_decimalDigits h
    · exact isDigit_of_mem_decimalDigits h

section Digits

variable {ds : List Char} (hds : ∀ c ∈ ds, c.isDigit = true) {leading : Int} {c : Char}

include hds

/-- With an exponent, digits are written with parts of numbers. -/
theorem isNumberPart_of_mem_withExponent (h : c ∈ withExponent ds leading) :
    isNumberPart c = true := by
  unfold withExponent at h
  rw [List.mem_append, List.mem_cons] at h
  rcases h with h | rfl | h
  · split at h
    · obtain rfl := List.mem_singleton.mp h
      rfl
    · exact isNumberPart_of_isDigit (hds c h)
    · rcases List.mem_cons.mp h with rfl | h
      · exact isNumberPart_of_isDigit (hds _ List.mem_cons_self)
      · rcases List.mem_cons.mp h with rfl | h
        · rfl
        · exact isNumberPart_of_isDigit (hds _ (List.mem_cons_of_mem _ h))
  · rfl
  · exact isNumberPart_of_mem_exponentText h

/-- Around the point, digits are written with parts of numbers. -/
theorem isNumberPart_of_mem_writtenOut {ending : List Char}
    (hending : ∀ c ∈ ending, isNumberPart c = true) (h : c ∈ writtenOut ds leading ending) :
    isNumberPart c = true := by
  have hpadded : ∀ (n : Nat) {c : Char}, c ∈ ds ++ List.replicate n '0' →
      isNumberPart c = true := by
    intro n c hc
    rcases List.mem_append.mp hc with hc | hc
    · exact isNumberPart_of_isDigit (hds c hc)
    · obtain rfl := (List.mem_replicate.mp hc).2
      rfl
  unfold writtenOut at h
  split at h
  · rcases List.mem_cons.mp h with rfl | h
    · rfl
    rcases List.mem_cons.mp h with rfl | h
    · rfl
    rcases List.mem_append.mp h with h | h
    · obtain rfl := (List.mem_replicate.mp h).2
      rfl
    · exact isNumberPart_of_isDigit (hds c h)
  · dsimp only at h
    rcases List.mem_append.mp h with h | h
    · exact hpadded _ (List.mem_of_mem_take h)
    · split at h
      · exact hending c h
      · rcases List.mem_cons.mp h with rfl | h
        · rfl
        · exact hpadded _ (List.mem_of_mem_drop h)

end Digits

/-- A fraction that is written out has a point. -/
theorem point_mem_writtenOut (ds : List Char) (leading : Int) :
    '.' ∈ writtenOut ds leading ".0".toList := by
  unfold writtenOut
  split
  · simp
  · refine List.mem_append_right _ ?_
    split
    · decide
    · exact List.mem_cons_self

/-- The text of a finite fraction, the sign left aside. -/
def finiteText (m : Nat) (q : Int) : List Char :=
  if m = 0 then "0.0".toList
  else
    let s := digits m q
    let ds := decimalDigits s.digits
    let leading := s.power + ds.length - 1
    let kept := dropTrailingZeros ds
    if -4 ≤ leading ∧ leading < 16 then writtenOut kept leading ".0".toList
    else withExponent kept leading

/-- A finite fraction is written with its sign in front. -/
theorem text_of_finite {x : Float} {negative : Bool} {m : Nat} {q : Int}
    (h : Binary.shape x = .finite negative m q) :
    text x = (if negative then ['-'] else []) ++ finiteText m q := by
  rw [text, h, finiteText]
  dsimp only
  split
  · rfl
  · split <;> rfl

/-- A finite fraction is written with parts of numbers. -/
theorem isNumberPart_of_mem_finiteText {m : Nat} {q : Int} {c : Char} (h : c ∈ finiteText m q) :
    isNumberPart c = true := by
  have hkept : ∀ c ∈ dropTrailingZeros (decimalDigits (digits m q).digits), c.isDigit = true :=
    fun c hc => isDigit_of_mem_decimalDigits (mem_of_mem_dropTrailingZeros hc)
  unfold finiteText at h
  split at h
  · exact List.all_eq_true.mp (by decide : "0.0".toList.all isNumberPart = true) c h
  · dsimp only at h
    split at h
    · exact isNumberPart_of_mem_writtenOut hkept (List.all_eq_true.mp (by decide)) h
    · exact isNumberPart_of_mem_withExponent hkept h

/-- **A finite fraction has a point or an exponent.** -/
theorem exists_mark_mem_finiteText (m : Nat) (q : Int) :
    '.' ∈ finiteText m q ∨ 'e' ∈ finiteText m q := by
  unfold finiteText
  split
  · exact .inl (by decide)
  · dsimp only
    split
    · exact .inl (point_mem_writtenOut _ _)
    · exact .inr (List.mem_append_right _ List.mem_cons_self)

/-- A fraction is written with at least one character. -/
theorem text_ne_nil (x : Float) : text x ≠ [] := by
  cases hshape : Binary.shape x with
  | undefined =>
    rw [text, hshape]
    decide
  | infinite negative =>
    rw [text, hshape]
    exact List.append_ne_nil_of_right_ne_nil _ (by decide)
  | finite negative m q =>
    rw [text_of_finite hshape]
    rcases exists_mark_mem_finiteText m q with h | h <;>
      exact List.append_ne_nil_of_right_ne_nil _ (List.ne_nil_of_mem h)

/-- **A fraction is a word, or written with parts of numbers.** -/
theorem isNumberPart_of_mem_text {x : Float}
    (h : text x ∉ (["nan".toList, "inf".toList, "-inf".toList] : List (List Char))) {c : Char}
    (hc : c ∈ text x) : isNumberPart c = true := by
  cases hshape : Binary.shape x with
  | undefined => exact absurd (by rw [text, hshape]; decide) h
  | infinite negative => exact absurd (by rw [text, hshape]; cases negative <;> decide) h
  | finite negative m q =>
    rw [text_of_finite hshape, List.mem_append] at hc
    rcases hc with hc | hc
    · split at hc
      · obtain rfl := List.mem_singleton.mp hc
        rfl
      · cases hc
    · exact isNumberPart_of_mem_finiteText hc

end Shortest

/-! ## The names of kinds -/

theorem NodeKind.name_ne_numeral (kind : NodeKind) :
    kind.name.toList ∉ (["nan".toList, "inf".toList, "-inf".toList] : List (List Char))
      ∧ ∃ c ∈ kind.name.toList, ¬ isNumberPart c = true := by
  rw [← List.all_eq_false]
  cases kind <;> decide

/-- **Only a text stands for the name of a kind.** -/
theorem NodeKind.eq_str_of_text_eq_name {value : Value} {kind : NodeKind}
    (h : value.text = kind.name) : value = .str kind.name := by
  obtain ⟨hword, c, hc, hletter⟩ := kind.name_ne_numeral
  have hwritten : (∀ s, value ≠ .str s) → value.written = kind.name.toList := by
    intro hother
    rw [← h]
    cases value with
    | str s => exact absurd rfl (hother s)
    | _ => exact String.toList_ofList.symm
  cases value with
  | str s => exact congrArg Value.str h
  | null => cases kind <;> exact absurd (hwritten nofun) (by decide)
  | bool b => cases b <;> cases kind <;> exact absurd (hwritten nofun) (by decide)
  | int n =>
    rw [← hwritten nofun, Value.written] at hc
    exact absurd (isNumberPart_of_mem_intText hc) hletter
  | float x =>
    rw [← hwritten nofun, Value.written] at hc hword
    exact absurd (Shortest.isNumberPart_of_mem_text hword hc) hletter
  | list items =>
    have hbracket := hwritten nofun
    rw [Value.written] at hbracket
    cases kind <;> exact absurd (congrArg List.head? hbracket) (by simp [name])
  | obj fields =>
    have hbracket := hwritten nofun
    rw [Value.written] at hbracket
    cases kind <;> exact absurd (congrArg List.head? hbracket) (by simp [name])

end CallFlow
