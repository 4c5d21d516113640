import CallFlow.Proofs.Json.Escape
import CallFlow.Proofs.Number.Numeral
import CallFlow.Proofs.Value.Hereditary

/-!
# Where a canonical text ends

Of canonical texts that stand one behind the other, with commas and brackets
between them, it is clear where each of them ends. A word – a number, or one
of the few names – ends before the first character that is in no word, and a
comma or a closing bracket is in none; a text in quotes ends with its quote;
and sequences and objects end with their bracket, by induction
(`setApart_canonicalChars`).
-/

namespace CallFlow.Json

/-! ## Words -/

/-- Whether a character can be part of a number or of a name. -/
def isWordPart (c : Char) : Bool := c.isAlphanum || c = '-' || c = '+' || c = '.'

theorem isWordPart_of_isNumberPart {c : Char} (h : isNumberPart c = true) :
    isWordPart c = true := by
  simp only [isNumberPart, Bool.or_eq_true, decide_eq_true_eq] at h
  simp only [isWordPart, Bool.or_eq_true, decide_eq_true_eq, Char.isAlphanum]
  rcases h with ((((h | rfl) | rfl) | rfl) | rfl) | rfl <;> simp_all

/-- Whether a text goes on with what is no part of a word, or not at all. -/
def Stops (cs : List Char) : Prop := ∀ c ∈ cs.head?, isWordPart c = false

/-- **A word ends where what stands behind it begins.** -/
theorem takeWhile_isWordPart {word rest : List Char} (hword : ∀ c ∈ word, isWordPart c = true)
    (hrest : Stops rest) : (word ++ rest).takeWhile isWordPart = word := by
  rw [List.takeWhile_append_of_pos hword]
  cases rest with
  | nil => simp
  | cons c rest => simp [hrest c rfl]

theorem isWordPart_of_mem_intText {n : Int} {c : Char} (h : c ∈ intText n) : isWordPart c = true :=
  isWordPart_of_isNumberPart (isNumberPart_of_mem_intText h)

section Fractions

variable {x : Float} {negative : Bool} {m : Nat} {q : Int}

theorem canonicalFloat_of_finite (h : Binary.shape x = .finite negative m q) :
    canonicalFloat x = Shortest.text x := by
  rw [canonicalFloat, h]

theorem canonicalFloat_of_infinite (h : Binary.shape x = .infinite negative) :
    canonicalFloat x = (if negative then ['-'] else []) ++ "Infinity".toList := by
  rw [canonicalFloat, h]

theorem canonicalFloat_of_undefined (h : Binary.shape x = .undefined) :
    canonicalFloat x = "NaN".toList := by
  rw [canonicalFloat, h]

/-- A fraction is a word. -/
theorem isWordPart_of_mem_canonicalFloat {c : Char} (h : c ∈ canonicalFloat x) :
    isWordPart c = true := by
  cases hshape : Binary.shape x with
  | undefined =>
    rw [canonicalFloat_of_undefined hshape] at h
    exact List.all_eq_true.mp (by decide) c h
  | infinite negative =>
    rw [canonicalFloat_of_infinite hshape] at h
    exact List.all_eq_true.mp (by cases negative <;> decide) c h
  | finite negative m q =>
    rw [canonicalFloat_of_finite hshape, Shortest.text_of_finite hshape, List.mem_append] at h
    rcases h with h | h
    · exact List.all_eq_true.mp (by cases negative <;> decide) c h
    · exact isWordPart_of_isNumberPart (Shortest.isNumberPart_of_mem_finiteText h)

end Fractions

/-! ## How a value begins -/

/-- The character that a value begins with in canonical text, unless it is a
word. -/
def opener? : Value → Option Char
  | .str _ => some '"'
  | .list _ => some '['
  | .obj _ => some '\x7b'
  | _ => none

/-- A value that is not opened is a word. -/
theorem isWordPart_of_mem_canonicalChars {v : Value} (hword : opener? v = none) {c : Char}
    (h : c ∈ canonicalChars v) : isWordPart c = true := by
  cases v with
  | null => exact List.all_eq_true.mp (by decide : "null".toList.all isWordPart = true) c h
  | bool b => exact List.all_eq_true.mp (by cases b <;> decide) c h
  | int n => exact isWordPart_of_mem_intText h
  | float x => exact isWordPart_of_mem_canonicalFloat h
  | _ => cases hword

/-- Every value is written. -/
theorem canonicalChars_ne_nil (v : Value) : canonicalChars v ≠ [] := by
  cases v with
  | bool b => cases b <;> simp [canonicalChars]
  | int n => exact intText_ne_nil n
  | float x =>
    rw [canonicalChars, canonicalFloat]
    cases hshape : Binary.shape x with
    | finite negative m q => exact Shortest.text_ne_nil x
    | _ => simp
  | _ => simp [canonicalChars, canonicalString]

/-- **A value is known by its first character** to be a text, a sequence, an
object, or a word. -/
theorem exists_canonicalChars_eq_cons (v : Value) :
    ∃ c cs, canonicalChars v = c :: cs ∧ opener? v = if isWordPart c then none else some c := by
  cases hopener : opener? v with
  | none =>
    obtain ⟨c, cs, hcs⟩ := List.exists_cons_of_ne_nil (canonicalChars_ne_nil v)
    have hword := isWordPart_of_mem_canonicalChars hopener (hcs ▸ List.mem_cons_self)
    exact ⟨c, cs, hcs, by rw [if_pos hword]⟩
  | some opener =>
    cases v <;> cases hopener
    · exact ⟨_, _, by rw [canonicalChars, canonicalString]; rfl, rfl⟩
    · exact ⟨_, _, by rw [canonicalChars]; rfl, rfl⟩
    · exact ⟨_, _, by rw [canonicalChars]; rfl, rfl⟩

theorem opener?_eq {v w : Value} {rest others : List Char}
    (h : canonicalChars v ++ rest = canonicalChars w ++ others) : opener? v = opener? w := by
  obtain ⟨c, cs, hv, hopener⟩ := exists_canonicalChars_eq_cons v
  obtain ⟨d, ds, hw, hopener'⟩ := exists_canonicalChars_eq_cons w
  rw [hv, hw, List.cons_append, List.cons_append, List.cons.injEq] at h
  rw [hopener, hopener', h.1]

theorem head?_canonicalChars_ne {close : Char} (hclose : close = ']' ∨ close = '\x7d') (v : Value) :
    (canonicalChars v).head? ≠ some close := by
  obtain ⟨c, cs, hv, hopener⟩ := exists_canonicalChars_eq_cons v
  rw [hv]
  rintro ⟨⟩
  rcases hclose with rfl | rfl <;> cases v <;>
    simp [opener?, isWordPart, Char.isAlphanum] at hopener

/-! ## Texts that are set apart -/

/-- Whether it is clear of two texts, whatever stands behind them, that they are
different or end at the same place. -/
def SetApart (text other : List Char) : Prop :=
  ∀ {rest others : List Char}, Stops rest → Stops others →
    text ++ rest = other ++ others → text = other ∧ rest = others

/-- **Words are set apart.** -/
theorem setApart_of_isWordPart {text other : List Char} (htext : ∀ c ∈ text, isWordPart c = true)
    (hother : ∀ c ∈ other, isWordPart c = true) : SetApart text other := by
  intro rest others hrest hothers h
  have hword := congrArg (List.takeWhile isWordPart) h
  rw [takeWhile_isWordPart htext hrest, takeWhile_isWordPart hother hothers] at hword
  subst hword
  exact ⟨rfl, List.append_cancel_left h⟩

/-- Fields are set apart if their values are. -/
theorem setApart_canonicalField {field other : String × List Char}
    (h : SetApart field.2 other.2) : SetApart (canonicalField field) (canonicalField other) := by
  intro rest others hrest hothers heq
  rw [canonicalField, canonicalField, List.append_assoc, List.append_assoc, List.cons_append,
    List.cons_append, List.cons_append, List.cons_append] at heq
  obtain ⟨hkey, heq⟩ := canonicalString_append_inj heq
  rw [List.cons.injEq, List.cons.injEq] at heq
  obtain ⟨hvalue, hrest⟩ := h hrest hothers heq.2.2
  exact ⟨by rw [canonicalField, canonicalField, hkey, hvalue], hrest⟩

theorem canonicalField_inj {field other : String × List Char}
    (h : canonicalField field = canonicalField other) : field = other := by
  obtain ⟨hkey, h⟩ := canonicalString_append_inj h
  rw [List.cons.injEq, List.cons.injEq] at h
  exact Prod.ext hkey h.2.2

/-! ## Pieces between brackets -/

section Pieces

variable (close : Char) (rest : List Char)

/-- What stands behind a piece, up to the closing bracket and beyond. -/
def behindPiece : List (List Char) → List Char
  | [] => close :: rest
  | piece :: pieces => ',' :: ' ' :: (commaSeparated (piece :: pieces) ++ close :: rest)

theorem commaSeparated_cons_append (piece : List Char) (pieces : List (List Char)) :
    commaSeparated (piece :: pieces) ++ close :: rest = piece ++ behindPiece close rest pieces := by
  cases pieces <;> simp [commaSeparated, behindPiece]

variable {close rest}

/-- Behind a piece there is no word. -/
theorem stops_behindPiece (hclose : isWordPart close = false) (pieces : List (List Char)) :
    Stops (behindPiece close rest pieces) := by
  cases pieces with
  | nil =>
    rintro c ⟨⟩
    exact hclose
  | cons piece pieces =>
    rintro c ⟨⟩
    rfl

/-- **Pieces that are set apart are known by the text they make up** between
brackets. -/
theorem commaSeparated_inj (hclose : isWordPart close = false) (hcomma : close ≠ ',')
    {pieces others : List (List Char)} {rest rest' : List Char}
    (hapart : ∀ p ∈ pieces, ∀ o ∈ others, SetApart p o)
    (hpieces : ∀ p ∈ pieces, p ≠ [] ∧ p.head? ≠ some close)
    (hothers : ∀ o ∈ others, o ≠ [] ∧ o.head? ≠ some close)
    (h : commaSeparated pieces ++ close :: rest = commaSeparated others ++ close :: rest') :
    pieces = others ∧ rest = rest' := by
  have hopen : ∀ {piece : List Char} {pieces : List (List Char)} {rest rest' : List Char},
      piece ≠ [] ∧ piece.head? ≠ some close →
      close :: rest ≠ commaSeparated (piece :: pieces) ++ close :: rest' := by
    rintro piece pieces rest rest' ⟨hne, hhead⟩ heq
    obtain ⟨c, cs, rfl⟩ := List.exists_cons_of_ne_nil hne
    rw [commaSeparated_cons_append, List.cons_append, List.cons.injEq] at heq
    exact hhead (congrArg some heq.1.symm)
  induction pieces generalizing others with
  | nil =>
    cases others with
    | nil => exact ⟨rfl, (List.cons.inj h).2⟩
    | cons o others => exact absurd h (hopen (hothers o List.mem_cons_self))
  | cons p pieces ih =>
    cases others with
    | nil => exact absurd h.symm (hopen (hpieces p List.mem_cons_self))
    | cons o others =>
      rw [commaSeparated_cons_append, commaSeparated_cons_append] at h
      obtain ⟨rfl, hbehind⟩ := hapart p List.mem_cons_self o List.mem_cons_self
        (stops_behindPiece hclose _) (stops_behindPiece hclose _) h
      -- one of the two goes on exactly if the other does
      cases pieces with
      | nil =>
        cases others with
        | nil => exact ⟨rfl, (List.cons.inj hbehind).2⟩
        | cons o' others => exact absurd (List.cons.inj hbehind).1 hcomma
      | cons p' pieces =>
        cases others with
        | nil => exact absurd (List.cons.inj hbehind).1.symm hcomma
        | cons o' others =>
          rw [behindPiece, behindPiece, List.cons.injEq, List.cons.injEq] at hbehind
          obtain ⟨hrest, htail⟩ := ih
            (fun x hx y hy => hapart x (List.mem_cons_of_mem _ hx) y (List.mem_cons_of_mem _ hy))
            (fun x hx => hpieces x (List.mem_cons_of_mem _ hx))
            (fun y hy => hothers y (List.mem_cons_of_mem _ hy)) hbehind.2.2
          exact ⟨by rw [hrest], htail⟩

end Pieces

/-! ## Values -/

/-- The fields of an object with the texts of their values, in the order they are
written. -/
def sortedFields (fields : Fields) : List (String × List Char) :=
  (canonicalFields fields).mergeSort keyOrder

theorem canonicalItems_eq_map (items : List Value) :
    canonicalItems items = items.map canonicalChars := by
  induction items with
  | nil => rfl
  | cons v rest ih => rw [canonicalItems, ih, List.map_cons]

theorem canonicalFields_eq_map (fields : Fields) :
    canonicalFields fields = fields.map fun f => (keySpelling f.1, canonicalChars f.2) := by
  induction fields with
  | nil => rfl
  | cons f rest ih =>
    obtain ⟨k, v⟩ := f
    rw [canonicalFields, ih, List.map_cons]

theorem mem_sortedFields {fields : Fields} {field : String × List Char} :
    field ∈ sortedFields fields
      ↔ ∃ f ∈ fields, field = (keySpelling f.1, canonicalChars f.2) := by
  rw [sortedFields, List.mem_mergeSort, canonicalFields_eq_map, List.mem_map]
  simp [eq_comm]

/-- A sequence is known by the texts of its items. -/
theorem canonicalItems_of_append_eq {items others : List Value} {rest rest' : List Char}
    (hapart : ∀ v ∈ items, ∀ w ∈ others, SetApart (canonicalChars v) (canonicalChars w))
    (h : canonicalChars (.list items) ++ rest = canonicalChars (.list others) ++ rest') :
    canonicalItems items = canonicalItems others ∧ rest = rest' := by
  have hpieces : ∀ (vs : List Value), ∀ p ∈ vs.map canonicalChars,
      p ≠ [] ∧ p.head? ≠ some ']' := by
    intro vs p hp
    obtain ⟨v, _, rfl⟩ := List.mem_map.mp hp
    exact ⟨canonicalChars_ne_nil v, head?_canonicalChars_ne (.inl rfl) v⟩
  rw [canonicalChars, canonicalChars, canonicalItems_eq_map, canonicalItems_eq_map] at h
  simp only [List.cons_append, List.append_assoc, List.nil_append, List.cons.injEq, true_and] at h
  rw [canonicalItems_eq_map, canonicalItems_eq_map]
  refine commaSeparated_inj rfl (by decide) (fun p hp o ho => ?_) (hpieces _) (hpieces _) h
  obtain ⟨v, hv, rfl⟩ := List.mem_map.mp hp
  obtain ⟨w, hw, rfl⟩ := List.mem_map.mp ho
  exact hapart v hv w hw

/-- An object is known by the fields that are written of it. -/
theorem sortedFields_of_append_eq {fields others : Fields} {rest rest' : List Char}
    (hapart : ∀ f ∈ fields, ∀ g ∈ others, SetApart (canonicalChars f.2) (canonicalChars g.2))
    (h : canonicalChars (.obj fields) ++ rest = canonicalChars (.obj others) ++ rest') :
    sortedFields fields = sortedFields others ∧ rest = rest' := by
  have hpieces : ∀ (fs : Fields), ∀ p ∈ (sortedFields fs).map canonicalField,
      p ≠ [] ∧ p.head? ≠ some '\x7d' := by
    intro fs p hp
    obtain ⟨f, _, rfl⟩ := List.mem_map.mp hp
    simp [canonicalField, canonicalString]
  rw [canonicalChars, canonicalChars, ← sortedFields, ← sortedFields] at h
  simp only [List.cons_append, List.append_assoc, List.nil_append, List.cons.injEq, true_and] at h
  obtain ⟨hfields, hrest⟩ := commaSeparated_inj rfl (by decide) (fun p hp o ho => by
    obtain ⟨f, hf, rfl⟩ := List.mem_map.mp hp
    obtain ⟨g, hg, rfl⟩ := List.mem_map.mp ho
    obtain ⟨f, hmem, rfl⟩ := mem_sortedFields.mp hf
    obtain ⟨g, hmem', rfl⟩ := mem_sortedFields.mp hg
    exact setApart_canonicalField (hapart f hmem g hmem')) (hpieces _) (hpieces _) h
  exact ⟨List.map_injective_iff.mpr (fun _ _ => canonicalField_inj) hfields, hrest⟩

/-- **The canonical texts of values are set apart.** -/
theorem setApart_canonicalChars (v : Value) :
    ∀ w : Value, SetApart (canonicalChars v) (canonicalChars w) := by
  induction v using Value.induction_on_parts with
  | atom v hatom =>
    intro w rest others hrest hothers h
    have hopener := opener?_eq h
    cases hword : opener? v with
    | none =>
      exact setApart_of_isWordPart (fun c hc => isWordPart_of_mem_canonicalChars hword hc)
        (fun c hc => isWordPart_of_mem_canonicalChars (hopener ▸ hword) hc) hrest hothers h
    | some opener =>
      -- of the atoms only a text is opened
      cases v <;> cases hword <;> cases hatom
      cases w <;> cases hopener
      obtain ⟨rfl, hrest⟩ := canonicalString_append_inj h
      exact ⟨rfl, hrest⟩
  | list items ih =>
    intro w rest others _ _ h
    have hopener := opener?_eq h
    cases w <;> cases hopener
    obtain ⟨hitems, hrest⟩ := canonicalItems_of_append_eq (fun v hv w _ => ih v hv w) h
    exact ⟨by rw [canonicalChars, canonicalChars, hitems], hrest⟩
  | obj fields ih =>
    intro w rest others _ _ h
    have hopener := opener?_eq h
    cases w <;> cases hopener
    obtain ⟨hfields, hrest⟩ := sortedFields_of_append_eq (fun f hf g _ => ih f hf g.2) h
    rw [sortedFields, sortedFields] at hfields
    exact ⟨by rw [canonicalChars, canonicalChars, hfields], hrest⟩

end CallFlow.Json
