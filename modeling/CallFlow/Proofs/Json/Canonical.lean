import Mathlib.Data.List.Permutation
import CallFlow.Proofs.Json.Delimiting
import CallFlow.Proofs.Json.TextKeyed
import CallFlow.Proofs.Number.Reading
import CallFlow.Proofs.Value.Reordered

/-!
# A document is known by its canonical text

Two documents have the same canonical text exactly if they are the same up to
the order of fields (`Json.canonical_eq_iff`). Nothing else is forgotten: `1`,
`1.0` and `true` are different documents with different texts.

Where texts end was settled before, so equal texts are of equal parts. What is
left is that an atom is known by its text (`eq_of_canonicalChars_eq`) and that
sorting is canonical (`sortedFields_eq_iff`). Among the atoms, a whole number is
digits with a sign, while a fraction has a point, an exponent or a letter; and
the text of a finite fraction is read back as a number that reads back as no
other.
-/

namespace CallFlow.Json

/-! ## Fractions -/

section Fractions

variable {x : Float}

/-- **A fraction is read as a number exactly if it is finite.** -/
theorem isSome_read?_canonicalFloat :
    (Decimal.read? (canonicalFloat x)).isSome = true
      ↔ ∃ negative m q, Binary.shape x = .finite negative m q := by
  cases hshape : Binary.shape x with
  | undefined =>
    rw [canonicalFloat_of_undefined hshape]
    simp only [reduceCtorEq, exists_false, iff_false]
    decide
  | infinite negative =>
    rw [canonicalFloat_of_infinite hshape]
    simp only [reduceCtorEq, exists_false, iff_false]
    cases negative <;> decide
  | finite negative m q =>
    obtain ⟨d, hd, _⟩ := Shortest.read?_text hshape
    rw [canonicalFloat_of_finite hshape, hd]
    exact ⟨fun _ => ⟨_, _, _, rfl⟩, fun _ => rfl⟩

/-- **A fraction is known by its text.** -/
theorem canonicalFloat_injective : Function.Injective canonicalFloat := by
  intro x y h
  have hfinite : (∃ negative m q, Binary.shape x = .finite negative m q)
      ↔ ∃ negative m q, Binary.shape y = .finite negative m q := by
    rw [← isSome_read?_canonicalFloat, h, isSome_read?_canonicalFloat]
  cases hx : Binary.shape x with
  | finite negative m q =>
    obtain ⟨_, _, _, hy⟩ := hfinite.mp ⟨_, _, _, hx⟩
    rw [canonicalFloat_of_finite hx, canonicalFloat_of_finite hy] at h
    exact Shortest.eq_of_text_eq hx hy h
  | infinite negative =>
    refine Binary.shape_injective (hx.trans ?_)
    rw [canonicalFloat_of_infinite hx] at h
    cases hy : Binary.shape y with
    | finite => exact absurd (hfinite.mpr ⟨_, _, _, hy⟩) (by simp [hx])
    | infinite negative' =>
      rw [canonicalFloat_of_infinite hy] at h
      exact congrArg _ (by revert h; cases negative <;> cases negative' <;> decide)
    | undefined =>
      rw [canonicalFloat_of_undefined hy] at h
      exact absurd h (by cases negative <;> decide)
  | undefined =>
    refine Binary.shape_injective (hx.trans ?_)
    rw [canonicalFloat_of_undefined hx] at h
    cases hy : Binary.shape y with
    | finite => exact absurd (hfinite.mpr ⟨_, _, _, hy⟩) (by simp [hx])
    | infinite negative =>
      rw [canonicalFloat_of_infinite hy] at h
      exact absurd h (by cases negative <;> decide)
    | undefined => rfl

/-- Whether a character is in whole numbers. -/
def isWholePart (c : Char) : Bool := c.isDigit || c = '-'

theorem all_intText (n : Int) : (intText n).all isWholePart = true := by
  refine List.all_eq_true.mpr fun c hc => ?_
  rw [isWholePart, Bool.or_eq_true, decide_eq_true_eq]
  exact isDigit_or_of_mem_intText hc

/-- A fraction has a character that is in no whole number. -/
theorem all_canonicalFloat (x : Float) : (canonicalFloat x).all isWholePart = false := by
  cases hshape : Binary.shape x with
  | undefined =>
    rw [canonicalFloat_of_undefined hshape]
    decide
  | infinite negative =>
    rw [canonicalFloat_of_infinite hshape]
    cases negative <;> decide
  | finite negative m q =>
    rw [canonicalFloat_of_finite hshape, Shortest.text_of_finite hshape]
    rcases Shortest.exists_mark_mem_finiteText m q with h | h <;>
      exact List.all_eq_false.mpr ⟨_, List.mem_append_right _ h, by decide⟩

/-- A fraction is none of the names of other atoms. -/
theorem canonicalFloat_ne_name {name : List Char}
    (hname : name ∈ ["null".toList, "true".toList, "false".toList]) (x : Float) :
    canonicalFloat x ≠ name := by
  rintro rfl
  cases hshape : Binary.shape x with
  | undefined =>
    rw [canonicalFloat_of_undefined hshape] at hname
    exact absurd hname (by decide)
  | infinite negative =>
    rw [canonicalFloat_of_infinite hshape] at hname
    exact absurd hname (by cases negative <;> decide)
  | finite negative m q =>
    have hread := isSome_read?_canonicalFloat.mpr ⟨_, _, _, hshape⟩
    have hunread : ∀ name ∈ ["null".toList, "true".toList, "false".toList],
        (Decimal.read? name).isSome = false := by decide
    rw [hunread _ hname] at hread
    cases hread

end Fractions

/-! ## Atoms -/

theorem opener?_eq_of_canonicalChars_eq {v w : Value} (h : canonicalChars v = canonicalChars w) :
    opener? v = opener? w :=
  opener?_eq (congrArg (· ++ []) h)

theorem intText_ne {text : List Char} (h : text.all isWholePart = false) (n : Int) :
    intText n ≠ text := by
  rintro rfl
  rw [all_intText] at h
  cases h

/-- Only a whole number has the text of one. -/
theorem eq_int_of_canonicalChars_eq {n : Int} {w : Value} (h : intText n = canonicalChars w) :
    w = .int n := by
  have hopener := opener?_eq_of_canonicalChars_eq (v := .int n) h
  cases w with
  | null => exact absurd h (intText_ne (by decide) n)
  | bool b => cases b <;> exact absurd h (intText_ne (by decide) n)
  | int k => exact congrArg _ (intText_injective h).symm
  | float x => exact absurd h (intText_ne (all_canonicalFloat x) n)
  | _ => cases hopener

/-- Only a fraction has the text of one. -/
theorem eq_float_of_canonicalChars_eq {x : Float} {w : Value}
    (h : canonicalFloat x = canonicalChars w) : w = .float x := by
  have hopener := opener?_eq_of_canonicalChars_eq (v := .float x) h
  cases w with
  | null => exact absurd h (canonicalFloat_ne_name (by decide) x)
  | bool b => cases b <;> exact absurd h (canonicalFloat_ne_name (by decide) x)
  | int n => exact absurd h.symm (intText_ne (all_canonicalFloat x) n)
  | float y => exact congrArg _ (canonicalFloat_injective h).symm
  | _ => cases hopener

/-- **An atom is known by its canonical text.** -/
theorem eq_of_canonicalChars_eq {v w : Value} (hatom : v.isAtom = true)
    (h : canonicalChars v = canonicalChars w) : v = w := by
  have hopener := opener?_eq_of_canonicalChars_eq h
  cases v with
  | int n => exact (eq_int_of_canonicalChars_eq h).symm
  | float x => exact (eq_float_of_canonicalChars_eq h).symm
  | str s =>
    cases w <;> cases hopener
    exact congrArg _ (canonicalString_append_inj (congrArg (· ++ []) h)).1
  | list => cases hatom
  | obj => cases hatom
  | null =>
    cases w with
    | null => rfl
    | bool b => cases b <;> exact absurd h (by decide)
    | int n => exact eq_int_of_canonicalChars_eq h.symm
    | float x => exact eq_float_of_canonicalChars_eq h.symm
    | _ => cases hopener
  | bool b =>
    cases w with
    | null => cases b <;> exact absurd h (by decide)
    | bool b' => exact congrArg _ (by revert h; cases b <;> cases b' <;> decide)
    | int n => exact eq_int_of_canonicalChars_eq h.symm
    | float x => exact eq_float_of_canonicalChars_eq h.symm
    | _ => cases hopener

/-! ## Objects -/

section Objects

variable {fields others : Fields}

theorem pairwise_sortedFields (fields : Fields) :
    (sortedFields fields).Pairwise fun a b => keyOrder a b = true := by
  refine List.pairwise_mergeSort (fun a b c hab hbc => ?_) (fun a b => ?_) _
  · exact decide_eq_true (String.le_trans (of_decide_eq_true hab) (of_decide_eq_true hbc))
  · simpa [keyOrder] using String.le_total a.1 b.1

variable (hfields : IsDocument (.obj fields))

include hfields

/-- Nothing is read under a key that is no text. -/
theorem get?_of_not_isText {key : Key} (hkey : key.isText = false) :
    Fields.get? fields key = none := by
  refine Fields.get?_eq_none_iff.mpr fun f hf => ?_
  by_contra hsame
  have htext := (hereditary_isDocument.mem hfields f hf).1
  rw [Bool.not_eq_false, Key.same_comm] at hsame
  rw [Key.eq_of_same_of_isText htext hsame, htext] at hkey
  cases hkey

/-- **What is written of an object under a key is what is read under it.** -/
theorem mem_sortedFields_iff {key : String} {text : List Char} :
    (key, text) ∈ sortedFields fields
      ↔ (Fields.get? fields key).map canonicalChars = some text := by
  obtain ⟨hdistinct, hmem⟩ := hereditary_isDocument.obj.mp hfields
  rw [mem_sortedFields, Option.map_eq_some_iff]
  constructor
  · rintro ⟨⟨k, v⟩, hf, heq⟩
    obtain ⟨rfl, rfl⟩ := Prod.mk.inj heq
    have htext := (hmem _ hf).1
    cases k with
    | text s => exact ⟨v, Fields.get?_of_mem (hdistinct trivial) hf, rfl⟩
    | _ => cases htext
  · rintro ⟨v, hread, rfl⟩
    obtain ⟨k, hf, hsame⟩ := Fields.mem_of_get? hread
    obtain rfl := Key.same_text.mp hsame
    exact ⟨_, hf, rfl⟩

/-- No field is written twice. -/
theorem nodup_sortedFields : (sortedFields fields).Nodup := by
  obtain ⟨hdistinct, hmem⟩ := hereditary_isDocument.obj.mp hfields
  rw [sortedFields, (List.mergeSort_perm _ _).nodup_iff, canonicalFields_eq_map, List.Nodup,
    List.pairwise_map]
  refine (Fields.distinct_iff_pairwise.mp (hdistinct trivial)).imp_of_mem
    fun {f g} hf hg hne heq => ?_
  obtain ⟨k, v⟩ := f
  obtain ⟨l, w⟩ := g
  have hk := (hmem _ hf).1
  have hl := (hmem _ hg).1
  cases k <;> cases hk
  cases l <;> cases hl
  next s t =>
    obtain rfl : s = t := (Prod.mk.inj heq).1
    exact absurd hne (by simp [Key.same_self])

variable (hothers : IsDocument (.obj others))

include hothers

/-- **Objects are written the same exactly if the same is written of what is read
under every key.** -/
theorem sortedFields_eq_iff :
    sortedFields fields = sortedFields others
      ↔ ∀ key, (Fields.get? fields key).map canonicalChars
        = (Fields.get? others key).map canonicalChars := by
  constructor
  · intro h key
    cases key with
    | text s =>
      refine Option.ext fun text => ?_
      rw [← mem_sortedFields_iff hfields, ← mem_sortedFields_iff hothers, h]
    | _ =>
      rw [get?_of_not_isText hfields rfl, get?_of_not_isText hothers rfl]
  · intro h
    have hmem : ∀ field, field ∈ sortedFields fields ↔ field ∈ sortedFields others := by
      rintro ⟨key, text⟩
      rw [mem_sortedFields_iff hfields, mem_sortedFields_iff hothers, h]
    have hperm := (List.perm_ext_iff_of_nodup (nodup_sortedFields hfields)
      (nodup_sortedFields hothers)).mpr hmem
    refine hperm.eq_of_pairwise (fun a b ha hb hab hba => ?_) (pairwise_sortedFields _)
      (pairwise_sortedFields _)
    have hkey : a.1 = b.1 := String.le_antisymm (of_decide_eq_true hab) (of_decide_eq_true hba)
    have ha' := (mem_sortedFields_iff hothers).mp ((hmem a).mp ha)
    rw [hkey, (mem_sortedFields_iff hothers).mp hb] at ha'
    exact Prod.ext hkey (Option.some.inj ha').symm

end Objects

/-! ## Documents -/

/-- Sequences have the same text exactly if their items have. -/
theorem canonicalChars_list_eq_iff {items others : List Value} :
    canonicalChars (.list items) = canonicalChars (.list others)
      ↔ List.Forall₂ (fun v w => canonicalChars v = canonicalChars w) items others := by
  rw [← List.forall₂_map_right_iff (R := fun v t => canonicalChars v = t),
    ← List.forall₂_map_left_iff (R := Eq), List.forall₂_eq_eq_eq, ← canonicalItems_eq_map,
    ← canonicalItems_eq_map]
  refine ⟨fun h => ?_, fun h => by rw [canonicalChars, canonicalChars, h]⟩
  exact (canonicalItems_of_append_eq (fun v _ w _ => setApart_canonicalChars v w)
    (congrArg (· ++ []) h)).1

/-- Objects have the same text exactly if the same fields are written of them. -/
theorem canonicalChars_obj_eq_iff {fields others : Fields} :
    canonicalChars (.obj fields) = canonicalChars (.obj others)
      ↔ sortedFields fields = sortedFields others := by
  refine ⟨fun h => ?_, fun h => ?_⟩
  · exact (sortedFields_of_append_eq (fun f _ g _ => setApart_canonicalChars f.2 g.2)
      (congrArg (· ++ []) h)).1
  · rw [sortedFields, sortedFields] at h
    rw [canonicalChars, canonicalChars, h]

/-- **Documents have the same text exactly if they are reorderings**: part by part, they
have the same atoms. -/
theorem canonicalChars_eq_iff {v : Value} (hv : IsDocument v) :
    ∀ {w : Value}, IsDocument w → (canonicalChars v = canonicalChars w ↔ v.Reordered w) := by
  have hother : ∀ {v w : Value}, opener? v ≠ opener? w →
      canonicalChars v = canonicalChars w → False := fun hne h =>
    hne (opener?_eq_of_canonicalChars_eq h)
  induction v using Value.induction_on_parts with
  | atom v hatom =>
    intro w _
    rw [Value.reordered_iff_of_isAtom hatom]
    exact ⟨eq_of_canonicalChars_eq hatom, fun h => h ▸ rfl⟩
  | list items ih =>
    intro w hw
    cases w with
    | list others =>
      rw [canonicalChars_list_eq_iff, Value.reordered_list_iff]
      exact forall₂_congr_of_mem fun v hmem w hmem' =>
        ih v hmem (hereditary_isDocument.list.mp hv v hmem)
          (hereditary_isDocument.list.mp hw w hmem')
    | _ => exact ⟨fun h => (hother (by simp [opener?]) h).elim, fun h => by cases h⟩
  | obj fields ih =>
    intro w hw
    cases w with
    | obj others =>
      rw [canonicalChars_obj_eq_iff, sortedFields_eq_iff hv hw,
        Value.reordered_obj_iff ((hereditary_isDocument.obj.mp hv).1 trivial)
          ((hereditary_isDocument.obj.mp hw).1 trivial)]
      refine forall_congr' fun key => ?_
      cases hread : Fields.get? fields key with
      | none => cases Fields.get? others key <;> simp
      | some v =>
        cases hread' : Fields.get? others key with
        | none => simp
        | some w =>
          obtain ⟨k, hmem, _⟩ := Fields.mem_of_get? hread
          simpa using ih (k, v) hmem (hereditary_isDocument.get? hv hread)
            (hereditary_isDocument.get? hw hread')
    | _ => exact ⟨fun h => (hother (by simp [opener?]) h).elim, fun h => by cases h⟩

/-- **A document is known by its canonical text, up to the order of fields.** -/
theorem canonical_eq_iff {v w : Value} (hv : IsDocument v) (hw : IsDocument w) :
    canonical v = canonical w ↔ v.Reordered w := by
  rw [canonical, canonical, String.ofList_inj, canonicalChars_eq_iff hv hw]

end CallFlow.Json
