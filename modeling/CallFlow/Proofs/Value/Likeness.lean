import CallFlow.Proofs.Number.Shape
import CallFlow.Proofs.Value.WellFormed

/-!
# Values that say the same, piece by piece

Sequences say the same if their items do (`saysSame_list`), and objects do
if their fields do, one after the other (`saysSame_obj`). Fields that stand
so beside each other are *alike* (`Fields.Alike`), and stay alike when values
that say the same are written under one key.

Of well-formed values, those that say the same fall into classes: each says the
same as itself, as what says the same as it (`saysSame_symm`), and as what its
likes say the same as (`saysSame_trans`). Between objects the keys have to be
distinct for this, since only the fields of one are looked up in the other.

A blank number says the same as `0`, however it is written. So it does not
matter to what a value says whether a default has been put in its place yet
(`saysSame_orElse`). For fractions this rests on how they are stored: of the
64 bits of a zero all but the sign are `0`.
-/

namespace CallFlow

/-! ## Texts, sequences and objects -/

theorem Value.eq_str_of_saysSame {s : String} {v : Value} (h : (str s).saysSame v = true) :
    v = .str s := by
  cases v with
  | str t =>
    rw [saysSame, beq_iff_eq] at h
    rw [h]
  | _ => simp [saysSame, number?] at h

theorem Value.eq_null_of_saysSame {v : Value} (h : null.saysSame v = true) : v = .null := by
  cases v with
  | null => rfl
  | _ => simp [saysSame, number?] at h

theorem Value.eq_list_of_saysSame {xs : List Value} {v : Value}
    (h : (list xs).saysSame v = true) : ∃ ys, v = .list ys ∧ itemsSaySame xs ys = true := by
  cases v with
  | list ys =>
    rw [saysSame] at h
    exact ⟨ys, rfl, h⟩
  | _ => simp [saysSame, number?] at h

/-- Only an object says the same as an object. -/
theorem Value.eq_obj_of_saysSame {fields : Fields} {v : Value}
    (h : (obj fields).saysSame v = true) :
    ∃ others, v = .obj others ∧ fields.length = others.length
      ∧ fieldsSaySame fields others = true := by
  cases v with
  | obj others =>
    rw [saysSame, Bool.and_eq_true, beq_iff_eq] at h
    exact ⟨others, rfl, h⟩
  | _ => simp [saysSame, number?] at h

theorem Value.saysSame_list {xs ys : List Value}
    (h : List.Forall₂ (fun v w => v.saysSame w = true) xs ys) :
    (list xs).saysSame (list ys) = true := by
  rw [saysSame]
  induction h with
  | nil => rfl
  | cons hvw _ ih => rw [itemsSaySame, hvw, ih, Bool.and_true]

namespace Fields

/-- Whether fields stand under the same keys, one after the other, and say
the same there. -/
def Alike (fields others : Fields) : Prop :=
  List.Forall₂ (fun f g => g.1 = f.1 ∧ f.2.saysSame g.2 = true) fields others

theorem Alike.refl {fields : Fields} (h : fieldsWellFormed fields = true) : Alike fields fields :=
  List.forall₂_same.mpr fun f hf => ⟨rfl, Value.saysSame_self f.2 (fieldsWellFormed_iff.mp h f hf)⟩

/-- **What is written under a key keeps fields alike** if it says the same in
both. -/
theorem Alike.put {fields others : Fields} (h : Alike fields others) (key : Key) {v w : Value}
    (hvw : v.saysSame w = true) :
    Alike (put fields key v) (put others key w) := by
  induction h with
  | nil => exact .cons ⟨rfl, hvw⟩ .nil
  | @cons f g fields others hfg hrest ih =>
    obtain ⟨k, x⟩ := f
    obtain ⟨l, y⟩ := g
    obtain ⟨rfl, hxy⟩ := hfg
    rw [Fields.put, Fields.put]
    split
    · exact .cons ⟨rfl, hvw⟩ hrest
    · exact .cons ⟨rfl, hxy⟩ ih

end Fields

/-- **Objects say the same if their fields are alike.** -/
theorem Value.saysSame_obj {fields others : Fields} (h : Fields.Alike fields others)
    (hd : Fields.distinct others = true) : (obj fields).saysSame (obj others) = true := by
  have hall : ∀ fs gs : Fields, Fields.Alike fs gs → (∀ g ∈ gs, g ∈ others) →
      fieldsSaySame fs others = true := by
    intro fs gs hfs
    induction hfs with
    | nil => exact fun _ => rfl
    | @cons f g fs gs hfg _ ih =>
      intro hsub
      obtain ⟨k, x⟩ := f
      obtain ⟨l, y⟩ := g
      obtain ⟨rfl, hxy⟩ := hfg
      have hread := Fields.get?_of_mem hd (hsub _ List.mem_cons_self)
      rw [fieldsSaySame, hread, ih fun g hg => hsub g (List.mem_cons_of_mem _ hg), Bool.and_true]
      exact hxy
  rw [saysSame, hall fields others h fun g hg => hg, Bool.and_true, beq_iff_eq]
  exact List.Forall₂.length_eq h

/-! ## Either way round, and one after the other -/

theorem Number.same_symm {m n : Number} (h : m.same n = true) : n.same m = true := by
  simp only [Number.same, decide_eq_true_eq] at h ⊢
  exact h.symm

theorem Number.same_trans {m n k : Number} (h : m.same n = true) (h' : n.same k = true) :
    m.same k = true := by
  simp only [Number.same, decide_eq_true_eq] at h h' ⊢
  exact h.trans h'

section Numbers

variable {v w u : Value} {m : Number} (hm : v.number? = some m)

include hm

theorem Value.saysSame_number_iff :
    v.saysSame w = true ↔ ∃ n, w.number? = some n ∧ m.same n = true := by
  cases v <;> cases hm <;> cases w <;> simp [saysSame, number?]

theorem Value.saysSame_symm_number (h : v.saysSame w = true) : w.saysSame v = true := by
  obtain ⟨n, hn, hmn⟩ := (saysSame_number_iff hm).mp h
  exact (saysSame_number_iff hn).mpr ⟨m, hm, Number.same_symm hmn⟩

theorem Value.saysSame_trans_number (h : v.saysSame w = true) (h' : w.saysSame u = true) :
    v.saysSame u = true := by
  obtain ⟨n, hn, hmn⟩ := (saysSame_number_iff hm).mp h
  obtain ⟨k, hk, hnk⟩ := (saysSame_number_iff hn).mp h'
  exact (saysSame_number_iff hm).mpr ⟨k, hk, Number.same_trans hmn hnk⟩

end Numbers

/-- Fields say the same as an object if each does as what is read under its
key. -/
theorem fieldsSaySame_iff {fields others : Fields} :
    fieldsSaySame fields others = true
      ↔ ∀ f ∈ fields, ∃ w, Fields.get? others f.1 = some w ∧ f.2.saysSame w = true := by
  induction fields with
  | nil => simp [fieldsSaySame]
  | cons f rest ih =>
    obtain ⟨k, v⟩ := f
    rw [fieldsSaySame, Bool.and_eq_true, ih, List.forall_mem_cons]
    cases Fields.get? others k <;> simp

theorem get?_of_fieldsSaySame {fields others : Fields} (h : fieldsSaySame fields others = true)
    {key : Key} {v : Value} (hread : Fields.get? fields key = some v) :
    ∃ w, Fields.get? others key = some w ∧ v.saysSame w = true := by
  obtain ⟨k, hmem, hsame⟩ := Fields.mem_of_get? hread
  obtain ⟨w, hw, hvw⟩ := fieldsSaySame_iff.mp h _ hmem
  exact ⟨w, (Fields.get?_congr others hsame).symm.trans hw, hvw⟩

mutual

/-- **A value says the same as what says the same as one that does.** -/
theorem Value.saysSame_trans : (v : Value) → {w u : Value} → v.saysSame w = true →
    w.saysSame u = true → v.saysSame u = true
  | .null, _, _, h, h' => by
    rw [Value.eq_null_of_saysSame h] at h'
    exact h'
  | .str s, _, _, h, h' => by
    rw [Value.eq_str_of_saysSame h] at h'
    exact h'
  | .bool _, _, _, h, h' => Value.saysSame_trans_number rfl h h'
  | .int _, _, _, h, h' => Value.saysSame_trans_number rfl h h'
  | .float _, _, _, h, h' => Value.saysSame_trans_number rfl h h'
  | .list xs, _, _, h, h' => by
    obtain ⟨ys, rfl, hxy⟩ := Value.eq_list_of_saysSame h
    obtain ⟨zs, rfl, hyz⟩ := Value.eq_list_of_saysSame h'
    rw [Value.saysSame]
    exact itemsSaySame_trans xs hxy hyz
  | .obj fields, _, _, h, h' => by
    obtain ⟨others, rfl, hlen, hsame⟩ := Value.eq_obj_of_saysSame h
    obtain ⟨last, rfl, hlen', hsame'⟩ := Value.eq_obj_of_saysSame h'
    rw [Value.saysSame, hlen.trans hlen', beq_self_eq_true, Bool.true_and]
    exact fieldsSaySame_trans fields hsame hsame'

theorem itemsSaySame_trans : (xs : List Value) → {ys zs : List Value} →
    itemsSaySame xs ys = true → itemsSaySame ys zs = true → itemsSaySame xs zs = true
  | [], [], [], _, _ => rfl
  | x :: xs, y :: ys, z :: zs, h, h' => by
    rw [itemsSaySame, Bool.and_eq_true] at h h' ⊢
    exact ⟨Value.saysSame_trans x h.1 h'.1, itemsSaySame_trans xs h.2 h'.2⟩

/-- Fields say the same one after the other. -/
theorem fieldsSaySame_trans : (fields : Fields) → {others last : Fields} →
    fieldsSaySame fields others = true → fieldsSaySame others last = true →
    fieldsSaySame fields last = true
  | [], _, _, _, _ => rfl
  | (k, v) :: rest, others, last, h, h' => by
    rw [fieldsSaySame, Bool.and_eq_true] at h ⊢
    refine ⟨?_, fieldsSaySame_trans rest h.2 h'⟩
    cases hread : Fields.get? others k with
    | none =>
      rw [hread] at h
      cases h.1
    | some w =>
      obtain ⟨u, hu, hwu⟩ := get?_of_fieldsSaySame h' hread
      rw [hread] at h
      rw [hu]
      exact Value.saysSame_trans v h.1 hwu

end

mutual

/-- **Of two well-formed values each says the same as the other** if one
does. -/
theorem Value.saysSame_symm : (v : Value) → {w : Value} → v.wellFormed = true →
    w.wellFormed = true → v.saysSame w = true → w.saysSame v = true
  | .null, _, _, _, h => by
    rw [Value.eq_null_of_saysSame h]
    rfl
  | .str s, _, hv, _, h => by
    rw [Value.eq_str_of_saysSame h]
    exact Value.saysSame_self _ hv
  | .bool _, _, _, _, h => Value.saysSame_symm_number rfl h
  | .int _, _, _, _, h => Value.saysSame_symm_number rfl h
  | .float _, _, _, _, h => Value.saysSame_symm_number rfl h
  | .list xs, _, hv, hw, h => by
    obtain ⟨ys, rfl, hxy⟩ := Value.eq_list_of_saysSame h
    rw [Value.wellFormed] at hv hw
    rw [Value.saysSame]
    exact itemsSaySame_symm xs hv hw hxy
  | .obj fields, _, hv, hw, h => by
    obtain ⟨others, rfl, hlen, hsame⟩ := Value.eq_obj_of_saysSame h
    rw [Value.wellFormed, Bool.and_eq_true] at hv hw
    rw [Value.saysSame, hlen, beq_self_eq_true, Bool.true_and]
    refine fieldsSaySame_iff.mpr fun g hg => ?_
    have hread := fieldsSaySame_iff.mp hsame
    -- there are as many keys on either side, so the key of the field is on the other
    obtain ⟨f, hf, hkey⟩ := Fields.exists_mem_of_has hv.1 hlen (fun f hf => by
      obtain ⟨w, hw, _⟩ := hread f hf
      rw [Fields.has, hw]
      rfl) g hg
    obtain ⟨w, hw', hfw⟩ := hread f hf
    rw [Fields.get?_congr others hkey, Fields.get?_of_mem hw.1 hg] at hw'
    obtain rfl := Option.some.inj hw'
    refine ⟨f.2, ?_, fieldSaysSame_symm fields hv.2 f hf (fieldsWellFormed_iff.mp hw.2 g hg) hfw⟩
    rw [← Fields.get?_congr fields hkey, Fields.get?_of_mem hv.1 hf]

theorem itemsSaySame_symm : (xs : List Value) → {ys : List Value} → itemsWellFormed xs = true →
    itemsWellFormed ys = true → itemsSaySame xs ys = true → itemsSaySame ys xs = true
  | [], [], _, _, _ => rfl
  | x :: xs, y :: ys, hx, hy, h => by
    rw [itemsWellFormed, Bool.and_eq_true] at hx hy
    rw [itemsSaySame, Bool.and_eq_true] at h ⊢
    exact ⟨Value.saysSame_symm x hx.1 hy.1 h.1, itemsSaySame_symm xs hx.2 hy.2 h.2⟩

/-- What says the same as a well-formed field of an object has the field say the
same as it. -/
theorem fieldSaysSame_symm : (fields : Fields) → fieldsWellFormed fields = true →
    ∀ f ∈ fields, ∀ {w : Value}, w.wellFormed = true → f.2.saysSame w = true →
      w.saysSame f.2 = true
  | [], _, _, hf, _, _, _ => absurd hf List.not_mem_nil
  | (k, v) :: rest, hwell, f, hf, w, hw, h => by
    rw [fieldsWellFormed, Bool.and_eq_true] at hwell
    rcases List.mem_cons.mp hf with rfl | hrest
    · exact Value.saysSame_symm v hwell.1 hw h
    · exact fieldSaysSame_symm rest hwell.2 f hrest hw h

end

/-! ## Blank numbers -/

open Float.Model in
/-- A fraction that counts as zero is stored as one. -/
theorem Binary.unpack_of_beq_zero {x : Float} (h : (x == 0.0) = true) :
    ∃ sign, x.toModel.unpack = .zero sign := by
  replace h : x.toModel.unpack.beq (.zero .positive) = true := h
  cases hx : x.toModel.unpack with
  | zero sign => exact ⟨sign, rfl⟩
  | infinity sign =>
    rw [hx] at h
    cases sign <;> cases h
  | notANumber =>
    rw [hx] at h
    cases h
  | finite sign m e hm =>
    rw [hx] at h
    cases sign <;> cases h

open Float.Model in
/-- A zero is stored without exponent and without digits. -/
theorem Binary.parts_of_unpack_zero {b : BitVec 64} {sign : UnpackedFloat.Sign}
    (h : UnpackedFloat.unpack .binary64 b = .zero sign) :
    @UnpackedFloat.unpackExponent .binary64 b = 0#11
      ∧ @UnpackedFloat.unpackMantissa .binary64 b = 0#52 := by
  delta UnpackedFloat.unpack at h
  dsimp only at h
  by_cases hfull : @UnpackedFloat.unpackExponent .binary64 b = -1#11
  · rw [if_pos hfull] at h
    by_cases hdigits : @UnpackedFloat.unpackMantissa .binary64 b = 0#52
    · rw [if_pos hdigits] at h
      cases h
    · rw [if_neg hdigits] at h
      cases h
  rw [if_neg hfull] at h
  by_cases hexponent : @UnpackedFloat.unpackExponent .binary64 b = 0#11
  · rw [if_pos hexponent] at h
    by_cases hdigits : @UnpackedFloat.unpackMantissa .binary64 b = 0#52
    · exact ⟨hexponent, hdigits⟩
    · rw [dif_neg hdigits] at h
      cases h
  · rw [if_neg hexponent] at h
    cases h

open Float.Model in
/-- **The bits of a zero** are all `0` but for the sign. -/
theorem Binary.shape_of_beq_zero {x : Float} (h : (x == 0.0) = true) :
    ∃ negative, shape x = .finite negative 0 Shape.smallestPower := by
  obtain ⟨sign, hx⟩ := unpack_of_beq_zero h
  obtain ⟨hexponent, hdigits⟩ := parts_of_unpack_zero hx
  have hexp : x.toBits.toNat / Nat.pow 2 Shape.fractionBits % Nat.pow 2 11 = 0 :=
    (toNat_unpackExponent x).symm.trans (congrArg BitVec.toNat hexponent)
  have hdig : x.toBits.toNat % Nat.pow 2 Shape.fractionBits = 0 :=
    (toNat_unpackMantissa x).symm.trans (congrArg BitVec.toNat hdigits)
  rw [shape, Shape.ofBits]
  simp only [hexp, hdig]
  exact ⟨_, rfl⟩

namespace Value

/-- A blank number counts for `0`. -/
theorem reduced_of_blank {v : Value} {n : Number} (hn : v.number? = some n)
    (hblank : v.truthy = false) : n.reduced = .int 0 := by
  cases v with
  | bool b =>
    obtain rfl := Option.some.inj hn
    cases b with
    | false => rfl
    | true => cases hblank
  | int i =>
    obtain rfl := Option.some.inj hn
    obtain rfl : i = 0 := by simpa [truthy] using hblank
    rfl
  | float x =>
    obtain rfl := Option.some.inj hn
    obtain ⟨negative, hshape⟩ := Binary.shape_of_beq_zero (x := x) (by
      simpa [truthy, bne] using hblank)
    have hwhole : Shape.whole? negative 0 Shape.smallestPower = some 0 := by
      cases negative <;> decide +kernel
    rw [Number.reduced, hshape]
    simp only [hwhole]
  | _ => cases hn

theorem saysSame_of_number {v w : Value} {n : Number} (hn : w.number? = some n) :
    v.saysSame w = v.number?.any fun m => m.same n := by
  cases w <;> cases hn <;> cases v <;> simp [saysSame, number?]

/-- **It does not matter to what a value says whether a default has been put
in its place yet**: a value that says the same as one that needs no default
says the same after its own default was filled in. -/
theorem saysSame_orElse {v w : Value} (hv : v.orElse (.int 0) = v) (h : v.saysSame w = true) :
    v.saysSame (w.orElse (.int 0)) = true := by
  cases hw : w.truthy with
  | true => rwa [orElse_of_truthy hw]
  | false =>
    have hdefault : w.orElse (.int 0) = .int 0 := by simp [orElse, hw]
    rw [hdefault]
    cases hn : w.number? with
    | some n =>
      have hsame : ∀ m : Number, m.same n = m.same (.int 0) := by
        intro m
        rw [Number.same, Number.same, reduced_of_blank hn hw]
        rfl
      rw [saysSame_of_number hn] at h
      rw [saysSame_of_number rfl, ← h]
      exact congrArg (Option.any · v.number?) (funext fun m => (hsame m).symm)
    | none =>
      -- the other blank values say the same as none but themselves, and need a default
      exfalso
      cases w <;> cases v <;> simp_all [saysSame, truthy, orElse, number?, itemsSaySame]

end Value

end CallFlow
