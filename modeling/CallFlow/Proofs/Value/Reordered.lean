import CallFlow.Proofs.Value.Fields
import Mathlib.Data.Option.Basic

/-!
# Documents up to the order of fields

A document that is saved anew need not have its fields in the order it had
them. It is a *reordering* of another if the objects in it, at whatever
depth, have the same keys, each of them once, and under each key a
reordering of what was there. Sequences keep their order.
-/

namespace CallFlow

/-- **Whether two documents are the same up to the order of fields.** -/
inductive Value.Reordered : Value → Value → Prop where
  /-- Nothing is reordered. -/
  | refl (v : Value) : Reordered v v
  /-- The items of a sequence are reordered one by one. -/
  | list {xs ys : List Value} : List.Forall₂ Reordered xs ys → Reordered (.list xs) (.list ys)
  /-- Objects have the same keys, each once, in any order. -/
  | obj {fs gs : Fields} : Fields.distinct fs = true → Fields.distinct gs = true →
      (∀ key, Option.Rel Reordered (Fields.get? fs key) (Fields.get? gs key)) →
      Reordered (.obj fs) (.obj gs)

theorem Value.reordered_iff_of_isAtom {v w : Value} (h : v.isAtom = true) :
    v.Reordered w ↔ v = w := by
  refine ⟨fun hvw => ?_, fun hvw => hvw ▸ .refl v⟩
  cases hvw with
  | refl => rfl
  | _ => cases h

theorem Value.reordered_list_iff {xs ys : List Value} :
    (list xs).Reordered (.list ys) ↔ List.Forall₂ Reordered xs ys := by
  refine ⟨fun h => ?_, .list⟩
  cases h with
  | refl => exact List.forall₂_same.mpr fun x _ => .refl x
  | list h => exact h

theorem Value.Reordered.option_refl (v : Option Value) : Option.Rel Value.Reordered v v := by
  cases v with
  | none => exact .none
  | some v => exact .some (.refl v)

/-- Objects under distinct keys are reordered key by key. -/
theorem Value.reordered_obj_iff {fs gs : Fields} (hf : Fields.distinct fs = true)
    (hg : Fields.distinct gs = true) :
    (obj fs).Reordered (.obj gs)
      ↔ ∀ key, Option.Rel Reordered (Fields.get? fs key) (Fields.get? gs key) := by
  refine ⟨fun h => ?_, .obj hf hg⟩
  cases h with
  | refl => exact fun key => Reordered.option_refl _
  | obj _ _ h => exact h

/-- **Objects that read the same under every key are reorderings.** -/
theorem Value.Reordered.of_get?_eq {fs gs : Fields} (hf : Fields.distinct fs = true)
    (hg : Fields.distinct gs = true) (h : ∀ key, Fields.get? fs key = Fields.get? gs key) :
    (Value.obj fs).Reordered (.obj gs) :=
  .obj hf hg fun key => h key ▸ option_refl _

/-- A value written under a key it stands under changes nothing. -/
theorem Fields.put_eq_self {fields : Fields} {key : Key} {value : Value}
    (h : Fields.get? fields key = some value) : Fields.put fields key value = fields := by
  induction fields with
  | nil => cases h
  | cons f rest ih =>
    obtain ⟨k, v⟩ := f
    rw [get?] at h
    rw [put]
    by_cases hk : k.same key = true
    · rw [if_pos hk] at h ⊢
      rw [Option.some.inj h]
    · rw [if_neg hk] at h ⊢
      rw [ih h]

/-- **Writing reorderings under a key gives reorderings.** -/
theorem Value.Reordered.put_put {fields : Fields} (hd : Fields.distinct fields = true) (key : Key)
    {value value' : Value} (h : value.Reordered value') :
    (Value.obj (Fields.put fields key value)).Reordered (.obj (Fields.put fields key value')) := by
  refine .obj (Fields.distinct_put hd _ _) (Fields.distinct_put hd _ _) fun other => ?_
  rw [Fields.get?_put, Fields.get?_put]
  split
  · exact .some h
  · exact option_refl _

theorem Value.Reordered.put {fields : Fields} (hd : Fields.distinct fields = true) {key : Key}
    {value value' : Value} (hread : Fields.get? fields key = some value)
    (h : value'.Reordered value) :
    (Value.obj (Fields.put fields key value')).Reordered (.obj fields) := by
  have hput := Value.Reordered.put_put hd key h
  rwa [Fields.put_eq_self hread] at hput

end CallFlow
