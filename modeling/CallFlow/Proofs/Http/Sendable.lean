import CallFlow.Http.Wire
import CallFlow.Proofs.Value.Hereditary
import CallFlow.Proofs.Json.TextKeyed
import CallFlow.Settings.Environment

/-!
# What goes over the network

A value has a form in a request or an answer if its keys are texts and its
numbers are finite (`IsSendable`). Such a value is sent as it is
(`sendable_of_isFinite`); any other is sent with null for what is no finite
number.
-/

namespace CallFlow

/-- **Whether a value can be sent as it is**: its keys are texts and its
numbers are finite. -/
def IsSendable (value : Value) : Prop := Json.textKeyed value = true ∧ isFinite value = true

theorem isFinite_list {items : List Value} :
    isFinite (.list items) = true ↔ ∀ v ∈ items, isFinite v = true := by
  show areFinite items = true ↔ _
  induction items with
  | nil => simp [areFinite]
  | cons v rest ih => simp [areFinite, ih]

theorem isFinite_obj {fields : Fields} :
    isFinite (.obj fields) = true ↔ ∀ f ∈ fields, isFinite f.2 = true := by
  show haveFinite fields = true ↔ _
  induction fields with
  | nil => simp [haveFinite]
  | cons f rest ih => simp [haveFinite, ih]

/-- **That a value can be sent as it is, is hereditary.** -/
theorem hereditary_isSendable : Value.Hereditary False IsSendable where
  null := ⟨rfl, rfl⟩
  int _ := ⟨rfl, rfl⟩
  str _ := ⟨rfl, rfl⟩
  list {items} := by
    unfold IsSendable
    rw [Json.hereditary_textKeyed.list, isFinite_list, ← forall₂_and]
  obj {fields} := by
    unfold IsSendable
    rw [Json.hereditary_textKeyed.obj, isFinite_obj, and_assoc, ← forall₂_and]
    simp only [and_assoc]

namespace Wire

/-! ## Values as they are sent -/

mutual

/-- **A value of finite numbers is sent as it is.** -/
theorem sendable_of_isFinite : ∀ value : Value, isFinite value = true → sendable value = value
  | .float x, h => by
    have hfinite : isFiniteFloat x = true := h
    rw [sendable, if_pos hfinite]
  | .list items, h => by
    rw [sendable, sendableItems_of_areFinite items h]
  | .obj fields, h => by
    rw [sendable, sendableFields_of_haveFinite fields h]
  | .null, _ | .bool _, _ | .int _, _ | .str _, _ => rfl

theorem sendableItems_of_areFinite :
    ∀ items : List Value, areFinite items = true → sendableItems items = items
  | [], _ => rfl
  | v :: rest, h => by
    rw [areFinite, Bool.and_eq_true] at h
    rw [sendableItems, sendable_of_isFinite v h.1, sendableItems_of_areFinite rest h.2]

theorem sendableFields_of_haveFinite :
    ∀ fields : Fields, haveFinite fields = true → sendableFields fields = fields
  | [], _ => rfl
  | (k, v) :: rest, h => by
    rw [haveFinite, Bool.and_eq_true] at h
    rw [sendableFields, sendable_of_isFinite v h.1, sendableFields_of_haveFinite rest h.2]

end

/-! ## Texts -/

section Texts

variable {p q : String → Bool}

theorem allTexts_list {items : List Value} :
    allTexts p (.list items) = true ↔ ∀ v ∈ items, allTexts p v = true := by
  show (textsOfItems items).all p = true ↔ _
  induction items with
  | nil => simp [textsOfItems]
  | cons v rest ih => simp [textsOfItems, List.all_append, allTexts, ih]

theorem allTexts_obj {fields : Fields} :
    allTexts p (.obj fields) = true
      ↔ ∀ f ∈ fields, (textOfKey f.1).all p = true ∧ allTexts p f.2 = true := by
  show (textsOfFields fields).all p = true ↔ _
  induction fields with
  | nil => simp [textsOfFields]
  | cons f rest ih => simp [textsOfFields, List.all_append, allTexts, ih, and_assoc]

theorem allTexts_imp (h : ∀ s, p s = true → q s = true) {value : Value}
    (hall : allTexts p value = true) : allTexts q value = true :=
  List.all_eq_true.mpr fun s hs => h s (List.all_eq_true.mp hall s hs)

theorem allTexts_of_forall (h : ∀ s, p s = true) (value : Value) : allTexts p value = true :=
  List.all_eq_true.mpr fun s _ => h s

end Texts

/-! ## Parts of what is sent -/

/-- What is sent under a key is what was there, as it is sent. -/
theorem get?_sendableFields (fields : Fields) (key : Key) :
    Fields.get? (sendableFields fields) key = (Fields.get? fields key).map sendable := by
  induction fields with
  | nil => rfl
  | cons f rest ih =>
    obtain ⟨k, v⟩ := f
    rw [sendableFields, Fields.get?, Fields.get?]
    split
    · rfl
    · exact ih

end Wire

/-! ## Settings of the environment -/

namespace Settings

end Settings

end CallFlow
