import CallFlow.Json.Canonical
import CallFlow.Proofs.Config.Places
import CallFlow.Proofs.Value.WellFormed

/-!
# Documents with texts for keys

A value has a canonical text if all its keys are texts, as they are
wherever it was read from text. In a *document* (`Json.IsDocument`) no object
has two of them that are the same, either, and in a *proper* one
(`Json.IsProper`) no number is undefined. All are hereditary properties, so
whatever is loaded from such values is one, and whatever is saved of them
(`Value.Hereditary.saveGraph`).
-/

namespace CallFlow

namespace Json

/-- **That all keys are texts is hereditary.** -/
theorem hereditary_textKeyed : Value.Hereditary False fun value => textKeyed value = true where
  null := rfl
  int _ := rfl
  str _ := rfl
  list {items} := by
    rw [textKeyed]
    induction items with
    | nil => simp [textKeyedItems]
    | cons v rest ih => simp [textKeyedItems, ih]
  obj {fields} := by
    rw [textKeyed]
    induction fields with
    | nil => simp [textKeyedFields]
    | cons f rest ih => simp_all [textKeyedFields, and_assoc]

/-- **Whether a value is a document**: all keys are texts, and no object has one of
them twice. -/
def IsDocument (value : Value) : Prop := textKeyed value = true ∧ value.wellFormed = true

instance (value : Value) : Decidable (IsDocument value) :=
  inferInstanceAs (Decidable (_ ∧ _))

/-- **That a value is a document is hereditary.** -/
theorem hereditary_isDocument : Value.Hereditary True IsDocument where
  null := ⟨rfl, rfl⟩
  int _ := ⟨rfl, rfl⟩
  str _ := ⟨rfl, rfl⟩
  list {items} := by
    unfold IsDocument
    rw [hereditary_textKeyed.list, Value.wellFormed_list, ← forall₂_and]
  obj {fields} := by
    unfold IsDocument
    rw [hereditary_textKeyed.obj, Value.wellFormed_obj]
    simp only [false_imp_iff, true_imp_iff, true_and, ← and_assoc, forall_and]
    tauto

/-- **Whether a value is a proper document**: the keys of every object are texts,
none of them twice, and no number is undefined. -/
inductive IsProper : Value → Prop
  /-- An atom is, unless it is a number and none. -/
  | atom {value : Value} (hatom : value.isAtom = true) (hdefined : value.isUndefined = false) :
    IsProper value
  /-- A sequence is, if its items are. -/
  | list {items : List Value} (hitems : ∀ v ∈ items, IsProper v) : IsProper (.list items)
  /-- An object is, if its keys are different texts and its values are. -/
  | obj {fields : Fields} (hdistinct : Fields.distinct fields = true)
    (htexts : ∀ f ∈ fields, f.1.isText = true) (hvalues : ∀ f ∈ fields, IsProper f.2) :
    IsProper (.obj fields)

/-- **That a value is a proper document is hereditary.** -/
theorem hereditary_isProper : Value.Hereditary True IsProper where
  null := .atom rfl rfl
  int _ := .atom rfl rfl
  str _ := .atom rfl rfl
  list := by
    refine ⟨fun h => ?_, .list⟩
    cases h with
    | atom hatom => cases hatom
    | list hitems => exact hitems
  obj := by
    refine ⟨fun h => ?_, fun h => .obj (h.1 trivial) (fun f hf => (h.2 f hf).1)
      fun f hf => (h.2 f hf).2⟩
    cases h with
    | atom hatom => cases hatom
    | obj hdistinct htexts hvalues =>
      exact ⟨fun _ => hdistinct, fun f hf => ⟨htexts f hf, hvalues f hf⟩⟩

/-- A proper document is well formed. -/
theorem IsProper.wellFormed {value : Value} (h : IsProper value) : value.wellFormed = true := by
  induction h with
  | @atom value hatom _ =>
    cases value with
    | list | obj => cases hatom
    | _ => rfl
  | list _ ih => exact Value.wellFormed_list.mpr ih
  | obj hdistinct _ _ ih => exact Value.wellFormed_obj.mpr ⟨hdistinct, ih⟩

theorem IsProper.isUndefined {value : Value} (h : IsProper value) :
    value.isUndefined = false := by
  cases h with
  | atom _ hdefined => exact hdefined
  | list | obj => rfl

end Json

/-- Whether the settings of an installation hold no key that is no text. -/
def Settings.textKeyed (settings : Settings) : Bool := Json.textKeyed settings.toValue

end CallFlow
