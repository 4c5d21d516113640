import CallFlow.Proofs.Value.Outcome

/-!
# Where a reading fails

To say where a reading fails is to say two things, that it meets its fault in
some case and that it has a result in every other (`Outcome.FaultsIff`). Both
pass from steps to what is done step by step: one step after the other fails
where one of them does, and a sequence is not read where one of its values is not.

Reading the elements of a value fails where the value says something and is
neither a sequence nor a text nor an object. That leaves true, and the numbers
that are not zero (`elementsOrNone_faultsIff`).
-/

namespace CallFlow

namespace Outcome

/-- **Whether a reading meets a fault in some case and in no other.** -/
structure FaultsIff {α : Type} (x : Outcome α) (fault : Fault) (p : Prop) : Prop where
  /-- In that case it meets the fault. -/
  error (h : p) : x = .error fault
  /-- In every other case it has a result. -/
  ok (h : ¬ p) : ∃ a, x = .ok a

namespace FaultsIff

variable {α β : Type} {x : Outcome α} {fault : Fault} {p q : Prop}

theorem of_eq_ok {a : α} (hp : ¬ p) (h : x = .ok a) : x.FaultsIff fault p :=
  ⟨fun hp' => absurd hp' hp, fun _ => ⟨a, h⟩⟩

theorem congr (h : x.FaultsIff fault p) (hpq : p ↔ q) : x.FaultsIff fault q :=
  ⟨fun hq => h.error (hpq.mpr hq), fun hq => h.ok (mt hpq.mp hq)⟩

/-- **A step and what follows it fail where either does.** -/
theorem bind (h : x.FaultsIff fault p) {f : α → Outcome β}
    (hf : ∀ a, x = .ok a → (f a).FaultsIff fault q) : (x >>= f).FaultsIff fault (p ∨ q) := by
  by_cases hp : p
  · refine ⟨fun _ => ?_, fun hnot => absurd (.inl hp) hnot⟩
    rw [h.error hp]
    rfl
  · obtain ⟨a, ha⟩ := h.ok hp
    have hrest := hf a ha
    rw [ha, ok_bind]
    exact hrest.congr (or_iff_right hp).symm

theorem bind_of_ok (h : x.FaultsIff fault p) {f : α → Outcome β} (hf : ∀ a, ∃ b, f a = .ok b) :
    (x >>= f).FaultsIff fault p := by
  refine (h.bind (q := False) fun a _ => ?_).congr (or_iff_left id)
  obtain ⟨b, hb⟩ := hf a
  exact of_eq_ok not_false hb

theorem map (h : x.FaultsIff fault p) (f : α → β) : (f <$> x).FaultsIff fault p := by
  rw [← bind_pure_comp]
  exact h.bind_of_ok fun a => ⟨f a, rfl⟩

/-- **A sequence is not read where one of its values is not.** -/
theorem mapM {f : β → Outcome α} {xs : List β} {r : β → Prop}
    (h : ∀ x ∈ xs, (f x).FaultsIff fault (r x)) :
    (xs.mapM f).FaultsIff fault (∃ x ∈ xs, r x) := by
  induction xs with
  | nil => exact of_eq_ok (by simp) rfl
  | cons x xs ih =>
    obtain ⟨hx, hxs⟩ := List.forall_mem_cons.mp h
    rw [List.mapM_cons]
    refine (hx.bind fun y _ => (ih hxs).map (y :: ·)).congr ?_
    rw [List.exists_mem_cons_iff]

end FaultsIff

end Outcome

namespace Value

/-- **Whether a value is true or a number that is not zero**: it says something,
and has no elements. -/
def isNonzero : Value → Bool
  | bool b => b
  | int n => n != 0
  | float x => x != 0.0
  | _ => false

/-- Whether a value is a sequence or an object that holds something. -/
def isFilled : Value → Bool
  | list items => !items.isEmpty
  | obj fields => !fields.isEmpty
  | _ => false

/-- Where an atom stands in for what is blank, only what holds something is none. -/
theorem isAtom_orElse (value : Value) {default : Value} (hd : default.isAtom = true) :
    (value.orElse default).isAtom = !value.isFilled := by
  rw [orElse]
  split
  next h =>
    cases value with
    | list | obj => rw [isFilled, ← truthy, h]; rfl
    | _ => rfl
  next h =>
    rw [Bool.not_eq_true] at h
    cases value with
    | list | obj => rw [isFilled, ← truthy, h, hd]; rfl
    | _ => exact hd

theorem truthy_of_isNonzero {value : Value} (h : value.isNonzero = true) :
    value.truthy = true := by
  cases value with
  | bool | int | float => exact h
  | _ => cases h

theorem elements_faultsIff {value : Value} (h : value.truthy = true) :
    value.elements.FaultsIff .wrongKind (value.isNonzero = true) := by
  cases value with
  | null => cases h
  | bool | int | float => exact ⟨fun _ => rfl, fun hnot => absurd h hnot⟩
  | str | list | obj => exact .of_eq_ok (by simp [isNonzero]) rfl

/-- **Elements are not read of true and of numbers that are not zero.** -/
theorem elementsOrNone_faultsIff (value : Value) :
    value.elementsOrNone.FaultsIff .wrongKind (value.isNonzero = true) := by
  rw [elementsOrNone]
  split
  next h => exact elements_faultsIff h
  next h => exact .of_eq_ok (mt truthy_of_isNonzero h) rfl

/-- Whether a value is null or a list. -/
def isListOrNull : Value → Bool
  | null | list _ => true
  | _ => false

theorem exists_elementsOrNone {value : Value} (h : value.isListOrNull = true) :
    ∃ items, value.elementsOrNone = .ok items := by
  refine (elementsOrNone_faultsIff value).ok ?_
  cases value with
  | null | list => exact Bool.false_ne_true
  | _ => cases h

/-- **Whether an object among the items of a list has a property.** What is no list
lists nothing. -/
def ListsObject (value : Value) (P : Fields → Prop) : Prop :=
  ∃ items fields, value = list items ∧ obj fields ∈ items ∧ P fields

/-- The objects among the elements of a value are those its list has, if it is
one. -/
theorem exists_objectsAmong_iff {value : Value} {items : List Value}
    (h : value.elementsOrNone = .ok items) (P : Fields → Prop) :
    (∃ fields ∈ objectsAmong items, P fields) ↔ value.ListsObject P := by
  constructor
  · rintro ⟨fields, hmem, hP⟩
    replace hmem := mem_objectsAmong.mp hmem
    rw [elementsOrNone] at h
    split at h
    next =>
      cases value with
      | list values =>
        obtain rfl := Except.ok.inj h
        exact ⟨_, fields, rfl, hmem, hP⟩
      | str s =>
        obtain rfl := Except.ok.inj h
        simp at hmem
      | obj own =>
        -- the elements of an object are its keys, and no key is an object
        obtain rfl := Except.ok.inj h
        obtain ⟨f, _, hkey⟩ := List.mem_map.mp hmem
        cases hf : f.1 with
        | number n => rw [hf] at hkey; cases n <;> cases hkey
        | _ => rw [hf] at hkey; cases hkey
      | _ => cases h
    next =>
      obtain rfl := Except.ok.inj h
      exact absurd hmem List.not_mem_nil
  · rintro ⟨values, fields, rfl, hmem, hP⟩
    have hitems : items = values := by
      cases values <;> exact (Except.ok.inj h).symm
    exact ⟨fields, mem_objectsAmong.mpr (hitems ▸ hmem), hP⟩

end Value

end CallFlow
