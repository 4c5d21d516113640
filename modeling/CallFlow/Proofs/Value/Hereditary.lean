import CallFlow.Proofs.Value.Fields
import CallFlow.Proofs.Value.Outcome

/-!
# Properties that values have part by part

That all keys in a value are texts, or that besides all its numbers are
finite, is true of a value if it is true of its parts. Such a property is
*hereditary* (`Value.Hereditary`). It passes to whatever is read out of a
value, and from the parts to whatever is put together of them, so what is
proved here is proved once for all of them. It may ask of an object, too, that
no two of its keys are the same.
-/

namespace CallFlow

/-- **What is true of every atom**, and of sequences and objects if it is true of
what they hold, is true of every value. -/
@[elab_as_elim]
theorem Value.induction_on_parts {P : Value → Prop} (atom : ∀ v, v.isAtom = true → P v)
    (list : ∀ items, (∀ v ∈ items, P v) → P (.list items))
    (obj : ∀ fields, (∀ f ∈ fields, P f.2) → P (.obj fields)) : (v : Value) → P v
  | .list items => list items fun v _ => induction_on_parts atom list obj v
  | .obj fields => obj fields fun f _ => induction_on_parts atom list obj f.2
  | .null | .bool _ | .int _ | .float _ | .str _ => atom _ rfl
termination_by v => sizeOf v
decreasing_by
  · have := List.sizeOf_lt_of_mem ‹_ ∈ items›
    simp only [Value.list.sizeOf_spec]
    omega
  · obtain ⟨key, value⟩ := f
    have := List.sizeOf_lt_of_mem ‹_ ∈ fields›
    simp only [Value.obj.sizeOf_spec, Prod.mk.sizeOf_spec] at *
    omega

theorem Value.prop_orElse {P : Value → Prop} {value default : Value} (h : P value)
    (hd : P default) : P (value.orElse default) := by
  unfold Value.orElse
  split
  · exact h
  · exact hd

/-- **Whether a property is one that values have part by part**: nothing, a
whole number and a text have it, a sequence has it if its items do, and an
object if its keys are texts – each there once, if keys are to be kept `apart` –
and what stands under them has it. -/
structure Value.Hereditary (apart : Prop) (P : Value → Prop) : Prop where
  /-- Nothing has it. -/
  null : P .null
  /-- A whole number has it. -/
  int (n : Int) : P (.int n)
  /-- A text has it. -/
  str (s : String) : P (.str s)
  /-- A sequence has it if its items do. -/
  list {items : List Value} : P (.list items) ↔ ∀ v ∈ items, P v
  /-- An object has it if its keys are texts and its values have it. -/
  obj {fields : Fields} : P (.obj fields)
    ↔ (apart → Fields.distinct fields = true) ∧ ∀ f ∈ fields, f.1.isText = true ∧ P f.2

namespace Value.Hereditary

variable {apart : Prop} {P : Value → Prop} (hP : Hereditary apart P)

include hP

theorem obj_nil : P (.obj []) := hP.obj.mpr ⟨fun _ => rfl, fun _ hf => absurd hf List.not_mem_nil⟩

theorem obj_cons {key : String} {value : Value} {rest : Fields}
    (hnew : Fields.has rest key = false := by rfl) :
    P (.obj ((key, value) :: rest)) ↔ P value ∧ P (.obj rest) := by
  rw [hP.obj, hP.obj, List.forall_mem_cons, Fields.distinct, hnew]
  simp [Key.isText, and_left_comm]

theorem mem {fields : Fields} (h : P (.obj fields)) : ∀ f ∈ fields, f.1.isText = true ∧ P f.2 :=
  (hP.obj.mp h).2

/-! ## What is read out of a value -/

theorem fieldsOrNone {value : Value} (h : P value) : P (.obj value.fieldsOrNone) := by
  cases value with
  | obj fields => exact h
  | _ => exact hP.obj_nil

/-- The elements of a value have it. -/
theorem elements {value : Value} (h : P value) {items : List Value}
    (hitems : value.elements = .ok items) : ∀ v ∈ items, P v := by
  intro v hv
  cases value with
  | list vs =>
    obtain rfl := Except.ok.inj hitems
    exact hP.list.mp h v hv
  | str s =>
    obtain rfl := Except.ok.inj hitems
    obtain ⟨c, _, rfl⟩ := List.mem_map.mp hv
    exact hP.str _
  | obj fields =>
    obtain rfl := Except.ok.inj hitems
    obtain ⟨⟨k, x⟩, hf, rfl⟩ := List.mem_map.mp hv
    -- the elements of an object are its keys, and these are texts
    cases k with
    | text s => exact hP.str s
    | _ => cases (hP.mem h _ hf).1
  | _ => cases hitems

theorem elementsOrNone {value : Value} (h : P value) {items : List Value}
    (hitems : value.elementsOrNone = .ok items) : ∀ v ∈ items, P v := by
  unfold Value.elementsOrNone at hitems
  split at hitems
  · exact hP.elements h hitems
  · obtain rfl := Except.ok.inj hitems
    exact fun v hv => absurd hv List.not_mem_nil

variable {fields : Fields} (h : P (.obj fields))

include h

theorem get? {key : Key} {value : Value} (hread : Fields.get? fields key = some value) :
    P value := by
  obtain ⟨k, hmem, _⟩ := Fields.mem_of_get? hread
  exact (hP.mem h _ hmem).2

theorem getD (key : Key) {default : Value} (hd : P default) :
    P ((Fields.get? fields key).getD default) := by
  cases hread : Fields.get? fields key with
  | none => exact hd
  | some value => exact hP.get? h hread

theorem get (key : Key) : P (Fields.get fields key) := hP.getD h key hP.null

/-! ## What is put together -/

/-- Writing under a text leaves it. -/
theorem put {key : Key} (hkey : key.isText = true) {value : Value} (hvalue : P value) :
    P (.obj (Fields.put fields key value)) := by
  obtain ⟨hapart, hmem⟩ := hP.obj.mp h
  refine hP.obj.mpr ⟨fun ha => Fields.distinct_put (hapart ha) key value, ?_⟩
  clear h hapart
  induction fields with
  | nil => exact List.forall_mem_singleton.mpr ⟨hkey, hvalue⟩
  | cons f rest ih =>
    obtain ⟨k, v⟩ := f
    rw [List.forall_mem_cons] at hmem
    rw [Fields.put]
    split
    · exact List.forall_mem_cons.mpr ⟨⟨hmem.1.1, hvalue⟩, hmem.2⟩
    · exact List.forall_mem_cons.mpr ⟨hmem.1, ih hmem.2⟩

theorem filter (p : Key × Value → Bool) : P (.obj (fields.filter p)) :=
  hP.obj.mpr ⟨fun ha => Fields.distinct_filter ((hP.obj.mp h).1 ha) p,
    fun f hf => hP.mem h f (List.mem_of_mem_filter hf)⟩

/-- Writing fields one after the other leaves it. -/
theorem overlay {changes : Fields} (hchanges : P (.obj changes)) :
    P (.obj (Fields.overlay fields changes)) := by
  replace hchanges := hP.mem hchanges
  induction changes generalizing fields with
  | nil => exact h
  | cons c rest ih =>
    rw [List.forall_mem_cons] at hchanges
    exact ih (hP.put h hchanges.1.1 hchanges.1.2) hchanges.2

end Value.Hereditary

end CallFlow
