import CallFlow.Proofs.Value.Fields
import CallFlow.Proofs.Value.Outcome
import CallFlow.Value.Equality

/-!
# Well-formed documents

A document is *well formed* if no object in it, at whatever depth, has two
fields under one key. Whatever is read out of a well-formed document is well
formed: the value under a key, the elements of a collection, the fields an
object or a collection of pairs states.

What this buys is that a document says the same as itself
(`saysSame_self`): of two fields under one key only the first would be
compared, and the other with it.
-/

namespace CallFlow

mutual

/-- Whether no object in a value has two fields under one key. -/
def Value.wellFormed : Value → Bool
  | .list items => itemsWellFormed items
  | .obj fields => Fields.distinct fields && fieldsWellFormed fields
  | _ => true

/-- Whether every item of a sequence is well formed. -/
def itemsWellFormed : List Value → Bool
  | [] => true
  | v :: rest => v.wellFormed && itemsWellFormed rest

/-- Whether the value of every field is well formed. -/
def fieldsWellFormed : Fields → Bool
  | [] => true
  | (_, v) :: rest => v.wellFormed && fieldsWellFormed rest

end

theorem itemsWellFormed_iff {items : List Value} :
    itemsWellFormed items = true ↔ ∀ v ∈ items, v.wellFormed = true := by
  induction items with
  | nil => simp [itemsWellFormed]
  | cons v rest ih => simp [itemsWellFormed, ih]

theorem fieldsWellFormed_iff {fields : Fields} :
    fieldsWellFormed fields = true ↔ ∀ f ∈ fields, f.2.wellFormed = true := by
  induction fields with
  | nil => simp [fieldsWellFormed]
  | cons f rest ih => simp [fieldsWellFormed, ih]

namespace Value

/-! ## What is read out of a well-formed document -/

theorem wellFormed_list {items : List Value} :
    (list items).wellFormed = true ↔ ∀ v ∈ items, v.wellFormed = true := by
  rw [wellFormed, itemsWellFormed_iff]

theorem wellFormed_obj {fields : Fields} :
    (obj fields).wellFormed = true
      ↔ Fields.distinct fields = true ∧ ∀ f ∈ fields, f.2.wellFormed = true := by
  rw [wellFormed, Bool.and_eq_true, fieldsWellFormed_iff]

theorem wellFormed_ofKey (k : Key) : (ofKey k).wellFormed = true := by
  cases k with
  | number n => cases n <;> rfl
  | _ => rfl

theorem wellFormed_orElse {value default : Value} (hv : value.wellFormed = true)
    (hd : default.wellFormed = true) : (value.orElse default).wellFormed = true := by
  unfold orElse
  split
  · exact hv
  · exact hd

theorem fieldsWellFormed_fieldsOrNone {value : Value} (h : value.wellFormed = true) :
    fieldsWellFormed value.fieldsOrNone = true := by
  cases value with
  | obj fields => exact fieldsWellFormed_iff.mpr (wellFormed_obj.mp h).2
  | _ => rfl

/-- The elements of a well-formed collection are well formed. -/
theorem wellFormed_of_elements {value : Value} {items : List Value} (h : value.wellFormed = true)
    (hitems : value.elements = .ok items) : ∀ v ∈ items, v.wellFormed = true := by
  intro v hv
  cases value with
  | list vs =>
    obtain rfl := Except.ok.inj hitems
    exact wellFormed_list.mp h v hv
  | str s =>
    obtain rfl := Except.ok.inj hitems
    obtain ⟨c, _, rfl⟩ := List.mem_map.mp hv
    rfl
  | obj fields =>
    obtain rfl := Except.ok.inj hitems
    obtain ⟨f, _, rfl⟩ := List.mem_map.mp hv
    exact wellFormed_ofKey f.1
  | _ => cases hitems

/-- The elements of a well-formed collection, or none, are well formed. -/
theorem wellFormed_of_elementsOrNone {value : Value} {items : List Value}
    (h : value.wellFormed = true) (hitems : value.elementsOrNone = .ok items) :
    ∀ v ∈ items, v.wellFormed = true := by
  unfold elementsOrNone at hitems
  split at hitems
  · exact wellFormed_of_elements h hitems
  · obtain rfl := Except.ok.inj hitems
    exact fun v hv => absurd hv List.not_mem_nil

end Value

namespace Fields

/-- What is read under a key is well formed. -/
theorem wellFormed_get {fields : Fields} (h : fieldsWellFormed fields = true) (key : Key) :
    (get fields key).wellFormed = true := by
  rw [get]
  cases hread : get? fields key with
  | none => rfl
  | some value =>
    obtain ⟨k, hmem, _⟩ := mem_of_get? hread
    exact fieldsWellFormed_iff.mp h (k, value) hmem

/-- Writing a well-formed value keeps fields well formed. -/
theorem wellFormed_put {fields : Fields} (h : fieldsWellFormed fields = true) (key : Key)
    {value : Value} (hv : value.wellFormed = true) :
    fieldsWellFormed (put fields key value) = true := by
  induction fields with
  | nil => simp [put, fieldsWellFormed, hv]
  | cons f rest ih =>
    obtain ⟨k, v⟩ := f
    rw [fieldsWellFormed, Bool.and_eq_true] at h
    rw [put]
    split
    · rw [fieldsWellFormed, hv, h.2, Bool.and_true]
    · rw [fieldsWellFormed, h.1, ih h.2, Bool.and_true]

theorem wellFormed_overlay {fields changes : Fields} (h : fieldsWellFormed fields = true)
    (hc : fieldsWellFormed changes = true) : fieldsWellFormed (overlay fields changes) = true := by
  induction changes generalizing fields with
  | nil => exact h
  | cons c rest ih =>
    rw [fieldsWellFormed, Bool.and_eq_true] at hc
    exact ih (wellFormed_put h c.1 hc.1) hc.2

theorem wellFormed_erase {fields : Fields} (h : fieldsWellFormed fields = true) (key : Key) :
    fieldsWellFormed (erase fields key) = true := by
  rw [fieldsWellFormed_iff] at h ⊢
  exact fun f hf => h f (List.mem_of_mem_filter hf)

end Fields

namespace Value

theorem wellFormed_obj_iff {fields : Fields} :
    (obj fields).wellFormed = true
      ↔ Fields.distinct fields = true ∧ fieldsWellFormed fields = true := by
  rw [wellFormed, Bool.and_eq_true]

theorem wellFormed_obj_put {fields : Fields} (h : (obj fields).wellFormed = true) (key : Key)
    {value : Value} (hv : value.wellFormed = true) :
    (obj (Fields.put fields key value)).wellFormed = true := by
  rw [wellFormed_obj_iff] at h ⊢
  exact ⟨Fields.distinct_put h.1 key value, Fields.wellFormed_put h.2 key hv⟩

theorem wellFormed_obj_erase {fields : Fields} (h : (obj fields).wellFormed = true) (key : Key) :
    (obj (Fields.erase fields key)).wellFormed = true := by
  rw [wellFormed_obj_iff] at h ⊢
  exact ⟨Fields.distinct_filter h.1 _, Fields.wellFormed_erase h.2 key⟩

theorem wellFormed_obj_fieldsOrNone {value : Value} (h : value.wellFormed = true) :
    (obj value.fieldsOrNone).wellFormed = true := by
  cases value with
  | obj fields => exact h
  | _ => rfl

/-- A pair of key and value, read off a well-formed collection, holds a
well-formed value. -/
theorem wellFormed_asField {value : Value} {f : Key × Value} (h : value.wellFormed = true)
    (hf : value.asField = .ok f) : f.2.wellFormed = true := by
  obtain ⟨items, hitems, hf⟩ := Outcome.bind_eq_ok.mp hf
  match items, hitems, hf with
  | [k, v], hitems, hf =>
    obtain ⟨key, _, hf⟩ := Outcome.bind_eq_ok.mp hf
    obtain rfl := Except.ok.inj hf
    exact wellFormed_of_elements h hitems v (by simp)

/-- The fields a well-formed value states are well formed. -/
theorem wellFormed_asFields {value : Value} {fields : Fields} (h : value.wellFormed = true)
    (hf : value.asFields = .ok fields) : fieldsWellFormed fields = true := by
  have hpairs : (do return Fields.overlay [] (← (← value.elements).mapM asField)) = Except.ok fields
      → fieldsWellFormed fields = true := by
    intro hf
    obtain ⟨items, hitems, hf⟩ := Outcome.bind_eq_ok.mp hf
    obtain ⟨pairs, hread, hf⟩ := Outcome.bind_eq_ok.mp hf
    obtain rfl := Except.ok.inj hf
    refine Fields.wellFormed_overlay (rfl : fieldsWellFormed [] = true)
      (fieldsWellFormed_iff.mpr fun p hp => ?_)
    obtain ⟨item, hitem, hitem_read⟩ := exists_of_mem_right (Outcome.mapM_eq_ok.mp hread) hp
    exact wellFormed_asField (wellFormed_of_elements h hitems item hitem) hitem_read
  cases value with
  | obj fs =>
    obtain rfl := Except.ok.inj hf
    exact fieldsWellFormed_iff.mpr (wellFormed_obj.mp h).2
  | _ => exact hpairs hf

end Value

/-! ## A well-formed document says the same as itself -/

theorem Number.same_self (n : Number) : n.same n = true := by simp [Number.same]

mutual

/-- **A well-formed value says the same as itself.** -/
theorem Value.saysSame_self : (v : Value) → v.wellFormed = true → v.saysSame v = true
  | .null, _ => rfl
  | .bool b, _ => by simp [Value.saysSame, Value.number?, Number.same_self]
  | .int n, _ => by simp [Value.saysSame, Value.number?, Number.same_self]
  | .float x, _ => by simp [Value.saysSame, Value.number?, Number.same_self]
  | .str s, _ => by simp [Value.saysSame]
  | .list items, h => by
    rw [Value.wellFormed] at h
    rw [Value.saysSame]
    exact itemsSaySame_self items h
  | .obj fields, h => by
    rw [Value.wellFormed, Bool.and_eq_true] at h
    rw [Value.saysSame, beq_self_eq_true, Bool.true_and]
    exact fieldsSaySame_self fields fields h.2 fun f hf => Fields.get?_of_mem h.1 hf

theorem itemsSaySame_self : (items : List Value) → itemsWellFormed items = true →
    itemsSaySame items items = true
  | [], _ => rfl
  | v :: rest, h => by
    rw [itemsWellFormed, Bool.and_eq_true] at h
    rw [itemsSaySame, Value.saysSame_self v h.1, itemsSaySame_self rest h.2]
    rfl

/-- Some of an object's fields, each read under its key, say the same as the
object. -/
theorem fieldsSaySame_self : (fields others : Fields) → fieldsWellFormed fields = true →
    (∀ f ∈ fields, Fields.get? others f.1 = some f.2) → fieldsSaySame fields others = true
  | [], _, _, _ => rfl
  | (k, v) :: rest, others, h, hread => by
    rw [fieldsWellFormed, Bool.and_eq_true] at h
    -- the fields shrink while the object they are compared with stays whole
    have hk : Fields.get? others k = some v := hread (k, v) List.mem_cons_self
    have hrest := fieldsSaySame_self rest others h.2
      fun f hf => hread f (List.mem_cons_of_mem _ hf)
    rw [fieldsSaySame, hk, hrest, Bool.and_true]
    exact Value.saysSame_self v h.1

end

end CallFlow
