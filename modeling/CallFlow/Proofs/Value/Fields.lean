import Mathlib.Data.List.Perm.Subperm
import CallFlow.Value.Basic

/-!
# Laws of fields

What is read under a key after the fields of an object were written,
removed or laid over others: `get?_put`, `get?_erase` and `get?_overlay`
say it for every key at once.

An object has no two fields under one key. `distinct` says so of a list of
fields; writing keeps it so (`distinct_put`), and then a field is in the
list exactly if it is what is read under its key.
-/

namespace CallFlow

/-- Whether a value is a text. -/
def Value.isText : Value → Bool
  | .str _ => true
  | _ => false

theorem Value.eq_str_of_isText {value : Value} (h : value.isText = true) : ∃ s, value = .str s := by
  cases value with
  | str s => exact ⟨s, rfl⟩
  | _ => cases h

theorem Key.same_congr {a b : Key} (h : a.same b = true) (k : Key) : k.same a = k.same b := by
  rw [Bool.eq_iff_iff]
  exact ⟨fun ha => Key.same_trans ha h, fun hb => Key.same_trans hb (Key.same_comm a b ▸ h)⟩

theorem Key.text_same_iff {s : String} {key : Key} : (Key.text s).same key = true ↔ key = s := by
  rw [Key.same_comm, Key.same_text]

theorem Key.eq_of_same_of_isText {k key : Key} (hkey : key.isText = true)
    (h : k.same key = true) : k = key := by
  cases key with
  | text s => exact Key.same_text.mp h
  | _ => cases hkey

namespace Fields

/-! ## What is read -/

theorem get?_congr (fields : Fields) {key other : Key} (h : key.same other = true) :
    get? fields key = get? fields other := by
  induction fields with
  | nil => rfl
  | cons f rest ih =>
    obtain ⟨k, v⟩ := f
    rw [get?, get?, Key.same_congr h k, ih]

/-- **What is read after writing**: under the key what was written, under
any other key what was there. -/
theorem get?_put (fields : Fields) (key other : Key) (value : Value) :
    get? (put fields key value) other
      = if key.same other then some value else get? fields other := by
  by_cases h : key.same other = true
  · rw [if_pos h, ← get?_congr _ h, get?_put_self]
  · rw [if_neg h]
    exact get?_put_of_ne fields value (by simpa using h)

@[simp] theorem get_put_self (fields : Fields) (key : Key) (value : Value) :
    get (put fields key value) key = value := by
  rw [get, get?_put_self, Option.getD_some]

theorem get_put_of_ne (fields : Fields) {key other : Key} (value : Value)
    (hne : key.same other = false) : get (put fields key value) other = get fields other := by
  rw [get, get?_put_of_ne fields value hne, get]

@[simp] theorem put_put_self (fields : Fields) (key : Key) (value last : Value) :
    put (put fields key value) key last = put fields key last := by
  induction fields with
  | nil => simp [put]
  | cons f rest ih =>
    obtain ⟨k, v⟩ := f
    by_cases h : k.same key = true <;> simp [put, h, ih]

/-- What is read and is not null is there. -/
theorem get?_of_get {fields : Fields} {key : Key} {value : Value} (h : get fields key = value)
    (hne : value ≠ .null) : get? fields key = some value := by
  rw [get] at h
  cases hread : get? fields key with
  | none =>
    rw [hread] at h
    exact absurd h.symm hne
  | some v =>
    rw [hread] at h
    rw [← h, Option.getD_some]

theorem get?_of_truthy {fields : Fields} {key : Key} (h : (get fields key).truthy = true) :
    get? fields key = some (get fields key) := by
  refine get?_of_get rfl fun hnull => ?_
  rw [hnull] at h
  cases h

/-- What is read after removing a key. -/
theorem get?_erase (fields : Fields) (key other : Key) :
    get? (erase fields key) other = if key.same other then none else get? fields other := by
  induction fields with
  | nil => simp [erase, get?]
  | cons f rest ih =>
    obtain ⟨k, v⟩ := f
    rw [erase] at ih ⊢
    rw [List.filter_cons]
    by_cases ho : key.same other = true
    · -- the key asked for is the one removed, so the field counts for neither or is gone
      by_cases hk : k.same other = true
      · simp [Key.same_congr ho k, hk, ih, ho]
      · simp [Key.same_congr ho k, hk, ih, ho, get?]
    · by_cases hk : k.same key = true
      · have hne : k.same other = false := by
          rw [Key.same_comm, Key.same_congr hk other, Key.same_comm]
          simpa using ho
        simp [hk, ih, ho, get?, hne]
      · simp [hk, ih, ho, get?]

/-- Writing a field that is left out leaves what is left. -/
theorem filter_put {p : Key × Value → Bool} {key : Key} (fields : Fields) (value : Value)
    (h : ∀ k v, k.same key = true → p (k, v) = false) :
    (put fields key value).filter p = fields.filter p := by
  induction fields with
  | nil => rw [put, List.filter_cons, h key value (Key.same_self key)]; rfl
  | cons f rest ih =>
    obtain ⟨k, v⟩ := f
    rw [put]
    by_cases hk : k.same key = true
    · rw [if_pos hk, List.filter_cons_of_neg (by simp [h k value hk]),
        List.filter_cons_of_neg (by simp [h k v hk])]
    · rw [if_neg hk, List.filter_cons, List.filter_cons, ih]

theorem erase_put_self (fields : Fields) (key : Key) (value : Value) :
    erase (put fields key value) key = erase fields key :=
  filter_put fields value fun k _ hsame => by simp [hsame]

/-- Of two runs of fields the first that has a key is read. -/
theorem get?_append (fields others : Fields) (key : Key) :
    get? (fields ++ others) key = (get? fields key).or (get? others key) := by
  induction fields with
  | nil => rfl
  | cons f rest ih =>
    obtain ⟨k, v⟩ := f
    rw [List.cons_append, get?, get?]
    by_cases h : k.same key = true
    · rw [if_pos h, if_pos h, Option.some_or]
    · rw [if_neg h, if_neg h, ih]

/-- **What is read after an overlay**: the last change of a key, or what was
there. -/
theorem get?_overlay (fields changes : Fields) (key : Key) :
    get? (overlay fields changes) key = (get? changes.reverse key).or (get? fields key) := by
  induction changes generalizing fields with
  | nil => rfl
  | cons c rest ih =>
    -- a later change wins over an earlier one, hence the changes from behind
    show get? (overlay (put fields c.1 c.2) rest) key = _
    rw [ih, List.reverse_cons, get?_append, get?_put, Option.or_assoc]
    congr 1
    obtain ⟨k, v⟩ := c
    by_cases h : k.same key = true
    · simp [get?, h]
    · simp [get?, h]

/-! ## No key twice -/

/-- Whether no two fields stand under the same key. -/
def distinct : Fields → Bool
  | [] => true
  | (k, _) :: rest => !has rest k && distinct rest

/-- A key is read as nothing exactly if no field stands under it. -/
theorem get?_eq_none_iff {fields : Fields} {key : Key} :
    get? fields key = none ↔ ∀ f ∈ fields, f.1.same key = false := by
  induction fields with
  | nil => simp [get?]
  | cons f rest ih =>
    obtain ⟨k, v⟩ := f
    rw [get?]
    by_cases h : k.same key = true
    · simp [h]
    · simp [h, ih]

theorem get?_overlay_of_none {fields changes : Fields} {key : Key} (h : get? changes key = none) :
    get? (overlay fields changes) key = get? fields key := by
  have hreverse : get? changes.reverse key = none := by
    rw [get?_eq_none_iff] at h ⊢
    exact fun f hf => h f (List.mem_reverse.mp hf)
  rw [get?_overlay, hreverse, Option.none_or]

/-- Leaving out fields under some texts leaves what is under any other key. -/
theorem get?_filter_of_not_mem {keys : List Key} (htext : ∀ k ∈ keys, k.isText = true) {key : Key}
    (hkey : key ∉ keys) (fields : Fields) :
    get? (fields.filter fun f => f.1 ∉ keys) key = get? fields key := by
  induction fields with
  | nil => rfl
  | cons f rest ih =>
    obtain ⟨k, v⟩ := f
    rw [get?]
    by_cases hk : k ∈ keys
    · have hne : ¬ k.same key = true := fun hsame => by
        rw [Key.same_comm] at hsame
        exact hkey (Key.eq_of_same_of_isText (htext k hk) hsame ▸ hk)
      rw [List.filter_cons_of_neg (by simpa using hk), ih, if_neg hne]
    · rw [List.filter_cons_of_pos (by simpa using hk), get?, ih]

/-- What is read under a key stands in a field under that key. -/
theorem mem_of_get? {fields : Fields} {key : Key} {value : Value}
    (h : get? fields key = some value) : ∃ k, (k, value) ∈ fields ∧ k.same key = true := by
  induction fields with
  | nil => cases h
  | cons f rest ih =>
    obtain ⟨k, v⟩ := f
    rw [get?] at h
    by_cases hk : k.same key = true
    · rw [if_pos hk] at h
      obtain rfl := Option.some.inj h
      exact ⟨k, List.mem_cons_self, hk⟩
    · rw [if_neg hk] at h
      obtain ⟨k', hmem, hsame⟩ := ih h
      exact ⟨k', List.mem_cons_of_mem _ hmem, hsame⟩

/-- **A field is what is read under its key.** -/
theorem get?_of_mem {fields : Fields} (hd : distinct fields = true) {key : Key} {value : Value}
    (h : (key, value) ∈ fields) : get? fields key = some value := by
  induction fields with
  | nil => cases h
  | cons f rest ih =>
    obtain ⟨k, v⟩ := f
    rw [distinct, Bool.and_eq_true] at hd
    rw [get?]
    rcases List.mem_cons.mp h with heq | hmem
    · obtain ⟨rfl, rfl⟩ := Prod.mk.inj heq
      rw [if_pos (Key.same_self key)]
    · have hread := ih hd.2 hmem
      have hne : k.same key = false := by
        cases hs : k.same key with
        | false => rfl
        | true =>
          have : get? rest k = some value := (get?_congr rest hs).trans hread
          simp [has, this] at hd
      rw [hne, hread]
      rfl

/-- Writing under a key keeps the keys apart. -/
theorem distinct_put {fields : Fields} (hd : distinct fields = true) (key : Key) (value : Value) :
    distinct (put fields key value) = true := by
  induction fields with
  | nil => rfl
  | cons f rest ih =>
    obtain ⟨k, v⟩ := f
    rw [distinct, Bool.and_eq_true] at hd
    rw [put]
    by_cases h : k.same key = true
    · rw [if_pos h, distinct, hd.1, hd.2, Bool.and_true]
    · rw [if_neg h, distinct, ih hd.2, Bool.and_true]
      have hk : key.same k = false := by
        rw [Key.same_comm]
        simpa using h
      rw [has, get?_put_of_ne rest value hk, ← has]
      exact hd.1

/-- Some of the fields under distinct keys are under distinct keys. -/
theorem distinct_filter {fields : Fields} (hd : distinct fields = true)
    (p : Key × Value → Bool) : distinct (fields.filter p) = true := by
  induction fields with
  | nil => rfl
  | cons f rest ih =>
    obtain ⟨k, v⟩ := f
    rw [distinct, Bool.and_eq_true] at hd
    rw [List.filter_cons]
    split
    · have hno : get? (rest.filter p) k = none := by
        rw [get?_eq_none_iff]
        have := hd.1
        rw [has, Bool.not_eq_true', Option.isSome_eq_false_iff, Option.isNone_iff_eq_none,
          get?_eq_none_iff] at this
        exact fun f hf => this f (List.mem_of_mem_filter hf)
      rw [distinct, ih hd.2, has, hno]
      rfl
    · exact ih hd.2

/-- What is read under a key, where no key is there twice, is what stands
under it. -/
theorem get?_eq_some_iff {fields : Fields} (hd : distinct fields = true) {key : Key}
    {value : Value} :
    get? fields key = some value ↔ ∃ k, (k, value) ∈ fields ∧ k.same key = true := by
  constructor
  · exact mem_of_get?
  · rintro ⟨k, hmem, hsame⟩
    rw [← get?_congr fields hsame]
    exact get?_of_mem hd hmem

/-- No key is there twice if no two fields stand under the same key. -/
theorem distinct_iff_pairwise {fields : Fields} :
    distinct fields = true ↔ fields.Pairwise fun f g => f.1.same g.1 = false := by
  induction fields with
  | nil => simp [distinct]
  | cons f rest ih =>
    obtain ⟨k, v⟩ := f
    have hno : (!has rest k) = true ↔ ∀ g ∈ rest, k.same g.1 = false := by
      rw [has, Bool.not_eq_true', Option.isSome_eq_false_iff, Option.isNone_iff_eq_none,
        get?_eq_none_iff]
      exact forall₂_congr fun g _ => by rw [Key.same_comm]
    rw [distinct, Bool.and_eq_true, List.pairwise_cons, ih, hno]

theorem distinct_perm {fields others : Fields} (h : fields.Perm others)
    (hd : distinct fields = true) : distinct others = true := by
  rw [distinct_iff_pairwise] at hd ⊢
  exact h.pairwise hd fun {f g} hfg => by rwa [Key.same_comm]

/-- **The order of fields does not matter for what is read**, where no key
is there twice. -/
theorem get?_perm {fields others : Fields} (h : fields.Perm others)
    (hd : distinct fields = true) (key : Key) : get? fields key = get? others key := by
  refine Option.ext fun value => ?_
  rw [get?_eq_some_iff hd, get?_eq_some_iff (distinct_perm h hd)]
  exact exists_congr fun k => and_congr_left' h.mem_iff

theorem nodup_reduced {fields : Fields} (hd : distinct fields = true) :
    (fields.map fun f => f.1.reduced).Nodup := by
  rw [List.Nodup, List.pairwise_map]
  exact (distinct_iff_pairwise.mp hd).imp fun hne => by simpa [Key.same] using hne

/-- **Fields under distinct keys have every key of others** if they are as many
and the others have every key of theirs. -/
theorem exists_mem_of_has {fields others : Fields} (hd : distinct fields = true)
    (hlen : fields.length = others.length) (hhas : ∀ f ∈ fields, has others f.1 = true) :
    ∀ g ∈ others, ∃ f ∈ fields, f.1.same g.1 = true := by
  have hsub : fields.map (fun f => f.1.reduced) ⊆ others.map fun g => g.1.reduced := by
    intro k hk
    obtain ⟨f, hf, rfl⟩ := List.mem_map.mp hk
    obtain ⟨w, hw⟩ := Option.isSome_iff_exists.mp (hhas f hf)
    obtain ⟨l, hmem, hsame⟩ := mem_of_get? hw
    exact List.mem_map.mpr ⟨_, hmem, by simpa [Key.same] using hsame⟩
  have hperm := (List.subperm_of_subset (nodup_reduced hd) hsub).perm_of_length_le
    (Nat.le_of_eq (by rw [List.length_map, List.length_map, hlen]))
  intro g hg
  obtain ⟨f, hf, hsame⟩ := List.mem_map.mp (hperm.mem_iff.mpr (List.mem_map_of_mem hg))
  exact ⟨f, hf, by simpa [Key.same] using hsame⟩

/-- **What is read after an overlay of changes with different keys**: the
change of a key, or what was there. -/
theorem get?_overlay_of_distinct {changes : Fields} (hd : distinct changes = true)
    (fields : Fields) (key : Key) :
    get? (overlay fields changes) key = (get? changes key).or (get? fields key) := by
  rw [get?_overlay, ← get?_perm (List.reverse_perm changes).symm hd]

/-- Writing under a key that is not there yet adds a field at the end. -/
theorem put_eq_append {fields : Fields} {key : Key} (h : get? fields key = none) (value : Value) :
    put fields key value = fields ++ [(key, value)] := by
  induction fields with
  | nil => rfl
  | cons f rest ih =>
    obtain ⟨k, v⟩ := f
    rw [get?] at h
    by_cases hk : k.same key = true
    · rw [if_pos hk] at h
      cases h
    · rw [if_neg hk] at h
      rw [put, if_neg hk, ih h, List.cons_append]

theorem put_ne_nil (fields : Fields) (key : Key) (value : Value) : put fields key value ≠ [] := by
  intro h
  have hread := get?_put_self fields key value
  rw [h] at hread
  cases hread

/-- **Laying fields over others with different keys puts them behind.** -/
theorem overlay_eq_append {fields changes : Fields} (h : distinct (fields ++ changes) = true) :
    overlay fields changes = fields ++ changes := by
  induction changes generalizing fields with
  | nil => exact (List.append_nil fields).symm
  | cons c rest ih =>
    have hnone : get? fields c.1 = none := by
      rw [get?_eq_none_iff]
      exact fun f hf => (List.pairwise_append.mp (distinct_iff_pairwise.mp h)).2.2 f hf c
        List.mem_cons_self
    show overlay (put fields c.1 c.2) rest = fields ++ c :: rest
    rw [put_eq_append hnone, ih (by rwa [List.append_assoc]), List.append_assoc]
    rfl

theorem distinct_overlay {fields : Fields} (hd : distinct fields = true) (changes : Fields) :
    distinct (overlay fields changes) = true := by
  induction changes generalizing fields with
  | nil => exact hd
  | cons c rest ih => exact ih (distinct_put hd c.1 c.2)

end Fields

end CallFlow
