import CallFlow.Condition.Basic
import Mathlib.Data.List.TakeWhile

/-!
# Conditions are read and written

What is written of a condition is read back, up to a parameter its kind does
not take (`decode_encode`). The delicate spot is the unit: it is written
behind a parameter that is not empty, and one unit is taken off, so that a
parameter may end in the unit, or be the unit, and is read back all the same.

Reading is lenient, and many texts are read as one condition. One of them is
in *canonical form* (`IsCanonical`): it is what is written of the condition,
and reading and writing leads there in one step (`canonical_canon`).
-/

namespace CallFlow

/-! ## The parts of a text -/

theorem all_ne_of_not_mem {separator : Char} {front : List Char} (h : separator ∉ front) :
    ∀ c ∈ front, decide (c ≠ separator) = true :=
  fun _ hc => decide_eq_true (ne_of_mem_of_not_mem hc h)

theorem takeWhile_append_separator {separator : Char} {front : List Char}
    (h : separator ∉ front) (rest : List Char) :
    (front ++ separator :: rest).takeWhile (· ≠ separator) = front := by
  rw [List.takeWhile_append_of_pos (all_ne_of_not_mem h)]
  simp

theorem dropWhile_append_separator {separator : Char} {front : List Char}
    (h : separator ∉ front) (rest : List Char) :
    (front ++ separator :: rest).dropWhile (· ≠ separator) = separator :: rest := by
  rw [List.dropWhile_append_of_pos (all_ne_of_not_mem h)]
  simp

theorem ConditionKind.colon_not_mem_name (k : ConditionKind) : ':' ∉ k.name.toList := by
  cases k <;> decide

theorem ConditionKind.suffix_eq {k : ConditionKind} {spec : ParameterSpec}
    (h : k.parameter? = some spec) : spec.suffix = if k = timeout then "s" else "" := by
  cases k with
  | always | userResponded | apiSuccess | apiFailed => cases h
  | _ =>
    obtain rfl := Option.some.inj h
    rfl

namespace Condition

theorem toList_name_append (k : ConditionKind) (text : String) :
    (k.name ++ ":" ++ text).toList = k.name.toList ++ ':' :: text.toList := by
  rw [String.toList_append, String.toList_append, List.append_assoc]
  rfl

theorem namePart_append (k : ConditionKind) (text : String) :
    namePart (k.name ++ ":" ++ text) = k.name := by
  rw [namePart, toList_name_append, takeWhile_append_separator k.colon_not_mem_name,
    String.ofList_toList]

theorem parameterPart_append (k : ConditionKind) (text : String) :
    parameterPart (k.name ++ ":" ++ text) = text := by
  rw [parameterPart, toList_name_append, dropWhile_append_separator k.colon_not_mem_name,
    List.drop_one, List.tail_cons, String.ofList_toList]

theorem namePart_name (k : ConditionKind) : namePart k.name = k.name := by
  rw [namePart, List.takeWhile_eq_self_iff.mpr (all_ne_of_not_mem k.colon_not_mem_name),
    String.ofList_toList]

theorem parameterPart_name (k : ConditionKind) : parameterPart k.name = "" := by
  rw [parameterPart, List.dropWhile_eq_nil_iff.mpr (all_ne_of_not_mem k.colon_not_mem_name)]
  rfl

/-- **One unit is taken off**, whatever stands in front of it. -/
theorem withoutUnit_append (unit text : String) : withoutUnit unit (text ++ unit) = text := by
  have hsuffix : unit.toList.isSuffixOf (text ++ unit).toList = true := by
    rw [List.isSuffixOf_iff_suffix, String.toList_append]
    exact List.suffix_append _ _
  rw [withoutUnit, if_pos hsuffix, String.toList_append, List.length_append,
    Nat.add_sub_cancel, List.take_left, String.ofList_toList]

theorem withoutUnit_empty (unit : String) : withoutUnit unit "" = "" := by
  rw [withoutUnit]
  split
  · rw [String.toList_empty, List.take_nil]
  · rfl

/-! ## Written and read back -/

/-- The condition without a parameter its kind does not take. -/
def settled (c : Condition) : Condition :=
  ⟨c.kind, if c.kind.parameter?.isSome then c.parameter else ""⟩

/-- A text that names a kind is read as that kind, and what stands behind the
colon as its parameter if the kind takes one. -/
theorem decode_of_namePart {text : String} {k : ConditionKind} (h : namePart text = k.name) :
    decode text = ⟨k, (k.parameter?.map fun spec =>
      withoutUnit spec.suffix (parameterPart text)).getD ""⟩ := by
  rw [decode, h, ConditionKind.ofName?_name]
  dsimp only
  split
  next hk => rw [hk]; rfl
  next hk => rw [hk]; rfl

theorem decode_name (k : ConditionKind) : decode k.name = ⟨k, ""⟩ := by
  rw [decode_of_namePart (namePart_name k), parameterPart_name]
  cases k.parameter? with
  | none => rfl
  | some spec => exact congrArg _ (withoutUnit_empty _)

/-- **What is written of a condition is read back**, but for a parameter its
kind does not take. -/
theorem decode_encode (c : Condition) : decode c.encode = c.settled := by
  obtain ⟨k, p⟩ := c
  rw [encode, settled]
  cases hk : k.parameter? with
  | none => exact decode_name k
  | some spec =>
    dsimp only
    split
    next hp =>
      rw [hp]
      exact decode_name k
    next =>
      -- the unit belongs to what stands behind the colon, and is taken off there
      rw [String.append_assoc, decode_of_namePart (namePart_append k _), parameterPart_append, hk]
      exact congrArg _ (withoutUnit_append _ _)

theorem settled_decode (text : String) : (decode text).settled = decode text := by
  rw [decode]
  split
  · rfl
  · split
    next hk => simp [settled, hk]
    next hk => simp [settled, hk]

/-- **Conditions are written alike** if they are of one kind and have one
parameter, or the kind takes none. -/
theorem encode_eq_encode_iff {c d : Condition} :
    c.encode = d.encode
      ↔ c.kind = d.kind ∧ (c.parameter = d.parameter ∨ c.kind.parameter? = none) := by
  constructor
  · intro h
    have hsettled : c.settled = d.settled := by rw [← decode_encode, ← decode_encode, h]
    obtain ⟨hkind, hparameter⟩ := Condition.mk.inj hsettled
    refine ⟨hkind, ?_⟩
    rw [← hkind] at hparameter
    cases hk : c.kind.parameter? with
    | none => exact .inr rfl
    | some spec =>
      rw [hk] at hparameter
      exact .inl hparameter
  · obtain ⟨k, p⟩ := c
    obtain ⟨l, q⟩ := d
    rintro ⟨rfl, rfl | hk⟩
    · rfl
    · dsimp only at hk
      simp only [encode, hk]

/-- What is written names its kind. -/
theorem isRecognized_encode (c : Condition) : isRecognized c.encode = true := by
  have hname : namePart c.encode = c.kind.name := by
    rw [encode]
    split
    · exact namePart_name _
    · split
      · exact namePart_name _
      · rw [String.append_assoc]
        exact namePart_append _ _
  rw [isRecognized, hname, ConditionKind.ofName?_name]
  rfl

/-! ## Canonical form -/

/-- What is read off a text, written again. -/
def canon (text : String) : String := (decode text).encode

/-- **Whether a text is in canonical form**: a bare name, or the name of a
kind that takes a parameter with a parameter that is not empty, and with the
unit behind it where the kind is a timeout. -/
inductive IsCanonical : String → Prop
  /-- A bare name. -/
  | name (k : ConditionKind) : IsCanonical k.name
  /-- A name and a parameter. -/
  | parameter {k : ConditionKind} {p : String} (hk : k.parameter?.isSome = true)
    (hne : k ≠ .timeout) (hp : p ≠ "") : IsCanonical (k.name ++ ":" ++ p)
  /-- A timeout, with its unit. -/
  | timeout {p : String} (hp : p ≠ "") : IsCanonical ("timeout:" ++ p ++ "s")

/-- What is written of a condition is in canonical form. -/
theorem isCanonical_encode (c : Condition) : IsCanonical c.encode := by
  obtain ⟨k, p⟩ := c
  rw [encode]
  split
  · exact .name k
  next spec hk =>
    dsimp only at hk ⊢
    split
    · exact .name k
    next hp =>
      rw [ConditionKind.suffix_eq hk]
      by_cases htimeout : k = .timeout
      · subst htimeout
        exact .timeout hp
      · rw [if_neg htimeout, String.append_empty]
        exact .parameter (by rw [hk]; rfl) htimeout hp

/-- Every text in canonical form is written of some condition. -/
theorem IsCanonical.exists_encode {text : String} (h : IsCanonical text) :
    ∃ c : Condition, c.encode = text := by
  cases h with
  | name k =>
    refine ⟨⟨k, ""⟩, ?_⟩
    rw [encode]
    split
    · rfl
    · rw [if_pos rfl]
  | @parameter k p hk hne hp =>
    obtain ⟨spec, hspec⟩ := Option.isSome_iff_exists.mp hk
    refine ⟨⟨k, p⟩, ?_⟩
    simp [encode, hspec, hp, ConditionKind.suffix_eq hspec, hne]
  | @timeout p hp =>
    refine ⟨⟨.timeout, p⟩, ?_⟩
    rw [encode]
    exact if_neg hp

/-- **Reading and writing leaves a text alone exactly if it is in canonical
form.** -/
theorem canon_eq_self_iff {text : String} : canon text = text ↔ IsCanonical text := by
  constructor
  · intro h
    rw [← h]
    exact isCanonical_encode _
  · intro h
    obtain ⟨c, rfl⟩ := h.exists_encode
    rw [canon, decode_encode, encode_eq_encode_iff]
    refine ⟨rfl, ?_⟩
    cases hk : c.kind.parameter? with
    | none => exact .inr hk
    | some spec => exact .inl (if_pos (by rw [hk]; rfl))

theorem decode_canon (text : String) : decode (canon text) = decode text := by
  rw [canon, decode_encode, settled_decode]

/-- **Reading and writing conditions.**

* What is written of a kind and a parameter is read as the kind, with the
  parameter if the kind takes one and without any if not; and it is the same
  whether the kind is given or its name.
* What is read off a text and written again is read as the text is, stays
  the same from then on, names a kind, and is described as the text is. It
  is the text itself exactly if that is in canonical form.
* Two conditions are written alike exactly if they are of one kind and
  have one parameter, or the kind takes none. -/
theorem canonical_canon :
    (∀ k p, decode (encode ⟨k, p⟩) = ⟨k, if k.parameter?.isSome then p else ""⟩
      ∧ encodeNamed k.name p = encode ⟨k, p⟩)
    ∧ (∀ text, decode (canon text) = decode text ∧ canon (canon text) = canon text
      ∧ isRecognized (canon text) = true
      ∧ describe (decode (canon text)) = describe (decode text)
      ∧ (canon text = text ↔ IsCanonical text))
    ∧ ∀ k p l q, encode ⟨k, p⟩ = encode ⟨l, q⟩
      ↔ k = l ∧ (p = q ∨ k.parameter? = none) := by
  refine ⟨fun k p => ⟨decode_encode ⟨k, p⟩, ?_⟩, fun text => ?_,
    fun k p l q => encode_eq_encode_iff⟩
  · rw [encodeNamed, ConditionKind.ofName?_name]
  · have hread := decode_canon text
    refine ⟨hread, ?_, isRecognized_encode _, by rw [hread], canon_eq_self_iff⟩
    rw [canon, hread, canon]

end Condition

end CallFlow
