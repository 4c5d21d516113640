import Mathlib.Data.List.DropRight
import CallFlow.Condition.Parameter
import CallFlow.Proofs.Condition.Codec

/-!
# Parameters with parts are read and written

A list of names and a pair are written into a parameter, and the parameter into
a condition. Reading takes both apart again, and what comes back is what was
written, exactly if each part is in the form that reading gives it
(`names_joinNames_iff`, `pair_joinPair_iff`). That form is the same for all parts
in that no blank stands at their ends, as those are stripped. A name in a list
also holds no comma and is not empty; the name of a pair holds no equals sign,
while its value may hold any.

Whatever the parameter, the parts that are read are in that form, so that writing
and reading them again changes nothing.
-/

namespace CallFlow

/-! ## Pieces of a text -/

/-- A text is cut as a list is split at an item. -/
theorem pieces_eq_splitOn (separator : Char) (cs : List Char) :
    pieces separator cs = cs.splitOn separator := by
  induction cs with
  | nil => rfl
  | cons c rest ih =>
    obtain ⟨piece, more, hpieces⟩ := List.exists_cons_of_ne_nil (pieces_ne_nil separator rest)
    rw [pieces, List.splitOn_cons_eq_if_modifyHead, ← ih, hpieces]
    by_cases hc : c = separator
    · rw [if_pos hc, if_pos (beq_iff_eq.mpr hc)]
    · rw [if_neg hc, if_neg (by simpa using hc)]
      rfl

/-- No piece holds the separator. -/
theorem not_mem_of_mem_pieces {separator : Char} {cs piece : List Char}
    (h : piece ∈ pieces separator cs) : separator ∉ piece := by
  induction cs generalizing piece with
  | nil =>
    rw [pieces, List.mem_singleton] at h
    rw [h]
    exact List.not_mem_nil
  | cons c rest ih =>
    obtain ⟨first, more, hpieces⟩ := List.exists_cons_of_ne_nil (pieces_ne_nil separator rest)
    rw [pieces, hpieces] at h
    rw [hpieces] at ih
    split at h
    next =>
      rcases List.mem_cons.mp h with rfl | h
      · exact List.not_mem_nil
      · exact ih h
    next hc =>
      rcases List.mem_cons.mp h with rfl | h
      · exact List.not_mem_cons_of_ne_of_not_mem (Ne.symm hc) (ih List.mem_cons_self)
      · exact ih (List.mem_cons_of_mem _ h)

/-! ## Blanks at the ends of a text -/

namespace Blank

theorem trim_subset (p : Char → Bool) (cs : List Char) : trim p cs ⊆ cs :=
  fun _ hc => (List.dropWhile_suffix p).subset ((List.rdropWhile_prefix p _).subset hc)

/-- **A text is trimmed once and for all.** -/
theorem trim_trim (p : Char → Bool) (cs : List Char) : trim p (trim p cs) = trim p cs := by
  have hfront : (trim p cs).dropWhile p = trim p cs := by
    cases htrim : trim p cs with
    | nil => rfl
    | cons c rest =>
      -- the first character that is left is the first behind those that are dropped in front
      obtain ⟨back, hback⟩ := List.rdropWhile_prefix p (cs.dropWhile p)
      have hdrop : cs.dropWhile p = c :: (rest ++ back) := by
        rw [← hback]
        exact congrArg (· ++ back) htrim
      have hhead := List.head_dropWhile_not p (l := cs) (by rw [hdrop]; exact List.cons_ne_nil _ _)
      have hc : p c = false := by simpa [hdrop] using hhead
      exact List.dropWhile_cons_of_neg (by simp [hc])
  calc trim p (trim p cs) = ((trim p cs).dropWhile p).rdropWhile p := rfl
    _ = (trim p cs).rdropWhile p := by rw [hfront]
    _ = trim p cs := List.rdropWhile_idempotent p (cs.dropWhile p)

theorem toList_strip (s : String) : (strip s).toList = trim isBlank s.toList :=
  String.toList_ofList

/-- **A text is stripped once and for all.** -/
theorem strip_strip (s : String) : strip (strip s) = strip s := by
  rw [strip, toList_strip, trim_trim]
  rfl

end Blank

namespace Parameter

open Condition (decode encodeNamed)

/-! ## Lists of names -/

/-- **Whether a text is a name**, as a list of names holds it. -/
structure IsName (name : String) : Prop where
  /-- It is not empty. -/
  ne_empty : name ≠ ""
  /-- It holds no comma. -/
  no_comma : ',' ∉ name.toList
  /-- No blank stands at its ends. -/
  stripped : Blank.strip name = name

instance (name : String) : Decidable (IsName name) :=
  decidable_of_iff (name ≠ "" ∧ ',' ∉ name.toList ∧ Blank.strip name = name)
    ⟨fun ⟨hne, hcomma, hstripped⟩ => ⟨hne, hcomma, hstripped⟩,
      fun h => ⟨h.ne_empty, h.no_comma, h.stripped⟩⟩

/-- What is read as names are names. -/
theorem isName_of_mem_names {parameter name : String} (h : name ∈ names parameter) :
    IsName name := by
  obtain ⟨trimmed, htrimmed, hname⟩ := List.mem_filterMap.mp h
  obtain ⟨piece, hpiece, rfl⟩ := List.mem_map.mp htrimmed
  split at hname
  next => cases hname
  next hne =>
    obtain rfl := Option.some.inj hname
    refine ⟨?_, ?_, ?_⟩
    · rw [Ne, String.ofList_eq_empty_iff]
      simpa using hne
    · rw [String.toList_ofList]
      exact fun hmem => not_mem_of_mem_pieces hpiece (Blank.trim_subset _ _ hmem)
    · rw [Blank.strip, String.toList_ofList, Blank.trim_trim]

theorem pieces_joinNames {vs : List String} (hne : vs ≠ []) (h : ∀ v ∈ vs, ',' ∉ v.toList) :
    pieces ',' (joinNames vs).toList = vs.map String.toList := by
  rw [pieces_eq_splitOn, joinNames, String.toList_intercalate]
  refine List.splitOn_intercalate ',' ?_ (by simpa using hne)
  intro cs hcs
  obtain ⟨v, hv, rfl⟩ := List.mem_map.mp hcs
  exact h v hv

/-- **Names that were joined are read back.** -/
theorem names_joinNames {vs : List String} (h : ∀ v ∈ vs, IsName v) :
    names (joinNames vs) = vs := by
  rcases eq_or_ne vs [] with rfl | hne
  · rfl
  have hkept : ∀ v ∈ vs, Blank.trim Blank.isBlank v.toList = v.toList := by
    intro v hv
    rw [← Blank.toList_strip, (h v hv).stripped]
  rw [names, pieces_joinNames hne fun v hv => (h v hv).no_comma, List.map_map, List.filterMap_map]
  calc vs.filterMap _ = vs.filterMap some := List.filterMap_congr fun v hv => by
        simp [hkept v hv, (h v hv).ne_empty]
    _ = vs := List.filterMap_some

/-- **Which names are read back** when they were joined: those that are names. -/
theorem names_joinNames_iff {vs : List String} : names (joinNames vs) = vs ↔ ∀ v ∈ vs, IsName v :=
  ⟨fun h _ hv => isName_of_mem_names (h.symm ▸ hv), names_joinNames⟩

/-! ## Pairs -/

/-- **Whether two texts are a pair**, as a variable and a value are paired. -/
structure IsPair (p : String × String) : Prop where
  /-- The variable holds no equals sign. -/
  no_equals : '=' ∉ p.1.toList
  /-- No blank stands at the ends of the variable. -/
  stripped_name : Blank.strip p.1 = p.1
  /-- No blank stands at the ends of the value. -/
  stripped_value : Blank.strip p.2 = p.2

instance (p : String × String) : Decidable (IsPair p) :=
  decidable_of_iff ('=' ∉ p.1.toList ∧ Blank.strip p.1 = p.1 ∧ Blank.strip p.2 = p.2)
    ⟨fun ⟨hequals, hname, hvalue⟩ => ⟨hequals, hname, hvalue⟩,
      fun h => ⟨h.no_equals, h.stripped_name, h.stripped_value⟩⟩

theorem isPair_pair (parameter : String) : IsPair (pair parameter) where
  no_equals hmem := by
    rw [pair, Blank.toList_strip, String.toList_ofList] at hmem
    simpa using List.mem_takeWhile_imp (Blank.trim_subset _ _ hmem)
  stripped_name := Blank.strip_strip _
  stripped_value := Blank.strip_strip _

/-- **A pair that was joined is read back.** -/
theorem pair_joinPair {p : String × String} (h : IsPair p) : pair (joinPair p) = p := by
  have hjoined : (joinPair p).toList = p.1.toList ++ '=' :: p.2.toList := by
    rw [joinPair, String.toList_append, String.toList_append, List.append_assoc]
    rfl
  rw [pair, hjoined, takeWhile_append_separator h.no_equals,
    dropWhile_append_separator h.no_equals, List.drop_one, List.tail_cons, String.ofList_toList,
    String.ofList_toList, h.stripped_name, h.stripped_value]

/-- **Which pair is read back** when it was joined: one that is a pair. -/
theorem pair_joinPair_iff {p : String × String} : pair (joinPair p) = p ↔ IsPair p :=
  ⟨fun h => h ▸ isPair_pair _, pair_joinPair⟩

/-! ## Inside a condition -/

theorem parameter_decode_encodeNamed {k : ConditionKind} (hk : k.parameter?.isSome = true)
    (parameter : String) : (decode (encodeNamed k.name parameter)).parameter = parameter := by
  rw [encodeNamed, ConditionKind.ofName?_name]
  dsimp only
  rw [Condition.decode_encode]
  exact if_pos hk

/-- **Parts of a parameter come back from a condition.**

* Names that are joined and written into a condition on variables are read back
  just if they are names.
* Whatever is read as names are names, and reading them again gives the same.
* A variable and a value that are joined and written into a condition are read
  back just if they are a pair.
* Whatever is read as a pair is read again as the same. -/
theorem parts_decode_encode :
    (∀ k ∈ [ConditionKind.variablesExtracted, .extractionFailed], ∀ vs : List String,
        names (decode (encodeNamed k.name (joinNames vs))).parameter = vs ↔ ∀ v ∈ vs, IsName v)
    ∧ (∀ parameter, (∀ name ∈ names parameter, IsName name)
        ∧ names (joinNames (names parameter)) = names parameter)
    ∧ (∀ name value,
        pair (decode (encodeNamed ConditionKind.variableEquals.name
            (joinPair (name, value)))).parameter = (name, value) ↔ IsPair (name, value))
    ∧ ∀ parameter, pair (joinPair (pair parameter)) = pair parameter := by
  refine ⟨fun k hk vs => ?_, fun parameter => ?_, fun name value => ?_, fun parameter => ?_⟩
  · have htakes : k.parameter?.isSome = true := by
      rcases List.mem_pair.mp hk with rfl | rfl <;> rfl
    rw [parameter_decode_encodeNamed htakes, names_joinNames_iff]
  · exact ⟨fun name => isName_of_mem_names, names_joinNames fun name => isName_of_mem_names⟩
  · rw [parameter_decode_encodeNamed rfl, pair_joinPair_iff]
  · exact pair_joinPair (isPair_pair parameter)

/-- Names and a value that hold the marks of the other formats around them. -/
theorem parts_decode_encode_marked :
    (∀ v ∈ ["plan", "e=mail: work"], IsName v)
    ∧ names (decode (encodeNamed "extraction_failed"
        (joinNames ["plan", "e=mail: work"]))).parameter = ["plan", "e=mail: work"]
    ∧ IsPair ("plan", "a=b, c:d")
    ∧ pair (decode (encodeNamed "variable_equals" (joinPair ("plan", "a=b, c:d")))).parameter
      = ("plan", "a=b, c:d") := by
  have hnames : ∀ v ∈ ["plan", "e=mail: work"], IsName v := by decide +kernel
  have hpair : IsPair ("plan", "a=b, c:d") := by decide +kernel
  obtain ⟨hlists, _, hpairs, _⟩ := parts_decode_encode
  exact ⟨hnames, (hlists .extractionFailed (by simp) _).mpr hnames, hpair, (hpairs _ _).mpr hpair⟩

end Parameter

end CallFlow
