import CallFlow.Config.Saving
import CallFlow.Proofs.Node.Emission
import CallFlow.Proofs.Value.Reordered

/-!
# What becomes of the settings

Of a section that is saved, the initial node is the one that was decided on,
and the nodes are the ones saved. Every other key reads as in the section
saved before, unless an edit says it (`get?_mergeSettings`). So a section
that is saved without an edit of the key `workflow` is the section that is
found in the document it is saved in (`workflowSection_replaceSection`).
-/

namespace CallFlow

theorem isText_of_mem_structuralKeys : ∀ key ∈ structuralKeys, key.isText = true := by decide

/-! ## The settings that are kept -/

section Kept

variable (previous : Fields)

/-- What is read after copying keys of the section saved before. -/
theorem get?_foldl_put (keys : List Key) (out : Fields) (key : Key) :
    Fields.get? (keys.foldl (fun out k => Fields.put out k (Fields.get previous k)) out) key
      = if keys.any (fun k => k.same key) then some (Fields.get previous key)
        else Fields.get? out key := by
  induction keys generalizing out with
  | nil => rfl
  | cons k rest ih =>
    rw [List.foldl_cons, ih, Fields.get?_put, List.any_cons]
    by_cases hrest : (rest.any fun k => k.same key) = true
    · rw [if_pos hrest, hrest, Bool.or_true, if_pos rfl]
    · rw [if_neg hrest, (by simpa using hrest : (rest.any fun k => k.same key) = false),
        Bool.or_false]
      by_cases hk : k.same key = true
      · rw [if_pos hk, if_pos hk, Fields.get, Fields.get, Fields.get?_congr previous hk]
      · rw [if_neg hk, if_neg hk]

/-- **Every key of a section is written**, but for those that make up its
structure. -/
theorem any_orderedKeys (key : Key) :
    (orderedKeys previous).any (fun k => k.same key)
      = (Fields.has previous key && decide (key ∉ structuralKeys)) := by
  have hhas : ∀ {k : Key}, k.same key = true → Fields.has previous k = Fields.has previous key :=
    fun hk => by rw [Fields.has, Fields.has, Fields.get?_congr previous hk]
  have hplain : ∀ {k : Key}, k.same key = true → (k ∈ structuralKeys ↔ key ∈ structuralKeys) := by
    intro k hk
    constructor
    · intro h
      rw [Key.same_comm] at hk
      have heq : key = k := Key.eq_of_same_of_isText (isText_of_mem_structuralKeys k h) hk
      rwa [heq]
    · intro h
      have heq : k = key := Key.eq_of_same_of_isText (isText_of_mem_structuralKeys key h) hk
      rwa [heq]
  rw [Bool.eq_iff_iff, List.any_eq_true, Bool.and_eq_true, decide_eq_true_eq]
  -- a key is written in one of two places: first if it is a setting, behind those if not
  constructor
  · rintro ⟨k, hmem, hk⟩
    obtain ⟨hmem, hother⟩ := List.mem_filter.mp hmem
    refine ⟨?_, fun h => of_decide_eq_true hother ((hplain hk).mpr h)⟩
    rw [← hhas hk]
    rcases List.mem_append.mp hmem with hmem | hmem
    · exact (List.mem_filter.mp hmem).2
    · obtain ⟨f, hf, rfl⟩ := List.mem_map.mp (List.mem_filter.mp hmem).1
      by_contra hno
      rw [Fields.has, Option.not_isSome_iff_eq_none, Fields.get?_eq_none_iff] at hno
      exact Bool.noConfusion ((Key.same_self f.1).symm.trans (hno f hf))
  · rintro ⟨hthere, hother⟩
    obtain ⟨value, hread⟩ := Option.isSome_iff_exists.mp hthere
    obtain ⟨k, hmem, hk⟩ := Fields.mem_of_get? hread
    refine ⟨k, List.mem_filter.mpr ⟨List.mem_append.mpr ?_, ?_⟩, hk⟩
    · by_cases hsetting : k ∈ settingKeys
      · exact .inl (List.mem_filter.mpr ⟨hsetting, by rw [hhas hk, hthere]⟩)
      · exact .inr (List.mem_filter.mpr ⟨List.mem_map.mpr ⟨(k, value), hmem, rfl⟩,
          by simpa using hsetting⟩)
    · rw [decide_eq_true_eq]
      exact fun h => hother ((hplain hk).mp h)

/-- The settings that are kept, behind the initial node. -/
def keptSettings (start : Value) : Fields :=
  (orderedKeys previous).foldl (fun out k => Fields.put out k (Fields.get previous k))
    [("initial_node", start)]

/-- **What is read of the settings that are kept.** -/
theorem get?_keptSettings (start : Value) (key : Key) :
    Fields.get? (keptSettings previous start) key
      = if key = "initial_node" then some start
        else if key = "nodes" then none
        else Fields.get? previous key := by
  rw [keptSettings, get?_foldl_put, any_orderedKeys]
  by_cases hstart : key = "initial_node"
  · rw [if_pos hstart, hstart]
    simp [structuralKeys, Fields.get?]
  · have hhead : Fields.get? [("initial_node", start)] key = none := by
      rw [Fields.get?, if_neg fun h => hstart (Key.text_same_iff.mp h), Fields.get?]
    rw [if_neg hstart, hhead]
    by_cases hnodes : key = "nodes"
    · rw [if_pos hnodes, hnodes]
      simp [structuralKeys]
    · have hplain : key ∉ structuralKeys := by simp [structuralKeys, hstart, hnodes]
      rw [if_neg hnodes, decide_eq_true hplain, Bool.and_true, Fields.has, Fields.get]
      cases Fields.get? previous key <;> rfl

/-- No key is kept twice. -/
theorem distinct_keptSettings (start : Value) :
    Fields.distinct (keptSettings previous start) = true := by
  have hfold : ∀ (keys : List Key) (out : Fields), Fields.distinct out = true →
      Fields.distinct (keys.foldl (fun out k => Fields.put out k (Fields.get previous k)) out)
        = true := by
    intro keys
    induction keys with
    | nil => exact fun out hd => hd
    | cons k rest ih => exact fun out hd => ih _ (Fields.distinct_put hd _ _)
  exact hfold _ _ rfl

theorem isText_of_mem_settingKeys : ∀ key ∈ settingKeys, key.isText = true := by decide

theorem not_mem_structuralKeys_of_mem_settingKeys :
    ∀ key ∈ settingKeys, key ∉ structuralKeys := by decide

variable {previous}

/-- **Where no key of a section is there twice none is written twice.** -/
theorem pairwise_orderedKeys (hd : Fields.distinct previous = true) :
    (orderedKeys previous).Pairwise fun k l => k.same l = false := by
  have hsettings : settingKeys.Pairwise fun k l => k.same l = false := by decide
  have hkeys : (Fields.keys previous).Pairwise fun k l => k.same l = false := by
    rw [Fields.keys, List.pairwise_map]
    exact Fields.distinct_iff_pairwise.mp hd
  refine List.Pairwise.filter _ (List.pairwise_append.mpr ⟨hsettings.filter _, hkeys.filter _, ?_⟩)
  intro k hk l hl
  have hsetting := List.mem_of_mem_filter hk
  have hother := of_decide_eq_true (List.mem_filter.mp hl).2
  by_contra hsame
  rw [Bool.not_eq_false, Key.same_comm] at hsame
  rw [Key.eq_of_same_of_isText (isText_of_mem_settingKeys k hsetting) hsame] at hother
  exact hother hsetting

/-- **The settings that are kept stand in the order their keys are written**,
behind the initial node. -/
theorem keptSettings_eq_cons (hd : Fields.distinct previous = true) (start : Value) :
    keptSettings previous start
      = (("initial_node", start) :: (orderedKeys previous).map fun k =>
          (k, Fields.get previous k) : Fields) := by
  have hfold : keptSettings previous start = Fields.overlay [("initial_node", start)]
      ((orderedKeys previous).map fun k => (k, Fields.get previous k)) := by
    rw [keptSettings, Fields.overlay, List.foldl_map]
  rw [hfold, Fields.overlay_eq_append, List.singleton_append]
  rw [Fields.distinct_iff_pairwise, List.singleton_append, List.pairwise_cons, List.pairwise_map]
  refine ⟨fun f hf => ?_, pairwise_orderedKeys hd⟩
  obtain ⟨k, hk, rfl⟩ := List.mem_map.mp hf
  have hother := of_decide_eq_true (List.mem_filter.mp hk).2
  by_contra hsame
  rw [Bool.not_eq_false] at hsame
  have hinitial : k = "initial_node" := Key.text_same_iff.mp hsame
  exact hother (by rw [hinitial]; decide)

/-- **The keys of a section that was saved are written in the order they
were written before.** -/
theorem orderedKeys_put_keptSettings (hd : Fields.distinct previous = true) (start nodes : Value) :
    orderedKeys (Fields.put (keptSettings previous start) "nodes" nodes)
      = orderedKeys previous := by
  have hnone : Fields.get? (keptSettings previous start) "nodes" = none := by
    rw [get?_keptSettings, if_neg (by decide), if_pos rfl]
  have hkeys : Fields.keys (Fields.put (keptSettings previous start) "nodes" nodes)
      = ([.text "initial_node"] ++ orderedKeys previous ++ [.text "nodes"] : List Key) := by
    rw [Fields.put_eq_append hnone, keptSettings_eq_cons hd, Fields.keys]
    simp [Function.comp_def]
  have hhas : ∀ k ∈ settingKeys,
      Fields.has (Fields.put (keptSettings previous start) "nodes" nodes) k
        = Fields.has previous k := by
    intro k hk
    have hplain := not_mem_structuralKeys_of_mem_settingKeys k hk
    rw [Fields.has, Fields.get?_put,
      if_neg fun h => hplain (by rw [Key.text_same_iff.mp h]; decide), get?_keptSettings,
      if_neg fun h => hplain (by rw [h]; decide), if_neg fun h => hplain (by rw [h]; decide),
      Fields.has]
  -- of the keys written before, those behind the settings are written behind them again
  have hothers : (orderedKeys previous).filter (fun k => k ∉ settingKeys)
      = ((Fields.keys previous).filter fun k => k ∉ settingKeys).filter
          fun k => k ∉ structuralKeys := by
    have hfirst : (settingKeys.filter fun k => Fields.has previous k).filter
        (fun k => k ∉ settingKeys) = [] := by
      rw [List.filter_eq_nil_iff]
      intro k hk
      simpa using List.mem_of_mem_filter hk
    have htwice : ((Fields.keys previous).filter fun k => k ∉ settingKeys).filter
        (fun k => k ∉ settingKeys) = (Fields.keys previous).filter fun k => k ∉ settingKeys := by
      rw [List.filter_filter]
      simp only [Bool.and_self]
    rw [orderedKeys, List.filter_comm, List.filter_append, hfirst, List.nil_append, htwice]
  have hstructure : ∀ k ∈ structuralKeys, ([k].filter fun k => k ∉ settingKeys).filter
      (fun k => k ∉ structuralKeys) = [] := by decide
  have hbehind : (([.text "initial_node"] ++ orderedKeys previous ++ [.text "nodes"] :
        List Key).filter fun k => k ∉ settingKeys).filter (fun k => k ∉ structuralKeys)
      = ((Fields.keys previous).filter fun k => k ∉ settingKeys).filter
          fun k => k ∉ structuralKeys := by
    rw [List.filter_append, List.filter_append, List.filter_append, List.filter_append,
      hstructure _ (by decide), hstructure _ (by decide), hothers, List.nil_append,
      List.append_nil, List.filter_filter]
    simp only [Bool.and_self]
  rw [orderedKeys, hkeys, List.filter_congr hhas, List.filter_append, hbehind, orderedKeys,
    List.filter_append]

end Kept

/-! ## Edits -/

/-- **What an edit does not say it leaves.** -/
theorem get?_foldl_applyEdit {changes : Fields} {key : Key}
    (h : ∀ f ∈ changes, f.1.same key = false) (out : Fields) :
    Fields.get? (changes.foldl applyEdit out) key = Fields.get? out key := by
  induction changes generalizing out with
  | nil => rfl
  | cons c rest ih =>
    rw [List.foldl_cons, ih fun f hf => h f (List.mem_cons_of_mem _ hf), applyEdit]
    have hc := h c List.mem_cons_self
    split
    · rw [Fields.get?_erase, hc]
      rfl
    · rw [Fields.get?_put_of_ne _ _ hc]

section Merge

variable {settings : Settings} {previous workflow : Fields} {nodes edits : Value}

/-- **What merging settings comes to**: the settings that are kept, with the
edits laid over them. -/
theorem mergeSettings_eq_ok
    (h : mergeSettings settings previous nodes edits = .ok workflow) :
    ∃ changes start, (edits.orElse (.obj [])).asFields = .ok changes
      ∧ initialNode settings changes previous nodes = .ok start
      ∧ workflow = (changes.filter fun f => f.1 ∉ structuralKeys).foldl applyEdit
          (keptSettings previous start) := by
  obtain ⟨changes, hchanges, h⟩ := Outcome.bind_eq_ok.mp h
  obtain ⟨start, hstart, h⟩ := Outcome.bind_eq_ok.mp h
  exact ⟨changes, start, hchanges, hstart, (Except.ok.inj h).symm⟩

/-- The id of the first of some nodes that are saved; without nodes it is
empty. -/
def firstIdOf : List Fields → String
  | [] => ""
  | out :: _ => idOf out

theorem firstId_map_obj (saved : List Fields) :
    firstId (.list (saved.map Value.obj)) = .ok (firstIdOf saved) := by
  cases saved <;> rfl

/-- The initial node of a section that is saved without edits: the one that
was named, else the first node, else the default one. -/
def startOf (settings : Settings) (previous : Fields) (saved : List Fields) : Value :=
  (Fields.get previous "initial_node").orElse
    ((Value.str (firstIdOf saved)).orElse settings.defaultInitialNode)

/-- **What merging settings comes to without edits**: it meets no fault, and
all settings are kept. -/
theorem mergeSettings_null (settings : Settings) (previous : Fields) (saved : List Fields) :
    mergeSettings settings previous (.list (saved.map Value.obj)) .null
      = .ok (keptSettings previous (startOf settings previous saved)) := by
  have hnamed : (Fields.get [] "initial_node").orElse (Fields.get previous "initial_node")
      = Fields.get previous "initial_node" := rfl
  have hstart : initialNode settings [] previous (.list (saved.map Value.obj))
      = .ok (startOf settings previous saved) := by
    rw [initialNode, hnamed, firstId_map_obj, startOf, Value.orElse]
    split <;> rfl
  show (do
    let start ← initialNode settings [] previous (.list (saved.map Value.obj))
    pure (keptSettings previous start) : Outcome Fields) = _
  rw [hstart]
  rfl

/-- The key of the initial node is no setting that an edit changes. -/
theorem get?_mergeSettings_initialNode {changes : Fields} {start : Value} :
    Fields.get? ((changes.filter fun f => f.1 ∉ structuralKeys).foldl applyEdit
      (keptSettings previous start)) "initial_node" = some start := by
  rw [get?_foldl_applyEdit, get?_keptSettings, if_pos rfl]
  intro f hf
  have hother := of_decide_eq_true (List.mem_filter.mp hf).2
  by_contra hsame
  rw [Bool.not_eq_false] at hsame
  exact hother (by rw [Key.same_text.mp hsame]; decide)

/-- **A setting that no edit says reads as it did before.** -/
theorem get?_mergeSettings {changes : Fields} {start : Value} {key : Key}
    (hkey : key ∉ structuralKeys) (hchanges : Fields.get? changes key = none) :
    Fields.get? ((changes.filter fun f => f.1 ∉ structuralKeys).foldl applyEdit
      (keptSettings previous start)) key = Fields.get? previous key := by
  rw [Fields.get?_eq_none_iff] at hchanges
  rw [get?_foldl_applyEdit fun f hf => hchanges f (List.mem_of_mem_filter hf), get?_keptSettings,
    if_neg (by rintro rfl; exact hkey (by decide)), if_neg (by rintro rfl; exact hkey (by decide))]

end Merge

/-! ## The section in its document -/

theorem wrappedSection?_eq_some {config : Value} {inner : Fields} :
    wrappedSection? config = some inner
      ↔ Fields.get config.fieldsOrNone sectionKey = .obj inner := by
  rw [wrappedSection?]
  cases Fields.get config.fieldsOrNone sectionKey <;> simp [Value.object?]

theorem workflowSection_put_sectionKey (fields workflow : Fields) :
    workflowSection (.obj (Fields.put fields sectionKey (.obj workflow))) = workflow := by
  rw [workflowSection, wrappedSection?, Value.fieldsOrNone, Fields.get_put_self]
  rfl

/-- **The section that is put into a document is found there**, unless the
document is itself the section and the section names one of its own. -/
theorem workflowSection_replaceSection {previous : Value} {workflow : Fields}
    (h : wrappedSection? previous = none → (Fields.get workflow sectionKey).object? = none) :
    workflowSection (replaceSection previous workflow) = workflow := by
  cases previous with
  | obj fields =>
    rw [replaceSection]
    split
    · exact workflowSection_put_sectionKey fields workflow
    next hbare =>
      split
      · exact workflowSection_put_sectionKey [] workflow
      · rw [workflowSection, wrappedSection?, Value.fieldsOrNone,
          h (Option.not_isSome_iff_eq_none.mp hbare)]
        rfl
  | _ => exact workflowSection_put_sectionKey [] workflow

/-- **A section put where a section was put takes its place.** -/
theorem replaceSection_replaceSection {previous : Value} {workflow : Fields}
    (h : wrappedSection? previous = none → (Fields.get workflow sectionKey).object? = none)
    (hne : workflow ≠ []) (last : Fields) :
    replaceSection (replaceSection previous workflow) last = replaceSection previous last := by
  have hwrap : ∀ fields : Fields,
      replaceSection (.obj (Fields.put fields sectionKey (.obj workflow))) last
        = .obj (Fields.put fields sectionKey (.obj last)) := by
    intro fields
    have hread : wrappedSection? (.obj (Fields.put fields sectionKey (.obj workflow)))
        = some workflow := wrappedSection?_eq_some.mpr (Fields.get_put_self _ _ _)
    rw [replaceSection, hread, if_pos (Option.isSome_some), Fields.put_put_self]
  cases previous with
  | obj fields =>
    rw [replaceSection, replaceSection.eq_def (.obj fields) last]
    dsimp only
    split
    · exact hwrap fields
    next hbare =>
      split
      · exact hwrap []
      · have hnone : wrappedSection? (.obj workflow) = none :=
          h (Option.not_isSome_iff_eq_none.mp hbare)
        rw [replaceSection, hnone, if_neg (by simp), if_neg (by simpa using hne)]
  | _ => exact hwrap []

end CallFlow
