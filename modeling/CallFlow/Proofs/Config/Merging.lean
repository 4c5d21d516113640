import CallFlow.Proofs.Config.Saving

/-!
# Where the settings that are saved come from

The section that is saved is put together from the section before, the edits
since, and the nodes (`writtenSection`). A setting is what an edit of it says,
and otherwise what it was; an edit to null takes it away. Two keys are no
settings: the nodes are the ones that are saved, and the initial node is there
always, found by going from the edits to the section before, the first node,
and the default.

Nothing in this can fail, so a graph is saved exactly if its nodes are
(`saveGraph_eq_map`), and what is saved is known key by key
(`saveGraph_merges`).
-/

namespace CallFlow

/-! ## What an edit brings -/

section Edits

variable {changes previous : Fields} {key : Key} {value start : Value}

/-- **A setting that an edit says** reads as the edit says, and is gone where
that is null. -/
theorem get?_foldl_applyEdit_of_edit (hd : Fields.distinct changes = true)
    (hread : Fields.get? changes key = some value) (out : Fields) :
    Fields.get? (changes.foldl applyEdit out) key
      = if value = .null then none else some value := by
  induction changes generalizing out with
  | nil => cases hread
  | cons c rest ih =>
    obtain ⟨k, v⟩ := c
    rw [Fields.distinct, Bool.and_eq_true, Bool.not_eq_true', Fields.has,
      Option.isSome_eq_false_iff, Option.isNone_iff_eq_none] at hd
    rw [List.foldl_cons]
    rw [Fields.get?] at hread
    split at hread
    next hk =>
      obtain rfl := Option.some.inj hread
      -- no edit behind it is of the same key
      have hrest := hd.1
      rw [Fields.get?_congr rest hk, Fields.get?_eq_none_iff] at hrest
      rw [get?_foldl_applyEdit hrest, applyEdit]
      dsimp only
      split
      · rw [Fields.get?_erase, if_pos hk]
      · rw [Fields.get?_put, if_pos hk]
    next => exact ih hd.2 hread _

/-- **What a setting reads after it was edited**: what an edit says, and what
was there where none does. -/
theorem get?_editedSettings (hd : Fields.distinct changes = true) (hkey : key ∉ structuralKeys) :
    Fields.get? ((changes.filter fun f => f.1 ∉ structuralKeys).foldl applyEdit
        (keptSettings previous start)) key
      = match Fields.get? changes key with
        | none => Fields.get? previous key
        | some value => if value = .null then none else some value := by
  cases hread : Fields.get? changes key with
  | none => exact get?_mergeSettings hkey hread
  | some value =>
    refine get?_foldl_applyEdit_of_edit (Fields.distinct_filter hd _) ?_ _
    rw [Fields.get?_filter_of_not_mem isText_of_mem_structuralKeys hkey, hread]

/-- Edits leave no key twice. -/
theorem distinct_foldl_applyEdit {out : Fields} (h : Fields.distinct out = true) :
    Fields.distinct (changes.foldl applyEdit out) = true := by
  induction changes generalizing out with
  | nil => exact h
  | cons c rest ih =>
    refine ih ?_
    rw [applyEdit]
    split
    · exact Fields.distinct_filter h _
    · exact Fields.distinct_put h _ _

end Edits

/-- Whether a value is edits of settings: it is null or an object, with no key
there twice. -/
def AreEdits (edits : Value) : Prop :=
  edits = .null ∨ ∃ changes, edits = .obj changes ∧ Fields.distinct changes = true

theorem AreEdits.spec {edits : Value} (h : AreEdits edits) :
    (edits.orElse (.obj [])).asFields = .ok edits.fieldsOrNone
      ∧ Fields.distinct edits.fieldsOrNone = true := by
  rcases h with rfl | ⟨changes, rfl, hd⟩
  · exact ⟨rfl, rfl⟩
  · cases changes <;> exact ⟨rfl, hd⟩

/-! ## The section that is saved -/

section Written

variable (settings : Settings) (previous changes : Fields) (saved : List Fields)

/-- The initial node of a section that is saved. -/
def chosenStart : Value :=
  (Fields.get changes "initial_node").orElse (startOf settings previous saved)

/-- The section that some nodes are saved in, over a section and with changes
of its settings. -/
def writtenSection : Fields :=
  Fields.put ((changes.filter fun f => f.1 ∉ structuralKeys).foldl applyEdit
    (keptSettings previous (chosenStart settings previous changes saved)))
    "nodes" (.list (saved.map Value.obj))

/-- **Where the parts of a section come from** that some nodes are saved in. -/
structure MergedFrom (written : Fields) : Prop where
  /-- No key is there twice. -/
  distinct : Fields.distinct written = true
  /-- A setting is what an edit says, else what it was; an edit to null takes
  it away. -/
  setting : ∀ key ∉ structuralKeys, Fields.get? written key = match Fields.get? changes key with
    | none => Fields.get? previous key
    | some value => if value = .null then none else some value
  /-- The initial node is the first that says something of the one in the
  edits, the one before, the id of the first node, and the default, which
  stands even if it says nothing. -/
  start : Fields.get? written "initial_node"
    = some ((Fields.get changes "initial_node").orElse ((Fields.get previous "initial_node").orElse
        ((Value.str (firstIdOf saved)).orElse settings.defaultInitialNode)))
  /-- The nodes are the ones that are saved. -/
  nodes : Fields.get? written "nodes" = some (.list (saved.map Value.obj))

/-- The section that is saved has its parts from where they are to come. -/
theorem mergedFrom_writtenSection (hd : Fields.distinct changes = true) :
    MergedFrom settings previous changes saved (writtenSection settings previous changes saved) where
  distinct := Fields.distinct_put (distinct_foldl_applyEdit (distinct_keptSettings _ _)) _ _
  setting key hkey := by
    have hne : key ≠ "nodes" := by
      rintro rfl
      exact hkey (by decide)
    rw [writtenSection, Fields.get?_put, if_neg fun h => hne (Key.text_same_iff.mp h),
      get?_editedSettings hd hkey]
  start := by
    rw [writtenSection, Fields.get?_put_of_ne _ _ (by decide), get?_mergeSettings_initialNode]
    rfl
  nodes := Fields.get?_put_self _ _ _

variable {changes} in
/-- **Merging settings meets no fault**, where the edits are edits. -/
theorem mergeSettings_of_areEdits {edits : Value} (hedits : AreEdits edits) :
    mergeSettings settings previous (.list (saved.map Value.obj)) edits
      = .ok ((edits.fieldsOrNone.filter fun f => f.1 ∉ structuralKeys).foldl applyEdit
          (keptSettings previous (chosenStart settings previous edits.fieldsOrNone saved))) := by
  have hstart : initialNode settings edits.fieldsOrNone previous (.list (saved.map Value.obj))
      = .ok (chosenStart settings previous edits.fieldsOrNone saved) := by
    rw [initialNode, firstId_map_obj, chosenStart, startOf]
    cases hedit : (Fields.get edits.fieldsOrNone "initial_node").truthy <;>
      cases hbefore : (Fields.get previous "initial_node").truthy <;>
        simp [Value.orElse, hedit, hbefore]
  rw [mergeSettings, hedits.spec.1, Outcome.ok_bind, hstart]
  rfl

end Written

/-- **A graph is saved exactly if its nodes are**, where the edits are edits. -/
theorem saveGraph_eq_map {settings : Settings} {request : SaveRequest}
    (hedits : AreEdits request.edits) (graph : Value) :
    saveGraph settings request graph
      = (fun saved => replaceSection request.previous (writtenSection settings
          (workflowSection request.previous) request.edits.fieldsOrNone saved))
        <$> saveNodes graph request.keepPositions := by
  rw [saveGraph]
  cases saveNodes graph request.keepPositions with
  | error fault => rfl
  | ok saved =>
    rw [Outcome.ok_bind]
    dsimp only
    rw [mergeSettings_of_areEdits settings _ saved hedits]
    rfl

/-! ## The place of the section -/

/-- **Whether a document is itself a section**: it is no wrapping of one, and
says something. -/
def IsBare (document : Value) : Prop :=
  document.fieldsOrNone ≠ [] ∧ wrappedSection? document = none

section Place

variable {previous : Value}

/-- In the place of a document that is a section, a section is a document. -/
theorem replaceSection_of_isBare (h : IsBare previous) (workflow : Fields) :
    replaceSection previous workflow = .obj workflow := by
  obtain ⟨hfields, hbare⟩ := h
  cases previous with
  | obj fields =>
    have hsome : fields.isEmpty = false := by simpa [Value.fieldsOrNone] using hfields
    rw [replaceSection, hbare, if_neg (by simp), hsome, if_neg (by simp)]
  | _ => exact absurd rfl hfields

/-- **Where in a document a section stands** that is saved over another. -/
structure PlacedIn (previous : Value) (written : Fields) (document : Value) : Prop where
  /-- Over a document that wraps a section it is wrapped, and everything beside
  it is as it was. -/
  wrapped : (wrappedSection? previous).isSome = true → ∃ fields, document = .obj fields
    ∧ Fields.get? fields sectionKey = some (.obj written)
    ∧ ∀ key : Key, key ≠ sectionKey →
      Fields.get? fields key = Fields.get? previous.fieldsOrNone key
  /-- Over a document that is a section it is the document. -/
  bare : IsBare previous → document = .obj written
  /-- Over nothing it is wrapped, with nothing beside it. -/
  fresh : previous.fieldsOrNone = [] → document = .obj [(sectionKey, .obj written)]

/-- A section is put where it is to stand. -/
theorem placedIn_replaceSection (previous : Value) (workflow : Fields) :
    PlacedIn previous workflow (replaceSection previous workflow) where
  wrapped h := by
    cases previous with
    | obj fields =>
      refine ⟨Fields.put fields sectionKey (.obj workflow), ?_, Fields.get?_put_self _ _ _,
        fun key hkey => ?_⟩
      · rw [replaceSection, if_pos h]
      · rw [Fields.get?_put, if_neg fun h => hkey (Key.text_same_iff.mp h)]
        rfl
    | _ => cases h
  bare h := replaceSection_of_isBare h workflow
  fresh h := by
    cases previous with
    | obj fields =>
      obtain rfl : fields = [] := h
      rfl
    | _ => rfl

end Place

/-- **Where everything in a saved document comes from.** Let a graph be saved
over a document, with edits of settings. Its nodes are saved one by one; the
section has them, an initial node, and the settings, each from where it is to
come; and it stands in the place of the section before, with everything else
in the document as it was. -/
theorem saveGraph_merges {settings : Settings} {request : SaveRequest} {graph document : Value}
    (hedits : AreEdits request.edits) (h : saveGraph settings request graph = .ok document) :
    ∃ saved written, saveNodes graph request.keepPositions = .ok saved
      ∧ MergedFrom settings (workflowSection request.previous) request.edits.fieldsOrNone saved
        written
      ∧ PlacedIn request.previous written document := by
  rw [saveGraph_eq_map hedits, Outcome.map_eq_ok] at h
  obtain ⟨saved, hsaved, rfl⟩ := h
  exact ⟨saved, _, hsaved, mergedFrom_writtenSection settings _ _ saved hedits.spec.2,
    placedIn_replaceSection _ _⟩

/-- Saving a node over a document that wraps a section beside something else,
with one setting changed, one taken away, and one left. -/
def tunedSave : SaveRequest :=
  { previous := .obj [("agent", .str "desk"), ("workflow", .obj [("nodes", .list [.int 3]),
      ("recording", .bool false), ("tts", .obj []), ("max_transitions", .int 5)])]
    edits := .obj [("tts", .null), ("nodes", .list []), ("recording", .bool true)] }

/-- A graph of one node. -/
def hallGraph : Value := (Graph.ofObjects [[("id", .str "hall")]] []).toValue

/-- What is saved so: the changed setting is as changed, the other is gone, the
third is as it was, and the initial node is the only one. -/
theorem saveGraph_merges_tunedSave :
    ∃ document saved written, saveGraph .default tunedSave hallGraph = .ok document
      ∧ MergedFrom .default (workflowSection tunedSave.previous) tunedSave.edits.fieldsOrNone saved
        written
      ∧ PlacedIn tunedSave.previous written document
      ∧ Fields.get? written "recording" = some (.bool true) ∧ Fields.get? written "tts" = none
      ∧ Fields.get? written "max_transitions" = some (.int 5)
      ∧ Fields.get? written "initial_node" = some (.str "hall") := by
  obtain ⟨document, hsave⟩ : ∃ document, saveGraph .default tunedSave hallGraph = .ok document :=
    ⟨_, rfl⟩
  obtain ⟨saved, written, hsaved, hmerged, hplaced⟩ :=
    saveGraph_merges (.inr ⟨_, rfl, by decide⟩) hsave
  obtain rfl : saved = ([[("id", .str "hall"), ("type", .str "standard")]] : List Fields) :=
    (Except.ok.inj hsaved).symm
  refine ⟨document, _, written, hsave, hmerged, hplaced, ?_, ?_, ?_, ?_⟩
  · exact hmerged.setting "recording" (by decide)
  · exact hmerged.setting "tts" (by decide)
  · exact hmerged.setting "max_transitions" (by decide)
  · exact hmerged.start

end CallFlow
