import CallFlow.Proofs.Config.Merging

/-!
# Saving step by step

Somebody who edits settings may save after each edit or once at the end. The
two come to the same, up to the order of fields: a section that was saved says
all that the next merge asks of it. What an edit took away stays away, what it
left stays, and an initial node that was filled in is filled in no further.

The one case that is different is an edit of the initial node to a blank one.
Alone it gives way to the initial node that was saved; laid over an earlier
edit it hides that edit. So the second edit has to name an initial node, or
say nothing of it (`saveGraph_saveGraph`).

The order of fields is not kept: settings that are known come first the next
time, wherever an edit had put them.
-/

namespace CallFlow

/-! ## Edits after edits -/

/-- **Whether edits say what two edits say together**, the last of them before
the first. -/
structure Combines (first last all : Fields) : Prop where
  /-- An edit of a setting is the last one. -/
  setting : ∀ key : Key, Fields.get? all key = (Fields.get? last key).or (Fields.get? first key)
  /-- The initial node is asked for in the last edit and then in the first. -/
  start : ∀ default : Value, (Fields.get all "initial_node").orElse default
    = (Fields.get last "initial_node").orElse ((Fields.get first "initial_node").orElse default)

section Edits

variable {first last : Fields}

theorem combines_self (changes : Fields) : Combines changes changes changes where
  setting key := by rw [Option.or_self]
  start default := by
    cases hstart : (Fields.get changes "initial_node").truthy with
    | true => rw [Value.orElse_of_truthy hstart, Value.orElse_of_truthy hstart]
    | false => rw [Value.orElse, Value.orElse, if_neg (by simp [hstart]), if_neg (by simp [hstart])]

/-- **Edits laid over edits say what both say together**, where the last names
an initial node or says nothing of it. -/
theorem combines_overlay (hlast : Fields.distinct last = true)
    (hstart : Fields.get? last "initial_node" = none
      ∨ (Fields.get last "initial_node").truthy = true) :
    Combines first last (Fields.overlay first last) where
  setting key := Fields.get?_overlay_of_distinct hlast first key
  start default := by
    rw [Fields.get, Fields.get?_overlay_of_distinct hlast]
    rcases hstart with hnone | hnamed
    · rw [Fields.get, hnone, Option.none_or]
      rfl
    · rw [Fields.get?_of_truthy hnamed, Option.some_or, Option.getD_some,
        Value.orElse_of_truthy hnamed, Value.orElse_of_truthy hnamed]

end Edits

/-! ## Sections after sections -/

section Sections

variable {settings : Settings} {previous first last all : Fields} {saved : List Fields}
  {written again once : Fields}

/-- **A section that is merged from what was merged from another reads as the
section that is merged from it at once**, by edits that say what both say. -/
theorem MergedFrom.get?_eq_of_combines (hcombines : Combines first last all)
    (hwritten : MergedFrom settings previous first saved written)
    (hagain : MergedFrom settings written last saved again)
    (honce : MergedFrom settings previous all saved once) (key : Key) :
    Fields.get? again key = Fields.get? once key := by
  by_cases hkey : key ∈ structuralKeys
  · simp only [structuralKeys, List.mem_cons, List.not_mem_nil, or_false] at hkey
    rcases hkey with rfl | rfl
    · have hfilled : Fields.get written "initial_node" = (Fields.get first "initial_node").orElse
          ((Fields.get previous "initial_node").orElse
            ((Value.str (firstIdOf saved)).orElse settings.defaultInitialNode)) := by
        rw [Fields.get, hwritten.start, Option.getD_some]
      -- an initial node that was filled in is filled in no further
      rw [hagain.start, honce.start, hcombines.start, hfilled, Value.orElse_assoc,
        Value.orElse_orElse]
    · rw [hagain.nodes, honce.nodes]
  · rw [hagain.setting key hkey, honce.setting key hkey, hcombines.setting,
      hwritten.setting key hkey]
    cases Fields.get? last key <;> rfl

/-- **Merging again by edits gives what merging once gives** by edits that say
what both say, up to the order of fields. -/
theorem reordered_writtenSection (hcombines : Combines first last all)
    (hfirst : Fields.distinct first = true) (hlast : Fields.distinct last = true)
    (hall : Fields.distinct all = true) :
    (Value.obj (writtenSection settings (writtenSection settings previous first saved) last
      saved)).Reordered (.obj (writtenSection settings previous all saved)) := by
  have hwritten := mergedFrom_writtenSection settings previous first saved hfirst
  have hagain := mergedFrom_writtenSection settings (writtenSection settings previous first saved)
    last saved hlast
  have honce := mergedFrom_writtenSection settings previous all saved hall
  exact .of_get?_eq hagain.distinct honce.distinct
    (hwritten.get?_eq_of_combines hcombines hagain honce)

end Sections

/-! ## Documents -/

section Documents

variable {settings : Settings} {previous edits : Value} {saved : List Fields}

/-- Documents are reorderings if the sections in the same place of them are. -/
theorem reordered_replaceSection {workflow workflow' : Fields}
    (hd : Fields.distinct previous.fieldsOrNone = true)
    (h : (Value.obj workflow).Reordered (.obj workflow')) :
    (replaceSection previous workflow).Reordered (replaceSection previous workflow') := by
  have hfresh : (Value.obj [(sectionKey, .obj workflow)]).Reordered
      (.obj [(sectionKey, .obj workflow')]) :=
    @Value.Reordered.put_put [] rfl sectionKey _ _ h
  cases previous with
  | obj fields =>
    rw [replaceSection, replaceSection]
    split
    · exact Value.Reordered.put_put hd sectionKey h
    · split
      · exact hfresh
      · exact h
  | _ => exact hfresh

/-- A section that is saved by itself, with edits of settings, names no section
of its own. -/
theorem object?_get_writtenSection (hedits : AreEdits edits)
    (hsettings : editsSettings edits = true) (hbare : wrappedSection? previous = none) :
    (Fields.get (writtenSection settings (workflowSection previous) edits.fieldsOrNone saved)
      sectionKey).object? = none := by
  have hmerged := mergedFrom_writtenSection settings (workflowSection previous) edits.fieldsOrNone
    saved hedits.spec.2
  rw [Fields.get, hmerged.setting sectionKey (by decide),
    get?_sectionKey_of_editsSettings hsettings, workflowSection, hbare]
  exact hbare

variable {edits' all graph : Value}

/-- **Saving again is saving at once** with edits that say what both say, up to
the order of fields. -/
theorem alike_saveGraph_of_combines (hprevious : Fields.distinct previous.fieldsOrNone = true)
    (hedits : AreEdits edits) (hsettings : editsSettings edits = true) (hedits' : AreEdits edits')
    (hall : AreEdits all)
    (hcombines : Combines edits.fieldsOrNone edits'.fieldsOrNone all.fieldsOrNone)
    (keepPositions : Bool) :
    Outcome.Alike Value.Reordered
      (saveGraph settings { previous, edits, keepPositions } graph >>= fun document =>
        saveGraph settings { previous := document, edits := edits', keepPositions } graph)
      (saveGraph settings { previous, edits := all, keepPositions } graph) := by
  rw [@saveGraph_eq_map settings { previous, edits, keepPositions } hedits,
    @saveGraph_eq_map settings { previous, edits := all, keepPositions } hall]
  dsimp only
  cases hsaved : saveNodes graph keepPositions with
  | error fault => exact .error fault
  | ok saved =>
    have hbare := @object?_get_writtenSection settings previous edits saved hedits hsettings
    show Outcome.Alike Value.Reordered (saveGraph settings
      { previous := replaceSection previous
          (writtenSection settings (workflowSection previous) edits.fieldsOrNone saved)
        edits := edits', keepPositions } graph) _
    rw [saveGraph_eq_map hedits']
    dsimp only
    -- the section that was saved is found, and the next one takes its place
    rw [hsaved, workflowSection_replaceSection hbare]
    refine .ok ?_
    dsimp only
    rw [replaceSection_replaceSection hbare (Fields.put_ne_nil _ _ _)]
    exact reordered_replaceSection hprevious (reordered_writtenSection hcombines hedits.spec.2
      hedits'.spec.2 hall.spec.2)

end Documents

/-- **Saving step by step is saving at once.** Let the settings of a document be
edited twice, the last time with an initial node that says something or with
none. Then a graph that is saved over the document with the first edits, and
over what that gives with the last, is saved as it is with the last edits laid
over the first, up to the order of fields, and meets a fault where it does. And
saving again what was saved, with the same edits, changes nothing. -/
theorem saveGraph_saveGraph (settings : Settings) (graph : Value) (keepPositions : Bool)
    {previous : Value} (hprevious : Fields.distinct previous.fieldsOrNone = true) :
    (∀ first last : Fields, Fields.distinct first = true → Fields.distinct last = true →
        Fields.has first sectionKey = false →
        Fields.get? last "initial_node" = none ∨ (Fields.get last "initial_node").truthy = true →
      Outcome.Alike Value.Reordered
        (saveGraph settings { previous, edits := .obj first, keepPositions } graph >>=
          fun document =>
            saveGraph settings { previous := document, edits := .obj last, keepPositions } graph)
        (saveGraph settings { previous, edits := .obj (Fields.overlay first last), keepPositions }
          graph))
    ∧ ∀ edits : Value, AreEdits edits → editsSettings edits = true →
      Outcome.Alike Value.Reordered
        (saveGraph settings { previous, edits, keepPositions } graph >>= fun document =>
          saveGraph settings { previous := document, edits, keepPositions } graph)
        (saveGraph settings { previous, edits, keepPositions } graph) := by
  refine ⟨fun first last hfirst hlast hsection hstart => ?_, fun edits hedits hsettings => ?_⟩
  · have hsettings : editsSettings (.obj first) = true := by rw [editsSettings, hsection]; rfl
    exact alike_saveGraph_of_combines hprevious (.inr ⟨_, rfl, hfirst⟩) hsettings
      (.inr ⟨_, rfl, hlast⟩) (.inr ⟨_, rfl, Fields.distinct_overlay hfirst last⟩)
      (combines_overlay hlast hstart) keepPositions
  · exact alike_saveGraph_of_combines hprevious hedits hsettings hedits hedits
      (combines_self edits.fieldsOrNone) keepPositions

/-- A document that is a section. -/
def hookedDocument : Value := .obj [("tts", .int 1), ("webhook", .str "/call")]

/-- Its settings edited for the first time: one is taken away, and one added. -/
def firstTuning : Fields := [("tts", .null), ("recording", .bool true)]

/-- And for the last time: the one that is gone is set again, and an initial
node is named. -/
def lastTuning : Fields := [("tts", .obj [("voice", .str "alto")]), ("initial_node", .str "hall")]

/-- Saved step by step and at once, the added setting stays, the other is back,
and the node is named. -/
theorem saveGraph_saveGraph_lastTuning :
    Outcome.Alike Value.Reordered
      (saveGraph .default { previous := hookedDocument, edits := .obj firstTuning } hallGraph >>=
        fun document =>
          saveGraph .default { previous := document, edits := .obj lastTuning } hallGraph)
      (saveGraph .default
        { previous := hookedDocument, edits := .obj (Fields.overlay firstTuning lastTuning) }
        hallGraph)
    ∧ ∃ written, saveGraph .default
        { previous := hookedDocument, edits := .obj (Fields.overlay firstTuning lastTuning) }
        hallGraph = .ok (.obj written)
      ∧ Fields.get? written "tts" = some (.obj [("voice", .str "alto")])
      ∧ Fields.get? written "recording" = some (.bool true)
      ∧ Fields.get? written "webhook" = some (.str "/call")
      ∧ Fields.get? written "initial_node" = some (.str "hall") := by
  refine ⟨(saveGraph_saveGraph .default hallGraph false (by decide)).1 firstTuning lastTuning
    (by decide) (by decide) (by decide) (.inr (by decide)), _, rfl, ?_, ?_, ?_, ?_⟩ <;> rfl

end CallFlow
