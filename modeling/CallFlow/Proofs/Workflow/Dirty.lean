import CallFlow.Proofs.Json.TextKeyed
import CallFlow.Proofs.Session.History
import CallFlow.Proofs.Workflow.Opening

/-!
# Opening a workflow does not make it dirty

Whether there is anything to save is decided on the document the graph would
be saved as: it is compared with the document the configuration is saved as
when it is loaded and nothing else is done. A configuration that is opened
shows nodes that are saved as the ones that were loaded, so the two documents
are the same and there is nothing to save (`isClean_opened`).

Of the configuration nothing is asked but that its keys are texts. It need
not be in any normal form, its nodes may share ids, and its lists of
transitions may hold anything: whatever saving makes of it, it makes of both.

A session starts on a graph that was opened, and undoing goes back to it. So
there is nothing to save, either, once everything was undone.
-/

namespace CallFlow

/-- **Whether there is nothing to save**: the graph is compared with its
document without fault, and is not dirty. -/
def IsClean (settings : Settings) (request : SaveRequest) (graph : Value) : Prop :=
  ∃ state, dirtyState settings request graph = .ok state ∧ state.dirty = false

section Dirty

variable {settings : Settings} {config : Value} {keepPositions : Bool} {g : Graph}
  {document : Value}

theorem digest_of_textKeyed (h : Json.textKeyed document = true) :
    digest document = .ok (Sha256.hexDigest (Json.canonical document)) := by
  rw [digest, if_pos h]

/-- **What comparing a graph comes to**: the document it is saved as, with its digest,
is dirty if the document an unedited graph is saved as has another. -/
theorem dirtyState_eq {request : SaveRequest} {graph current baseline : Value}
    (hsave : saveGraph settings request graph = .ok current)
    (hprevious : request.previous.truthy = true)
    (hload : loadGraph settings request.previous = .ok g)
    (hbaseline : saveGraph settings { request with edits := .null } g.toValue = .ok baseline)
    (hcurrent : Json.textKeyed current = true) (hkeys : Json.textKeyed baseline = true) :
    dirtyState settings request graph
      = .ok ⟨current, Sha256.hexDigest (Json.canonical current)
          ≠ Sha256.hexDigest (Json.canonical baseline),
        Sha256.hexDigest (Json.canonical current)⟩ := by
  rw [dirtyState, hsave, Outcome.ok_bind, digest_of_textKeyed hcurrent, Outcome.ok_bind, hprevious,
    hload, Bool.not_true, if_neg Bool.false_ne_true, Outcome.ok_bind, hbaseline, Outcome.ok_bind,
    digest_of_textKeyed hkeys, Outcome.ok_bind]
  rfl

/-- **A graph that is saved as the one that was loaded compares as that one**:
it is saved as the document and is not dirty. -/
theorem dirtyState_of_saveGraph {graph : Value} (hconfig : config.truthy = true)
    (hkeys : Json.textKeyed document = true) (hload : loadGraph settings config = .ok g)
    (hbaseline : saveGraph settings { previous := config, keepPositions := keepPositions } g.toValue
      = .ok document)
    (hsave : saveGraph settings { previous := config, keepPositions := keepPositions } graph
      = .ok document) :
    ∃ hash, digest document = .ok hash
      ∧ dirtyState settings { previous := config, keepPositions := keepPositions } graph
        = .ok ⟨document, false, hash⟩ := by
  refine ⟨_, digest_of_textKeyed hkeys, ?_⟩
  rw [dirtyState_eq hsave hconfig hload hbaseline hkeys hkeys]
  simp only [ne_eq, not_true_eq_false, decide_false]

/-- **A graph that is saved as the one that was loaded is not dirty.** -/
theorem isClean_of_saveGraph {graph : Value} (hconfig : config.truthy = true)
    (hkeys : Json.textKeyed document = true) (hload : loadGraph settings config = .ok g)
    (hbaseline : saveGraph settings { previous := config, keepPositions := keepPositions } g.toValue
      = .ok document)
    (hsave : saveGraph settings { previous := config, keepPositions := keepPositions } graph
      = .ok document) :
    IsClean settings { previous := config, keepPositions := keepPositions } graph := by
  obtain ⟨_, _, hstate⟩ := dirtyState_of_saveGraph hconfig hkeys hload hbaseline hsave
  exact ⟨_, hstate, rfl⟩

theorem textKeyed_saveGraph_loadGraph (hconfig : Json.textKeyed config = true)
    (hsettings : settings.textKeyed = true) (hload : loadGraph settings config = .ok g)
    (hsave : saveGraph settings { previous := config, keepPositions := keepPositions } g.toValue
      = .ok document) : Json.textKeyed document = true :=
  Json.hereditary_textKeyed.saveGraph_loadGraph_of_settings (fun _ => rfl) hconfig hsettings hload
    hsave

/-- **What is shown of a configuration is saved as what was loaded.** -/
theorem saveGraph_of_openWorkflow {arranged : Bool} {direction : Value} {placed : Option Value}
    {search : Rank.Search} {graph : Value} (hload : loadGraph settings config = .ok g)
    (hopen : openWorkflow settings config arranged direction placed search = .ok graph)
    {request : SaveRequest} (hkeep : arranged = true → request.keepPositions = false) :
    saveGraph settings request graph = saveGraph settings request g.toValue := by
  obtain ⟨raws, nodes, nodes', _, hloaded, _, rfl, hshown⟩ := openWorkflow_eq_ok hopen
  obtain rfl := Except.ok.inj (hload.symm.trans hloaded)
  exact saveGraph_congr (hshown.imp fun _ _ hnode => hnode.saveNode_eq hkeep _)

/-- A session on a configuration starts on the graph the configuration is
opened as, with nothing to go back to. -/
theorem openWorkflow_of_ofConfig {first : Session}
    (h : Session.ofConfig settings config = .ok first) :
    openWorkflow settings config false .null none = .ok first.graph ∧ first.history = [] := by
  obtain ⟨g, hload, h⟩ := Outcome.bind_eq_ok.mp h
  obtain ⟨synced, hsync, h⟩ := Outcome.bind_eq_ok.mp h
  obtain rfl := Except.ok.inj h
  refine ⟨?_, rfl⟩
  rw [openWorkflow, hload, Outcome.ok_bind]
  show (do return (← sync g.toValue none).revision.apply g.toValue : Outcome Value) = _
  rw [hsync]
  rfl

/-- **Opening a workflow does not make it dirty.** Where a configuration is
loaded and saved again without fault, there is nothing to save

* of the graph it is opened as, whatever layout was applied and however distances
  were found for it; if none was applied, places may be kept as well; and
* in a session on it, after any steps, once undoing answers that there was
  nothing to undo – and by undoing often enough it does. -/
theorem isClean_opened (hconfig : config.truthy = true) (hkeys : Json.textKeyed config = true)
    (hsettings : settings.textKeyed = true) (hload : loadGraph settings config = .ok g)
    (hsave : saveGraph settings { previous := config, keepPositions := keepPositions } g.toValue
      = .ok document) :
    (∀ arranged direction placed search graph,
      openWorkflow settings config arranged direction placed search = .ok graph →
      (arranged = true → keepPositions = false) →
      IsClean settings { previous := config, keepPositions := keepPositions } graph)
    ∧ ∀ first, Session.ofConfig settings config = .ok first → ∀ steps,
      (∀ last, (first.run steps).step .undo = (last, .ok (.bool false)) →
        IsClean settings { previous := config, keepPositions := keepPositions } last.graph)
      ∧ ∃ n, ((first.run (steps ++ List.replicate n .undo)).step .undo).2
        = .ok (.bool false) := by
  have hopened : ∀ arranged direction placed search graph,
      openWorkflow settings config arranged direction placed search = .ok graph →
      (arranged = true → keepPositions = false) →
      IsClean settings { previous := config, keepPositions := keepPositions } graph := by
    intro arranged direction placed search graph hopen hkeep
    refine isClean_of_saveGraph hconfig
      (textKeyed_saveGraph_loadGraph hkeys hsettings hload hsave) hload hsave ?_
    rw [saveGraph_of_openWorkflow hload hopen hkeep]
    exact hsave
  refine ⟨hopened, fun first hfirst steps => ⟨fun last hundo => ?_, ?_⟩⟩
  · obtain ⟨hopen, hhistory⟩ := openWorkflow_of_ofConfig hfirst
    -- the graph that is left is the one the session started on
    rw [Session.graph_eq_of_undo hhistory steps hundo]
    exact hopened false .null none _ first.graph hopen fun harranged =>
      absurd harranged Bool.false_ne_true
  · refine ⟨(first.run steps).history.length, ?_⟩
    rw [Session.run, List.foldl_append]
    exact Session.undo_run_undo_eq_false (first.run steps)

end Dirty

/-- A configuration that is in no normal form: two nodes share an id, lists
hold what is no transition, and one entry is no node. -/
def tangledConfig : Value :=
  .obj [("workflow", .obj [("nodes", .list [
    .obj [("id", .str "a"), ("transitions", .list [.int 3, .obj [("target", .str "a")]]),
      ("_metadata", .obj [("position", .obj [("x", .int 0), ("y", .int 0)])])],
    .null,
    .obj [("id", .str "a"), ("type", .str "end_call"), ("transitions", .list [.null]),
      ("_metadata", .obj [("position", .obj [("x", .int 1), ("y", .int 0)])])]])])]

/-- Opening that configuration, drawing an edge in a session on it, and
undoing twice. -/
theorem isClean_opened_tangledConfig :
    ∃ graph first last, openWorkflow .default tangledConfig false .null none = .ok graph
      ∧ IsClean .default { previous := tangledConfig, keepPositions := true } graph
      ∧ Session.ofConfig .default tangledConfig = .ok first
      ∧ (first.run [.connect (.str "a") (.str "a") .null .null, .undo]).step .undo
        = (last, .ok (.bool false))
      ∧ IsClean .default { previous := tangledConfig, keepPositions := true } last.graph := by
  obtain ⟨g, hload, document, hsave⟩ : ∃ g, loadGraph .default tangledConfig = .ok g
      ∧ ∃ document, saveGraph .default { previous := tangledConfig, keepPositions := true }
        g.toValue = .ok document := ⟨_, rfl, _, rfl⟩
  obtain ⟨graph, hopen, first, hfirst, last, hundo⟩ : ∃ graph,
      openWorkflow .default tangledConfig false .null none = .ok graph
      ∧ ∃ first, Session.ofConfig .default tangledConfig = .ok first
      ∧ ∃ last, (first.run [.connect (.str "a") (.str "a") .null .null, .undo]).step .undo
        = (last, .ok (.bool false)) := ⟨_, rfl, _, rfl, _, rfl⟩
  obtain ⟨hopened, hsession⟩ := isClean_opened rfl (by decide) (by decide) hload hsave
  exact ⟨graph, first, last, hopen,
    hopened false .null none _ graph hopen (fun h => absurd h Bool.false_ne_true), hfirst, hundo,
    (hsession first hfirst _).1 last hundo⟩

end CallFlow
