import CallFlow.Proofs.Graph.Retained
import CallFlow.Proofs.Session.History

/-!
# What a step does to the graphs

Seven of the steps are edits of the graph, and what such a step does to a
session is told by what the edit comes to (`Step.edit?`). Where it meets a
fault nothing is done. Where it hands back a revision that one is taken over,
and then the selection is seen to (`step_of_edit`), though only by the two
steps that remove something. No other step touches the graphs, but for
undoing.

The graphs of a session that was started on a configuration state their lists,
and they do so for good (`Listed.run`): for an edit it does not matter what it
is asked for.
-/

namespace CallFlow

/-! ## Steps that are edits -/

/-- What the edit a step makes of a graph document comes to; other steps make
none. -/
def Step.edit? (document : Value) : Step → Option (Outcome Revision)
  | .connect source target condition priority =>
    some (connectNodes document source target condition priority)
  | .deleteEdge id => some (removeEdges document (.list [id]))
  | .relabelEdge id condition priority => some (updateEdge document id condition priority)
  | .updateNode id updates => some (updateNodeData document id updates)
  | .setTransitions id transitions => some (replaceTransitions document id transitions)
  | .addNode kind position id draw =>
    some (Prod.fst <$> CallFlow.addNode document kind position id draw)
  | .deleteNode id => some (CallFlow.deleteNode document id)
  | _ => none

/-- An edit reads the two lists of a document, and whether there are other
keys, and nothing else. -/
theorem Step.edit?_congr {document document' : Value}
    (hnodes : nodesOf document = nodesOf document') (hedges : edgesOf document = edgesOf document')
    (hkeys : Revision.unchanged document = Revision.unchanged document') (t : Step) :
    t.edit? document = t.edit? document' := by
  cases t with
  | connect source target condition priority =>
    simp only [edit?, connectNodes, hnodes, hedges, hkeys]
  | deleteEdge id => simp only [edit?, removeEdges, hnodes, hedges, hkeys]
  | relabelEdge id condition priority => simp only [edit?, updateEdge, hnodes, hedges, hkeys]
  | updateNode id updates => simp only [edit?, updateNodeData, hnodes, hedges, hkeys]
  | setTransitions id transitions =>
    simp only [edit?, replaceTransitions, hnodes, hedges, hkeys]
  | addNode kind position id draw => simp only [edit?, CallFlow.addNode, hnodes, hedges]
  | deleteNode id => simp only [edit?, CallFlow.deleteNode, hnodes, hedges]
  | _ => rfl

theorem StatesLists.edit?_eq {document : Value} {nodes edges : List Fields}
    (h : StatesLists document nodes edges) (t : Step) :
    t.edit? document = t.edit? (Graph.ofObjects nodes edges).toValue := by
  refine Step.edit?_congr ?_ ?_ h.keys t
  · rw [h.nodesOf_eq, nodesOf_toValue, Graph.ofObjects]
  · rw [h.edgesOf_eq, edgesOf_toValue, Graph.ofObjects]

/-- The id of the node whose list a step replaces. -/
def Step.replacedList? : Step → Option Value
  | .setTransitions id _ => some id
  | .updateNode id updates => if replacesList updates then some id else none
  | _ => none

/-- The nodes a step leaves in place. -/
def Step.keepsNode : Step → Fields → Prop
  | .deleteNode id, node => Value.str (idOf node) ≠ id
  | _, _ => True

/-- The edges a step leaves in place. -/
def Step.keepsEdge : Step → Fields → Prop
  | .deleteEdge id, edge => Value.str (idOf edge) ≠ id
  | .deleteNode id, edge => Value.str (sourceOf edge) ≠ id ∧ Value.str (targetOf edge) ≠ id
  | t, edge => t.replacedList? ≠ some (.str (sourceOf edge))

/-- **What an edit leaves in place** of a graph that states its lists. -/
theorem retains_edit {document : Value} {nodes edges : List Fields}
    (hstates : StatesLists document nodes edges) {t : Step} {revision : Revision}
    (h : t.edit? document = some (.ok revision)) :
    Retains nodes edges t.keepsNode t.keepsEdge (revision.apply document) := by
  rw [hstates.edit?_eq] at h
  have hretained : Retains nodes edges t.keepsNode t.keepsEdge
      (revision.apply (Graph.ofObjects nodes edges).toValue) := by
    -- one case for each edit; which edges stay with a list is the only thing to see to
    cases t with
    | connect source target condition priority =>
      exact retains_connectNodes (Option.some.inj h)
    | deleteEdge id => exact retains_removeEdges (Option.some.inj h)
    | relabelEdge id condition priority => exact retains_updateEdge (Option.some.inj h)
    | updateNode id updates =>
      refine (retains_updateNodeData (Option.some.inj h)).weaken fun edge hkept hreplaces hid => ?_
      refine hkept ?_
      rw [Step.replacedList?, if_pos hreplaces, hid]
    | setTransitions id transitions =>
      refine (retains_replaceTransitions (Option.some.inj h)).weaken fun edge hkept hid => ?_
      exact hkept (congrArg some hid.symm)
    | addNode kind position id draw =>
      obtain ⟨⟨revision', id'⟩, hadd, rfl⟩ := Outcome.map_eq_ok.mp (Option.some.inj h)
      exact retains_addNode hadd
    | deleteNode id => exact retains_deleteNode (Option.some.inj h)
    | _ => cases h
  cases revision with
  | kept => exact retains_self hstates
  | rebuilt g => exact hretained

namespace Session

/-! ## The steps -/

theorem graph_commit (s : Session) (revision : Revision) :
    (s.commit revision).graph = revision.apply s.graph := by
  cases revision <;> rfl

theorem selection_commit (s : Session) (revision : Revision) :
    (s.commit revision).selection = s.selection := by
  cases revision <;> rfl

/-- What a step sees to once its edit is taken over: the selection, where
something was removed. -/
def tidy (s : Session) : Step → Result
  | .deleteEdge id => (s.forgetEdge id, .ok .null)
  | .deleteNode id => (s.forgetNode id).dropLostEdge
  | _ => (s, .ok .null)

/-- Seeing to the selection has no part in the graphs. -/
theorem sameGraphs_tidy (s : Session) (t : Step) : SameGraphs s (s.tidy t).1 := by
  cases t with
  | deleteEdge id => exact sameGraphs_forgetEdge s id
  | deleteNode id =>
    have hnode := sameGraphs_forgetNode s id
    have hedge := sameGraphs_dropLostEdge (s.forgetNode id)
    exact ⟨hedge.1.trans hnode.1, hedge.2.trans hnode.2⟩
  | _ => exact ⟨rfl, rfl⟩

/-- **An edit that meets a fault does nothing.** -/
theorem step_of_edit_error {s : Session} {t : Step} {fault : Fault}
    (h : t.edit? s.graph = some (.error fault)) : s.step t = (s, .error fault) := by
  cases t with
  | connect | relabelEdge | updateNode | setTransitions | deleteEdge | deleteNode =>
    rw [step, Option.some.inj h]
    rfl
  | addNode kind position id draw =>
    rw [step]
    cases hadd : CallFlow.addNode s.graph kind position id draw with
    | error fault' =>
      rw [Step.edit?, hadd] at h
      obtain rfl : fault' = fault := Except.error.inj (Option.some.inj h)
      rfl
    | ok added =>
      rw [Step.edit?, hadd] at h
      cases h
  | _ => cases h

/-- **What an edit hands back is taken over**, and then the selection is seen
to; a fault can be met only there. -/
theorem step_of_edit {s : Session} {t : Step} {revision : Revision}
    (h : t.edit? s.graph = some (.ok revision)) :
    (s.step t).1 = ((s.commit revision).tidy t).1
      ∧ ∀ fault, (s.step t).2 = .error fault → ((s.commit revision).tidy t).2 = .error fault := by
  cases t with
  | connect | relabelEdge | updateNode | setTransitions =>
    rw [step, Option.some.inj h]
    exact ⟨rfl, fun _ hfault => by cases hfault⟩
  | deleteEdge | deleteNode =>
    rw [step, Option.some.inj h]
    exact ⟨rfl, fun _ hfault => hfault⟩
  | addNode kind position id draw =>
    rw [step]
    cases hadd : CallFlow.addNode s.graph kind position id draw with
    | error fault =>
      rw [Step.edit?, hadd] at h
      cases h
    | ok added =>
      rw [Step.edit?, hadd] at h
      obtain rfl := Except.ok.inj (Option.some.inj h)
      exact ⟨rfl, fun _ hfault => by cases hfault⟩
  | _ => cases h

theorem sameGraphs_step_of_edit {s : Session} {t : Step} {revision : Revision}
    (h : t.edit? s.graph = some (.ok revision)) : SameGraphs (s.commit revision) (s.step t).1 := by
  rw [(step_of_edit h).1]
  exact sameGraphs_tidy _ t

/-- **What a step comes to.** -/
inductive ComesTo (s : Session) : Step → Prop where
  /-- It selects a node. -/
  | selectNode (id : Value) : ComesTo s (.selectNode id)
  /-- It selects an edge. -/
  | selectEdge (id : Value) : ComesTo s (.selectEdge id)
  /-- It selects nothing. -/
  | clearSelection : ComesTo s .clearSelection
  /-- It saves the graph. -/
  | save (request : SaveRequest) : ComesTo s (.save request)
  /-- It is an edit that meets a fault, and does nothing. -/
  | rejected {t : Step} {fault : Fault} (hedit : t.edit? s.graph = some (.error fault))
    (hstep : s.step t = (s, .error fault)) : ComesTo s t
  /-- It is an edit, and what that hands back is taken over. -/
  | edited {t : Step} {revision : Revision} (hedit : t.edit? s.graph = some (.ok revision)) :
    ComesTo s t
  /-- There is nothing to undo. -/
  | idle (hhistory : s.history = []) (hstep : s.step .undo = (s, .ok (.bool false))) :
    ComesTo s .undo
  /-- It goes back to the latest graph that was recorded. -/
  | returned {graph : Value} {history : List Value} (hhistory : s.history = graph :: history) :
    ComesTo s .undo

/-- **Every step comes to one of these.** -/
theorem comesTo (s : Session) (t : Step) : s.ComesTo t := by
  cases hedit : t.edit? s.graph with
  | some outcome =>
    cases outcome with
    | error fault => exact .rejected hedit (step_of_edit_error hedit)
    | ok revision => exact .edited hedit
  | none =>
    cases t with
    | selectNode id => exact .selectNode id
    | selectEdge id => exact .selectEdge id
    | clearSelection => exact .clearSelection
    | save request => exact .save request
    | undo =>
      cases hhistory : s.history with
      | nil => exact .idle hhistory (by rw [step, undo, hhistory])
      | cons graph history => exact .returned hhistory
    | _ => cases hedit

/-! ## Runs -/

theorem run_append (s : Session) (steps more : List Step) :
    s.run (steps ++ more) = (s.run steps).run more := List.foldl_append

theorem run_cons (s : Session) (t : Step) (rest : List Step) :
    s.run (t :: rest) = (s.step t).1.run rest := rfl

theorem run_concat (s : Session) (steps : List Step) (t : Step) :
    s.run (steps ++ [t]) = ((s.run steps).step t).1 := run_append s steps [t]

/-- **What every edit keeps true of graphs is true of all graphs of a session**
after a step if it was before. -/
theorem forall_graphs_step {P : Value → Prop}
    (hedit : ∀ (document : Value) (t : Step) (g : Graph), P document →
      t.edit? document = some (.ok (.rebuilt g)) → P g.toValue)
    {s : Session} (hs : ∀ document ∈ s.graph :: s.history, P document) (t : Step) :
    ∀ document ∈ (s.step t).1.graph :: (s.step t).1.history, P document := by
  have hsame : ∀ {s₁ s₂ : Session}, SameGraphs s₁ s₂ →
      (∀ document ∈ s₁.graph :: s₁.history, P document) →
        ∀ document ∈ s₂.graph :: s₂.history, P document := by
    intro s₁ s₂ h h₁
    rw [h.1, h.2]
    exact h₁
  cases s.comesTo t with
  | selectNode | selectEdge | clearSelection | save => exact hs
  | rejected _ hstep | idle _ hstep =>
    rw [hstep]
    exact hs
  | @edited _ revision hrevision =>
    refine hsame (sameGraphs_step_of_edit hrevision) ?_
    cases revision with
    | kept => exact hs
    | rebuilt g =>
      intro document hmem
      rcases List.mem_cons.mp hmem with rfl | hmem
      · exact hedit s.graph t g (hs s.graph List.mem_cons_self) hrevision
      · exact hs document hmem
  | returned hhistory =>
    refine hsame (sameGraphs_undo hhistory) fun document hmem => ?_
    exact hs document (List.mem_cons_of_mem _ (hhistory ▸ hmem))

/-- It is true of all of them after a run if it was before. -/
theorem forall_graphs_run {P : Value → Prop}
    (hedit : ∀ (document : Value) (t : Step) (g : Graph), P document →
      t.edit? document = some (.ok (.rebuilt g)) → P g.toValue)
    {s : Session} (hs : ∀ document ∈ s.graph :: s.history, P document) (steps : List Step) :
    ∀ document ∈ (s.run steps).graph :: (s.run steps).history, P document := by
  induction steps generalizing s with
  | nil => exact hs
  | cons t rest ih => exact ih (forall_graphs_step hedit hs t)

/-! ## Sessions whose graphs state their lists -/

/-- **The graphs of a session state their lists**: the one it shows and those
it can go back to. -/
def Listed (s : Session) : Prop := ∀ document ∈ s.graph :: s.history, IsListed document

theorem start_spec {document : Value} {s : Session} (h : start document = .ok s) :
    ∃ synced, sync document none = .ok synced
      ∧ s = { graph := synced.revision.apply document } := by
  obtain ⟨synced, hsync, h⟩ := Outcome.bind_eq_ok.mp h
  exact ⟨synced, hsync, (Except.ok.inj h).symm⟩

theorem fresh_of_start {document : Value} {s : Session} (h : start document = .ok s) :
    s.history = [] ∧ s.selection = .none := by
  obtain ⟨synced, _, rfl⟩ := start_spec h
  exact ⟨rfl, rfl⟩

theorem fresh_of_ofConfig {settings : Settings} {config : Value} {s : Session}
    (h : ofConfig settings config = .ok s) : s.history = [] ∧ s.selection = .none := by
  obtain ⟨g, _, h⟩ := Outcome.bind_eq_ok.mp h
  exact fresh_of_start h

/-- **A session on a configuration starts on the nodes its entries are loaded
as**, once these are brought into agreement. -/
theorem loadedAs_ofConfig {settings : Settings} {config : Value} {s : Session}
    (h : ofConfig settings config = .ok s) :
    ∃ raws loaded nodes edges, List.Forall₂ LoadedAs raws loaded
      ∧ List.Forall₂ (SyncedTo edges none) loaded nodes
      ∧ s.graph = (Graph.ofObjects nodes edges).toValue := by
  obtain ⟨g, hload, h⟩ := Outcome.bind_eq_ok.mp h
  obtain ⟨raws, loaded, _, rfl, hloaded⟩ := loadGraph_eq_ok hload
  obtain ⟨synced, hsync, rfl⟩ := start_spec h
  obtain ⟨nodes, happly, hsynced⟩ := syncedTo_sync hsync
  exact ⟨raws, loaded, nodes, _, hloaded, hsynced, happly⟩

theorem graph_ofConfig {settings : Settings} {config : Value} {s : Session}
    (h : ofConfig settings config = .ok s) :
    ∃ nodes edges, s.graph = (Graph.ofObjects nodes edges).toValue := by
  obtain ⟨_, _, nodes, edges, _, _, hgraph⟩ := loadedAs_ofConfig h
  exact ⟨nodes, edges, hgraph⟩

theorem listed_ofConfig {settings : Settings} {config : Value} {s : Session}
    (h : ofConfig settings config = .ok s) : s.Listed := by
  obtain ⟨nodes, edges, hgraph⟩ := graph_ofConfig h
  intro document hmem
  rw [(fresh_of_ofConfig h).1] at hmem
  obtain rfl := List.mem_singleton.mp hmem
  exact ⟨nodes, edges, hgraph ▸ statesLists_toValue nodes edges⟩

theorem Listed.isListed_of_history {s : Session} (hlisted : s.Listed) {graph : Value}
    {history : List Value} (h : s.history = graph :: history) : IsListed graph :=
  hlisted graph (List.mem_cons_of_mem _ (h ▸ List.mem_cons_self))

/-- **Every step leaves graphs that state their lists**, whatever it is asked
for. -/
theorem Listed.step {s : Session} (hlisted : s.Listed) (t : Step) : (s.step t).1.Listed := by
  refine forall_graphs_step (fun document t g hdocument hedit => ?_) hlisted t
  obtain ⟨nodes, edges, hstates⟩ := hdocument
  obtain ⟨nodes', edges', hstates', _⟩ := retains_edit hstates hedit
  exact ⟨nodes', edges', hstates'⟩

/-- **Every run leaves graphs that state their lists.** -/
theorem Listed.run {s : Session} (hlisted : s.Listed) (steps : List Step) :
    (s.run steps).Listed := by
  induction steps generalizing s with
  | nil => exact hlisted
  | cons t rest ih => exact ih (hlisted.step t)

/-- **What is true of the graph a session on a configuration starts on, and what
every edit keeps true of graphs,** is true of the graph every run leaves. -/
theorem graph_run_of_edit {P : Value → Prop}
    (hedit : ∀ (document : Value) (t : Step) (g : Graph), P document →
      t.edit? document = some (.ok (.rebuilt g)) → P g.toValue)
    {settings : Settings} {config : Value} {first : Session}
    (hfirst : ofConfig settings config = .ok first) (hstart : P first.graph) (steps : List Step) :
    P (first.run steps).graph := by
  refine forall_graphs_run hedit (fun document hmem => ?_) steps _ List.mem_cons_self
  rw [(fresh_of_ofConfig hfirst).1] at hmem
  rwa [List.mem_singleton.mp hmem]

/-- **Every run of a session on a configuration leaves a graph of objects.** -/
theorem graph_run {settings : Settings} {config : Value} {first : Session}
    (hfirst : ofConfig settings config = .ok first) (steps : List Step) :
    ∃ nodes edges, (first.run steps).graph = (Graph.ofObjects nodes edges).toValue := by
  refine graph_run_of_edit
    (P := fun document => ∃ nodes edges, document = (Graph.ofObjects nodes edges).toValue)
    (fun document t g hdocument hedit => ?_) hfirst (graph_ofConfig hfirst) steps
  obtain ⟨nodes, edges, rfl⟩ := hdocument
  obtain ⟨nodes', edges', hstates, _⟩ := retains_edit (statesLists_toValue nodes edges) hedit
  exact ⟨nodes', edges', congrArg Graph.toValue hstates.eq_ofObjects⟩

end Session

end CallFlow
