import CallFlow.Session
import CallFlow.Proofs.Config.Loading
import CallFlow.Proofs.Config.Saving
import CallFlow.Proofs.Graph.NodeEdits

/-!
# Sessions stay consistent

A session starts on a consistent graph, since loading hands out ids over the
whole section and every node is brought into agreement before anything else
is done. From there on each step leaves the graph consistent, and so it
leaves the graphs that undoing goes back to (`Session.Consistent`): an edit
records the graph before it, which was consistent, and taking an edit back
reaches for one of those.

Of a step little is asked (`Step.admissible`). An edge has to be drawn
between texts, documents handed in may not have a key twice, and a node that
is added may not get an id an edge starts from already – it would find
transitions that its empty list does not have.

What is saved in such a session is what its nodes show
(`Session.agreement_run`).
-/

namespace CallFlow

/-! ## What is asked of a step -/

/-- The ids of the nodes from which the edges of a graph start. -/
def sourcesOf (document : Value) : List String :=
  match edgesOf document with
  | .ok edges => (objectsAmong edges).map sourceOf
  | .error _ => []

/-- **Whether a step may be done in a session.** -/
def Step.admissible (s : Session) : Step → Bool
  | .connect source target _ priority => source.isText && target.isText && priority.wellFormed
  | .relabelEdge _ _ priority => priority.wellFormed
  | .updateNode _ updates => updates.wellFormed
  | .setTransitions _ transitions => transitions.wellFormed
  | .addNode kind position id draw =>
    match CallFlow.addNode s.graph kind position id draw with
    | .ok (_, .str name) => name ∉ sourcesOf s.graph
    | .ok _ => false
    | .error _ => true
  | _ => true

namespace Session

/-- Whether some steps may be done one after the other. -/
def admits (s : Session) : List Step → Bool
  | [] => true
  | t :: rest => t.admissible s && (s.step t).1.admits rest

/-- **The graphs of a session are consistent**: the one it shows and those
it can go back to. -/
def Consistent (s : Session) : Prop := ∀ document ∈ s.graph :: s.history, IsConsistent document

/-! ## The first graph -/

/-- **A session starts consistent** on a graph whose edges are fit for it,
whatever its nodes list. -/
theorem consistent_start {nodes edges : List Fields} {s : Session}
    (hids : (edges.map idOf).Nodup) (hlabelled : ∀ edge ∈ edges, Labelled edge)
    (hpriorities : ∀ edge ∈ edges, (Transition.ofEdge edge).priority.wellFormed = true)
    (hnamed : ∀ node ∈ nodes, savedId node (dataOf node) = idOf node)
    (h : start (Graph.ofObjects nodes edges).toValue = .ok s) : s.Consistent := by
  obtain ⟨synced, hsync, h⟩ := Outcome.bind_eq_ok.mp h
  obtain rfl := Except.ok.inj h
  obtain ⟨nodes', happly, hall⟩ := syncedTo_sync hsync
  intro document hmem
  obtain rfl := List.mem_singleton.mp hmem
  -- every node is in the scope, so nothing is asked of the lists there are
  exact ⟨nodes', edges, happly, .of_relisted hids hlabelled hpriorities hnamed
    (copies_of_syncedTo hpriorities (fun _ _ hscope => by cases hscope) hall)⟩

/-- **A session on a configuration starts consistent.** -/
theorem consistent_ofConfig {settings : Settings} {config : Value} {s : Session}
    (hwf : config.wellFormed = true) (h : ofConfig settings config = .ok s) : s.Consistent := by
  obtain ⟨g, hload, h⟩ := Outcome.bind_eq_ok.mp h
  obtain ⟨raws, nodes, hraws, rfl, hall⟩ := loadGraph_eq_ok hload
  refine consistent_start (nodup_loadEdges raws []).1 ?_ ?_ ?_ h
  · intro edge hedge
    obtain ⟨raw, _, id, item, _, rfl⟩ := exists_toEdge_of_mem_loadEdges raws _ hedge
    exact labelled_toEdge _ _ _
  · intro edge hedge
    exact priority_of_mem_loadEdges (fun raw hraw => Value.fieldsWellFormed_fieldsOrNone
      (wellFormed_of_sectionNodes hwf hraws raw hraw)) _ hedge
  · intro node hnode
    obtain ⟨raw, _, hloaded⟩ := exists_of_mem_right hall hnode
    exact hloaded.savedId_eq

/-! ## Steps -/

/-- Whether two states show one graph and go back to the same ones. -/
def SameGraphs (s s' : Session) : Prop := s'.graph = s.graph ∧ s'.history = s.history

theorem SameGraphs.consistent {s s' : Session} (h : SameGraphs s s') (hc : s.Consistent) :
    s'.Consistent := by
  rw [Consistent, h.1, h.2]
  exact hc

section Selection

variable (s : Session) (ids : List String) (id : Value)

theorem sameGraphs_forgetEdge : SameGraphs s (s.forgetEdge id) := by
  unfold forgetEdge
  split
  · split <;> exact ⟨rfl, rfl⟩
  · exact ⟨rfl, rfl⟩

theorem sameGraphs_forgetNode : SameGraphs s (s.forgetNode id) := by
  unfold forgetNode
  split
  · split <;> exact ⟨rfl, rfl⟩
  · exact ⟨rfl, rfl⟩

theorem sameGraphs_keepEdgeAmong : SameGraphs s (s.keepEdgeAmong ids).1 := by
  unfold keepEdgeAmong
  split
  · split <;> exact ⟨rfl, rfl⟩
  · exact ⟨rfl, rfl⟩

theorem sameGraphs_keepNodeAmong : SameGraphs s (s.keepNodeAmong ids).1 := by
  unfold keepNodeAmong
  split
  · split <;> exact ⟨rfl, rfl⟩
  · exact ⟨rfl, rfl⟩

theorem sameGraphs_dropLostEdge : SameGraphs s s.dropLostEdge.1 := by
  unfold dropLostEdge
  split
  · exact sameGraphs_keepEdgeAmong s _
  · exact ⟨rfl, rfl⟩

theorem sameGraphs_andThen {first : Result} {next : Session → Result}
    (hfirst : SameGraphs s first.1) (hnext : ∀ s', SameGraphs s' (next s').1) :
    SameGraphs s (andThen first next).1 := by
  obtain ⟨s', answer⟩ := first
  cases answer with
  | error fault => exact hfirst
  | ok value => exact ⟨(hnext s').1.trans hfirst.1, (hnext s').2.trans hfirst.2⟩

theorem sameGraphs_dropLost : SameGraphs s s.dropLost.1 := by
  unfold dropLost
  split
  next nodeIds edgeIds _ =>
    exact sameGraphs_andThen s (sameGraphs_keepNodeAmong s nodeIds)
      fun s' => sameGraphs_keepEdgeAmong s' edgeIds
  next => exact ⟨rfl, rfl⟩

end Selection

/-- **Taking over what an edit hands back keeps a session consistent**, if
the edit keeps its graph so. -/
theorem Consistent.commit {s : Session} (hc : s.Consistent) {revision : Revision}
    (h : IsConsistent (revision.apply s.graph)) : (s.commit revision).Consistent := by
  cases revision with
  | kept => exact hc
  | rebuilt g =>
    intro document hmem
    rcases List.mem_cons.mp hmem with rfl | hmem
    · exact h
    · exact hc document hmem

theorem Consistent.edit {s : Session} (hc : s.Consistent) {revision : Outcome Revision}
    (h : ∀ r, revision = .ok r → IsConsistent (r.apply s.graph)) :
    (s.edit revision).1.Consistent := by
  cases revision with
  | error fault => exact hc
  | ok r => exact hc.commit (h r rfl)

theorem Consistent.andThen {first : Result} (hc : first.1.Consistent) {next : Session → Result}
    (hnext : ∀ s, SameGraphs s (next s).1) : (Session.andThen first next).1.Consistent := by
  obtain ⟨s, answer⟩ := first
  cases answer with
  | error fault => exact hc
  | ok value => exact (hnext s).consistent hc

/-- **Taking back an edit keeps a session consistent**: the graph before it
was. -/
theorem Consistent.undo {s : Session} (hc : s.Consistent) : s.undo.1.Consistent := by
  rw [Session.undo]
  cases hhistory : s.history with
  | nil => exact hc
  | cons graph history =>
    have hback : Session.Consistent { s with graph := graph, history := history } := by
      intro document hmem
      exact hc document (List.mem_cons_of_mem _ (hhistory ▸ hmem))
    exact ((sameGraphs_dropLost _).consistent hback).andThen fun s => ⟨rfl, rfl⟩

/-- **Every step keeps a session consistent**, whether or not it meets a
fault. -/
theorem Consistent.step {s : Session} (hc : s.Consistent) {t : Step}
    (ht : t.admissible s = true) : (s.step t).1.Consistent := by
  obtain ⟨nodes, edges, hgraph, hcons⟩ := hc s.graph List.mem_cons_self
  -- one case for each step, and for each edit what it leaves of a consistent graph
  cases t with
  | selectNode id => exact SameGraphs.consistent ⟨rfl, rfl⟩ hc
  | selectEdge id => exact SameGraphs.consistent ⟨rfl, rfl⟩ hc
  | clearSelection => exact SameGraphs.consistent ⟨rfl, rfl⟩ hc
  | connect source target condition priority =>
    rw [Step.admissible, Bool.and_eq_true, Bool.and_eq_true] at ht
    obtain ⟨⟨hsource, htarget⟩, hpriority⟩ := ht
    cases source with
    | str source =>
      cases target with
      | str target =>
        refine hc.edit fun r hr => ?_
        rw [hgraph] at hr ⊢
        exact isConsistent_connectNodes hcons hpriority hr
      | _ => cases htarget
    | _ => cases hsource
  | deleteEdge id =>
    refine (hc.edit fun r hr => ?_).andThen fun s => sameGraphs_forgetEdge s id
    rw [hgraph] at hr ⊢
    exact isConsistent_removeEdges hcons hr
  | relabelEdge id condition priority =>
    refine hc.edit fun r hr => ?_
    rw [hgraph] at hr ⊢
    exact isConsistent_updateEdge hcons ht hr
  | updateNode id updates =>
    refine hc.edit fun r hr => ?_
    rw [hgraph] at hr ⊢
    exact isConsistent_updateNodeData hcons ht hr
  | setTransitions id transitions =>
    refine hc.edit fun r hr => ?_
    rw [hgraph] at hr ⊢
    exact isConsistent_replaceTransitions hcons ht hr
  | addNode kind position id draw =>
    rw [Session.step]
    rw [Step.admissible] at ht
    cases hadd : CallFlow.addNode s.graph kind position id draw with
    | error fault => exact hc
    | ok added =>
      obtain ⟨revision, answer⟩ := added
      rw [hadd] at ht
      refine hc.commit ?_
      cases answer with
      | str name =>
        rw [hgraph] at hadd ⊢
        refine isConsistent_addNode hcons (fun edge hedge heq => ?_) hadd
        have hfree : name ∉ sourcesOf s.graph := of_decide_eq_true ht
        refine hfree ?_
        rw [hgraph, sourcesOf, edgesOf_toValue]
        exact List.mem_map.mpr ⟨edge, by simpa [Graph.ofObjects] using hedge, heq⟩
      | _ => cases ht
  | deleteNode id =>
    refine (hc.edit fun r hr => ?_).andThen fun s => ?_
    · rw [hgraph] at hr ⊢
      exact isConsistent_deleteNode hcons hr
    · have hedge := sameGraphs_dropLostEdge (s.forgetNode id)
      have hnode := sameGraphs_forgetNode s id
      exact ⟨hedge.1.trans hnode.1, hedge.2.trans hnode.2⟩
  | undo => exact hc.undo
  | save request => exact hc

/-- **Every run keeps a session consistent.** -/
theorem Consistent.run {s : Session} (hc : s.Consistent) {steps : List Step}
    (hsteps : s.admits steps = true) : (s.run steps).Consistent := by
  induction steps generalizing s with
  | nil => exact hc
  | cons t rest ih =>
    rw [admits, Bool.and_eq_true] at hsteps
    exact ih (hc.step hsteps.1) hsteps.2

end Session

end CallFlow
