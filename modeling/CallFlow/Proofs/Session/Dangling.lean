import CallFlow.Proofs.Session.Selection
import CallFlow.Proofs.Session.Agreement
import Mathlib.Data.List.Induction

/-!
# What is selected, and whether it is there

Where nothing is selected but what the graph shows at that moment, a node that
is selected is always there: the one step that removes nodes drops what it
removes from the selection, and so does going back to another graph.

For an edge this is so too, with one exception. Replacing the list of a node, in
the panel or with its other data, drops the edges from it and makes new ones,
whose ids need not be the old ones, and then the selection is not seen to. So an
edge that was selected may be lost by that step (`LosesEdge`), and its id
*dangles* until the selection changes (`Dangles`). In no other way can an edge
be selected that is not there (`selection_run`).
-/

namespace CallFlow

/-- Whether an id is null or one of some ids. -/
def Value.isPickFrom (ids : List String) (id : Value) : Bool :=
  id = .null || ids.any fun name => id = .str name

theorem Value.eq_of_isPickFrom {ids : List String} {id : Value} (h : id.isPickFrom ids = true) :
    id = .null ∨ ∃ name ∈ ids, id = .str name := by
  rcases (Bool.or_eq_true _ _).mp h with hnull | hany
  · exact .inl (of_decide_eq_true hnull)
  · obtain ⟨name, hmem, hname⟩ := List.any_eq_true.mp hany
    exact .inr ⟨name, hmem, of_decide_eq_true hname⟩

/-- Whether a step selects nothing but what a graph shows. -/
def Step.picksShown (graph : Value) : Step → Bool
  | .selectNode id => id.isPickFrom (nodeIds graph)
  | .selectEdge id => id.isPickFrom (edgeIds graph)
  | _ => true

theorem Step.selectsNamed_of_picksShown {graph : Value} {t : Step}
    (h : t.picksShown graph = true) : t.selectsNamed = true := by
  cases t with
  | selectNode id | selectEdge id =>
    rcases Value.eq_of_isPickFrom h with rfl | ⟨name, _, rfl⟩ <;> rfl
  | _ => rfl

/-! ## What an edit keeps of what is selected -/

theorem Step.keepsNode_of_spares {graph : Value} {t : Step} {node : Fields}
    (h : t.spares graph (.node (.str (idOf node)))) : t.keepsNode node := by
  cases t with
  | deleteNode id =>
    rintro rfl
    exact h.1 rfl rfl
  | _ => trivial

/-- **An edge whose selection a step spares and that the graph has lost** starts
from the node whose list the step replaces, if the step did not leave it in
place. -/
theorem Step.replacedList?_of_spares {graph : Value} {t : Step} {edge : Fields}
    (h : t.spares graph (.edge (.str (idOf edge)))) (hlost : idOf edge ∉ edgeIds graph)
    (hkept : ¬ t.keepsEdge edge) : t.replacedList? = some (.str (sourceOf edge)) := by
  cases t with
  | deleteEdge id =>
    obtain rfl := not_not.mp hkept
    exact absurd rfl (h rfl)
  | deleteNode id =>
    obtain ⟨name, hmem, hname⟩ := h.2
    obtain rfl := Value.str.inj hname
    exact absurd hmem hlost
  | _ => exact not_not.mp hkept

namespace Session

/-- Whether some steps, one after the other, select nothing but what is
shown. -/
def picksShown (s : Session) : List Step → Bool
  | [] => true
  | t :: rest => t.picksShown s.graph && (s.step t).1.picksShown rest

/-- **A step loses the edge that is selected**: it replaces the list of the node
from which that edge starts, and the graph has no edge with its id any more. -/
def LosesEdge (s : Session) (t : Step) : Prop :=
  ∃ nodes edges, StatesLists s.graph nodes edges ∧ ∃ edge ∈ edges,
    s.selection = .edge (.str (idOf edge))
      ∧ t.replacedList? = some (.str (sourceOf edge))
      ∧ idOf edge ∉ edgeIds (s.step t).1.graph

/-- **The selection of a run dangles**: a step lost the edge that was selected,
and nothing else has been selected since. -/
def Dangles (first : Session) (steps : List Step) : Prop :=
  ∃ before t after, steps = before ++ t :: after ∧ (first.run before).LosesEdge t
    ∧ ∀ done, done <+: after →
      (((first.run before).step t).1.run done).selection = (first.run before).selection

/-! ## Steps -/

/-- **What is selected after a step**: a node that is there, or an edge that is
there, unless it is the edge that was selected before and, if it was there then,
the step lost it. -/
structure KeepsTrack (s : Session) (t : Step) : Prop where
  /-- A node is there. -/
  node : (s.step t).1.selection.NodeAmong (nodeIds (s.step t).1.graph)
  /-- An edge is there, or it was lost. -/
  edge : (s.step t).1.selection.EdgeAmong (edgeIds (s.step t).1.graph)
    ∨ (s.step t).1.selection = s.selection
      ∧ (s.selection.EdgeAmong (edgeIds s.graph) → s.LosesEdge t)

section Steps

variable {s : Session} {t : Step}

theorem keepsTrack_of_none (h : (s.step t).1.selection = .none) : s.KeepsTrack t := by
  refine ⟨?_, .inl ?_⟩ <;> rw [h] <;> trivial

variable (hlisted : s.Listed) (hs : s.selection.isNamed = true)
  (hnode : s.selection.NodeAmong (nodeIds s.graph))

include hnode

theorem keepsTrack_of_eq (h : (s.step t).1 = s) : s.KeepsTrack t := by
  refine ⟨by rw [h]; exact hnode, ?_⟩
  rw [h]
  exact (em _).imp_right fun hnot => ⟨rfl, fun hedge => absurd hedge hnot⟩

include hlisted hs

/-- **An edit keeps track of what is selected.** -/
theorem keepsTrack_of_edit {revision : Revision} (h : t.edit? s.graph = some (.ok revision)) :
    s.KeepsTrack t := by
  obtain ⟨nodes, edges, hstates⟩ := hlisted s.graph List.mem_cons_self
  obtain ⟨nodes', edges', hstates', hnodes, hedges⟩ := retains_edit hstates h
  have hgraph : (s.step t).1.graph = revision.apply s.graph :=
    (sameGraphs_step_of_edit h).1.trans (graph_commit s revision)
  rcases deselects_step_of_edit hs h with hdropped | ⟨hkept, hspares⟩
  · exact keepsTrack_of_none (by rw [hdropped])
  have hselection : (s.step t).1.selection = s.selection := by
    rw [hkept, selection_commit]
  rw [selection_commit] at hspares
  refine ⟨?_, ?_⟩
  · -- a node that stays selected is not the one that was removed
    rw [hselection, hgraph]
    cases hcase : s.selection with
    | node id =>
      rw [hcase] at hnode hspares
      obtain ⟨name, hname, rfl⟩ := hnode
      rw [hstates.nodeIds_eq] at hname
      obtain ⟨node, hmem, rfl⟩ := List.mem_map.mp hname
      exact ⟨idOf node, hstates'.nodeIds_eq ▸ hnodes node hmem (Step.keepsNode_of_spares hspares),
        rfl⟩
    | _ => trivial
  · by_cases hthere : (s.step t).1.selection.EdgeAmong (edgeIds (s.step t).1.graph)
    · exact .inl hthere
    refine .inr ⟨hselection, fun hbefore => ?_⟩
    rw [hselection, hgraph] at hthere
    cases hcase : s.selection with
    | edge id =>
      rw [hcase] at hbefore hthere hspares
      obtain ⟨name, hname, rfl⟩ := hbefore
      rw [hstates.edgeIds_eq] at hname
      obtain ⟨edge, hmem, rfl⟩ := List.mem_map.mp hname
      have hlost : idOf edge ∉ edgeIds (revision.apply s.graph) :=
        fun hin => hthere ⟨idOf edge, hin, rfl⟩
      have hreplaced : ¬ t.keepsEdge edge := fun hkeeps =>
        hlost (hstates'.edgeIds_eq ▸ hedges edge hmem hkeeps)
      exact ⟨nodes, edges, hstates, edge, hmem, hcase,
        Step.replacedList?_of_spares hspares hlost hreplaced, hgraph ▸ hlost⟩
    | _ =>
      rw [hcase] at hthere
      exact absurd trivial hthere

/-- **Every step keeps track of what is selected**, if it selects nothing but
what is shown. -/
theorem keepsTrack_step (ht : t.picksShown s.graph = true) : s.KeepsTrack t := by
  cases s.comesTo t with
  | selectNode id =>
    rcases Value.eq_of_isPickFrom ht with rfl | ⟨name, hname, rfl⟩
    · exact keepsTrack_of_none rfl
    · exact ⟨⟨name, hname, rfl⟩, .inl trivial⟩
  | selectEdge id =>
    rcases Value.eq_of_isPickFrom ht with rfl | ⟨name, hname, rfl⟩
    · exact keepsTrack_of_none rfl
    · exact ⟨trivial, .inl ⟨name, hname, rfl⟩⟩
  | clearSelection => exact keepsTrack_of_none rfl
  | save request => exact keepsTrack_of_eq hnode rfl
  | rejected _ hstep | idle _ hstep => exact keepsTrack_of_eq hnode (by rw [hstep])
  | edited hedit => exact keepsTrack_of_edit hlisted hs hnode hedit
  | returned hhistory =>
    have hundo : (s.step .undo).1 = s.undo.1 := rfl
    rcases (undo_of_isListed hhistory hs (hlisted.isListed_of_history hhistory)).2 with
      hdropped | ⟨hkept, hthere⟩
    · exact keepsTrack_of_none (by rw [hundo, hdropped])
    · exact ⟨by rw [hundo, hkept]; exact hthere.1, .inl (by rw [hundo, hkept]; exact hthere.2)⟩

end Steps

/-! ## Runs -/

theorem picksShown_concat (s : Session) (steps : List Step) (t : Step) :
    s.picksShown (steps ++ [t]) = (s.picksShown steps && t.picksShown (s.run steps).graph) := by
  induction steps generalizing s with
  | nil => simp [picksShown, run]
  | cons t' rest ih =>
    rw [List.cons_append, picksShown, picksShown, ih, Bool.and_assoc]
    rfl

/-- A selection that dangles does so until it changes. -/
theorem Dangles.concat {first : Session} {steps : List Step} {t : Step} (h : first.Dangles steps)
    (hselection : ((first.run steps).step t).1.selection = (first.run steps).selection) :
    first.Dangles (steps ++ [t]) := by
  obtain ⟨before, t', after, rfl, hloses, hunchanged⟩ := h
  refine ⟨before, t', after ++ [t], by simp, hloses, fun done hdone => ?_⟩
  rcases List.prefix_concat_iff.mp hdone with rfl | hdone
  · have hlast := hunchanged after List.prefix_rfl
    rw [run_append, run_cons] at hselection
    rw [run_concat, hselection, hlast]
  · exact hunchanged done hdone

/-- **What is selected is there, or it dangles.** After any run of steps on a
session that was started on a configuration, if null was selected or what the
graph showed at that moment,

* a node or an edge is selected but not both,
* a node that is selected is in the graph, and
* an edge that is selected is in the graph, unless a step replaced the list of
  the node from which it starts, at a time when it was selected, and nothing else
  was selected after that. -/
theorem selection_run {settings : Settings} {config : Value} {first : Session}
    {steps : List Step} (hfirst : ofConfig settings config = .ok first)
    (hsteps : first.picksShown steps = true) :
    ((first.run steps).selection.nodeId = .null ∨ (first.run steps).selection.edgeId = .null)
    ∧ ((first.run steps).selection.nodeId ≠ .null →
      ∃ name ∈ nodeIds (first.run steps).graph,
        (first.run steps).selection.nodeId = .str name)
    ∧ ((first.run steps).selection.edgeId ≠ .null →
      (∃ name ∈ edgeIds (first.run steps).graph,
        (first.run steps).selection.edgeId = .str name)
      ∨ first.Dangles steps) := by
  have hall : (first.run steps).selection.isNamed = true
      ∧ (first.run steps).selection.NodeAmong (nodeIds (first.run steps).graph)
      ∧ ((first.run steps).selection.EdgeAmong (edgeIds (first.run steps).graph)
        ∨ first.Dangles steps) := by
    -- by induction on the run from its end: the last step keeps track
    induction steps using List.reverseRecOn with
    | nil =>
      have hnone : (first.run []).selection = .none := (fresh_of_ofConfig hfirst).2
      rw [hnone]
      exact ⟨rfl, trivial, .inl trivial⟩
    | append_singleton steps t ih =>
      rw [picksShown_concat, Bool.and_eq_true] at hsteps
      obtain ⟨hnamed, hnode, hedge⟩ := ih hsteps.1
      have hlisted := (listed_ofConfig hfirst).run steps
      have htrack := keepsTrack_step hlisted hnamed hnode hsteps.2
      rw [run_concat]
      refine ⟨isNamed_step hnamed hlisted (Step.selectsNamed_of_picksShown hsteps.2), htrack.node,
        htrack.edge.imp_right fun ⟨hselection, hlost⟩ => ?_⟩
      rcases hedge with hedge | hdangles
      · refine ⟨steps, t, [], rfl, hlost hedge, fun done hdone => ?_⟩
        obtain rfl := List.prefix_nil.mp hdone
        exact hselection
      · exact hdangles.concat hselection
  obtain ⟨_, hnode, hedge⟩ := hall
  cases hselection : (first.run steps).selection with
  | none => exact ⟨.inl rfl, fun h => absurd rfl h, fun h => absurd rfl h⟩
  | node id =>
    rw [hselection] at hnode
    exact ⟨.inr rfl, fun _ => hnode, fun h => absurd rfl h⟩
  | edge id =>
    rw [hselection] at hedge
    exact ⟨.inl rfl, fun h => absurd rfl h, fun _ => hedge⟩

/-- An edge that is selected on a workflow of one node, while another one is
drawn. -/
theorem selection_run_loop :
    ∃ first, ofConfig .default (loopConfig (.int 1)) = .ok first
      ∧ (first.run [.selectEdge (.str "a-a-0"),
          .connect (.str "a") (.str "b") .null .null]).selection.edgeId ≠ .null
      ∧ ((∃ name ∈ edgeIds (first.run [.selectEdge (.str "a-a-0"),
          .connect (.str "a") (.str "b") .null .null]).graph,
        (first.run [.selectEdge (.str "a-a-0"),
          .connect (.str "a") (.str "b") .null .null]).selection.edgeId = .str name)
        ∨ first.Dangles [.selectEdge (.str "a-a-0"),
          .connect (.str "a") (.str "b") .null .null]) := by
  have hfirst : ofConfig .default (loopConfig (.int 1)) = .ok (loopSession (.int 1)) := by
    decide +kernel
  have hset : ((loopSession (.int 1)).run [.selectEdge (.str "a-a-0"),
      .connect (.str "a") (.str "b") .null .null]).selection.edgeId ≠ .null := by decide +kernel
  exact ⟨_, hfirst, hset, (selection_run hfirst (by decide +kernel)).2.2 hset⟩

/-- **An edge that is selected and no longer there**, since the list of its node
was replaced by an empty one. -/
theorem selection_setTransitions_loop :
    ∃ first, ofConfig .default (loopConfig (.int 1)) = .ok first
      ∧ first.picksShown [.selectEdge (.str "a-a-0"),
          .setTransitions (.str "a") (.list [])] = true
      ∧ (first.run [.selectEdge (.str "a-a-0"),
          .setTransitions (.str "a") (.list [])]).selection.edgeId = .str "a-a-0"
      ∧ edgeIds (first.run [.selectEdge (.str "a-a-0"),
          .setTransitions (.str "a") (.list [])]).graph = [] := by
  refine ⟨loopSession (.int 1), ?_, ?_, ?_, ?_⟩ <;> decide +kernel

end Session

end CallFlow
