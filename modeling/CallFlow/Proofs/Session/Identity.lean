import CallFlow.Proofs.Session.Agreement
import CallFlow.Proofs.Session.Edits

/-!
# What a node is, and how it is drawn

The id of a node stands in two places, with the node and in its data, and of what
kind it is shows in two, in its data and in the box that draws it. Data may be
changed at will, and nodes are built anew by most edits. Still neither id of a node
ever changes, and the box is always that of the kind (`identity_run`): changes of the
data pass over the id, and where they state a kind the node is drawn again. All
other edits build a node anew by giving it another list, which neither the ids nor
the kind have a part in (`staysItself_of_relisted`).

So the ids of the nodes, in their order, are known after a step from what they were
before, without a look at the edges (`Step.idsAfter`).
-/

namespace CallFlow

/-- The ids of a node: the one it has, and the one its data state. -/
def idsOf (node : Fields) : Option Value × Option Value :=
  (Fields.get? node "id", Fields.get? (dataOf node) "id")

/-- Whether a node is drawn by the box of the kind that its data state. -/
def IsDrawn (node : Fields) : Prop :=
  Fields.get node "type" = .str (boxOf (Fields.get (dataOf node) "type"))

/-! ## Nodes that are built anew -/

/-- **Whether a node stays what it is**: it keeps its ids, and it is drawn by the box
of its kind if it was before. -/
structure StaysItself (node node' : Fields) : Prop where
  /-- The ids are what they were. -/
  ids : idsOf node' = idsOf node
  /-- The box is that of the kind. -/
  drawn : IsDrawn node → IsDrawn node'

namespace StaysItself

theorem refl (node : Fields) : StaysItself node node := ⟨rfl, id⟩

theorem trans {node node₁ node₂ : Fields} (h : StaysItself node node₁)
    (h' : StaysItself node₁ node₂) : StaysItself node node₂ :=
  ⟨h'.ids.trans h.ids, h'.drawn ∘ h.drawn⟩

end StaysItself

/-- **A node with another list stays what it is.** -/
theorem staysItself_of_relisted {node node' : Fields} (h : Relisted node node') :
    StaysItself node node' := by
  rcases h with rfl | ⟨items, rfl⟩
  · exact .refl _
  · refine ⟨?_, fun hdrawn => ?_⟩
    · rw [idsOf, dataOf_withTransitions, withTransitions, Fields.get?_put_of_ne _ _ (by simp),
        Fields.get?_put_of_ne _ _ (by simp), idsOf]
    · rw [IsDrawn, dataOf_withTransitions, Fields.get_put_of_ne _ _ (by simp), withTransitions,
        Fields.get_put_of_ne _ _ (by simp)]
      exact hdrawn

/-- **A node stays what it is where changes are laid over its data** that do not say
the id. -/
theorem staysItself_of_changeNode {node node' changes : Fields}
    (hid : Fields.get? changes "id" = none) (h : changeNode node changes = .ok node') :
    StaysItself node node' := by
  have hdata : dataOf node' = Fields.overlay (dataOf node) changes := (changeNode_spec h).2
  refine ⟨?_, fun hdrawn => ?_⟩
  · rw [idsOf, hdata, Fields.get?_overlay_of_none hid, get?_of_changeNode h, if_neg (by simp),
      if_neg (by simp), idsOf]
  · rw [IsDrawn, hdata, Fields.get, get?_of_changeNode h, if_neg (by simp)]
    by_cases hkind : Fields.has changes "type" = true
    · rw [if_pos ⟨rfl, hkind⟩, Option.getD_some]
    · have hnone : Fields.get? changes "type" = none := by
        simpa [Fields.has] using hkind
      rw [if_neg fun h => hkind h.2, get_overlay_of_none hnone]
      exact hdrawn

theorem ChangedTo.staysItself {id : Value} {stated node node' : Fields}
    (h : ChangedTo id (plainChanges stated) node node') : StaysItself node node' := by
  unfold ChangedTo at h
  split at h
  · refine staysItself_of_changeNode ?_ h
    rw [plainChanges, Fields.get?_erase, if_neg (by simp), Fields.get?_erase, if_pos (by simp)]
  · exact h ▸ .refl node

theorem LoadedAs.isDrawn {raw node : Fields} (h : LoadedAs raw node) : IsDrawn node := by
  rw [IsDrawn, h.get_type, h.dataOf_eq, Fields.get_put_self]

section NewNode

variable (id kind : Value) (place : Fields)

theorem idsOf_newNode : idsOf (newNode id kind place) = (some id, some id) := by
  rw [idsOf, dataOf_newNode, get?_id_templateFor]
  rfl

theorem isDrawn_newNode : IsDrawn (newNode id kind place) := by
  rw [IsDrawn, dataOf_newNode]
  simp [newNode, Fields.get, Fields.get?]

end NewNode

/-! ## Edits -/

section Edits

variable {document : Value} {nodes nodes₁ edges edges' : List Fields} {revision : Revision}

/-- **Where a scope is brought into agreement** every node stays what it was before
the edit if it was so until then. -/
theorem Revision.Resyncs.staysItself {scope : List String}
    (h : revision.Resyncs document nodes₁ edges' scope)
    (hnodes : List.Forall₂ StaysItself nodes nodes₁) :
    ∃ nodes', revision.ComesTo document nodes' edges'
      ∧ List.Forall₂ StaysItself nodes nodes' := by
  obtain ⟨nodes', hcomes, hall⟩ := h
  refine ⟨nodes', hcomes, (forall₂_comp hnodes hall).imp ?_⟩
  rintro node node' ⟨node₁, _, hstays, hsynced⟩
  exact hstays.trans (staysItself_of_relisted hsynced.relisted)

theorem forall₂_staysItself_listedAs (name : String) (items : List Value)
    (h : List.Forall₂ StaysItself nodes nodes₁) :
    List.Forall₂ StaysItself nodes (nodes₁.map (listedAs name items)) :=
  List.forall₂_map_right_iff.mpr <| h.imp fun _ node₁ hstays =>
    hstays.trans (staysItself_of_relisted (relisted_listedAs name items node₁))

end Edits

/-- **The ids of the nodes after a step**, made in a graph document with those nodes,
if it does not go back to another one. A node that is added comes behind the others
with the id that is answered, and all nodes of an id are removed; a step that meets a
fault does neither. -/
def Step.idsAfter (document : Value) (nodes : List Fields) :
    Step → List (Option Value × Option Value)
  | .addNode kind position given draw =>
    match CallFlow.addNode document kind position given draw with
    | .ok (_, id) => nodes.map idsOf ++ [(some id, some id)]
    | .error _ => nodes.map idsOf
  | .deleteNode id =>
    match CallFlow.deleteNode document id with
    | .ok _ => (nodes.filter fun n => Value.str (idOf n) ≠ id).map idsOf
    | .error _ => nodes.map idsOf
  | _ => nodes.map idsOf

section Steps

variable {document : Value} {nodes edges : List Fields} {t : Step}

/-- An edit that meets a fault leaves the ids. -/
theorem Step.idsAfter_of_error {fault : Fault} (h : t.edit? document = some (.error fault)) :
    t.idsAfter document nodes = nodes.map idsOf := by
  cases t with
  | addNode kind position given draw =>
    rw [idsAfter]
    cases hadd : CallFlow.addNode document kind position given draw with
    | error => rfl
    | ok added =>
      rw [edit?, hadd] at h
      cases h
  | deleteNode id => rw [idsAfter, Option.some.inj h]
  | _ => rfl

/-- **What becomes of the nodes by an edit**: those that it does not remove stay what
they are, and one that it adds has its ids and its box. -/
theorem ids_of_edit (hg : Holds document nodes edges) {revision : Revision}
    (h : t.edit? document = some (.ok revision)) :
    ∃ nodes' edges', revision.ComesTo document nodes' edges'
      ∧ nodes'.map idsOf = t.idsAfter document nodes
      ∧ ((∀ node ∈ nodes, IsDrawn node) → ∀ node' ∈ nodes', IsDrawn node') := by
  have hsame : ∀ xs : List Fields, List.Forall₂ StaysItself xs xs :=
    fun xs => List.forall₂_same.mpr fun node _ => .refl node
  -- it is enough to know which nodes there are once one was removed or added
  suffices ∃ nodes₁ nodes' edges', revision.ComesTo document nodes' edges'
      ∧ List.Forall₂ StaysItself nodes₁ nodes' ∧ nodes₁.map idsOf = t.idsAfter document nodes
      ∧ ((∀ node ∈ nodes, IsDrawn node) → ∀ node ∈ nodes₁, IsDrawn node) by
    obtain ⟨nodes₁, nodes', edges', hcomes, hall, hids, hdrawn⟩ := this
    refine ⟨nodes', edges', hcomes, ?_, fun hbefore node' hnode' => ?_⟩
    · rw [map_eq_map_of_forall₂ (hall.imp fun _ _ hstays => hstays.ids), hids]
    · obtain ⟨node₁, hnode₁, hstays⟩ := exists_of_mem_right hall hnode'
      exact hstays.drawn (hdrawn hbefore node₁ hnode₁)
  cases t with
  | connect =>
    obtain ⟨_, hcomes⟩ | ⟨_, _, _, _, _, hresyncs⟩ := connectNodes_resyncs hg (Option.some.inj h)
    · exact ⟨nodes, nodes, _, hcomes, hsame nodes, rfl, id⟩
    · obtain ⟨nodes', hcomes, hall⟩ := hresyncs.staysItself (hsame nodes)
      exact ⟨nodes, nodes', _, hcomes, hall, rfl, id⟩
  | deleteEdge =>
    obtain ⟨_, _, hresyncs⟩ := removeEdges_resyncs hg (Option.some.inj h)
    obtain ⟨nodes', hcomes, hall⟩ := hresyncs.staysItself (hsame nodes)
    exact ⟨nodes, nodes', _, hcomes, hall, rfl, id⟩
  | relabelEdge =>
    obtain ⟨_, _, hresyncs⟩ := updateEdge_resyncs hg (Option.some.inj h)
    obtain ⟨nodes', hcomes, hall⟩ := hresyncs.staysItself (hsame nodes)
    exact ⟨nodes, nodes', _, hcomes, hall, rfl, id⟩
  | updateNode =>
    obtain ⟨_, _, ⟨_, hcomes⟩ | ⟨name, nodes₁, _, _, hchanged, hrest⟩⟩ :=
      updateNodeData_resyncs hg (Option.some.inj h)
    · exact ⟨nodes, nodes, _, hcomes, hsame nodes, rfl, id⟩
    · have hstays := hchanged.imp fun _ _ hto => hto.staysItself
      obtain ⟨_, hcomes⟩ | ⟨_, elements, _, _, hresyncs⟩ := hrest
      · exact ⟨nodes, nodes₁, _, hcomes, hstays, rfl, id⟩
      · obtain ⟨nodes', hcomes, hall⟩ :=
          hresyncs.staysItself (forall₂_staysItself_listedAs name _ hstays)
        exact ⟨nodes, nodes', _, hcomes, hall, rfl, id⟩
  | setTransitions =>
    obtain ⟨_, hcomes⟩ | ⟨name, elements, _, _, _, hresyncs⟩ :=
      replaceTransitions_resyncs hg (Option.some.inj h)
    · exact ⟨nodes, nodes, _, hcomes, hsame nodes, rfl, id⟩
    · obtain ⟨nodes', hcomes, hall⟩ :=
        hresyncs.staysItself (forall₂_staysItself_listedAs name _ (hsame nodes))
      exact ⟨nodes, nodes', _, hcomes, hall, rfl, id⟩
  | addNode kind position given draw =>
    obtain ⟨⟨revision', id⟩, hadd, rfl⟩ := Outcome.map_eq_ok.mp (Option.some.inj h)
    have hids : (Step.addNode kind position given draw).idsAfter document nodes
        = nodes.map idsOf ++ [(some id, some id)] := by rw [Step.idsAfter, hadd]
    rw [addNode_eq hg] at hadd
    obtain ⟨_, _, hadd⟩ := Outcome.bind_eq_ok.mp hadd
    obtain ⟨place, _, hadd⟩ := Outcome.bind_eq_ok.mp hadd
    obtain ⟨rfl, rfl⟩ := Prod.mk.inj (Except.ok.inj hadd)
    refine ⟨_, _, _, .rebuilt, hsame _, ?_, fun hbefore node hnode => ?_⟩
    · rw [hids, List.map_append, List.map_singleton, idsOf_newNode]
    · rcases List.mem_append.mp hnode with hold | hnew
      · exact hbefore node hold
      · rw [List.mem_singleton.mp hnew]
        exact isDrawn_newNode _ _ _
  | deleteNode id =>
    obtain ⟨nodes', hcomes, hall⟩ :=
      (deleteNode_resyncs hg (Option.some.inj h)).staysItself (hsame _)
    refine ⟨_, nodes', _, hcomes, hall, ?_, fun hbefore node hnode =>
      hbefore node (List.mem_of_mem_filter hnode)⟩
    rw [Step.idsAfter, Option.some.inj h]
  | _ => cases h

end Steps

namespace Session

/-! ## Runs -/

/-- A session on a configuration starts with every node drawn by the box of its
kind. -/
theorem isDrawn_ofConfig {settings : Settings} {config : Value} {s : Session}
    (h : ofConfig settings config = .ok s) :
    ∃ nodes edges, s.graph = (Graph.ofObjects nodes edges).toValue
      ∧ ∀ node ∈ nodes, IsDrawn node := by
  obtain ⟨raws, loaded, nodes, edges, hloaded, hsynced, hgraph⟩ := loadedAs_ofConfig h
  refine ⟨nodes, edges, hgraph, fun node hnode => ?_⟩
  obtain ⟨node₀, hnode₀, hsync⟩ := exists_of_mem_right hsynced hnode
  obtain ⟨raw, _, hload⟩ := exists_of_mem_right hloaded hnode₀
  exact (staysItself_of_relisted hsync.relisted).drawn hload.isDrawn

/-- So it is with every graph that a run leaves. -/
theorem isDrawn_run {settings : Settings} {config : Value} {first : Session}
    (hfirst : ofConfig settings config = .ok first) (steps : List Step) :
    ∃ nodes edges, (first.run steps).graph = (Graph.ofObjects nodes edges).toValue
      ∧ ∀ node ∈ nodes, IsDrawn node := by
  refine graph_run_of_edit
    (P := fun document => ∃ nodes edges, document = (Graph.ofObjects nodes edges).toValue
      ∧ ∀ node ∈ nodes, IsDrawn node)
    (fun document t g hdocument hedit => ?_) hfirst (isDrawn_ofConfig hfirst) steps
  obtain ⟨nodes, edges, rfl, hdrawn⟩ := hdocument
  obtain ⟨nodes', edges', hcomes, _, hkept⟩ := ids_of_edit (holds_toValue nodes edges) hedit
  exact ⟨nodes', edges', hcomes.apply_eq, hkept hdrawn⟩

/-- **What a node is, and how it is drawn, is stable.** In every graph that a run of a
session on a configuration leaves, each node is drawn by the box of the kind that its
data state. And a step, unless it goes back to another graph, changes the ids of the
nodes only by adding one or by removing those of an id. -/
theorem identity_run {settings : Settings} {config : Value} {first : Session}
    (hfirst : ofConfig settings config = .ok first) (steps : List Step) :
    ∃ nodes edges, (first.run steps).graph = (Graph.ofObjects nodes edges).toValue
      ∧ (∀ node ∈ nodes, IsDrawn node)
      ∧ ∀ t, t ≠ .undo → ∃ nodes' edges',
        ((first.run steps).step t).1.graph = (Graph.ofObjects nodes' edges').toValue
        ∧ nodes'.map idsOf = t.idsAfter (first.run steps).graph nodes := by
  obtain ⟨nodes, edges, hgraph, hdrawn⟩ := isDrawn_run hfirst steps
  refine ⟨nodes, edges, hgraph, hdrawn, fun t hundo => ?_⟩
  cases (first.run steps).comesTo t with
  | selectNode | selectEdge | clearSelection | save => exact ⟨nodes, edges, hgraph, rfl⟩
  | rejected hedit hstep =>
    exact ⟨nodes, edges, by rw [hstep, hgraph], (Step.idsAfter_of_error hedit).symm⟩
  | @edited _ revision hedit =>
    obtain ⟨nodes', edges', hcomes, hids, _⟩ :=
      ids_of_edit (hgraph ▸ holds_toValue nodes edges) hedit
    refine ⟨nodes', edges', ?_, hids⟩
    rw [(sameGraphs_step_of_edit hedit).1, graph_commit]
    rw [hgraph] at hcomes ⊢
    exact hcomes.apply_eq
  | idle | returned => exact absurd rfl hundo

/-- A node is told to be another one, and of another kind. -/
theorem identity_run_loop :
    ∃ first nodes edges nodes' edges', ofConfig .default (loopConfig (.int 1)) = .ok first
      ∧ first.graph = (Graph.ofObjects nodes edges).toValue
      ∧ (first.step (.updateNode (.str "a") (.obj [("id", .str "b"), ("type", .list []),
          ("transitions", .list [])]))).1.graph = (Graph.ofObjects nodes' edges').toValue
      ∧ nodes'.map idsOf = nodes.map idsOf := by
  have hfirst : ofConfig .default (loopConfig (.int 1)) = .ok (loopSession (.int 1)) := by
    decide +kernel
  obtain ⟨nodes, edges, hgraph, _, hstep⟩ := identity_run hfirst []
  obtain ⟨nodes', edges', hgraph', hids⟩ := hstep (.updateNode (.str "a") (.obj [("id", .str "b"),
    ("type", .list []), ("transitions", .list [])])) nofun
  exact ⟨_, nodes, edges, nodes', edges', hfirst, hgraph, hgraph', hids⟩

end Session

end CallFlow
