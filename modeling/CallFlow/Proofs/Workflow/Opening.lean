import CallFlow.Workflow
import CallFlow.Proofs.Config.Places
import CallFlow.Proofs.Config.Unnoticed
import CallFlow.Proofs.Validation.Check

/-!
# What opening a configuration shows

A configuration that is opened is shown as the graph that was loaded, with
the edges as they were loaded. Its nodes may have been moved by a layout,
and their lists may have been copied anew; nothing else in them is another
(`openWorkflow_eq_ok`). So what is wrong with the graph is what is wrong with
the one that was loaded, and it is saved as that one, at least where places
are not kept. A property that values have part by part is kept as well, if
every fraction has it (`Value.Hereditary.openWorkflow`).
-/

namespace CallFlow

/-- **Whether a node is another as it is shown**: with a list of its own
and, after a layout, at a place of its own. -/
def ShownAs (arranged : Bool) (node node' : Fields) : Prop :=
  ∃ moved, (moved = node ∨ arranged = true ∧ ∃ place, moved = moveTo node place)
    ∧ Relisted moved node'

namespace ShownAs

variable {arranged : Bool} {node node' : Fields} (h : ShownAs arranged node node')

include h

theorem idOf_eq : idOf node' = idOf node := by
  obtain ⟨moved, hmoved, hrel⟩ := h
  rw [hrel.idOf_eq]
  rcases hmoved with rfl | ⟨_, place, rfl⟩
  · rfl
  · rw [idOf, get_moveTo node place (by decide), idOf]

/-- **A node that is shown is checked as it was.** -/
theorem checkedAs : CheckedAs node node' := by
  refine ⟨h.idOf_eq, fun {key} hkey => ?_⟩
  obtain ⟨moved, hmoved, hrel⟩ := h
  rw [hrel.checkedAs.get_dataOf hkey]
  rcases hmoved with rfl | ⟨_, place, rfl⟩
  · rfl
  · rw [dataOf, get_moveTo node place (by decide)]

/-- **A node that is shown is saved as it was**, unless it was moved and
places are kept. -/
theorem saveNode_eq {keepPositions : Bool} (hkeep : arranged = true → keepPositions = false)
    (edges : List Fields) :
    saveNode edges keepPositions node' = saveNode edges keepPositions node := by
  obtain ⟨moved, hmoved, hrel⟩ := h
  rw [hrel.saveNode_eq]
  rcases hmoved with rfl | ⟨harranged, place, rfl⟩
  · rfl
  · rw [hkeep harranged, saveNode_moveTo]

end ShownAs

/-- **What opening a configuration does**: the nodes that were loaded may be moved,
and are brought into agreement with the edges as they were loaded. -/
theorem exists_moved_of_openWorkflow {settings : Settings} {config : Value} {arranged : Bool}
    {direction : Value} {placed : Option Value} {search : Rank.Search} {graph : Value}
    (h : openWorkflow settings config arranged direction placed search = .ok graph) :
    ∃ raws nodes moved nodes', sectionNodes config = .ok raws
      ∧ loadGraph settings config = .ok (Graph.ofObjects nodes (loadEdges raws (some [])))
      ∧ List.Forall₂ LoadedAs raws nodes
      ∧ List.Forall₂ (fun node node' => node' = node ∨ arranged = true ∧ MovedTo node node')
        nodes moved
      ∧ List.Forall₂ (SyncedTo (loadEdges raws (some [])) none) moved nodes'
      ∧ graph = (Graph.ofObjects nodes' (loadEdges raws (some []))).toValue := by
  obtain ⟨g, hload, h⟩ := Outcome.bind_eq_ok.mp h
  obtain ⟨raws, nodes, hraws, rfl, hall⟩ := loadGraph_eq_ok hload
  obtain ⟨moved, hmoved, h⟩ : ∃ moved,
      List.Forall₂ (fun node node' => node' = node ∨ arranged = true ∧ MovedTo node node') nodes moved
      ∧ (do
          let synced ← sync (Graph.ofObjects moved (loadEdges raws (some []))).toValue none
          return synced.revision.apply (Graph.ofObjects moved (loadEdges raws (some []))).toValue)
        = (.ok graph : Outcome Value) := by
    dsimp only at h
    split at h
    next harranged =>
      obtain ⟨g', harrange, h⟩ := Outcome.bind_eq_ok.mp h
      obtain ⟨moved, rfl, hmoved⟩ := arrange_eq_ok harrange
      exact ⟨moved, hmoved.imp fun _ _ hnode => .inr ⟨harranged, hnode⟩, h⟩
    next => exact ⟨nodes, List.forall₂_same.mpr fun node _ => .inl rfl, h⟩
  obtain ⟨synced, hsync, h⟩ := Outcome.bind_eq_ok.mp h
  obtain rfl := Except.ok.inj h
  obtain ⟨nodes', happly, hsynced⟩ := syncedTo_sync hsync
  exact ⟨raws, nodes, moved, nodes', hraws, hload, hall, hmoved, hsynced, happly⟩

/-- **What opening a configuration shows**: the nodes that were loaded, and
the edges as they were loaded. -/
theorem openWorkflow_eq_ok {settings : Settings} {config : Value} {arranged : Bool}
    {direction : Value} {placed : Option Value} {search : Rank.Search} {graph : Value}
    (h : openWorkflow settings config arranged direction placed search = .ok graph) :
    ∃ raws nodes nodes', sectionNodes config = .ok raws
      ∧ loadGraph settings config = .ok (Graph.ofObjects nodes (loadEdges raws (some [])))
      ∧ List.Forall₂ LoadedAs raws nodes
      ∧ graph = (Graph.ofObjects nodes' (loadEdges raws (some []))).toValue
      ∧ List.Forall₂ (ShownAs arranged) nodes nodes' := by
  obtain ⟨raws, nodes, moved, nodes', hraws, hload, hall, hmoved, hsynced, rfl⟩ :=
    exists_moved_of_openWorkflow h
  refine ⟨raws, nodes, nodes', hraws, hload, hall, rfl, (forall₂_comp hmoved hsynced).imp ?_⟩
  rintro node node' ⟨mid, _, hmid, hnode'⟩
  refine ⟨mid, ?_, hnode'.relisted⟩
  rcases hmid with rfl | ⟨_, rfl | ⟨p, rfl⟩⟩
  · exact .inl rfl
  · exact .inl rfl
  · exact .inr ⟨‹_›, _, rfl⟩

/-! ## Properties that values have part by part -/

namespace Value.Hereditary

variable {apart : Prop} {P : Value → Prop} (hP : Hereditary apart P)

include hP

theorem toItem {t : Transition} (h : P t.priority) : P t.toItem :=
  hP.obj_cons.mpr ⟨hP.str _, hP.obj_cons.mpr ⟨hP.str _, hP.obj_cons.mpr ⟨h, hP.obj_nil⟩⟩⟩

/-- An edge that is loaded has what its priority has. -/
theorem mem_loadEdges {raws : List Fields} (hraws : ∀ raw ∈ raws, P (.obj raw))
    (taken : Option (List String)) {edge : Fields} (h : edge ∈ loadEdges raws taken) :
    P (.obj edge) := by
  have hpriority := hP.priority_of_mem_loadEdges hraws taken h
  obtain ⟨raw, hraw, id, item, hitem, rfl⟩ := exists_toEdge_of_mem_loadEdges raws taken h
  rw [(Transition.settled_ofItem item).ofEdge_toEdge] at hpriority
  exact hP.obj_cons.mpr ⟨hP.str _, hP.obj_cons.mpr ⟨hP.str _, hP.obj_cons.mpr ⟨hP.str _,
    hP.obj_cons.mpr ⟨hP.str _, hP.obj_cons.mpr ⟨hP.obj_cons.mpr ⟨hP.str _, hP.obj_cons.mpr
      ⟨hpriority, hP.obj_nil⟩⟩, hP.obj_nil⟩⟩⟩⟩⟩

/-- **A node that is brought into agreement has what it had and the edges have.** -/
theorem syncedTo {edges : List Fields} {node node' : Fields} (hnode : P (.obj node))
    (hedges : ∀ edge ∈ edges, P (.obj edge)) (h : SyncedTo edges none node node') :
    P (.obj node') := by
  obtain ⟨updated, hsynced⟩ := h
  rw [syncInScope, inScope, if_pos rfl] at hsynced
  rcases syncNode_eq_ok hsynced with ⟨_, rfl, _⟩ | ⟨_, rfl, _⟩
  · exact hnode
  · refine hP.put hnode rfl (hP.put (hP.fieldsOrNone (hP.get hnode "data")) rfl
      (hP.list.mpr fun item hitem => ?_))
    obtain ⟨t, ht, rfl⟩ := List.mem_map.mp hitem
    obtain ⟨edge, hedge, rfl⟩ := List.mem_map.mp ht
    exact hP.toItem (hP.priority_ofEdge (hedges edge (List.mem_of_mem_filter hedge)))

/-- A graph of objects has it just if they do. -/
theorem ofObjects {nodes edges : List Fields} : P (Graph.ofObjects nodes edges).toValue
    ↔ (∀ node ∈ nodes, P (.obj node)) ∧ ∀ edge ∈ edges, P (.obj edge) := by
  have hlist : ∀ fs : List Fields,
      P (.list (fs.map Value.obj)) ↔ ∀ fields ∈ fs, P (.obj fields) := fun fs =>
    hP.list.trans List.forall_mem_map
  show P (.obj [("nodes", .list (nodes.map Value.obj)), ("edges", .list (edges.map Value.obj))]) ↔ _
  rw [hP.obj_cons, hP.obj_cons, hlist, hlist]
  exact and_congr_right fun _ => and_iff_left hP.obj_nil

/-- **What opening a configuration shows has what the configuration and the settings
have**, if every fraction has it. -/
theorem openWorkflow (hfloat : ∀ x, P (.float x)) {settings : Settings} {config : Value}
    {arranged : Bool} {direction : Value} {placed : Option Value} {search : Rank.Search}
    {graph : Value} (hconfig : P config) (hsettings : P settings.toValue)
    (h : openWorkflow settings config arranged direction placed search = .ok graph) : P graph := by
  obtain ⟨raws, nodes, moved, nodes', hraws, hload, _, hmoved, hsynced, rfl⟩ :=
    exists_moved_of_openWorkflow h
  have hraw := hP.sectionNodes hconfig hraws
  have hedges : ∀ edge ∈ loadEdges raws (some []), P (.obj edge) :=
    fun edge hedge => hP.mem_loadEdges hraw _ hedge
  have hnodes : ∀ node ∈ nodes, P (.obj node) := by
    obtain ⟨raws', hraws', hload⟩ := Outcome.bind_eq_ok.mp hload
    obtain ⟨values, hvalues, hgraph⟩ := Outcome.bind_eq_ok.mp hload
    obtain rfl : values = nodes.map Value.obj := congrArg Graph.nodes (Except.ok.inj hgraph)
    exact fun node hnode => hP.loadNodes hfloat hsettings (hP.sectionNodes hconfig hraws') hvalues _
      (List.mem_map_of_mem hnode)
  refine hP.ofObjects.mpr ⟨fun node hnode => ?_, hedges⟩
  obtain ⟨mid, hmid, hnode⟩ := exists_of_mem_right hsynced hnode
  obtain ⟨first, hfirst, hmid⟩ := exists_of_mem_right hmoved hmid
  refine hP.syncedTo ?_ hedges hnode
  rcases hmid with rfl | ⟨_, rfl | ⟨p, rfl⟩⟩
  · exact hnodes mid hfirst
  · exact hnodes mid hfirst
  · exact hP.put (hnodes first hfirst) rfl (hP.obj_cons.mpr ⟨hfloat _,
      hP.obj_cons.mpr ⟨hfloat _, hP.obj_nil⟩⟩)

end Value.Hereditary

end CallFlow
