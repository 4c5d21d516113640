import CallFlow.Proofs.Graph.Revisions
import CallFlow.Proofs.Validation.Check

/-!
# Edits that keep a workflow valid

Nothing is wrong with a workflow if it is `Valid`, and an edit that is well
aimed (`WellAimed`) leaves it so: an edge is drawn between nodes that are there,
the items of a list lead to nodes that are there, a node that is removed is
neither the initial one nor the last to end the call, and one that is added
has an id of its own and a kind whose template lacks nothing.

What a rule asks of a node are its id and its data, and of the data everything
but the list of transitions (`CheckedAs`). So bringing nodes into agreement
makes no difference to any rule (`Valid.resyncs`), and every edit is judged by
the nodes and edges it makes before that. The delicate one is the removal of a
node: its edges go with it, those that lead to it as well as those that start
from it, so that no edge is left without an end.
-/

namespace CallFlow

/-! ## Valid before and after -/

section Valid

variable {document initial : Value} {nodes nodes' edges edges' : List Fields}

theorem Holds.problemsOf_eq_nil_iff (hg : Holds document nodes edges) :
    problemsOf document initial = .ok [] ↔ Valid nodes edges initial := by
  rw [problemsOf, hg.nodesOf_eq, hg.edgesOf_eq, Outcome.ok_bind, Outcome.ok_bind,
    objectsAmong_map_obj, objectsAmong_map_obj, problemsAmong_eq_nil_iff]

/-- **Validity depends on what the rules read**, and lasts as long as every edge
leads from a node to a node. -/
theorem Valid.of_checkedAs (hv : Valid nodes edges initial)
    (hnodes : List.Forall₂ CheckedAs nodes nodes')
    (hends : ∀ edge ∈ edges', sourceOf edge ∈ nodes.map idOf ∧ targetOf edge ∈ nodes.map idOf) :
    Valid nodes' edges' initial := by
  have hedges : Valid nodes edges' initial :=
    { hv with
      sources := fun edge hedge => (hends edge hedge).1
      targets := fun edge hedge => (hends edge hedge).2 }
  have hsame : problemsAmong nodes' edges' initial = problemsAmong nodes edges' initial :=
    problemsAmong_congr
      (hnodes.imp fun _ _ h => ⟨h.idOf_eq, h.kindText_eq, h.contentProblems_eq⟩)
      (List.forall₂_same.mpr fun _ _ => ⟨rfl, rfl, rfl⟩) initial
  rw [← problemsAmong_eq_nil_iff, hsame, problemsAmong_eq_nil_iff]
  exact hedges

/-- **Bringing a scope into agreement keeps a workflow valid.** -/
theorem Valid.resyncs (hv : Valid nodes edges initial) {scope : List String}
    {revision : Revision} (h : revision.Resyncs document nodes edges scope) :
    problemsOf (revision.apply document) initial = .ok [] := by
  obtain ⟨nodes', hcomes, hall⟩ := h
  refine hcomes.holds.problemsOf_eq_nil_iff.mpr (hv.of_checkedAs ?_ fun edge hedge => ?_)
  · exact hall.imp fun _ _ hsynced => hsynced.relisted.checkedAs
  · exact ⟨hv.sources edge hedge, hv.targets edge hedge⟩

theorem Valid.comesTo (hv : Valid nodes edges initial) {revision : Revision}
    (h : revision.ComesTo document nodes edges) :
    problemsOf (revision.apply document) initial = .ok [] :=
  h.holds.problemsOf_eq_nil_iff.mpr hv

end Valid

/-! ## Edits that are well aimed -/

/-- **An edit that is well aimed** at a graph with some nodes, for an initial
node. On the canvas only the ends of a new edge matter. -/
inductive WellAimed (document initial : Value) (nodes : List Fields) : Outcome Revision → Prop
  /-- An edge is drawn between two nodes that are there. -/
  | connect {source target : String} (hsource : source ∈ nodes.map idOf)
    (htarget : target ∈ nodes.map idOf) (condition priority : Value) :
    WellAimed document initial nodes
      (connectNodes document (.str source) (.str target) condition priority)
  /-- Any edges are removed. -/
  | remove (ids : Value) : WellAimed document initial nodes (removeEdges document ids)
  /-- The edges of any id are relabelled. -/
  | relabel (id condition priority : Value) :
    WellAimed document initial nodes (updateEdge document id condition priority)
  /-- The list of a node is replaced by one that leads to nodes that are there. -/
  | replace (id : Value) {items : List Value}
    (htargets : ∀ item ∈ objectsAmong items, (Transition.ofItem item).target ∈ nodes.map idOf) :
    WellAimed document initial nodes (replaceTransitions document id (.list items))
  /-- A node is removed that is not the initial one, and another one is left to
  end the call. -/
  | delete {id : String} (hinitial : initial ≠ .str id)
    (hend : ∃ node ∈ nodes, idOf node ≠ id ∧ kindText node = NodeKind.endCall.name) :
    WellAimed document initial nodes (deleteNode document (.str id))
  /-- A node is added with an id of its own and a kind whose template lacks
  nothing. -/
  | add {kind : NodeKind} (hkind : kind ∈ [.standard, .endCall, .apiCall]) (position : Value)
    {id : Value} (hnamed : id.truthy = true) (hunused : id.idText ∉ nodes.map idOf)
    (draw : Draw) :
    WellAimed document initial nodes
      (Prod.fst <$> addNode document (.str kind.name) position id draw)

section WellAimed

variable {document initial : Value} {nodes edges : List Fields} {revision : Revision}

/-- **Drawing an edge between nodes that are there keeps a workflow valid.** -/
theorem problemsOf_connectNodes (hg : Holds document nodes edges)
    (hv : Valid nodes edges initial) {source target : String}
    (hsource : source ∈ nodes.map idOf) (htarget : target ∈ nodes.map idOf)
    {condition priority : Value}
    (h : connectNodes document (.str source) (.str target) condition priority = .ok revision) :
    problemsOf (revision.apply document) initial = .ok [] := by
  obtain ⟨_, hcomes⟩ | ⟨_, scope, id, _, _, hresyncs⟩ := connectNodes_resyncs hg h
  · exact hv.comesTo hcomes
  · refine Valid.resyncs (hv.of_checkedAs (List.forall₂_same.mpr fun node _ => ?_)
      fun edge hedge => ?_) hresyncs
    · exact ⟨rfl, fun _ => rfl⟩
    · rcases List.mem_append.mp hedge with hold | hnew
      · exact ⟨hv.sources edge hold, hv.targets edge hold⟩
      · rw [List.mem_singleton.mp hnew, sourceOf_edgeBetween, targetOf_edgeBetween,
          Value.idText_str, Value.idText_str]
        exact ⟨hsource, htarget⟩

/-- **Removing edges keeps a workflow valid.** -/
theorem problemsOf_removeEdges (hg : Holds document nodes edges)
    (hv : Valid nodes edges initial) {ids : Value}
    (h : removeEdges document ids = .ok revision) :
    problemsOf (revision.apply document) initial = .ok [] := by
  obtain ⟨doomed, _, hresyncs⟩ := removeEdges_resyncs hg h
  refine Valid.resyncs (hv.of_checkedAs (List.forall₂_same.mpr fun node _ => ⟨rfl, fun _ => rfl⟩)
    fun edge hedge => ?_) hresyncs
  have hold := List.mem_of_mem_filter hedge
  exact ⟨hv.sources edge hold, hv.targets edge hold⟩

/-- **Relabelling edges keeps a workflow valid**: they keep their ends. -/
theorem problemsOf_updateEdge (hg : Holds document nodes edges)
    (hv : Valid nodes edges initial) {id condition priority : Value}
    (h : updateEdge document id condition priority = .ok revision) :
    problemsOf (revision.apply document) initial = .ok [] := by
  obtain ⟨edges', hall, hresyncs⟩ := updateEdge_resyncs hg h
  refine Valid.resyncs (hv.of_checkedAs (List.forall₂_same.mpr fun node _ => ⟨rfl, fun _ => rfl⟩)
    fun edge' hedge' => ?_) hresyncs
  obtain ⟨edge, hedge, hto⟩ := exists_of_mem_right hall hedge'
  rw [hto.sourceOf_eq, targetOf, hto.get_eq (by decide) (by decide)]
  exact ⟨hv.sources edge hedge, hv.targets edge hedge⟩

/-- **Replacing the list of a node keeps a workflow valid** where the items lead
to nodes that are there. -/
theorem problemsOf_replaceTransitions (hg : Holds document nodes edges)
    (hv : Valid nodes edges initial) {id : Value} {items : List Value}
    (htargets : ∀ item ∈ objectsAmong items, (Transition.ofItem item).target ∈ nodes.map idOf)
    (h : replaceTransitions document id (.list items) = .ok revision) :
    problemsOf (revision.apply document) initial = .ok [] := by
  obtain ⟨_, hcomes⟩ | ⟨name, elements, rfl, hname, helements, hresyncs⟩ :=
    replaceTransitions_resyncs hg h
  · exact hv.comesTo hcomes
  · obtain rfl := Except.ok.inj helements
    refine Valid.resyncs (hv.of_checkedAs ?_ fun edge hedge => ?_) hresyncs
    · exact List.forall₂_map_right_iff.mpr (List.forall₂_same.mpr fun node _ =>
        (relisted_listedAs name _ node).checkedAs)
    · rcases List.mem_append.mp hedge with hold | hnew
      · have hold := List.mem_of_mem_filter hold
        exact ⟨hv.sources edge hold, hv.targets edge hold⟩
      · obtain ⟨_, item, hitem, rfl⟩ := exists_toEdge_of_mem_edgesFrom _ _ _ _ hnew
        rw [objectsAmong_map_obj] at hitem
        rw [sourceOf_toEdge, targetOf_toEdge, Value.idText_str]
        exact ⟨hname, htargets item hitem⟩

/-- The nodes that are left when the node of an id is removed are those of the
other ids. -/
theorem mem_map_idOf_filter {nodes : List Fields} {id name : String} :
    name ∈ (nodes.filter fun n => Value.str (idOf n) ≠ Value.str id).map idOf
      ↔ name ∈ nodes.map idOf ∧ name ≠ id := by
  simp only [List.mem_map, List.mem_filter, decide_eq_true_eq, ne_eq, Value.str.injEq]
  constructor
  · rintro ⟨node, ⟨hnode, hne⟩, rfl⟩
    exact ⟨⟨node, hnode, rfl⟩, hne⟩
  · rintro ⟨⟨node, hnode, rfl⟩, hne⟩
    exact ⟨node, ⟨hnode, hne⟩, rfl⟩

/-- **An edge that is left when a node is removed leads from a node that is left
to a node that is left**, if all edges led from a node to a node. -/
theorem ends_of_mem_filter {id : String} {edge : Fields}
    (hsources : ∀ edge ∈ edges, sourceOf edge ∈ nodes.map idOf)
    (htargets : ∀ edge ∈ edges, targetOf edge ∈ nodes.map idOf)
    (h : edge ∈ edges.filter fun e =>
      Value.str (sourceOf e) ≠ Value.str id && Value.str (targetOf e) ≠ Value.str id) :
    sourceOf edge ∈ (nodes.filter fun n => Value.str (idOf n) ≠ Value.str id).map idOf
      ∧ targetOf edge ∈ (nodes.filter fun n => Value.str (idOf n) ≠ Value.str id).map idOf := by
  obtain ⟨hold, hne⟩ := List.mem_filter.mp h
  simp only [Bool.and_eq_true, decide_eq_true_eq, ne_eq, Value.str.injEq] at hne
  exact ⟨mem_map_idOf_filter.mpr ⟨hsources edge hold, hne.1⟩,
    mem_map_idOf_filter.mpr ⟨htargets edge hold, hne.2⟩⟩

/-- **Removing a node keeps a workflow valid** where it is not the initial one
and another one is left to end the call. -/
theorem problemsOf_deleteNode (hg : Holds document nodes edges)
    (hv : Valid nodes edges initial) {id : String} (hinitial : initial ≠ .str id)
    (hend : ∃ node ∈ nodes, idOf node ≠ id ∧ kindText node = NodeKind.endCall.name)
    (h : deleteNode document (.str id) = .ok revision) :
    problemsOf (revision.apply document) initial = .ok [] := by
  refine Valid.resyncs ?_ (deleteNode_resyncs hg h)
  have hsub : List.Sublist (nodes.filter fun n => Value.str (idOf n) ≠ Value.str id) nodes :=
    List.filter_sublist
  refine ⟨hv.ids.sublist (hsub.map idOf), fun node hnode => hv.named node (hsub.subset hnode),
    fun edge hedge => (ends_of_mem_filter hv.sources hv.targets hedge).1,
    fun edge hedge => (ends_of_mem_filter hv.sources hv.targets hedge).2, ?_, ?_,
    fun node hnode => hv.contents node (hsub.subset hnode)⟩
  · obtain ⟨node, hnode, hne, hkind⟩ := hend
    exact ⟨node, List.mem_filter.mpr ⟨hnode, by simpa using hne⟩, hkind⟩
  · refine hv.initial.imp_right ?_
    rintro ⟨name, hname, rfl⟩
    exact ⟨name, mem_map_idOf_filter.mpr ⟨hname, fun heq => hinitial (heq ▸ rfl)⟩, rfl⟩

/-- A node that starts as its kind's template lacks nothing, for some kinds. -/
theorem contentProblems_of_template {kind : NodeKind}
    (hkind : kind ∈ [NodeKind.standard, .endCall, .apiCall]) {node : Fields} {id : Value}
    (hdata : dataOf node = templateFor id (.str kind.name)) : contentProblems node = [] := by
  have hkindText : kindText node = kind.name := by
    rw [kindText_eq, hdata, templateFor, namedKind?, NodeKind.ofName?_name]
    simp only [List.mem_cons, List.not_mem_nil, or_false] at hkind
    rcases hkind with rfl | rfl | rfl <;> rfl
  rw [contentProblems, hkindText, NodeKind.ofName?_name]
  simp only [List.mem_cons, List.not_mem_nil, or_false] at hkind
  rcases hkind with rfl | rfl | rfl
  · change exactlyOne (Fields.get (dataOf node) "system_prompt").truthy
      (Fields.get (dataOf node) "static_text").truthy _ _ = []
    rw [hdata, templateFor, namedKind?, NodeKind.ofName?_name]
    rfl
  · rfl
  · rfl

/-- **Adding a node keeps a workflow valid** where its id is its own and its kind
is one whose template lacks nothing. -/
theorem problemsOf_addNode (hg : Holds document nodes edges) (hv : Valid nodes edges initial)
    {kind : NodeKind} (hkind : kind ∈ [NodeKind.standard, .endCall, .apiCall])
    {position given id : Value} {draw : Draw} (hnamed : given.truthy = true)
    (hunused : given.idText ∉ nodes.map idOf)
    (h : addNode document (.str kind.name) position given draw = .ok (revision, id)) :
    problemsOf (revision.apply document) initial = .ok [] := by
  obtain ⟨node, hcomes, hid, hdata, hgiven⟩ := addNode_comesTo hg h
  obtain rfl := hgiven hnamed
  refine Valid.comesTo ?_ hcomes
  have hidOf : idOf node = id.idText := by rw [idOf, hid]
  have hmem : ∀ {name : String}, name ∈ nodes.map idOf → name ∈ (nodes ++ [node]).map idOf := by
    intro name hname
    rw [List.map_append]
    exact List.mem_append_left _ hname
  refine ⟨?_, fun other hother => ?_, fun edge hedge => hmem (hv.sources edge hedge),
    fun edge hedge => hmem (hv.targets edge hedge), ?_, ?_, fun other hother => ?_⟩
  · rw [List.map_append, List.map_singleton, hidOf]
    exact hv.ids.append (List.nodup_singleton _) (by simpa using hunused)
  · rcases List.mem_append.mp hother with hold | hnew
    · exact hv.named other hold
    · rw [List.mem_singleton.mp hnew, hidOf]
      exact fun hblank => absurd (Value.idText_eq_empty_iff.mp hblank) (by rw [hnamed]; decide)
  · obtain ⟨other, hother, hends⟩ := hv.endCall
    exact ⟨other, List.mem_append_left _ hother, hends⟩
  · refine hv.initial.imp_right fun hnamed => ?_
    obtain ⟨name, hname, heq⟩ := hnamed
    exact ⟨name, hmem hname, heq⟩
  · rcases List.mem_append.mp hother with hold | hnew
    · exact hv.contents other hold
    · rw [List.mem_singleton.mp hnew]
      exact contentProblems_of_template hkind hdata

/-- **Well-aimed edits keep a valid workflow valid**, whenever they succeed. In
particular the removal of a node, be it the initial one or the last to end the
call, leaves neither the node nor an edge that starts from it, leads to it, or
lacks an end in another way. -/
theorem valid_of_wellAimed (hg : Holds document nodes edges)
    (hvalid : problemsOf document initial = .ok []) :
    (∀ edit, WellAimed document initial nodes edit → ∀ revision, edit = .ok revision →
      problemsOf (revision.apply document) initial = .ok [])
    ∧ ∀ (id : String) (revision : Revision), deleteNode document (.str id) = .ok revision →
      ∃ nodes' edges', Holds (revision.apply document) nodes' edges' ∧ id ∉ nodes'.map idOf
        ∧ ∀ edge ∈ edges', sourceOf edge ∈ nodes'.map idOf ∧ targetOf edge ∈ nodes'.map idOf := by
  have hv := hg.problemsOf_eq_nil_iff.mp hvalid
  refine ⟨fun edit haimed revision h => ?_, fun id revision h => ?_⟩
  · cases haimed with
    | connect hsource htarget => exact problemsOf_connectNodes hg hv hsource htarget h
    | remove => exact problemsOf_removeEdges hg hv h
    | relabel => exact problemsOf_updateEdge hg hv h
    | replace _ htargets => exact problemsOf_replaceTransitions hg hv htargets h
    | delete hinitial hend => exact problemsOf_deleteNode hg hv hinitial hend h
    | add hkind _ hnamed hunused =>
      obtain ⟨⟨_, id⟩, hadd, rfl⟩ := Outcome.map_eq_ok.mp h
      exact problemsOf_addNode hg hv hkind hnamed hunused hadd
  · obtain ⟨nodes', hcomes, hall⟩ := deleteNode_resyncs hg h
    have hids : nodes'.map idOf
        = (nodes.filter fun n => Value.str (idOf n) ≠ Value.str id).map idOf :=
      map_eq_map_of_forall₂ (hall.imp fun _ _ hsynced => hsynced.relisted.idOf_eq)
    refine ⟨nodes', _, hcomes.holds, ?_, fun edge hedge => ?_⟩
    · rw [hids, mem_map_idOf_filter]
      exact fun hmem => hmem.2 rfl
    · rw [hids]
      exact ends_of_mem_filter hv.sources hv.targets hedge

end WellAimed

/-- A greeting that may be repeated, and two ways to end the call. -/
def greetingNodes : List Fields :=
  [[("id", .str "hello"), ("data", .obj [("static_text", .str "Hello.")])],
    [("id", .str "bye"), ("data", .obj [("type", .str "end_call")])],
    [("id", .str "later"), ("data", .obj [("type", .str "end_call")])]]

/-- Its edges: two that are parallel and share an id, one that leads back to
where it starts, and one that leads elsewhere. -/
def greetingEdges : List Fields :=
  [[("id", .str "x"), ("source", .str "hello"), ("target", .str "bye")],
    [("id", .str "x"), ("source", .str "hello"), ("target", .str "bye")],
    [("id", .str "y"), ("source", .str "hello"), ("target", .str "hello")],
    [("id", .str "z"), ("source", .str "hello"), ("target", .str "later")]]

/-- In that graph one end of the call is removed. -/
theorem valid_deleteNode_greeting :
    problemsOf (Graph.ofObjects greetingNodes greetingEdges).toValue (.str "hello") = .ok []
      ∧ ∃ revision, deleteNode (Graph.ofObjects greetingNodes greetingEdges).toValue (.str "bye")
          = .ok revision
        ∧ problemsOf (revision.apply (Graph.ofObjects greetingNodes greetingEdges).toValue)
          (.str "hello") = .ok [] := by
  have hvalid : problemsOf (Graph.ofObjects greetingNodes greetingEdges).toValue (.str "hello")
      = .ok [] := by decide
  have haimed : WellAimed (Graph.ofObjects greetingNodes greetingEdges).toValue (.str "hello")
      greetingNodes (deleteNode (Graph.ofObjects greetingNodes greetingEdges).toValue (.str "bye")) :=
    .delete (by decide) (by decide)
  exact ⟨hvalid, _, rfl, (valid_of_wellAimed (holds_toValue _ _) hvalid).1 _ haimed _ rfl⟩

end CallFlow
