import CallFlow.Proofs.Graph.Synchronisation
import CallFlow.Proofs.Http.Parts
import CallFlow.Proofs.Http.StandIn
import CallFlow.Proofs.Http.Typed
import CallFlow.Proofs.Workflow.Opening

/-!
# Bringing a graph into agreement over the network

A graph that is sent to be brought into agreement is read, brought into
agreement, read again and sent back. Sent once more as it came back it is
answered as it is, with nothing to report (`reconcile_converges`): the second
time reading it leaves nothing to do, since it left nothing to do the first
time, and neither do the lists of transitions, since each is a copy of the
edges by then.

What has to be excluded are numbers that are not finite, as everywhere on the
network. There are none in a request, but there may be texts that are read as
one. Such a number is used for the lists and then answered as null, so the lists
that are answered are not those of the edges that are answered, and the graph
changes once more when it is sent again. This is what happens wherever the text
`inf` is read as a number (`reconcile_endless`).
-/

namespace CallFlow

/-! ## Finite numbers -/

/-- A finite number is none that is undefined. -/
theorem isUndefined_of_isFinite {value : Value} (h : isFinite value = true) :
    value.isUndefined = false := by
  cases value with
  | float x =>
    have hfinite : isFiniteFloat x = true := h
    show decide (Binary.shape x = .undefined) = false
    rw [decide_eq_false_iff_not]
    intro hshape
    rw [isFiniteFloat, hshape] at hfinite
    cases hfinite
  | _ => rfl

/-! ## Graphs that were read -/

/-- Objects that are read one by one, by a check that leaves nothing to do,
are kept afterwards. -/
theorem exists_keeps {check : Check} {items reads : List Value} (hcheck : check.Idempotent)
    (hobject : ∀ {place value read}, check place value = .ok read → ∃ fields, read = .obj fields)
    (h : List.Forall₂ (fun item value => ∃ place, check place item = .ok value) items reads) :
    ∃ fs : List Fields, reads = fs.map Value.obj ∧ ∀ fields ∈ fs, check.Keeps (.obj fields) := by
  induction h with
  | nil => exact ⟨[], rfl, fun fields hfields => absurd hfields List.not_mem_nil⟩
  | cons hitem _ ih =>
    obtain ⟨fs, rfl, hfs⟩ := ih
    obtain ⟨_, hread⟩ := hitem
    obtain ⟨fields, rfl⟩ := hobject hread
    exact ⟨fields :: fs, rfl, List.forall_mem_cons.mpr ⟨hcheck hread, hfs⟩⟩

/-- **Whether nodes and edges are those of a graph that was received**: each is
read as it is. -/
structure Received (F : Framework) (nodes edges : List Fields) : Prop where
  /-- Each node is. -/
  keepsNode : ∀ node ∈ nodes, (Schema.node F).Keeps (.obj node)
  /-- Each edge is. -/
  keepsEdge : ∀ edge ∈ edges, (Schema.edge F).Keeps (.obj edge)

section Received

variable {F : Framework} (hF : F.Lawful) {settings : Settings}

include hF

/-- **A graph that was read was received.** -/
theorem received_of_graph {here : List Place} {value read : Value}
    (h : Schema.graph F here value = .ok read) :
    ∃ nodes edges, read = (Graph.ofObjects nodes edges).toValue ∧ Received F nodes edges := by
  obtain ⟨fields, reads, rfl, hreads, _, rfl⟩ := hF.model.mp h
  obtain _ | ⟨hatNodes, _ | ⟨hatEdges, _ | _⟩⟩ := hreads
  obtain ⟨_, _, _, rfl, hall⟩ := Schema.reads_listOf hF hatNodes
  obtain ⟨nodes, rfl, hnodes⟩ := exists_keeps (Schema.idempotent_node hF) (fun hread => by
    obtain ⟨_, fields', _, rfl, _⟩ := Schema.node_eq_ok hF hread
    exact ⟨fields', rfl⟩) hall
  obtain ⟨_, _, _, rfl, hall⟩ := Schema.reads_listOf hF hatEdges
  obtain ⟨edges, rfl, hedges⟩ := exists_keeps (Schema.idempotent_edge hF) (fun hread => by
    obtain ⟨_, fields', _, rfl, _⟩ := Schema.edge_eq_ok hF hread
    exact ⟨fields', rfl⟩) hall
  exact ⟨nodes, edges, rfl, hnodes, hedges⟩

namespace Received

variable {nodes edges : List Fields} (h : Received F nodes edges)

include h

theorem keepsGraph : (Schema.graph F).Keeps (Graph.ofObjects nodes edges).toValue :=
  Schema.keeps_graph hF h.keepsNode h.keepsEdge

theorem keepsRequest : (Schema.reconcileRequest F).Keeps
    (.obj [("graph", (Graph.ofObjects nodes edges).toValue)]) := by
  have hstands : (Schema.graphField F).Stands ("graph", (Graph.ofObjects nodes edges).toValue) :=
    ⟨rfl, h.keepsGraph hF⟩
  exact (Check.inForm_of_stands (.cons hstands .nil)).keeps hF
    ⟨by simp [Schema.graphField], by simp [Schema.graphField, isPlain]⟩

/-- The priority of each edge is a number, which is well formed. -/
theorem wellFormed_priority :
    ∀ edge ∈ edges, (Transition.ofEdge edge).priority.wellFormed = true := by
  intro edge hedge
  obtain ⟨_, edge', _, hread, hedge'⟩ := Schema.edge_eq_ok hF (h.keepsEdge edge hedge [])
  obtain rfl := Value.obj.inj hread
  obtain ⟨n, hn⟩ := hedge'.typed.isNumber_priority
  rw [hn]
  cases n <;> rfl

theorem keeps_of_syncedTo {node node' : Fields} (hnode : node ∈ nodes)
    (hsynced : SyncedTo edges none node node') : (Schema.node F).Keeps (.obj node') := by
  obtain ⟨updated, hsynced⟩ := hsynced
  rw [syncInScope, inScope, if_pos rfl] at hsynced
  rcases syncNode_eq_ok hsynced with ⟨_, rfl, _⟩ | ⟨_, rfl, _⟩
  · exact h.keepsNode node' hnode
  · exact Schema.keeps_withTransitions hF (h.keepsNode node hnode []) _

/-- **A graph that was received is brought into agreement as one that could
have been**, and that can be sent if it could be. -/
theorem of_sync {synced : Synced}
    (hsync : sync (Graph.ofObjects nodes edges).toValue none = .ok synced) :
    ∃ nodes', synced.revision.apply (Graph.ofObjects nodes edges).toValue
        = (Graph.ofObjects nodes' edges).toValue
      ∧ Received F nodes' edges ∧ (∀ node ∈ nodes', Copies edges node)
      ∧ (IsSendable (Graph.ofObjects nodes edges).toValue →
        IsSendable (Graph.ofObjects nodes' edges).toValue) := by
  obtain ⟨nodes', happly, hall⟩ := syncedTo_sync hsync
  refine ⟨nodes', happly, ⟨fun node' hnode' => ?_, h.keepsEdge⟩, fun node' hnode' => ?_,
    fun hsendable => ?_⟩
  · obtain ⟨node, hnode, hsynced⟩ := exists_of_mem_right hall hnode'
    exact h.keeps_of_syncedTo hF hnode hsynced
  · obtain ⟨node, hnode, hsynced⟩ := exists_of_mem_right hall hnode'
    exact hsynced.copies (h.wellFormed_priority hF) fun houtside => by cases houtside
  · obtain ⟨hnodes, hedges⟩ := hereditary_isSendable.ofObjects.mp hsendable
    refine hereditary_isSendable.ofObjects.mpr ⟨fun node' hnode' => ?_, hedges⟩
    obtain ⟨node, hnode, hsynced⟩ := exists_of_mem_right hall hnode'
    exact hereditary_isSendable.syncedTo (hnodes node hnode) hedges hsynced

end Received

end Received

/-! ## What is answered -/

section Answers

variable {F : Framework} {settings : Settings} {nodes edges : List Fields}

/-- **A graph that is in agreement is kept as it is**, with nothing to report, if it
can be sent. -/
theorem sync_eq_kept (hsendable : IsSendable (Graph.ofObjects nodes edges).toValue)
    (hcopies : ∀ node ∈ nodes, Copies edges node) :
    sync (Graph.ofObjects nodes edges).toValue none = .ok ⟨.kept, []⟩ := by
  have hedges := (hereditary_isSendable.ofObjects.mp hsendable).2
  have hdefined : ∀ node, hasUndefinedPriority edges node = false := by
    intro node
    rw [hasUndefinedPriority, List.any_eq_false]
    intro t ht
    obtain ⟨edge, hedge, rfl⟩ := List.mem_map.mp ht
    have hsent := hedges edge (List.mem_of_mem_filter hedge)
    rw [isUndefined_of_isFinite (hereditary_isSendable.priority_ofEdge hsent).2]
    exact Bool.false_ne_true
  obtain ⟨⟨revision, updated⟩, hsync, hupdated, hkept⟩ := sync_of_copies hcopies
  have hnone : nodes.filter (hasUndefinedPriority edges) = [] :=
    List.filter_eq_nil_iff.mpr fun node _ => by rw [hdefined node]; simp
  rw [hnone] at hupdated
  obtain rfl : updated = [] := hupdated
  obtain rfl : revision = .kept := hkept rfl
  exact hsync

variable (hF : F.Lawful)

include hF

theorem Received.exact_reconciled (h : Received F nodes edges) (updated : List String) :
    (Schema.reconcileAnswer F).Exact
      (Service.reconciled (Graph.ofObjects nodes edges).toValue updated) := by
  refine Check.exact_model hF (by simp [Schema.graphField, Schema.listField]) ?_
  exact .cons ⟨rfl, (h.keepsGraph hF).exact⟩
    (.cons ⟨rfl, hF.exact_listOf fun item _ => hF.exact_text item⟩ .nil)

theorem Received.accepts_reconciled (h : Received F nodes edges) {updated : List String}
    (hform : Wire.allTexts F.encodes
      (Service.reconciled (Graph.ofObjects nodes edges).toValue updated) = true) :
    (Schema.reconcileAnswer F).Accepts
      (Service.reconciled (Graph.ofObjects nodes edges).toValue updated) := by
  have hupdated : Wire.allTexts F.encodes (.list (updated.map Value.str)) = true :=
    (Wire.allTexts_obj.mp hform ("updated_node_ids", _) (by simp)).2
  have hids : (F.listOf F.text).Accepts (.list (updated.map Value.str)) := by
    refine hF.accepts_listOf fun item hitem => ?_
    have hitemForm := Wire.allTexts_list.mp hupdated item hitem
    obtain ⟨id, _, rfl⟩ := List.mem_map.mp hitem
    exact hF.settles_text.accepts (Check.isText_of_allTexts hitemForm)
  exact hF.accepts_model (fun hkeeps => by cases hkeeps)
    ⟨Check.Field.accepts_of_stated ⟨_, rfl, fun place => ⟨_, h.keepsGraph hF place⟩⟩,
      Check.Field.accepts_of_stated ⟨_, rfl, hids⟩⟩

variable {body : Fields} {graph : Value} {synced : Synced}
  (hread : Schema.reconcileRequest F [.field "body"] (.obj body) = .ok (.obj [("graph", graph)]))
  (hsync : sync graph none = .ok synced)
  (happly : synced.revision.apply graph = (Graph.ofObjects nodes edges).toValue)
  (h : Received F nodes edges)

omit hread in
include hsync happly h in
theorem work_reconcile_eq : Service.work F settings .reconcile [("graph", graph)]
    = Reply.value <$> Service.modelled (Schema.reconcileAnswer F)
      (Service.reconciled (Graph.ofObjects nodes edges).toValue synced.updated) := by
  have hget : Fields.get [("graph", graph)] "graph" = graph := rfl
  rw [Service.work_reconcile, hget, hsync, Outcome.ok_bind, happly,
    Service.modelled_eq_ok.mpr (h.keepsGraph hF []), Outcome.ok_bind]

include hread hsync happly h

/-- **A graph that was brought into agreement is answered as it is**, with the nodes
that were changed. -/
theorem answer_reconcile (hsendable : IsSendable (Graph.ofObjects nodes edges).toValue) :
    Service.answer F settings (Endpoint.reconcile.post body) = F.answered 200
      (Service.reconciled (Graph.ofObjects nodes edges).toValue synced.updated) := by
  have hids : IsSendable (.list (synced.updated.map Value.str)) :=
    hereditary_isSendable.list.mpr (List.forall_mem_map.mpr fun _ _ => hereditary_isSendable.str _)
  exact Service.answer_modelled hF rfl hread (work_reconcile_eq hF hsync happly h)
    (h.exact_reconciled hF _) (h.accepts_reconciled hF)
    (hereditary_isSendable.obj_cons.mpr ⟨hsendable, hereditary_isSendable.obj_cons.mpr
      ⟨hids, hereditary_isSendable.obj_nil⟩⟩)

end Answers

/-! ## The request -/

/-- Whether the numbers that are read of a request to bring a graph into
agreement are finite, those that were written as texts among them. -/
def ReadsFinite (F : Framework) (body : Fields) : Prop :=
  ∀ read, Schema.reconcileRequest F [.field "body"] (.obj body) = .ok read → isFinite read = true

section Request

variable {F : Framework} (hF : F.Lawful) {settings : Settings}

include hF

/-- **What is read of a request** is a graph that was received, and that can be
sent, if its numbers are finite. -/
theorem received_of_request {body : Fields} {read : Value}
    (h : Schema.reconcileRequest F [.field "body"] (.obj body) = .ok read)
    (hkeys : Json.textKeyed (.obj body) = true) (hfinite : isFinite read = true) :
    ∃ nodes edges, read = .obj [("graph", (Graph.ofObjects nodes edges).toValue)]
      ∧ Received F nodes edges ∧ IsSendable (Graph.ofObjects nodes edges).toValue := by
  obtain ⟨_, reads, hbody, hreads, _, rfl⟩ := hF.model.mp h
  obtain rfl := Value.obj.inj hbody
  obtain _ | ⟨hatGraph, _ | _⟩ := hreads
  obtain ⟨graph, rfl, ⟨value, hvalue, hgraph⟩ | ⟨_, hdefault⟩⟩ := hatGraph
  · have hgraphKeys := Json.hereditary_textKeyed.preserves_graph hF (fun _ => rfl) hgraph
      (Json.hereditary_textKeyed.get? hkeys hvalue)
    have hgraphFinite := isFinite_obj.mp hfinite _ List.mem_cons_self
    obtain ⟨nodes, edges, rfl, hreceived⟩ := received_of_graph hF hgraph
    exact ⟨nodes, edges, rfl, hreceived, hgraphKeys, hgraphFinite⟩
  · cases hdefault

end Request

/-- **Bringing a graph into agreement settles in one call.** Let a request to
bring a graph into agreement be answered, and let the numbers that are read of
it be finite. In the graph that is answered the transitions each node lists are
those of its edges, one by one and in order. And that graph, sent in turn, is
answered as it is, with no node to report. This is so over every framework that
does what is relied on. -/
theorem reconcile_converges {F : Framework} (hF : F.Lawful) {settings : Settings} {body : Fields}
    {answered : Value} (hkeys : Json.textKeyed (.obj body) = true) (hfinite : ReadsFinite F body)
    (h : Service.answer F settings (Endpoint.reconcile.post body) = ⟨200, .body answered⟩) :
    ∃ nodes edges updated,
      answered = Service.reconciled (Graph.ofObjects nodes edges).toValue updated
      ∧ (∀ node ∈ nodes, Copies edges node)
      ∧ Service.answer F settings
          (Endpoint.reconcile.post [("graph", (Graph.ofObjects nodes edges).toValue)])
        = ⟨200, .body (Service.reconciled (Graph.ofObjects nodes edges).toValue [])⟩ := by
  have hobject : ∀ {read}, Schema.reconcileRequest F [.field "body"] (.obj body) = .ok read →
      ∃ fields, read = .obj fields := fun hread => by
    obtain ⟨nodes, edges, rfl, _⟩ := received_of_request hF hread hkeys (hfinite _ hread)
    exact ⟨_, rfl⟩
  obtain ⟨read, reply, hread, hwork⟩ := Service.exists_work_of_answer hF rfl hobject h
  obtain ⟨nodes, edges, hgraph, hreceived, hsendable⟩ :=
    received_of_request hF hread hkeys (hfinite _ hread)
  obtain rfl := Value.obj.inj hgraph
  rw [Service.work_reconcile] at hwork
  obtain ⟨synced, hsync, _⟩ := Outcome.bind_eq_ok.mp hwork
  obtain ⟨nodes', happly, hreceived', hcopies, hsent⟩ := hreceived.of_sync hF hsync
  rw [answer_reconcile hF hread hsync happly hreceived' (hsent hsendable)] at h
  obtain ⟨rfl, hform⟩ := Framework.answered_eq h
  refine ⟨nodes', edges, synced.updated, rfl, hcopies, ?_⟩
  -- the second time all is kept, and what could be written can be written again
  rw [answer_reconcile hF (hreceived'.keepsRequest hF _) (sync_eq_kept (hsent hsendable) hcopies) rfl
    hreceived' (hsent hsendable), Framework.answered, if_pos]
  obtain ⟨hgraph, hupdated⟩ := List.forall_mem_cons.mp (Wire.allTexts_obj.mp hform)
  refine Wire.allTexts_obj.mpr (List.forall_mem_cons.mpr ⟨hgraph, List.forall_mem_singleton.mpr ?_⟩)
  exact ⟨(hupdated _ List.mem_cons_self).1, rfl⟩

/-- A request with a node that leads to itself, with a priority written as a
text. -/
def repeatingBody : Fields :=
  [("graph", .obj [("nodes", .list [.obj [("id", .str "ask")]]),
    ("edges", .list [.obj [("source", .str "ask"), ("target", .str "ask"),
      ("label", .str "user_asks"), ("data", .obj [("priority", .str "2")])]])])]

/-- That request is answered, and what it is answered with is answered as it
is. -/
theorem reconcile_converges_repeatingBody :
    ∃ nodes edges updated,
      Service.answer .standIn .default (Endpoint.reconcile.post repeatingBody)
        = ⟨200, .body (Service.reconciled (Graph.ofObjects nodes edges).toValue updated)⟩
      ∧ (∀ node ∈ nodes, Copies edges node)
      ∧ Service.answer .standIn .default
          (Endpoint.reconcile.post [("graph", (Graph.ofObjects nodes edges).toValue)])
        = ⟨200, .body (Service.reconciled (Graph.ofObjects nodes edges).toValue [])⟩ := by
  have hfinite : ReadsFinite .standIn repeatingBody := by
    intro read hread
    obtain rfl := Except.ok.inj hread
    rfl
  obtain ⟨answered, hanswered⟩ : ∃ answered, Service.answer .standIn .default
      (Endpoint.reconcile.post repeatingBody) = ⟨200, .body answered⟩ := by
    rw [Service.answer_standIn .default _ rfl]
    exact ⟨_, rfl⟩
  obtain ⟨nodes, edges, updated, rfl, hcopies, hagain⟩ :=
    reconcile_converges lawful_standIn rfl hfinite hanswered
  exact ⟨nodes, edges, updated, hanswered, hcopies, hagain⟩

/-! ## Texts that are read as infinite -/

/-- A number that is infinite. -/
def infinite : Value := .float (Binary.infinity false)

/-- Whether the text `inf` is read as a number, which is infinite. -/
def ReadsInfinity (F : Framework) : Prop :=
  ∀ place, F.number place (.str "inf") = .ok infinite

/-- A request with a node that leads to itself, with a priority that is read as
infinite. -/
def endlessBody : Fields :=
  [("graph", .obj [("nodes", .list [.obj [("id", .str "a")]]),
    ("edges", .list [.obj [("source", .str "a"), ("target", .str "a"),
      ("data", .obj [("priority", .str "inf")])]])])]

/-- A node, as it is read and with some data. -/
def endlessNode (data : Fields) : Fields :=
  [("id", .str "a"), ("type", .str "standardNode"),
    ("position", .obj [("x", .int 0), ("y", .int 0)]), ("data", .obj data)]

/-- Data that list the node itself as a target, with a priority. -/
def endlessData (priority : Value) : Fields :=
  [("transitions", .list [.obj [("condition", .str "always"), ("target", .str "a"),
    ("priority", priority)]])]

/-- An edge from that node to itself, with a priority. -/
def endlessEdge (priority : Value) : Fields :=
  [("id", .str ""), ("source", .str "a"), ("target", .str "a"), ("label", .null),
    ("data", .obj [("condition", .null), ("priority", priority)])]

/-- A graph of that node and that edge, with a priority each. -/
def endlessGraph (listed priority : Value) : Value :=
  (Graph.ofObjects [endlessNode (endlessData listed)] [endlessEdge priority]).toValue

section Endless

variable {F : Framework} (hF : F.Lawful)

include hF

theorem reads_endlessNode (place : List Place) :
    Schema.node F place (.obj [("id", .str "a")]) = .ok (.obj (endlessNode [])) := by
  have hid := Schema.keeps_plain hF (s := "a") rfl
  refine hF.model.mpr ⟨_, _, rfl, .cons ⟨_, rfl, .inl ⟨_, rfl, hid _⟩⟩ (.cons ⟨_, rfl, .inr ⟨rfl, rfl⟩⟩
    (.cons ⟨_, rfl, .inr ⟨rfl, rfl⟩⟩ (.cons ⟨_, rfl, .inr ⟨rfl, rfl⟩⟩ .nil))), fun _ => ?_, rfl⟩
  exact Check.haveTextKeys_of_allTexts (hF.allTexts_of_isPlain rfl) rfl

theorem keeps_endlessNode (priority : Value) :
    (Schema.node F).Keeps (.obj (endlessNode (endlessData priority))) :=
  Schema.keeps_withTransitions hF (reads_endlessNode hF [])
    [.obj [("condition", .str "always"), ("target", .str "a"), ("priority", priority)]]

/-- The edge is read with an infinite priority, if `inf` is read as one. -/
theorem reads_endlessEdge (hinfinity : ReadsInfinity F) (place : List Place) :
    Schema.edge F place (.obj [("source", .str "a"), ("target", .str "a"),
        ("data", .obj [("priority", .str "inf")])]) = .ok (.obj (endlessEdge infinite)) := by
  have hend := Schema.keeps_plain hF (s := "a") rfl
  have hdata : ∀ here, Schema.edgeData F here (.obj [("priority", .str "inf")])
      = .ok (.obj [("condition", .null), ("priority", infinite)]) := by
    intro here
    refine hF.model.mpr ⟨_, _, rfl, .cons ⟨_, rfl, .inr ⟨rfl, rfl⟩⟩
      (.cons ⟨_, rfl, .inl ⟨_, rfl, ?_⟩⟩ .nil), fun _ => ?_, rfl⟩
    · exact (hF.nullable_of_ne (by simp)).trans (hinfinity _)
    · exact Check.haveTextKeys_of_allTexts (hF.allTexts_of_isPlain rfl) rfl
  refine hF.model.mpr ⟨_, _, rfl, .cons ⟨_, rfl, .inr ⟨rfl, rfl⟩⟩ (.cons ⟨_, rfl, .inl ⟨_, rfl, hend _⟩⟩
    (.cons ⟨_, rfl, .inl ⟨_, rfl, hend _⟩⟩ (.cons ⟨_, rfl, .inr ⟨rfl, rfl⟩⟩
      (.cons ⟨_, rfl, .inl ⟨_, rfl, hdata _⟩⟩ .nil)))), fun _ => ?_, rfl⟩
  exact Check.haveTextKeys_of_allTexts (hF.allTexts_of_isPlain rfl) rfl

theorem keeps_endlessEdge : (Schema.edge F).Keeps (.obj (endlessEdge .null)) := by
  have hend := Schema.keeps_plain hF (s := "a") rfl
  refine (Check.inForm_of_stands ?_).keeps hF ⟨by simp, by simp [isPlain]⟩
  exact .cons ⟨rfl, Schema.keeps_plain hF rfl⟩ (.cons ⟨rfl, hend⟩ (.cons ⟨rfl, hend⟩
    (.cons ⟨rfl, Schema.keeps_null hF⟩ (.cons ⟨rfl, Schema.keeps_blankData hF⟩ .nil))))

/-- The request is read as a graph with an infinite priority. -/
theorem reads_endlessBody (hinfinity : ReadsInfinity F) (place : List Place) :
    Schema.reconcileRequest F place (.obj endlessBody) = .ok (.obj [("graph",
      (Graph.ofObjects [endlessNode []] [endlessEdge infinite]).toValue)]) := by
  refine hF.model.mpr ⟨_, _, rfl, .cons ⟨_, rfl, .inl ⟨_, rfl, ?_⟩⟩ .nil, nofun, rfl⟩
  refine hF.model.mpr ⟨_, _, rfl, .cons ⟨_, rfl, .inl ⟨_, rfl, ?_⟩⟩
    (.cons ⟨_, rfl, .inl ⟨_, rfl, ?_⟩⟩ .nil), nofun, rfl⟩
  · exact hF.listOf.mpr ⟨_, _, rfl, rfl, .cons (reads_endlessNode hF _) .nil⟩
  · exact hF.listOf.mpr ⟨_, _, rfl, rfl, .cons (reads_endlessEdge hF hinfinity _) .nil⟩

/-- **The request is answered with a list that is not that of the edges**: what was
infinite is answered as null, in both. -/
theorem answer_endlessBody (settings : Settings) (hinfinity : ReadsInfinity F) :
    Service.answer F settings (Endpoint.reconcile.post endlessBody)
      = ⟨200, .body (Service.reconciled (endlessGraph .null .null) ["a"])⟩ := by
  have hedge := Schema.idempotent_edge hF (reads_endlessEdge hF hinfinity [])
  have hreceived : Received F [endlessNode (endlessData infinite)] [endlessEdge infinite] :=
    ⟨List.forall_mem_singleton.mpr (keeps_endlessNode hF _), List.forall_mem_singleton.mpr hedge⟩
  have hsync : sync (Graph.ofObjects [endlessNode []] [endlessEdge infinite]).toValue none
      = .ok ⟨.rebuilt (Graph.ofObjects [endlessNode (endlessData infinite)] [endlessEdge infinite]),
        ["a"]⟩ := rfl
  have hwork := @work_reconcile_eq F settings _ _ hF _ _ hsync rfl hreceived
  obtain ⟨read, hread⟩ :=
    @Received.accepts_reconciled F _ _ hF hreceived ["a"] (hF.allTexts_of_isPlain rfl) []
  obtain rfl := hreceived.exact_reconciled hF ["a"] hread
  rw [Service.modelled_eq_ok.mpr hread] at hwork
  rw [Service.answer_of_value hF rfl (reads_endlessBody hF hinfinity _) hwork rfl, Framework.answered,
    if_pos (hF.allTexts_of_isPlain rfl)]
  rfl

/-- And that graph changes once more when it is sent in turn, since the edge has no
priority any more. -/
theorem answer_endlessGraph (settings : Settings) :
    Service.answer F settings (Endpoint.reconcile.post [("graph", endlessGraph .null .null)])
      = ⟨200, .body (Service.reconciled (endlessGraph (.int 0) .null) ["a"])⟩ := by
  have hedges : ∀ edge ∈ [endlessEdge .null], (Schema.edge F).Keeps (.obj edge) :=
    List.forall_mem_singleton.mpr (keeps_endlessEdge hF)
  have hsent : Received F [endlessNode (endlessData .null)] [endlessEdge .null] :=
    ⟨List.forall_mem_singleton.mpr (keeps_endlessNode hF _), hedges⟩
  have hsynced : Received F [endlessNode (endlessData (.int 0))] [endlessEdge .null] :=
    ⟨List.forall_mem_singleton.mpr (keeps_endlessNode hF _), hedges⟩
  have hanswer := @answer_reconcile F settings _ _ hF _ _ ⟨.rebuilt _, ["a"]⟩ (hsent.keepsRequest hF _)
    rfl rfl hsynced ⟨rfl, rfl⟩
  rwa [Framework.answered, if_pos (hF.allTexts_of_isPlain rfl)] at hanswer

end Endless

/-- **Without that condition it may not settle**: a request of finite numbers is answered
with a list of transitions that is not that of the edges, and what it is answered with
changes when it is sent in turn, whatever framework reads `inf` as infinite. That on which
the service is run is one. -/
theorem reconcile_endless :
    isFinite (.obj endlessBody) = true
    ∧ ¬ Copies [endlessEdge .null] (endlessNode (endlessData .null))
    ∧ (Framework.standIn.Lawful ∧ ReadsInfinity .standIn)
    ∧ ∀ (F : Framework) (settings : Settings), F.Lawful → ReadsInfinity F →
      Service.answer F settings (Endpoint.reconcile.post endlessBody)
        = ⟨200, .body (Service.reconciled (endlessGraph .null .null) ["a"])⟩
      ∧ Service.answer F settings (Endpoint.reconcile.post [("graph", endlessGraph .null .null)])
        = ⟨200, .body (Service.reconciled (endlessGraph (.int 0) .null) ["a"])⟩ := by
  refine ⟨rfl, ?_, ⟨lawful_standIn, fun _ => rfl⟩, fun F settings hF hinfinity =>
    ⟨answer_endlessBody hF settings hinfinity, answer_endlessGraph hF settings⟩⟩
  rintro ⟨items, hlisted, hall⟩
  obtain rfl := Value.list.inj hlisted
  have hprojected : outgoing [endlessEdge .null] (idOf (endlessNode (endlessData .null)))
      = [⟨"always", "a", .int 0⟩] := rfl
  rw [hprojected, List.forall₂_cons] at hall
  exact absurd hall.1 (by decide)

end CallFlow
