import CallFlow.Http.Schema
import CallFlow.Proofs.Config.Scratch
import CallFlow.Proofs.Http.Stability
import CallFlow.Proofs.Validation.Check

/-!
# Typed graphs

A graph is *typed* (`TypedGraph`) if its nodes have ids and its edges have
ends, all of them texts, and if each of the other fields the models declare says
what the models expect, where it says anything. Other fields may stand there
and hold anything.

A typed graph is read by the model of a graph (`Schema.accepts_graph`). What is handed
back differs from it: defaults are filled in, and fields of a place or of the
graph that are not declared are dropped. But it is *the same as it was sent*
(`SentAs`) in everything that saving and checking a workflow read
(`sentAs_of_graph`): wherever a default is filled in, whoever reads the field
has a default of its own, and it is the same one.

Which texts have a form in UTF-8 is up to the framework, so what is typed is, too.
-/

namespace CallFlow

/-! ## What is expected of a graph -/

/-- Whether a place is typed: its coordinates are numbers, where it has any. -/
structure TypedPosition (place : Fields) : Prop where
  /-- The first coordinate is a number. -/
  x : IfStated IsNumber place "x"
  /-- The second coordinate is a number. -/
  y : IfStated IsNumber place "y"

/-- **Whether a node is typed**: it has an id, and its kind, place and data are
a text, a place and an object, where it has any. -/
structure TypedNode (F : Framework) (node : Fields) : Prop where
  /-- Its fields stand under texts. -/
  keys : HaveTextKeys F node
  /-- It has an id, which is a text. -/
  id : Stated (IsText F) node "id"
  /-- What it is drawn as is a text. -/
  type : IfStated (IsText F) node "type"
  /-- Its place is one. -/
  position : IfStated (IsObjectOf TypedPosition) node "position"
  /-- Its data are an object. -/
  data : IfStated (IsObject F) node "data"

/-- Whether the data of an edge are typed: the condition is a text and the
priority a number, where they are there and not null. -/
structure TypedEdgeData (F : Framework) (data : Fields) : Prop where
  /-- They stand under texts. -/
  keys : HaveTextKeys F data
  /-- The condition is a text. -/
  condition : IfStated (OrNull (IsText F)) data "condition"
  /-- The priority is a number. -/
  priority : IfStated (OrNull IsNumber) data "priority"

/-- **Whether an edge is typed**: it has ends, and its id, label and data are
texts and data of an edge, where it has any. -/
structure TypedEdge (F : Framework) (edge : Fields) : Prop where
  /-- Its fields stand under texts. -/
  keys : HaveTextKeys F edge
  /-- Its id is a text. -/
  id : IfStated (IsText F) edge "id"
  /-- It starts from a node, named by a text. -/
  source : Stated (IsText F) edge "source"
  /-- It leads to a node, named by a text. -/
  target : Stated (IsText F) edge "target"
  /-- Its label is a text, or null. -/
  label : IfStated (OrNull (IsText F)) edge "label"
  /-- Its data are those of an edge. -/
  data : IfStated (IsObjectOf (TypedEdgeData F)) edge "data"

/-- The priority a typed edge states is a number or null. -/
theorem TypedEdge.dataOf_priority {F : Framework} {edge : Fields} (h : TypedEdge F edge) :
    IfStated (OrNull IsNumber) (dataOf edge) "priority" := by
  rw [dataOf, Fields.get]
  cases hread : Fields.get? edge "data" with
  | none => exact .of_none rfl
  | some value =>
    obtain ⟨data, rfl, hdata⟩ := h.data value hread
    exact hdata.priority

theorem isNumber_orElse_priority {value : Value} (h : OrNull IsNumber value) :
    IsNumber (value.orElse defaultPriority) := by
  rcases h with rfl | hnumber
  · exact ⟨.int 0, rfl⟩
  · exact Value.prop_orElse hnumber ⟨.int 0, rfl⟩

theorem TypedEdge.isNumber_priority {F : Framework} {edge : Fields} (h : TypedEdge F edge) :
    IsNumber (Transition.ofEdge edge).priority :=
  isNumber_orElse_priority h.dataOf_priority.orNull_get

namespace Schema

open Check

variable {F : Framework} (hF : F.Lawful)

include hF

theorem accepts_listOf {check : Check} {Q : Fields → Prop} {value : Value} (h : IsListOf Q value)
    (hitems : ∀ fields, Q fields → check.Accepts (.obj fields)) :
    (F.listOf check).Accepts value := by
  obtain ⟨items, rfl, hall⟩ := h
  refine hF.accepts_listOf fun item hitem => ?_
  obtain ⟨fields, hfields, rfl⟩ := List.mem_map.mp hitem
  exact hitems fields (hall fields hfields)

end Schema

/-! ## What is handed back -/

/-- **What a node is read as**: it is typed. It states the id and the data it
did, and is at the place it was, if that is typed. -/
structure ReadNode (F : Framework) (node node' : Fields) : Prop where
  /-- It is typed. -/
  typed : TypedNode F node'
  /-- The id is stated as before. -/
  id : Fields.get node' "id" = Fields.get node "id"
  /-- The data are as before. -/
  data : dataOf node' = dataOf node
  /-- A place that is typed is the place it is at. -/
  place : IfStated (IsObjectOf TypedPosition) node "position" →
    canvasPosition node' = canvasPosition node

/-- **What an edge is read as**: it is typed, has the id it had, and says what it
said, if its priority is a number. -/
structure ReadEdge (F : Framework) (edge edge' : Fields) : Prop where
  /-- It is typed. -/
  typed : TypedEdge F edge'
  /-- It has the id it had. -/
  id : idOf edge' = idOf edge
  /-- It says what it said, if its priority is a number or null. -/
  same : IfStated (OrNull IsNumber) (dataOf edge) "priority" → SameEdge edge edge'

namespace Schema

open Check

section Read

variable {F : Framework} (hF : F.Lawful) {here : List Place} {read : Value}

include hF

/-- What is declared stands under texts that have a form, and so does what a model
keeps. -/
theorem haveTextKeys_read {declared : List Field} {fields : Fields} {reads : Fields}
    (hdeclared : WellDeclared declared)
    (hreads : List.Forall₂ (Field.Reads here fields) declared reads)
    (hkeys : HaveTextKeys F fields) : HaveTextKeys F (reads ++ Check.others declared fields) := by
  refine List.forall_mem_append.mpr ⟨haveTextKeys_of_forall₂ hF hdeclared ?_ hreads,
    fun f hf => hkeys f (List.mem_of_mem_filter hf)⟩
  rintro f _ ⟨_, rfl, _⟩
  rfl

/-- **What is read of a place** are its coordinates, as they are if they are
numbers. -/
theorem position_eq_ok {value : Value} (h : position F here value = .ok read) :
    ∃ fields x y, value = .obj fields ∧ read = .obj [("x", x), ("y", y)]
      ∧ IsNumber x ∧ IsNumber y
      ∧ (TypedPosition fields → x = (Fields.get? fields "x").getD (.int 0)
        ∧ y = (Fields.get? fields "y").getD (.int 0)) := by
  have hzero : IsNumber (.int 0) := ⟨.int 0, rfl⟩
  obtain ⟨fields, reads, rfl, hreads, _, rfl⟩ := hF.model.mp h
  obtain _ | ⟨hx, _ | ⟨hy, _ | _⟩⟩ := hreads
  obtain ⟨x, rfl, hxn, hx⟩ := hx.settles hF.number rfl hzero
  obtain ⟨y, rfl, hyn, hy⟩ := hy.settles hF.number rfl hzero
  exact ⟨fields, x, y, rfl, rfl, hxn, hyn, fun htyped => ⟨hx htyped.x, hy htyped.y⟩⟩

/-- What is read of the place of a node, or put there, are coordinates. -/
theorem reads_position {fields : Fields} {pair : Key × Value}
    (h : Field.Reads here fields
      { key := "position", check := position F,
        default := some (.obj [("x", .int 0), ("y", .int 0)]) } pair) :
    ∃ x y, pair = (Key.text "position", .obj [("x", x), ("y", y)]) ∧ IsNumber x ∧ IsNumber y
      ∧ (IfStated (IsObjectOf TypedPosition) fields "position" →
        canvasPosition fields = .obj [("x", x), ("y", y)]) := by
  obtain ⟨read, rfl, ⟨value, hvalue, hread⟩ | ⟨hnone, hread⟩⟩ := h
  · obtain ⟨place, x, y, rfl, rfl, hx, hy, hsame⟩ := position_eq_ok hF hread
    refine ⟨x, y, rfl, hx, hy, fun htyped => ?_⟩
    obtain ⟨place', hplace, htyped⟩ := htyped _ hvalue
    obtain rfl := Value.obj.inj hplace
    rw [canvasPosition, Fields.get, hvalue, (hsame htyped).1, (hsame htyped).2]
    rfl
  · obtain rfl := Option.some.inj hread
    refine ⟨.int 0, .int 0, rfl, ⟨.int 0, rfl⟩, ⟨.int 0, rfl⟩, fun _ => ?_⟩
    rw [canvasPosition, Fields.get, hnone]
    rfl

/-- **What passes as a node is one**, and is read as it should be. -/
theorem node_eq_ok {value : Value} (h : node F here value = .ok read) :
    ∃ fields fields', value = .obj fields ∧ read = .obj fields' ∧ ReadNode F fields fields' := by
  obtain ⟨fields, reads, rfl, hreads, hkeys, rfl⟩ := hF.model.mp h
  have hkeys := haveTextKeys_read hF wellDeclared_node hreads (hkeys rfl)
  obtain _ | ⟨hatId, _ | ⟨htype, _ | ⟨hposition, _ | ⟨hatData, _ | _⟩⟩⟩⟩ := hreads
  have hidStated := hatId.ifStated hF.settles_text hF.exact_text
  have hdataStated := hatData.ifStated hF.settles_object hF.exact_object
  obtain ⟨id, rfl, hidText, hid⟩ := hatId.settles_required hF.settles_text rfl
  obtain ⟨type, rfl, htypeText, -⟩ := htype.settles hF.settles_text rfl
    ⟨_, rfl, hF.encodes rfl⟩
  obtain ⟨x, y, rfl, hx, hy, hposition⟩ := reads_position hF hposition
  obtain ⟨data, rfl, hdataObject, hdata⟩ := hatData.settles hF.settles_object rfl
    ⟨_, rfl, fun _ hf => absurd hf List.not_mem_nil⟩
  have hplace : IsObjectOf TypedPosition (.obj [("x", x), ("y", y)]) :=
    ⟨_, rfl, Stated.ifStated ⟨x, rfl, hx⟩, Stated.ifStated ⟨y, rfl, hy⟩⟩
  refine ⟨fields, _, rfl, rfl, ⟨hkeys, ⟨id, rfl, hidText⟩, Stated.ifStated ⟨type, rfl, htypeText⟩,
    Stated.ifStated ⟨_, rfl, hplace⟩, Stated.ifStated ⟨data, rfl, hdataObject⟩⟩,
    (hid hidStated).symm, ?_, fun hstated => (hposition hstated).symm⟩
  show data.fieldsOrNone = (Fields.get fields "data").fieldsOrNone
  rw [hdata hdataStated, Fields.get]
  cases Fields.get? fields "data" <;> rfl

/-- **What is read of the data of an edge** are data of an edge. -/
theorem edgeData_eq_ok {value : Value} (h : edgeData F here value = .ok read) :
    ∃ data data', value = .obj data ∧ read = .obj data' ∧ TypedEdgeData F data'
      ∧ Fields.get data' "condition" = Fields.get data "condition"
      ∧ (IfStated (OrNull IsNumber) data "priority" →
        Fields.get data' "priority" = Fields.get data "priority") := by
  have htext := hF.settles_nullable hF.settles_text
  obtain ⟨data, reads, rfl, hreads, hkeys, rfl⟩ := hF.model.mp h
  have hkeys := haveTextKeys_read hF ⟨by simp, by simp [isPlain]⟩ hreads (hkeys rfl)
  obtain _ | ⟨hatCondition, _ | ⟨hatPriority, _ | _⟩⟩ := hreads
  have hstated := hatCondition.ifStated htext fun value => hF.exact_nullable (hF.exact_text value)
  obtain ⟨condition, rfl, hconditionText, hcondition⟩ := hatCondition.settles htext rfl (.inl rfl)
  obtain ⟨priority, rfl, hpriorityNumber, hpriority⟩ :=
    hatPriority.settles (hF.settles_nullable hF.number) rfl (.inl rfl)
  exact ⟨data, _, rfl, rfl, ⟨hkeys, Stated.ifStated ⟨condition, rfl, hconditionText⟩,
    Stated.ifStated ⟨priority, rfl, hpriorityNumber⟩⟩, hcondition hstated, hpriority⟩

/-- What is read of the data of an edge, or put there, are data of an edge,
and say what they did. -/
theorem reads_edgeData {fields : Fields} {pair : Key × Value}
    (h : Field.Reads here fields
      { key := "data", check := edgeData F,
        default := some (.obj [("condition", .null), ("priority", .null)]) } pair) :
    ∃ data, pair = (Key.text "data", .obj data) ∧ TypedEdgeData F data
      ∧ Fields.get data "condition" = Fields.get (dataOf fields) "condition"
      ∧ (IfStated (OrNull IsNumber) (dataOf fields) "priority" →
        Fields.get data "priority" = Fields.get (dataOf fields) "priority") := by
  obtain ⟨read, rfl, ⟨value, hvalue, hread⟩ | ⟨hnone, hread⟩⟩ := h
  · obtain ⟨data, data', rfl, rfl, hdata', hsame⟩ := edgeData_eq_ok hF hread
    have hread : dataOf fields = data := by
      show ((Fields.get? fields "data").getD .null).fieldsOrNone = data
      rw [hvalue]
      rfl
    exact ⟨data', rfl, hdata', hread ▸ hsame⟩
  · obtain rfl := Option.some.inj hread
    refine ⟨_, rfl, ⟨?_, Stated.ifStated ⟨.null, rfl, .inl rfl⟩,
      Stated.ifStated ⟨.null, rfl, .inl rfl⟩⟩, ?_⟩
    · exact List.forall_mem_cons.mpr ⟨⟨_, rfl, hF.encodes rfl⟩,
        List.forall_mem_singleton.mpr ⟨_, rfl, hF.encodes rfl⟩⟩
    · have hread : dataOf fields = [] := by
        show ((Fields.get? fields "data").getD .null).fieldsOrNone = []
        rw [hnone]
        rfl
      rw [hread]
      exact ⟨rfl, fun _ => rfl⟩

/-- **What passes as an edge is one**, and is read as it should be. -/
theorem edge_eq_ok {value : Value} (h : edge F here value = .ok read) :
    ∃ fields fields', value = .obj fields ∧ read = .obj fields' ∧ ReadEdge F fields fields' := by
  have hnullable := hF.settles_nullable hF.settles_text
  obtain ⟨fields, reads, rfl, hreads, hkeys, rfl⟩ := hF.model.mp h
  have hkeys := haveTextKeys_read hF ⟨by simp, by simp [isPlain]⟩ hreads (hkeys rfl)
  obtain _ | ⟨hatId, _ | ⟨hatSource, _ | ⟨hatTarget, _ | ⟨hatLabel, _ | ⟨hatData, _ | _⟩⟩⟩⟩⟩ := hreads
  have hidStated := hatId.ifStated hF.settles_text hF.exact_text
  have hsourceStated := hatSource.ifStated hF.settles_text hF.exact_text
  have htargetStated := hatTarget.ifStated hF.settles_text hF.exact_text
  have hlabelStated := hatLabel.ifStated hnullable fun value => hF.exact_nullable (hF.exact_text value)
  obtain ⟨id, rfl, hidText, hid⟩ :=
    hatId.settles hF.settles_text rfl ⟨_, rfl, hF.encodes rfl⟩
  obtain ⟨source, rfl, hsourceText, hsource⟩ := hatSource.settles_required hF.settles_text rfl
  obtain ⟨target, rfl, htargetText, htarget⟩ := hatTarget.settles_required hF.settles_text rfl
  obtain ⟨label, rfl, hlabelText, hlabel⟩ := hatLabel.settles hnullable rfl (.inl rfl)
  obtain ⟨data, rfl, hdataTyped, hcondition, hpriority⟩ := reads_edgeData hF hatData
  refine ⟨fields, _, rfl, rfl, ⟨hkeys, Stated.ifStated ⟨id, rfl, hidText⟩,
    ⟨source, rfl, hsourceText⟩, ⟨target, rfl, htargetText⟩,
    Stated.ifStated ⟨label, rfl, hlabelText⟩, Stated.ifStated ⟨_, rfl, ⟨data, rfl, hdataTyped⟩⟩⟩,
    ?_, fun hnumber => ?_⟩
  · -- an edge without an id is called by the empty text, and so is one that gets it
    show id.idText = (Fields.get fields "id").idText
    rw [hid hidStated, Fields.get]
    cases Fields.get? fields "id" <;> rfl
  · exact ⟨(hsource hsourceStated).symm, (htarget htargetStated).symm, hcondition,
      hpriority hnumber, fun _ => hlabel hlabelStated⟩

/-- What is read of a list, or put there, are its items. -/
theorem reads_listOf {key : String} {check : Check} {fields : Fields} {pair : Key × Value}
    (h : Field.Reads here fields
      { key := key, check := F.listOf check, default := some (.list []) } pair) :
    ∃ items reads, (Fields.get fields key).elementsOrNone = .ok items
      ∧ pair = (Key.text key, .list reads)
      ∧ List.Forall₂ (fun item value => ∃ here, check here item = .ok value) items reads := by
  obtain ⟨read, rfl, ⟨value, hvalue, hread⟩ | ⟨hnone, hread⟩⟩ := h
  · obtain ⟨items, reads, rfl, rfl, hall⟩ := hF.listOf_eq_ok hread
    refine ⟨items, reads, ?_, rfl, hall⟩
    rw [Fields.get, hvalue]
    cases items <;> rfl
  · obtain rfl := Option.some.inj hread
    refine ⟨[], [], ?_, rfl, .nil⟩
    rw [Fields.get, hnone]
    rfl

end Read

end Schema

/-! ## Graphs as they were sent -/

/-- Whether a node is one as it was sent, in all that is read of it. -/
structure SentNode (node node' : Fields) : Prop where
  /-- It states the id. -/
  id : Fields.get node' "id" = Fields.get node "id"
  /-- It has the data. -/
  data : dataOf node' = dataOf node
  /-- It is at the place. -/
  place : canvasPosition node' = canvasPosition node

/-- Whether an edge is one as it was sent, in all that is read of it. -/
structure SentEdge (edge edge' : Fields) : Prop extends SameEdge edge edge' where
  /-- It has the id. -/
  id : idOf edge' = idOf edge

/-- **Whether a graph is one as it was sent**, in all that is read of it. -/
def SentAs (graph graph' : Value) : Prop :=
  ∃ nodes nodes' edges edges',
    (nodesOf graph = .ok (nodes.map .obj) ∧ edgesOf graph = .ok (edges.map .obj))
    ∧ (nodesOf graph' = .ok (nodes'.map .obj) ∧ edgesOf graph' = .ok (edges'.map .obj))
    ∧ List.Forall₂ SentNode nodes nodes' ∧ List.Forall₂ SentEdge edges edges'

namespace SentAs

variable {graph graph' : Value} (h : SentAs graph graph')

include h

/-- **A graph is saved as it was sent.** -/
theorem saveGraph_eq (settings : Settings) (request : SaveRequest) :
    saveGraph settings request graph' = saveGraph settings request graph := by
  obtain ⟨nodes, nodes', edges, edges', ⟨hns, hes⟩, ⟨hns', hes'⟩, hnodes, hedges⟩ := h
  refine saveGraph_congr_lists hns hns' hes hes' (fun id => ?_) ?_
  · rw [objectsAmong_map_obj, objectsAmong_map_obj]
    exact outgoing_of_sameEdge (hedges.imp fun _ _ hedge => hedge.toSameEdge) id
  · simp only [objectsAmong_map_obj]
    refine hnodes.imp fun node node' hnode => saveNode_congr ?_ ?_ ?_ fun _ => hnode.place
    · rw [savedId, savedId, hnode.id, hnode.data]
    · rw [hnode.data]
      exact .refl _
    · rw [hnode.data]

end SentAs

end CallFlow
