import CallFlow.Proofs.Config.Inherited

/-!
# Places on the grid

A node that is loaded without a place gets one on the grid, and that is
computed from what the settings say: numbers are multiplied and added, and so
are texts and sequences. All of that leaves a hereditary property which every
fraction has. So a document that is loaded and saved again, places and all, has
what it had before, if the settings have it
(`Value.Hereditary.saveGraph_loadGraph_of_settings`).
-/

namespace CallFlow

namespace Value.Hereditary

variable {apart : Prop} {P : Value → Prop} (hP : Hereditary apart P) (hfloat : ∀ x, P (.float x))

include hP hfloat

/-! ## Sums and products -/

theorem ofNumber (n : Number) : P (.ofNumber n) := by
  cases n with
  | int n => exact hP.int n
  | float x => exact hfloat x

section Value

variable {value : Value} (h : P value)

include h

omit hfloat in
/-- A text or a sequence that is repeated has what it had. -/
theorem repeated {times : Int} {product : Value} (hproduct : value.repeated times = .ok product) :
    P product := by
  cases value with
  | str s =>
    unfold Value.repeated at hproduct
    dsimp only at hproduct
    split at hproduct
    · cases hproduct
    split at hproduct
    · obtain rfl := Except.ok.inj hproduct
      exact hP.str _
    split at hproduct
    · cases hproduct
    split at hproduct
    · cases hproduct
    · obtain rfl := Except.ok.inj hproduct
      exact hP.str _
  | list items =>
    unfold Value.repeated at hproduct
    dsimp only at hproduct
    split at hproduct
    · cases hproduct
    split at hproduct
    · obtain rfl := Except.ok.inj hproduct
      exact hP.list.mpr nofun
    split at hproduct
    · cases hproduct
    · obtain rfl := Except.ok.inj hproduct
      refine hP.list.mpr fun v hv => ?_
      obtain ⟨copy, hcopy, hv⟩ := List.mem_flatten.mp hv
      exact hP.list.mp h v ((List.mem_replicate.mp hcopy).2 ▸ hv)
  | _ => cases hproduct

theorem timesCount {count : Nat} {product : Value}
    (hproduct : value.timesCount count = .ok product) : P product := by
  unfold Value.timesCount at hproduct
  split at hproduct
  · obtain rfl := Except.ok.inj hproduct
    exact hP.ofNumber hfloat _
  · exact hP.repeated h hproduct

/-- A sum has it if both parts have. -/
theorem plus {other sum : Value} (hother : P other) (hsum : value.plus other = .ok sum) :
    P sum := by
  unfold Value.plus at hsum
  split at hsum
  · obtain rfl := Except.ok.inj hsum
    exact hP.str _
  · obtain rfl := Except.ok.inj hsum
    refine hP.list.mpr fun v hv => ?_
    rcases List.mem_append.mp hv with hv | hv
    · exact hP.list.mp h v hv
    · exact hP.list.mp hother v hv
  · obtain ⟨a, _, hsum⟩ := Outcome.bind_eq_ok.mp hsum
    obtain ⟨b, _, hsum⟩ := Outcome.bind_eq_ok.mp hsum
    obtain ⟨n, _, hsum⟩ := Outcome.bind_eq_ok.mp hsum
    obtain rfl := Except.ok.inj hsum
    exact hP.ofNumber hfloat n

end Value

/-! ## Nodes that are loaded -/

section Loading

variable {settings : Settings}

omit hfloat in
theorem get_settings (h : P settings.toValue) (key : String) :
    P (Fields.get settings.toValue.fieldsOrNone key) :=
  hP.get (hP.fieldsOrNone h) key

theorem cellStart {cell origin start : Value} {place : Nat} (hcell : P cell) (horigin : P origin)
    (h : Grid.cellStart cell origin place = .ok start) : P start := by
  obtain ⟨product, hproduct, h⟩ := Outcome.bind_eq_ok.mp h
  exact hP.plus hfloat (hP.timesCount hfloat hcell hproduct) horigin h

/-- A place on the grid has what the settings have. -/
theorem position (hsettings : P settings.toValue) {index count : Nat} {place : Value}
    (h : Grid.position settings index count = .ok place) : P place := by
  have horigin : P settings.gridOrigin := hP.get_settings hsettings "grid_origin"
  obtain ⟨x, hx, h⟩ := Outcome.bind_eq_ok.mp h
  obtain ⟨y, hy, h⟩ := Outcome.bind_eq_ok.mp h
  obtain rfl := Except.ok.inj h
  exact hP.obj_cons.mpr
    ⟨hP.cellStart hfloat (hP.get_settings hsettings "grid_cell_width") horigin hx,
      hP.obj_cons.mpr
        ⟨hP.cellStart hfloat (hP.get_settings hsettings "grid_cell_height") horigin hy,
          hP.obj_nil⟩⟩

/-- An entry is loaded as a node that has what the entry and the settings have. -/
theorem loadNode (hsettings : P settings.toValue) {total index : Nat} {raw : Fields}
    (hraw : P (.obj raw)) {value : Value} (h : loadNode settings total index raw = .ok value) :
    P value := by
  have hdata : P (.obj (Fields.put raw "type" (CallFlow.kindOf raw))) :=
    hP.put hraw rfl (hP.kindOf hraw)
  have hstored : P (storedPosition raw) := by
    unfold storedPosition
    split
    next hread => exact hread ▸ hP.get (hP.fieldsOrNone (hP.get hraw _)) "position"
    next => exact hP.null
  have hplace : ∃ place, P place ∧ value = .obj (loadedNode raw place) := by
    rw [CallFlow.loadNode] at h
    split at h
    · cases h
    · dsimp only at h
      split at h
      · exact ⟨_, hstored, (Except.ok.inj h).symm⟩
      · obtain ⟨place, hgrid, h⟩ := Outcome.bind_eq_ok.mp h
        exact ⟨place, hP.position hfloat hsettings hgrid, (Except.ok.inj h).symm⟩
  obtain ⟨place, hplace, rfl⟩ := hplace
  exact hP.obj_cons.mpr ⟨hP.str _, hP.obj_cons.mpr ⟨hP.str _, hP.obj_cons.mpr
    ⟨hplace, hP.obj_cons.mpr ⟨hdata, hP.obj_nil⟩⟩⟩⟩

/-- Entries are loaded as nodes that have what the entries and the settings
have. -/
theorem loadNodes (hsettings : P settings.toValue) {total index : Nat} {raws : List Fields}
    (hraws : ∀ raw ∈ raws, P (.obj raw)) {values : List Value}
    (h : loadNodes settings total index raws = .ok values) : ∀ value ∈ values, P value := by
  induction raws generalizing index values with
  | nil =>
    obtain rfl := Except.ok.inj h
    exact fun value hvalue => absurd hvalue List.not_mem_nil
  | cons raw rest ih =>
    obtain ⟨value, hnode, h⟩ := Outcome.bind_eq_ok.mp h
    obtain ⟨values', hrest, h⟩ := Outcome.bind_eq_ok.mp h
    obtain rfl := Except.ok.inj h
    exact List.forall_mem_cons.mpr
      ⟨hP.loadNode hfloat hsettings (hraws raw List.mem_cons_self) hnode,
        ih (fun r hr => hraws r (List.mem_cons_of_mem _ hr)) hrest⟩

/-- **The document a configuration is loaded and saved again as has what the
configuration and the settings have**, whether places are kept or not. -/
theorem saveGraph_loadGraph_of_settings {keepPositions : Bool} {config document : Value} {g : Graph}
    (hconfig : P config) (hsettings : P settings.toValue)
    (hload : loadGraph settings config = .ok g)
    (hsave : CallFlow.saveGraph settings { previous := config, keepPositions := keepPositions }
      g.toValue = .ok document) : P document := by
  refine hP.saveGraph_loadGraph hconfig hload (fun _ node hnode => ?_)
    (hP.get_settings hsettings "default_initial_node") hsave
  obtain ⟨raws, hraws, h⟩ := Outcome.bind_eq_ok.mp hload
  obtain ⟨values, hvalues, h⟩ := Outcome.bind_eq_ok.mp h
  obtain rfl := Except.ok.inj h
  have hnodes := hP.loadNodes hfloat hsettings (hP.sectionNodes hconfig hraws) hvalues
  exact hP.canvasPosition (hnodes _ (mem_objectsAmong.mp hnode))

end Loading

end Value.Hereditary

end CallFlow
