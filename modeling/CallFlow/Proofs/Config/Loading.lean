import CallFlow.Proofs.Config.Settings
import CallFlow.Proofs.Edge.Projection
import CallFlow.Proofs.Graph.Agreement

/-!
# What is loaded

An entry of the workflow section is loaded as a node with the same id, whose
data are the entry with its kind spelt out (`LoadedAs`). On the default grid
nothing but the kind of an entry can keep it from being loaded.

The edges of a node say what its entry lists (`outgoing_loadEdges`). Their
ids are handed out over the whole section, and so no two edges share one
(`nodup_loadEdges`), even where two entries share theirs.
-/

namespace CallFlow

/-! ## The section -/

/-- The section of a well-formed document is well formed. -/
theorem wellFormed_workflowSection {config : Value} (h : config.wellFormed = true) :
    (Value.obj (workflowSection config)).wellFormed = true := by
  have hown : (Value.obj config.fieldsOrNone).wellFormed = true := by
    cases config with
    | obj fields => exact h
    | _ => rfl
  rw [workflowSection]
  cases hwrapped : wrappedSection? config with
  | none => exact hown
  | some inner =>
    have hread := Fields.wellFormed_get (Value.fieldsWellFormed_fieldsOrNone h) sectionKey
    rwa [wrappedSection?_eq_some.mp hwrapped] at hread

/-- The entries of a well-formed document are well formed. -/
theorem wellFormed_of_sectionNodes {config : Value} {raws : List Fields}
    (hwf : config.wellFormed = true) (h : sectionNodes config = .ok raws) :
    ∀ raw ∈ raws, (Value.obj raw).wellFormed = true := by
  obtain ⟨values, hvalues, h⟩ := Outcome.bind_eq_ok.mp h
  obtain rfl := Except.ok.inj h
  have hsection := Value.fieldsWellFormed_fieldsOrNone (wellFormed_workflowSection hwf)
  exact fun raw hraw => Value.wellFormed_of_elementsOrNone
    (Fields.wellFormed_get hsection "nodes") hvalues _ (mem_objectsAmong.mp hraw)

/-! ## Nodes -/

/-- The node an entry is loaded as, at a place. -/
def loadedNode (raw : Fields) (place : Value) : Fields :=
  [("id", .str (idOf raw)), ("type", .str (boxOf (kindOf raw))), ("position", place),
    ("data", .obj (Fields.put raw "type" (kindOf raw)))]

/-- **Whether a node is what an entry is loaded as**: at the place stored
with the entry, where there is one. -/
def LoadedAs (raw node : Fields) : Prop :=
  ∃ place, node = loadedNode raw place
    ∧ ((storedPosition raw).truthy = true → place = storedPosition raw)

theorem kindOf_put_kindOf (raw : Fields) :
    kindOf (Fields.put raw "type" (kindOf raw)) = kindOf raw := by
  rw [kindOf, Fields.get_put_self]
  exact Value.orElse_orElse _ _

namespace LoadedAs

variable {raw node : Fields} (h : LoadedAs raw node)

include h

theorem get_id : Fields.get node "id" = .str (idOf raw) := by
  obtain ⟨place, rfl, _⟩ := h
  simp [loadedNode, Fields.get, Fields.get?]

theorem get_type : Fields.get node "type" = .str (boxOf (kindOf raw)) := by
  obtain ⟨place, rfl, _⟩ := h
  simp [loadedNode, Fields.get, Fields.get?]

theorem idOf_eq : idOf node = idOf raw := by
  rw [idOf, h.get_id, Value.idText_str]

theorem dataOf_eq : dataOf node = Fields.put raw "type" (kindOf raw) := by
  obtain ⟨place, rfl, _⟩ := h
  simp [loadedNode, dataOf, Fields.get, Fields.get?, Value.fieldsOrNone]

theorem get_dataOf {key : Key} (hkey : key ≠ "type") :
    Fields.get (dataOf node) key = Fields.get raw key := by
  rw [h.dataOf_eq, Fields.get_put_of_ne]
  cases hsame : (Key.text "type").same key with
  | false => rfl
  | true => exact absurd (Key.same_text.mp (Key.same_comm _ _ ▸ hsame)) hkey

theorem kindOf_dataOf : kindOf (dataOf node) = kindOf raw := by
  rw [h.dataOf_eq, kindOf_put_kindOf]

theorem position_eq (hstored : (storedPosition raw).truthy = true) :
    Fields.get node "position" = storedPosition raw := by
  obtain ⟨place, rfl, hplace⟩ := h
  rw [← hplace hstored]
  simp [loadedNode, Fields.get, Fields.get?]

theorem savedId_eq : savedId node (dataOf node) = idOf node := by
  have hdata : (Fields.get (dataOf node) "id").idText = idOf raw := by
    rw [h.get_dataOf (by decide), idOf]
  rw [h.idOf_eq, savedId, h.get_id, Value.orElse]
  split
  · rw [Value.idText_str]
  · exact hdata

end LoadedAs

/-- **An entry that is loaded is loaded as a node.** -/
theorem loadedAs_of_loadNode {settings : Settings} {total index : Nat} {raw : Fields}
    {value : Value} (h : loadNode settings total index raw = .ok value) :
    ∃ node, value = .obj node ∧ LoadedAs raw node := by
  rw [loadNode] at h
  split at h
  · cases h
  · dsimp only at h
    split at h
    next hstored =>
      obtain rfl := Except.ok.inj h
      exact ⟨_, rfl, _, rfl, fun _ => rfl⟩
    next hstored =>
      obtain ⟨place, _, h⟩ := Outcome.bind_eq_ok.mp h
      obtain rfl := Except.ok.inj h
      exact ⟨_, rfl, place, rfl, fun hs => absurd hs hstored⟩

/-- An entry is loaded whose kind is an atom, if its place is stored with it
or the grid is the default one. -/
theorem exists_loadNode {settings : Settings} {raw : Fields} (hkind : (kindOf raw).isAtom = true)
    (hplace : settings = .default ∨ (storedPosition raw).truthy = true) (total index : Nat) :
    ∃ value, loadNode settings total index raw = .ok value := by
  rw [loadNode, if_neg (by simp [hkind])]
  dsimp only
  split
  · exact ⟨_, rfl⟩
  next hstored =>
    obtain rfl := hplace.resolve_right hstored
    obtain ⟨place, hgrid⟩ := Grid.position_default index total
    rw [hgrid]
    exact ⟨_, rfl⟩

/-- **Entries are loaded one by one.** -/
theorem loadedAs_of_loadNodes {settings : Settings} {total index : Nat} {raws : List Fields}
    {values : List Value} (h : loadNodes settings total index raws = .ok values) :
    ∃ nodes, values = nodes.map Value.obj ∧ List.Forall₂ LoadedAs raws nodes := by
  induction raws generalizing index values with
  | nil =>
    obtain rfl := Except.ok.inj h
    exact ⟨[], rfl, .nil⟩
  | cons raw rest ih =>
    obtain ⟨value, hnode, h⟩ := Outcome.bind_eq_ok.mp h
    obtain ⟨values', hrest, h⟩ := Outcome.bind_eq_ok.mp h
    obtain rfl := Except.ok.inj h
    obtain ⟨node, rfl, hloaded⟩ := loadedAs_of_loadNode hnode
    obtain ⟨nodes, rfl, hall⟩ := ih hrest
    exact ⟨node :: nodes, rfl, .cons hloaded hall⟩

/-- Entries are loaded where each of them is. -/
theorem exists_loadNodes {settings : Settings} {raws : List Fields}
    (hkinds : ∀ raw ∈ raws, (kindOf raw).isAtom = true)
    (hplaces : settings = .default ∨ ∀ raw ∈ raws, (storedPosition raw).truthy = true)
    (total index : Nat) : ∃ values, loadNodes settings total index raws = .ok values := by
  induction raws generalizing index with
  | nil => exact ⟨[], rfl⟩
  | cons raw rest ih =>
    obtain ⟨value, hvalue⟩ := exists_loadNode (hkinds raw List.mem_cons_self)
      (hplaces.imp_right fun h => h raw List.mem_cons_self) total index
    obtain ⟨values, hvalues⟩ := ih (fun r hr => hkinds r (List.mem_cons_of_mem _ hr))
      (hplaces.imp_right fun h r hr => h r (List.mem_cons_of_mem _ hr)) (index + 1)
    rw [loadNodes, hvalue, Outcome.ok_bind, hvalues]
    exact ⟨_, rfl⟩

theorem isAtom_of_loadNode {settings : Settings} {total index : Nat} {raw : Fields} {value : Value}
    (h : loadNode settings total index raw = .ok value) : (kindOf raw).isAtom = true := by
  by_contra hkind
  rw [loadNode, if_pos (by simpa using hkind)] at h
  cases h

/-- Entries that are loaded have atoms for their kinds. -/
theorem isAtom_of_loadNodes {settings : Settings} {total index : Nat} {raws : List Fields}
    {values : List Value} (h : loadNodes settings total index raws = .ok values) :
    ∀ raw ∈ raws, (kindOf raw).isAtom = true := by
  induction raws generalizing index values with
  | nil => exact fun raw hraw => absurd hraw List.not_mem_nil
  | cons raw rest ih =>
    obtain ⟨value, hnode, h⟩ := Outcome.bind_eq_ok.mp h
    obtain ⟨values', hrest, _⟩ := Outcome.bind_eq_ok.mp h
    exact List.forall_mem_cons.mpr ⟨isAtom_of_loadNode hnode, ih hrest⟩

/-- **What is loaded**: a node for every entry, and the edges the entries
list. -/
theorem loadGraph_eq_ok {settings : Settings} {config : Value} {g : Graph}
    (h : loadGraph settings config = .ok g) :
    ∃ raws nodes, sectionNodes config = .ok raws
      ∧ g = Graph.ofObjects nodes (loadEdges raws (some []))
      ∧ List.Forall₂ LoadedAs raws nodes := by
  obtain ⟨raws, hraws, h⟩ := Outcome.bind_eq_ok.mp h
  obtain ⟨values, hvalues, h⟩ := Outcome.bind_eq_ok.mp h
  obtain rfl := Except.ok.inj h
  obtain ⟨nodes, rfl, hall⟩ := loadedAs_of_loadNodes hvalues
  exact ⟨raws, nodes, hraws, rfl, hall⟩

/-- **Loading meets no fault** where every kind is an atom, and every place
is stored or the grid is the default one. -/
theorem exists_loadGraph {settings : Settings} {config : Value} {raws : List Fields}
    (hraws : sectionNodes config = .ok raws) (hkinds : ∀ raw ∈ raws, (kindOf raw).isAtom = true)
    (hplaces : settings = .default ∨ ∀ raw ∈ raws, (storedPosition raw).truthy = true) :
    ∃ g, loadGraph settings config = .ok g := by
  obtain ⟨values, hvalues⟩ := exists_loadNodes hkinds hplaces raws.length 0
  rw [loadGraph, hraws, Outcome.ok_bind, hvalues]
  exact ⟨_, rfl⟩

theorem isAtom_of_loadGraph {settings : Settings} {config : Value} {g : Graph} {raws : List Fields}
    (h : loadGraph settings config = .ok g) (hraws : sectionNodes config = .ok raws) :
    ∀ raw ∈ raws, (kindOf raw).isAtom = true := by
  rw [loadGraph, hraws, Outcome.ok_bind] at h
  obtain ⟨values, hvalues, _⟩ := Outcome.bind_eq_ok.mp h
  exact isAtom_of_loadNodes hvalues

/-- **What is loaded on any grid is loaded on the default one.** -/
theorem exists_loadGraph_default {settings : Settings} {config : Value} {g : Graph}
    (h : loadGraph settings config = .ok g) : ∃ g', loadGraph .default config = .ok g' := by
  obtain ⟨raws, _, hraws, _⟩ := loadGraph_eq_ok h
  exact exists_loadGraph hraws (isAtom_of_loadGraph h hraws) (.inl rfl)

/-! ## Edges -/

/-- The items a well-formed entry lists are well formed. -/
theorem wellFormed_transitionItems {raw : Fields} (h : fieldsWellFormed raw = true) :
    ∀ item ∈ transitionItems raw, item.wellFormed = true := by
  intro item hitem
  have hlist := Fields.wellFormed_get h "transitions"
  unfold transitionItems at hitem
  split at hitem
  next items hread =>
    rw [hread] at hlist
    exact Value.wellFormed_list.mp hlist item hitem
  next => exact absurd hitem List.not_mem_nil

/-- The transitions an entry lists. -/
def statedTransitions (raw : Fields) : List Transition :=
  (objectsAmong (transitionItems raw)).map Transition.ofItem

section Edges

variable (raws : List Fields)

theorem loadEdges_cons (raw : Fields) (rest : List Fields) (taken : Option (List String)) :
    loadEdges (raw :: rest) taken
      = (edgesFrom (.str (idOf raw)) 0 (transitionItems raw) taken).1
        ++ loadEdges rest (edgesFrom (.str (idOf raw)) 0 (transitionItems raw) taken).2 := rfl

/-- **The edges of a section have different ids**, none of which was taken. -/
theorem nodup_loadEdges (taken : List String) :
    ((loadEdges raws (some taken)).map idOf).Nodup
      ∧ ∀ id ∈ (loadEdges raws (some taken)).map idOf, id ∉ taken := by
  -- what the induction carries is the list of taken ids: it grows by those of each entry
  induction raws generalizing taken with
  | nil => exact ⟨List.nodup_nil, fun id hid => absurd hid List.not_mem_nil⟩
  | cons raw rest ih =>
    obtain ⟨hnodup, hfree⟩ := nodup_edgesFrom (.str (idOf raw)) 0 (transitionItems raw) taken
    have htaken := edgesFrom_snd (.str (idOf raw)) 0 (transitionItems raw) taken
    rw [loadEdges_cons, htaken]
    generalize (edgesFrom (.str (idOf raw)) 0 (transitionItems raw) (some taken)).1 = edges
      at hnodup hfree
    obtain ⟨hnodup', hfree'⟩ := ih ((edges.map idOf).reverse ++ taken)
    rw [List.map_append]
    refine ⟨List.nodup_append.mpr ⟨hnodup, hnodup', fun a ha b hb hab => ?_⟩, fun id hid => ?_⟩
    · exact hfree' b hb (List.mem_append_left _ (List.mem_reverse.mpr (hab ▸ ha)))
    · rcases List.mem_append.mp hid with hid | hid
      · exact hfree id hid
      · exact fun hmem => hfree' id hid (List.mem_append_right _ hmem)

/-- An edge of a section was written from an item some entry lists, and
starts from that entry. -/
theorem exists_toEdge_of_mem_loadEdges (taken : Option (List String)) {edge : Fields}
    (h : edge ∈ loadEdges raws taken) :
    ∃ raw ∈ raws, ∃ id, ∃ item ∈ objectsAmong (transitionItems raw),
      edge = (Transition.ofItem item).toEdge id (.str (idOf raw)) := by
  induction raws generalizing taken with
  | nil => cases h
  | cons raw rest ih =>
    rcases List.mem_append.mp h with h | h
    · obtain ⟨id, item, hitem, rfl⟩ := exists_toEdge_of_mem_edgesFrom _ _ _ _ h
      exact ⟨raw, List.mem_cons_self, id, item, hitem, rfl⟩
    · obtain ⟨raw', hraw', hedge⟩ := ih _ h
      exact ⟨raw', List.mem_cons_of_mem _ hraw', hedge⟩

theorem sourceOf_mem_of_mem_loadEdges (taken : Option (List String)) {edge : Fields}
    (h : edge ∈ loadEdges raws taken) : sourceOf edge ∈ raws.map idOf := by
  obtain ⟨raw, hraw, id, item, _, rfl⟩ := exists_toEdge_of_mem_loadEdges raws taken h
  rw [sourceOf_toEdge, Value.idText_str]
  exact List.mem_map_of_mem hraw

/-- **The edges from an id say what the entries of that id list.** -/
theorem outgoing_loadEdges (taken : Option (List String)) (id : String) :
    outgoing (loadEdges raws taken) id
      = (raws.filter fun raw => idOf raw = id).flatMap statedTransitions := by
  induction raws generalizing taken with
  | nil => rfl
  | cons raw rest ih =>
    have hfrom : ∀ e ∈ (edgesFrom (.str (idOf raw)) 0 (transitionItems raw) taken).1,
        sourceOf e = idOf raw := by
      intro e he
      obtain ⟨id, item, _, rfl⟩ := exists_toEdge_of_mem_edgesFrom _ _ _ _ he
      rw [sourceOf_toEdge, Value.idText_str]
    rw [loadEdges_cons, outgoing_append, ih, List.filter_cons]
    -- the edges of an entry all start from its id, so the node notices all of them or none
    by_cases hid : idOf raw = id
    · rw [if_pos (by simpa using hid), List.flatMap_cons,
        outgoing_eq_map fun e he => (hfrom e he).trans hid, map_ofEdge_edgesFrom]
      rfl
    · rw [if_neg (by simpa using hid),
        outgoing_eq_nil fun e he heq => hid ((hfrom e he).symm.trans heq), List.nil_append]

variable {raws}

/-- Where no two elements share an id, only one has a given id. -/
theorem filter_idOf_eq (hids : (raws.map idOf).Nodup) {raw : Fields} (hraw : raw ∈ raws) :
    (raws.filter fun r => idOf r = idOf raw) = [raw] := by
  induction raws with
  | nil => cases hraw
  | cons r rest ih =>
    rw [List.map_cons, List.nodup_cons] at hids
    rcases List.mem_cons.mp hraw with rfl | hmem
    · have hrest : (rest.filter fun r => idOf r = idOf raw) = [] := by
        rw [List.filter_eq_nil_iff]
        intro r hr heq
        rw [decide_eq_true_eq] at heq
        exact hids.1 (heq ▸ List.mem_map_of_mem hr)
      rw [List.filter_cons, if_pos (by simp), hrest]
    · have hne : idOf r ≠ idOf raw := fun heq => hids.1 (heq ▸ List.mem_map_of_mem hmem)
      rw [List.filter_cons, if_neg (by simpa using hne), ih hids.2 hmem]

theorem outgoing_loadEdges_of_nodup (hids : (raws.map idOf).Nodup) (taken : Option (List String))
    {raw : Fields} (hraw : raw ∈ raws) :
    outgoing (loadEdges raws taken) (idOf raw) = statedTransitions raw := by
  rw [outgoing_loadEdges, filter_idOf_eq hids hraw, List.flatMap_singleton]

theorem priority_of_mem_loadEdges (hwf : ∀ raw ∈ raws, fieldsWellFormed raw = true)
    (taken : Option (List String)) {edge : Fields} (h : edge ∈ loadEdges raws taken) :
    (Transition.ofEdge edge).priority.wellFormed = true := by
  obtain ⟨raw, hraw, id, item, hitem, rfl⟩ := exists_toEdge_of_mem_loadEdges raws taken h
  rw [(Transition.settled_ofItem item).ofEdge_toEdge]
  exact wellFormed_priority_ofItem (wellFormed_transitionItems (hwf raw hraw)) hitem

end Edges

end CallFlow
