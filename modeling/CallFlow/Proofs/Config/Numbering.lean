import CallFlow.Proofs.Config.Loading
import CallFlow.Proofs.Edge.Identifier

/-!
# Every item becomes an edge

Loading draws one edge for every object among the transitions an entry lists, in
the order of the entries and of their lists, and says with it what the item says
(`loadGraph_edges`). No two edges share an id.

An id is spelt from the two ends and an ordinal. The ordinal is the place of the
item in its list, items that are no objects included – unless an edge before it
has that id already, because its entry has the same id or because the hyphens of
another spell it too. Then it is the next ordinal behind the place that is free.
Which ids are taken is handed from item to item and from entry to entry, so an
edge is described together with the ids of those before it (`DrawnInTurn`).
-/

namespace CallFlow

/-! ## Items and their edges -/

/-- An item of an entry's list of transitions, with its place in the list. -/
structure ListedItem where
  /-- The id of the entry. -/
  source : String
  /-- How many items come before it. -/
  place : Nat
  /-- The item. -/
  item : Fields

/-- The objects among some items, counted from a place on. -/
def listedFrom (source : String) (place : Nat) (items : List Value) : List ListedItem :=
  (items.zipIdx place).filterMap fun (value, place) =>
    value.object?.map fun item => ⟨source, place, item⟩

/-- The items an entry lists. -/
def listedItems (raw : Fields) : List ListedItem := listedFrom (idOf raw) 0 (transitionItems raw)

namespace ListedItem

/-- The id of the node an item leads to. -/
def target (listed : ListedItem) : String := (Fields.get listed.item "target").idText

/-- The condition of an item, as it is written. -/
def condition (listed : ListedItem) : String :=
  (Fields.get listed.item "condition").textOr defaultCondition

/-- The priority of an item. -/
def priority (listed : ListedItem) : Value :=
  (Fields.get listed.item "priority").orElse defaultPriority

/-- The id an item's edge has with an ordinal. -/
def spell (listed : ListedItem) (ordinal : Nat) : String :=
  EdgeId.spell listed.source listed.target ordinal

end ListedItem

/-- **Whether an edge is drawn from an item**, where some ids are those of earlier
edges. -/
structure DrawnFrom (earlier : List String) (listed : ListedItem) (edge : Fields) : Prop where
  /-- It starts from the entry that lists the item. -/
  source : Fields.get edge "source" = .str listed.source
  /-- It leads where the item leads. -/
  target : Fields.get edge "target" = .str listed.target
  /-- Its label is the condition of the item. -/
  label : Fields.get edge "label" = .str listed.condition
  /-- Its data are the condition and the priority of the item. -/
  data : Fields.get edge "data"
    = .obj [("condition", .str listed.condition), ("priority", listed.priority)]
  /-- Its id is spelt with the place of the item or a later ordinal. Ordinals are
  passed over only where an earlier edge has the id. -/
  ordinal : ∃ k, listed.place ≤ k ∧ Fields.get edge "id" = .str (listed.spell k)
    ∧ (listed.spell listed.place ∉ earlier → k = listed.place)
    ∧ ∀ i, listed.place ≤ i → i < k → listed.spell i ∈ earlier

theorem DrawnFrom.congr {earlier others : List String} {listed : ListedItem} {edge : Fields}
    (h : DrawnFrom earlier listed edge) (hsame : ∀ id, id ∈ earlier ↔ id ∈ others) :
    DrawnFrom others listed edge := by
  obtain ⟨k, hle, hid, hfree, hpassed⟩ := h.ordinal
  exact ⟨h.source, h.target, h.label, h.data, k, hle, hid,
    fun hnew => hfree fun hmem => hnew ((hsame _).mp hmem),
    fun i hi hlt => (hsame _).mp (hpassed i hi hlt)⟩

/-- Whether edges are drawn from items one after the other, each of them where
the ids of those before it are taken. -/
inductive DrawnInTurn : List String → List ListedItem → List Fields → Prop
  /-- No items have no edges. -/
  | nil (taken : List String) : DrawnInTurn taken [] []
  /-- The first edge takes its id from the others. -/
  | cons {taken : List String} {listed : ListedItem} {edge : Fields} {rest : List ListedItem}
      {edges : List Fields} (first : DrawnFrom taken listed edge)
      (others : DrawnInTurn (idOf edge :: taken) rest edges) :
      DrawnInTurn taken (listed :: rest) (edge :: edges)

namespace DrawnInTurn

variable {taken : List String} {listed others : List ListedItem} {edges more : List Fields}

/-- More edges are drawn where the ids of the first ones are taken as well. -/
theorem append (h : DrawnInTurn taken listed edges)
    (h' : DrawnInTurn ((edges.map idOf).reverse ++ taken) others more) :
    DrawnInTurn taken (listed ++ others) (edges ++ more) := by
  induction h with
  | nil => exact h'
  | cons first _ ih =>
    refine .cons first (ih ?_)
    rwa [List.map_cons, List.reverse_cons, List.append_assoc] at h'

theorem length_eq (h : DrawnInTurn taken listed edges) : edges.length = listed.length := by
  induction h with
  | nil => rfl
  | cons _ _ ih => rw [List.length_cons, List.length_cons, ih]

/-- **Each edge is drawn from the item at its place**, where the ids of the edges
before it are taken. -/
theorem exists_drawnFrom (h : DrawnInTurn taken listed edges) {before after : List Fields}
    {edge : Fields} (hsplit : edges = before ++ edge :: after) :
    ∃ item, listed[before.length]? = some item
      ∧ DrawnFrom ((before.map idOf).reverse ++ taken) item edge := by
  induction h generalizing before with
  | nil => simp at hsplit
  | @cons taken item first rest edges hfirst _ ih =>
    cases before with
    | nil =>
      obtain ⟨rfl, _⟩ := List.cons.inj hsplit
      exact ⟨item, rfl, hfirst⟩
    | cons head before =>
      obtain ⟨rfl, hrest⟩ := List.cons.inj hsplit
      obtain ⟨item', hitem', hdrawn⟩ := ih hrest
      refine ⟨item', hitem', ?_⟩
      rwa [List.map_cons, List.reverse_cons, List.append_assoc]

end DrawnInTurn

/-! ## What loading draws -/

/-- An edge that is given the first free id is drawn from its item. -/
theorem drawnFrom_allocate (taken : List String) (listed : ListedItem) :
    DrawnFrom taken listed ((Transition.ofItem listed.item).toEdge
      (EdgeId.allocate taken listed.source listed.target listed.place).1 (.str listed.source)) := by
  obtain ⟨k, hk, hpassed, _⟩ :=
    EdgeId.firstFree_passes taken listed.source listed.target listed.place
  have hspell : ∀ i : Nat, listed.spell (listed.place + i)
      = EdgeId.spell listed.source listed.target (listed.place + i) := by
    intro i
    rw [ListedItem.spell, Int.natCast_add]
  refine ⟨rfl, rfl, rfl, rfl, listed.place + k, Nat.le_add_right _ _, ?_, fun hfree => ?_, ?_⟩
  · rw [hspell, ← hk]
    rfl
  · by_contra hne
    exact hfree (hspell 0 ▸ hpassed 0 (by omega))
  · intro i hle hlt
    obtain ⟨j, rfl⟩ := Nat.exists_eq_add_of_le hle
    rw [hspell]
    exact hpassed j (by omega)

/-- The items of a list are drawn in turn, from an ordinal on. -/
theorem drawnInTurn_edgesFrom (source : String) (ordinal : Nat) (items : List Value)
    (taken : List String) :
    DrawnInTurn taken (listedFrom source ordinal items)
      (edgesFrom (.str source) ordinal items (some taken)).1 := by
  induction items generalizing ordinal taken with
  | nil => exact .nil taken
  | cons item rest ih =>
    cases item with
    | obj fields =>
      have hrest := ih (ordinal + 1) (EdgeId.allocate taken source
        (Transition.ofItem fields).target ordinal).2
      exact .cons (drawnFrom_allocate taken ⟨source, ordinal, fields⟩)
        (by rwa [idOf_toEdge])
    | _ => exact ih (ordinal + 1) taken

theorem drawnInTurn_loadEdges (raws : List Fields) (taken : List String) :
    DrawnInTurn taken (raws.flatMap listedItems) (loadEdges raws (some taken)) := by
  induction raws generalizing taken with
  | nil => exact .nil taken
  | cons raw rest ih =>
    rw [loadEdges_cons, edgesFrom_snd, List.flatMap_cons]
    exact (drawnInTurn_edgesFrom (idOf raw) 0 (transitionItems raw) taken).append (ih _)

/-- **Loading turns every item into an edge**, whichever ids and items there are:

* no two edges share an id,
* there are as many edges as objects among the items of the entries, and
* each edge is drawn from the item at its place, in the order of the entries and
  of their lists; what its ordinal gives way to are the ids of the edges before
  it. -/
theorem loadGraph_edges {settings : Settings} {config : Value} {g : Graph}
    (h : loadGraph settings config = .ok g) :
    ∃ raws edges, sectionNodes config = .ok raws ∧ g.edges = edges.map Value.obj
      ∧ (edges.map idOf).Nodup
      ∧ edges.length = (raws.flatMap listedItems).length
      ∧ ∀ before edge after, edges = before ++ edge :: after →
        ∃ listed, (raws.flatMap listedItems)[before.length]? = some listed
          ∧ DrawnFrom (before.map idOf) listed edge := by
  obtain ⟨raws, nodes, hraws, rfl, _⟩ := loadGraph_eq_ok h
  have hdrawn := drawnInTurn_loadEdges raws []
  refine ⟨raws, _, hraws, rfl, (nodup_loadEdges raws []).1, hdrawn.length_eq, ?_⟩
  intro before edge after hsplit
  obtain ⟨listed, hlisted, hfrom⟩ := hdrawn.exists_drawnFrom hsplit
  exact ⟨listed, hlisted, hfrom.congr fun id => by simp⟩

/-- Entries whose ids and targets spell the same ids, two of them with one id,
and one whose transitions are no list. -/
def hyphenatedEntries : List Fields :=
  [[("id", .str "a-b"), ("transitions", .list [.null, .obj [("target", .str "c")]])],
    [("id", .str "a"), ("transitions", .list [.obj [("target", .str "b-c")],
      .obj [("target", .str "b-c")]])],
    [("id", .str "a"), ("transitions", .bool true)],
    [("id", .str "a"), ("transitions", .list [.obj [("target", .str "b-c")]])]]

/-- A section of these entries, and of one that is no object. -/
def hyphenatedSection : Value :=
  .obj [("nodes", .list (.str "a" :: hyphenatedEntries.map Value.obj))]

/-- Loading these entries gives way to an id that another node spells, and to
those of a node with the same id. -/
theorem loadGraph_edges_hyphenated :
    (loadEdges hyphenatedEntries (some [])).map idOf
      = ["a-b-c-1", "a-b-c-0", "a-b-c-2", "a-b-c-3"]
    ∧ ∃ g, ∃ edges : List Fields, loadGraph .default hyphenatedSection = .ok g
      ∧ g.edges = edges.map Value.obj ∧ (edges.map idOf).Nodup ∧ edges.length = 4 := by
  have hraws : sectionNodes hyphenatedSection = .ok hyphenatedEntries := by decide +kernel
  have hload : ∃ g, loadGraph .default hyphenatedSection = .ok g :=
    exists_loadGraph hraws (by decide +kernel) (.inl rfl)
  obtain ⟨g, hg⟩ := hload
  obtain ⟨raws, edges, hraws', hedges, hnodup, hlength, _⟩ := loadGraph_edges hg
  obtain rfl := Except.ok.inj (hraws.symm.trans hraws')
  have hfour : (hyphenatedEntries.flatMap listedItems).length = 4 := by decide +kernel
  exact ⟨by decide +kernel, g, edges, hg, hedges, hnodup, hlength.trans hfour⟩

end CallFlow
