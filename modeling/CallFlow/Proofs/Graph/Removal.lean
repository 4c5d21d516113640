import CallFlow.Proofs.Config.Likeness
import CallFlow.Proofs.Graph.Consistency
import CallFlow.Proofs.Graph.Synchronisation

/-!
# What removing a node takes along

Removing a node leaves out its edges, those that start from it and those that
lead to it, and with the latter the items that other nodes list for them. In a
graph in agreement nothing else is lost (`deleteNode_removes`): the nodes and
edges that are left keep their order, an edge is never changed, and a node is
changed only if an edge from it led to the one that is removed.

The scope is read off the edges there were, and the lists off those that are
left. That the two fit together is the point: a node outside the scope says of
itself what it said before (`outgoing_edgesWithout_of_apart`), and one inside it
has an edge fewer than its list has items, so that its list is made anew and not
only looked at (`isStale_edgesWithout`).
-/

namespace CallFlow

/-! ## Edges and items that lead to a node -/

/-- Whether an item of a list of transitions leads to the node of an id. -/
def leadsTo (id : String) : Value → Bool
  | .obj item => Fields.get item "target" = .str id
  | _ => false

/-- The edges that neither start from the node of an id nor lead to it. -/
def edgesWithout (id : String) (edges : List Fields) : List Fields :=
  edges.filter fun e => sourceOf e ≠ id && targetOf e ≠ id

theorem leadsTo_of_restates {t : Transition} {item : Value} (h : restates t.toItem item = true)
    (id : String) : leadsTo id item = decide (t.target = id) := by
  obtain ⟨fields, rfl, _, htarget, _⟩ := restates_toItem_iff.mp h
  rw [leadsTo, htarget]
  exact decide_eq_decide.mpr ⟨Value.str.inj, congrArg Value.str⟩

@[simp] theorem leadsTo_toItem (id : String) (t : Transition) :
    leadsTo id t.toItem = decide (t.target = id) := by
  simp [leadsTo, Transition.toItem, Fields.get, Fields.get?]

section Without

variable {edges : List Fields} {id : String}

/-- **A node is left with those of its transitions that lead elsewhere.** -/
theorem outgoing_edgesWithout {owner : String} (howner : owner ≠ id) (edges : List Fields) :
    outgoing (edgesWithout id edges) owner
      = (outgoing edges owner).filter fun t => t.target ≠ id := by
  rw [outgoing, edgesWithout, outgoing, List.filter_map, List.filter_filter, List.filter_filter]
  refine congrArg (List.map Transition.ofEdge) (List.filter_congr fun e _ => ?_)
  by_cases hsource : sourceOf e = owner
  · rw [hsource, decide_eq_true howner, decide_eq_true rfl, Bool.true_and, Bool.and_true,
      Bool.true_and]
    rfl
  · simp [hsource]

theorem target_ne_of_mem_outgoing {owner : String} {t : Transition}
    (h : t ∈ outgoing (edgesWithout id edges) owner) : t.target ≠ id := by
  obtain ⟨edge, hedge, rfl⟩ := List.mem_map.mp h
  have hends := (List.mem_filter.mp (List.mem_of_mem_filter hedge)).2
  exact of_decide_eq_true (Bool.and_eq_true_iff.mp hends).2

/-- A node none of whose edges leads there is left with all its transitions. -/
theorem outgoing_edgesWithout_of_apart {owner : String} (howner : owner ≠ id)
    (hapart : ∀ edge ∈ edges, sourceOf edge = owner → targetOf edge ≠ id) :
    outgoing (edgesWithout id edges) owner = outgoing edges owner := by
  rw [outgoing_edgesWithout howner, List.filter_eq_self]
  intro t ht
  obtain ⟨edge, hedge, rfl⟩ := List.mem_map.mp ht
  obtain ⟨hmem, hsource⟩ := List.mem_filter.mp hedge
  exact decide_eq_true (hapart edge hmem (of_decide_eq_true hsource))

theorem hasUndefinedPriority_edgesWithout {node : Fields} (howner : idOf node ≠ id)
    (h : hasUndefinedPriority edges node = false) :
    hasUndefinedPriority (edgesWithout id edges) node = false := by
  rw [hasUndefinedPriority, outgoing_edgesWithout howner]
  rw [hasUndefinedPriority, List.any_eq_false] at h
  exact List.any_eq_false.mpr fun t ht => h t (List.mem_of_mem_filter ht)

/-- **What is left of a list that is a copy** is a copy of the edges that are
left. -/
theorem forall₂_filter_leadsTo {node : Fields} (howner : idOf node ≠ id) {items : List Value}
    (h : List.Forall₂ (fun t item => restates t.toItem item = true)
      (outgoing edges (idOf node)) items) :
    List.Forall₂ (fun t item => restates t.toItem item = true)
      (outgoing (edgesWithout id edges) (idOf node))
      (items.filter fun item => !leadsTo id item) := by
  rw [outgoing_edgesWithout howner]
  refine List.rel_filter (fun t item hrestates => ?_) h
  dsimp only
  rw [leadsTo_of_restates hrestates]
  simp

/-- **The list of a node is stale once an edge from it is left out.** -/
theorem isStale_edgesWithout {node : Fields} (howner : idOf node ≠ id)
    (hcopies : Copies edges node) {edge : Fields} (hedge : edge ∈ edges)
    (hsource : sourceOf edge = idOf node) (htarget : targetOf edge = id) :
    isStale (edgesWithout id edges) node = true := by
  by_contra hfresh
  obtain ⟨hleft, _⟩ := (isStale_eq_false_iff (isCountable_of_copies hcopies)).mp
    (Bool.eq_false_iff.mpr hfresh)
  obtain ⟨items, hitems, hall⟩ := hcopies
  obtain ⟨items', hitems', hall'⟩ := hleft
  obtain rfl := Value.list.inj (hitems.symm.trans hitems')
  -- the list would restate both, but there is an edge fewer
  have hmem : Transition.ofEdge edge ∈ outgoing edges (idOf node) :=
    List.mem_map_of_mem (List.mem_filter.mpr ⟨hedge, decide_eq_true hsource⟩)
  have hlt : (outgoing (edgesWithout id edges) (idOf node)).length
      < (outgoing edges (idOf node)).length := by
    rw [outgoing_edgesWithout howner, List.length_filter_lt_length_iff_exists]
    exact ⟨_, hmem, fun hne => of_decide_eq_true hne htarget⟩
  rw [hall.length_eq, hall'.length_eq] at hlt
  exact Nat.lt_irrefl _ hlt

end Without

/-! ## What becomes of the other nodes -/

/-- **What becomes of a node when another one is removed.** If no edge from it
led there it is left alone. Otherwise it lists what it listed before, in the same
order, without the items that led there. -/
inductive Detached (edges : List Fields) (id : String) (node : Fields) : Fields → Prop
  /-- It is left alone. -/
  | untouched {items : List Value}
    (hedges : ∀ edge ∈ edges, sourceOf edge = idOf node → targetOf edge ≠ id)
    (hitems : cachedTransitions (dataOf node) = .list items)
    (hnone : ∀ item ∈ items, leadsTo id item = false) : Detached edges id node node
  /-- It is given a list without the items that led there. -/
  | relisted {items kept : List Value}
    (hedge : ∃ edge ∈ edges, sourceOf edge = idOf node ∧ targetOf edge = id)
    (hitems : cachedTransitions (dataOf node) = .list items)
    (hkept : transitionsAgree (.list kept) (.list (items.filter fun item => !leadsTo id item))
      = .ok true)
    (hnone : ∀ item ∈ kept, leadsTo id item = false) :
    Detached edges id node (withTransitions node kept)

theorem Detached.idOf_eq {edges : List Fields} {id : String} {node node' : Fields}
    (h : Detached edges id node node') : idOf node' = idOf node := by
  cases h with
  | untouched => rfl
  | relisted => exact idOf_withTransitions node _

/-- The nodes from which an edge led to the node of an id, but not that node
itself. -/
def sourcesInto (id : String) (edges : List Fields) : List String :=
  ((edges.filter fun e => targetOf e = id).map sourceOf).filter fun s => s ≠ id

/-- A node is among them if an edge from it led there. -/
theorem mem_sourcesInto {edges : List Fields} {id owner : String} (howner : owner ≠ id) :
    owner ∈ sourcesInto id edges
      ↔ ∃ edge ∈ edges, sourceOf edge = owner ∧ targetOf edge = id := by
  rw [sourcesInto, List.mem_filter, List.mem_map]
  constructor
  · rintro ⟨⟨edge, hedge, rfl⟩, _⟩
    obtain ⟨hmem, htarget⟩ := List.mem_filter.mp hedge
    exact ⟨edge, hmem, rfl, of_decide_eq_true htarget⟩
  · rintro ⟨edge, hmem, rfl, htarget⟩
    exact ⟨⟨edge, List.mem_filter.mpr ⟨hmem, decide_eq_true htarget⟩, rfl⟩,
      decide_eq_true howner⟩

section Node

variable {edges : List Fields} {id : String} {node : Fields} (howner : idOf node ≠ id)
  (hcopies : Copies edges node)

include howner hcopies

/-- **A node is detached by being brought into agreement** with the edges that
are left. -/
theorem detached_resynced (hdefined : hasUndefinedPriority edges node = false) :
    Detached edges id node
      (resynced (edgesWithout id edges) (some (sourcesInto id edges)) node) := by
  have hlisted := hcopies
  obtain ⟨items, hitems, hall⟩ := hlisted
  by_cases hin : idOf node ∈ sourcesInto id edges
  · have hled := (mem_sourcesInto howner).mp hin
    obtain ⟨edge, hedge, hsource, htarget⟩ := hled
    have hreported : isReported (edgesWithout id edges) (some (sourcesInto id edges)) node
        = true := by
      rw [isReported, isStale_edgesWithout howner hcopies hedge hsource htarget, Bool.and_true]
      exact List.contains_iff_mem.mpr hin
    rw [resynced, if_pos hreported]
    refine .relisted ⟨edge, hedge, hsource, htarget⟩ hitems ?_ fun item hitem => ?_
    · have hkept := forall₂_filter_leadsTo howner hall
      have hnone : ((outgoing (edgesWithout id edges) (idOf node)).any
          fun t => t.priority.isUndefined) = false :=
        hasUndefinedPriority_edgesWithout howner hdefined
      rw [transitionsAgree_list, zip_all_sameTransition hkept, List.length_map, hkept.length_eq,
        decide_eq_true rfl, hnone]
      rfl
    · obtain ⟨t, ht, rfl⟩ := List.mem_map.mp hitem
      rw [leadsTo_toItem]
      exact decide_eq_false (target_ne_of_mem_outgoing ht)
  · have hapart : ∀ edge ∈ edges, sourceOf edge = idOf node → targetOf edge ≠ id :=
      fun edge hedge hsource htarget =>
        hin ((mem_sourcesInto howner).mpr ⟨edge, hedge, hsource, htarget⟩)
    have hout : isReported (edgesWithout id edges) (some (sourcesInto id edges)) node
        = false := by
      rw [isReported, inScope, List.contains_eq_mem, decide_eq_false hin, Bool.false_and]
    rw [resynced_of_not_isReported hout]
    refine .untouched hapart hitems fun item hitem => ?_
    obtain ⟨t, ht, hrestates⟩ := exists_of_mem_right hall hitem
    rw [← outgoing_edgesWithout_of_apart howner hapart] at ht
    rw [leadsTo_of_restates hrestates]
    exact decide_eq_false (target_ne_of_mem_outgoing ht)

/-- Its list is a copy of the edges that are left. -/
theorem copies_resynced_edgesWithout
    (hpriorities : ∀ edge ∈ edges, (Transition.ofEdge edge).priority.wellFormed = true) :
    Copies (edgesWithout id edges)
      (resynced (edgesWithout id edges) (some (sourcesInto id edges)) node) := by
  have hread : isReadable (some (sourcesInto id edges)) node = true := by
    rw [isReadable, isCountable_of_copies hcopies, Bool.or_true]
  refine (syncedTo_resynced hread).copies
    (fun edge hedge => hpriorities edge (List.mem_of_mem_filter hedge)) fun hout => ?_
  refine hcopies.congr rfl rfl (outgoing_edgesWithout_of_apart howner
    fun edge hedge hsource htarget => ?_)
  rw [inScope, List.contains_eq_mem, decide_eq_false_iff_not, mem_sourcesInto howner] at hout
  exact hout ⟨edge, hedge, hsource, htarget⟩

end Node

/-! ## The graph that is left -/

variable {document : Value} {nodes edges : List Fields}

/-- **Removing a node is bringing the nodes into agreement from which an edge led
to it**, in the graph that is left. -/
theorem deleteNode_eq (hg : Holds document nodes edges) (id : String) :
    deleteNode document (.str id)
      = Revision.rebuilt <$> (Graph.ofObjects (nodes.filter fun n => idOf n ≠ id)
          (edgesWithout id edges)).sync (some (sourcesInto id edges)) := by
  rw [deleteNode, hg.nodesOf_eq, hg.edgesOf_eq]
  simp only [Outcome.ok_bind, objects_map_obj, ne_eq, Value.str.injEq]
  rfl

/-- **Removing a node from a graph in agreement** meets no fault. The other nodes
are left, in their order, and the edges that neither start from it nor lead to
it; an item of a list is left out if it led there, and nothing else is changed.
The graph that is left is in agreement. -/
theorem deleteNode_removes (hdocument : document.wellFormed = true)
    (hg : Holds document nodes edges)
    (hsynced : ∃ synced, sync document none = .ok synced ∧ synced.updated = [])
    (id : String) :
    ∃ nodes' synced,
      deleteNode document (.str id)
        = .ok (.rebuilt (Graph.ofObjects nodes' (edgesWithout id edges)))
      ∧ List.Forall₂ (Detached edges id) (nodes.filter fun node => idOf node ≠ id) nodes'
      ∧ sync (Graph.ofObjects nodes' (edgesWithout id edges)).toValue none = .ok synced
      ∧ synced.updated = [] := by
  obtain ⟨before, hbefore, hnone⟩ := hsynced
  have hsettled : ∀ node ∈ nodes.filter fun node => idOf node ≠ id, idOf node ≠ id
      ∧ Copies edges node ∧ hasUndefinedPriority edges node = false := fun node hnode =>
    ⟨of_decide_eq_true (List.mem_filter.mp hnode).2,
      settled_of_sync hg hbefore hnone node (List.mem_of_mem_filter hnode)⟩
  generalize hleft : nodes.filter (fun node => idOf node ≠ id) = left at hsettled ⊢
  have hreadable : left.all (isReadable (some (sourcesInto id edges))) = true :=
    List.all_eq_true.mpr fun node hnode => by
      rw [isReadable, isCountable_of_copies (hsettled node hnode).2.1, Bool.or_true]
  have hcopies : ∀ node' ∈
      left.map (resynced (edgesWithout id edges) (some (sourcesInto id edges))),
      Copies (edgesWithout id edges) node' := by
    intro node' hnode'
    obtain ⟨node, hnode, rfl⟩ := List.mem_map.mp hnode'
    exact copies_resynced_edgesWithout (hsettled node hnode).1 (hsettled node hnode).2.1
      (hg.wellFormed_priorities hdocument)
  obtain ⟨synced, hsync, hupdated, _⟩ := sync_of_copies hcopies
  refine ⟨_, synced, ?_, ?_, hsync, ?_⟩
  · rw [deleteNode_eq hg, hleft, Graph.sync_ofObjects, if_pos hreadable]
    rfl
  · rw [List.forall₂_map_right_iff, List.forall₂_same]
    exact fun node hnode => detached_resynced (hsettled node hnode).1 (hsettled node hnode).2.1
      (hsettled node hnode).2.2
  · rw [hupdated, List.map_eq_nil_iff, List.filter_eq_nil_iff]
    intro node' hnode'
    obtain ⟨node, hnode, rfl⟩ := List.mem_map.mp hnode'
    rw [hasUndefinedPriority, idOf_resynced, ← hasUndefinedPriority,
      hasUndefinedPriority_edgesWithout (hsettled node hnode).1 (hsettled node hnode).2.2]
    exact Bool.false_ne_true

/-- A node that goes on to some others, whatever happens. -/
def goingTo (id : String) (targets : List String) : Fields :=
  [("id", .str id), ("data", .obj [("transitions",
    .list (targets.map fun t => (Transition.mk defaultCondition t defaultPriority).toItem))])]

/-- The edge from a node to one it goes on to. -/
def edgeTo (id source target : String) : Fields :=
  (Transition.mk defaultCondition target defaultPriority).toEdge id (.str source)

/-- Two nodes that go on to each other, one of them twice, and to themselves. -/
def roundabout : Value :=
  (Graph.ofObjects [goingTo "a" ["b", "a", "b"], goingTo "b" ["a", "b"]]
    [edgeTo "0" "a" "b", edgeTo "1" "b" "a", edgeTo "2" "a" "a", edgeTo "3" "b" "b",
      edgeTo "4" "a" "b"]).toValue

/-- Of the node that goes on to the other one twice, the edge to itself is left. -/
theorem deleteNode_removes_roundabout :
    ∃ nodes' synced, deleteNode roundabout (.str "b")
        = .ok (.rebuilt (Graph.ofObjects nodes' [edgeTo "2" "a" "a"]))
      ∧ nodes'.map idOf = ["a"]
      ∧ sync (Graph.ofObjects nodes' [edgeTo "2" "a" "a"]).toValue none = .ok synced
      ∧ synced.updated = [] := by
  have hsync : Synced.updated <$> sync roundabout none = .ok [] := by decide +kernel
  obtain ⟨nodes', synced, hdelete, hall, hafter, hnone⟩ := deleteNode_removes
    (by decide +kernel) (holds_toValue _ _) (Outcome.map_eq_ok.mp hsync) "b"
  exact ⟨nodes', synced, hdelete, map_eq_map_of_forall₂ (hall.imp fun _ _ h => h.idOf_eq),
    hafter, hnone⟩

end CallFlow
