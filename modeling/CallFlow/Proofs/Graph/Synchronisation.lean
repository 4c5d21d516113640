import CallFlow.Proofs.Graph.Revisions

/-!
# What bringing a graph into agreement settles

Bringing a graph into agreement is done node by node, and what becomes of a
node is known beforehand (`resynced`): if it is in scope and its list is stale,
it is given what the edges say, and otherwise it is left alone. Neither its id
nor the edges are touched, so that the nodes do not see one another. Hence it is
all the same in how many rounds a scope is gone through and in which order
(`resync_resync`), and a second round has nothing to do.

It does report something for one kind of node. A priority that is no number
compares unequal to itself, so a node one of whose edges has it is stale
whatever its list says. Such a node is given the same list once more
(`isReported_resynced`).

A list that cannot be counted is a fault, and it is one in whichever round the
node is looked at. A node is left countable if it was (`isCountable_resynced`),
so that the rounds agree on whether there is a fault, too.
-/

namespace CallFlow

/-! ## What becomes of one node -/

/-- Whether the list in a node's data can be counted. Comparing it takes no
more. -/
def isCountable (node : Fields) : Bool :=
  match cachedTransitions (dataOf node) with
  | .list _ | .str _ | .obj _ => true
  | _ => false

/-- Whether the list in a node's data compares unequal to what the edges say. -/
def isStale (edges : List Fields) (node : Fields) : Bool :=
  decide (nodeAgrees (edges.map Value.obj) node = .ok false)

/-- **Comparing a node takes a list that can be counted**, and nothing else. -/
theorem nodeAgrees_eq (edges : List Fields) (node : Fields) :
    nodeAgrees (edges.map Value.obj) node
      = if isCountable node then .ok (!isStale edges node) else .error .wrongKind := by
  have hread : (isCountable node = true
        ∧ ∃ agrees, nodeAgrees (edges.map Value.obj) node = .ok agrees)
      ∨ (isCountable node = false
        ∧ nodeAgrees (edges.map Value.obj) node = .error .wrongKind) := by
    rw [nodeAgrees_map_obj, transitionsAgree, isCountable]
    cases cachedTransitions (dataOf node) with
    | list | str | obj =>
      refine .inl ⟨rfl, ?_⟩
      simp only [Value.size, Value.elements, Outcome.ok_bind]
      split <;> exact ⟨_, rfl⟩
    | _ => exact .inr ⟨rfl, rfl⟩
  rcases hread with ⟨hcount, agrees, hagrees⟩ | ⟨hcount, hfault⟩
  · rw [if_pos hcount, isStale, hagrees]
    cases agrees <;> rfl
  · rw [hcount, hfault]
    rfl

theorem isCountable_of_copies {edges : List Fields} {node : Fields} (h : Copies edges node) :
    isCountable node = true := by
  obtain ⟨items, hitems, _⟩ := h
  rw [isCountable, hitems]

theorem isStale_of_copies {edges : List Fields} {node : Fields} (h : Copies edges node) :
    isStale edges node = hasUndefinedPriority edges node := by
  rw [isStale, nodeAgrees_of_copies h]
  cases hasUndefinedPriority edges node <;> rfl

/-- **A list is not stale if it is a copy**, and no priority of the node is a
number that is none. -/
theorem isStale_eq_false_iff {edges : List Fields} {node : Fields}
    (hcount : isCountable node = true) :
    isStale edges node = false
      ↔ Copies edges node ∧ hasUndefinedPriority edges node = false := by
  constructor
  · intro hfresh
    have hagrees : nodeAgrees (edges.map Value.obj) node = .ok true := by
      rw [nodeAgrees_eq, if_pos hcount, hfresh]
      rfl
    have hcopies := copies_of_nodeAgrees hagrees
    exact ⟨hcopies, by rwa [← isStale_of_copies hcopies]⟩
  · rintro ⟨hcopies, hdefined⟩
    rw [isStale_of_copies hcopies, hdefined]

theorem isCountable_of_isStale {edges : List Fields} {node : Fields}
    (h : isStale edges node = true) : isCountable node = true := by
  by_contra hcount
  rw [isStale, nodeAgrees_eq, if_neg hcount] at h
  cases h

theorem isCountable_withTransitions (node : Fields) (items : List Value) :
    isCountable (withTransitions node items) = true := by
  rw [isCountable, dataOf_withTransitions, cachedTransitions, Fields.get_put_self]
  cases items <;> rfl

section Nodes

variable (edges : List Fields) (scope : Option (List String)) (node : Fields)

/-- Whether a node is reported as one that was changed. -/
def isReported : Bool := inScope scope (idOf node) && isStale edges node

/-- Whether a node is no obstacle to bringing a scope into agreement. -/
def isReadable : Bool := !inScope scope (idOf node) || isCountable node

/-- **What becomes of a node** where a scope is brought into agreement: if it is
reported, its data list what the edges say, and else it is what it was. -/
def resynced : Fields :=
  if isReported edges scope node then
    withTransitions node ((outgoing edges (idOf node)).map Transition.toItem)
  else node

/-- What is done to a node, and what is reported of it. -/
theorem syncInScope_eq :
    syncInScope edges scope node
      = if isReadable scope node then
          .ok (resynced edges scope node,
            if isReported edges scope node then some (idOf node) else none)
        else .error .wrongKind := by
  rw [syncInScope, isReadable, resynced, isReported]
  cases inScope scope (idOf node) with
  | false => rfl
  | true =>
    rw [if_pos rfl, syncNode, nodeAgrees_eq, project_map_obj]
    cases isCountable node with
    | false => rfl
    | true => cases isStale edges node <;> rfl

theorem relisted_resynced : Relisted node (resynced edges scope node) := by
  unfold resynced
  split
  · exact .inr ⟨_, rfl⟩
  · exact .inl rfl

@[simp] theorem idOf_resynced : idOf (resynced edges scope node) = idOf node :=
  (relisted_resynced edges scope node).idOf_eq

@[simp] theorem isCountable_resynced :
    isCountable (resynced edges scope node) = isCountable node := by
  unfold resynced
  split
  next h =>
    rw [isCountable_withTransitions, isCountable_of_isStale (Bool.and_eq_true_iff.mp h).2]
  next => rfl

@[simp] theorem isReadable_resynced (other : Option (List String)) :
    isReadable other (resynced edges scope node) = isReadable other node := by
  rw [isReadable, idOf_resynced, isCountable_resynced, isReadable]

variable {edges scope node}

theorem syncedTo_resynced (hread : isReadable scope node = true) :
    SyncedTo edges scope node (resynced edges scope node) :=
  ⟨_, by rw [syncInScope_eq, if_pos hread]⟩

/-- The list of a node in scope is a copy once it was brought into agreement. -/
theorem copies_resynced (hscope : inScope scope (idOf node) = true)
    (hcount : isCountable node = true)
    (hpriorities : ∀ t ∈ outgoing edges (idOf node), t.priority.wellFormed = true) :
    Copies edges (resynced edges scope node) := by
  rw [resynced, isReported, hscope, Bool.true_and]
  cases hstale : isStale edges node with
  | true => exact copies_withTransitions node hpriorities
  | false => exact ((isStale_eq_false_iff hcount).mp hstale).1

theorem resynced_of_not_isReported (h : isReported edges scope node = false) :
    resynced edges scope node = node := by
  rw [resynced, if_neg (by simpa using h)]

section Union

variable {other union : Option (List String)}
  (hunion : inScope union (idOf node)
    = (inScope scope (idOf node) || inScope other (idOf node)))

include hunion

theorem isReadable_union :
    isReadable union node = (isReadable scope node && isReadable other node) := by
  rw [isReadable, hunion, isReadable, isReadable]
  cases inScope scope (idOf node) <;> cases inScope other (idOf node) <;> simp

/-- A node is reported for two scopes together if it is reported for the first,
or for the second after it. -/
theorem isReported_union :
    isReported edges union node
      = (isReported edges scope node || isReported edges other (resynced edges scope node)) := by
  cases h : isReported edges scope node with
  | true =>
    obtain ⟨hscope, hstale⟩ := Bool.and_eq_true_iff.mp h
    rw [isReported, hunion, hscope, hstale]
    rfl
  | false =>
    rw [resynced_of_not_isReported h, isReported, hunion, Bool.and_or_distrib_right]
    exact congrArg (· || isReported edges other node) h

/-- **A node is brought into agreement with two scopes one after the other** as
with both together. -/
theorem resynced_resynced :
    resynced edges other (resynced edges scope node) = resynced edges union node := by
  cases h : isReported edges scope node with
  | true =>
    -- the second round either does nothing or writes the same list again
    have hboth : isReported edges union node = true := by rw [isReported_union hunion, h]; rfl
    have hfirst : resynced edges scope node
        = withTransitions node ((outgoing edges (idOf node)).map Transition.toItem) := by
      rw [resynced, if_pos h]
    rw [resynced, idOf_resynced, hfirst, resynced, if_pos hboth, withTransitions_withTransitions,
      ite_self]
  | false =>
    have hboth : isReported edges union node = isReported edges other node := by
      rw [isReported_union hunion, h, resynced_of_not_isReported h, Bool.false_or]
    rw [resynced_of_not_isReported h, resynced, resynced, hboth]

end Union

/-- **What is reported of a node for the second time**: a priority that is a
number that is none. -/
theorem isReported_resynced
    (hpriorities : ∀ edge ∈ edges, (Transition.ofEdge edge).priority.wellFormed = true)
    (hread : isReadable scope node = true) :
    isReported edges scope (resynced edges scope node)
      = (inScope scope (idOf node) && hasUndefinedPriority edges node) := by
  rw [isReported, idOf_resynced]
  cases hscope : inScope scope (idOf node) with
  | false => rfl
  | true =>
    have hcopies : Copies edges (resynced edges scope node) :=
      (syncedTo_resynced hread).copies hpriorities
        fun hout => absurd (hout.symm.trans hscope) Bool.false_ne_true
    rw [isStale_of_copies hcopies, hasUndefinedPriority, idOf_resynced, hasUndefinedPriority]

end Nodes

/-! ## Nodes one by one -/

section Documents

variable {document : Value} {nodes edges : List Fields}

/-- What is reported, node by node, are the ids of the nodes that are. -/
theorem flatMap_reported (edges : List Fields) (scope : Option (List String))
    (nodes : List Fields) :
    (nodes.flatMap fun node =>
        (if isReported edges scope node then some (idOf node) else none).toList)
      = (nodes.filter (isReported edges scope)).map idOf := by
  induction nodes with
  | nil => rfl
  | cons node rest ih =>
    rw [List.flatMap_cons, ih, List.filter_cons]
    cases isReported edges scope node <;> rfl

/-- **Nodes are brought into agreement unless one of them is an obstacle.** -/
theorem syncNodes_eq (edges : List Fields) (scope : Option (List String)) (nodes : List Fields) :
    syncNodes (edges.map Value.obj) scope (nodes.map Value.obj)
      = if nodes.all (isReadable scope) then
          .ok ((nodes.map (resynced edges scope)).map Value.obj,
            (nodes.filter (isReported edges scope)).map idOf)
        else .error .wrongKind := by
  have hdone : nodes.mapM (syncInScope edges scope)
      = if nodes.all (isReadable scope) then
          .ok (nodes.map fun node => (resynced edges scope node,
            if isReported edges scope node then some (idOf node) else none))
        else .error .wrongKind := by
    induction nodes with
    | nil => rfl
    | cons node rest ih =>
      rw [List.mapM_cons, syncInScope_eq, ih, List.all_cons]
      cases isReadable scope node <;> cases rest.all (isReadable scope) <;> rfl
  rw [syncNodes_map_obj, hdone]
  cases nodes.all (isReadable scope) with
  | false => rfl
  | true =>
    refine congrArg Except.ok (Prod.ext ?_ ?_)
    · simp only [List.map_map]
      rfl
    · dsimp only
      rw [List.flatMap_map]
      exact flatMap_reported edges scope nodes

theorem Graph.sync_ofObjects (nodes edges : List Fields) (scope : Option (List String)) :
    (Graph.ofObjects nodes edges).sync scope
      = if nodes.all (isReadable scope) then
          .ok (Graph.ofObjects (nodes.map (resynced edges scope)) edges)
        else .error .wrongKind := by
  rw [Graph.sync, Graph.ofObjects, syncNodes_eq]
  cases nodes.all (isReadable scope) <;> rfl

theorem Graph.sync_nil (nodes edges : List Fields) :
    (Graph.ofObjects nodes edges).sync (some []) = .ok (Graph.ofObjects nodes edges) := by
  have hreadable : nodes.all (isReadable (some [])) = true :=
    List.all_eq_true.mpr fun _ _ => rfl
  have hkept : nodes.map (resynced edges (some [])) = nodes := List.map_id nodes
  rw [sync_ofObjects, hkept, if_pos hreadable]

/-- A scope, handed in as the collection of its ids. -/
def scopeOf (ids : List String) : Value := .list (ids.map Value.str)

/-- What bringing a graph document into agreement hands back: a graph built
anew if a node is reported, and else the document as it may be kept. -/
def resyncedGraph (unchanged : Revision) (nodes edges : List Fields)
    (scope : Option (List String)) : Revision :=
  if nodes.any (isReported edges scope) then
    .rebuilt (Graph.ofObjects (nodes.map (resynced edges scope)) edges)
  else unchanged

/-- **What bringing a graph document into agreement comes to.** -/
theorem sync_eq (hg : Holds document nodes edges) {unchanged : Revision}
    (hunchanged : Revision.unchanged document = .ok unchanged) (scope : Option (List String)) :
    sync document (scope.map scopeOf)
      = if nodes.all (isReadable scope) then
          .ok ⟨resyncedGraph unchanged nodes edges scope,
            (nodes.filter (isReported edges scope)).map idOf⟩
        else .error .wrongKind := by
  have hscope : sync document (scope.map scopeOf) = (do
      let synced ← syncNodes (edges.map Value.obj) scope (nodes.map Value.obj)
      if synced.2.isEmpty then return ⟨← Revision.unchanged document, []⟩
      else return ⟨.rebuilt ⟨synced.1, edges.map Value.obj⟩, synced.2⟩) := by
    rw [sync, hg.edgesOf_eq, hg.nodesOf_eq, Outcome.ok_bind]
    cases scope with
    | none => rfl
    | some ids =>
      rw [Option.map_some]
      dsimp only
      rw [scopeOf, idSet_map_str]
      rfl
  rw [hscope, syncNodes_eq, hunchanged, resyncedGraph]
  cases nodes.all (isReadable scope) with
  | false => rfl
  | true =>
    cases hreported : nodes.any (isReported edges scope) with
    | true =>
      have hsome : ((nodes.filter (isReported edges scope)).map idOf).isEmpty = false := by
        simpa using hreported
      rw [if_pos rfl, Outcome.ok_bind]
      dsimp only
      rw [hsome]
      rfl
    | false =>
      have hnone : (nodes.filter (isReported edges scope)).map idOf = [] := by
        simpa using hreported
      rw [if_pos rfl, Outcome.ok_bind, hnone]
      rfl

/-- What is handed back where bringing a graph document into agreement meets no
fault. -/
theorem sync_eq_ok (hg : Holds document nodes edges) {unchanged : Revision}
    (hunchanged : Revision.unchanged document = .ok unchanged) {scope : Option (List String)}
    {synced : Synced} (h : sync document (scope.map scopeOf) = .ok synced) :
    nodes.all (isReadable scope) = true
      ∧ synced = ⟨resyncedGraph unchanged nodes edges scope,
          (nodes.filter (isReported edges scope)).map idOf⟩
      ∧ (synced.updated = [] → synced.revision = unchanged) := by
  rw [sync_eq hg hunchanged] at h
  split at h
  next hreadable =>
    obtain rfl := Except.ok.inj h
    refine ⟨hreadable, rfl, fun hnone => ?_⟩
    have hany : nodes.any (isReported edges scope) = false := by simpa using hnone
    dsimp only
    rw [resyncedGraph, hany]
    rfl
  next => cases h

/-- **A graph whose lists are all copies is in agreement**: what is reported
are the nodes from which an edge has a priority that is no number. Where
there is none, the graph is kept as it is. -/
theorem sync_of_copies (h : ∀ node ∈ nodes, Copies edges node) :
    ∃ synced, sync (Graph.ofObjects nodes edges).toValue none = .ok synced
      ∧ synced.updated = (nodes.filter (hasUndefinedPriority edges)).map idOf
      ∧ (synced.updated = [] → synced.revision = .kept) := by
  have hreadable : nodes.all (isReadable none) = true := List.all_eq_true.mpr fun node hnode => by
    rw [isReadable, isCountable_of_copies (h node hnode), Bool.or_true]
  have hreported : nodes.filter (isReported edges none)
      = nodes.filter (hasUndefinedPriority edges) := List.filter_congr fun node hnode => by
    rw [isReported, isStale_of_copies (h node hnode), inScope, Bool.true_and]
  have hsync := (sync_eq (holds_toValue nodes edges) rfl none).trans (if_pos hreadable)
  obtain ⟨_, _, hkept⟩ := sync_eq_ok (holds_toValue nodes edges) rfl hsync
  exact ⟨_, hsync, congrArg (List.map idOf) hreported, hkept⟩

/-- **The lists of a graph in agreement are copies**, and no priority of a node
is a number that is none. -/
theorem settled_of_sync (hg : Holds document nodes edges) {synced : Synced}
    (h : sync document none = .ok synced) (hnone : synced.updated = []) :
    ∀ node ∈ nodes, Copies edges node ∧ hasUndefinedPriority edges node = false := by
  obtain ⟨unchanged, hunchanged⟩ := hg.exists_unchanged
  obtain ⟨hreadable, rfl, _⟩ := @sync_eq_ok _ _ _ hg _ hunchanged none _ h
  intro node hnode
  have hfresh : isStale edges node = false := by
    simpa [isReported, inScope] using
      List.filter_eq_nil_iff.mp (List.map_eq_nil_iff.mp hnone) node hnode
  exact (isStale_eq_false_iff (List.all_eq_true.mp hreadable node hnode)).mp hfresh

theorem copies_of_sync (hg : Holds document nodes edges) {synced : Synced}
    (h : sync document none = .ok synced) (hnone : synced.updated = []) :
    ∀ node ∈ nodes, Copies edges node :=
  fun node hnode => (settled_of_sync hg h hnone node hnode).1

theorem map_resynced_of_none {scope : Option (List String)}
    (h : nodes.any (isReported edges scope) = false) :
    nodes.map (resynced edges scope) = nodes := by
  refine (List.map_congr_left fun node hnode => resynced_of_not_isReported ?_).trans
    (List.map_id nodes)
  simpa using List.any_eq_false.mp h node hnode

/-- What is handed back holds the nodes as they were brought into agreement. -/
theorem resyncedGraph_comesTo (hg : Holds document nodes edges) {unchanged : Revision}
    (hunchanged : Revision.unchanged document = .ok unchanged) (scope : Option (List String)) :
    (resyncedGraph unchanged nodes edges scope).ComesTo document
      (nodes.map (resynced edges scope)) edges := by
  cases h : nodes.any (isReported edges scope) with
  | true =>
    rw [resyncedGraph, if_pos h]
    exact .rebuilt
  | false =>
    rw [resyncedGraph, h, map_resynced_of_none h]
    exact .unchanged hg hunchanged

/-- What is handed back is kept as it is from then on. -/
theorem unchanged_resyncedGraph {unchanged : Revision}
    (hunchanged : Revision.unchanged document = .ok unchanged) (scope : Option (List String)) :
    Revision.unchanged ((resyncedGraph unchanged nodes edges scope).apply document)
      = .ok .kept := by
  unfold resyncedGraph
  split
  · rfl
  · exact unchanged_of_kept hunchanged

/-! ## In how many rounds -/

/-- The document after a scope was brought into agreement. -/
def resync (scope : Option (List String)) (document : Value) : Outcome Value := do
  return (← sync document (scope.map scopeOf)).revision.apply document

/-- The document that is left after a round. -/
theorem resync_eq (hg : Holds document nodes edges) {unchanged : Revision}
    (hunchanged : Revision.unchanged document = .ok unchanged) (scope : Option (List String)) :
    resync scope document
      = if nodes.all (isReadable scope) then
          .ok ((resyncedGraph unchanged nodes edges scope).apply document)
        else .error .wrongKind := by
  rw [resync, sync_eq hg hunchanged]
  cases nodes.all (isReadable scope) <;> rfl

/-- What two rounds leave is what one round with both scopes leaves. -/
theorem apply_resyncedGraph (unchanged : Revision) {scope other union : Option (List String)}
    (hunion : ∀ node ∈ nodes,
      inScope union (idOf node) = (inScope scope (idOf node) || inScope other (idOf node))) :
    (resyncedGraph .kept (nodes.map (resynced edges scope)) edges other).apply
        ((resyncedGraph unchanged nodes edges scope).apply document)
      = (resyncedGraph unchanged nodes edges union).apply document := by
  have hreported : nodes.any (isReported edges union)
      = (nodes.any (isReported edges scope)
        || (nodes.map (resynced edges scope)).any (isReported edges other)) := by
    rw [Bool.eq_iff_iff]
    simp only [Bool.or_eq_true, List.any_map, List.any_eq_true]
    rw [← exists_or]
    refine exists_congr fun node => ?_
    rw [← and_or_left]
    refine and_congr_right fun hnode => ?_
    rw [isReported_union (hunion node hnode), Bool.or_eq_true, Function.comp_apply]
  have hnodes : (nodes.map (resynced edges scope)).map (resynced edges other)
      = nodes.map (resynced edges union) := by
    rw [List.map_map]
    exact List.map_congr_left fun node hnode => resynced_resynced (hunion node hnode)
  unfold resyncedGraph
  rw [hreported, ← hnodes]
  cases hsecond : (nodes.map (resynced edges scope)).any (isReported edges other) with
  | true => rw [Bool.or_true]; rfl
  | false =>
    rw [map_resynced_of_none hsecond, Bool.or_false]
    cases nodes.any (isReported edges scope) <;> rfl

/-- **Two rounds come to what one round with both scopes comes to**, fault or
document. -/
theorem resync_resync (hg : Holds document nodes edges)
    {scope other union : Option (List String)}
    (hunion : ∀ node ∈ nodes,
      inScope union (idOf node) = (inScope scope (idOf node) || inScope other (idOf node))) :
    (resync scope document >>= resync other) = resync union document := by
  obtain ⟨unchanged, hunchanged⟩ := hg.exists_unchanged
  have hreadable : nodes.all (isReadable union)
      = (nodes.all (isReadable scope) && nodes.all (isReadable other)) := by
    rw [Bool.eq_iff_iff]
    simp only [Bool.and_eq_true, List.all_eq_true]
    rw [← forall₂_and]
    refine forall₂_congr fun node hnode => ?_
    rw [isReadable_union (hunion node hnode), Bool.and_eq_true]
  have hafter : (nodes.map (resynced edges scope)).all (isReadable other)
      = nodes.all (isReadable other) := by
    rw [List.all_map]
    exact congrArg nodes.all (funext fun node => isReadable_resynced edges scope node other)
  rw [resync_eq hg hunchanged, resync_eq hg hunchanged, hreadable]
  cases nodes.all (isReadable scope) with
  | false => rfl
  | true =>
    rw [if_pos rfl, Outcome.ok_bind, resync_eq (resyncedGraph_comesTo hg hunchanged scope).holds
      (unchanged_resyncedGraph hunchanged scope), hafter, apply_resyncedGraph unchanged hunion,
      Bool.true_and]

/-- Scopes that have the same nodes are brought into agreement alike. -/
theorem sync_congr (hg : Holds document nodes edges) {scope other : Option (List String)}
    (hsame : ∀ node ∈ nodes, inScope scope (idOf node) = inScope other (idOf node)) :
    sync document (scope.map scopeOf) = sync document (other.map scopeOf) := by
  obtain ⟨unchanged, hunchanged⟩ := hg.exists_unchanged
  have hreported : ∀ node ∈ nodes, isReported edges scope node = isReported edges other node :=
    fun node hnode => by rw [isReported, hsame node hnode, isReported]
  have hreadable : ∀ node ∈ nodes, isReadable scope node = isReadable other node :=
    fun node hnode => by rw [isReadable, hsame node hnode, isReadable]
  have hresynced : nodes.map (resynced edges scope) = nodes.map (resynced edges other) :=
    List.map_congr_left fun node hnode => by rw [resynced, hreported node hnode, resynced]
  rw [sync_eq hg hunchanged, sync_eq hg hunchanged, resyncedGraph, resyncedGraph, hresynced,
    List.filter_congr hreported]
  have hall : nodes.all (isReadable scope) = nodes.all (isReadable other) := by
    rw [Bool.eq_iff_iff, List.all_eq_true, List.all_eq_true]
    exact forall₂_congr fun node hnode => by rw [hreadable node hnode]
  have hany : nodes.any (isReported edges scope) = nodes.any (isReported edges other) := by
    rw [Bool.eq_iff_iff, List.any_eq_true, List.any_eq_true]
    exact exists_congr fun node => and_congr_right fun hnode => by rw [hreported node hnode]
  rw [hall, hany]

/-- **A second round reports the nodes of which a priority is a number that is
none**, and changes nothing. -/
theorem sync_again (hdocument : document.wellFormed = true) (hg : Holds document nodes edges)
    {scope : Option (List String)} {synced : Synced}
    (h : sync document (scope.map scopeOf) = .ok synced) :
    ∃ again, sync (synced.revision.apply document) (scope.map scopeOf) = .ok again
      ∧ again.updated = (nodes.filter fun node =>
          inScope scope (idOf node) && hasUndefinedPriority edges node).map idOf
      ∧ again.revision.apply (synced.revision.apply document) = synced.revision.apply document
      ∧ (again.updated = [] → again.revision = .kept) := by
  obtain ⟨unchanged, hunchanged⟩ := hg.exists_unchanged
  obtain ⟨hreadable, rfl, _⟩ := sync_eq_ok hg hunchanged h
  have hround : (resync scope document >>= resync scope) = resync scope document :=
    resync_resync hg fun node _ => (Bool.or_self _).symm
  rw [resync_eq hg hunchanged, if_pos hreadable, Outcome.ok_bind] at hround
  obtain ⟨again, hagain, hsame⟩ := Outcome.bind_eq_ok.mp hround
  obtain ⟨_, rfl, hkept⟩ := sync_eq_ok (resyncedGraph_comesTo hg hunchanged scope).holds
    (unchanged_resyncedGraph hunchanged scope) hagain
  refine ⟨_, hagain, ?_, Except.ok.inj hsame, hkept⟩
  dsimp only
  rw [List.filter_map, List.map_map]
  have hreported : ∀ node ∈ nodes, (isReported edges scope ∘ resynced edges scope) node
      = (inScope scope (idOf node) && hasUndefinedPriority edges node) := fun node hnode =>
    isReported_resynced (hg.wellFormed_priorities hdocument)
      (List.all_eq_true.mp hreadable node hnode)
  rw [List.filter_congr hreported]
  exact List.map_congr_left fun node _ => idOf_resynced edges scope node

/-- **Bringing a graph into agreement settles it.** What is reported are the
nodes in scope that are stale, in their order; they are given what the edges
say, and nothing else is changed. A second round changes nothing and keeps the
document, but it reports the nodes of which a priority is a number that is none.
Scopes may be gone through in any order or at once, and the scope of all nodes
is as good as none. -/
theorem sync_settles (hdocument : document.wellFormed = true) (hg : Holds document nodes edges) :
    (∀ scope synced, sync document (scope.map scopeOf) = .ok synced →
        synced.updated = (nodes.filter (isReported edges scope)).map idOf
        ∧ (∀ node ∈ nodes, inScope scope (idOf node) = true → (isStale edges node = false
            ↔ Copies edges node ∧ hasUndefinedPriority edges node = false))
        ∧ Holds (synced.revision.apply document) (nodes.map (resynced edges scope)) edges
        ∧ (synced.updated = [] → Revision.unchanged document = .ok synced.revision)
        ∧ ∃ again, sync (synced.revision.apply document) (scope.map scopeOf) = .ok again
          ∧ again.updated = (nodes.filter fun node =>
              inScope scope (idOf node) && hasUndefinedPriority edges node).map idOf
          ∧ again.revision.apply (synced.revision.apply document)
              = synced.revision.apply document
          ∧ (again.updated = [] → again.revision = .kept))
    ∧ (∀ S T : List String,
        (resync (some S) document >>= resync (some T)) = resync (some (S ++ T)) document
        ∧ (resync (some T) document >>= resync (some S)) = resync (some (S ++ T)) document)
    ∧ sync document (some (scopeOf (nodes.map idOf))) = sync document none := by
  obtain ⟨unchanged, hunchanged⟩ := hg.exists_unchanged
  refine ⟨fun scope synced hsync => ?_, fun S T => ⟨?_, ?_⟩, ?_⟩
  · have hagain := sync_again hdocument hg hsync
    obtain ⟨hreadable, rfl, hkept⟩ := sync_eq_ok hg hunchanged hsync
    refine ⟨rfl, fun node hnode hscope => isStale_eq_false_iff ?_,
      (resyncedGraph_comesTo hg hunchanged scope).holds, fun hnone => ?_, hagain⟩
    · simpa [isReadable, hscope] using List.all_eq_true.mp hreadable node hnode
    · rw [hkept hnone, hunchanged]
  · exact resync_resync hg fun node _ => by simp [inScope]
  · exact resync_resync hg fun node _ => by simp [inScope, Bool.or_comm]
  · refine @sync_congr _ _ _ hg (some (nodes.map idOf)) none fun node hnode => ?_
    rw [inScope, inScope, List.contains_iff_mem]
    exact List.mem_map_of_mem hnode

end Documents

/-- A graph of one node without data, and an edge from it back to it. -/
def unlistedGraph (priority : Value) : Value :=
  (Graph.ofObjects [[("id", .str "a")]]
    [[("id", .str "a-a-0"), ("source", .str "a"), ("target", .str "a"),
      ("data", .obj [("condition", .str "always"), ("priority", priority)])]]).toValue

/-- The list of the node is made, and then it is there. -/
theorem sync_settles_unlisted :
    ∃ synced again, sync (unlistedGraph (.int 1)) none = .ok synced ∧ synced.updated = ["a"]
      ∧ sync (synced.revision.apply (unlistedGraph (.int 1))) none = .ok again
      ∧ again.updated = [] ∧ again.revision = .kept := by
  have hfirst : Synced.updated <$> sync (unlistedGraph (.int 1)) none = .ok ["a"] := by
    decide +kernel
  obtain ⟨synced, hsynced, hupdated⟩ := Outcome.map_eq_ok.mp hfirst
  obtain ⟨_, _, _, _, again, hagain, hreported, _, hkept⟩ :=
    (sync_settles (by decide +kernel) (holds_toValue _ _)).1 none synced hsynced
  exact ⟨synced, again, hsynced, hupdated, hagain, hreported, hkept hreported⟩

/-- **A priority that is no number is reported every time.** -/
theorem sync_again_undefined :
    ∃ synced again, sync (unlistedGraph (.float Binary.notANumber)) none = .ok synced
      ∧ sync (synced.revision.apply (unlistedGraph (.float Binary.notANumber))) none = .ok again
      ∧ again.updated ≠ [] := by
  have hrounds : (do
      let synced ← sync (unlistedGraph (.float Binary.notANumber)) none
      let again ← sync (synced.revision.apply (unlistedGraph (.float Binary.notANumber))) none
      return again.updated) = Except.ok ["a"] := by decide +kernel
  obtain ⟨synced, hsynced, hrounds⟩ := Outcome.bind_eq_ok.mp hrounds
  obtain ⟨again, hagain, hupdated⟩ := Outcome.bind_eq_ok.mp hrounds
  refine ⟨synced, again, hsynced, hagain, ?_⟩
  rw [Except.ok.inj hupdated]
  exact List.cons_ne_nil _ _

end CallFlow
