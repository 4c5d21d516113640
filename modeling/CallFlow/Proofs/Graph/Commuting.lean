import CallFlow.Proofs.Config.Unnoticed
import CallFlow.Proofs.Graph.Relisting

/-!
# Edits of different nodes commute

An edit of a graph is an edit *of one node* if it draws an edge from it, removes
or relabels edges that start from it, replaces its list, or changes fields of
its data (`NodeEdit`). Such an edit keeps the edges of all other nodes as they
are and in their order, and what it makes of the edges and the data of its own
node depends on those edges and data alone (`NodeEdit.Affects`). So two edits of
different nodes may be done in either order (`commute_of_owned`): the nodes come
out the same, with the same lists, the edges say the same of every node, and
the graph is saved as the same document.

The edges themselves come out with other ids and in another order, since the
ordinals of new edges count the edges there are. What must not happen is that
an edge of one node gets the id of an edge of the other one: then an edit that
is aimed at that id would hit the wrong edge. It does not happen because ids
are handed out that nobody has taken, and so it belongs to what an edit leaves
that no two edges share an id.
-/

namespace CallFlow

/-! ## Bringing one node into agreement -/

/-- A node brought into agreement with some transitions. -/
def syncWith (ts : List Transition) (node : Fields) : Outcome Fields := do
  if ← transitionsAgree (.list (ts.map Transition.toItem)) (cachedTransitions (dataOf node)) then
    return node
  else return withTransitions node (ts.map Transition.toItem)

/-- A node in scope is brought into agreement with what the edges say of it, and
with nothing else. -/
theorem SyncedTo.syncWith_eq {edges : List Fields} {scope : List String} {node node' : Fields}
    (h : SyncedTo edges (some scope) node node') (hin : idOf node ∈ scope) :
    syncWith (outgoing edges (idOf node)) node = .ok node' := by
  obtain ⟨updated, h⟩ := h
  rw [syncInScope, inScope, if_pos (List.contains_iff_mem.mpr hin)] at h
  rw [syncWith, ← nodeAgrees_map_obj]
  rcases syncNode_eq_ok h with ⟨hagrees, rfl, -⟩ | ⟨hagrees, rfl, -⟩
  · rw [hagrees]
    rfl
  · rw [hagrees]
    rfl

/-- **What becomes of a node where one node is in scope.** -/
theorem SyncedTo.of_scope {edges : List Fields} {scope : List String} {owner : String}
    {node node' : Fields} (hscope : ∀ id ∈ scope, id = owner) (hin : owner ∈ scope)
    (h : SyncedTo edges (some scope) node node') :
    idOf node' = idOf node
      ∧ if idOf node = owner then syncWith (outgoing edges owner) node = .ok node'
        else node' = node := by
  refine ⟨h.relisted.idOf_eq, ?_⟩
  split
  next hown => exact hown ▸ h.syncWith_eq (hown ▸ hin)
  next hother => exact h.eq_of_not_mem fun hmem => hother (hscope _ hmem)

/-! ## Edits of one node -/

/-- **An edit of one node.** -/
inductive NodeEdit where
  /-- An edge is drawn from it. -/
  | connect (target condition priority : Value)
  /-- Edges that start from it are removed. -/
  | remove (ids : List String)
  /-- An edge that starts from it is relabelled. -/
  | relabel (id : String) (condition priority : Value)
  /-- Its list of transitions is replaced. -/
  | replace (transitions : Value)
  /-- Fields of its data are changed, the list of transitions or others. -/
  | change (updates : Value)

/-- The transition an edge says that is drawn, wherever it starts. -/
def drawnTransition (target condition priority : Value) : Transition :=
  Transition.ofEdge (edgeBetween "" .null target condition priority)

theorem ofEdge_edgeBetween (id : String) (source target condition priority : Value) :
    Transition.ofEdge (edgeBetween id source target condition priority)
      = drawnTransition target condition priority := by
  simp [drawnTransition, Transition.ofEdge, edgeBetween, Fields.get, Fields.get?]

namespace NodeEdit

/-- The edit of a node, made in a graph document. -/
def make (owner : String) (document : Value) : NodeEdit → Outcome Revision
  | connect target condition priority =>
    connectNodes document (.str owner) target condition priority
  | remove ids => removeEdges document (.list (ids.map Value.str))
  | relabel id condition priority => updateEdge document (.str id) condition priority
  | replace transitions => replaceTransitions document (.str owner) transitions
  | change updates => updateNodeData document (.str owner) updates

/-- **Whether an edit is one of a node**: the edges it is aimed at start from
that node. -/
def Owned (edges : List Fields) (owner : String) : NodeEdit → Prop
  | remove ids => ∀ id ∈ ids, ∃ edge ∈ edges, idOf edge = id ∧ sourceOf edge = owner
  | relabel id _ _ => ∃ edge ∈ edges, idOf edge = id ∧ sourceOf edge = owner
  | _ => True

/-- The transitions of the node after an edit, made of the edges that start
from it. -/
def transitionsAfter (owner : String) (own : List Fields) : NodeEdit → Outcome (List Transition)
  | connect target condition priority =>
    .ok (own.map Transition.ofEdge ++ if (Value.str owner).truthy && target.truthy then
      [drawnTransition target condition priority] else [])
  | remove ids => .ok ((own.filter fun e => !ids.contains (idOf e)).map Transition.ofEdge)
  | relabel id condition priority =>
    own.mapM fun e =>
      if idOf e = id then Transition.ofEdge <$> CallFlow.relabel e condition priority
      else .ok (Transition.ofEdge e)
  | replace transitions => do
    return (objectsAmong (← transitions.elements)).map Transition.ofItem
  | change updates => do
    match Fields.get? (← updates.asFields) "transitions" with
    | none => return own.map Transition.ofEdge
    | some transitions =>
      return (objectsAmong (← transitions.elementsOrNone)).map Transition.ofItem

/-- The node after an edit, made of its transitions and what it was. -/
def nodeAfter (owner : String) (ts : List Transition) (node : Fields) : NodeEdit → Outcome Fields
  | connect target _ _ =>
    if (Value.str owner).truthy && target.truthy then syncWith ts node else .ok node
  | remove ids => if ids = [] then .ok node else syncWith ts node
  | relabel _ _ _ => syncWith ts node
  | replace transitions => do
    syncWith ts (withTransitions node ((objectsAmong (← transitions.elements)).map Value.obj))
  | change updates => do
    let stated ← updates.asFields
    let changed ← changeNode node (plainChanges stated)
    match Fields.get? stated "transitions" with
    | none => return changed
    | some transitions =>
      syncWith ts
        (withTransitions changed ((objectsAmong (← transitions.elementsOrNone)).map Value.obj))

/-- **What an edit of one node does, and what it leaves alone.** -/
structure Affects (e : NodeEdit) (owner : String) (nodes edges nodes' edges' : List Fields) :
    Prop where
  /-- The edges of the other nodes are what they were. -/
  others : edges'.filter (fun x => sourceOf x ≠ owner) = edges.filter fun x => sourceOf x ≠ owner
  /-- No two edges share an id. -/
  ids : (edges'.map idOf).Nodup
  /-- The transitions of the node depend on its own edges. -/
  own : e.transitionsAfter owner (edges.filter fun x => sourceOf x = owner) = .ok (outgoing edges' owner)
  /-- So does the node, and the other nodes are what they were. -/
  nodes : List.Forall₂ (fun node node' => idOf node' = idOf node
    ∧ if idOf node = owner then e.nodeAfter owner (outgoing edges' owner) node = .ok node'
      else node' = node) nodes nodes'

section Edits

variable {document : Value} {nodes edges : List Fields} {owner : String} {revision : Revision}

/-- What an edit of one node leaves. -/
def Done (e : NodeEdit) (owner : String) (nodes edges : List Fields) (document : Value) : Prop :=
  ∃ nodes' edges', Holds document nodes' edges' ∧ e.Affects owner nodes edges nodes' edges'

/-- **Drawing an edge is an edit of the node it starts from.** -/
theorem done_connect (hg : Holds document nodes edges) (hids : (edges.map idOf).Nodup)
    {target condition priority : Value}
    (h : connectNodes document (.str owner) target condition priority = .ok revision) :
    (connect target condition priority).Done owner nodes edges (revision.apply document) := by
  obtain ⟨hblank, hcomes⟩ | ⟨hboth, scope, id, hscope, hfresh, nodes', hcomes, hall⟩ :=
    connectNodes_resyncs hg h
  · refine ⟨nodes, edges, hcomes.holds, rfl, hids, ?_,
      List.forall₂_same.mpr fun node _ => ⟨rfl, ?_⟩⟩
    · rw [transitionsAfter, hblank]
      simp [outgoing]
    · rw [nodeAfter, hblank]
      simp
  · obtain rfl := Except.ok.inj hscope
    have hnew : ∀ x ∈ [edgeBetween id (.str owner) target condition priority],
        sourceOf x = owner := by
      intro x hx
      rw [List.mem_singleton.mp hx, sourceOf_edgeBetween, Value.idText_str]
    refine ⟨nodes', _, hcomes.holds, filter_append_own hnew, ?_, ?_,
      hall.imp fun _ _ hsynced => ?_⟩
    · rw [List.map_append, List.map_singleton, idOf_edgeBetween]
      exact hids.append (List.nodup_singleton id) (by simpa using hfresh)
    · rw [transitionsAfter, if_pos hboth, outgoing_append, outgoing_eq_map hnew, List.map_singleton,
        ofEdge_edgeBetween]
      rfl
    · rw [nodeAfter, if_pos hboth]
      exact hsynced.of_scope (fun _ hmem => List.mem_singleton.mp hmem) List.mem_cons_self

/-- An edge with an id that belongs to an edge from a node starts from that
node, since no two edges share an id. -/
theorem sourceOf_eq_of_idOf_eq (hids : (edges.map idOf).Nodup) {id : String}
    (howned : ∃ edge ∈ edges, idOf edge = id ∧ sourceOf edge = owner) :
    ∀ edge ∈ edges, idOf edge = id → sourceOf edge = owner := by
  rintro edge hedge rfl
  obtain ⟨other, hother, hid, hsource⟩ := howned
  rw [List.inj_on_of_nodup_map hids hedge hother hid.symm]
  exact hsource

theorem lastSource_of_owned {id : String} {edge : Fields} (hedge : edge ∈ edges)
    (hid : idOf edge = id) (hsource : ∀ edge ∈ edges, idOf edge = id → sourceOf edge = owner) :
    (lastSource (.str id) edges).toList = [owner] := by
  obtain ⟨last, hmem, hsame, hlast⟩ := exists_lastSource hedge (congrArg Value.str hid)
  rw [hlast, Option.toList_some, hsource last hmem (Value.str.inj hsame)]

/-- **Removing edges that start from a node is an edit of that node.** -/
theorem done_remove (hg : Holds document nodes edges) (hids : (edges.map idOf).Nodup)
    {ids : List String} (howned : (remove ids).Owned edges owner)
    (h : removeEdges document (.list (ids.map Value.str)) = .ok revision) :
    (remove ids).Done owner nodes edges (revision.apply document) := by
  obtain ⟨doomed, hdoomed, nodes', hcomes, hall⟩ := removeEdges_resyncs hg h
  obtain rfl : ids = doomed := Except.ok.inj ((idSet_map_str ids).symm.trans hdoomed)
  have hsource : ∀ edge ∈ edges, idOf edge ∈ ids → sourceOf edge = owner :=
    fun edge hedge hmem => sourceOf_eq_of_idOf_eq hids (howned _ hmem) edge hedge rfl
  refine ⟨nodes', _, hcomes.holds, ?_, hids.sublist (List.filter_sublist.map idOf), ?_,
    hall.imp fun node node' hsynced => ?_⟩
  · rw [List.filter_filter]
    refine List.filter_congr fun edge hedge => ?_
    by_cases hmem : idOf edge ∈ ids
    · simp [hsource edge hedge hmem]
    · simp [hmem]
  · rw [transitionsAfter, outgoing, List.filter_filter, List.filter_filter]
    simp only [Bool.and_comm]
  · rw [nodeAfter]
    by_cases hnone : ids = []
    · have hsame : node' = node := hsynced.eq_of_not_mem (by simp [hnone])
      rw [if_pos hnone, hsame]
      exact ⟨rfl, by simp⟩
    · obtain ⟨id, hid⟩ := List.exists_mem_of_ne_nil ids hnone
      obtain ⟨edge, hedge, rfl, hfrom⟩ := howned id hid
      rw [if_neg hnone]
      refine hsynced.of_scope (fun name hname => ?_) ?_
      · obtain ⟨other, hother, rfl⟩ := List.mem_map.mp hname
        obtain ⟨hother, hmem⟩ := List.mem_filter.mp hother
        exact hsource other hother (List.contains_iff_mem.mp hmem)
      · exact List.mem_map.mpr
          ⟨edge, List.mem_filter.mpr ⟨hedge, List.contains_iff_mem.mpr hid⟩, hfrom⟩

/-- **Relabelling an edge that starts from a node is an edit of that node.** -/
theorem done_relabel (hg : Holds document nodes edges) (hids : (edges.map idOf).Nodup)
    {id : String} {condition priority : Value}
    (howned : (relabel id condition priority).Owned edges owner)
    (h : updateEdge document (.str id) condition priority = .ok revision) :
    (relabel id condition priority).Done owner nodes edges (revision.apply document) := by
  obtain ⟨edges', hrelabelled, nodes', hcomes, hall⟩ := updateEdge_resyncs hg h
  have hsource := sourceOf_eq_of_idOf_eq hids howned
  refine ⟨nodes', edges', hcomes.holds, ?_, ?_, ?_, hall.imp fun node node' hsynced => ?_⟩
  · refine filter_eq_filter_of_forall₂
      (forall₂_imp_of_mem hrelabelled fun edge hedge edge' hto => ?_)
    refine ⟨by rw [hto.sourceOf_eq], fun hother => ?_⟩
    -- an edge of another node has another id
    have hne : Value.str (idOf edge) ≠ .str id :=
      fun hid => of_decide_eq_true hother (hsource edge hedge (Value.str.inj hid))
    rwa [RelabelledTo, if_neg hne] at hto
  · rw [map_eq_map_of_forall₂ (hrelabelled.imp fun _ _ hto => hto.idOf_eq)]
    exact hids
  · rw [transitionsAfter, outgoing, Outcome.mapM_eq_ok, List.forall₂_map_right_iff]
    refine (List.rel_filter (fun edge edge' hto => ?_) hrelabelled).imp fun edge edge' hto => ?_
    · dsimp only
      rw [hto.sourceOf_eq]
    · rw [RelabelledTo] at hto
      simp only [Value.str.injEq] at hto
      split at hto
      next hid => rw [if_pos hid, hto]; rfl
      next hid => rw [if_neg hid, hto]
  · obtain ⟨edge, hedge, hid, _⟩ := howned
    rw [lastSource_of_owned hedge hid hsource] at hsynced
    exact hsynced.of_scope (fun _ hmem => List.mem_singleton.mp hmem) List.mem_cons_self

/-- A node that is listed anew and brought into agreement is so with the list. -/
theorem syncWith_of_listedAs {items : List Value} {node node' : Fields}
    (h : SyncedTo edges (some [owner]) (listedAs owner items node) node') :
    idOf node' = idOf node
      ∧ if idOf node = owner then
          syncWith (outgoing edges owner) (withTransitions node items) = .ok node'
        else node' = node := by
  have hid : idOf (listedAs owner items node) = idOf node := (relisted_listedAs _ _ _).idOf_eq
  obtain ⟨hsame, hnode⟩ :=
    h.of_scope (fun _ hmem => List.mem_singleton.mp hmem) List.mem_cons_self
  refine ⟨hsame.trans hid, ?_⟩
  rw [hid, listedAs] at hnode
  split
  next hown => rwa [if_pos hown, if_pos hown] at hnode
  next hother => rwa [if_neg hother, if_neg hother] at hnode

/-- **Replacing the list of a node is an edit of that node.** -/
theorem done_replace (hg : Holds document nodes edges) (hids : (edges.map idOf).Nodup)
    (howner : owner ∈ nodes.map idOf) {transitions : Value}
    (h : replaceTransitions document (.str owner) transitions = .ok revision) :
    (replace transitions).Done owner nodes edges (revision.apply document) := by
  obtain ⟨hmissing, _⟩ | ⟨name, elements, hname, _, helements, nodes', hcomes, hall⟩ :=
    replaceTransitions_resyncs hg h
  · obtain ⟨node, hnode, rfl⟩ := List.mem_map.mp howner
    exact absurd rfl (hmissing node hnode)
  · obtain rfl := Value.str.inj hname
    obtain ⟨hothers, hnodup, hown⟩ :=
      relistedEdges_spec owner hids ((objectsAmong elements).map Value.obj)
    refine ⟨nodes', _, hcomes.holds, hothers, hnodup, ?_,
      (List.forall₂_map_left_iff.mp hall).imp fun node node' hsynced => ?_⟩
    · rw [transitionsAfter, helements, hown, objectsAmong_map_obj]
      rfl
    · rw [nodeAfter, helements]
      exact syncWith_of_listedAs hsynced

/-- **Changing fields of a node is an edit of that node.** -/
theorem done_change (hg : Holds document nodes edges) (hids : (edges.map idOf).Nodup)
    (howner : owner ∈ nodes.map idOf) {updates : Value}
    (h : updateNodeData document (.str owner) updates = .ok revision) :
    (change updates).Done owner nodes edges (revision.apply document) := by
  obtain ⟨stated, hstated, ⟨hmissing, _⟩ | ⟨name, nodes₁, hname, _, hchanged, hrest⟩⟩ :=
    updateNodeData_resyncs hg h
  · obtain ⟨node, hnode, rfl⟩ := List.mem_map.mp howner
    exact absurd rfl (hmissing node hnode)
  obtain rfl := Value.str.inj hname
  obtain ⟨hnone, hcomes⟩ | ⟨transitions, elements, hsome, helements, nodes', hcomes, hall⟩ := hrest
  · refine ⟨nodes₁, edges, hcomes.holds, rfl, hids, ?_, hchanged.imp fun node node₁ hto => ?_⟩
    · rw [transitionsAfter, hstated, Outcome.ok_bind, hnone]
      rfl
    · refine ⟨hto.idOf_eq, ?_⟩
      rw [ChangedTo] at hto
      simp only [Value.str.injEq] at hto
      split
      next hown =>
        rw [if_pos hown] at hto
        rw [nodeAfter, hstated, Outcome.ok_bind, hto, Outcome.ok_bind, hnone]
        rfl
      next hother => rwa [if_neg hother] at hto
  · obtain ⟨hothers, hnodup, hown⟩ :=
      relistedEdges_spec owner hids ((objectsAmong elements).map Value.obj)
    refine ⟨nodes', _, hcomes.holds, hothers, hnodup, ?_, ?_⟩
    · rw [transitionsAfter, hstated, Outcome.ok_bind, hsome]
      dsimp only
      rw [helements, hown, objectsAmong_map_obj]
      rfl
    · refine (forall₂_comp hchanged (List.forall₂_map_left_iff.mp hall)).imp ?_
      rintro node node' ⟨node₁, _, hto, hsynced⟩
      obtain ⟨hid, hnode⟩ := syncWith_of_listedAs hsynced
      rw [hto.idOf_eq] at hid hnode
      refine ⟨hid, ?_⟩
      rw [ChangedTo] at hto
      simp only [Value.str.injEq] at hto
      split
      next hown =>
        rw [if_pos hown] at hto hnode
        rw [nodeAfter, hstated, Outcome.ok_bind, hto, Outcome.ok_bind, hsome]
        dsimp only
        rw [helements]
        exact hnode
      next hother =>
        rw [if_neg hother] at hto hnode
        rw [hnode, hto]

/-- **Every edit of one node affects that node only.** -/
theorem done_make {e : NodeEdit} (hg : Holds document nodes edges) (hids : (edges.map idOf).Nodup)
    (howner : owner ∈ nodes.map idOf) (howned : e.Owned edges owner)
    (h : e.make owner document = .ok revision) :
    e.Done owner nodes edges (revision.apply document) := by
  cases e with
  | connect => exact done_connect hg hids h
  | remove => exact done_remove hg hids howned h
  | relabel => exact done_relabel hg hids howned h
  | replace => exact done_replace hg hids howner h
  | change => exact done_change hg hids howner h

end Edits

/-! ## Two edits -/

section Two

variable {e f : NodeEdit} {owner other : String}
  {nodes nodes₁ nodes₂ nodes₃ nodes₄ edges edges₁ edges₂ edges₃ edges₄ : List Fields}

/-- **An edit of another node leaves a node its edges.** -/
theorem Affects.filter_eq (h : e.Affects owner nodes edges nodes₁ edges₁) (hne : other ≠ owner) :
    edges₁.filter (fun x => sourceOf x = other) = edges.filter fun x => sourceOf x = other := by
  have hwithin : ∀ xs : List Fields, (xs.filter fun x => sourceOf x ≠ owner).filter
      (fun x => sourceOf x = other) = xs.filter fun x => sourceOf x = other := by
    intro xs
    rw [List.filter_filter]
    refine List.filter_congr fun x _ => ?_
    by_cases hx : sourceOf x = other
    · simp [hx, hne]
    · simp [hx]
  rw [← hwithin edges₁, h.others, hwithin]

theorem Affects.outgoing_eq (h : e.Affects owner nodes edges nodes₁ edges₁) (hne : other ≠ owner) :
    outgoing edges₁ other = outgoing edges other := by
  rw [outgoing, h.filter_eq hne, outgoing]

/-- An edit of a node is still one after an edit of another. -/
theorem Owned.of_affects (h : e.Affects owner nodes edges nodes₁ edges₁) (hne : other ≠ owner)
    (howned : f.Owned edges other) : f.Owned edges₁ other := by
  have hkept : ∀ id, (∃ edge ∈ edges, idOf edge = id ∧ sourceOf edge = other) →
      ∃ edge ∈ edges₁, idOf edge = id ∧ sourceOf edge = other := by
    rintro id ⟨edge, hedge, hid, hsource⟩
    have hmem : edge ∈ edges₁.filter fun x => sourceOf x = other := by
      rw [h.filter_eq hne]
      exact List.mem_filter.mpr ⟨hedge, decide_eq_true hsource⟩
    exact ⟨edge, List.mem_of_mem_filter hmem, hid, hsource⟩
  cases f with
  | remove ids => exact fun id hid => hkept id (howned id hid)
  | relabel id => exact hkept id howned
  | _ => trivial

/-- **What a node has become after an edit of one node and an edit of another.**
In which order they were done cannot be seen from it. -/
def AfterBoth (e f : NodeEdit) (owner other : String) (edges : List Fields) (node node' : Fields) :
    Prop :=
  (idOf node = owner → e.nodeAfter owner (outgoing edges owner) node = .ok node')
    ∧ (idOf node = other → f.nodeAfter other (outgoing edges other) node = .ok node')
    ∧ (idOf node ≠ owner → idOf node ≠ other → node' = node)

/-- After two edits of different nodes every node has become what they make of
it. -/
theorem afterBoth_of_affects (hne : owner ≠ other)
    (he : e.Affects owner nodes edges nodes₁ edges₁)
    (hf : f.Affects other nodes₁ edges₁ nodes₂ edges₂) :
    List.Forall₂ (AfterBoth e f owner other edges₂) nodes nodes₂ := by
  refine (forall₂_comp he.nodes hf.nodes).imp ?_
  rintro node node₂ ⟨node₁, _, ⟨hid, hfirst⟩, _, hsecond⟩
  rw [hid] at hsecond
  refine ⟨fun hown => ?_, fun hown => ?_, fun hnotOwner hnotOther => ?_⟩
  · rw [if_pos hown] at hfirst
    rw [if_neg (hown ▸ hne)] at hsecond
    rw [hf.outgoing_eq hne, hsecond]
    exact hfirst
  · rw [if_neg (hown ▸ hne.symm)] at hfirst
    rw [if_pos hown] at hsecond
    rw [← hfirst]
    exact hsecond
  · rw [if_neg hnotOwner] at hfirst
    rw [if_neg hnotOther] at hsecond
    rw [hsecond, hfirst]

/-- **Edits of different nodes make the same of the nodes, and of what the edges
say, in either order.** -/
theorem commute_of_affects (hne : owner ≠ other)
    (he : e.Affects owner nodes edges nodes₁ edges₁)
    (hef : f.Affects other nodes₁ edges₁ nodes₂ edges₂)
    (hf : f.Affects other nodes edges nodes₃ edges₃)
    (hfe : e.Affects owner nodes₃ edges₃ nodes₄ edges₄) :
    nodes₄ = nodes₂ ∧ ∀ id, outgoing edges₄ id = outgoing edges₂ id := by
  have hedges : ∀ id, outgoing edges₄ id = outgoing edges₂ id := by
    intro id
    by_cases howner : id = owner
    · subst howner
      have hown := hfe.own
      rw [hf.filter_eq hne, he.own] at hown
      rw [hef.outgoing_eq hne, Except.ok.inj hown]
    · rw [hfe.outgoing_eq howner]
      by_cases hother : id = other
      · subst hother
        have hown := hef.own
        rw [he.filter_eq howner, hf.own] at hown
        exact Except.ok.inj hown
      · rw [hf.outgoing_eq hother, hef.outgoing_eq hother, he.outgoing_eq howner]
  refine ⟨?_, hedges⟩
  have hleft := afterBoth_of_affects hne he hef
  have hright : List.Forall₂ (AfterBoth e f owner other edges₂) nodes nodes₄ := by
    refine (afterBoth_of_affects hne.symm hf hfe).imp fun node node₄ h => ?_
    rw [AfterBoth, hedges, hedges] at h
    exact ⟨h.2.1, h.1, fun howner hother => h.2.2 hother howner⟩
  refine List.right_unique_forall₂' (fun node x y hx hy => ?_) hright hleft
  by_cases howner : idOf node = owner
  · exact Except.ok.inj ((hx.1 howner).symm.trans (hy.1 howner))
  · by_cases hother : idOf node = other
    · exact Except.ok.inj ((hx.2.1 hother).symm.trans (hy.2.1 hother))
    · rw [hx.2.2 howner hother, hy.2.2 howner hother]

end Two

end NodeEdit

/-- **Edits of different nodes commute.** Of a graph of objects whose edges have
different ids, let each of two nodes have an edit of its own. In whichever order
they are done, if they can be done, the same nodes come out, with the same lists
of transitions, the edges say the same of every node, and still have different
ids, and the graph is saved as the same document. -/
theorem commute_of_owned {document : Value} {nodes edges : List Fields}
    (hg : Holds document nodes edges) (hids : (edges.map idOf).Nodup) {owner other : String}
    (howner : owner ∈ nodes.map idOf) (hother : other ∈ nodes.map idOf) (hne : owner ≠ other)
    {e f : NodeEdit} (he : e.Owned edges owner) (hf : f.Owned edges other)
    {first second first' second' : Revision}
    (hfirst : e.make owner document = .ok first)
    (hsecond : f.make other (first.apply document) = .ok second)
    (hfirst' : f.make other document = .ok first')
    (hsecond' : e.make owner (first'.apply document) = .ok second') :
    ∃ nodes' edges' edges'',
      Holds (second.apply (first.apply document)) nodes' edges'
      ∧ Holds (second'.apply (first'.apply document)) nodes' edges''
      ∧ (∀ id, outgoing edges'' id = outgoing edges' id)
      ∧ (edges'.map idOf).Nodup ∧ (edges''.map idOf).Nodup
      ∧ ∀ (settings : Settings) (request : SaveRequest),
        saveGraph settings request (second'.apply (first'.apply document))
          = saveGraph settings request (second.apply (first.apply document)) := by
  have hkept : ∀ {e : NodeEdit} {name : String} {nodes edges nodes' edges' : List Fields},
      e.Affects name nodes edges nodes' edges' → nodes'.map idOf = nodes.map idOf :=
    fun h => map_eq_map_of_forall₂ (h.nodes.imp fun _ _ hnode => hnode.1)
  obtain ⟨nodes₁, edges₁, hg₁, he₁⟩ := NodeEdit.done_make hg hids howner he hfirst
  obtain ⟨nodes₂, edges₂, hg₂, hf₂⟩ := NodeEdit.done_make hg₁ he₁.ids (hkept he₁ ▸ hother)
    (hf.of_affects he₁ hne.symm) hsecond
  obtain ⟨nodes₃, edges₃, hg₃, hf₃⟩ := NodeEdit.done_make hg hids hother hf hfirst'
  obtain ⟨nodes₄, edges₄, hg₄, he₄⟩ := NodeEdit.done_make hg₃ hf₃.ids (hkept hf₃ ▸ howner)
    (he.of_affects hf₃ hne) hsecond'
  obtain ⟨rfl, hedges⟩ := NodeEdit.commute_of_affects hne he₁ hf₂ hf₃ he₄
  refine ⟨nodes₄, edges₂, edges₄, hg₂, hg₄, hedges, hf₂.ids, he₄.ids, fun settings request => ?_⟩
  refine saveGraph_congr_lists hg₂.nodesOf_eq hg₄.nodesOf_eq hg₂.edgesOf_eq hg₄.edgesOf_eq
    (fun id => ?_) (List.forall₂_same.mpr fun _ _ => rfl)
  rw [objectsAmong_map_obj, objectsAmong_map_obj]
  exact hedges id

/-- A node that asks and one that answers. -/
def doorNodes : List Fields :=
  [[("id", .str "ask"), ("data", .obj [("static_text", .str "Who is there?")])],
    [("id", .str "answer"), ("data", .obj [("static_text", .str "It is me.")])]]

/-- Their edges, each leading to the other. -/
def doorEdges : List Fields :=
  [[("id", .str "x"), ("source", .str "ask"), ("target", .str "answer"), ("label", .str "next")],
    [("id", .str "y"), ("source", .str "answer"), ("target", .str "ask"), ("label", .str "next")]]

/-- The graph of those nodes and edges. -/
def doorGraph : Value := (Graph.ofObjects doorNodes doorEdges).toValue

/-- The edit by which an edge is drawn from the node that asks. -/
def askAgain : NodeEdit := .connect (.str "ask") (.str "again") .null

/-- The edit by which the list of the node that answers is replaced. -/
def answerOnly : NodeEdit := .replace (.list [.obj [("target", .str "answer")]])

/-- In that graph the two edits are made in either order. -/
theorem commute_askAgain_answerOnly :
    ∃ first second first' second' : Revision,
      askAgain.make "ask" doorGraph = .ok first
      ∧ answerOnly.make "answer" (first.apply doorGraph) = .ok second
      ∧ answerOnly.make "answer" doorGraph = .ok first'
      ∧ askAgain.make "ask" (first'.apply doorGraph) = .ok second'
      ∧ saveGraph Settings.default {} (second'.apply (first'.apply doorGraph))
        = saveGraph Settings.default {} (second.apply (first.apply doorGraph)) := by
  have hask : "ask" ∈ doorNodes.map idOf := by decide
  have hanswer : "answer" ∈ doorNodes.map idOf := by decide
  have hasked : askAgain.Owned doorEdges "ask" := trivial
  have hanswered : answerOnly.Owned doorEdges "answer" := trivial
  refine ⟨_, _, _, _, rfl, rfl, rfl, rfl, ?_⟩
  obtain ⟨_, _, _, _, _, _, _, _, hsaved⟩ :=
    commute_of_owned (holds_toValue doorNodes doorEdges) (by decide) hask hanswer (by decide)
      hasked hanswered rfl rfl rfl rfl
  exact hsaved Settings.default {}

end CallFlow
