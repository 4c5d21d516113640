import CallFlow.Proofs.Config.Likeness
import CallFlow.Proofs.Config.Unnoticed
import CallFlow.Proofs.Graph.NodeEdits
import CallFlow.Proofs.Graph.Relisting

/-!
# The two directions of editing come to the same

Transitions are edited in two directions. On the canvas an edge is drawn,
removed or relabelled; in the panel the list of a node is replaced, and its
edges are dropped and made anew with other ids, behind all others. In a
graph that is in agreement each edit of one edge is the edit of one item of
the list: whichever is made, what is saved afterwards says the same
(`canvas_alike_panel`).

Neither direction need be followed into the nodes. Whatever an edit does to
them, it leaves them to be saved as they were (`Leaves`), so that only the
edges count, and of the edges what they say of each node. In the panel a
node is left with what its list says, and every other node with what it had
(`InAgreement.leaves_replaceTransitions`). So it is enough that the edges the canvas
leaves say, item by item, what the list says (`Lists`). In agreement they do
before the edit; the edge and the item that are edited stand at one place,
since ids are different.
-/

namespace CallFlow

/-! ## Lists whose values have different keys -/

section Keyed

variable {α β : Type} [DecidableEq β] (f : α → β) {xs : List α} {k : Nat} {x : α}

/-- Leaving out the value of a key is leaving out one place. -/
theorem filter_key_ne (hkeys : (xs.map f).Nodup) (hx : xs[k]? = some x) :
    xs.filter (fun y => f y ≠ f x) = xs.eraseIdx k := by
  induction xs generalizing k with
  | nil => cases hx
  | cons y ys ih =>
    obtain ⟨hfresh, hrest⟩ := List.nodup_cons.mp hkeys
    cases k with
    | zero =>
      obtain rfl := Option.some.inj hx
      have hkept : ∀ z ∈ ys, f z ≠ f y := fun z hz heq => hfresh (heq ▸ List.mem_map_of_mem hz)
      rw [List.filter_cons_of_neg (by simp),
        List.filter_eq_self.mpr fun z hz => decide_eq_true (hkept z hz), List.eraseIdx_cons_zero]
    | succ k =>
      have hmem : x ∈ ys := List.mem_of_getElem? hx
      have hne : f y ≠ f x := fun heq => hfresh (heq ▸ List.mem_map_of_mem hmem)
      rw [List.filter_cons_of_pos (by simpa using hne), ih hrest hx, List.eraseIdx_cons_succ]

/-- Changing the value of a key is changing one place. -/
theorem map_key_eq (g : α → α) (hkeys : (xs.map f).Nodup) (hx : xs[k]? = some x) :
    xs.map (fun y => if f y = f x then g y else y) = xs.modify k g := by
  induction xs generalizing k with
  | nil => cases hx
  | cons y ys ih =>
    obtain ⟨hfresh, hrest⟩ := List.nodup_cons.mp hkeys
    cases k with
    | zero =>
      obtain rfl := Option.some.inj hx
      have hkept : ∀ z ∈ ys, f z ≠ f y := fun z hz heq => hfresh (heq ▸ List.mem_map_of_mem hz)
      rw [List.map_cons, if_pos rfl, List.map_congr_left fun z hz => if_neg (hkept z hz),
        List.map_id', List.modify_zero_cons]
    | succ k =>
      have hmem : x ∈ ys := List.mem_of_getElem? hx
      have hne : f y ≠ f x := fun heq => hfresh (heq ▸ List.mem_map_of_mem hmem)
      rw [List.map_cons, if_neg hne, ih hrest hx, List.modify_succ_cons]

end Keyed

section Matching

variable {α β : Type} {R : α → β → Prop} {xs : List α} {ys : List β}

/-- Sequences that match still do when one place is left out of both. -/
theorem forall₂_eraseIdx (h : List.Forall₂ R xs ys) (k : Nat) :
    List.Forall₂ R (xs.eraseIdx k) (ys.eraseIdx k) := by
  induction h generalizing k with
  | nil => exact .nil
  | cons hxy hrest ih =>
    cases k with
    | zero => exact hrest
    | succ k => exact .cons hxy (ih k)

/-- Sequences that match still do when one place is changed in both to what
matches. -/
theorem forall₂_modify (h : List.Forall₂ R xs ys) (k : Nat) {f : α → α} {g : β → β}
    (hfg : ∀ x ∈ xs, ∀ y, R x y → R (f x) (g y)) :
    List.Forall₂ R (xs.modify k f) (ys.modify k g) := by
  induction h generalizing k with
  | nil => cases k <;> exact .nil
  | @cons x y xs ys hxy hrest ih =>
    cases k with
    | zero => exact .cons (hfg x List.mem_cons_self y hxy) hrest
    | succ k => exact .cons hxy (ih k fun x hx => hfg x (List.mem_cons_of_mem _ hx))

end Matching

/-! ## Graphs in agreement -/

/-- **A graph document in agreement**: its nodes and edges are objects, the
data of the nodes hold lists of objects, and bringing it into agreement
changes none of them. -/
structure InAgreement (document : Value) (nodes edges : List Fields) : Prop where
  /-- No object in the document has two fields under one key. -/
  wellFormed : document.wellFormed = true
  /-- The nodes are objects. -/
  nodesOf_eq : nodesOf document = .ok (nodes.map Value.obj)
  /-- The edges are objects. -/
  edgesOf_eq : edgesOf document = .ok (edges.map Value.obj)
  /-- No two edges share an id. -/
  ids : (edges.map idOf).Nodup
  /-- The data of every edge are an object. -/
  stated : ∀ edge ∈ edges, ∃ data, Fields.get edge "data" = .obj data
  /-- The data of every node are an object with a list of objects. -/
  listed : ∀ node ∈ nodes, ∃ data, ∃ items : List Fields, Fields.get node "data" = .obj data
    ∧ Fields.get data "transitions" = .list (items.map Value.obj)
  /-- Bringing the document into agreement changes nothing. -/
  synced : ∃ synced, sync document none = .ok synced ∧ synced.updated = []

/-- Whether the edges from a node say what a list says, item by item. -/
def Lists (edges : List Fields) (id : String) (items : List Fields) : Prop :=
  List.Forall₂ (fun edge item => (Transition.ofEdge edge).Alike (Transition.ofItem item))
    (edges.filter fun edge => sourceOf edge = id) items

/-- **An item that restates a transition says the same**, and so it does once
defaults have been put in their places. -/
theorem Transition.Settled.alike_ofItem {t : Transition} (h : t.Settled) {item : Fields}
    (hitem : restates t.toItem (.obj item) = true) : t.Alike (ofItem item) := by
  obtain ⟨_, hobj, hcondition, htarget, hpriority⟩ := restates_toItem_iff.mp hitem
  obtain rfl := Value.obj.inj hobj
  have hc : (Value.str t.condition).truthy = true := by simpa [Value.truthy] using h.1
  refine ⟨?_, ?_, Value.saysSame_orElse h.2 hpriority⟩
  · rw [ofItem, hcondition, Value.textOr, if_pos hc, Value.text_str]
  · rw [ofItem, htarget, Value.idText_str]

namespace InAgreement

variable {document : Value} {nodes edges : List Fields} (hg : InAgreement document nodes edges)

include hg

theorem wellFormed_nodes : ∀ node ∈ nodes, (Value.obj node).wellFormed = true :=
  fun _ hnode => wellFormed_of_nodesOf hg.wellFormed hg.nodesOf_eq _ (List.mem_map_of_mem hnode)

theorem holds : Holds document nodes edges := ⟨hg.nodesOf_eq, hg.edgesOf_eq⟩

theorem wellFormed_priorities :
    ∀ edge ∈ edges, (Transition.ofEdge edge).priority.wellFormed = true :=
  hg.holds.wellFormed_priorities hg.wellFormed

theorem copies : ∀ node ∈ nodes, Copies edges node := by
  obtain ⟨synced, hsync, hnone⟩ := hg.synced
  exact copies_of_sync hg.holds hsync hnone

/-- **The edges from a node in agreement say what its list says.** -/
theorem lists {node : Fields} (hnode : node ∈ nodes) {items : List Fields}
    (hitems : cachedTransitions (dataOf node) = .list (items.map Value.obj)) :
    Lists edges (idOf node) items := by
  obtain ⟨values, hvalues, hcopy⟩ := hg.copies node hnode
  obtain rfl := Value.list.inj (hvalues.symm.trans hitems)
  rw [outgoing, List.forall₂_map_left_iff, List.forall₂_map_right_iff] at hcopy
  exact hcopy.imp fun edge item hrestates =>
    (Transition.settled_ofEdge edge).alike_ofItem hrestates

theorem outgoing_alike (id : String) :
    List.Forall₂ Transition.Alike (outgoing edges id) (outgoing edges id) := by
  refine List.forall₂_same.mpr fun t ht => ?_
  obtain ⟨edge, hedge, rfl⟩ := List.mem_map.mp ht
  exact .refl (hg.wellFormed_priorities edge (List.mem_of_mem_filter hedge))

theorem nodup_filter (p : Fields → Bool) : ((edges.filter p).map idOf).Nodup :=
  hg.ids.sublist (List.filter_sublist.map idOf)

theorem sourceOf_eq {id : String} {k : Nat} {edge other : Fields}
    (hedge : (edges.filter fun e => sourceOf e = id)[k]? = some edge) (hother : other ∈ edges)
    (hid : idOf other = idOf edge) : sourceOf other = id := by
  obtain ⟨hmem, hsource⟩ := List.mem_filter.mp (List.mem_of_getElem? hedge)
  rw [List.inj_on_of_nodup_map hg.ids hother hmem hid]
  exact of_decide_eq_true hsource

end InAgreement

/-- Transitions that say the same do so under another condition and
priority. -/
theorem Transition.Alike.relabelled (condition : Value) {priority : Value}
    (hpriority : priority.wellFormed = true) {t u : Transition} (h : t.Alike u) :
    (t.relabelled condition priority).Alike (u.relabelled condition priority) := by
  refine ⟨?_, h.target, ?_⟩
  · rw [Transition.relabelled, Transition.relabelled, h.condition]
  · rw [Transition.relabelled, Transition.relabelled]
    dsimp only
    split
    · exact h.priority
    · exact Value.saysSame_self _ (Value.wellFormed_orElse hpriority rfl)

theorem ofItem_relabelledItem (condition priority : Value) (item : Fields) :
    Transition.ofItem (relabelledItem condition priority item)
      = (Transition.ofItem item).relabelled condition priority := by
  simp only [Transition.ofItem, relabelledItem, Transition.relabelled, get_putUnlessNull,
    Key.text_same_text]
  by_cases hc : condition = .null <;> by_cases hp : priority = .null <;> simp [hc, hp]

/-! ## What an edit leaves -/

/-- Whether a node is saved as another is, whatever the edges. -/
def SavedAs (node node' : Fields) : Prop :=
  ∀ edges keepPositions,
    saveNode edges keepPositions node' = saveNode edges keepPositions node

/-- **Whether an edit leaves some edges**, and of the nodes such as are saved
as they were. -/
def Leaves (nodes edges : List Fields) (edit : Outcome Revision) : Prop :=
  ∃ nodes', edit = .ok (.rebuilt (Graph.ofObjects nodes' edges))
    ∧ List.Forall₂ SavedAs nodes nodes'

namespace InAgreement

variable {document : Value} {nodes edges : List Fields} (hg : InAgreement document nodes edges)

include hg

/-- In a graph in agreement, bringing nodes into agreement with other edges
meets no fault, and they are saved as they were. -/
theorem leaves_sync (edges' : List Fields) (scope : Option (List String)) :
    Leaves nodes edges' (Revision.rebuilt <$> (Graph.ofObjects nodes edges').sync scope) := by
  have hreadable : nodes.all (isReadable scope) = true := by
    refine List.all_eq_true.mpr fun node hnode => ?_
    rw [isReadable, isCountable_of_copies (hg.copies node hnode), Bool.or_true]
  rw [Graph.sync_ofObjects, if_pos hreadable]
  refine ⟨nodes.map (resynced edges' scope), rfl, List.forall₂_map_right_iff.mpr
    (List.forall₂_same.mpr fun node _ edges keepPositions => ?_)⟩
  exact (relisted_resynced edges' scope node).saveNode_eq

/-- **An edge that is drawn** stands behind all others. -/
theorem leaves_connectNodes {source target : String} (hs : source ≠ "") (ht : target ≠ "")
    (condition priority : Value) :
    ∃ id, Leaves nodes (edges ++ [drawnEdge id source target condition priority])
      (connectNodes document (.str source) (.str target) condition priority) := by
  rw [connectNodes_of_lists hg.nodesOf_eq hg.edgesOf_eq hs ht]
  exact ⟨_, hg.leaves_sync _ _⟩

/-- **Where an edge is removed** the others are left. -/
theorem leaves_removeEdges {edge : Fields} (hedge : edge ∈ edges) :
    Leaves nodes (edges.filter fun e => idOf e ≠ idOf edge)
      (removeEdges document (.list [.str (idOf edge)])) := by
  have hids : (Value.list [.str (idOf edge)]).idSet = .ok [idOf edge] := rfl
  have hkept : edges.filter (fun e => !([idOf edge].contains (idOf e)))
      = edges.filter fun e => idOf e ≠ idOf edge := by
    refine List.filter_congr fun e _ => ?_
    simp
  have hfewer : (edges.filter fun e => idOf e ≠ idOf edge).length ≠ edges.length := by
    intro heq
    have hall := List.filter_eq_self.mp (List.filter_sublist.eq_of_length heq) edge hedge
    simp at hall
  rw [removeEdges, hids, hg.edgesOf_eq, hg.nodesOf_eq]
  simp only [Outcome.ok_bind, objects_map_obj, hkept, if_neg hfewer]
  exact hg.leaves_sync _ _

/-- **Where an edge is relabelled** it is left with its new condition and
priority, and the others as they were. -/
theorem leaves_updateEdge {edge : Fields} (hedge : edge ∈ edges) (condition priority : Value) :
    Leaves nodes (relabelledEdges (.str (idOf edge)) condition priority edges)
      (updateEdge document (.str (idOf edge)) condition priority) := by
  rw [updateEdge, hg.edgesOf_eq, hg.nodesOf_eq]
  simp only [Outcome.ok_bind, relabelEdges_of_data hg.stated]
  obtain ⟨last, _, _, hlast⟩ := exists_lastSource hedge rfl
  rw [hlast]
  exact hg.leaves_sync _ _

/-- **Where the list of a node is replaced** its edges are left out and made
anew behind the others. -/
theorem leaves_replaceTransitions {node : Fields} (hnode : node ∈ nodes) (items : List Fields) :
    Leaves nodes (edges.filter (fun e => sourceOf e ≠ idOf node)
        ++ (edgesFrom (.str (idOf node)) 0 (items.map Value.obj)
          (some ((edges.filter fun e => sourceOf e ≠ idOf node).map idOf))).1)
      (replaceTransitions document (.str (idOf node)) (.list (items.map Value.obj))) := by
  have hedit := replaceTransitions_eq hg.holds (List.mem_map_of_mem hnode)
    (fun n hn => by
      obtain ⟨data, _, hdata, _⟩ := hg.listed n hn
      exact ⟨data, hdata⟩) (items.map Value.obj)
  rw [objectsAmong_map_obj] at hedit
  refine ⟨_, hedit, List.forall₂_map_right_iff.mpr
    (List.forall₂_same.mpr fun n _ edges keepPositions => ?_)⟩
  rw [(relisted_resynced _ _ _).saveNode_eq, (relisted_listedAs _ _ _).saveNode_eq]

end InAgreement

/-! ## The two directions -/

/-- **Whether two edits come to the same**: neither meets a fault, and over
whatever document and with whatever edits of the settings, what they leave is
saved as documents that say the same, or neither is saved. -/
def ComeToTheSame (document : Value) (left right : Outcome Revision) : Prop :=
  ∃ revision revision', left = .ok revision ∧ right = .ok revision'
    ∧ ∀ (settings : Settings) (request : SaveRequest),
      settings.defaultInitialNode.wellFormed = true → request.previous.wellFormed = true →
      request.edits.wellFormed = true →
      Outcome.Alike (fun saved saved' => saved.saysSame saved' = true)
        (saveGraph settings request (revision.apply document))
        (saveGraph settings request (revision'.apply document))

/-- Edits come to the same if they leave edges that say the same of every
node. -/
theorem comeToTheSame_of_leaves {document : Value} {nodes edges edges' : List Fields}
    {left right : Outcome Revision} (hnodes : ∀ node ∈ nodes, (Value.obj node).wellFormed = true)
    (hleft : Leaves nodes edges left) (hright : Leaves nodes edges' right)
    (hsame : ∀ id, List.Forall₂ Transition.Alike (outgoing edges id) (outgoing edges' id)) :
    ComeToTheSame document left right := by
  obtain ⟨leftNodes, rfl, hsavedLeft⟩ := hleft
  obtain ⟨rightNodes, rfl, hsavedRight⟩ := hright
  refine ⟨_, _, rfl, rfl, fun settings request hdefault hprevious hedits => ?_⟩
  rw [Revision.apply, Revision.apply,
    saveGraph_congr (hsavedLeft.imp fun _ _ hsaved => hsaved edges request.keepPositions),
    saveGraph_congr (hsavedRight.imp fun _ _ hsaved => hsaved edges' request.keepPositions)]
  exact saveGraph_alike hnodes hdefault hprevious hedits hsame

/-- The item that says what an edge that is drawn says. -/
def drawnItem (target : String) (condition priority : Value) : Fields :=
  [("condition", condition), ("target", .str target), ("priority", priority)]

theorem ofEdge_drawnEdge (id source target : String) (condition priority : Value) :
    Transition.ofEdge (drawnEdge id source target condition priority)
      = Transition.ofItem (drawnItem target condition priority) := by
  simp [Transition.ofEdge, Transition.ofItem, drawnEdge, drawnItem, Fields.get, Fields.get?,
    Value.fieldsOrNone, Value.orElse]

namespace InAgreement

variable {document : Value} {nodes edges : List Fields} (hg : InAgreement document nodes edges)
  {node : Fields} (hnode : node ∈ nodes) {items : List Fields}

include hg hnode

/-- **An edit comes to the same as replacing the list of a node** if the edges
it leaves from the node say what the list says, and no other node notices. -/
theorem comeToTheSame_replaceTransitions {edges' : List Fields} {edit : Outcome Revision}
    (hedit : Leaves nodes edges' edit)
    (hothers : ∀ id, id ≠ idOf node → outgoing edges' id = outgoing edges id)
    (hself : Lists edges' (idOf node) items) :
    ComeToTheSame document edit
      (replaceTransitions document (.str (idOf node)) (.list (items.map Value.obj))) := by
  refine comeToTheSame_of_leaves hg.wellFormed_nodes hedit
    (hg.leaves_replaceTransitions hnode items) fun id => ?_
  by_cases hid : id = idOf node
  · subst hid
    rw [outgoing_append_edgesFrom_self, objectsAmong_map_obj, outgoing, List.forall₂_map_left_iff,
      List.forall₂_map_right_iff]
    exact hself
  · rw [outgoing_append_edgesFrom hid, hothers id hid]
    exact hg.outgoing_alike id

variable (hlists : Lists edges (idOf node) items)

include hlists

/-- **Drawing an edge comes to the same as adding an item.** -/
theorem comeToTheSame_connectNodes (hnamed : idOf node ≠ "") {target : String} (ht : target ≠ "")
    (condition : Value) {priority : Value} (hpriority : priority.wellFormed = true) :
    ComeToTheSame document
      (connectNodes document (.str (idOf node)) (.str target) condition priority)
      (replaceTransitions document (.str (idOf node))
        (.list ((items ++ [drawnItem target condition priority]).map Value.obj))) := by
  obtain ⟨id, hleaves⟩ := hg.leaves_connectNodes hnamed ht condition priority
  refine hg.comeToTheSame_replaceTransitions hnode hleaves (fun other hother => ?_) ?_
  · have hdrawn : ∀ e ∈ [drawnEdge id (idOf node) target condition priority],
        sourceOf e ≠ other := by
      intro e he
      rw [List.mem_singleton.mp he, sourceOf_drawnEdge]
      exact hother.symm
    rw [outgoing_append, outgoing_eq_nil hdrawn, List.append_nil]
  · have hown : ([drawnEdge id (idOf node) target condition priority].filter
        fun e => sourceOf e = idOf node)
        = [drawnEdge id (idOf node) target condition priority] := by
      rw [List.filter_cons_of_pos (by simp), List.filter_nil]
    have hsays : (Transition.ofEdge (drawnEdge id (idOf node) target condition priority)).Alike
        (Transition.ofItem (drawnItem target condition priority)) := by
      rw [ofEdge_drawnEdge]
      exact .refl (Value.wellFormed_orElse hpriority rfl)
    rw [Lists, List.filter_append, hown]
    exact List.rel_append hlists (.cons hsays .nil)

variable {k : Nat} {edge : Fields}
  (hedge : (edges.filter fun e => sourceOf e = idOf node)[k]? = some edge)

include hedge

/-- **Removing an edge comes to the same as leaving out the item at its
place.** -/
theorem comeToTheSame_removeEdges :
    ComeToTheSame document (removeEdges document (.list [.str (idOf edge)]))
      (replaceTransitions document (.str (idOf node))
        (.list ((items.eraseIdx k).map Value.obj))) := by
  have hmem := List.mem_of_mem_filter (List.mem_of_getElem? hedge)
  refine hg.comeToTheSame_replaceTransitions hnode (hg.leaves_removeEdges hmem)
    (fun other hother => ?_) ?_
  · refine outgoing_filter fun e he hfrom => decide_eq_true fun hid => hother ?_
    rw [← hfrom, hg.sourceOf_eq hedge he hid]
  · rw [Lists, List.filter_comm, filter_key_ne idOf (hg.nodup_filter _) hedge]
    exact forall₂_eraseIdx hlists k

/-- **Relabelling an edge comes to the same as relabelling the item at its
place.** -/
theorem comeToTheSame_updateEdge (condition : Value) {priority : Value}
    (hpriority : priority.wellFormed = true) :
    ComeToTheSame document (updateEdge document (.str (idOf edge)) condition priority)
      (replaceTransitions document (.str (idOf node))
        (.list ((items.modify k (relabelledItem condition priority)).map Value.obj))) := by
  have hmem := List.mem_of_mem_filter (List.mem_of_getElem? hedge)
  refine hg.comeToTheSame_replaceTransitions hnode (hg.leaves_updateEdge hmem condition priority)
    (fun other hother => outgoing_relabelledEdges fun e he hid => ?_) ?_
  · rw [hg.sourceOf_eq hedge he (Value.str.inj hid)]
    exact hother.symm
  · have hplace : (relabelledEdges (.str (idOf edge)) condition priority edges).filter
          (fun e => sourceOf e = idOf node)
        = (edges.filter fun e => sourceOf e = idOf node).modify k
          (relabelledEdge condition priority) := by
      rw [relabelledEdges, List.filter_map, ← map_key_eq idOf _ (hg.nodup_filter _) hedge]
      simp only [Value.str.injEq]
      refine congrArg _ (List.filter_congr fun e _ => ?_)
      rw [Function.comp_apply]
      split
      · rw [sourceOf_relabelledEdge]
      · rfl
    rw [Lists, hplace]
    refine forall₂_modify hlists k fun e _ item hsays => ?_
    rw [ofEdge_relabelledEdge, ofItem_relabelledItem]
    exact hsays.relabelled condition hpriority

end InAgreement

/-- **Edits on the canvas and edits in the panel come to the same**, in a graph
in agreement and for every node of it: drawing an edge and adding an item,
removing the edge at a place among those from the node and leaving out the
item at that place, and relabelling the two. -/
theorem canvas_alike_panel {document : Value} {nodes edges : List Fields}
    (hg : InAgreement document nodes edges) {node : Fields} (hnode : node ∈ nodes)
    (hnamed : idOf node ≠ "") {items : List Fields}
    (hitems : cachedTransitions (dataOf node) = .list (items.map Value.obj)) :
    (∀ target ≠ "", ∀ condition priority, priority.wellFormed = true →
      ComeToTheSame document
        (connectNodes document (.str (idOf node)) (.str target) condition priority)
        (replaceTransitions document (.str (idOf node))
          (.list ((items ++ [drawnItem target condition priority]).map Value.obj))))
    ∧ ∀ k edge, (edges.filter fun e => sourceOf e = idOf node)[k]? = some edge →
      ComeToTheSame document (removeEdges document (.list [.str (idOf edge)]))
        (replaceTransitions document (.str (idOf node))
          (.list ((items.eraseIdx k).map Value.obj)))
      ∧ ∀ condition priority, priority.wellFormed = true →
        ComeToTheSame document (updateEdge document (.str (idOf edge)) condition priority)
          (replaceTransitions document (.str (idOf node))
            (.list ((items.modify k (relabelledItem condition priority)).map Value.obj))) := by
  have hlists := hg.lists hnode hitems
  refine ⟨fun target ht condition priority hpriority =>
    hg.comeToTheSame_connectNodes hnode hlists hnamed ht condition hpriority,
    fun k edge hedge => ⟨hg.comeToTheSame_removeEdges hnode hlists hedge,
      fun condition priority hpriority =>
        hg.comeToTheSame_updateEdge hnode hlists hedge condition hpriority⟩⟩

/-- The items a node lists that says goodbye or starts over. -/
def farewellItems : List Fields :=
  [[("target", .str "end"), ("condition", .str "bye"), ("priority", .bool true)],
    [("target", .str "talk"), ("condition", .str "again"), ("priority", .int 0)]]

/-- That node. -/
def farewellNode : Fields :=
  [("id", .str "talk"), ("data", .obj [("transitions", .list (farewellItems.map Value.obj))])]

/-- That node, and the one it ends with. -/
def farewellNodes : List Fields :=
  [farewellNode,
    [("id", .str "end"), ("data", .obj [("type", .str "end_call"), ("transitions", .list [])])]]

/-- Its edges: one states its priority in another way than the item, the
other states it nowhere. -/
def farewellEdges : List Fields :=
  [[("id", .str "x"), ("source", .str "talk"), ("target", .str "end"), ("label", .str "bye"),
      ("data", .obj [("condition", .str "bye"), ("priority", .int 1)])],
    [("id", .str "y"), ("source", .str "talk"), ("target", .str "talk"), ("label", .str "again"),
      ("data", .obj [])]]

/-- The graph of those nodes and edges. -/
def farewellGraph : Value := (Graph.ofObjects farewellNodes farewellEdges).toValue

/-- That graph is in agreement. -/
theorem inAgreement_farewellGraph : InAgreement farewellGraph farewellNodes farewellEdges where
  wellFormed := by decide
  nodesOf_eq := rfl
  edgesOf_eq := rfl
  ids := by decide
  stated := List.forall_mem_cons.mpr ⟨⟨_, rfl⟩, List.forall_mem_cons.mpr ⟨⟨_, rfl⟩, nofun⟩⟩
  listed := List.forall_mem_cons.mpr ⟨⟨_, farewellItems, rfl, rfl⟩,
    List.forall_mem_cons.mpr ⟨⟨_, [], rfl, rfl⟩, nofun⟩⟩
  synced := ⟨_, rfl, rfl⟩

/-- In that graph an edge is drawn, the first edge is removed, and the second
is relabelled. -/
theorem canvas_alike_panel_farewellGraph :
    ComeToTheSame farewellGraph
        (connectNodes farewellGraph (.str "talk") (.str "end") (.str "") (.int 2))
        (replaceTransitions farewellGraph (.str "talk")
          (.list ((farewellItems ++ [drawnItem "end" (.str "") (.int 2)]).map Value.obj)))
      ∧ ComeToTheSame farewellGraph (removeEdges farewellGraph (.list [.str "x"]))
        (replaceTransitions farewellGraph (.str "talk")
          (.list ((farewellItems.eraseIdx 0).map Value.obj)))
      ∧ ComeToTheSame farewellGraph
        (updateEdge farewellGraph (.str "y") (.str "once more") (.int 5))
        (replaceTransitions farewellGraph (.str "talk")
          (.list ((farewellItems.modify 1
            (relabelledItem (.str "once more") (.int 5))).map Value.obj))) := by
  have hitems : cachedTransitions (dataOf farewellNode) = .list (farewellItems.map Value.obj) := rfl
  obtain ⟨hconnect, hedge⟩ :=
    canvas_alike_panel inAgreement_farewellGraph List.mem_cons_self (by decide) hitems
  exact ⟨hconnect "end" (by decide) (.str "") (.int 2) rfl, (hedge 0 _ rfl).1,
    (hedge 1 _ rfl).2 (.str "once more") (.int 5) rfl⟩

end CallFlow
