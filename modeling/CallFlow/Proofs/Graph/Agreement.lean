import CallFlow.Graph.Sync
import CallFlow.Proofs.Edge.Projection

/-!
# Copies of transitions

The data of a node hold a copy of its transitions. The copy is a *copy of
the edges* (`Copies`) if it lists, item by item and in order, what the edges
from the node say.

Whether a node counts as agreeing is nearly the same question, and the
difference is what is no number. Such a priority says the same as itself,
and so a copy of it is a copy; compared by itself it agrees with nothing,
and so a node one of whose edges has it never agrees (`nodeAgrees_of_copies`).
Every other node agrees exactly if its list is a copy.

Bringing a graph into agreement makes a copy of the list of every node in
scope, and touches nothing but lists that were none (`copies_of_syncedTo`).
-/

namespace CallFlow

/-- The graph of some nodes and edges that are all objects. -/
def Graph.ofObjects (nodes edges : List Fields) : Graph := ⟨nodes.map .obj, edges.map .obj⟩

section Document

variable {document : Value} {values : List Value}

/-- A list a well-formed document holds under a key is well formed. -/
theorem wellFormed_of_listed {key : String} (hdocument : document.wellFormed = true)
    (h : (do (Fields.get (← document.object) key).elementsOrNone) = Except.ok values) :
    ∀ value ∈ values, value.wellFormed = true := by
  obtain ⟨fields, hfields, hread⟩ := Outcome.bind_eq_ok.mp h
  cases document with
  | obj fs =>
    obtain rfl := Except.ok.inj hfields
    exact Value.wellFormed_of_elementsOrNone
      (Fields.wellFormed_get (Value.fieldsWellFormed_fieldsOrNone hdocument) key) hread
  | _ => cases hfields

theorem wellFormed_of_nodesOf (hdocument : document.wellFormed = true)
    (h : nodesOf document = .ok values) : ∀ value ∈ values, value.wellFormed = true :=
  wellFormed_of_listed hdocument h

theorem wellFormed_of_edgesOf (hdocument : document.wellFormed = true)
    (h : edgesOf document = .ok values) : ∀ value ∈ values, value.wellFormed = true :=
  wellFormed_of_listed hdocument h

end Document

/-- The data of a node. -/
abbrev dataOf (node : Fields) : Fields := (Fields.get node "data").fieldsOrNone

/-- Whether two items of a list of transitions say the same target,
condition and priority. -/
def restates : Value → Value → Bool
  | .obj a, .obj b =>
    ["target", "condition", "priority"].all fun k => (Fields.get a k).saysSame (Fields.get b k)
  | _, _ => false

/-- **Whether the list in a node's data is a copy of the edges**: what it
lists, item by item, is what the edges from the node say. -/
def Copies (edges : List Fields) (node : Fields) : Prop :=
  ∃ items, cachedTransitions (dataOf node) = .list items
    ∧ List.Forall₂ (fun t item => restates t.toItem item = true) (outgoing edges (idOf node)) items

/-- Whether a priority of the transitions of a node is a number that is
none. -/
def hasUndefinedPriority (edges : List Fields) (node : Fields) : Bool :=
  (outgoing edges (idOf node)).any fun t => t.priority.isUndefined

/-! ## Items that say the same -/

theorem restates_toItem_self {t : Transition} (h : t.priority.wellFormed = true) :
    restates t.toItem t.toItem = true := by
  have hp := Value.saysSame_self t.priority h
  simp [restates, Transition.toItem, Fields.get, Fields.get?, Value.saysSame, hp]

/-- Items agree if they say the same and the priority is no exception. -/
theorem sameTransition_toItem (t : Transition) (item : Value) :
    sameTransition t.toItem item = (restates t.toItem item && !t.priority.isUndefined) := by
  cases item with
  | obj fields =>
    have hstr : ∀ s : String, (Value.str s).isUndefined = false := fun _ => rfl
    simp only [sameTransition, restates, Transition.toItem, Value.agrees, Fields.get, Fields.get?,
      Key.text_same_text, List.all_cons, List.all_nil]
    simp [hstr, Bool.and_assoc]
  | _ => rfl

/-- Lists agree if they are equally long and agree item by item. -/
theorem transitionsAgree_list (xs ys : List Value) :
    transitionsAgree (.list xs) (.list ys)
      = .ok (decide (xs.length = ys.length)
          && (xs.zip ys).all fun p => sameTransition p.1 p.2) := by
  rw [transitionsAgree]
  by_cases h : xs.length = ys.length
  · simp [Value.size, Value.elements, h, Outcome.pure_eq]
  · simp [Value.size, h, Outcome.pure_eq]

/-- Written items agree with a list they are copied in, unless one of their
priorities is no number. -/
theorem zip_all_sameTransition {ts : List Transition} {items : List Value}
    (h : List.Forall₂ (fun t item => restates t.toItem item = true) ts items) :
    ((ts.map Transition.toItem).zip items).all (fun p => sameTransition p.1 p.2)
      = !ts.any fun t => t.priority.isUndefined := by
  induction h with
  | nil => rfl
  | @cons t item ts items hti _ ih =>
    rw [List.map_cons, List.zip_cons_cons, List.all_cons, ih, sameTransition_toItem, hti,
      Bool.true_and, List.any_cons, Bool.not_or]

/-! ## A node agrees if its list is a copy -/

theorem project_map_obj (edges : List Fields) (id : String) :
    project (edges.map Value.obj) id = .ok (outgoing edges id) := by
  rw [project, objects_map_obj, Outcome.ok_bind, Outcome.pure_eq]

theorem nodeAgrees_map_obj (edges : List Fields) (node : Fields) :
    nodeAgrees (edges.map Value.obj) node
      = transitionsAgree (.list ((outgoing edges (idOf node)).map Transition.toItem))
          (cachedTransitions (dataOf node)) := by
  rw [nodeAgrees, project_map_obj, Outcome.ok_bind]

/-- **A node whose list is a copy agrees**, unless an edge from it has a
priority that is no number. -/
theorem nodeAgrees_of_copies {edges : List Fields} {node : Fields} (h : Copies edges node) :
    nodeAgrees (edges.map Value.obj) node = .ok (!hasUndefinedPriority edges node) := by
  obtain ⟨items, hitems, hcopy⟩ := h
  have hlen : ((outgoing edges (idOf node)).map Transition.toItem).length = items.length := by
    rw [List.length_map, hcopy.length_eq]
  rw [nodeAgrees_map_obj, hitems, transitionsAgree_list, zip_all_sameTransition hcopy,
    decide_eq_true hlen, Bool.true_and, hasUndefinedPriority]

/-- A collection of what is no object agrees with no list of its length. -/
theorem transitionsAgree_of_no_object {xs : List Value} (ys : List Value) {w : Value}
    (hsize : w.size = .ok ys.length) (helements : w.elements = .ok ys) (hne : ys ≠ [])
    (hno : ∀ y ∈ ys, y.object? = none) : transitionsAgree (.list xs) w = .ok false := by
  rw [transitionsAgree, hsize, helements]
  by_cases hlen : xs.length = ys.length
  · obtain ⟨y, ys, rfl⟩ := List.exists_cons_of_ne_nil hne
    obtain ⟨x, xs, rfl⟩ : ∃ x xs', xs = x :: xs' := by
      cases xs with
      | nil => cases hlen
      | cons x xs => exact ⟨x, xs, rfl⟩
    have hfirst : sameTransition x y = false := by
      have := hno y List.mem_cons_self
      cases y with
      | obj fields => cases this
      | _ => cases x <;> rfl
    simp [Value.size, Value.elements, hlen, hfirst, Outcome.pure_eq]
  · simp [Value.size, hlen, Outcome.pure_eq]

/-- Only a list can agree with what the edges say. -/
theorem cachedTransitions_eq_list {xs : List Value} {data : Fields}
    (h : transitionsAgree (.list xs) (cachedTransitions data) = .ok true) :
    ∃ items, cachedTransitions data = .list items := by
  rw [cachedTransitions] at h ⊢
  generalize Fields.get data "transitions" = w at h ⊢
  by_cases hw : w.truthy = true
  · rw [Value.orElse_of_truthy hw] at h ⊢
    cases w with
    | list items => exact ⟨items, rfl⟩
    | str s =>
      have hne : s.toList ≠ [] := by
        intro hnil
        simp [Value.truthy, String.toList_eq_nil_iff.mp hnil] at hw
      rw [transitionsAgree_of_no_object (s.toList.map fun c => .str (String.singleton c))
        (by simp [Value.size, String.length_toList]) rfl (by simpa using hne)
        (fun y hy => by obtain ⟨c, _, rfl⟩ := List.mem_map.mp hy; rfl)] at h
      cases h
    | obj fields =>
      have hne : fields ≠ [] := by
        rintro rfl
        cases hw
      have hkey : ∀ k : Key, (Value.ofKey k).object? = none := by
        intro k
        cases k with
        | number n => cases n <;> rfl
        | _ => rfl
      rw [transitionsAgree_of_no_object (fields.map fun f => Value.ofKey f.1)
        (by simp [Value.size]) rfl (by simpa using hne)
        (fun y hy => by obtain ⟨f, _, rfl⟩ := List.mem_map.mp hy; exact hkey f.1)] at h
      cases h
    | _ => cases h
  · exact ⟨[], by simp [Value.orElse, hw]⟩

/-- **The list of a node that agrees is a copy.** -/
theorem copies_of_nodeAgrees {edges : List Fields} {node : Fields}
    (h : nodeAgrees (edges.map Value.obj) node = .ok true) : Copies edges node := by
  rw [nodeAgrees_map_obj] at h
  obtain ⟨items, hitems⟩ := cachedTransitions_eq_list h
  rw [hitems, transitionsAgree_list, Except.ok.injEq, Bool.and_eq_true, decide_eq_true_eq,
    List.length_map] at h
  refine ⟨items, hitems, List.forall₂_iff_zip.mpr ⟨h.1, fun {t item} hmem => ?_⟩⟩
  have hzip : (t.toItem, item)
      ∈ ((outgoing edges (idOf node)).map Transition.toItem).zip items := by
    rw [List.zip_map_left]
    exact List.mem_map.mpr ⟨(t, item), hmem, rfl⟩
  have hagree := List.all_eq_true.mp h.2 _ hzip
  rw [sameTransition_toItem, Bool.and_eq_true] at hagree
  exact hagree.1

/-! ## Bringing nodes into agreement -/

@[simp] theorem idOf_withTransitions (node : Fields) (transitions : List Value) :
    idOf (withTransitions node transitions) = idOf node := by
  rw [idOf, withTransitions, Fields.get_put_of_ne _ _ (by simp), idOf]

@[simp] theorem dataOf_withTransitions (node : Fields) (transitions : List Value) :
    dataOf (withTransitions node transitions)
      = Fields.put (dataOf node) "transitions" (.list transitions) := by
  rw [dataOf, withTransitions, Fields.get_put_self]
  rfl

@[simp] theorem withTransitions_withTransitions (node : Fields) (first last : List Value) :
    withTransitions (withTransitions node first) last = withTransitions node last := by
  rw [withTransitions, ← dataOf, dataOf_withTransitions, Fields.put_put_self, withTransitions,
    Fields.put_put_self, withTransitions]

/-- A node given what the edges say has a copy. -/
theorem copies_withTransitions {edges : List Fields} (node : Fields)
    (hpriority : ∀ t ∈ outgoing edges (idOf node), t.priority.wellFormed = true) :
    Copies edges
      (withTransitions node ((outgoing edges (idOf node)).map Transition.toItem)) := by
  refine ⟨(outgoing edges (idOf node)).map Transition.toItem, ?_, ?_⟩
  · rw [dataOf_withTransitions, cachedTransitions, Fields.get_put_self]
    cases outgoing edges (idOf node) <;> rfl
  · rw [idOf_withTransitions, List.forall₂_map_right_iff, List.forall₂_same]
    exact fun t ht => restates_toItem_self (hpriority t ht)

/-- A node as it was, or with another list of transitions. -/
def Relisted (node node' : Fields) : Prop :=
  node' = node ∨ ∃ transitions, node' = withTransitions node transitions

theorem Relisted.idOf_eq {node node' : Fields} (h : Relisted node node') :
    idOf node' = idOf node := by
  rcases h with rfl | ⟨transitions, rfl⟩
  · rfl
  · exact idOf_withTransitions node transitions

/-- **Bringing a node into agreement changes at most its list**, and nothing
where the node is not reported. -/
theorem relisted_of_syncNode {edges : List Value} {node node' : Fields} {updated : Option String}
    (h : syncNode edges node = .ok (node', updated)) :
    Relisted node node' ∧ (updated = none → node' = node) := by
  obtain ⟨agrees, _, h⟩ := Outcome.bind_eq_ok.mp h
  split at h
  · obtain ⟨rfl, rfl⟩ := Prod.mk.inj (Except.ok.inj h)
    exact ⟨.inl rfl, fun _ => rfl⟩
  · obtain ⟨projected, _, h⟩ := Outcome.bind_eq_ok.mp h
    obtain ⟨rfl, rfl⟩ := Prod.mk.inj (Except.ok.inj h)
    exact ⟨.inr ⟨_, rfl⟩, fun hnone => absurd hnone (Option.some_ne_none _)⟩

/-- **What becomes of a node brought into agreement**: it stays as it is, or
its list is replaced by what the edges say. -/
theorem syncNode_eq_ok {edges : List Fields} {node node' : Fields} {updated : Option String}
    (h : syncNode (edges.map Value.obj) node = .ok (node', updated)) :
    (nodeAgrees (edges.map Value.obj) node = .ok true ∧ node' = node ∧ updated = none)
    ∨ (nodeAgrees (edges.map Value.obj) node = .ok false
      ∧ node' = withTransitions node ((outgoing edges (idOf node)).map Transition.toItem)
      ∧ updated = some (idOf node)) := by
  obtain ⟨agrees, hagrees, h⟩ := Outcome.bind_eq_ok.mp h
  cases agrees with
  | true =>
    obtain ⟨rfl, rfl⟩ := Prod.mk.inj (Except.ok.inj h)
    exact .inl ⟨hagrees, rfl, rfl⟩
  | false =>
    rw [if_neg (by simp), project_map_obj, Outcome.ok_bind] at h
    obtain ⟨rfl, rfl⟩ := Prod.mk.inj (Except.ok.inj h)
    exact .inr ⟨hagrees, rfl, rfl⟩

/-- What is done to one node where only those of a scope are brought into
agreement. -/
def syncInScope (edges : List Fields) (scope : Option (List String)) (node : Fields) :
    Outcome (Fields × Option String) :=
  if inScope scope (idOf node) then syncNode (edges.map Value.obj) node else .ok (node, none)

/-- **Nodes are brought into agreement one by one.** -/
theorem syncNodes_map_obj (edges : List Fields) (scope : Option (List String))
    (nodes : List Fields) :
    syncNodes (edges.map Value.obj) scope (nodes.map Value.obj)
      = (fun done => (done.map fun d => Value.obj d.1, done.flatMap fun d => d.2.toList))
          <$> nodes.mapM (syncInScope edges scope) := by
  induction nodes with
  | nil => rfl
  | cons node rest ih =>
    rw [List.map_cons, syncNodes, ih, List.mapM_cons]
    simp only [Value.object, Outcome.ok_bind]
    by_cases hscope : inScope scope (idOf node) = true
    · rw [if_pos hscope, syncInScope, if_pos hscope]
      cases syncNode (edges.map Value.obj) node with
      | error fault => rfl
      | ok d => cases rest.mapM (syncInScope edges scope) <;> rfl
    · rw [if_neg hscope, syncInScope, if_neg hscope]
      cases rest.mapM (syncInScope edges scope) <;> rfl

/-- Whether a node becomes another where a scope is brought into agreement. -/
def SyncedTo (edges : List Fields) (scope : Option (List String)) (node node' : Fields) : Prop :=
  ∃ updated, syncInScope edges scope node = .ok (node', updated)

/-- Bringing a scope into agreement changes of a node at most its list. -/
theorem relisted_of_syncInScope {edges : List Fields} {scope : Option (List String)}
    {node node' : Fields} {updated : Option String}
    (h : syncInScope edges scope node = .ok (node', updated)) :
    Relisted node node' ∧ (updated = none → node' = node) := by
  unfold syncInScope at h
  split at h
  · exact relisted_of_syncNode h
  · obtain ⟨rfl, rfl⟩ := Prod.mk.inj (Except.ok.inj h)
    exact ⟨.inl rfl, fun _ => rfl⟩

theorem SyncedTo.relisted {edges : List Fields} {scope : Option (List String)}
    {node node' : Fields} (h : SyncedTo edges scope node node') : Relisted node node' := by
  obtain ⟨_, h⟩ := h
  exact (relisted_of_syncInScope h).1

/-- **The list of a node brought into agreement is a copy**, and that of a
node outside the scope is if it was. -/
theorem SyncedTo.copies {edges : List Fields} {scope : Option (List String)}
    {node node' : Fields} (h : SyncedTo edges scope node node')
    (hpriorities : ∀ edge ∈ edges, (Transition.ofEdge edge).priority.wellFormed = true)
    (houtside : inScope scope (idOf node) = false → Copies edges node) : Copies edges node' := by
  obtain ⟨_, h⟩ := h
  unfold syncInScope at h
  split at h
  · rcases syncNode_eq_ok h with ⟨hagrees, rfl, -⟩ | ⟨-, rfl, -⟩
    · exact copies_of_nodeAgrees hagrees
    · refine copies_withTransitions node fun t ht => ?_
      obtain ⟨edge, hedge, rfl⟩ := List.mem_map.mp ht
      exact hpriorities edge (List.mem_of_mem_filter hedge)
  next hscope =>
    obtain ⟨rfl, -⟩ := Prod.mk.inj (Except.ok.inj h)
    exact houtside (by simpa using hscope)

/-- **Nodes are brought into agreement one by one**, and none is changed
where none is reported. -/
theorem syncedTo_syncNodes {edges nodes : List Fields} {scope : Option (List String)}
    {values : List Value} {updated : List String}
    (h : syncNodes (edges.map Value.obj) scope (nodes.map Value.obj) = .ok (values, updated)) :
    ∃ nodes', values = nodes'.map Value.obj
      ∧ List.Forall₂ (SyncedTo edges scope) nodes nodes'
      ∧ (updated = [] → nodes' = nodes) := by
  rw [syncNodes_map_obj] at h
  obtain ⟨done, hdone, hpair⟩ := Outcome.map_eq_ok.mp h
  obtain ⟨rfl, rfl⟩ := Prod.mk.inj hpair
  clear h hpair
  replace hdone := Outcome.mapM_eq_ok.mp hdone
  refine ⟨done.map Prod.fst, by rw [List.map_map]; rfl, ?_⟩
  induction hdone with
  | nil => exact ⟨.nil, fun _ => rfl⟩
  | @cons node d nodes done hd _ ih =>
    obtain ⟨hrest, hkept⟩ := ih
    refine ⟨.cons ⟨d.2, hd⟩ hrest, fun hnone => ?_⟩
    rw [List.flatMap_cons, List.append_eq_nil_iff, Option.toList_eq_nil_iff] at hnone
    rw [List.map_cons, (relisted_of_syncInScope hd).2 hnone.1, hkept hnone.2]

/-- **After bringing the nodes of a scope into agreement every list is a
copy**, provided those outside the scope were. -/
theorem copies_of_syncedTo {edges nodes nodes' : List Fields} {scope : Option (List String)}
    (hpriorities : ∀ edge ∈ edges, (Transition.ofEdge edge).priority.wellFormed = true)
    (houtside : ∀ node ∈ nodes, inScope scope (idOf node) = false → Copies edges node)
    (h : List.Forall₂ (SyncedTo edges scope) nodes nodes') :
    List.Forall₂ (fun node node' => Relisted node node' ∧ Copies edges node') nodes nodes' :=
  forall₂_imp_of_mem h fun node hnode _ hsync =>
    ⟨hsync.relisted, hsync.copies hpriorities (houtside node hnode)⟩

/-- **A graph document that is brought into agreement** is the graph of the
nodes brought into agreement, with the edges there were. -/
theorem syncedTo_sync {edges nodes : List Fields} {synced : Synced}
    (h : sync (Graph.ofObjects nodes edges).toValue none = .ok synced) :
    ∃ nodes', synced.revision.apply (Graph.ofObjects nodes edges).toValue
        = (Graph.ofObjects nodes' edges).toValue
      ∧ List.Forall₂ (SyncedTo edges none) nodes nodes' := by
  rw [sync, edgesOf_toValue, nodesOf_toValue] at h
  simp only [Graph.ofObjects, Outcome.ok_bind, Outcome.pure_eq] at h
  obtain ⟨⟨values, updated⟩, hnodes, h⟩ := Outcome.bind_eq_ok.mp h
  obtain ⟨nodes', rfl, hall, hkept⟩ := syncedTo_syncNodes hnodes
  refine ⟨nodes', ?_, hall⟩
  dsimp only at h
  split at h
  next hnone =>
    obtain rfl := Except.ok.inj h
    rw [hkept (List.isEmpty_iff.mp hnone)]
    rfl
  next =>
    obtain rfl := Except.ok.inj h
    rfl

/-- Of any nodes that are brought into agreement, with whatever edges, at most
the lists are changed, and nothing where none is reported. -/
theorem relisted_of_syncNodes {edges values values' : List Value} {scope : Option (List String)}
    {updated : List String} (h : syncNodes edges scope values = .ok (values', updated)) :
    ∃ nodes nodes', values = nodes.map Value.obj ∧ values' = nodes'.map Value.obj
      ∧ List.Forall₂ Relisted nodes nodes' ∧ (updated = [] → nodes' = nodes) := by
  induction values generalizing values' updated with
  | nil =>
    obtain ⟨rfl, rfl⟩ := Prod.mk.inj (Except.ok.inj h)
    exact ⟨[], [], rfl, rfl, .nil, fun _ => rfl⟩
  | cons value rest ih =>
    obtain ⟨node, hnode, h⟩ := Outcome.bind_eq_ok.mp h
    have hvalue : value = .obj node := by
      cases value with
      | obj fields => rw [Except.ok.inj hnode]
      | _ => cases hnode
    -- in scope or not, the node goes before the rest with what was done to it
    obtain ⟨node', first, hrelisted, h⟩ : ∃ node' first,
        (Relisted node node' ∧ (first = none → node' = node))
        ∧ (do
            let synced ← syncNodes edges scope rest
            return (.obj node' :: synced.1, first.toList ++ synced.2) : Outcome _)
          = .ok (values', updated) := by
      dsimp only at h
      split at h
      · obtain ⟨⟨node', first⟩, hfirst, h⟩ := Outcome.bind_eq_ok.mp h
        exact ⟨node', first, relisted_of_syncNode hfirst, h⟩
      · exact ⟨node, none, ⟨.inl rfl, fun _ => rfl⟩, h⟩
    obtain ⟨⟨others, ids⟩, hrest, h⟩ := Outcome.bind_eq_ok.mp h
    obtain ⟨rfl, rfl⟩ := Prod.mk.inj (Except.ok.inj h)
    obtain ⟨nodes, nodes', rfl, rfl, hall, hkept⟩ := ih hrest
    refine ⟨node :: nodes, node' :: nodes', by rw [hvalue]; rfl, rfl, .cons hrelisted.1 hall,
      fun hnone => ?_⟩
    rw [List.append_eq_nil_iff, Option.toList_eq_nil_iff] at hnone
    rw [hrelisted.2 hnone.1, hkept hnone.2]

/-- The revision that changes nothing keeps the lists of a graph document. -/
theorem lists_of_unchanged {document : Value} {revision : Revision} {nodes edges : List Value}
    (h : Revision.unchanged document = .ok revision) (hedges : edgesOf document = .ok edges)
    (hnodes : nodesOf document = .ok nodes) :
    edgesOf (revision.apply document) = .ok edges
      ∧ nodesOf (revision.apply document) = .ok nodes := by
  obtain ⟨fields, _, h⟩ := Outcome.bind_eq_ok.mp h
  split at h
  · obtain rfl := Except.ok.inj h
    exact ⟨hedges, hnodes⟩
  · rw [Graph.ofDocument, hnodes, Outcome.ok_bind, hedges] at h
    obtain rfl := Except.ok.inj h
    exact ⟨edgesOf_toValue _, nodesOf_toValue _⟩

/-- **Whatever is brought into agreement keeps its edges, and its nodes but
for their lists.** -/
theorem relisted_of_sync {document : Value} {ids : Option Value} {synced : Synced}
    (h : sync document ids = .ok synced) :
    ∃ edges nodes nodes', edgesOf document = .ok edges ∧ nodesOf document = .ok (nodes.map .obj)
      ∧ edgesOf (synced.revision.apply document) = .ok edges
      ∧ nodesOf (synced.revision.apply document) = .ok (nodes'.map .obj)
      ∧ List.Forall₂ Relisted nodes nodes' := by
  obtain ⟨edges, hedges, h⟩ := Outcome.bind_eq_ok.mp h
  obtain ⟨scope, h⟩ : ∃ scope, (do
      let synced ← syncNodes edges scope (← nodesOf document)
      if synced.2.isEmpty then return ⟨← Revision.unchanged document, []⟩
      else return ⟨.rebuilt ⟨synced.1, edges⟩, synced.2⟩ : Outcome Synced) = .ok synced := by
    cases ids with
    | none => exact ⟨none, h⟩
    | some ids =>
      obtain ⟨scope, _, h⟩ := Outcome.bind_eq_ok.mp h
      exact ⟨scope, h⟩
  obtain ⟨values, hvalues, h⟩ := Outcome.bind_eq_ok.mp h
  obtain ⟨⟨values', updated⟩, hsync, h⟩ := Outcome.bind_eq_ok.mp h
  obtain ⟨nodes, nodes', rfl, rfl, hall, hkept⟩ := relisted_of_syncNodes hsync
  dsimp only at h
  split at h
  next hnone =>
    obtain ⟨revision, hrevision, h⟩ := Outcome.bind_eq_ok.mp h
    obtain rfl := Except.ok.inj h
    rw [hkept (List.isEmpty_iff.mp hnone)] at hall
    obtain ⟨hedges', hnodes'⟩ := lists_of_unchanged hrevision hedges hvalues
    exact ⟨edges, nodes, nodes, hedges, hvalues, hedges', hnodes', hall⟩
  next =>
    obtain rfl := Except.ok.inj h
    exact ⟨edges, nodes, nodes', hedges, hvalues, edgesOf_toValue _, nodesOf_toValue _, hall⟩

end CallFlow
