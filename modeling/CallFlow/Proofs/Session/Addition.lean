import CallFlow.Proofs.Graph.Synchronisation
import CallFlow.Proofs.Session.Agreement

/-!
# What a new node meets

Adding a node puts it behind the others and looks at none of them, nor at the
edges. It is given a list without transitions, as if nothing could start from
it. Both are right for a fresh id. But an id may be given, and an edge may be
drawn from a node that is not there: then the new node may come second under
its id, or may have edges from the start that its list does not say.

`addNode_meets` tells the two apart exactly. Ids stay distinct just if no node
had the id, and the graph stays in agreement just if no edge started from it;
if one did, the new node is what bringing the graph into agreement reports.
-/

namespace CallFlow

theorem cachedTransitions_newNode (id kind : Value) (place : Fields) :
    cachedTransitions (dataOf (newNode id kind place)) = .list [] := by
  rw [dataOf_newNode, cachedTransitions, get_transitions_templateFor]
  rfl

/-- **A new node is stale if an edge starts from it.** -/
theorem isStale_newNode (edges : List Fields) (id : String) (kind : Value) (place : Fields) :
    isStale edges (newNode (.str id) kind place) = edges.any fun e => sourceOf e = id := by
  have hid : idOf (newNode (.str id) kind place) = id := by
    rw [idOf, get_id_newNode, Value.idText_str]
  have hnone : (outgoing edges id = []) ↔ (edges.any fun e => sourceOf e = id) = false := by
    simp [outgoing]
  rw [isStale, nodeAgrees_map_obj, hid, cachedTransitions_newNode, transitionsAgree_list]
  cases hany : edges.any fun e => sourceOf e = id with
  | false => rw [hnone.mpr hany]; rfl
  | true =>
    have hsome : outgoing edges id ≠ [] := fun h => by
      rw [hnone.mp h] at hany
      cases hany
    obtain ⟨t, ts, hts⟩ := List.exists_cons_of_ne_nil hsome
    rw [hts]
    rfl

variable {document : Value} {nodes edges : List Fields}

/-- **What a new node meets.** In a graph of nodes with distinct ids that is in
agreement, adding a node under an id keeps the ids distinct just if no node has
it, and keeps the graph in agreement just if no edge starts from it. -/
theorem addNode_meets (hg : Holds document nodes edges) (hids : (nodes.map idOf).Nodup)
    (hsynced : ∃ synced, sync document none = .ok synced ∧ synced.updated = [])
    {kind given : Value} {draw : Draw} {id : String}
    (hid : newId kind given draw = .ok (.str id)) (place : Fields) :
    ∃ node synced, addNode document kind (.obj place) given draw
        = .ok (.rebuilt (Graph.ofObjects (nodes ++ [node]) edges), .str id)
      ∧ idOf node = id
      ∧ (((nodes ++ [node]).map idOf).Nodup ↔ id ∉ nodes.map idOf)
      ∧ sync (Graph.ofObjects (nodes ++ [node]) edges).toValue none = .ok synced
      ∧ synced.updated = if edges.any (fun e => sourceOf e = id) then [id] else [] := by
  obtain ⟨unchanged, hunchanged⟩ := hg.exists_unchanged
  obtain ⟨synced, hsync, hnone⟩ := hsynced
  obtain ⟨hreadable, rfl, _⟩ := @sync_eq_ok _ _ _ hg _ hunchanged none _ hsync
  have hnode : idOf (newNode (.str id) kind place) = id := by
    rw [idOf, get_id_newNode, Value.idText_str]
  have hreadable' : (nodes ++ [newNode (.str id) kind place]).all (isReadable none) = true := by
    have hnew : isCountable (newNode (.str id) kind place) = true := by
      rw [isCountable, cachedTransitions_newNode]
    rw [List.all_append, hreadable, List.all_cons, isReadable, hnew, Bool.or_true]
    rfl
  have hreported : (nodes ++ [newNode (.str id) kind place]).filter (isReported edges none)
      = if edges.any (fun e => sourceOf e = id) then [newNode (.str id) kind place] else [] := by
    rw [List.filter_append, List.map_eq_nil_iff.mp hnone, List.nil_append, List.filter_singleton,
      isReported, isStale_newNode]
    cases edges.any fun e => sourceOf e = id <;> rfl
  refine ⟨newNode (.str id) kind place, _, ?_, hnode, ?_,
    (sync_eq (holds_toValue _ _) rfl none).trans (if_pos hreadable'), ?_⟩
  · rw [addNode_eq hg, hid]
    rfl
  · rw [List.map_append, List.map_singleton, hnode, List.nodup_append]
    simp [hids]
  · dsimp only
    rw [hreported]
    split <;> simp [hnode]

namespace Session

/-- A node of a new id, in a graph where no edge starts from it. -/
theorem addNode_meets_loop :
    ∃ g synced, CallFlow.addNode (loopSession (.int 1)).graph (.str "end_call") (.obj [])
        (.str "b") {} = .ok (.rebuilt g, .str "b")
      ∧ sync g.toValue none = .ok synced ∧ synced.updated = [] := by
  have hsync : Synced.updated <$> sync (loopSession (.int 1)).graph none = .ok [] := by
    decide +kernel
  have hid : newId (.str "end_call") (.str "b") {} = .ok (.str "b") := rfl
  obtain ⟨_, synced, hadd, _, _, hsynced, hupdated⟩ := addNode_meets (holds_toValue _ _)
    (by decide +kernel) (Outcome.map_eq_ok.mp hsync) hid []
  exact ⟨_, synced, hadd, hsynced, hupdated⟩

/-- **A new node that is not in agreement.** An edge is drawn from a node that is
not there, and then the node is added; or one is added under an id that is
taken. -/
theorem addNode_unsynced_loop :
    ∃ first, ofConfig .default (loopConfig (.int 1)) = .ok first
      ∧ Synced.updated <$> sync (first.run [.connect (.str "b") (.str "a") (.str "always")
          (.int 0)]).graph none = .ok []
      ∧ Synced.updated <$> sync (first.run [.connect (.str "b") (.str "a") (.str "always")
          (.int 0), .addNode (.str "end_call") (.obj []) (.str "b") {}]).graph none = .ok ["b"]
      ∧ (do elementIds (← nodesOf (first.run [.addNode (.str "end_call") (.obj []) (.str "a")
          {}]).graph)) = Except.ok ["a", "a"] := by
  refine ⟨loopSession (.int 1), ?_, ?_, ?_, ?_⟩ <;> decide +kernel

end Session

end CallFlow
