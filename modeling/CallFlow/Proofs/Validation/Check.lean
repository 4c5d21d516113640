import CallFlow.Validation.Check
import CallFlow.Proofs.Graph.Agreement

/-!
# What it means that nothing is wrong

Checking a workflow makes a list of problems, rule by rule. Nothing is wrong
with it exactly if it is *valid* (`problemsAmong_eq_nil_iff`): its nodes have
ids, each a different one, its edges lead from nodes to nodes, some node
ends the call, the call starts at a node, and no node lacks what its kind
needs.
-/

namespace CallFlow

/-- **A workflow that nothing is wrong with.** -/
structure Valid (nodes edges : List Fields) (initial : Value) : Prop where
  /-- No two nodes share an id. -/
  ids : (nodes.map idOf).Nodup
  /-- Every node has an id. -/
  named : ∀ node ∈ nodes, idOf node ≠ ""
  /-- Every edge starts from a node. -/
  sources : ∀ edge ∈ edges, sourceOf edge ∈ nodes.map idOf
  /-- Every edge leads to a node. -/
  targets : ∀ edge ∈ edges, targetOf edge ∈ nodes.map idOf
  /-- Some node ends the call. -/
  endCall : ∃ node ∈ nodes, kindText node = NodeKind.endCall.name
  /-- The call starts at a node, if a start is asked for. -/
  initial : initial = .null ∨ ∃ id ∈ nodes.map idOf, initial = .str id
  /-- No node lacks what its kind needs. -/
  contents : ∀ node ∈ nodes, contentProblems node = []

/-- Ids are complained of unless each is there once and says something. -/
theorem idProblems_eq_nil {ids : List String} :
    idProblems ids = [] ↔ ids.Nodup ∧ ∀ id ∈ ids, id ≠ "" := by
  rw [idProblems, List.filterMap_eq_nil_iff, List.nodup_iff_count_le_one]
  constructor
  · intro h
    have hboth : ∀ id ∈ ids, id ≠ "" ∧ ids.count id ≤ 1 := by
      intro id hid
      have hnone := h id (List.mem_eraseDups.mpr hid)
      by_cases hblank : id = ""
      · rw [if_pos hblank] at hnone
        cases hnone
      · by_cases hcount : 1 < ids.count id
        · rw [if_neg hblank, if_pos hcount] at hnone
          cases hnone
        · exact ⟨hblank, Nat.le_of_not_lt hcount⟩
    refine ⟨fun id => ?_, fun id hid => (hboth id hid).1⟩
    by_cases hid : id ∈ ids
    · exact (hboth id hid).2
    · rw [List.count_eq_zero.mpr hid]
      exact Nat.zero_le 1
  · rintro ⟨hcount, hnamed⟩ id hid
    rw [if_neg (hnamed id (List.mem_eraseDups.mp hid)), if_neg (Nat.not_lt.mpr (hcount id))]

theorem endProblems_eq_nil {ids : List String} {edge : Fields} :
    endProblems ids edge = [] ↔ sourceOf edge ∈ ids ∧ targetOf edge ∈ ids := by
  rw [endProblems, List.append_eq_nil_iff]
  by_cases hs : sourceOf edge ∈ ids <;> by_cases ht : targetOf edge ∈ ids <;> simp [hs, ht]

/-- It is complained that no node ends the call unless one does. -/
theorem endCallProblems_eq_nil {nodes : List Fields} :
    endCallProblems nodes = [] ↔ ∃ node ∈ nodes, kindText node = NodeKind.endCall.name := by
  have hany : nodes.any (fun n => kindText n = NodeKind.endCall.name) = true
      ↔ ∃ node ∈ nodes, kindText node = NodeKind.endCall.name := by simp
  rw [endCallProblems]
  by_cases h : nodes.any (fun n => kindText n = NodeKind.endCall.name) = true
  · rw [if_pos h]
    exact ⟨fun _ => hany.mp h, fun _ => rfl⟩
  · rw [if_neg h]
    exact ⟨fun hsome => absurd hsome (List.cons_ne_nil _ _), fun hend => absurd (hany.mpr hend) h⟩

theorem endCallProblems_eq (nodes : List Fields) : endCallProblems nodes
    = if (nodes.map kindText).any (· = NodeKind.endCall.name) then [] else [.noEndCall] := by
  rw [endCallProblems, List.any_map]
  rfl

/-- The initial node is complained of unless it is there or not asked for. -/
theorem initialNodeProblems_eq_nil {ids : List String} {initial : Value} :
    initialNodeProblems ids initial = .ok []
      ↔ initial = .null ∨ ∃ id ∈ ids, initial = .str id := by
  cases initial with
  | null => exact ⟨fun _ => .inl rfl, fun _ => rfl⟩
  | str s =>
    by_cases hs : s ∈ ids
    · simp [initialNodeProblems, Value.isIdIn, hs, Outcome.pure_eq]
    · simp [initialNodeProblems, Value.isIdIn, hs, Outcome.pure_eq]
  | _ =>
    constructor
    · intro h
      cases h
    · rintro (h | ⟨id, _, h⟩) <;> cases h

/-- **Nothing is wrong with a workflow exactly if it is valid.** -/
theorem problemsAmong_eq_nil_iff {nodes edges : List Fields} {initial : Value} :
    problemsAmong nodes edges initial = .ok [] ↔ Valid nodes edges initial := by
  have hflat : ∀ {α : Type} (xs : List α) (f : α → List Problem),
      xs.flatMap f = [] ↔ ∀ x ∈ xs, f x = [] := fun xs f => List.flatMap_eq_nil_iff
  constructor
  -- the list of problems is made of one part for each rule, and is empty if all parts are
  · intro h
    obtain ⟨atStart, hstart, h⟩ := Outcome.bind_eq_ok.mp h
    have h := Except.ok.inj h
    rw [List.append_eq_nil_iff, List.append_eq_nil_iff, List.append_eq_nil_iff,
      List.append_eq_nil_iff, hflat, hflat] at h
    obtain ⟨⟨⟨⟨hids, hends⟩, hend⟩, rfl⟩, hcontents⟩ := h
    obtain ⟨hnodup, hnamed⟩ := idProblems_eq_nil.mp hids
    exact ⟨hnodup, fun node hnode => hnamed _ (List.mem_map_of_mem hnode),
      fun edge hedge => (endProblems_eq_nil.mp (hends edge hedge)).1,
      fun edge hedge => (endProblems_eq_nil.mp (hends edge hedge)).2,
      endCallProblems_eq_nil.mp hend, initialNodeProblems_eq_nil.mp hstart, hcontents⟩
  · intro h
    have hnamed : ∀ id ∈ nodes.map idOf, id ≠ "" := by
      intro id hid
      obtain ⟨node, hnode, rfl⟩ := List.mem_map.mp hid
      exact h.named node hnode
    rw [problemsAmong, initialNodeProblems_eq_nil.mpr h.initial, Outcome.ok_bind,
      idProblems_eq_nil.mpr ⟨h.ids, hnamed⟩, endCallProblems_eq_nil.mpr h.endCall,
      (hflat _ _).mpr h.contents,
      (hflat _ _).mpr fun edge hedge =>
        endProblems_eq_nil.mpr ⟨h.sources edge hedge, h.targets edge hedge⟩]
    rfl

theorem kindText_eq (node : Fields) : kindText node = (kindOf (dataOf node)).text := by
  rw [kindText, kindOf, Value.textOr, Value.orElse]
  split <;> rfl

/-- **Whether a node is checked as another**: it has the same id, and its data
say the same but for the list of transitions. -/
structure CheckedAs (node node' : Fields) : Prop where
  /-- The id is the same. -/
  idOf_eq : idOf node' = idOf node
  /-- The data are, but for the list. -/
  get_dataOf : ∀ {key : String}, key ≠ "transitions" →
    Fields.get (dataOf node') key = Fields.get (dataOf node) key

theorem Relisted.checkedAs {node node' : Fields} (h : Relisted node node') :
    CheckedAs node node' := by
  refine ⟨h.idOf_eq, fun hkey => ?_⟩
  rcases h with rfl | ⟨transitions, rfl⟩
  · rfl
  · rw [dataOf_withTransitions, Fields.get_put_of_ne _ _ (by simpa using hkey.symm)]

namespace CheckedAs

variable {node node' : Fields} (h : CheckedAs node node')

include h

theorem kindText_eq : kindText node' = kindText node := by
  rw [CallFlow.kindText_eq, CallFlow.kindText_eq, kindOf, kindOf, h.get_dataOf (by decide)]

/-- A node that is checked as another lacks what that one does. -/
theorem contentProblems_eq : contentProblems node' = contentProblems node := by
  have hget : ∀ key : String, key ≠ "transitions" →
      Fields.get (Fields.get node' "data").fieldsOrNone key
        = Fields.get (Fields.get node "data").fieldsOrNone key := fun _ => h.get_dataOf
  simp only [contentProblems, h.kindText_eq, h.idOf_eq, hget "system_prompt" (by decide),
    hget "static_text" (by decide), hget "variables" (by decide),
    hget "variable_name" (by decide), hget "extraction_prompt" (by decide),
    hget "target_agent_id" (by decide)]

end CheckedAs

/-- **Two workflows have the same problems** if their nodes have the same ids
and kinds and each lacks what its counterpart does, and their edges have the
same ids and ends. -/
theorem problemsAmong_congr {nodes nodes' edges edges' : List Fields}
    (hnodes : List.Forall₂ (fun node node' => idOf node' = idOf node
      ∧ kindText node' = kindText node ∧ contentProblems node' = contentProblems node) nodes nodes')
    (hedges : List.Forall₂ (fun edge edge' => idOf edge' = idOf edge
      ∧ sourceOf edge' = sourceOf edge ∧ targetOf edge' = targetOf edge) edges edges')
    (initial : Value) : problemsAmong nodes' edges' initial = problemsAmong nodes edges initial := by
  have hids : nodes'.map idOf = nodes.map idOf :=
    map_eq_map_of_forall₂ (hnodes.imp fun _ _ h => h.1)
  have hkinds : nodes'.map kindText = nodes.map kindText :=
    map_eq_map_of_forall₂ (hnodes.imp fun _ _ h => h.2.1)
  have hcontents : nodes'.flatMap contentProblems = nodes.flatMap contentProblems := by
    rw [List.flatMap_def, List.flatMap_def, map_eq_map_of_forall₂ (hnodes.imp fun _ _ h => h.2.2)]
  have hends : ∀ ids, edges'.flatMap (endProblems ids) = edges.flatMap (endProblems ids) := by
    intro ids
    rw [List.flatMap_def, List.flatMap_def]
    refine congrArg _ (map_eq_map_of_forall₂ (hedges.imp fun edge edge' h => ?_))
    rw [endProblems, h.1, h.2.1, h.2.2, ← endProblems]
  rw [problemsAmong, problemsAmong, hids, hcontents, hends, endCallProblems_eq, endCallProblems_eq,
    hkinds]

theorem initialNodeProblems_str (ids : List String) (id : String) :
    initialNodeProblems ids (.str id)
      = .ok (if id ∈ ids then [] else [.initialNodeMissing id]) := by
  by_cases hid : id ∈ ids <;> simp [initialNodeProblems, Value.isIdIn, hid, Outcome.pure_eq]

/-- **A workflow is checked without fault** against an initial node, or
against none. -/
theorem exists_problemsAmong (nodes edges : List Fields) {initial : Value}
    (hinitial : initial = .null ∨ ∃ id, initial = .str id) :
    ∃ problems, problemsAmong nodes edges initial = .ok problems := by
  obtain ⟨atStart, hstart⟩ : ∃ atStart,
      initialNodeProblems (nodes.map idOf) initial = .ok atStart := by
    rcases hinitial with rfl | ⟨id, rfl⟩
    · exact ⟨[], rfl⟩
    · exact ⟨_, initialNodeProblems_str _ id⟩
  rw [problemsAmong, hstart]
  exact ⟨_, rfl⟩

end CallFlow
