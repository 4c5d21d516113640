import CallFlow.Proofs.Node.Dependence
import CallFlow.Proofs.Number.Numeral

/-!
# The fields of a saved node

Which fields a node of a kind is saved with is a list of names
(`NodeKind.fieldNames`), and whether a field on the list is written depends on
its name and its value alone (`isWritten`): what prompts somebody is written
where it says something, a default value wherever it is there, and anything
else where it is not null. Of actions some kinds keep those on entry only.

A saved node has its head, its transitions, and those fields, and nothing
besides (`SavedFields`). A kind that has no list keeps every field that is not
a node's own. So two nodes of one kind whose fields on the list are the same
are saved alike, whatever else an editor keeps on them (`emitNode_fields`).
-/

namespace CallFlow

/-! ## The lists -/

/-- The fields that a node of a kind is saved with, beside its own. -/
def NodeKind.fieldNames : NodeKind → List String
  | .standard =>
    ["system_prompt", "static_text", "interruptions_enabled", "actions", "rag", "llm_override",
      "intents", "intent_config"]
  | .retrieveVariable =>
    ["variables", "variable_name", "extraction_prompt", "default_value", "interruptions_enabled",
      "actions"]
  | .endCall => []
  | .agentTransfer => ["target_agent_id", "transfer_context", "transfer_message", "actions"]
  | .apiCall => ["static_text", "api_call", "interruptions_enabled", "actions"]

/-- Whether of the actions of a kind only those on entry are kept. -/
def NodeKind.entersOnly : NodeKind → Bool
  | .agentTransfer => true
  | .apiCall => true
  | _ => false

/-- The fields that count where they say something. -/
def promptingFields : List String :=
  ["system_prompt", "static_text", "intents", "variable_name", "extraction_prompt",
    "transfer_context", "transfer_message"]

/-- Whether a value under a name is written. -/
def isWritten (name : String) (value : Value) : Bool :=
  if name ∈ promptingFields then value.truthy
  else if name = "default_value" then true
  else decide (value ≠ .null)

/-! ## The plans follow the lists -/

section Plan

variable (kind : NodeKind)

theorem NodeKind.mem_fieldNames_iff (name : String) :
    name ∈ kind.fieldNames
      ↔ name ∈ kind.plan.fields.map Prod.fst ∨ (kind.entersOnly = true ∧ name = "actions") := by
  cases kind <;>
    simp [fieldNames, entersOnly, plan, EmissionPlan.fields, or_comm, or_left_comm]

theorem NodeKind.entryActions_plan : kind.plan.entryActions = kind.entersOnly := by
  cases kind <;> rfl

theorem NodeKind.keeps_rule :
    ∀ rule ∈ kind.plan.fields, ∀ value, rule.2.keeps value = isWritten rule.1 value := by
  cases kind <;>
    simp [plan, EmissionPlan.fields, Presence.keeps, isWritten, promptingFields, bne, beq_eq_decide]

/-- **What a plan copies under a name** is what is written there. -/
theorem NodeKind.copiesKey_eq {rule : String × Presence} (hrule : rule ∈ kind.plan.fields)
    (data : Fields) :
    copiesKey kind.plan.fields data rule.1 = (Fields.get? data rule.1).any (isWritten rule.1) := by
  have hkeeps : ∀ other ∈ kind.plan.fields, other.2.keeps = isWritten other.1 :=
    fun other hother => funext (kind.keeps_rule other hother)
  rw [Bool.eq_iff_iff]
  constructor
  · intro h
    obtain ⟨other, hother, hwrites⟩ := List.any_eq_true.mp h
    rw [writesUnder, Bool.and_eq_true, Key.text_same_text, decide_eq_true_eq, hkeeps other hother]
      at hwrites
    rw [← hwrites.1]
    exact hwrites.2
  · intro h
    refine List.any_eq_true.mpr ⟨rule, hrule, ?_⟩
    rw [writesUnder, Key.same_self, hkeeps rule hrule, h]
    rfl

end Plan

/-! ## A saved node -/

/-- **What a node is saved as**, of its data, under an id, and with a list of
transitions. -/
structure SavedFields (data : Fields) (id : Value) (transitions : List Value) (out : Fields) :
    Prop where
  /-- No field is there twice. -/
  distinct : Fields.distinct out = true
  /-- It has its id. -/
  id : Fields.get? out "id" = some id
  /-- Its kind is the one of the data, which is standard where they say none. -/
  kind : Fields.get? out "type" = some ((Fields.get data "type").orElse (.str "standard"))
  /-- It has its name, where that is not null. -/
  name : Fields.get? out "name" = (Fields.get? data "name").filter (· ≠ .null)
  /-- It has its transitions, where there are any and the call goes on from
  it. -/
  transitions : Fields.get? out "transitions"
    = if transitions ≠ [] ∧ (kindOf data).text ≠ "end_call" ∧ (kindOf data).text ≠ "agent_transfer"
      then some (.list transitions) else none
  /-- A field on the list of its kind is the one of the data, where it is
  written. -/
  listed : ∀ kind, NodeKind.ofName? (kindOf data).text = some kind → ∀ name ∈ kind.fieldNames,
    (kind.entersOnly = true → name ≠ "actions") →
    Fields.get? out name = (Fields.get? data name).filter (isWritten name)
  /-- Where only actions on entry are kept they are kept as a list, if there
  are any. -/
  entry : ∀ kind, NodeKind.ofName? (kindOf data).text = some kind → kind.entersOnly = true →
    if (statedOnEntry data).truthy then
      ∃ items, items ≠ [] ∧ (statedOnEntry data).elements = .ok items
        ∧ Fields.get? out "actions" = some (.obj [("on_entry", .list items)])
    else Fields.get? out "actions" = none
  /-- A node of a known kind has nothing else. -/
  nothingElse : ∀ kind, NodeKind.ofName? (kindOf data).text = some kind → ∀ key : Key,
    key ∉ (["id", "type", "name", "transitions"] : List Key) →
    (∀ name ∈ kind.fieldNames, key ≠ name) → Fields.get? out key = none
  /-- A node of an unknown kind has every field of its data that is not a
  node's own, and none of what an editor keeps about it. -/
  verbatim : NodeKind.ofName? (kindOf data).text = none →
    (∀ key ∉ ownKeys, Fields.get? out key = Fields.get? data key)
    ∧ Fields.get? out "_metadata" = none
    ∧ out.filter (fun f => f.1 ∉ ownKeys) = data.filter (fun f => f.1 ∉ ownKeys)

section EmitNode

variable {data out : Fields} {id : Value} {transitions : List Value} {kind : NodeKind}

/-- A field on the list of a kind is saved as it is, where it is written. -/
theorem get?_emitNode_of_listed (hkind : NodeKind.ofName? (kindOf data).text = some kind)
    (h : emitNode data id (.list transitions) = .ok out) {name : String}
    (hname : name ∈ kind.fieldNames) (hentry : kind.entersOnly = true → name ≠ "actions") :
    Fields.get? out name = (Fields.get? data name).filter (isWritten name) := by
  rcases (kind.mem_fieldNames_iff name).mp hname with hrule | ⟨honly, hactions⟩
  · obtain ⟨rule, hmem, rfl⟩ := List.mem_map.mp hrule
    rw [get?_emitNode_of_rule hkind h hmem, kind.copiesKey_eq hmem]
    cases Fields.get? data rule.1 with
    | none => rfl
    | some value => rfl
  · exact absurd hactions (hentry honly)

/-- Of the actions of some kinds those on entry are saved, as a list. -/
theorem get?_emitNode_actions (hkind : NodeKind.ofName? (kindOf data).text = some kind)
    (h : emitNode data id (.list transitions) = .ok out) (honly : kind.entersOnly = true) :
    if (statedOnEntry data).truthy then
      ∃ items, items ≠ [] ∧ (statedOnEntry data).elements = .ok items
        ∧ Fields.get? out "actions" = some (.obj [("on_entry", .list items)])
    else Fields.get? out "actions" = none := by
  rw [← kind.entryActions_plan] at honly
  have hwritten : putEntryActions data (kind.plan.body data (.list transitions) (nodeHead data id))
      = .ok out := by
    rcases emitNode_of_known hkind h with ⟨_, hout⟩ | ⟨hno, _⟩
    · exact hout
    · rw [honly] at hno
      cases hno
  rcases putEntryActions_eq_ok hwritten with ⟨hblank, rfl⟩ | ⟨items, hstated, hitems, hsome, rfl⟩
  · -- the plan has no rule for actions and a head has none
    have hforeign : Key.text "actions" ∉ ownKeys := by decide
    rw [if_neg (by simp [hblank]), kind.get?_body,
      if_neg fun h => ne_of_not_mem_ownKeys hforeign (by decide) h.2,
      NodeKind.copiesKey_actions honly, if_neg Bool.false_ne_true,
      get?_nodeHead_of_foreign data id hforeign]
  · rw [hstated, if_pos rfl]
    refine ⟨items, ?_, hitems, Fields.get?_put_self _ _ _⟩
    rintro rfl
    cases hsome

/-- A node of a known kind is saved without any field that is neither its own
nor on the list of its kind. -/
theorem get?_emitNode_of_unlisted (hkind : NodeKind.ofName? (kindOf data).text = some kind)
    (h : emitNode data id (.list transitions) = .ok out) {key : Key}
    (hown : key ∉ (["id", "type", "name", "transitions"] : List Key))
    (hlist : ∀ name ∈ kind.fieldNames, key ≠ name) : Fields.get? out key = none := by
  have hnone : copiesKey kind.plan.fields data key = false := by
    rw [copiesKey, List.any_eq_false]
    intro rule hrule hwrites
    rw [writesUnder, Bool.and_eq_true] at hwrites
    exact hlist rule.1 ((kind.mem_fieldNames_iff _).mpr (.inl (List.mem_map_of_mem hrule)))
      (Key.text_same_iff.mp hwrites.1)
  have hactions : kind.plan.entryActions = true → key ≠ "actions" := by
    rw [kind.entryActions_plan]
    exact fun honly => hlist _ ((kind.mem_fieldNames_iff _).mpr (.inr ⟨honly, rfl⟩))
  simp only [List.mem_cons, List.not_mem_nil, or_false, not_or] at hown
  rw [get?_emitNode_of_known hkind h hactions, if_neg fun h => hown.2.2.2 h.2, hnone,
    if_neg Bool.false_ne_true, get?_nodeHead_of_ne data id hown.1 hown.2.1 hown.2.2.1]

/-- A node of an unknown kind is saved with all fields that are not its own,
as they are. -/
theorem emitNode_verbatim (hd : Fields.distinct data = true)
    (hkind : NodeKind.ofName? (kindOf data).text = none)
    (h : emitNode data id (.list transitions) = .ok out) :
    (∀ key ∉ ownKeys, Fields.get? out key = Fields.get? data key)
    ∧ Fields.get? out "_metadata" = none
    ∧ out.filter (fun f => f.1 ∉ ownKeys) = data.filter (fun f => f.1 ∉ ownKeys) := by
  refine ⟨fun key hkey => ?_, ?_, ?_⟩
  · rw [get?_emitNode_of_unknown hkind h,
      if_neg fun h => ne_of_not_mem_ownKeys hkey (by decide) h.2, get?_verbatim hd hkey,
      get?_nodeHead_of_foreign data id hkey, Option.or_none]
  · rw [get?_emitNode_head h (by decide) (by decide),
      get?_nodeHead_of_ne data id (by decide) (by decide) (by decide)]
  · rw [emitNode, hkind] at h
    obtain rfl := Except.ok.inj h
    exact filter_writeVerbatim hd id (.list transitions)

/-- **What a node is saved as.** -/
theorem savedFields_emitNode (hd : Fields.distinct data = true)
    (h : emitNode data id (.list transitions) = .ok out) : SavedFields data id transitions out where
  distinct := distinct_emitNode h
  id := by rw [get?_emitNode_head h (by decide) (by decide), get?_nodeHead_id]
  kind := by
    rw [get?_emitNode_head h (by decide) (by decide), get?_nodeHead_type]
    rfl
  name := by
    rw [get?_emitNode_head h (by decide) (by decide), get?_nodeHead_name, Fields.get]
    cases Fields.get? data "name" with
    | none => rfl
    | some value => by_cases hnull : value = .null <;> simp [Option.filter, hnull]
  transitions := by
    rw [get?_emitNode_transitions h, keepsTransitions, Value.truthy, NodeKind.name, NodeKind.name]
    refine if_congr ?_ rfl rfl
    simp [and_comm]
  listed _ hkind _ hname hentry := get?_emitNode_of_listed hkind h hname hentry
  entry _ hkind honly := get?_emitNode_actions hkind h honly
  nothingElse _ hkind _ hown hlist := get?_emitNode_of_unlisted hkind h hown hlist
  verbatim hkind := emitNode_verbatim hd hkind h

end EmitNode

/-! ## Nodes of one kind -/

theorem kindOf_of_known {data : Fields} {kind : NodeKind}
    (h : NodeKind.ofName? (kindOf data).text = some kind) : kindOf data = .str kind.name :=
  NodeKind.eq_str_of_text_eq_name (NodeKind.name_of_ofName? h).symm

/-- **Nodes of one known kind that agree on their name and on the fields of
their list are saved alike.** -/
theorem savedAlike_of_listed {data data' : Fields} {kind : NodeKind}
    (hkind : NodeKind.ofName? (kindOf data).text = some kind)
    (hkind' : NodeKind.ofName? (kindOf data').text = some kind)
    (hname : Fields.get data' "name" = Fields.get data "name")
    (hlist : ∀ name ∈ kind.fieldNames, Fields.get? data' name = Fields.get? data name) :
    SavedAlike data data' := by
  refine ⟨?_, hname, fun k hk rule hrule => ?_, fun k hk hentry out => ?_, fun hno => ?_⟩
  · rw [kindOf_of_known hkind, kindOf_of_known hkind']
  · obtain rfl := Option.some.inj (hkind.symm.trans hk)
    rw [keptBy, keptBy,
      hlist rule.1 ((kind.mem_fieldNames_iff _).mpr (.inl (List.mem_map_of_mem hrule)))]
  · obtain rfl := Option.some.inj (hkind.symm.trans hk)
    rw [kind.entryActions_plan] at hentry
    have hactions : Fields.get data' "actions" = Fields.get data "actions" := by
      rw [Fields.get, hlist "actions" ((kind.mem_fieldNames_iff _).mpr (.inr ⟨hentry, rfl⟩)),
        Fields.get]
    rw [putEntryActions, putEntryActions, hactions]
  · rw [hkind] at hno
    cases hno

/-- **A node is saved with exactly the fields of its kind.** Whatever is saved
of some data, under an id and with a list of transitions, has the fields that
`SavedFields` says and no others, and it is of the kind of the data. So of two
nodes of one known kind that agree on their name and on the fields on the list
of the kind the same is saved, whatever else their data hold. -/
theorem emitNode_fields :
    (∀ {data out : Fields} {id : Value} {transitions : List Value},
      Fields.distinct data = true → emitNode data id (.list transitions) = .ok out →
      SavedFields data id transitions out)
    ∧ ∀ {data data' : Fields} {kind : NodeKind},
      NodeKind.ofName? (kindOf data).text = some kind →
      NodeKind.ofName? (kindOf data').text = some kind →
      Fields.get data' "name" = Fields.get data "name" →
      (∀ name ∈ kind.fieldNames, Fields.get? data' name = Fields.get? data name) →
      ∀ id transitions : Value, emitNode data' id transitions = emitNode data id transitions :=
  ⟨savedFields_emitNode, fun hkind hkind' hname hlist =>
    (savedAlike_of_listed hkind hkind' hname hlist).emitNode_eq⟩

/-- A node that hands a call over, with a message that says nothing, a field of
another kind, and actions on leaving. -/
def strayTransfer : Fields :=
  [("type", .str "agent_transfer"), ("name", .str "Desk"), ("target_agent_id", .str ""),
    ("transfer_message", .str ""), ("system_prompt", .str "Hi"),
    ("actions", .obj [("on_entry", .list [.int 1]), ("on_exit", .list [.int 2])]),
    ("transitions", .list [.obj []])]

/-- The same node without what is not saved of it. -/
def plainTransfer : Fields :=
  [("actions", .obj [("on_entry", .list [.int 1]), ("on_exit", .list [.int 2])]),
    ("transfer_message", .str ""), ("target_agent_id", .str ""), ("name", .str "Desk"),
    ("type", .str "agent_transfer")]

/-- What is saved of the first of those, and that the same is saved of the
other. -/
theorem emitNode_fields_strayTransfer :
    ∃ out, emitNode strayTransfer (.str "a") (.list [.obj []]) = .ok out
      ∧ SavedFields strayTransfer (.str "a") [.obj []] out
      ∧ Fields.get? out "transfer_message" = none ∧ Fields.get? out "system_prompt" = none
      ∧ Fields.get? out "target_agent_id" = some (.str "")
      ∧ emitNode plainTransfer (.str "a") (.list [.obj []]) = .ok out := by
  obtain ⟨out, hout⟩ : ∃ out, emitNode strayTransfer (.str "a") (.list [.obj []]) = .ok out :=
    ⟨_, rfl⟩
  have hkind : NodeKind.ofName? (kindOf strayTransfer).text = some .agentTransfer := by decide
  have hsaved := emitNode_fields.1 (by decide) hout
  refine ⟨out, hout, hsaved, ?_, ?_, ?_, ?_⟩
  · rw [hsaved.listed _ hkind "transfer_message" (by decide) (by decide)]
    rfl
  · exact hsaved.nothingElse _ hkind _ (by decide) (by decide)
  · rw [hsaved.listed _ hkind "target_agent_id" (by decide) (by decide)]
    rfl
  · rw [← hout]
    exact emitNode_fields.2 hkind (by decide) rfl (by decide) _ _

end CallFlow
