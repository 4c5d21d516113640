import CallFlow.Node.Emission
import CallFlow.Proofs.Value.Fields
import CallFlow.Proofs.Value.Outcome

/-!
# What a node is saved as

A saved node is determined by what is read under each of its keys. Its id,
its kind and its name are those of its head, whatever the data say. Its
transitions are the ones handed in, unless its kind is one that goes on
nowhere (`keepsTransitions`), and there is no such field where there are
none. Every other field is the one in the data, where the plan of the kind
writes it, and all of them are where the kind has no plan.

No field is there twice (`distinct_emitNode`), so a saved node is known up
to the order of its fields.
-/

namespace CallFlow

/-- Whether a rule writes what the data have under a key. -/
def writesUnder (data : Fields) (key : Key) (rule : String × Presence) : Bool :=
  (rule.1 : Key).same key && (Fields.get? data rule.1).any rule.2.keeps

/-- Whether some rule writes what the data have under a key. -/
def copiesKey (rules : List (String × Presence)) (data : Fields) (key : Key) : Bool :=
  rules.any (writesUnder data key)

/-- Whether a node's kind is one whose transitions are saved: a call neither
ends there nor goes to another agent. -/
def keepsTransitions (data : Fields) : Bool :=
  (kindOf data).text ≠ NodeKind.endCall.name && (kindOf data).text ≠ NodeKind.agentTransfer.name

/-! ## Fields written by rule -/

section Rules

variable (rules : List (String × Presence)) (data out : Fields)

theorem copyFields_cons (rule : String × Presence) :
    copyFields (rule :: rules) data out
      = copyFields rules data (match Fields.get? data rule.1 with
        | some value => if rule.2.keeps value then Fields.put out rule.1 value else out
        | none => out) := rfl

/-- **What is read after copying fields**: what the data have under the key
where a rule writes it, and what was there before where none does. -/
theorem get?_copyFields (key : Key) :
    Fields.get? (copyFields rules data out) key
      = if copiesKey rules data key then Fields.get? data key else Fields.get? out key := by
  induction rules generalizing out with
  | nil => rfl
  | cons rule rest ih =>
    have hcons : copiesKey (rule :: rest) data key
        = (writesUnder data key rule || copiesKey rest data key) := List.any_cons
    rw [copyFields_cons, ih, hcons]
    -- a later rule for the key writes over an earlier one, but it writes the same
    by_cases hrest : copiesKey rest data key = true
    · rw [if_pos hrest, hrest, Bool.or_true, if_pos rfl]
    · rw [if_neg hrest, (by simpa using hrest : copiesKey rest data key = false), Bool.or_false]
      cases hread : Fields.get? data rule.1 with
      | none => simp [writesUnder, hread]
      | some value =>
        by_cases hkeeps : rule.2.keeps value = true
        · by_cases hkey : (rule.1 : Key).same key = true
          · simp [writesUnder, hread, hkeeps, hkey, Fields.get?_put, ← Fields.get?_congr data hkey]
          · simp [writesUnder, hread, hkeeps, hkey, Fields.get?_put]
        · simp [writesUnder, hread, hkeeps]

variable {rules data} in
theorem copiesKey_of_keeps {rule : String × Presence} (hrule : rule ∈ rules) {value : Value}
    (hread : Fields.get? data rule.1 = some value) (hkeeps : rule.2.keeps value = true) :
    copiesKey rules data rule.1 = true := by
  refine List.any_eq_true.mpr ⟨rule, hrule, ?_⟩
  rw [writesUnder, Key.same_self, hread]
  exact hkeeps

/-- Copying fields leaves no key twice. -/
theorem distinct_copyFields (h : Fields.distinct out = true) :
    Fields.distinct (copyFields rules data out) = true := by
  induction rules generalizing out with
  | nil => exact h
  | cons rule rest ih =>
    rw [copyFields_cons]
    refine ih _ ?_
    split
    · split
      · exact Fields.distinct_put h _ _
      · exact h
    · exact h

end Rules

/-- The fields of a plan, wherever they are written. -/
def EmissionPlan.fields (plan : EmissionPlan) : List (String × Presence) :=
  plan.leading ++ plan.trailing

theorem NodeKind.same_ownKeys (kind : NodeKind) :
    ∀ rule ∈ kind.plan.fields, ∀ key ∈ ownKeys, (rule.1 : Key).same key = false := by
  cases kind <;> decide

theorem NodeKind.rule_ne_ownKey (kind : NodeKind) {rule : String × Presence}
    (hrule : rule ∈ kind.plan.fields) {key : Key} (hkey : key ∈ ownKeys) :
    Key.text rule.1 ≠ key := by
  rintro rfl
  exact Bool.noConfusion ((Key.same_self _).symm.trans (kind.same_ownKeys rule hrule _ hkey))

theorem NodeKind.rule_ne_actions {kind : NodeKind} (hentry : kind.plan.entryActions = true) :
    ∀ rule ∈ kind.plan.fields, Key.text rule.1 ≠ "actions" := by
  revert hentry
  cases kind <;> decide

theorem NodeKind.copiesKey_ownKeys (kind : NodeKind) (data : Fields) {key : Key}
    (hkey : key ∈ ownKeys) : copiesKey kind.plan.fields data key = false := by
  rw [copiesKey, List.any_eq_false]
  intro rule hrule
  rw [writesUnder, kind.same_ownKeys rule hrule key hkey]
  exact Bool.false_ne_true

theorem NodeKind.copiesKey_actions {kind : NodeKind} (hentry : kind.plan.entryActions = true)
    (data : Fields) : copiesKey kind.plan.fields data "actions" = false := by
  rw [copiesKey, List.any_eq_false]
  intro rule hrule hwrites
  rw [writesUnder, Bool.and_eq_true] at hwrites
  exact NodeKind.rule_ne_actions hentry rule hrule (Key.text_same_iff.mp hwrites.1).symm

/-! ## The parts of a saved node -/

/-- A value that says something and has elements has some. -/
theorem Value.truthy_of_elements {value : Value} {items : List Value}
    (h : value.truthy = true) (hitems : value.elements = .ok items) :
    (Value.list items).truthy = true := by
  cases value with
  | list vs =>
    obtain rfl := Except.ok.inj hitems
    exact h
  | str s =>
    obtain rfl := Except.ok.inj hitems
    simpa [truthy] using h
  | obj fields =>
    obtain rfl := Except.ok.inj hitems
    simpa [truthy] using h
  | _ => cases hitems

/-- What is read after writing the transitions. -/
theorem get?_putTransitions (transitions : Value) (out : Fields) (key : Key) :
    Fields.get? (putTransitions transitions out) key
      = if transitions.truthy = true ∧ key = "transitions" then some transitions
        else Fields.get? out key := by
  rw [putTransitions]
  by_cases ht : transitions.truthy = true
  · rw [if_pos ht, Fields.get?_put]
    by_cases hkey : key = "transitions"
    · rw [if_pos (Key.text_same_iff.mpr hkey), if_pos ⟨ht, hkey⟩]
    · rw [if_neg fun h => hkey (Key.text_same_iff.mp h), if_neg fun h => hkey h.2]
  · rw [if_neg ht, if_neg fun h => ht h.1]

theorem distinct_putTransitions (transitions : Value) {out : Fields}
    (h : Fields.distinct out = true) : Fields.distinct (putTransitions transitions out) = true := by
  unfold putTransitions
  split
  · exact Fields.distinct_put h _ _
  · exact h

/-- What is read after writing the actions on entry. -/
theorem get?_putEntryActions {data out out' : Fields} (h : putEntryActions data out = .ok out')
    {key : Key} (hkey : key ≠ "actions") : Fields.get? out' key = Fields.get? out key := by
  rw [putEntryActions] at h
  split at h
  · obtain ⟨items, _, h⟩ := Outcome.bind_eq_ok.mp h
    obtain rfl := Except.ok.inj h
    rw [Fields.get?_put, if_neg fun hs => hkey (Key.text_same_iff.mp hs)]
  · obtain rfl := Except.ok.inj h
    rfl

/-- What the data of a node state as its actions on entry. -/
def statedOnEntry (data : Fields) : Value :=
  Fields.get (Fields.get data "actions").fieldsOrNone "on_entry"

/-- **What writing the actions on entry comes to**: nothing where none is
stated, and otherwise a list of them, which holds some. -/
theorem putEntryActions_eq_ok {data out out' : Fields} (h : putEntryActions data out = .ok out') :
    ((statedOnEntry data).truthy = false ∧ out' = out)
    ∨ ∃ items, (statedOnEntry data).truthy = true ∧ (statedOnEntry data).elements = .ok items
      ∧ (Value.list items).truthy = true
      ∧ out' = Fields.put out "actions" (.obj [("on_entry", .list items)]) := by
  rw [putEntryActions, ← statedOnEntry] at h
  split at h
  next hstated =>
    obtain ⟨items, hitems, h⟩ := Outcome.bind_eq_ok.mp h
    exact .inr ⟨items, hstated, hitems, Value.truthy_of_elements hstated hitems,
      (Except.ok.inj h).symm⟩
  next hblank => exact .inl ⟨by simpa using hblank, (Except.ok.inj h).symm⟩

/-- Writing the actions on entry leaves no key twice. -/
theorem distinct_putEntryActions {data out out' : Fields} (hd : Fields.distinct out = true)
    (h : putEntryActions data out = .ok out') : Fields.distinct out' = true := by
  rw [putEntryActions] at h
  split at h
  · obtain ⟨items, _, h⟩ := Outcome.bind_eq_ok.mp h
    obtain rfl := Except.ok.inj h
    exact Fields.distinct_put hd _ _
  · obtain rfl := Except.ok.inj h
    exact hd

/-- The rest of a node as a plan writes it, before any actions. -/
def EmissionPlan.body (plan : EmissionPlan) (data : Fields) (transitions : Value)
    (head : Fields) : Fields :=
  let out := copyFields plan.leading data head
  copyFields plan.trailing data (if plan.transitions then putTransitions transitions out else out)

theorem EmissionPlan.distinct_body (plan : EmissionPlan) (data : Fields) (transitions : Value)
    {head : Fields} (h : Fields.distinct head = true) :
    Fields.distinct (plan.body data transitions head) = true := by
  refine distinct_copyFields _ _ _ ?_
  split
  · exact distinct_putTransitions transitions (distinct_copyFields _ _ _ h)
  · exact distinct_copyFields _ _ _ h

theorem EmissionPlan.write_eq (plan : EmissionPlan) (data : Fields) (transitions : Value)
    (head : Fields) :
    plan.write data transitions head
      = if plan.entryActions then putEntryActions data (plan.body data transitions head)
        else .ok (plan.body data transitions head) := rfl

/-- **What is read of a node written to the plan of its kind**: the
transitions where it goes on, the fields the plan copies, and the head. -/
theorem NodeKind.get?_body (kind : NodeKind) (data head : Fields) (transitions : Value)
    (key : Key) :
    Fields.get? (kind.plan.body data transitions head) key
      = if (kind.plan.transitions && transitions.truthy) = true ∧ key = "transitions" then
          some transitions
        else if copiesKey kind.plan.fields data key then Fields.get? data key
        else Fields.get? head key := by
  have hparts : copiesKey kind.plan.fields data key
      = (copiesKey kind.plan.leading data key || copiesKey kind.plan.trailing data key) :=
    List.any_append
  have hmiddle : ∀ out : Fields,
      Fields.get? (if kind.plan.transitions then putTransitions transitions out else out) key
        = if (kind.plan.transitions && transitions.truthy) = true ∧ key = "transitions" then
            some transitions
          else Fields.get? out key := by
    intro out
    cases kind.plan.transitions with
    | false => simp
    | true => simp [get?_putTransitions]
  rw [EmissionPlan.body, get?_copyFields, hmiddle, get?_copyFields, hparts]
  by_cases hkey : key = "transitions"
  · -- the plan copies no field of that name, so what is handed in is not written over
    have hown : key ∈ ownKeys := by rw [hkey]; decide
    have hnone := hparts.symm.trans (kind.copiesKey_ownKeys data hown)
    rw [Bool.or_eq_false_iff] at hnone
    rw [hnone.1, hnone.2]
    rfl
  · have hno : ¬((kind.plan.transitions && transitions.truthy) = true ∧ key = "transitions") :=
      fun h => hkey h.2
    rw [if_neg hno, if_neg hno]
    cases copiesKey kind.plan.leading data key <;>
      cases copiesKey kind.plan.trailing data key <;> rfl

theorem isText_of_mem_ownKeys : ∀ key ∈ ownKeys, key.isText = true := by decide

/-- **What is read of a node written without a plan**: the transitions, the
fields of the data that a node has not of its own, and the head. -/
theorem get?_writeVerbatim (data head : Fields) (transitions : Value) (key : Key) :
    Fields.get? (writeVerbatim data transitions head) key
      = if transitions.truthy = true ∧ key = "transitions" then some transitions
        else (Fields.get? (data.filter fun f => f.1 ∉ ownKeys).reverse key).or
          (Fields.get? head key) := by
  rw [writeVerbatim, get?_putTransitions]
  exact congrArg (ite _ _) (Fields.get?_overlay head _ key)

/-- The fields that are written verbatim are none a node has of its own. -/
theorem get?_verbatim_ownKeys (data : Fields) {key : Key} (hkey : key ∈ ownKeys) :
    Fields.get? (data.filter fun f => f.1 ∉ ownKeys).reverse key = none := by
  rw [Fields.get?_eq_none_iff]
  intro f hf
  have hother := (List.mem_filter.mp (List.mem_reverse.mp hf)).2
  by_contra hsame
  rw [Bool.not_eq_false] at hsame
  rw [Key.eq_of_same_of_isText (isText_of_mem_ownKeys key hkey) hsame] at hother
  simp [hkey] at hother

theorem get?_verbatim {data : Fields} (hd : Fields.distinct data = true) {key : Key}
    (hkey : key ∉ ownKeys) :
    Fields.get? (data.filter fun f => f.1 ∉ ownKeys).reverse key = Fields.get? data key := by
  rw [← Fields.get?_perm (List.reverse_perm _).symm (Fields.distinct_filter hd _),
    Fields.get?_filter_of_not_mem isText_of_mem_ownKeys hkey]

/-! ## The head -/

@[simp] theorem get?_nodeHead_id (data : Fields) (id : Value) :
    Fields.get? (nodeHead data id) "id" = some id := by
  simp [nodeHead, Fields.get?]

@[simp] theorem get?_nodeHead_type (data : Fields) (id : Value) :
    Fields.get? (nodeHead data id) "type" = some (kindOf data) := by
  simp [nodeHead, Fields.get?]

theorem get?_nodeHead_name (data : Fields) (id : Value) :
    Fields.get? (nodeHead data id) "name"
      = if Fields.get data "name" = .null then none else some (Fields.get data "name") := by
  by_cases h : Fields.get data "name" = .null <;> simp [nodeHead, Fields.get?, h]

/-- The fields of a head. -/
theorem key_of_mem_nodeHead {data : Fields} {id : Value} {f : Key × Value}
    (h : f ∈ nodeHead data id) : f.1 = "id" ∨ f.1 = "type" ∨ f.1 = "name" := by
  unfold nodeHead at h
  dsimp only at h
  split at h
  · simp only [List.mem_cons, List.not_mem_nil, or_false] at h
    rcases h with rfl | rfl <;> simp
  · simp only [List.mem_cons, List.not_mem_nil, or_false] at h
    rcases h with rfl | rfl | rfl <;> simp

/-- A head has nothing else. -/
theorem get?_nodeHead_of_ne (data : Fields) (id : Value) {key : Key} (hid : key ≠ "id")
    (htype : key ≠ "type") (hname : key ≠ "name") : Fields.get? (nodeHead data id) key = none := by
  rw [Fields.get?_eq_none_iff]
  intro f hf
  replace hf := key_of_mem_nodeHead hf
  by_contra hsame
  rw [Bool.not_eq_false] at hsame
  rcases hf with h | h | h <;> rw [h] at hsame
  · exact hid (Key.text_same_iff.mp hsame)
  · exact htype (Key.text_same_iff.mp hsame)
  · exact hname (Key.text_same_iff.mp hsame)

theorem ne_of_not_mem_ownKeys {key other : Key} (hkey : key ∉ ownKeys) (hother : other ∈ ownKeys) :
    key ≠ other := by
  rintro rfl
  exact hkey hother

theorem get?_nodeHead_of_foreign (data : Fields) (id : Value) {key : Key} (hkey : key ∉ ownKeys) :
    Fields.get? (nodeHead data id) key = none :=
  get?_nodeHead_of_ne data id (ne_of_not_mem_ownKeys hkey (by decide))
    (ne_of_not_mem_ownKeys hkey (by decide)) (ne_of_not_mem_ownKeys hkey (by decide))

theorem distinct_nodeHead (data : Fields) (id : Value) :
    Fields.distinct (nodeHead data id) = true := by
  by_cases h : Fields.get data "name" = .null <;>
    simp [nodeHead, Fields.distinct, Fields.has, Fields.get?, h]

/-! ## A saved node -/

theorem NodeKind.plan_transitions (kind : NodeKind) :
    kind.plan.transitions
      = (kind.name ≠ NodeKind.endCall.name && kind.name ≠ NodeKind.agentTransfer.name : Bool) := by
  cases kind <;> decide

/-- A kind that is not known is neither of those whose transitions are not
saved. -/
theorem keepsTransitions_of_unknown {data : Fields}
    (h : NodeKind.ofName? (kindOf data).text = none) : keepsTransitions data = true := by
  rw [keepsTransitions, Bool.and_eq_true, decide_eq_true_eq, decide_eq_true_eq]
  constructor
  · intro hname
    rw [hname, NodeKind.ofName?_name] at h
    cases h
  · intro hname
    rw [hname, NodeKind.ofName?_name] at h
    cases h

section EmitNode

variable {data out : Fields} {id transitions : Value}

/-- **What a known kind is saved as**: the body of its plan, and the actions
on entry where those are all it keeps. -/
theorem emitNode_of_known {kind : NodeKind}
    (hkind : NodeKind.ofName? (kindOf data).text = some kind)
    (h : emitNode data id transitions = .ok out) :
    (kind.plan.entryActions = true
      ∧ putEntryActions data (kind.plan.body data transitions (nodeHead data id)) = .ok out)
    ∨ (kind.plan.entryActions = false
      ∧ out = kind.plan.body data transitions (nodeHead data id)) := by
  rw [emitNode, hkind] at h
  dsimp only at h
  rw [EmissionPlan.write_eq] at h
  split at h
  next hentry => exact .inl ⟨hentry, h⟩
  next hentry => exact .inr ⟨by simpa using hentry, (Except.ok.inj h).symm⟩

/-- What is read of a node of a known kind under a key other than that of
its actions on entry. -/
theorem get?_emitNode_of_known {kind : NodeKind}
    (hkind : NodeKind.ofName? (kindOf data).text = some kind)
    (h : emitNode data id transitions = .ok out) {key : Key}
    (hactions : kind.plan.entryActions = true → key ≠ "actions") :
    Fields.get? out key
      = if (keepsTransitions data && transitions.truthy) = true ∧ key = "transitions" then
          some transitions
        else if copiesKey kind.plan.fields data key then Fields.get? data key
        else Fields.get? (nodeHead data id) key := by
  have hkeeps : keepsTransitions data = kind.plan.transitions := by
    rw [keepsTransitions, ← NodeKind.name_of_ofName? hkind, kind.plan_transitions]
  rw [hkeeps, ← kind.get?_body]
  obtain ⟨hentry, hout⟩ | ⟨_, rfl⟩ := emitNode_of_known hkind h
  · exact get?_putEntryActions hout (hactions hentry)
  · rfl

/-- **What is saved of a field that the plan of a kind has a rule for**: what
the data have under the key where a rule writes it, and nothing otherwise. -/
theorem get?_emitNode_of_rule {kind : NodeKind}
    (hkind : NodeKind.ofName? (kindOf data).text = some kind)
    (h : emitNode data id transitions = .ok out) {rule : String × Presence}
    (hrule : rule ∈ kind.plan.fields) :
    Fields.get? out rule.1
      = if copiesKey kind.plan.fields data rule.1 then Fields.get? data rule.1 else none := by
  have hne : ∀ key ∈ ownKeys, Key.text rule.1 ≠ key := fun _ => kind.rule_ne_ownKey hrule
  rw [get?_emitNode_of_known hkind h fun hentry => NodeKind.rule_ne_actions hentry rule hrule,
    if_neg fun h => hne _ (by decide) h.2,
    get?_nodeHead_of_ne _ _ (hne _ (by decide)) (hne _ (by decide)) (hne _ (by decide))]

/-- What is read of a node whose kind is not known. -/
theorem get?_emitNode_of_unknown (hkind : NodeKind.ofName? (kindOf data).text = none)
    (h : emitNode data id transitions = .ok out) (key : Key) :
    Fields.get? out key
      = if (keepsTransitions data && transitions.truthy) = true ∧ key = "transitions" then
          some transitions
        else (Fields.get? (data.filter fun f => f.1 ∉ ownKeys).reverse key).or
          (Fields.get? (nodeHead data id) key) := by
  rw [emitNode, hkind] at h
  obtain rfl := Except.ok.inj h
  rw [get?_writeVerbatim, keepsTransitions_of_unknown hkind, Bool.true_and]

/-- **The head of a saved node is its own**: nothing in the data stands in
the place of its id, its kind or its name, and none of what an editor keeps
about it is there. -/
theorem get?_emitNode_head (h : emitNode data id transitions = .ok out) {key : Key}
    (hkey : key ∈ ownKeys) (hother : key ≠ "transitions") :
    Fields.get? out key = Fields.get? (nodeHead data id) key := by
  have hactions : key ≠ "actions" := by
    rintro rfl
    simp [ownKeys] at hkey
  cases hkind : NodeKind.ofName? (kindOf data).text with
  | some kind =>
    rw [get?_emitNode_of_known hkind h fun _ => hactions, if_neg fun h => hother h.2,
      kind.copiesKey_ownKeys data hkey]
    rfl
  | none =>
    rw [get?_emitNode_of_unknown hkind h, if_neg fun h => hother h.2,
      get?_verbatim_ownKeys data hkey, Option.none_or]

/-- **The transitions of a saved node are the ones handed in**, and there
are none where its kind goes on nowhere. -/
theorem get?_emitNode_transitions (h : emitNode data id transitions = .ok out) :
    Fields.get? out "transitions"
      = if keepsTransitions data && transitions.truthy then some transitions else none := by
  have hhead : Fields.get? (nodeHead data id) "transitions" = none :=
    get?_nodeHead_of_ne data id (by decide) (by decide) (by decide)
  cases hkind : NodeKind.ofName? (kindOf data).text with
  | some kind =>
    rw [get?_emitNode_of_known hkind h fun _ => by decide,
      kind.copiesKey_ownKeys data (by decide), hhead]
    simp
  | none =>
    rw [get?_emitNode_of_unknown hkind h, get?_verbatim_ownKeys data (by decide), hhead]
    simp

/-- **No field of a saved node is there twice.** -/
theorem distinct_emitNode (h : emitNode data id transitions = .ok out) :
    Fields.distinct out = true := by
  have hhead := distinct_nodeHead data id
  cases hkind : NodeKind.ofName? (kindOf data).text with
  | some kind =>
    have hbody := kind.plan.distinct_body data transitions hhead
    obtain ⟨_, hout⟩ | ⟨_, rfl⟩ := emitNode_of_known hkind h
    · exact distinct_putEntryActions hbody hout
    · exact hbody
  | none =>
    rw [emitNode, hkind] at h
    obtain rfl := Except.ok.inj h
    exact distinct_putTransitions transitions (Fields.distinct_overlay hhead _)

end EmitNode

end CallFlow
