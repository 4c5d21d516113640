import Mathlib.Data.List.TakeWhile
import Mathlib.Logic.Basic
import CallFlow.Proofs.Validation.Check

/-!
# What a report holds

A workflow is checked by five rules: what its nodes are called, where its
edges lead, whether some node ends the call, where the call starts, and what
each node needs. Every problem of a report is the business of one of them
(`Problem.rule`), and the *share* of a rule in a report is what the rule
finds on its own (`shareOf_problemsAmong`). So no rule hides what another
finds, and none looks at what is the business of another (`RulesApart`).

What a rule finds is counted out in `Diagnosed`. A missing id is complained
of once, however many nodes lack one; an id that several nodes have is
complained of once as well; an end of an edge that leads nowhere is complained
of each time; and a node is complained of at most once for what it lacks.
Nothing is found exactly if nothing is wrong, and what that means of a node is
said in `Furnished`, without looking at how it is checked.
-/

namespace CallFlow

/-! ## The share of a rule -/

/-- The rules a workflow is checked by. -/
inductive Rule where
  /-- Nodes have ids, each a different one. -/
  | ids
  /-- Edges lead from nodes to nodes. -/
  | ends
  /-- Some node ends the call. -/
  | endCall
  /-- The call starts at a node. -/
  | start
  /-- Nodes have what their kinds need. -/
  | contents
  deriving DecidableEq, Repr

/-- The rule a problem is the business of. -/
def Problem.rule : Problem → Rule
  | idMissing => .ids
  | idRepeated _ => .ids
  | endMissing _ _ _ => .ends
  | noEndCall => .endCall
  | initialNodeMissing _ => .start
  | _ => .contents

/-- The problems of a report that are the business of a rule. -/
def shareOf (rule : Rule) (problems : List Problem) : List Problem :=
  problems.filter fun p => p.rule = rule

/-- The problems of a report that have a code. -/
def withCode (code : String) (problems : List Problem) : List Problem :=
  problems.filter fun p => p.code = code

theorem Problem.code_eq_missing_iff {p : Problem} : p.code = "SCHEMA_INVALID" ↔ p = .idMissing := by
  cases p <;> simp [code]

theorem Problem.code_eq_repeated_iff {p : Problem} :
    p.code = "DUPLICATE_NODE_ID" ↔ ∃ id, p = .idRepeated id := by
  cases p <;> simp [code]

/-- What has a code is the business of the rule all problems of that code
are the business of. -/
theorem withCode_shareOf {code : String} (rule : Rule)
    (h : ∀ p : Problem, p.code = code → p.rule = rule) (problems : List Problem) :
    withCode code (shareOf rule problems) = withCode code problems := by
  rw [withCode, shareOf, List.filter_filter]
  refine List.filter_congr fun p _ => ?_
  by_cases hcode : p.code = code
  · simp [hcode, h p hcode]
  · simp [hcode]

theorem filter_eq_shareOf {own : Problem → Prop} [DecidablePred own] (rule : Rule)
    (h : ∀ p, own p ↔ p.rule = rule) (problems : List Problem) :
    problems.filter (fun p => own p) = shareOf rule problems :=
  List.filter_congr fun p _ => by simp only [h p]

theorem shareOf_eq {rule : Rule} {problems : List Problem} (h : ∀ p ∈ problems, p.rule = rule)
    (other : Rule) : shareOf other problems = if rule = other then problems else [] := by
  split
  next heq => exact List.filter_eq_self.mpr fun p hp => by simp [h p hp, heq]
  next hne => exact List.filter_eq_nil_iff.mpr fun p hp => by simp [h p hp, hne]

/-- What is wrong with ids is the business of the rule for ids. -/
theorem rule_of_mem_idProblems {ids : List String} {p : Problem} (h : p ∈ idProblems ids) :
    p.rule = .ids := by
  obtain ⟨id, _, hp⟩ := List.mem_filterMap.mp h
  split at hp
  · obtain rfl := Option.some.inj hp
    rfl
  · split at hp
    · obtain rfl := Option.some.inj hp
      rfl
    · cases hp

theorem rule_of_mem_endProblems {ids : List String} {edge : Fields} {p : Problem}
    (h : p ∈ endProblems ids edge) : p.rule = .ends := by
  unfold endProblems at h
  rcases List.mem_append.mp h with h | h <;> split at h
  all_goals first
    | exact absurd h List.not_mem_nil
    | rw [List.mem_singleton.mp h]; rfl

theorem rule_of_mem_endCallProblems {nodes : List Fields} {p : Problem}
    (h : p ∈ endCallProblems nodes) : p.rule = .endCall := by
  unfold endCallProblems at h
  split at h
  · exact absurd h List.not_mem_nil
  · rw [List.mem_singleton.mp h]
    rfl

/-- That the call starts nowhere is the business of a rule of its own. -/
theorem rule_of_mem_initialNodeProblems {ids : List String} {initial : Value}
    {found : List Problem} (hfound : initialNodeProblems ids initial = .ok found) {p : Problem}
    (h : p ∈ found) : p.rule = .start := by
  unfold initialNodeProblems at hfound
  split at hfound
  · obtain rfl := Except.ok.inj hfound
    exact absurd h List.not_mem_nil
  · obtain ⟨there, _, hfound⟩ := Outcome.bind_eq_ok.mp hfound
    split at hfound
    · obtain rfl := Except.ok.inj hfound
      exact absurd h List.not_mem_nil
    · obtain rfl := Except.ok.inj hfound
      rw [List.mem_singleton.mp h]
      rfl

/-! ## What a node needs -/

/-- A text is blank exactly if nothing is left of it without the blanks at
its ends. -/
theorem Blank.strip_eq_empty_iff {s : String} :
    Blank.strip s = "" ↔ ∀ c ∈ s.toList, Blank.isBlank c = true := by
  rw [strip, String.ofList_eq_empty_iff, trim, List.reverse_eq_nil_iff, List.dropWhile_eq_nil_iff]
  constructor
  · intro h
    -- what is left at the front would start with a character that is not blank
    rw [← List.dropWhile_eq_nil_iff]
    by_contra hne
    have hfirst := List.head_dropWhile_not isBlank hne
    rw [h _ (List.mem_reverse.mpr (List.head_mem hne))] at hfirst
    cases hfirst
  · intro h c hc
    exact h c ((List.dropWhile_suffix _).subset (List.mem_reverse.mp hc))

/-- What a node of a kind needs in its data: a standard node says something
in exactly one of two ways, a node that asks for variables either lists them
or describes a single one, and a node that hands the call over names somebody,
and not by blanks only. -/
def NodeKind.Needs (data : Fields) : NodeKind → Prop
  | .standard =>
    Xor ((Fields.get data "system_prompt").truthy = true)
      ((Fields.get data "static_text").truthy = true)
  | .retrieveVariable =>
    Xor (∃ first rest, Fields.get data "variables" = .list (first :: rest))
      ((Fields.get data "variable_name").truthy = true
        ∧ (Fields.get data "extraction_prompt").truthy = true)
  | .endCall => True
  | .agentTransfer =>
    ∃ c ∈ (Fields.get data "target_agent_id").idText.toList, Blank.isBlank c = false
  | .apiCall => True

/-- **Whether a node has what its kind needs.** A kind that is not known
needs nothing. -/
def Furnished (node : Fields) : Prop :=
  ∀ kind : NodeKind, kindText node = kind.name → kind.Needs (dataOf node)

theorem furnished_iff {node : Fields} {kind : NodeKind} (h : kindText node = kind.name) :
    Furnished node ↔ kind.Needs (dataOf node) := by
  refine ⟨fun hall => hall kind h, fun hneeds other hother => ?_⟩
  have hfound := NodeKind.ofName?_name other
  rw [← hother, h, NodeKind.ofName?_name] at hfound
  rwa [← Option.some.inj hfound]

/-- The code of the complaint about a node, by the kind of the node. -/
def contentCodes : List (String × String) :=
  [(NodeKind.standard.name, "STANDARD_CONTENT_INVALID"),
    (NodeKind.retrieveVariable.name, "RETRIEVE_VARIABLE_INVALID"),
    (NodeKind.agentTransfer.name, "AGENT_TRANSFER_INVALID")]

/-- Whether a problem is what a node is complained of for what it lacks. -/
structure ComplaintOn (node : Fields) (p : Problem) : Prop where
  /-- It is the business of the rule for contents. -/
  rule : p.rule = .contents
  /-- It names the node. -/
  about : p.nodeId? = some (idOf node)
  /-- Its code is the one for the kind of the node. -/
  code : (kindText node, p.code) ∈ contentCodes

theorem isNonemptyList_iff {value : Value} :
    isNonemptyList value = true ↔ ∃ first rest, value = .list (first :: rest) := by
  cases value with
  | list items => cases items <;> simp [isNonemptyList]
  | _ => simp [isNonemptyList]

/-- Of two ways a node takes exactly one, or there is one complaint. -/
theorem exactlyOne_cases {node : Fields} {one other : Bool} {neither both : Problem}
    (hfurnished : Furnished node ↔ Xor (one = true) (other = true))
    (hneither : ComplaintOn node neither) (hboth : ComplaintOn node both) :
    exactlyOne one other neither both = [] ∧ Furnished node
    ∨ ∃ p, exactlyOne one other neither both = [p] ∧ ¬Furnished node ∧ ComplaintOn node p := by
  rw [hfurnished]
  cases one <;> cases other
  · exact .inr ⟨neither, rfl, by simp [Xor], hneither⟩
  · exact .inl ⟨rfl, by simp [Xor]⟩
  · exact .inl ⟨rfl, by simp [Xor]⟩
  · exact .inr ⟨both, rfl, by simp [Xor], hboth⟩

/-- **A node has what its kind needs, or is complained of once.** -/
theorem contentProblems_cases (node : Fields) :
    contentProblems node = [] ∧ Furnished node
    ∨ ∃ p, contentProblems node = [p] ∧ ¬Furnished node ∧ ComplaintOn node p := by
  cases hkind : NodeKind.ofName? (kindText node) with
  | none =>
    refine .inl ⟨by simp only [contentProblems, hkind], fun kind hname => ?_⟩
    rw [hname, NodeKind.ofName?_name] at hkind
    cases hkind
  | some kind =>
    have hname := (NodeKind.name_of_ofName? hkind).symm
    have hneeds := furnished_iff hname
    simp only [contentProblems, hkind]
    cases kind with
    | standard =>
      refine exactlyOne_cases hneeds ⟨rfl, rfl, ?_⟩ ⟨rfl, rfl, ?_⟩
      all_goals simp [contentCodes, hname, Problem.code]
    | retrieveVariable =>
      refine exactlyOne_cases ?_ ⟨rfl, rfl, ?_⟩ ⟨rfl, rfl, ?_⟩
      · rw [hneeds, isNonemptyList_iff, Bool.and_eq_true]
        rfl
      all_goals simp [contentCodes, hname, Problem.code]
    | agentTransfer =>
      have hblank : Blank.strip (Fields.get (dataOf node) "target_agent_id").idText = ""
          ↔ ¬Furnished node := by
        rw [Blank.strip_eq_empty_iff, hneeds, NodeKind.Needs]
        simp
      dsimp only
      split
      next h =>
        exact .inr ⟨_, rfl, hblank.mp h, rfl, rfl, by simp [contentCodes, hname, Problem.code]⟩
      next h => exact .inl ⟨rfl, by_contra fun hnot => h (hblank.mpr hnot)⟩
    | endCall => exact .inl ⟨rfl, hneeds.mpr trivial⟩
    | apiCall => exact .inl ⟨rfl, hneeds.mpr trivial⟩

/-- What a node is complained of, if anything. -/
def complaint? (node : Fields) : Option Problem := (contentProblems node).head?

theorem complaint?_eq_none_iff {node : Fields} : complaint? node = none ↔ Furnished node := by
  rw [complaint?]
  rcases contentProblems_cases node with ⟨hnone, hfurnished⟩ | ⟨p, hone, hnot, _⟩
  · simp [hnone, hfurnished]
  · simp [hone, hnot]

theorem complaintOn_of_complaint? {node : Fields} {p : Problem} (h : complaint? node = some p) :
    ComplaintOn node p := by
  rw [complaint?] at h
  rcases contentProblems_cases node with ⟨hnone, _⟩ | ⟨q, hone, _, hq⟩
  · simp [hnone] at h
  · simp only [hone, List.head?_cons, Option.some.injEq] at h
    exact h ▸ hq

/-- **Every node is complained of at most once.** -/
theorem flatMap_contentProblems (nodes : List Fields) :
    nodes.flatMap contentProblems = nodes.filterMap complaint? := by
  induction nodes with
  | nil => rfl
  | cons node rest ih =>
    rw [List.flatMap_cons, List.filterMap_cons, ih, complaint?]
    rcases contentProblems_cases node with ⟨hnone, _⟩ | ⟨p, hone, _⟩
    · rw [hnone]
      rfl
    · rw [hone]
      rfl

/-! ## What the rules find -/

/-- **Each rule finds what it finds on its own.** -/
theorem shareOf_problemsAmong {nodes edges : List Fields} {initial : Value}
    {problems : List Problem} (h : problemsAmong nodes edges initial = .ok problems) :
    shareOf .ids problems = idProblems (nodes.map idOf)
    ∧ shareOf .ends problems = edges.flatMap (endProblems (nodes.map idOf))
    ∧ shareOf .endCall problems = endCallProblems nodes
    ∧ initialNodeProblems (nodes.map idOf) initial = .ok (shareOf .start problems)
    ∧ shareOf .contents problems = nodes.flatMap contentProblems := by
  obtain ⟨atStart, hstart, h⟩ := Outcome.bind_eq_ok.mp h
  obtain rfl := Except.ok.inj h
  have hids := shareOf_eq fun p (hp : p ∈ idProblems (nodes.map idOf)) =>
    rule_of_mem_idProblems hp
  have hends : ∀ p ∈ edges.flatMap (endProblems (nodes.map idOf)), p.rule = .ends := by
    intro p hp
    obtain ⟨edge, _, hp⟩ := List.mem_flatMap.mp hp
    exact rule_of_mem_endProblems hp
  have hend := shareOf_eq fun p (hp : p ∈ endCallProblems nodes) =>
    rule_of_mem_endCallProblems hp
  have hinitial := shareOf_eq fun _ => rule_of_mem_initialNodeProblems hstart
  have hcontents : ∀ p ∈ nodes.flatMap contentProblems, p.rule = .contents := by
    intro p hp
    obtain ⟨node, _, hp⟩ := List.mem_flatMap.mp hp
    rcases contentProblems_cases node with ⟨hnone, _⟩ | ⟨q, hone, _, hq⟩
    · rw [hnone] at hp
      cases hp
    · rw [hone, List.mem_singleton] at hp
      rw [hp, hq.rule]
  have happend : ∀ (rule : Rule) (ps qs : List Problem),
      shareOf rule (ps ++ qs) = shareOf rule ps ++ shareOf rule qs :=
    fun _ _ _ => List.filter_append ..
  simp [happend, hids, shareOf_eq hends, hend, hinitial, shareOf_eq hcontents, hstart]

theorem nodup_idProblems (ids : List String) : (idProblems ids).Nodup := by
  refine (nodup_eraseDups ids).filterMap fun id id' p hp hp' => ?_
  grind

/-- It is complained that an id is missing exactly if one is. -/
theorem idMissing_mem_idProblems {ids : List String} :
    Problem.idMissing ∈ idProblems ids ↔ "" ∈ ids := by
  rw [idProblems, List.mem_filterMap]
  constructor
  · rintro ⟨id, hid, hp⟩
    rw [List.mem_eraseDups] at hid
    grind
  · exact fun hid => ⟨"", List.mem_eraseDups.mpr hid, if_pos rfl⟩

/-- It is complained of an id exactly if it is one and there several times. -/
theorem idRepeated_mem_idProblems {ids : List String} {id : String} :
    Problem.idRepeated id ∈ idProblems ids ↔ id ≠ "" ∧ 1 < ids.count id := by
  rw [idProblems, List.mem_filterMap]
  constructor
  · rintro ⟨id', _, hp⟩
    grind
  · rintro ⟨hid, hcount⟩
    refine ⟨id, List.mem_eraseDups.mpr ?_, by rw [if_neg hid, if_pos hcount]⟩
    exact List.count_pos_iff.mp (by omega)

/-- The id of the node an end of an edge names. -/
def EdgeEnd.named (edge : Fields) : EdgeEnd → String
  | source => sourceOf edge
  | target => targetOf edge

/-- The ends of some edges that name none of some nodes, each with its
edge. -/
def looseEnds (ids : List String) (edges : List Fields) : List (EdgeEnd × Fields) :=
  (edges.flatMap fun edge => [(EdgeEnd.source, edge), (EdgeEnd.target, edge)]).filter
    fun e => e.1.named e.2 ∉ ids

/-- It is complained of the ends that name no node, one by one. -/
theorem flatMap_endProblems (ids : List String) (edges : List Fields) :
    edges.flatMap (endProblems ids)
      = (looseEnds ids edges).map fun e => .endMissing e.1 (idOf e.2) (e.1.named e.2) := by
  rw [looseEnds, List.filter_flatMap, List.map_flatMap]
  congr 1
  funext edge
  by_cases hs : sourceOf edge ∈ ids <;> by_cases ht : targetOf edge ∈ ids <;>
    simp [endProblems, EdgeEnd.named, hs, ht]

/-- **What a report on a workflow holds**, counted out code by code. -/
structure Diagnosed (nodes edges : List Fields) (initial : Value) (problems : List Problem) :
    Prop where
  /-- If nodes lack an id, it is complained of once. -/
  missing : withCode "SCHEMA_INVALID" problems
    = if "" ∈ nodes.map idOf then [.idMissing] else []
  /-- Of no repeated id it is complained twice. -/
  nodup : (withCode "DUPLICATE_NODE_ID" problems).Nodup
  /-- It is complained of the ids that several nodes have. -/
  repeated : ∀ p, p ∈ withCode "DUPLICATE_NODE_ID" problems
    ↔ ∃ id, p = .idRepeated id ∧ id ≠ "" ∧ 1 < (nodes.map idOf).count id
  /-- It is complained of the ends of edges that name no node, one by one. -/
  ends : withCode "EDGE_NODE_MISSING" problems = (looseEnds (nodes.map idOf) edges).map
    fun e => .endMissing e.1 (idOf e.2) (e.1.named e.2)
  /-- If no node ends the call, it is complained of once. -/
  endCall : withCode "MISSING_END_CALL_NODE" problems
    = if ∃ node ∈ nodes, kindText node = NodeKind.endCall.name then [] else [.noEndCall]
  /-- If the call starts at what is no node, it is complained of once. -/
  start : withCode "INITIAL_NODE_MISSING" problems
    = match initial with
      | .str id => if id ∈ nodes.map idOf then [] else [.initialNodeMissing id]
      | _ => []
  /-- A node that lacks what its kind needs is complained of once. -/
  contents : ∃ complaint : Fields → Option Problem,
    (∀ node, complaint node = none ↔ Furnished node)
    ∧ (∀ node p, complaint node = some p → ComplaintOn node p)
    ∧ problems.filter (fun p => p.code ∈ contentCodes.map Prod.snd) = nodes.filterMap complaint

/-- **Whether no rule looks at what is the business of another**: where two
workflows agree on what a rule is about, it finds the same in both. -/
structure RulesApart (nodes edges : List Fields) (initial : Value) (problems : List Problem)
    (nodes' edges' : List Fields) (initial' : Value) (problems' : List Problem) : Prop where
  /-- The rule for ids looks at ids. -/
  ids : nodes'.map idOf = nodes.map idOf → shareOf .ids problems' = shareOf .ids problems
  /-- The rule for ends looks at the edges, and at ids of nodes. -/
  ends : nodes'.map idOf = nodes.map idOf → edges' = edges →
    shareOf .ends problems' = shareOf .ends problems
  /-- The rule for the end of the call looks at the kinds of nodes. -/
  endCall : nodes'.map kindText = nodes.map kindText →
    shareOf .endCall problems' = shareOf .endCall problems
  /-- The rule for the start looks at the initial node, and at ids of
  nodes. -/
  start : nodes'.map idOf = nodes.map idOf → initial' = initial →
    shareOf .start problems' = shareOf .start problems
  /-- The rule for contents looks at the nodes. -/
  contents : nodes' = nodes → shareOf .contents problems' = shareOf .contents problems

section Report

variable {nodes edges nodes' edges' : List Fields} {initial initial' : Value}
  {problems problems' : List Problem}

/-- Reports are taken apart by rule, and so the rules look at what is their
own. -/
theorem rulesApart_of_problemsAmong (h : problemsAmong nodes edges initial = .ok problems)
    (h' : problemsAmong nodes' edges' initial' = .ok problems') :
    RulesApart nodes edges initial problems nodes' edges' initial' problems' := by
  obtain ⟨hids, hends, hend, hstart, hcontents⟩ := shareOf_problemsAmong h
  obtain ⟨hids', hends', hend', hstart', hcontents'⟩ := shareOf_problemsAmong h'
  refine ⟨fun hsame => ?_, fun hsame hedges => ?_, fun hsame => ?_, fun hsame hinitial => ?_,
    fun hsame => ?_⟩
  · rw [hids, hids', hsame]
  · rw [hends, hends', hsame, hedges]
  · rw [hend, hend', endCallProblems_eq, endCallProblems_eq, hsame]
  · rw [hsame, hinitial, hstart] at hstart'
    exact (Except.ok.inj hstart').symm
  · rw [hcontents, hcontents', hsame]

/-- **A report holds what it should**, and nothing twice. -/
theorem diagnosed_of_problemsAmong (hinitial : initial = .null ∨ ∃ id, initial = .str id)
    (h : problemsAmong nodes edges initial = .ok problems) :
    Diagnosed nodes edges initial problems := by
  obtain ⟨hids, hends, hend, hstart, hcontents⟩ := shareOf_problemsAmong h
  have hmissing : withCode "SCHEMA_INVALID" problems
      = withCode "SCHEMA_INVALID" (idProblems (nodes.map idOf)) := by
    rw [← withCode_shareOf .ids (fun p hp => ?_), hids]
    rw [Problem.code_eq_missing_iff.mp hp]
    rfl
  have hrepeated : withCode "DUPLICATE_NODE_ID" problems
      = withCode "DUPLICATE_NODE_ID" (idProblems (nodes.map idOf)) := by
    rw [← withCode_shareOf .ids (fun p hp => ?_), hids]
    obtain ⟨id, rfl⟩ := Problem.code_eq_repeated_iff.mp hp
    rfl
  refine ⟨?_, ?_, fun p => ?_, ?_, ?_, ?_, complaint?, fun _ => complaint?_eq_none_iff,
    fun _ _ => complaintOn_of_complaint?, ?_⟩
  · rw [hmissing, withCode]
    simp only [Problem.code_eq_missing_iff]
    rw [List.filter_eq, (nodup_idProblems _).count]
    simp only [idMissing_mem_idProblems]
    split <;> rfl
  · rw [hrepeated]
    exact (nodup_idProblems _).filter _
  · rw [hrepeated, withCode, List.mem_filter, decide_eq_true_eq, Problem.code_eq_repeated_iff]
    constructor
    · rintro ⟨hp, id, rfl⟩
      exact ⟨id, rfl, idRepeated_mem_idProblems.mp hp⟩
    · rintro ⟨id, rfl, hid⟩
      exact ⟨idRepeated_mem_idProblems.mpr hid, id, rfl⟩
  · rw [withCode, filter_eq_shareOf .ends
      (fun p => by cases p <;> simp [Problem.code, Problem.rule]), hends, flatMap_endProblems]
  · rw [withCode, filter_eq_shareOf .endCall
      (fun p => by cases p <;> simp [Problem.code, Problem.rule]), hend, endCallProblems]
    simp only [List.any_eq_true, decide_eq_true_eq]
  · rw [withCode, filter_eq_shareOf .start
      (fun p => by cases p <;> simp [Problem.code, Problem.rule])]
    rcases hinitial with rfl | ⟨id, rfl⟩
    · exact (Except.ok.inj hstart).symm
    · rw [initialNodeProblems_str] at hstart
      exact (Except.ok.inj hstart).symm
  · rw [filter_eq_shareOf .contents
      (fun p => by cases p <;> simp [Problem.code, Problem.rule, contentCodes]), hcontents,
      flatMap_contentProblems]

end Report

theorem valid_reportOf_iff {problems : List Problem} :
    Fields.get (reportOf problems).fieldsOrNone "valid" = .bool true ↔ problems = [] := by
  simp [reportOf, Value.fieldsOrNone, Fields.get, Fields.get?]

/-- A workflow that nothing is wrong with, said without looking at how its
nodes are checked. -/
theorem flawless_iff {nodes edges : List Fields} {initial : Value} :
    Valid nodes edges initial
      ↔ (∀ node ∈ nodes, idOf node ≠ "") ∧ (nodes.map idOf).Nodup
        ∧ (∀ edge ∈ edges, ∀ side : EdgeEnd, side.named edge ∈ nodes.map idOf)
        ∧ (∃ node ∈ nodes, kindText node = NodeKind.endCall.name)
        ∧ (initial = .null ∨ ∃ id ∈ nodes.map idOf, initial = .str id)
        ∧ ∀ node ∈ nodes, Furnished node := by
  have hfurnished : ∀ node, contentProblems node = [] ↔ Furnished node := by
    intro node
    rw [← complaint?_eq_none_iff, complaint?, List.head?_eq_none_iff]
  constructor
  · intro h
    refine ⟨h.named, h.ids, fun edge hedge side => ?_, h.endCall, h.initial,
      fun node hnode => (hfurnished node).mp (h.contents node hnode)⟩
    cases side with
    | source => exact h.sources edge hedge
    | target => exact h.targets edge hedge
  · rintro ⟨hnamed, hids, hends, hend, hinitial, hcontents⟩
    exact ⟨hids, hnamed, fun edge hedge => hends edge hedge .source,
      fun edge hedge => hends edge hedge .target, hend, hinitial,
      fun node hnode => (hfurnished node).mpr (hcontents node hnode)⟩

/-- **A report says exactly what is wrong.** A graph document with lists of
nodes and edges is checked without fault, against an initial node or none.
The report calls it valid exactly if its nodes have ids, each a different one,
its edges lead from nodes to nodes, some node ends the call, the call starts
at a node, and every node has what its kind needs. Otherwise the report holds
a problem for each thing that is wrong and no more, and no rule's share in it
depends on what is the business of another. -/
theorem diagnosed_problemsOf {document initial : Value} {ns es : List Value}
    (hnodes : nodesOf document = .ok ns) (hedges : edgesOf document = .ok es)
    (hinitial : initial = .null ∨ ∃ id, initial = .str id) :
    ∃ problems, problemsOf document initial = .ok problems
      ∧ (Fields.get (reportOf problems).fieldsOrNone "valid" = .bool true
        ↔ (∀ node ∈ objectsAmong ns, idOf node ≠ "") ∧ ((objectsAmong ns).map idOf).Nodup
          ∧ (∀ edge ∈ objectsAmong es, ∀ side : EdgeEnd,
            side.named edge ∈ (objectsAmong ns).map idOf)
          ∧ (∃ node ∈ objectsAmong ns, kindText node = NodeKind.endCall.name)
          ∧ (initial = .null ∨ ∃ id ∈ (objectsAmong ns).map idOf, initial = .str id)
          ∧ ∀ node ∈ objectsAmong ns, Furnished node)
      ∧ Diagnosed (objectsAmong ns) (objectsAmong es) initial problems
      ∧ ∀ document' initial' ns' es' problems', nodesOf document' = .ok ns' →
        edgesOf document' = .ok es' → problemsOf document' initial' = .ok problems' →
        RulesApart (objectsAmong ns) (objectsAmong es) initial problems
          (objectsAmong ns') (objectsAmong es') initial' problems' := by
  have hread : ∀ {document initial ns es}, nodesOf document = .ok ns → edgesOf document = .ok es →
      problemsOf document initial
        = problemsAmong (objectsAmong ns) (objectsAmong es) initial := by
    intro document initial ns es hns hes
    rw [problemsOf, hns, hes]
    rfl
  obtain ⟨problems, hproblems⟩ := exists_problemsAmong (objectsAmong ns) (objectsAmong es) hinitial
  refine ⟨problems, (hread hnodes hedges).trans hproblems, ?_,
    diagnosed_of_problemsAmong hinitial hproblems, ?_⟩
  · rw [valid_reportOf_iff, ← flawless_iff, ← problemsAmong_eq_nil_iff, hproblems, Except.ok.injEq]
  · intro document' initial' ns' es' problems' hnodes' hedges' hproblems'
    rw [hread hnodes' hedges'] at hproblems'
    exact rulesApart_of_problemsAmong hproblems hproblems'

/-- A graph with everything wrong at once: an id is missing twice and another
is there twice, an edge leads from nowhere to nowhere, no node ends the call,
and of the nodes one says nothing, one asks in two ways and one hands the call
to a blank. -/
def flawedGraph : Value :=
  .obj [("nodes", .list [.null,
      .obj [("data", .obj [("type", .str "standard")])],
      .obj [("id", .str ""), ("data", .obj [("type", .str "chat")])],
      .obj [("id", .str "ask"), ("data", .obj [("type", .str "retrieve_variable"),
        ("variables", .list [.int 1]), ("variable_name", .str "name"),
        ("extraction_prompt", .str "Who?")])],
      .obj [("id", .str "ask"), ("data", .obj [("type", .str "agent_transfer"),
        ("target_agent_id", .str " \t")])]]),
    ("edges", .list [.obj [("id", .str "e"), ("source", .str "x"), ("target", .str "y")]])]

/-- The report on that graph, with a start that is not there. -/
theorem diagnosed_problemsOf_flawedGraph :
    ∃ problems, problemsOf flawedGraph (.str "start") = .ok problems
      ∧ problems.map Problem.code = ["SCHEMA_INVALID", "DUPLICATE_NODE_ID", "EDGE_NODE_MISSING",
        "EDGE_NODE_MISSING", "MISSING_END_CALL_NODE", "INITIAL_NODE_MISSING",
        "STANDARD_CONTENT_INVALID", "RETRIEVE_VARIABLE_INVALID", "AGENT_TRANSFER_INVALID"]
      ∧ ∃ nodes edges, Diagnosed nodes edges (.str "start") problems := by
  obtain ⟨ns, hnodes⟩ : ∃ ns, nodesOf flawedGraph = .ok ns := ⟨_, rfl⟩
  obtain ⟨es, hedges⟩ : ∃ es, edgesOf flawedGraph = .ok es := ⟨_, rfl⟩
  obtain ⟨problems, hproblems, _, hdiagnosed, _⟩ :=
    diagnosed_problemsOf hnodes hedges (.inr ⟨"start", rfl⟩)
  have hcodes : (problemsOf flawedGraph (.str "start")).map (List.map Problem.code)
      = .ok ["SCHEMA_INVALID", "DUPLICATE_NODE_ID", "EDGE_NODE_MISSING",
        "EDGE_NODE_MISSING", "MISSING_END_CALL_NODE", "INITIAL_NODE_MISSING",
        "STANDARD_CONTENT_INVALID", "RETRIEVE_VARIABLE_INVALID", "AGENT_TRANSFER_INVALID"] := by
    decide +kernel
  rw [hproblems] at hcodes
  exact ⟨problems, hproblems, Except.ok.inj hcodes, _, _, hdiagnosed⟩

end CallFlow
