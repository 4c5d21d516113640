import CallFlow.Session
import CallFlow.Workflow
import CallFlow.Proofs.Config.Faults
import CallFlow.Proofs.Graph.Synchronisation
import CallFlow.Proofs.Json.TextKeyed

/-!
# Where opening fails

A configuration is opened by loading it and bringing the graph into agreement,
and a session starts with the same. Loading does not look at transitions that are
no list. Bringing into agreement has to count what a node lists, and so it fails
where an entry states true or a number for its transitions, and only there
(`opensAgreed_openWorkflow`). What is shown otherwise is a graph in which the list
of every node agrees with the edges.

Together with where loading and saving fail this is all that can go wrong between
a configuration and the editor (`conversion_faults`).
-/

namespace CallFlow

/-- **Whether a document cannot be opened**: it cannot be loaded, or what one of
its nodes states as transitions cannot be counted. -/
def CannotOpen (config : Value) : Prop :=
  CannotLoad config
    ∨ (statedNodes config).ListsObject fun raw => (Fields.get raw "transitions").isNonzero = true

/-- **Whether a graph document is in agreement**: the list of every node agrees
with the edges. -/
def IsAgreed (document : Value) : Prop :=
  ∃ nodes edges, document = (Graph.ofObjects nodes edges).toValue
    ∧ ∀ node ∈ nodes, nodeAgrees (edges.map Value.obj) node = .ok true

/-! ## Opening is loading and one round -/

theorem openWorkflow_eq_resync (settings : Settings) (config direction : Value)
    (placed : Option Value) :
    openWorkflow settings config false direction placed
      = loadGraph settings config >>= fun g => resync none g.toValue := rfl

/-- A session starts on the graph a configuration is opened as. -/
theorem graph_ofConfig_eq (settings : Settings) (config direction : Value)
    (placed : Option Value) :
    Session.graph <$> Session.ofConfig settings config
      = openWorkflow settings config false direction placed := by
  rw [openWorkflow_eq_resync, Session.ofConfig]
  cases loadGraph settings config with
  | error fault => rfl
  | ok g =>
    rw [Outcome.ok_bind, Outcome.ok_bind, Session.start, resync, Option.map_none]
    cases sync g.toValue none <;> rfl

/-- What one round leaves of a graph of objects is the graph of what becomes of
its nodes. -/
theorem apply_resyncedGraph_kept (nodes edges : List Fields) (scope : Option (List String)) :
    (resyncedGraph .kept nodes edges scope).apply (Graph.ofObjects nodes edges).toValue
      = (Graph.ofObjects (nodes.map (resynced edges scope)) edges).toValue := by
  cases h : nodes.any (isReported edges scope) with
  | true =>
    rw [resyncedGraph, if_pos h]
    rfl
  | false =>
    rw [resyncedGraph, h, map_resynced_of_none h]
    rfl

/-! ## What was loaded is counted -/

/-- The list of a node that was loaded can be counted unless its entry states
true or a number. -/
theorem LoadedAs.isCountable_eq {raw node : Fields} (h : LoadedAs raw node) :
    isCountable node = !(Fields.get raw "transitions").isNonzero := by
  rw [isCountable, cachedTransitions, h.get_dataOf (by decide)]
  generalize Fields.get raw "transitions" = value
  cases hsaid : value.truthy with
  | true =>
    rw [Value.orElse_of_truthy hsaid]
    cases value with
    | null => cases hsaid
    | bool | int | float => exact (congrArg not hsaid).symm
    | str | list | obj => rfl
  | false =>
    have hzero : value.isNonzero = false := by
      by_contra hne
      rw [Value.truthy_of_isNonzero (by simpa using hne)] at hsaid
      cases hsaid
    rw [Value.orElse, hsaid, hzero]
    rfl

/-- The graph that was loaded is no obstacle to a round unless an entry states
true or a number for its transitions. -/
theorem all_isReadable_eq_false_iff {raws nodes : List Fields}
    (h : List.Forall₂ LoadedAs raws nodes) :
    nodes.all (isReadable none) = false
      ↔ ∃ raw ∈ raws, (Fields.get raw "transitions").isNonzero = true := by
  induction h with
  | nil => simp
  | @cons raw node raws nodes hloaded _ ih =>
    rw [List.all_cons, Bool.and_eq_false_iff, ih, List.exists_mem_cons_iff, isReadable,
      hloaded.isCountable_eq]
    simp [inScope]

/-- **Where one round fails** on a graph that was loaded. -/
theorem resync_faultsIff {raws nodes edges : List Fields} (h : List.Forall₂ LoadedAs raws nodes) :
    (resync none (Graph.ofObjects nodes edges).toValue).FaultsIff .wrongKind
      (∃ raw ∈ raws, (Fields.get raw "transitions").isNonzero = true) := by
  rw [resync_eq (holds_toValue nodes edges) rfl, ← all_isReadable_eq_false_iff h]
  cases nodes.all (isReadable none) with
  | true => exact .of_eq_ok (by simp) rfl
  | false => exact ⟨fun _ => rfl, fun hnot => absurd rfl hnot⟩

/-- **One round brings a graph into agreement**, if its priorities are proper. -/
theorem isAgreed_of_resync {nodes edges : List Fields} {document : Value}
    (hpriorities : ∀ edge ∈ edges, Json.IsProper (Transition.ofEdge edge).priority)
    (h : resync none (Graph.ofObjects nodes edges).toValue = .ok document) :
    IsAgreed document := by
  rw [resync_eq (holds_toValue nodes edges) rfl] at h
  split at h
  next hreadable =>
    obtain rfl := Except.ok.inj h
    refine ⟨_, edges, apply_resyncedGraph_kept nodes edges none, fun node' hnode' => ?_⟩
    obtain ⟨node, hnode, rfl⟩ := List.mem_map.mp hnode'
    have hproper : ∀ t ∈ outgoing edges (idOf node), Json.IsProper t.priority := by
      intro t ht
      obtain ⟨edge, hedge, rfl⟩ := List.mem_map.mp ht
      exact hpriorities edge (List.mem_of_mem_filter hedge)
    have hcount : isCountable node = true := List.all_eq_true.mp hreadable node hnode
    have hcopies : Copies edges (resynced edges none node) :=
      copies_resynced rfl hcount fun t ht => (hproper t ht).wellFormed
    have hdefined : hasUndefinedPriority edges (resynced edges none node) = false := by
      rw [hasUndefinedPriority, idOf_resynced, List.any_eq_false]
      exact fun t ht => by simp [(hproper t ht).isUndefined]
    rw [nodeAgrees_of_copies hcopies, hdefined]
    rfl
  next => cases h

/-! ## What can go wrong -/

/-- **Whether opening a configuration fails just where it cannot be opened**, and
shows a graph in agreement otherwise. -/
structure OpensAgreed (config : Value) (opened : Outcome Value) : Prop where
  /-- It fails where the configuration cannot be opened, and nowhere else. -/
  faults : opened.FaultsIff .wrongKind (CannotOpen config)
  /-- What is shown of a proper document is in agreement. -/
  agreed : Json.IsProper config → ∀ document, opened = .ok document → IsAgreed document

/-- **Where opening fails**, and what is shown otherwise. -/
theorem opensAgreed_openWorkflow (config direction : Value) (placed : Option Value) :
    OpensAgreed config (openWorkflow .default config false direction placed) := by
  rw [openWorkflow_eq_resync]
  constructor
  · refine (loadGraph_faultsIff config).bind fun g hg => ?_
    obtain ⟨raws, nodes, hraws, rfl, hall⟩ := loadGraph_eq_ok hg
    exact (resync_faultsIff hall).congr (exists_sectionNodes_iff hraws _)
  · intro hproper document h
    obtain ⟨g, hg, h⟩ := Outcome.bind_eq_ok.mp h
    obtain ⟨raws, nodes, hraws, rfl, _⟩ := loadGraph_eq_ok hg
    refine isAgreed_of_resync (fun edge hedge => ?_) h
    exact Json.hereditary_isProper.priority_of_mem_loadEdges
      (Json.hereditary_isProper.sectionNodes hproper hraws) _ hedge

/-- **What can go wrong between a configuration and the editor**, and nothing else
can:

* a configuration is not loaded on the default grid if it cannot be loaded,
* it is not opened, nor is a session started on it, if it cannot be opened, and
  what is shown otherwise is in agreement, and
* a graph whose nodes and edges are lists, if they are there, is not saved if one
  of its nodes cannot be saved, whatever it is saved over. -/
theorem conversion_faults :
    (∀ config, (loadGraph .default config).FaultsIff .wrongKind (CannotLoad config))
    ∧ (∀ config direction placed,
      OpensAgreed config (openWorkflow .default config false direction placed)
      ∧ OpensAgreed config (Session.graph <$> Session.ofConfig .default config))
    ∧ ∀ settings request fields, (Fields.get fields "nodes").isListOrNull = true →
      (Fields.get fields "edges").isListOrNull = true → AreEdits request.edits →
      (saveGraph settings request (.obj fields)).FaultsIff .wrongKind
        ((Fields.get fields "nodes").ListsObject CannotSave) := by
  refine ⟨loadGraph_faultsIff, fun config direction placed => ⟨?_, ?_⟩,
    fun settings request fields hnodes hedges hedits => saveGraph_faultsIff hnodes hedges hedits⟩
  · exact opensAgreed_openWorkflow config direction placed
  · rw [graph_ofConfig_eq .default config direction placed]
    exact opensAgreed_openWorkflow config direction placed

/-- An entry whose transitions cannot be counted. -/
def uncountedEntry : Fields := [("id", .str "a"), ("transitions", .bool true)]

/-- A node of a kind of which the actions on entry are kept alone, with none that
have elements. -/
def unlistedActions : Fields :=
  [("data", .obj [("type", .str "api_call"), ("actions", .obj [("on_entry", .int 1)])])]

/-- The entry is loaded and cannot be opened, and the node cannot be saved. -/
theorem conversion_faults_uncounted :
    (∃ g, loadGraph .default (.obj [("nodes", .list [.obj uncountedEntry])]) = .ok g)
    ∧ openWorkflow .default (.obj [("nodes", .list [.obj uncountedEntry])]) false .null none
      = .error .wrongKind
    ∧ saveGraph .default {} (.obj [("nodes", .list [.obj unlistedActions])])
      = .error .wrongKind := by
  obtain ⟨hload, hopen, hsave⟩ := conversion_faults
  refine ⟨(hload _).ok ?_, (hopen _ .null none).1.faults.error (.inr ?_),
    (hsave .default {} _ rfl rfl (.inl rfl)).error ?_⟩
  · rintro (hnumber | ⟨items, raw, hlist, hmem, hfilled⟩)
    · exact absurd hnumber (by decide)
    · obtain rfl := Value.list.inj hlist
      obtain rfl := Value.obj.inj (List.mem_singleton.mp hmem)
      exact absurd hfilled (by decide)
  · exact ⟨_, uncountedEntry, rfl, List.mem_singleton_self _, by decide⟩
  · exact ⟨_, unlistedActions, rfl, List.mem_singleton_self _, .inl (by decide), _, rfl,
      by decide⟩

end CallFlow
