import CallFlow.Edge.Transition
import CallFlow.Proofs.Edge.Identifier
import CallFlow.Proofs.Value.WellFormed

/-!
# The transitions edges say

A transition that was read – off an item of a list or off an edge – is
*settled*: its condition says something, and its priority is its own. A
settled transition is written as an edge and read back unchanged, so the
edges of a list of items say exactly what the items say, in their order
(`map_ofEdge_edgesFrom`), and no two of them have one id
(`nodup_edgesFrom`).

The transitions of a node depend on the edges that start from it and on
nothing else: `outgoing_filter`, `outgoing_append` and `outgoing_congr`
say which changes of the edges a node does not notice.
-/

namespace CallFlow

/-! ## Texts that say something -/

namespace Value

/-- **The text of a value that says something says something.** -/
theorem text_ne_empty {v : Value} (h : v.truthy = true) : v.text ≠ "" := by
  have hofList : ∀ {cs : List Char}, cs ≠ [] → String.ofList cs ≠ "" := by
    intro cs hcs h
    exact hcs (by simpa using congrArg String.toList h)
  cases v with
  | null => cases h
  | bool b =>
    cases b with
    | false => cases h
    | true => exact hofList (by decide)
  | int n => exact hofList (intText_ne_nil n)
  | float x => exact hofList (Shortest.text_ne_nil x)
  | str s => simpa [truthy] using h
  | list items => exact hofList (by rw [written]; exact List.cons_ne_nil _ _)
  | obj fields => exact hofList (by rw [written]; exact List.cons_ne_nil _ _)

theorem textOr_ne_empty (v : Value) {default : String} (h : default ≠ "") :
    v.textOr default ≠ "" := by
  unfold textOr
  split
  next hv => exact text_ne_empty hv
  next => exact h

theorem idText_eq_empty_iff {v : Value} : v.idText = "" ↔ v.truthy = false := by
  rw [idText]
  cases hv : v.truthy with
  | false => simp
  | true => simpa using text_ne_empty hv

theorem orElse_assoc (v w default : Value) :
    (v.orElse w).orElse default = v.orElse (w.orElse default) := by
  cases hv : v.truthy <;> simp [orElse, hv]

theorem orElse_orElse (v default : Value) :
    (v.orElse default).orElse default = v.orElse default := by
  cases hv : v.truthy with
  | false => simp [orElse, hv]
  | true => simp [orElse, hv]

end Value

/-! ## Settled transitions -/

namespace Transition

/-- Whether a transition has a condition and a priority of its own. -/
def Settled (t : Transition) : Prop :=
  t.condition ≠ "" ∧ t.priority.orElse defaultPriority = t.priority

theorem settled_ofItem (item : Fields) : (ofItem item).Settled :=
  ⟨Value.textOr_ne_empty _ (by decide), Value.orElse_orElse _ _⟩

theorem settled_ofEdge (edge : Fields) : (ofEdge edge).Settled :=
  ⟨Value.textOr_ne_empty _ (by decide), Value.orElse_orElse _ _⟩

/-- **A settled transition is written as an edge and read back unchanged.** -/
theorem Settled.ofEdge_toEdge {t : Transition} (h : t.Settled) (id : String) (source : Value) :
    ofEdge (toEdge id source t) = t := by
  obtain ⟨condition, target, priority⟩ := t
  have hcond : (Value.str condition).truthy = true := by simpa [Value.truthy] using h.1
  have hprio : priority.orElse defaultPriority = priority := h.2
  simp [ofEdge, toEdge, Fields.get, Fields.get?, Value.fieldsOrNone,
    Value.orElse_of_truthy hcond, Value.textOr, hcond, hprio]

theorem Settled.ofItem_toItem {t : Transition} (h : t.Settled) :
    ofItem t.toItem.fieldsOrNone = t := by
  obtain ⟨condition, target, priority⟩ := t
  have hcond : (Value.str condition).truthy = true := by simpa [Value.truthy] using h.1
  have hprio : priority.orElse defaultPriority = priority := h.2
  simp [ofItem, toItem, Fields.get, Fields.get?, Value.fieldsOrNone, Value.textOr, hcond, hprio]

end Transition

theorem map_ofItem_toItem {ts : List Transition} (h : ∀ t ∈ ts, t.Settled) :
    (objectsAmong (ts.map Transition.toItem)).map Transition.ofItem = ts := by
  have hobj : ts.map Transition.toItem = (ts.map fun t => t.toItem.fieldsOrNone).map Value.obj := by
    rw [List.map_map]
    rfl
  rw [hobj, objectsAmong_map_obj, List.map_map]
  exact (List.map_congr_left fun t ht => (h t ht).ofItem_toItem).trans (List.map_id ts)

theorem Transition.wellFormed_priority_ofEdge {edge : Fields}
    (h : (Value.obj edge).wellFormed = true) : (ofEdge edge).priority.wellFormed = true := by
  have hdata := Fields.wellFormed_get (Value.fieldsWellFormed_fieldsOrNone h) "data"
  refine Value.wellFormed_orElse (Fields.wellFormed_get ?_ _) rfl
  exact Value.fieldsWellFormed_fieldsOrNone hdata

/-! ## What an edge is made of -/

/-- **An edge repeats its condition as its label**: it has data, and the
label is the condition the data state. -/
def Labelled (edge : Fields) : Prop :=
  ∃ data, Fields.get edge "data" = .obj data
    ∧ Fields.get edge "label" = Fields.get data "condition"

section Edge

variable (id : String) (source : Value) (t : Transition)

@[simp] theorem idOf_toEdge : idOf (t.toEdge id source) = id := by
  simp [idOf, Transition.toEdge, Fields.get, Fields.get?]

@[simp] theorem sourceOf_toEdge : sourceOf (t.toEdge id source) = source.idText := by
  simp [sourceOf, Transition.toEdge, Fields.get, Fields.get?]

@[simp] theorem targetOf_toEdge : targetOf (t.toEdge id source) = t.target := by
  simp [targetOf, Transition.toEdge, Fields.get, Fields.get?]

theorem labelled_toEdge : Labelled (t.toEdge id source) := by
  refine ⟨[("condition", .str t.condition), ("priority", t.priority)], ?_, ?_⟩
  · simp [Transition.toEdge, Fields.get, Fields.get?]
  · simp [Transition.toEdge, Fields.get, Fields.get?]

end Edge

/-! ## The edges of a list of items -/

section EdgesFrom

variable (source : Value) (ordinal : Nat) (items : List Value) (taken : List String)

/-- The ids handed out to the edges are taken afterwards, and no others. -/
theorem edgesFrom_snd :
    (edgesFrom source ordinal items (some taken)).2
      = some (((edgesFrom source ordinal items (some taken)).1.map idOf).reverse ++ taken) := by
  induction items generalizing ordinal taken with
  | nil => simp [edgesFrom]
  | cons item rest ih =>
    cases item with
    | obj fields =>
      simp only [edgesFrom, EdgeId.issue, ih, List.map_cons, List.reverse_cons, idOf_toEdge,
        EdgeId.allocate, List.append_assoc, List.singleton_append]
    | _ => exact ih (ordinal + 1) taken

/-- **The edges of a list of items have different ids**, none of which was
taken. -/
theorem nodup_edgesFrom :
    ((edgesFrom source ordinal items (some taken)).1.map idOf).Nodup
      ∧ ∀ id ∈ (edgesFrom source ordinal items (some taken)).1.map idOf, id ∉ taken := by
  induction items generalizing ordinal taken with
  | nil => simp [edgesFrom]
  | cons item rest ih =>
    cases item with
    | obj fields =>
      have hfree := EdgeId.allocate_not_mem taken source.text (Transition.ofItem fields).target
        ordinal
      -- the id just handed out is among the taken ones for the rest
      have hrest := ih (ordinal + 1)
        (EdgeId.allocate taken source.text (Transition.ofItem fields).target ordinal).2
      simp only [edgesFrom, EdgeId.issue, List.map_cons, idOf_toEdge]
      exact EdgeId.fresh_cons hfree hrest
    | _ => exact ih (ordinal + 1) taken

/-- **Every object among some items has an edge**, written from the transition
it states, and these are in the order of the items. -/
theorem forall₂_edgesFrom (taken : Option (List String)) :
    List.Forall₂ (fun edge item => ∃ id, edge = (Transition.ofItem item).toEdge id source)
      (edgesFrom source ordinal items taken).1 (objectsAmong items) := by
  induction items generalizing ordinal taken with
  | nil => exact .nil
  | cons item rest ih =>
    cases item with
    | obj fields => exact .cons ⟨_, rfl⟩ (ih _ _)
    | _ => exact ih _ _

theorem exists_toEdge_of_mem_edgesFrom (taken : Option (List String)) {edge : Fields}
    (h : edge ∈ (edgesFrom source ordinal items taken).1) :
    ∃ id, ∃ item ∈ objectsAmong items,
      edge = (Transition.ofItem item).toEdge id source := by
  obtain ⟨item, hitem, id, hedge⟩ :=
    exists_of_mem_left (forall₂_edgesFrom source ordinal items taken) h
  exact ⟨id, item, hitem, hedge⟩

/-- **The edges of a list of items say what the items say**, in their
order. -/
theorem map_ofEdge_edgesFrom (taken : Option (List String)) :
    (edgesFrom source ordinal items taken).1.map Transition.ofEdge
      = (objectsAmong items).map Transition.ofItem := by
  rw [← List.forall₂_eq_eq_eq, List.forall₂_map_left_iff, List.forall₂_map_right_iff]
  refine (forall₂_edgesFrom source ordinal items taken).imp ?_
  rintro _ item ⟨id, rfl⟩
  exact (Transition.settled_ofItem item).ofEdge_toEdge id source

theorem wellFormed_priority_ofItem {items : List Value}
    (hitems : ∀ item ∈ items, item.wellFormed = true) {item : Fields}
    (hitem : item ∈ objectsAmong items) :
    (Transition.ofItem item).priority.wellFormed = true := by
  have hfields := Value.fieldsWellFormed_fieldsOrNone (hitems _ (mem_objectsAmong.mp hitem))
  exact Value.wellFormed_orElse (Fields.wellFormed_get hfields _) rfl

end EdgesFrom

/-! ## What a node notices of the edges -/

section Outgoing

variable (xs ys : List Fields) (id : String)

theorem outgoing_append : outgoing (xs ++ ys) id = outgoing xs id ++ outgoing ys id := by
  rw [outgoing, List.filter_append, List.map_append]
  rfl

variable {xs ys id}

theorem outgoing_eq_nil (h : ∀ e ∈ xs, sourceOf e ≠ id) : outgoing xs id = [] := by
  rw [outgoing, List.filter_eq_nil_iff.mpr fun e he => by simpa using h e he]
  rfl

theorem outgoing_eq_map (h : ∀ e ∈ xs, sourceOf e = id) :
    outgoing xs id = xs.map Transition.ofEdge := by
  rw [outgoing, List.filter_eq_self.mpr fun e he => by simpa using h e he]

theorem outgoing_filter {p : Fields → Bool} (h : ∀ e ∈ xs, sourceOf e = id → p e = true) :
    outgoing (xs.filter p) id = outgoing xs id := by
  rw [outgoing, outgoing, List.filter_filter]
  refine congrArg (List.map Transition.ofEdge) (List.filter_congr fun e he => ?_)
  by_cases hs : sourceOf e = id
  · simp [hs, h e he hs]
  · simp [hs]

/-- **A node does not notice a change of edges that start elsewhere**, and of
those that start from it only what they say. -/
theorem outgoing_congr
    (h : List.Forall₂ (fun x y => sourceOf y = sourceOf x
      ∧ (sourceOf x = id → Transition.ofEdge y = Transition.ofEdge x)) xs ys) :
    outgoing ys id = outgoing xs id := by
  induction h with
  | nil => rfl
  | @cons x y xs ys hxy _ ih =>
    rw [outgoing, outgoing, List.filter_cons, List.filter_cons, hxy.1]
    by_cases hs : sourceOf x = id
    · rw [if_pos (by simpa using hs), if_pos (by simpa using hs), List.map_cons, List.map_cons,
        hxy.2 hs]
      exact congrArg _ ih
    · rw [if_neg (by simpa using hs), if_neg (by simpa using hs)]
      exact ih

section Anew

variable {edges : List Fields} {name : String} {items : List Value} {taken : Option (List String)}

theorem sourceOf_of_mem_edgesFrom {edge : Fields}
    (h : edge ∈ (edgesFrom (.str name) 0 items taken).1) : sourceOf edge = name := by
  obtain ⟨_, item, _, rfl⟩ := exists_toEdge_of_mem_edgesFrom _ _ _ _ h
  rw [sourceOf_toEdge, Value.idText_str]

/-- A node does not notice that the edges of another are made anew. -/
theorem outgoing_append_edgesFrom (hne : id ≠ name) (items : List Value)
    (taken : Option (List String)) :
    outgoing (edges.filter (fun e => sourceOf e ≠ name)
      ++ (edgesFrom (.str name) 0 items taken).1) id = outgoing edges id := by
  have hfresh : ∀ e ∈ (edgesFrom (.str name) 0 items taken).1, sourceOf e ≠ id :=
    fun e he hfrom => hne (hfrom.symm.trans (sourceOf_of_mem_edgesFrom he))
  rw [outgoing_append, outgoing_eq_nil hfresh, List.append_nil]
  refine outgoing_filter fun e _ hfrom => ?_
  rw [hfrom]
  exact decide_eq_true hne

/-- **Edges made anew for a node say of it what its list says.** -/
theorem outgoing_append_edgesFrom_self (edges : List Fields) (name : String) (items : List Value)
    (taken : Option (List String)) :
    outgoing (edges.filter (fun e => sourceOf e ≠ name)
        ++ (edgesFrom (.str name) 0 items taken).1) name
      = (objectsAmong items).map Transition.ofItem := by
  have hothers : ∀ e ∈ edges.filter (fun e => sourceOf e ≠ name), sourceOf e ≠ name :=
    fun e he => of_decide_eq_true (List.mem_filter.mp he).2
  rw [outgoing_append, outgoing_eq_nil hothers, List.nil_append,
    outgoing_eq_map fun e he => sourceOf_of_mem_edgesFrom he, map_ofEdge_edgesFrom]

end Anew

end Outgoing

end CallFlow
