import CallFlow.Http.Schema
import CallFlow.Proofs.Http.Framework

/-!
# What was read is read as it is

A check may change what it is given: it fills in defaults, reads numbers out of
texts, and drops what is not declared. But it does so once. What a check hands
back it hands back as it is when it is read again (`Check.Idempotent`),
wherever it stands then, and so do models that are made of such
checks. For a model there are three things to see: each field it declares is found
again, since no two of them have one key; a default passes its own check; and
what the model does not declare it does not declare the second time either.

A node that passed still passes as it is with another list of transitions in
its data (`Schema.keeps_withTransitions`). The list stands where it stood, and
of the data nothing is asked but that they are an object.
-/

namespace CallFlow

namespace Check

/-- **Whether what a check hands back is handed back as it is** when it is
read again. -/
def Idempotent (check : Check) : Prop :=
  ∀ ⦃place : List Place⦄ ⦃value read : Value⦄, check place value = .ok read → check.Keeps read

theorem Settles.idempotent {check : Check} {Q : Value → Prop} (h : check.Settles Q) :
    check.Idempotent := fun _ _ _ hread place => h.keeps place (h.yields hread)

/-! ## Models -/

section Models

variable {F : Framework} {declared : List Field} {keepsOthers : Bool} {place : List Place}
  {reads others fields : Fields}

/-- **Whether a model can be declared with some fields**: no two of them have one
key, and their keys are plain characters. -/
structure WellDeclared (declared : List Field) : Prop where
  /-- No two fields have one key. -/
  distinct : (declared.map Field.key).Nodup
  /-- The keys are plain. -/
  plain : (declared.all fun f => isPlain f.key) = true

/-- Whether a field is one of a model that its check keeps. -/
def Field.Stands (f : Field) (pair : Key × Value) : Prop :=
  pair.1 = Key.text f.key ∧ f.check.Keeps pair.2

/-- **Fields that stand in the order of a model are found again**, since no two
of its fields have one key. -/
theorem get?_of_forall₂ {R : Field → Key × Value → Prop}
    (hkey : ∀ {f pair}, R f pair → pair.1 = Key.text f.key)
    (hdistinct : (declared.map Field.key).Nodup) (hreads : List.Forall₂ R declared reads)
    (rest : Fields) :
    List.Forall₂ (fun f pair => R f pair ∧ Fields.get? (reads ++ rest) f.key = some pair.2)
      declared reads := by
  induction hreads with
  | nil => exact .nil
  | @cons f pair declared reads hf hreads ih =>
    obtain ⟨k, v⟩ := pair
    obtain rfl : k = Key.text f.key := hkey hf
    rw [List.map_cons, List.nodup_cons] at hdistinct
    refine .cons ⟨hf, by rw [List.cons_append, Fields.get?, if_pos (Key.same_self _)]⟩ ?_
    refine forall₂_imp_of_mem (ih hdistinct.2) fun g hg pair h => ⟨h.1, ?_⟩
    -- a later field stands under another key
    have hne : f.key ≠ g.key := fun heq => hdistinct.1 (heq ▸ List.mem_map_of_mem hg)
    rw [List.cons_append, Fields.get?, if_neg (by simpa using hne)]
    exact h.2

/-- Of fields of a model and others that it does not declare, the others are those
it does not declare. -/
theorem others_append (hreads : List.Forall₂ Field.Stands declared reads)
    (hothers : Check.others declared others = others) :
    Check.others declared (reads ++ others) = others := by
  have hnone : Check.others declared reads = [] := by
    refine List.filter_eq_nil_iff.mpr fun pair hpair => ?_
    obtain ⟨f, hf, hkey, _⟩ := exists_of_mem_right hreads hpair
    have hmem : pair.1 ∈ declared.map fun d => Key.text d.key :=
      List.mem_map.mpr ⟨f, hf, hkey.symm⟩
    simpa using hmem
  have happend : Check.others declared (reads ++ others)
      = Check.others declared reads ++ Check.others declared others := List.filter_append _ _
  rw [happend, hnone, hothers, List.nil_append]

theorem others_others : Check.others declared (Check.others declared fields)
    = Check.others declared fields := by
  unfold Check.others
  rw [List.filter_filter]
  simp only [Bool.and_self]

/-- **Whether fields are in the form a model hands back**: those it declares come
first, in its order, and each is kept by its check; behind them come those it
does not declare, under texts, if it keeps any. -/
def InForm (F : Framework) (declared : List Field) (keepsOthers : Bool) (fields : Fields) : Prop :=
  ∃ reads others, fields = reads ++ others ∧ List.Forall₂ Field.Stands declared reads
    ∧ Check.others declared others = others ∧ HaveTextKeys F others
    ∧ others = if keepsOthers then others else []

theorem inForm_of_stands (hreads : List.Forall₂ Field.Stands declared reads) :
    InForm F declared keepsOthers reads :=
  ⟨reads, [], (List.append_nil reads).symm, hreads, rfl, fun _ hf => absurd hf List.not_mem_nil,
    by rw [ite_self]⟩

/-- Whether what the checks of a model hand back, and the defaults it puts
there, are kept by the checks. -/
def AllIdempotent (declared : List Field) : Prop :=
  declared.Forall fun f => f.check.Idempotent
    ∧ ∀ default, f.default = some default → f.check.Keeps default

theorem Field.Reads.stands {f : Field} {pair : Key × Value} (h : f.Reads place fields pair)
    (hf : f.check.Idempotent)
    (hdefault : ∀ default, f.default = some default → f.check.Keeps default) : f.Stands pair := by
  obtain ⟨read, rfl, ⟨_, _, hread⟩ | ⟨_, hread⟩⟩ := h
  · exact ⟨rfl, hf hread⟩
  · exact ⟨rfl, hdefault read hread⟩

variable (hF : F.Lawful)

include hF

theorem haveTextKeys_of_forall₂ {R : Field → Key × Value → Prop} (hdeclared : WellDeclared declared)
    (hkey : ∀ {f pair}, R f pair → pair.1 = Key.text f.key)
    (hreads : List.Forall₂ R declared reads) : HaveTextKeys F reads := by
  intro pair hpair
  obtain ⟨f, hf, hR⟩ := exists_of_mem_right hreads hpair
  exact ⟨f.key, hkey hR, hF.encodes (List.all_eq_true.mp hdeclared.plain f hf)⟩

/-- **A model keeps an object in its form.** -/
theorem InForm.keeps (hdeclared : WellDeclared declared)
    (h : InForm F declared keepsOthers fields) :
    (F.model declared keepsOthers).Keeps (.obj fields) := by
  obtain ⟨reads, others, rfl, hreads, hothers, hkeys, hkept⟩ := h
  have htexts := haveTextKeys_of_forall₂ hF hdeclared (fun hstands => hstands.1) hreads
  intro place
  refine hF.model.mpr ⟨reads ++ others, reads, rfl, ?_,
    fun _ => List.forall_mem_append.mpr ⟨htexts, hkeys⟩, ?_⟩
  · refine (get?_of_forall₂ (fun hstands => hstands.1) hdeclared.distinct hreads others).imp ?_
    rintro f ⟨k, v⟩ ⟨⟨hkey, hkeeps⟩, hread⟩
    obtain rfl : k = Key.text f.key := hkey
    exact ⟨v, rfl, .inl ⟨v, hread, hkeeps _⟩⟩
  · rw [others_append hreads hothers, ← hkept]

/-- **What a model hands back is in its form.** -/
theorem inForm_of_model (hchecks : AllIdempotent declared) {value read : Value}
    (h : F.model declared keepsOthers place value = .ok read) :
    ∃ fields, read = .obj fields ∧ InForm F declared keepsOthers fields := by
  obtain ⟨fields, reads, rfl, hreads, hkeys, rfl⟩ := hF.model.mp h
  refine ⟨_, rfl, reads, _, rfl, forall₂_imp_of_mem hreads fun f hf pair hread => ?_, ?_⟩
  · obtain ⟨hidempotent, hdefault⟩ := List.forall_iff_forall_mem.mp hchecks f hf
    exact hread.stands hidempotent hdefault
  · cases keepsOthers with
    | true =>
      exact ⟨others_others, fun f hf => hkeys rfl f (List.mem_of_mem_filter hf), rfl⟩
    | false => exact ⟨rfl, fun f hf => absurd hf List.not_mem_nil, rfl⟩

/-- **A model leaves nothing to do** if its checks do not. -/
theorem idempotent_model (hdeclared : WellDeclared declared) (hchecks : AllIdempotent declared) :
    (F.model declared keepsOthers).Idempotent := by
  intro place value read h
  obtain ⟨fields, rfl, hform⟩ := inForm_of_model hF hchecks h
  exact hform.keeps hF hdeclared

end Models

end Check

/-! ## The models of a graph -/

namespace Schema

open Check

variable {F : Framework} (hF : F.Lawful)

include hF

theorem keeps_zero : F.number.Keeps (.int 0) := fun place => hF.number.keeps place ⟨.int 0, rfl⟩

theorem keeps_null {check : Check} : (F.nullable check).Keeps .null := hF.nullable_null check

theorem keeps_obj_nil : F.object.Keeps (.obj []) := fun place =>
  hF.settles_object.keeps place ⟨[], rfl, fun _ hf => absurd hf List.not_mem_nil⟩

theorem keeps_plain {s : String} (hs : isPlain s = true) : F.text.Keeps (.str s) :=
  fun place => hF.settles_text.keeps place ⟨s, rfl, hF.encodes hs⟩

theorem idempotent_position : (position F).Idempotent := by
  refine idempotent_model hF ⟨by simp, by simp [isPlain]⟩ ?_
  exact ⟨⟨hF.number.idempotent, fun _ h => Option.some.inj h ▸ keeps_zero hF⟩,
      ⟨hF.number.idempotent, fun _ h => Option.some.inj h ▸ keeps_zero hF⟩⟩

theorem keeps_origin : (position F).Keeps (.obj [("x", .int 0), ("y", .int 0)]) := by
  refine (inForm_of_stands ?_).keeps hF ⟨by simp, by simp [isPlain]⟩
  exact .cons ⟨rfl, keeps_zero hF⟩ (.cons ⟨rfl, keeps_zero hF⟩ .nil)

theorem idempotent_edgeData : (edgeData F).Idempotent := by
  refine idempotent_model hF ⟨by simp, by simp [isPlain]⟩ ?_
  exact ⟨⟨(hF.settles_nullable hF.settles_text).idempotent,
        fun _ h => Option.some.inj h ▸ keeps_null hF⟩,
      ⟨(hF.settles_nullable hF.number).idempotent, fun _ h => Option.some.inj h ▸ keeps_null hF⟩⟩

theorem keeps_blankData : (edgeData F).Keeps (.obj [("condition", .null), ("priority", .null)]) := by
  refine (inForm_of_stands ?_).keeps hF ⟨by simp, by simp [isPlain]⟩
  exact .cons ⟨rfl, keeps_null hF⟩ (.cons ⟨rfl, keeps_null hF⟩ .nil)

omit hF in
theorem wellDeclared_node : WellDeclared (nodeFields F) :=
  ⟨by simp [nodeFields], by simp [nodeFields, isPlain]⟩

theorem allIdempotent_node : AllIdempotent (nodeFields F) :=
  ⟨⟨hF.settles_text.idempotent, fun _ h => by cases h⟩,
    ⟨hF.settles_text.idempotent, fun _ h => Option.some.inj h ▸ keeps_plain hF rfl⟩,
    ⟨idempotent_position hF, fun _ h => Option.some.inj h ▸ keeps_origin hF⟩,
    ⟨hF.settles_object.idempotent, fun _ h => Option.some.inj h ▸ keeps_obj_nil hF⟩⟩

/-- **A node that was read is read as it is.** -/
theorem idempotent_node : (node F).Idempotent :=
  idempotent_model hF wellDeclared_node (allIdempotent_node hF)

/-- **An edge that was read is read as it is.** -/
theorem idempotent_edge : (edge F).Idempotent := by
  have hlabel := hF.settles_nullable hF.settles_text
  refine idempotent_model hF ⟨by simp, by simp [isPlain]⟩ ?_
  exact ⟨⟨hF.settles_text.idempotent, fun _ h => Option.some.inj h ▸ keeps_plain hF rfl⟩,
      ⟨hF.settles_text.idempotent, fun _ h => by cases h⟩,
      ⟨hF.settles_text.idempotent, fun _ h => by cases h⟩,
      ⟨hlabel.idempotent, fun _ h => Option.some.inj h ▸ keeps_null hF⟩,
      ⟨idempotent_edgeData hF, fun _ h => Option.some.inj h ▸ keeps_blankData hF⟩⟩

/-- **A graph passes as it is** if its nodes and edges do. -/
theorem keeps_graph {nodes edges : List Fields} (hnodes : ∀ n ∈ nodes, (node F).Keeps (.obj n))
    (hedges : ∀ e ∈ edges, (edge F).Keeps (.obj e)) :
    Check.Keeps (graph F) (Graph.ofObjects nodes edges).toValue := by
  have hlist : ∀ {check : Check} {fs : List Fields}, (∀ fields ∈ fs, check.Keeps (.obj fields)) →
      (F.listOf check).Keeps (.list (fs.map Value.obj)) := by
    intro check fs h
    refine hF.keeps_listOf fun item hitem => ?_
    obtain ⟨fields, hfields, rfl⟩ := List.mem_map.mp hitem
    exact h fields hfields
  refine (inForm_of_stands ?_).keeps hF ⟨by simp, by simp [isPlain]⟩
  exact .cons ⟨rfl, hlist hnodes⟩ (.cons ⟨rfl, hlist hedges⟩ .nil)

/-- **A node that was read passes as it is with another list** of
transitions. -/
theorem keeps_withTransitions {here : List Place} {value : Value} {fields : Fields}
    (h : node F here value = .ok (.obj fields)) (transitions : List Value) :
    (node F).Keeps (.obj (withTransitions fields transitions)) := by
  obtain ⟨_, hfields, hform⟩ := inForm_of_model hF (allIdempotent_node hF) h
  obtain rfl := Value.obj.inj hfields
  obtain ⟨_, others, rfl, hreads, hothers⟩ := hform
  obtain ⟨⟨_, id⟩, _, ⟨rfl, hid⟩, hfromType, rfl⟩ := List.forall₂_cons_left_iff.mp hreads
  obtain ⟨⟨_, type⟩, _, ⟨rfl, htype⟩, hfromPlace, rfl⟩ := List.forall₂_cons_left_iff.mp hfromType
  obtain ⟨⟨_, place⟩, _, ⟨rfl, hplace⟩, hfromData, rfl⟩ := List.forall₂_cons_left_iff.mp hfromPlace
  obtain ⟨⟨_, data⟩, _, ⟨rfl, hdata⟩, hend, rfl⟩ := List.forall₂_cons_left_iff.mp hfromData
  obtain rfl := List.forall₂_nil_left_iff.mp hend
  -- the list is written into the data, which stay an object where they stood
  have hlisted : F.object.Keeps (.obj (Fields.put data.fieldsOrNone "transitions"
      (.list transitions))) := by
    obtain ⟨⟨fields, rfl, hkeys⟩, _⟩ := hF.object.mp (hdata [])
    exact fun place => hF.settles_object.keeps place
      ⟨_, rfl, hkeys.put (hF.encodes rfl) _⟩
  have hform : InForm F (nodeFields F) true (withTransitions
      ([(Key.text "id", id), (Key.text "type", type), (Key.text "position", place),
        (Key.text "data", data)] ++ others) transitions) :=
    ⟨_, others, rfl, .cons ⟨rfl, hid⟩ (.cons ⟨rfl, htype⟩ (.cons ⟨rfl, hplace⟩
      (.cons ⟨rfl, hlisted⟩ .nil))), hothers⟩
  exact hform.keeps hF wellDeclared_node

end Schema

end CallFlow
