import CallFlow.Http.Schema
import CallFlow.Proofs.Config.Places
import CallFlow.Proofs.Http.Framework

/-!
# Reading part by part

A value is read part by part, so a property that values have part by part is
kept (`Check.Preserves`), if every number has it: numbers are the only values that
may be read as others. That the keys of every object are texts is such a
property, and the one this is used for: what was read of a request is then as
fit for an answer as the request was.
-/

namespace CallFlow

/-- **Whether what a check hands back has a property** if what it is given has. -/
def Check.Preserves (check : Check) (P : Value → Prop) : Prop :=
  ∀ ⦃place : List Place⦄ ⦃value read : Value⦄, check place value = .ok read → P value → P read

namespace Value.Hereditary

variable {P : Value → Prop} (hP : Hereditary False P) {F : Framework} (hF : F.Lawful)

section Checks

include hF

omit hP in
theorem preserves_text : F.text.Preserves P := by
  intro place value read hread hvalue
  obtain ⟨_, rfl⟩ := hF.text.mp hread
  exact hvalue

omit hP in
theorem preserves_object : F.object.Preserves P := by
  intro place value read hread hvalue
  obtain ⟨_, rfl⟩ := hF.object.mp hread
  exact hvalue

omit hP in
theorem preserves_nullable {check : Check} (h : check.Preserves P) :
    (F.nullable check).Preserves P := by
  intro place value read hread hvalue
  by_cases hnull : value = .null
  · rw [hnull, hF.nullable_null] at hread
    rwa [← Except.ok.inj hread, ← hnull]
  · rw [hF.nullable_of_ne hnull] at hread
    exact h hread hvalue

include hP

theorem preserves_listOf {check : Check} (h : check.Preserves P) : (F.listOf check).Preserves P := by
  intro place value read hread hvalue
  obtain ⟨items, reads, rfl, rfl, hall⟩ := hF.listOf_eq_ok hread
  refine hP.list.mpr fun v hv => ?_
  obtain ⟨item, hitem, _, hread⟩ := exists_of_mem_right hall hv
  exact h hread (hP.list.mp hvalue item hitem)

/-- **A model keeps what each of its checks keeps**, if the defaults have it. -/
theorem preserves_model {declared : List Check.Field} {keepsOthers : Bool}
    (h : declared.Forall fun f =>
      f.check.Preserves P ∧ ∀ default, f.default = some default → P default) :
    (F.model declared keepsOthers).Preserves P := by
  intro place value read hread hvalue
  obtain ⟨fields, reads, rfl, hreads, _, rfl⟩ := hF.model.mp hread
  refine hP.obj.mpr ⟨False.elim, List.forall_mem_append.mpr ⟨fun pair hpair => ?_, ?_⟩⟩
  · obtain ⟨f, hf, read, rfl, ⟨value, hget, hread⟩ | ⟨_, hdefault⟩⟩ :=
      exists_of_mem_right hreads hpair
    · exact ⟨rfl, (List.forall_iff_forall_mem.mp h f hf).1 hread (hP.get? hvalue hget)⟩
    · exact ⟨rfl, (List.forall_iff_forall_mem.mp h f hf).2 read hdefault⟩
  · split
    · exact fun pair hpair => hP.mem hvalue pair (List.mem_of_mem_filter hpair)
    · exact fun pair hpair => absurd hpair List.not_mem_nil

end Checks

/-! ## The models of a graph -/

section Models

variable (hfloat : ∀ x, P (.float x))

include hP hF hfloat

theorem preserves_number : F.number.Preserves P := by
  intro place value read hread _
  obtain ⟨n, rfl⟩ := hF.number.yields hread
  exact hP.ofNumber hfloat n

theorem preserves_position : (Schema.position F).Preserves P := by
  have hnumber := hP.preserves_number hF hfloat
  refine hP.preserves_model hF ⟨⟨hnumber, ?_⟩, hnumber, ?_⟩
  all_goals exact fun _ h => Option.some.inj h ▸ hP.int 0

theorem preserves_edgeData : (Schema.edgeData F).Preserves P := by
  have hnumber := hP.preserves_number hF hfloat
  refine hP.preserves_model hF ⟨⟨preserves_nullable hF (preserves_text hF), ?_⟩,
    preserves_nullable hF hnumber, ?_⟩
  all_goals exact fun _ h => Option.some.inj h ▸ hP.null

/-- **A node keeps when it is read what values have part by part.** -/
theorem preserves_node : (Schema.node F).Preserves P := by
  have horigin : P (.obj [("x", .int 0), ("y", .int 0)]) :=
    hP.obj_cons.mpr ⟨hP.int 0, hP.obj_cons.mpr ⟨hP.int 0, hP.obj_nil⟩⟩
  exact hP.preserves_model hF ⟨⟨preserves_text hF, fun _ h => by cases h⟩,
    ⟨preserves_text hF, fun _ h => Option.some.inj h ▸ hP.str _⟩,
    ⟨hP.preserves_position hF hfloat, fun _ h => Option.some.inj h ▸ horigin⟩,
    ⟨preserves_object hF, fun _ h => Option.some.inj h ▸ hP.obj_nil⟩⟩

/-- **An edge keeps when it is read what values have part by part.** -/
theorem preserves_edge : (Schema.edge F).Preserves P := by
  have hdata : P (.obj [("condition", .null), ("priority", .null)]) :=
    hP.obj_cons.mpr ⟨hP.null, hP.obj_cons.mpr ⟨hP.null, hP.obj_nil⟩⟩
  exact hP.preserves_model hF ⟨⟨preserves_text hF, fun _ h => Option.some.inj h ▸ hP.str _⟩,
    ⟨preserves_text hF, fun _ h => by cases h⟩, ⟨preserves_text hF, fun _ h => by cases h⟩,
    ⟨preserves_nullable hF (preserves_text hF), fun _ h => Option.some.inj h ▸ hP.null⟩,
    ⟨hP.preserves_edgeData hF hfloat, fun _ h => Option.some.inj h ▸ hdata⟩⟩

/-- **A graph keeps when it is read what values have part by part.** -/
theorem preserves_graph : (Schema.graph F).Preserves P :=
  hP.preserves_model hF
    ⟨⟨hP.preserves_listOf hF (hP.preserves_node hF hfloat),
        fun _ h => Option.some.inj h ▸ hP.list.mpr nofun⟩,
      ⟨hP.preserves_listOf hF (hP.preserves_edge hF hfloat),
        fun _ h => Option.some.inj h ▸ hP.list.mpr nofun⟩⟩

end Models

end Value.Hereditary

end CallFlow
