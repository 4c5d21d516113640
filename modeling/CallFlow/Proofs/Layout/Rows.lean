import Mathlib.Algebra.Order.Field.Rat
import Mathlib.Data.List.Pairwise
import Mathlib.Tactic.Linarith
import Mathlib.Tactic.Ring
import CallFlow.Layout.Placement
import CallFlow.Proofs.Value.Outcome

/-!
# Rows of boxes

A layout computed in exact numbers keeps its distances. Boxes are put down in
rows, one row for each rank, and of any two of them one comes first
(`pairwise_centres`): within a row it ends before the other begins, across the
flow, and between rows it ends before the other along the flow, with the distance
between ranks behind it.

Two bounds carry the induction: what a row puts down lies at or behind where the
row started across the flow (`near_le_of_mem_placeRow`), and what the rows put
down lies at or behind where the first of them started along the flow
(`within_placeRows`). The second bound has a far side, too, and that one is needed
once the picture is turned over: it says that no box reaches beyond the extent
the picture is turned over in.
-/

namespace CallFlow

/-- Exact numbers a layout can be computed in. -/
instance : Coordinate ℚ where
  ofLength n := n
  half x := x / 2

namespace Placement

/-! ## Distances along and across a flow -/

/-- How far along the flow a point is. -/
def alongOf (flow : Flow) (p : Point ℚ) : ℚ := if flow.horizontal then p.x else p.y

/-- How far across the flow a point is. -/
def acrossOf (flow : Flow) (p : Point ℚ) : ℚ := if flow.horizontal then p.y else p.x

section Points

variable (flow : Flow)

@[simp] theorem alongOf_point (along across : ℚ) :
    alongOf flow (point flow along across) = along := by
  cases hflow : flow.horizontal <;> simp [alongOf, point, hflow]

@[simp] theorem acrossOf_point (along across : ℚ) :
    acrossOf flow (point flow along across) = across := by
  cases hflow : flow.horizontal <;> simp [acrossOf, point, hflow]

@[simp] theorem alongOf_turnOver (extent : ℚ) (p : Point ℚ) :
    alongOf flow (turnOver flow extent p) = extent - alongOf flow p := by
  cases hflow : flow.horizontal <;> simp [alongOf, turnOver, hflow]

@[simp] theorem acrossOf_turnOver (extent : ℚ) (p : Point ℚ) :
    acrossOf flow (turnOver flow extent p) = acrossOf flow p := by
  cases hflow : flow.horizontal <;> simp [acrossOf, turnOver, hflow]

end Points

/-- A box with its upper left corner on the canvas. -/
structure PlacedBox where
  /-- The size of the box. -/
  size : BoxSize
  /-- Its upper left corner. -/
  corner : Point ℚ

namespace PlacedBox

/-- Where a box begins along the flow. -/
def begins (flow : Flow) (box : PlacedBox) : ℚ := alongOf flow box.corner

/-- Where a box ends along the flow. -/
def ends (flow : Flow) (box : PlacedBox) : ℚ := alongOf flow box.corner + depth flow box.size

/-- Where a box begins across the flow. -/
def near (flow : Flow) (box : PlacedBox) : ℚ := acrossOf flow box.corner

/-- Where a box ends across the flow. -/
def far (flow : Flow) (box : PlacedBox) : ℚ := acrossOf flow box.corner + breadth flow box.size

/-- Whether a box lies beside another across the flow, and ends at least a
distance before it. -/
def Beside (flow : Flow) (distance : ℚ) (box other : PlacedBox) : Prop :=
  box.far flow + distance ≤ other.near flow

/-- Whether a box ends at least a distance before another along the axis of the
flow. -/
def Before (flow : Flow) (distance : ℚ) (box other : PlacedBox) : Prop :=
  box.ends flow + distance ≤ other.begins flow

/-- **Whether a box precedes another along the flow**, at least a distance
apart: on the axis it lies before the other, or behind it where the flow is
reversed. -/
def Precedes (flow : Flow) (distance : ℚ) (box other : PlacedBox) : Prop :=
  if flow.reversed then Before flow distance other box else Before flow distance box other

/-- Whether a box lies behind the margin, and along the flow between a start and
a stop. -/
structure Within (flow : Flow) (margin start stop : ℚ) (box : PlacedBox) : Prop where
  /-- Along the flow it does not begin before the start. -/
  start_le : start ≤ box.begins flow
  /-- Along the flow it does not end behind the stop. -/
  le_stop : box.ends flow ≤ stop
  /-- Across the flow it does not begin before the margin. -/
  margin_le : margin ≤ box.near flow

end PlacedBox

/-- The box of an id, drawn around a centre. -/
def boxAround (sizes : String → BoxSize) (c : String × Point ℚ) : PlacedBox :=
  ⟨sizes c.1, corner (sizes c.1) c.2⟩

section Around

variable (flow : Flow) (sizes : String → BoxSize) (c : String × Point ℚ)

theorem begins_boxAround :
    (boxAround sizes c).begins flow = alongOf flow c.2 - depth flow (sizes c.1) / 2 := by
  cases hflow : flow.horizontal <;>
    simp only [boxAround, PlacedBox.begins, alongOf, depth, corner, hflow] <;> rfl

theorem ends_boxAround :
    (boxAround sizes c).ends flow = alongOf flow c.2 + depth flow (sizes c.1) / 2 := by
  have h := begins_boxAround flow sizes c
  rw [PlacedBox.begins] at h
  rw [PlacedBox.ends, h, boxAround]
  ring

theorem near_boxAround :
    (boxAround sizes c).near flow = acrossOf flow c.2 - breadth flow (sizes c.1) / 2 := by
  cases hflow : flow.horizontal <;>
    simp only [boxAround, PlacedBox.near, acrossOf, breadth, corner, hflow] <;> rfl

theorem far_boxAround :
    (boxAround sizes c).far flow = acrossOf flow c.2 + breadth flow (sizes c.1) / 2 := by
  have h := near_boxAround flow sizes c
  rw [PlacedBox.near] at h
  rw [PlacedBox.far, h, boxAround]
  ring

theorem begins_turnOver (extent : ℚ) :
    (boxAround sizes (c.1, turnOver flow extent c.2)).begins flow
      = extent - (boxAround sizes c).ends flow := by
  rw [begins_boxAround, ends_boxAround, alongOf_turnOver]
  ring

theorem ends_turnOver (extent : ℚ) :
    (boxAround sizes (c.1, turnOver flow extent c.2)).ends flow
      = extent - (boxAround sizes c).begins flow := by
  rw [begins_boxAround, ends_boxAround, alongOf_turnOver]
  ring

theorem near_turnOver (extent : ℚ) :
    (boxAround sizes (c.1, turnOver flow extent c.2)).near flow
      = (boxAround sizes c).near flow := by
  rw [near_boxAround, near_boxAround, acrossOf_turnOver]

theorem far_turnOver (extent : ℚ) :
    (boxAround sizes (c.1, turnOver flow extent c.2)).far flow
      = (boxAround sizes c).far flow := by
  rw [far_boxAround, far_boxAround, acrossOf_turnOver]

end Around

/-! ## One row -/

section Row

variable {flow : Flow} {sizes : String → BoxSize} {spacing along across : ℚ} {deep : ℕ}
  {row : List (String × BoxSize)}

theorem placeRow_cons (id : String) (size : BoxSize) (rest : List (String × BoxSize)) :
    placeRow flow spacing along deep across ((id, size) :: rest)
      = (id, point flow (along + (deep : ℚ) / 2) (across + (breadth flow size : ℚ) / 2))
        :: placeRow flow spacing along deep (across + (breadth flow size + spacing)) rest := rfl

theorem map_fst_placeRow :
    (placeRow flow spacing along deep across row).map Prod.fst = row.map Prod.fst := by
  induction row generalizing across with
  | nil => rfl
  | cons box rest ih =>
    rw [placeRow_cons, List.map_cons, ih, List.map_cons]

/-- What a row puts down lies at or behind where it starts across the flow. -/
theorem near_le_of_mem_placeRow (hspacing : 0 ≤ spacing)
    (hsizes : ∀ box ∈ row, sizes box.1 = box.2) {c : String × Point ℚ}
    (hc : c ∈ placeRow flow spacing along deep across row) :
    across ≤ (boxAround sizes c).near flow := by
  induction row generalizing across with
  | nil => cases hc
  | cons box rest ih =>
    obtain ⟨id, size⟩ := box
    rw [placeRow_cons] at hc
    rcases List.mem_cons.mp hc with rfl | hc
    · have hsize : sizes id = size := hsizes (id, size) List.mem_cons_self
      rw [near_boxAround, acrossOf_point, hsize]
      linarith
    · have hrest := ih (fun box hbox => hsizes box (List.mem_cons_of_mem _ hbox)) hc
      have hbreadth : (0 : ℚ) ≤ breadth flow size := Nat.cast_nonneg _
      linarith

/-- What a row puts down are its boxes, each in the middle of its depth. -/
theorem exists_of_mem_placeRow {c : String × Point ℚ}
    (hc : c ∈ placeRow flow spacing along deep across row) :
    ∃ box ∈ row, c.1 = box.1 ∧ alongOf flow c.2 = along + (deep : ℚ) / 2 := by
  induction row generalizing across with
  | nil => cases hc
  | cons box rest ih =>
    rw [placeRow_cons] at hc
    rcases List.mem_cons.mp hc with rfl | hc
    · exact ⟨box, List.mem_cons_self, rfl, alongOf_point flow _ _⟩
    · obtain ⟨box', hbox', hboth⟩ := ih hc
      exact ⟨box', List.mem_cons_of_mem _ hbox', hboth⟩

/-- What a row puts down lies within its depth. -/
theorem within_placeRow (hspacing : 0 ≤ spacing) (hsizes : ∀ box ∈ row, sizes box.1 = box.2)
    (hdeep : ∀ box ∈ row, depth flow box.2 ≤ deep) {c : String × Point ℚ}
    (hc : c ∈ placeRow flow spacing along deep across row) :
    (boxAround sizes c).Within flow across along (along + deep) := by
  obtain ⟨box, hbox, hid, hmiddle⟩ := exists_of_mem_placeRow hc
  have hfits : (depth flow (sizes c.1) : ℚ) ≤ deep := by
    rw [hid, hsizes box hbox]
    exact Nat.cast_le.mpr (hdeep box hbox)
  refine ⟨?_, ?_, near_le_of_mem_placeRow hspacing hsizes hc⟩
  · rw [begins_boxAround, hmiddle]
    linarith
  · rw [ends_boxAround, hmiddle]
    linarith

/-- In a row each box lies beside those behind it. -/
theorem pairwise_placeRow (hspacing : 0 ≤ spacing) (hsizes : ∀ box ∈ row, sizes box.1 = box.2) :
    (placeRow flow spacing along deep across row).Pairwise fun c c' =>
      (boxAround sizes c).Beside flow spacing (boxAround sizes c') := by
  induction row generalizing across with
  | nil => exact .nil
  | cons box rest ih =>
    obtain ⟨id, size⟩ := box
    have hrest : ∀ box ∈ rest, sizes box.1 = box.2 :=
      fun box hbox => hsizes box (List.mem_cons_of_mem _ hbox)
    rw [placeRow_cons]
    refine .cons (fun c hc => ?_) (ih hrest)
    have hsize : sizes id = size := hsizes (id, size) List.mem_cons_self
    have hnear := near_le_of_mem_placeRow hspacing hrest hc
    rw [PlacedBox.Beside, far_boxAround, acrossOf_point, hsize]
    linarith

theorem depth_le_rowDepth {box : String × BoxSize} (hbox : box ∈ row) :
    depth flow box.2 ≤ rowDepth flow row := by
  refine Nat.le_of_not_lt fun hlt => Nat.lt_irrefl (rowDepth flow row) ?_
  exact (lt_foldl_max_iff (fun box => depth flow box.2) row 0 _).mpr (.inr ⟨box, hbox, hlt⟩)

end Row

/-! ## Row after row -/

/-- Whether rows hold boxes by rank: those of a row on one rank, and the ranks of
later rows behind it. -/
structure ByRank (rank : String → ℕ) (rows : List (List (String × BoxSize))) : Prop where
  /-- A row is of one rank. -/
  same : ∀ row ∈ rows, ∀ box ∈ row, ∀ other ∈ row, rank box.1 = rank other.1
  /-- Later rows are of later ranks. -/
  later : rows.Pairwise fun row row' => ∀ box ∈ row, ∀ other ∈ row', rank box.1 < rank other.1

/-- **Whether a box comes before another in a layout**: on one rank it lies beside
the other, and on an earlier one before it in the given sense. -/
def InTurn (flow : Flow) (spacing : Spacing ℚ) (rank : String → ℕ) (sizes : String → BoxSize)
    (before : PlacedBox → PlacedBox → Prop) (c c' : String × Point ℚ) : Prop :=
  (rank c.1 = rank c'.1 ∧ (boxAround sizes c).Beside flow spacing.node (boxAround sizes c'))
    ∨ (rank c.1 < rank c'.1 ∧ before (boxAround sizes c) (boxAround sizes c'))

section Rows

variable {flow : Flow} {spacing : Spacing ℚ} {sizes : String → BoxSize} {rank : String → ℕ}
  {along : ℚ} {rows : List (List (String × BoxSize))}

/-- A row with boxes is put down, and the others a distance behind its depth. -/
theorem placeRows_cons (box : String × BoxSize) (row : List (String × BoxSize))
    (rest : List (List (String × BoxSize))) :
    placeRows flow spacing along ((box :: row) :: rest)
      = (placeRow flow spacing.node along (rowDepth flow (box :: row)) spacing.margin (box :: row)
          ++ (placeRows flow spacing
            (along + ((rowDepth flow (box :: row) : ℚ) + spacing.rank)) rest).1,
        (placeRows flow spacing
          (along + ((rowDepth flow (box :: row) : ℚ) + spacing.rank)) rest).2) := rfl

/-- The rows put down all their boxes, in order. -/
theorem map_fst_placeRows (flow : Flow) (spacing : Spacing ℚ) (along : ℚ)
    (rows : List (List (String × BoxSize))) :
    (placeRows flow spacing along rows).1.map Prod.fst = rows.flatten.map Prod.fst := by
  induction rows generalizing along with
  | nil => rfl
  | cons row rest ih =>
    cases row with
    | nil => exact ih along
    | cons box row =>
      rw [placeRows_cons, List.map_append, map_fst_placeRow, ih, List.flatten_cons,
        List.map_append]

/-- The rows end where they start, or behind it. -/
theorem le_snd_placeRows (hrank : 0 ≤ spacing.rank) (flow : Flow) (along : ℚ)
    (rows : List (List (String × BoxSize))) :
    along ≤ (placeRows flow spacing along rows).2 := by
  induction rows generalizing along with
  | nil => exact le_refl along
  | cons row rest ih =>
    cases row with
    | nil => exact ih along
    | cons box row =>
      have hrest := ih (along + ((rowDepth flow (box :: row) : ℚ) + spacing.rank))
      have hdepth : (0 : ℚ) ≤ rowDepth flow (box :: row) := Nat.cast_nonneg _
      rw [placeRows_cons]
      linarith

/-- **What the rows put down lies between where they start and a distance before
where they end.** -/
theorem within_placeRows (hrank : 0 ≤ spacing.rank) (hnode : 0 ≤ spacing.node)
    (hsizes : ∀ row ∈ rows, ∀ box ∈ row, sizes box.1 = box.2) {c : String × Point ℚ}
    (hc : c ∈ (placeRows flow spacing along rows).1) :
    (boxAround sizes c).Within flow spacing.margin along
      ((placeRows flow spacing along rows).2 - spacing.rank) := by
  induction rows generalizing along with
  | nil => cases hc
  | cons row rest ih =>
    obtain ⟨hrow, hrest⟩ := List.forall_mem_cons.mp hsizes
    cases row with
    | nil => exact ih hrest hc
    | cons box row =>
      have hdepth : (0 : ℚ) ≤ rowDepth flow (box :: row) := Nat.cast_nonneg _
      rw [placeRows_cons] at hc ⊢
      rcases List.mem_append.mp hc with hc | hc
      · have hin := within_placeRow hnode hrow (fun _ => depth_le_rowDepth) hc
        have hend := le_snd_placeRows hrank flow
          (along + ((rowDepth flow (box :: row) : ℚ) + spacing.rank)) rest
        exact ⟨hin.start_le, by linarith [hin.le_stop], hin.margin_le⟩
      · have hin := ih hrest hc
        exact ⟨by linarith [hin.start_le], hin.le_stop, hin.margin_le⟩

/-- **Of two boxes in rows one comes before the other.** -/
theorem pairwise_placeRows (flow : Flow) (along : ℚ) (hrank : 0 ≤ spacing.rank)
    (hnode : 0 ≤ spacing.node) (hrows : ByRank rank rows)
    (hsizes : ∀ row ∈ rows, ∀ box ∈ row, sizes box.1 = box.2) :
    (placeRows flow spacing along rows).1.Pairwise
      (InTurn flow spacing rank sizes (PlacedBox.Before flow spacing.rank)) := by
  induction rows generalizing along with
  | nil => exact .nil
  | cons row rest ih =>
    obtain ⟨hsame, hsames⟩ := List.forall_mem_cons.mp hrows.same
    obtain ⟨hlater, hlaters⟩ := List.pairwise_cons.mp hrows.later
    obtain ⟨hrow, hrest⟩ := List.forall_mem_cons.mp hsizes
    cases row with
    | nil => exact ih along ⟨hsames, hlaters⟩ hrest
    | cons box row =>
      rw [placeRows_cons]
      refine List.pairwise_append.mpr ⟨?_, ih _ ⟨hsames, hlaters⟩ hrest, ?_⟩
      · refine (pairwise_placeRow hnode hrow).imp_of_mem fun {c c'} hc hc' hbeside =>
          .inl ⟨?_, hbeside⟩
        obtain ⟨_, hbox, hid, _⟩ := exists_of_mem_placeRow hc
        obtain ⟨_, hbox', hid', _⟩ := exists_of_mem_placeRow hc'
        rw [hid, hid']
        exact hsame _ hbox _ hbox'
      · -- the first row ends within its depth, and the others start a distance behind
        intro c hc c' hc'
        have hin := within_placeRow hnode hrow (fun _ => depth_le_rowDepth) hc
        have hin' := within_placeRows hrank hnode hrest hc'
        obtain ⟨_, hbox, hid, _⟩ := exists_of_mem_placeRow hc
        obtain ⟨box', hbox', hid'⟩ : ∃ box' ∈ rest.flatten, box'.1 = c'.1 := by
          have hmem := List.mem_map_of_mem (f := Prod.fst) hc'
          rw [map_fst_placeRows] at hmem
          exact List.mem_map.mp hmem
        obtain ⟨row', hrow', hmem'⟩ := List.mem_flatten.mp hbox'
        refine .inr ⟨?_, ?_⟩
        · rw [hid, ← hid']
          exact hlater row' hrow' _ hbox _ hmem'
        · rw [PlacedBox.Before]
          linarith [hin.le_stop, hin'.start_le]

end Rows

/-! ## The whole picture -/

section Centres

variable {flow : Flow} {spacing : Spacing ℚ} {sizes : String → BoxSize} {rank : String → ℕ}
  {rows : List (List (String × BoxSize))}

theorem centres_of_forward (hforward : flow.reversed = false) :
    centres flow spacing rows = (placeRows flow spacing spacing.margin rows).1 := by
  simp [centres, hforward]

theorem centres_of_reversed (hreversed : flow.reversed = true) :
    centres flow spacing rows
      = (placeRows flow spacing spacing.margin rows).1.map fun c => (c.1,
        turnOver flow ((placeRows flow spacing spacing.margin rows).2 - spacing.rank
          + spacing.margin) c.2) := by
  simp only [centres, hreversed, if_true]

/-- The picture shows every box. -/
theorem map_fst_centres (flow : Flow) (spacing : Spacing ℚ)
    (rows : List (List (String × BoxSize))) :
    (centres flow spacing rows).map Prod.fst = rows.flatten.map Prod.fst := by
  cases hflow : flow.reversed with
  | false => rw [centres_of_forward hflow, map_fst_placeRows]
  | true =>
    rw [centres_of_reversed hflow, List.map_map]
    exact map_fst_placeRows flow spacing spacing.margin rows

/-- **No box of the picture lies over the margin.** -/
theorem margin_le_of_mem_centres (hrank : 0 ≤ spacing.rank) (hnode : 0 ≤ spacing.node)
    (hsizes : ∀ row ∈ rows, ∀ box ∈ row, sizes box.1 = box.2) {c : String × Point ℚ}
    (hc : c ∈ centres flow spacing rows) :
    spacing.margin ≤ (boxAround sizes c).begins flow
      ∧ spacing.margin ≤ (boxAround sizes c).near flow := by
  cases hflow : flow.reversed with
  | false =>
    rw [centres_of_forward hflow] at hc
    have hin := within_placeRows hrank hnode hsizes hc
    exact ⟨hin.start_le, hin.margin_le⟩
  | true =>
    rw [centres_of_reversed hflow] at hc
    obtain ⟨c', hc', rfl⟩ := List.mem_map.mp hc
    have hin := within_placeRows hrank hnode hsizes hc'
    refine ⟨?_, ?_⟩
    · rw [begins_turnOver]
      linarith [hin.le_stop]
    · rw [near_turnOver]
      exact hin.margin_le

/-- **Of two boxes of the picture one comes before the other**, against the flow
where it is reversed. -/
theorem pairwise_centres (hrank : 0 ≤ spacing.rank) (hnode : 0 ≤ spacing.node)
    (hrows : ByRank rank rows) (hsizes : ∀ row ∈ rows, ∀ box ∈ row, sizes box.1 = box.2) :
    (centres flow spacing rows).Pairwise
      (InTurn flow spacing rank sizes (PlacedBox.Precedes flow spacing.rank)) := by
  have hplaced := pairwise_placeRows flow spacing.margin hrank hnode hrows hsizes
  cases hflow : flow.reversed with
  | false =>
    rw [centres_of_forward hflow]
    refine hplaced.imp fun {c c'} => Or.imp_right (And.imp_right fun hbefore => ?_)
    rwa [PlacedBox.Precedes, hflow]
  | true =>
    rw [centres_of_reversed hflow, List.pairwise_map]
    refine hplaced.imp fun {c c'} => Or.imp (And.imp_right fun hbeside => ?_)
      (And.imp_right fun hbefore => ?_)
    · rwa [PlacedBox.Beside, far_turnOver, near_turnOver]
    · rw [PlacedBox.Before] at hbefore
      rw [PlacedBox.Precedes, hflow, if_pos rfl, PlacedBox.Before, ends_turnOver, begins_turnOver]
      linarith

/-- Of two boxes of the picture with different ids one comes before the other. -/
theorem inTurn_of_mem_centres (hrank : 0 ≤ spacing.rank) (hnode : 0 ≤ spacing.node)
    (hrows : ByRank rank rows) (hsizes : ∀ row ∈ rows, ∀ box ∈ row, sizes box.1 = box.2)
    {c c' : String × Point ℚ} (hc : c ∈ centres flow spacing rows)
    (hc' : c' ∈ centres flow spacing rows) (hne : c.1 ≠ c'.1) :
    InTurn flow spacing rank sizes (PlacedBox.Precedes flow spacing.rank) c c'
      ∨ InTurn flow spacing rank sizes (PlacedBox.Precedes flow spacing.rank) c' c := by
  let R := InTurn flow spacing rank sizes (PlacedBox.Precedes flow spacing.rank)
  have : Std.Symm fun a b => R a b ∨ R b a := ⟨fun _ _ => Or.symm⟩
  have hpairs : (centres flow spacing rows).Pairwise fun a b => R a b ∨ R b a :=
    (pairwise_centres hrank hnode hrows hsizes).imp Or.inl
  exact hpairs.forall hc hc' fun heq => hne (congrArg Prod.fst heq)

end Centres

end Placement

end CallFlow
