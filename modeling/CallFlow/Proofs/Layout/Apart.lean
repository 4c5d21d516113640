import Mathlib.Order.CompletePartialOrder
import Mathlib.Order.Interval.Set.Basic
import Mathlib.Data.Set.Prod
import CallFlow.Config.Loading
import CallFlow.Layout.Arrange
import CallFlow.Proofs.Layout.Ranking
import CallFlow.Proofs.Layout.Rows
import CallFlow.Proofs.Value.Fields

/-!
# Boxes do not overlap

The layout by ranks draws every node once, and no box over another
(`layeredIn_apart`). Computed in exact numbers, boxes of one rank keep the
distance between nodes across the flow, boxes of different ranks the distance
between ranks along it, and all keep the margin.

What the rows keep is known of the boxes put down. That every node is put down,
and once, is a matter of the ranks: every id has one, and none is at or behind
the next rank, so every box is in exactly one row. Ids that differ are what is
asked of the nodes for this; nodes that share an id share a place.
-/

namespace CallFlow

namespace Placement

/-! ## Boxes with a distance between them -/

/-- What a box covers of the canvas, without its edge. -/
def PlacedBox.interior (box : PlacedBox) : Set (ℚ × ℚ) :=
  Set.Ioo box.corner.x (box.corner.x + box.size.width)
    ×ˢ Set.Ioo box.corner.y (box.corner.y + box.size.height)

namespace PlacedBox

variable {flow : Flow} {distance : ℚ} {box other : PlacedBox}

/-- What a box covers lies between where it begins and where it ends, along the
flow and across it. -/
theorem mem_interior_iff (flow : Flow) {p : ℚ × ℚ} :
    p ∈ box.interior ↔
      (box.begins flow < alongOf flow ⟨p.1, p.2⟩ ∧ alongOf flow ⟨p.1, p.2⟩ < box.ends flow)
        ∧ box.near flow < acrossOf flow ⟨p.1, p.2⟩ ∧ acrossOf flow ⟨p.1, p.2⟩ < box.far flow := by
  rw [interior, Set.mem_prod, Set.mem_Ioo, Set.mem_Ioo]
  cases hflow : flow.horizontal
  · simp only [begins, ends, near, far, alongOf, acrossOf, depth, breadth, hflow]
    exact and_comm
  · simp only [begins, ends, near, far, alongOf, acrossOf, depth, breadth, hflow]
    exact Iff.rfl

/-- A box that begins behind the margin along the flow and across it lies behind
the margin. -/
theorem margin_le_corner {margin : ℚ} (hbegins : margin ≤ box.begins flow)
    (hnear : margin ≤ box.near flow) : margin ≤ box.corner.x ∧ margin ≤ box.corner.y := by
  rw [begins, alongOf] at hbegins
  rw [near, acrossOf] at hnear
  split at hbegins
  next hflow =>
    rw [if_pos hflow] at hnear
    exact ⟨hbegins, hnear⟩
  next hflow =>
    rw [if_neg hflow] at hnear
    exact ⟨hnear, hbegins⟩

theorem Beside.disjoint (h : Beside flow distance box other) (hdistance : 0 ≤ distance) :
    Disjoint box.interior other.interior := by
  refine Set.disjoint_left.mpr fun p hp hp' => ?_
  obtain ⟨_, _, hfar⟩ := (mem_interior_iff flow).mp hp
  obtain ⟨_, hnear, _⟩ := (mem_interior_iff flow).mp hp'
  rw [Beside] at h
  linarith

theorem Before.disjoint (h : Before flow distance box other) (hdistance : 0 ≤ distance) :
    Disjoint box.interior other.interior := by
  refine Set.disjoint_left.mpr fun p hp hp' => ?_
  obtain ⟨⟨_, hends⟩, _⟩ := (mem_interior_iff flow).mp hp
  obtain ⟨⟨hbegins, _⟩, _⟩ := (mem_interior_iff flow).mp hp'
  rw [Before] at h
  linarith

theorem Precedes.disjoint (h : Precedes flow distance box other) (hdistance : 0 ≤ distance) :
    Disjoint box.interior other.interior := by
  rw [Precedes] at h
  split at h
  next => exact (Before.disjoint h hdistance).symm
  next => exact h.disjoint hdistance

end PlacedBox

/-! ## Every box is in one row -/

section Rows

variable {ranks : List (String × ℕ)} {boxes : List (String × BoxSize)}

theorem mem_flatten_rows {box : String × BoxSize} :
    box ∈ (rows ranks boxes).flatten
      ↔ box ∈ boxes ∧ Rank.of ranks box.1 < Rank.nextRank ranks := by
  simp [rows, List.mem_flatten, and_comm]

/-- The rows hold the boxes by rank. -/
theorem byRank_rows : ByRank (Rank.of ranks) (rows ranks boxes) := by
  have hrow : ∀ {r box}, box ∈ boxes.filter (fun box => Rank.of ranks box.1 = r) →
      Rank.of ranks box.1 = r := fun hbox => by simpa using (List.mem_filter.mp hbox).2
  constructor
  · intro row hmem box hbox other hother
    obtain ⟨r, _, rfl⟩ := List.mem_map.mp hmem
    rw [hrow hbox, hrow hother]
  · refine List.pairwise_map.mpr (List.pairwise_lt_range.imp fun {r r'} hlt => ?_)
    intro box hbox other hother
    rwa [hrow hbox, hrow hother]

/-- Boxes with different ids are in rows with different ids. -/
theorem nodup_rows (hids : (boxes.map Prod.fst).Nodup) :
    ((rows ranks boxes).flatten.map Prod.fst).Nodup := by
  have hbyRank : ByRank (Rank.of ranks) (rows ranks boxes) := byRank_rows
  rw [List.map_flatten, List.nodup_flatten]
  constructor
  · intro ids hmem
    obtain ⟨row, hrow, rfl⟩ := List.mem_map.mp hmem
    obtain ⟨r, _, rfl⟩ := List.mem_map.mp hrow
    exact hids.sublist (List.filter_sublist.map _)
  · refine List.pairwise_map.mpr (hbyRank.later.imp fun {row row'} hlater => ?_)
    intro id hid hid'
    obtain ⟨box, hbox, rfl⟩ := List.mem_map.mp hid
    obtain ⟨other, hother, heq⟩ := List.mem_map.mp hid'
    have hlt := hlater box hbox other hother
    rw [heq] at hlt
    exact Nat.lt_irrefl _ hlt

end Rows

/-! ## Every box has a corner -/

/-- The ranks of some ids, by the edges among them. -/
def ranksAmong (search : Rank.Search) (ids : List String) (edges : List (String × String)) :
    List (String × ℕ) :=
  Rank.assign search ids (edgesAmong ids edges)

/-- No id is of a rank that is not in use. -/
theorem of_ranksAmong_lt {search : Rank.Search} (hsearch : search.FindsDistances)
    {ids : List String} {edges : List (String × String)} {id : String} (hid : id ∈ ids) :
    Rank.of (ranksAmong search ids edges) id < Rank.nextRank (ranksAmong search ids edges) := by
  have hedges : ∀ e ∈ edgesAmong ids edges, e.1 ∈ ids ∧ e.2 ∈ ids := by
    intro e he
    simpa using (List.mem_filter.mp he).2
  exact (Rank.ranked_assign hsearch hedges).of_lt_nextRank
    ((Rank.reachedFrom_ids_iff hedges).mpr hid)

section Corners

variable {search : Rank.Search} {flow : Flow} {spacing : Spacing ℚ}
  {boxes : List (String × BoxSize)}

/-- The rows boxes are put down in. -/
def rowsAmong (search : Rank.Search) (boxes : List (String × BoxSize))
    (edges : List (String × String)) : List (List (String × BoxSize)) :=
  rows (ranksAmong search (boxes.map Prod.fst) edges) boxes

theorem mem_flatten_rowsAmong (hsearch : search.FindsDistances) (edges : List (String × String))
    {box : String × BoxSize} : box ∈ (rowsAmong search boxes edges).flatten ↔ box ∈ boxes := by
  rw [rowsAmong, mem_flatten_rows, and_iff_left_iff_imp]
  exact fun hbox => of_ranksAmong_lt hsearch (List.mem_map_of_mem hbox)

theorem map_lookup_reverse (hids : (boxes.map Prod.fst).Nodup) :
    boxes.map (fun box => (box.1, (boxes.reverse.lookup box.1).getD box.2)) = boxes := by
  have hnodup : (boxes.reverse.map Prod.fst).Nodup := by
    rwa [List.map_reverse, List.nodup_reverse]
  refine (List.map_congr_left fun box hbox => ?_).trans (List.map_id _)
  rw [(lookup_eq_some_iff hnodup).mpr (List.mem_reverse.mpr hbox)]
  rfl

/-- Boxes with different ids are found in the picture by their ids. -/
theorem exists_lookup_eq (hsearch : search.FindsDistances) (hids : (boxes.map Prod.fst).Nodup)
    (flow : Flow) (spacing : Spacing ℚ) (edges : List (String × String)) :
    ∃ place : String → Point ℚ, ∀ box ∈ boxes,
      (box.1, place box.1) ∈ centres flow spacing (rowsAmong search boxes edges)
      ∧ (centres flow spacing (rowsAmong search boxes edges)).reverse.lookup box.1
        = some (place box.1) := by
  generalize hfound : centres flow spacing (rowsAmong search boxes edges) = found
  have hkeys : found.map Prod.fst = (rowsAmong search boxes edges).flatten.map Prod.fst := by
    rw [← hfound, map_fst_centres]
  have hnodup : (found.reverse.map Prod.fst).Nodup := by
    rw [List.map_reverse, List.nodup_reverse, hkeys]
    exact nodup_rows hids
  refine ⟨fun id => (found.reverse.lookup id).getD ⟨0, 0⟩, fun box hbox => ?_⟩
  have hkey : box.1 ∈ found.map Prod.fst := by
    rw [hkeys]
    exact List.mem_map_of_mem ((mem_flatten_rowsAmong hsearch edges).mpr hbox)
  obtain ⟨⟨_, p⟩, hp, rfl⟩ := List.mem_map.mp hkey
  have hlookup := (lookup_eq_some_iff hnodup).mpr (List.mem_reverse.mpr hp)
  exact ⟨by simpa only [hlookup, Option.getD_some] using hp,
    by simp only [hlookup, Option.getD_some]⟩

/-- **Boxes with different ids are drawn around the centres of the picture**, each
of its own size. -/
theorem exists_corners_eq (hsearch : search.FindsDistances) (hids : (boxes.map Prod.fst).Nodup)
    (flow : Flow) (spacing : Spacing ℚ) (edges : List (String × String)) :
    ∃ place : String → Point ℚ,
      (∀ box ∈ boxes, (box.1, place box.1) ∈ centres flow spacing (rowsAmong search boxes edges))
      ∧ corners search flow spacing boxes edges
        = boxes.map fun box => some (corner box.2 (place box.1)) := by
  obtain ⟨place, hplace⟩ := exists_lookup_eq hsearch hids flow spacing edges
  refine ⟨place, fun box hbox => (hplace box hbox).1, ?_⟩
  rw [corners, map_lookup_reverse hids]
  exact List.map_congr_left fun box hbox => congrArg (Option.map _) (hplace box hbox).2

end Corners

end Placement

/-! ## Nodes that can be drawn -/

/-- Whether a node can be drawn: the kind of its box is a text, and its data are an
object that lists its transitions or has none. -/
structure IsDrawable (node : Fields) : Prop where
  /-- The kind of the box is a text. -/
  kind : (Fields.get node "type").isText = true
  /-- The data list the transitions, if they have any. -/
  data : ∃ data, Fields.get node "data" = .obj data ∧ (Fields.get? data "transitions" = none
    ∨ ∃ items, Fields.get? data "transitions" = some (.list items))

/-- The size a node is drawn in, by the kind of its box and the number of its
transitions. -/
def sizeOfNode (node : Fields) : BoxSize :=
  BoxSize.ofBox (Fields.get node "type").text
    (transitionItems (Fields.get node "data").fieldsOrNone).length

/-- A node that can be drawn has a size. -/
theorem ofValues_eq_sizeOfNode {node : Fields} (h : IsDrawable node) :
    BoxSize.ofValues (Fields.get node "type") (Fields.get node "data")
      = .ok (sizeOfNode node) := by
  obtain ⟨box, hbox⟩ := Value.eq_str_of_isText h.kind
  obtain ⟨data, hdata, htransitions⟩ := h.data
  have hobject : ((Value.obj data).orElse (.obj [])).object = .ok data := by
    cases data <;> rfl
  have hitems : (Fields.get data "transitions").elementsOrNone
      = .ok (transitionItems data) := by
    rcases htransitions with hnone | ⟨items, hsome⟩
    · rw [transitionItems, Fields.get, hnone]
      rfl
    · rw [transitionItems, Fields.get, hsome]
      cases items <;> rfl
  simp only [sizeOfNode, BoxSize.ofValues, hbox, hdata, hobject, hitems, Outcome.ok_bind]
  rfl

/-- A node where it is drawn. -/
structure DrawnNode where
  /-- The node. -/
  node : Fields
  /-- Its box. -/
  box : Placement.PlacedBox

/-- The rank of a node among nodes and edges. -/
def rankAmong (search : Rank.Search) (nodes edges : List Fields) (node : Fields) : ℕ :=
  Rank.of (Placement.ranksAmong search (nodes.map idOf) (edges.map endsOf)) (idOf node)

/-- **Whether drawn nodes keep their distances**: the margin, and each two of them
the distance of nodes across the flow or that of ranks along it. -/
structure KeepsDistances (flow : Flow) (spacing : Spacing ℚ) (rank : Fields → ℕ)
    (drawn : List DrawnNode) : Prop where
  /-- No node lies over the margin. -/
  margin : ∀ d ∈ drawn, spacing.margin ≤ d.box.corner.x ∧ spacing.margin ≤ d.box.corner.y
  /-- No node overlaps another. -/
  disjoint : ∀ d ∈ drawn, ∀ d' ∈ drawn, idOf d.node ≠ idOf d'.node →
    Disjoint d.box.interior d'.box.interior
  /-- Of two nodes of a rank one lies beside the other. -/
  beside : ∀ d ∈ drawn, ∀ d' ∈ drawn, idOf d.node ≠ idOf d'.node → rank d.node = rank d'.node →
    d.box.Beside flow spacing.node d'.box ∨ d'.box.Beside flow spacing.node d.box
  /-- A node of a lower rank precedes one of a higher rank. -/
  precedes : ∀ d ∈ drawn, ∀ d' ∈ drawn, rank d.node < rank d'.node →
    d.box.Precedes flow spacing.rank d'.box

/-! ## The boxes of nodes -/

/-- The boxes of nodes, by their ids. -/
def boxesOf (nodes : List Fields) : List (String × BoxSize) :=
  nodes.map fun node => (idOf node, sizeOfNode node)

theorem map_fst_boxesOf (nodes : List Fields) : (boxesOf nodes).map Prod.fst = nodes.map idOf := by
  rw [boxesOf, List.map_map]
  rfl

/-- The size of the box of an id. -/
def sizesOf (nodes : List Fields) (id : String) : BoxSize :=
  ((boxesOf nodes).lookup id).getD ⟨0, 0⟩

/-- A node drawn around a centre. -/
def drawnAround (place : String → Point ℚ) (node : Fields) : DrawnNode :=
  ⟨node, sizeOfNode node, Placement.corner (sizeOfNode node) (place (idOf node))⟩

section Drawn

variable {search : Rank.Search} {flow : Flow} {spacing : Spacing ℚ} {nodes edges : List Fields}
  (hids : (nodes.map idOf).Nodup)

include hids

theorem sizesOf_eq {box : String × BoxSize} (hbox : box ∈ boxesOf nodes) :
    sizesOf nodes box.1 = box.2 := by
  have hnodup : ((boxesOf nodes).map Prod.fst).Nodup := by rwa [map_fst_boxesOf]
  rw [sizesOf, (lookup_eq_some_iff hnodup).mpr hbox, Option.getD_some]

theorem box_drawnAround (place : String → Point ℚ) {node : Fields} (hnode : node ∈ nodes) :
    (drawnAround place node).box
      = Placement.boxAround (sizesOf nodes) (idOf node, place (idOf node)) := by
  have hbox : (idOf node, sizeOfNode node) ∈ boxesOf nodes := List.mem_map_of_mem hnode
  rw [Placement.boxAround, sizesOf_eq hids hbox]
  rfl

variable (hsearch : search.FindsDistances) (hrank : 0 ≤ spacing.rank) (hnode : 0 ≤ spacing.node)
  {place : String → Point ℚ}
  (hplace : ∀ box ∈ boxesOf nodes, (box.1, place box.1) ∈ Placement.centres flow spacing
    (Placement.rowsAmong search (boxesOf nodes) (edges.map endsOf)))

include hsearch

theorem sizesOf_eq_of_mem_rowsAmong (edges : List (String × String)) :
    ∀ row ∈ Placement.rowsAmong search (boxesOf nodes) edges, ∀ box ∈ row,
      sizesOf nodes box.1 = box.2 := by
  intro row hrow box hbox
  exact sizesOf_eq hids ((Placement.mem_flatten_rowsAmong hsearch edges).mp
    (List.mem_flatten.mpr ⟨row, hrow, hbox⟩))

include hrank hnode hplace

theorem margin_le_drawnAround {node : Fields} (hmem : node ∈ nodes) :
    spacing.margin ≤ (drawnAround place node).box.corner.x
      ∧ spacing.margin ≤ (drawnAround place node).box.corner.y := by
  obtain ⟨hbegins, hnear⟩ := Placement.margin_le_of_mem_centres hrank hnode
    (sizesOf_eq_of_mem_rowsAmong hids hsearch _) (hplace _ (List.mem_map_of_mem hmem))
  rw [box_drawnAround hids place hmem]
  exact Placement.PlacedBox.margin_le_corner hbegins hnear

/-- **Two nodes drawn around centres of the picture** are of one rank and lie
beside each other, or one is of a lower rank and precedes the other. -/
theorem apart_drawnAround {node node' : Fields} (hmem : node ∈ nodes) (hmem' : node' ∈ nodes)
    (hne : idOf node ≠ idOf node') :
    (rankAmong search nodes edges node = rankAmong search nodes edges node'
        ∧ ((drawnAround place node).box.Beside flow spacing.node (drawnAround place node').box
          ∨ (drawnAround place node').box.Beside flow spacing.node (drawnAround place node).box))
      ∨ (rankAmong search nodes edges node < rankAmong search nodes edges node'
        ∧ (drawnAround place node).box.Precedes flow spacing.rank (drawnAround place node').box)
      ∨ (rankAmong search nodes edges node' < rankAmong search nodes edges node
        ∧ (drawnAround place node').box.Precedes flow spacing.rank
          (drawnAround place node).box) := by
  have hrows : Placement.ByRank
      (Rank.of (Placement.ranksAmong search (nodes.map idOf) (edges.map endsOf)))
      (Placement.rowsAmong search (boxesOf nodes) (edges.map endsOf)) := by
    rw [← map_fst_boxesOf]
    exact Placement.byRank_rows
  rw [box_drawnAround hids place hmem, box_drawnAround hids place hmem']
  rcases Placement.inTurn_of_mem_centres hrank hnode hrows
    (sizesOf_eq_of_mem_rowsAmong hids hsearch _) (hplace _ (List.mem_map_of_mem hmem))
    (hplace _ (List.mem_map_of_mem hmem')) hne with (⟨hsame, h⟩ | h) | (⟨hsame, h⟩ | h)
  · exact .inl ⟨hsame, .inl h⟩
  · exact .inr (.inl h)
  · exact .inl ⟨hsame.symm, .inr h⟩
  · exact .inr (.inr h)

/-- **Nodes drawn around centres of the picture keep their distances.** -/
theorem keepsDistances_drawnAround :
    KeepsDistances flow spacing (rankAmong search nodes edges)
      (nodes.map (drawnAround place)) := by
  have hapart := fun {node node'} (hmem : node ∈ nodes) (hmem' : node' ∈ nodes) =>
    apart_drawnAround hids hsearch hrank hnode hplace hmem hmem'
  constructor
  · intro d hd
    obtain ⟨node, hmem, rfl⟩ := List.mem_map.mp hd
    exact margin_le_drawnAround hids hsearch hrank hnode hplace hmem
  · intro d hd d' hd' hne
    obtain ⟨node, hmem, rfl⟩ := List.mem_map.mp hd
    obtain ⟨node', hmem', rfl⟩ := List.mem_map.mp hd'
    rcases hapart hmem hmem' hne with ⟨_, h | h⟩ | ⟨_, h⟩ | ⟨_, h⟩
    · exact h.disjoint hnode
    · exact (h.disjoint hnode).symm
    · exact h.disjoint hrank
    · exact (h.disjoint hrank).symm
  · intro d hd d' hd' hne hsame
    obtain ⟨node, hmem, rfl⟩ := List.mem_map.mp hd
    obtain ⟨node', hmem', rfl⟩ := List.mem_map.mp hd'
    rcases hapart hmem hmem' hne with ⟨_, h⟩ | ⟨hlt, _⟩ | ⟨hlt, _⟩
    · exact h
    · exact absurd hsame (Nat.ne_of_lt hlt)
    · exact absurd hsame (Nat.ne_of_gt hlt)
  · intro d hd d' hd' hlower
    obtain ⟨node, hmem, rfl⟩ := List.mem_map.mp hd
    obtain ⟨node', hmem', rfl⟩ := List.mem_map.mp hd'
    have hne : idOf node ≠ idOf node' := by
      intro heq
      rw [rankAmong, rankAmong, drawnAround, drawnAround, heq] at hlower
      exact Nat.lt_irrefl _ hlower
    rcases hapart hmem hmem' hne with ⟨hsame, _⟩ | ⟨_, h⟩ | ⟨hlt, _⟩
    · exact absurd hsame (Nat.ne_of_lt hlower)
    · exact h
    · exact absurd hlt (Nat.lt_asymm hlower)

end Drawn

section Layered

variable {search : Rank.Search} {flow : Flow} {spacing : Spacing ℚ} {nodes edges : List Fields}

/-- Nodes that can be drawn are each moved to the corner of their box. -/
theorem layeredIn_eq (hnodes : ∀ node ∈ nodes, IsDrawable node) (search : Rank.Search)
    (write : Point ℚ → Value) (flow : Flow) (spacing : Spacing ℚ) (edges : List Fields) :
    layeredIn search write (.ok flow) (.ok spacing) (.list (nodes.map Value.obj))
        (.list (edges.map Value.obj))
      = .ok (moveAll write nodes (Placement.corners search flow spacing (boxesOf nodes)
        (edges.map endsOf))) := by
  have hboxes : nodes.mapM boxOfNode = .ok (boxesOf nodes) := by
    rw [Outcome.mapM_eq_ok, boxesOf, List.forall₂_map_right_iff, List.forall₂_same]
    intro node hnode
    rw [boxOfNode, ofValues_eq_sizeOfNode (hnodes node hnode)]
    rfl
  cases nodes with
  | nil => rfl
  | cons node rest =>
    rw [layeredIn, if_neg (by simp [Value.truthy])]
    simp only [Value.elements, Outcome.ok_bind, objects_map_obj, hboxes]
    rfl

theorem moveAll_eq (write : Point ℚ → Value) (corner : Fields → Point ℚ) (nodes : List Fields) :
    moveAll write nodes (nodes.map fun node => some (corner node))
      = nodes.map fun node => moveTo node (write (corner node)) := by
  rw [moveAll, ← List.map_prod_left_eq_zip, List.map_map]
  rfl

/-- **An automatic layout draws no node over another.** The directions are the
four there are, the distances exact numbers, those between nodes and between
ranks not negative, and the distances of the ranks are those of any search that
finds them. Nodes with different ids that can be drawn are each moved, and not
changed otherwise; drawn in the size of its kind and its transitions, each keeps
the margin and its distance from all others. -/
theorem layeredIn_apart (hsearch : search.FindsDistances) {options : LayoutOptions}
    {direction : Direction} (hdirection : options.direction = .str direction.name)
    (hrank : 0 ≤ spacing.rank) (hnode : 0 ≤ spacing.node)
    (hnodes : ∀ node ∈ nodes, IsDrawable node) (hids : (nodes.map idOf).Nodup)
    (edges : List Fields) :
    ∃ drawn : List DrawnNode,
      drawn.map DrawnNode.node = nodes
      ∧ (∀ d ∈ drawn, BoxSize.ofValues (Fields.get d.node "type") (Fields.get d.node "data")
        = .ok d.box.size)
      ∧ (∀ write : Point ℚ → Value, ∃ placed,
        layeredIn search write options.flow (.ok spacing) (.list (nodes.map Value.obj))
            (.list (edges.map Value.obj)) = .ok placed
          ∧ List.Forall₂ (fun d node =>
            Fields.erase node "position" = Fields.erase d.node "position"
              ∧ Fields.get? node "position" = some (write d.box.corner)) drawn placed)
      ∧ KeepsDistances direction.flow spacing (rankAmong search nodes edges) drawn := by
  have hflow : options.flow = .ok direction.flow := by
    rw [LayoutOptions.flow, hdirection]
    cases direction <;> rfl
  obtain ⟨place, hplace, hcorners⟩ := Placement.exists_corners_eq hsearch
    ((map_fst_boxesOf nodes).symm ▸ hids) direction.flow spacing (edges.map endsOf)
  refine ⟨nodes.map (drawnAround place), ?_, ?_, fun write => ?_,
    keepsDistances_drawnAround hids hsearch hrank hnode hplace⟩
  · rw [List.map_map]
    exact List.map_id _
  · intro d hd
    obtain ⟨node, hmem, rfl⟩ := List.mem_map.mp hd
    exact ofValues_eq_sizeOfNode (hnodes node hmem)
  · rw [hflow, layeredIn_eq hnodes, hcorners, boxesOf, List.map_map]
    refine ⟨_, congrArg _ (moveAll_eq write _ nodes), ?_⟩
    rw [List.forall₂_map_left_iff, List.forall₂_map_right_iff, List.forall₂_same]
    exact fun node _ => ⟨Fields.erase_put_self _ _ _, Fields.get?_put_self _ _ _⟩

end Layered

/-- Three nodes in boxes of three sizes. -/
def mixedNodes : List Fields :=
  [[("id", .str "a"), ("type", .str "standardNode"),
      ("data", .obj [("transitions", .list [.null, .null, .null, .null, .null, .null])])],
    [("id", .str "b"), ("type", .str "apiCallNode"), ("data", .obj [])],
    [("id", .str "c"), ("type", .str "endCallNode"), ("data", .obj [("transitions", .list [])])]]

/-- A loop, an edge from a node to itself, and one that leads nowhere. -/
def loopedEdges : List Fields :=
  [[("source", .str "a"), ("target", .str "b")], [("source", .str "b"), ("target", .str "a")],
    [("source", .str "a"), ("target", .str "c")], [("source", .str "c"), ("target", .str "c")],
    [("source", .str "c"), ("target", .str "x")]]

/-- These nodes are drawn on two ranks, from right to left. -/
theorem layeredIn_apart_mixedNodes :
    (∀ node ∈ mixedNodes, IsDrawable node) ∧ (mixedNodes.map idOf).Nodup
      ∧ mixedNodes.map (rankAmong Rank.distances mixedNodes loopedEdges) = [0, 1, 1]
      ∧ ∃ drawn, drawn.map DrawnNode.node = mixedNodes
        ∧ KeepsDistances Direction.left.flow ⟨120, 350, 280⟩
          (rankAmong Rank.distances mixedNodes loopedEdges) drawn := by
  have hnodes : ∀ node ∈ mixedNodes, IsDrawable node := by
    intro node hmem
    rcases hmem with _ | ⟨_, _ | ⟨_, _ | ⟨_, h⟩⟩⟩
    · exact ⟨rfl, _, rfl, .inr ⟨_, rfl⟩⟩
    · exact ⟨rfl, _, rfl, .inl rfl⟩
    · exact ⟨rfl, _, rfl, .inr ⟨_, rfl⟩⟩
    · cases h
  have hids : (mixedNodes.map idOf).Nodup := by decide +kernel
  have hdirection : ({ direction := .str "RL" } : LayoutOptions).direction
      = .str Direction.left.name := rfl
  have hrank : 0 ≤ (⟨120, 350, 280⟩ : Spacing ℚ).rank := by norm_num
  have hnode : 0 ≤ (⟨120, 350, 280⟩ : Spacing ℚ).node := by norm_num
  obtain ⟨drawn, hdrawn, _, _, hkeeps⟩ := layeredIn_apart Rank.findsDistances_distances hdirection
    hrank hnode hnodes hids loopedEdges
  exact ⟨hnodes, hids, by decide +kernel, drawn, hdrawn, hkeeps⟩

end CallFlow
