import Mathlib.Data.List.Nodup
import Mathlib.Data.List.Perm.Subperm
import CallFlow.Layout.Rank
import CallFlow.Proofs.Value.Outcome

/-!
# Distances

The *distance* of an id from a root is the least number of edges on a walk
from the root to it (`IsDistance`). A search *finds* the distances from a root
if it lists every id that can be reached once, with its distance, and no other
id (`Finds`). Everything that is said about ranks is said for any search that
does; in which order it lists the ids does not matter.

The search layer by layer is one (`findsDistances_distances`). Its invariant is
that the ids found so far are those up to a distance, and the layer those at
that distance: an edge leads at most one layer further, and the first edge of
a walk that leaves what is found leads to the next one. It is given as many
rounds as there are ids, and that is enough, since every round but the last
finds one id more.
-/

namespace CallFlow

/-! ## Tables by id -/

section Table

variable {α : Type} {table : List (String × α)} {id : String} {a : α}

theorem lookup_isNone_iff : (table.lookup id).isNone = true ↔ id ∉ table.map Prod.fst := by
  rw [Option.isNone_iff_eq_none, List.lookup_eq_none_iff, List.mem_map]
  constructor
  · rintro h ⟨p, hp, rfl⟩
    simpa using h p hp
  · intro h p hp
    simpa using fun heq => h ⟨p, hp, heq.symm⟩

theorem lookup_isSome_iff : (table.lookup id).isSome = true ↔ id ∈ table.map Prod.fst := by
  rw [← not_iff_not, ← lookup_isNone_iff, Bool.not_eq_true, Option.isSome_eq_false_iff]

/-- **Where no id is there twice, an id is looked up as what it stands
beside.** -/
theorem lookup_eq_some_iff (hnodup : (table.map Prod.fst).Nodup) :
    table.lookup id = some a ↔ (id, a) ∈ table := by
  induction table with
  | nil => simp
  | cons p rest ih =>
    obtain ⟨key, value⟩ := p
    rw [List.map_cons, List.nodup_cons] at hnodup
    rw [List.lookup_cons, List.mem_cons, Prod.mk.injEq]
    by_cases hkey : id = key
    · subst hkey
      have hrest : (id, a) ∉ rest := fun hmem => hnodup.1 (List.mem_map.mpr ⟨_, hmem, rfl⟩)
      simp [hrest, eq_comm]
    · have hbeq : (id == key) = false := by simpa using hkey
      rw [hbeq, ih hnodup.2]
      simp [hkey]

end Table

namespace Rank

/-! ## Walks -/

/-- **Whether a number of edges lead from a root to an id**, one after the
other. -/
inductive Walk (edges : List (String × String)) (root : String) : Nat → String → Prop
  /-- No edges lead to the root itself. -/
  | here : Walk edges root 0 root
  /-- One more edge leads to where it ends. -/
  | step {n : Nat} {id next : String} (walk : Walk edges root n id)
      (edge : (id, next) ∈ edges) : Walk edges root (n + 1) next

/-- Whether an id can be reached from a root. -/
def Reaches (edges : List (String × String)) (root id : String) : Prop :=
  ∃ n, Walk edges root n id

/-- **Whether a number is the distance of an id from a root**: the least
number of edges that lead to it. -/
def IsDistance (edges : List (String × String)) (root id : String) (n : Nat) : Prop :=
  Walk edges root n id ∧ ∀ m, Walk edges root m id → n ≤ m

section Walk

variable {edges : List (String × String)} {root id next : String} {n m : Nat}

theorem Reaches.refl : Reaches edges root root := ⟨0, .here⟩

/-- What is reached is reached through another. -/
theorem Reaches.trans {middle : String} (h : Reaches edges root middle)
    (h' : Reaches edges middle id) : Reaches edges root id := by
  obtain ⟨_, walk⟩ := h'
  induction walk with
  | here => exact h
  | step _ edge ih =>
    obtain ⟨n, walk⟩ := ih
    exact ⟨n + 1, walk.step edge⟩

theorem Reaches.step (h : Reaches edges root id) (edge : (id, next) ∈ edges) :
    Reaches edges root next := by
  obtain ⟨n, walk⟩ := h
  exact ⟨n + 1, walk.step edge⟩

theorem Walk.mem {ids : List String} (walk : Walk edges root n id)
    (hedges : ∀ e ∈ edges, e.1 ∈ ids ∧ e.2 ∈ ids) (hroot : root ∈ ids) : id ∈ ids := by
  cases walk with
  | here => exact hroot
  | step _ edge => exact (hedges _ edge).2

theorem isDistance_root : IsDistance edges root root 0 := ⟨.here, fun _ _ => Nat.zero_le _⟩

theorem IsDistance.unique (h : IsDistance edges root id n) (h' : IsDistance edges root id m) :
    n = m :=
  Nat.le_antisymm (h.2 m h'.1) (h'.2 n h.1)

/-- An id that is reached has a distance, and no walk to it is shorter. -/
theorem Walk.exists_isDistance (walk : Walk edges root n id) :
    ∃ m ≤ n, IsDistance edges root id m := by
  induction n using Nat.strongRecOn with
  | ind n ih =>
    by_cases hleast : ∀ m, Walk edges root m id → n ≤ m
    · exact ⟨n, Nat.le_refl n, walk, hleast⟩
    · obtain ⟨m, hm⟩ := not_forall.mp hleast
      obtain ⟨walk', hlt⟩ := Classical.not_imp.mp hm
      obtain ⟨k, hk, hdistance⟩ := ih m (by omega) walk'
      exact ⟨k, by omega, hdistance⟩

/-- **An edge leads at most one further.** -/
theorem IsDistance.step (h : IsDistance edges root id n) (edge : (id, next) ∈ edges) :
    ∃ m ≤ n + 1, IsDistance edges root next m :=
  (h.1.step edge).exists_isDistance

/-- **The last edge of a shortest walk leads from an id that is one nearer.** -/
theorem IsDistance.pred (h : IsDistance edges root next (n + 1)) :
    ∃ id, IsDistance edges root id n ∧ (id, next) ∈ edges := by
  obtain ⟨walk, hleast⟩ := h
  cases walk with
  | @step _ id _ walk edge =>
    refine ⟨id, ⟨walk, fun m hm => ?_⟩, edge⟩
    have := hleast (m + 1) (hm.step edge)
    omega

/-- Where an id is at a distance, there is one at every distance before. -/
theorem IsDistance.exists_of_le (h : IsDistance edges root id n) (hle : m ≤ n) :
    ∃ id', IsDistance edges root id' m := by
  induction n generalizing id with
  | zero => exact ⟨id, by rwa [Nat.le_zero.mp hle]⟩
  | succ n ih =>
    rcases Nat.lt_or_eq_of_le hle with hlt | rfl
    · obtain ⟨id', h', _⟩ := h.pred
      exact ih h' (by omega)
    · exact ⟨id, h⟩

end Walk

/-! ## Searches that find the distances -/

/-- **Whether a table lists what can be reached from a root**: each id once,
with its distance. -/
structure Finds (edges : List (String × String)) (root : String) (found : List (String × Nat)) :
    Prop where
  /-- No id is listed twice. -/
  nodup : (found.map Prod.fst).Nodup
  /-- An id is listed with its distance, if it has one. -/
  mem_iff : ∀ id n, (id, n) ∈ found ↔ IsDistance edges root id n

/-- **Whether a search finds the distances** from every root, along any edges
among some ids. -/
def Search.FindsDistances (search : Search) : Prop :=
  ∀ ids edges, (∀ e ∈ edges, e.1 ∈ ids ∧ e.2 ∈ ids) → ∀ root ∈ ids,
    Finds edges root (search ids edges root)

/-! ## The search layer by layer -/

/-- **What is known after some rounds**: the ids up to a distance, and as the
last layer those at that distance. -/
structure Explored (edges : List (String × String)) (root : String) (distance : Nat)
    (layer : List String) (found : List (String × Nat)) : Prop where
  /-- No id is found twice. -/
  nodup : (found.map Prod.fst).Nodup
  /-- What is found is what lies within the distance. -/
  mem_found : ∀ id n, (id, n) ∈ found ↔ IsDistance edges root id n ∧ n ≤ distance
  /-- The layer is what lies at the distance. -/
  mem_layer : ∀ id, id ∈ layer ↔ IsDistance edges root id distance

/-- Before the first round the root is known. -/
theorem explored_root (edges : List (String × String)) (root : String) :
    Explored edges root 0 [root] [(root, 0)] := by
  have hat : ∀ id, IsDistance edges root id 0 ↔ id = root := by
    intro id
    constructor
    · rintro ⟨walk, _⟩
      cases walk
      rfl
    · rintro rfl
      exact isDistance_root
  refine ⟨List.nodup_singleton _, fun id n => ?_, fun id => ?_⟩
  · rw [List.mem_singleton, Prod.mk.injEq]
    constructor
    · rintro ⟨rfl, rfl⟩
      exact ⟨isDistance_root, Nat.le_refl 0⟩
    · rintro ⟨h, hle⟩
      obtain rfl := Nat.le_zero.mp hle
      exact ⟨(hat id).mp h, rfl⟩
  · rw [List.mem_singleton, hat]

namespace Explored

variable {edges : List (String × String)} {root : String} {distance : Nat} {layer : List String}
  {found : List (String × Nat)} (h : Explored edges root distance layer found)

include h

/-- An id is found exactly if its distance is within reach. -/
theorem mem_keys (id : String) :
    id ∈ found.map Prod.fst ↔ ∃ n ≤ distance, IsDistance edges root id n := by
  rw [List.mem_map]
  constructor
  · rintro ⟨⟨_, n⟩, hmem, rfl⟩
    obtain ⟨hn, hle⟩ := (h.mem_found _ n).mp hmem
    exact ⟨n, hle, hn⟩
  · rintro ⟨n, hle, hn⟩
    exact ⟨(id, n), (h.mem_found id n).mpr ⟨hn, hle⟩, rfl⟩

/-- **The next layer is what lies one further.** -/
theorem mem_nextLayer (id : String) :
    id ∈ nextLayer edges found layer ↔ IsDistance edges root id (distance + 1) := by
  have hnext : id ∈ nextLayer edges found layer
      ↔ (∃ previous ∈ layer, (previous, id) ∈ edges) ∧ id ∉ found.map Prod.fst := by
    rw [nextLayer, List.mem_filter, lookup_isNone_iff, List.mem_eraseDups, List.mem_flatMap]
    simp [successors]
  rw [hnext, h.mem_keys]
  constructor
  · rintro ⟨⟨previous, hprevious, edge⟩, hnew⟩
    obtain ⟨m, hle, hm⟩ := ((h.mem_layer previous).mp hprevious).step edge
    -- an id that is not found is no nearer
    obtain rfl : m = distance + 1 := by
      by_contra hne
      exact hnew ⟨m, by omega, hm⟩
    exact hm
  · intro hid
    obtain ⟨previous, hprevious, edge⟩ := hid.pred
    refine ⟨⟨previous, (h.mem_layer previous).mpr hprevious, edge⟩, ?_⟩
    rintro ⟨n, hle, hn⟩
    have := hn.unique hid
    omega

/-- A round goes on to the next layer. -/
theorem next :
    Explored edges root (distance + 1) (nextLayer edges found layer)
      (found ++ (nextLayer edges found layer).map fun id => (id, distance + 1)) := by
  have hkeys : ((nextLayer edges found layer).map fun id => (id, distance + 1)).map Prod.fst
      = nextLayer edges found layer := by
    rw [List.map_map]
    exact List.map_id _
  refine ⟨?_, fun id n => ?_, h.mem_nextLayer⟩
  · rw [List.map_append, hkeys]
    refine List.nodup_append.mpr ⟨h.nodup, (nodup_eraseDups _).filter _, ?_⟩
    rintro id hfound _ hnew rfl
    exact lookup_isNone_iff.mp (List.mem_filter.mp hnew).2 hfound
  · rw [List.mem_append, h.mem_found, List.mem_map]
    constructor
    · rintro (⟨hn, hle⟩ | ⟨id', hnew, heq⟩)
      · exact ⟨hn, by omega⟩
      · obtain ⟨rfl, rfl⟩ := Prod.mk.inj heq
        exact ⟨(h.mem_nextLayer _).mp hnew, Nat.le_refl _⟩
    · rintro ⟨hn, hle⟩
      rcases Nat.lt_or_eq_of_le hle with hlt | rfl
      · exact .inl ⟨hn, by omega⟩
      · exact .inr ⟨id, (h.mem_nextLayer id).mpr hn, rfl⟩

/-- Where nothing lies one further, everything is found. -/
theorem finds (hnone : nextLayer edges found layer = []) : Finds edges root found := by
  refine ⟨h.nodup, fun id n => ?_⟩
  rw [h.mem_found, and_iff_left_iff_imp]
  intro hn
  by_contra hfar
  obtain ⟨id', hid'⟩ := hn.exists_of_le (m := distance + 1) (by omega)
  have hmem := (h.mem_nextLayer id').mpr hid'
  rw [hnone] at hmem
  exact List.not_mem_nil hmem

theorem length_le {ids : List String} (hedges : ∀ e ∈ edges, e.1 ∈ ids ∧ e.2 ∈ ids)
    (hroot : root ∈ ids) : found.length ≤ ids.length := by
  rw [← List.length_map (f := Prod.fst)]
  refine List.Nodup.length_le_of_subset h.nodup fun id hid => ?_
  obtain ⟨n, _, hn⟩ := (h.mem_keys id).mp hid
  exact hn.1.mem hedges hroot

/-- **The search ends with everything found**, if it is given a round for each
id that is not. -/
theorem finds_spread {ids : List String} (hedges : ∀ e ∈ edges, e.1 ∈ ids ∧ e.2 ∈ ids)
    (hroot : root ∈ ids) {fuel : Nat} (hfuel : ids.length < fuel + found.length) :
    Finds edges root (spread edges fuel distance layer found) := by
  induction fuel generalizing distance layer found with
  | zero =>
    have := h.length_le hedges hroot
    omega
  | succ fuel ih =>
    rw [spread]
    split
    next hnone => exact h.finds (List.isEmpty_iff.mp hnone)
    next hsome =>
      -- a round that finds something leaves one id less to be found
      have hpos : 0 < (nextLayer edges found layer).length :=
        List.length_pos_iff.mpr fun hnil => hsome (List.isEmpty_iff.mpr hnil)
      refine ih h.next ?_
      rw [List.length_append, List.length_map]
      omega

end Explored

/-- **The search layer by layer finds the distances.** -/
theorem findsDistances_distances : Search.FindsDistances distances := by
  intro ids edges hedges root hroot
  exact (explored_root edges root).finds_spread hedges hroot (Nat.lt_succ_self _)

end Rank

end CallFlow
