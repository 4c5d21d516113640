import CallFlow.Proofs.Layout.Distance

/-!
# Ranks follow the edges

Ranking goes through the ids one after the other, and an id without a rank is
a *root*: what it reaches, and has no rank yet, is put as far behind all ranks
in use as it is distant from the root. Ranks have no gaps, and an edge leads at
most one rank further (`assign_layers`).

Neither is plain, since a search runs over ids that were ranked before, and its
distances count edges between those. What saves it is that the ids with a rank
are closed: whatever is reached from one of them was reached from the same root
and has a rank, too (`Ranked.mem_keys`). So a walk to an id without a rank leads
through none that has one, and every distance up to its own is taken by an id
that is ranked with it. An edge from a later root's ids to an earlier one's only
leads back.
-/

namespace CallFlow.Rank

/-- Whether an id is reached from one of some roots. -/
def ReachedFrom (edges : List (String × String)) (roots : List String) (id : String) : Prop :=
  ∃ root ∈ roots, Reaches edges root id

section ReachedFrom

variable {edges : List (String × String)} {roots others : List String} {root id next : String}

theorem not_reachedFrom_nil : ¬ ReachedFrom edges [] id := by
  rintro ⟨root, hroot, _⟩
  exact List.not_mem_nil hroot

/-- What is reached from some roots and one more is reached from those or from
that one. -/
theorem reachedFrom_concat :
    ReachedFrom edges (roots ++ [root]) id ↔ ReachedFrom edges roots id ∨ Reaches edges root id := by
  simp only [ReachedFrom, List.mem_append, List.mem_singleton]
  constructor
  · rintro ⟨r, hr | rfl, hreach⟩
    · exact .inl ⟨r, hr, hreach⟩
    · exact .inr hreach
  · rintro (⟨r, hr, hreach⟩ | hreach)
    · exact ⟨r, .inl hr, hreach⟩
    · exact ⟨root, .inr rfl, hreach⟩

theorem ReachedFrom.append (h : ReachedFrom edges roots id) :
    ReachedFrom edges (roots ++ others) id := by
  obtain ⟨r, hr, hreach⟩ := h
  exact ⟨r, List.mem_append_left _ hr, hreach⟩

theorem ReachedFrom.trans (h : ReachedFrom edges roots id) (h' : Reaches edges id next) :
    ReachedFrom edges roots next := by
  obtain ⟨r, hr, hreach⟩ := h
  exact ⟨r, hr, hreach.trans h'⟩

end ReachedFrom

/-! ## The rank behind all in use -/

/-- **The ranks before the next one** are those in use, and those before them. -/
theorem lt_nextRank_iff {ranks : List (String × Nat)} {r : Nat} :
    r < nextRank ranks ↔ ∃ p ∈ ranks, r ≤ p.2 := by
  refine (lt_foldl_max_iff (fun p => p.2 + 1) ranks 0 r).trans ?_
  simp only [Nat.not_lt_zero, false_or, Nat.lt_succ_iff]

/-! ## Ranking one root after the other -/

/-- **What is known after some ids were gone through.** -/
structure Ranked (edges : List (String × String)) (done : List String)
    (ranks : List (String × Nat)) : Prop where
  /-- No id has two ranks. -/
  nodup : (ranks.map Prod.fst).Nodup
  /-- What has a rank is what is reached from the ids so far. -/
  mem_keys : ∀ id, id ∈ ranks.map Prod.fst ↔ ReachedFrom edges done id
  /-- The rank before one in use is in use. -/
  gapless : ∀ id r, (id, r + 1) ∈ ranks → r ∈ ranks.map Prod.snd
  /-- An edge from an id with a rank leads at most one rank further. -/
  edge : ∀ id next, (id, next) ∈ edges → ∀ r, (id, r) ∈ ranks → ∃ s ≤ r + 1, (next, s) ∈ ranks
  /-- What is reached from none of the first ids is ranked behind all that is. -/
  later : ∀ before after, done = before ++ after → ∀ id r, (id, r) ∈ ranks →
    ¬ ReachedFrom edges before id → ∀ other s, (other, s) ∈ ranks →
    ReachedFrom edges before other → s < r
  /-- What is reached from a root first is ranked by its distance from it, the
  first root on rank `0`. -/
  depth : ∀ before root after, done = before ++ root :: after →
    ¬ ReachedFrom edges before root → ∃ base, (before = [] → base = 0) ∧
    ∀ id n, IsDistance edges root id n → ¬ ReachedFrom edges before id → (id, base + n) ∈ ranks

theorem ranked_nil (edges : List (String × String)) : Ranked edges [] [] where
  nodup := List.nodup_nil
  mem_keys _ := iff_of_false List.not_mem_nil not_reachedFrom_nil
  gapless _ _ h := absurd h List.not_mem_nil
  edge _ _ _ _ h := absurd h List.not_mem_nil
  later _ _ _ _ _ h := absurd h List.not_mem_nil
  depth _ _ _ h := absurd h (by simp)

namespace Ranked

variable {edges : List (String × String)} {done : List String} {ranks : List (String × Nat)}
  (h : Ranked edges done ranks) {id next : String} {r n : Nat}

include h

theorem reachedFrom (hmem : (id, r) ∈ ranks) : ReachedFrom edges done id :=
  (h.mem_keys id).mp (List.mem_map_of_mem hmem)

theorem exists_rank (hreach : ReachedFrom edges done id) : ∃ r, (id, r) ∈ ranks := by
  obtain ⟨⟨_, r⟩, hmem, rfl⟩ := List.mem_map.mp ((h.mem_keys id).mpr hreach)
  exact ⟨r, hmem⟩

theorem of_eq (hmem : (id, r) ∈ ranks) : Rank.of ranks id = r := by
  rw [Rank.of, (lookup_eq_some_iff h.nodup).mpr hmem, Option.getD_some]

theorem of_lt_nextRank (hreach : ReachedFrom edges done id) :
    Rank.of ranks id < nextRank ranks := by
  obtain ⟨r, hr⟩ := h.exists_rank hreach
  rw [h.of_eq hr]
  exact lt_nextRank_iff.mpr ⟨_, hr, Nat.le_refl _⟩

/-- The ranks in use are those before the next one. -/
theorem mem_ranks_iff : r ∈ ranks.map Prod.snd ↔ r < nextRank ranks := by
  rw [lt_nextRank_iff]
  constructor
  · intro hr
    obtain ⟨p, hp, rfl⟩ := List.mem_map.mp hr
    exact ⟨p, hp, Nat.le_refl _⟩
  · rintro ⟨⟨id, s⟩, hp, hle⟩
    induction s generalizing id with
    | zero => exact List.mem_map.mpr ⟨_, hp, (Nat.le_zero.mp hle).symm⟩
    | succ s ih =>
      rcases Nat.lt_or_eq_of_le hle with hlt | rfl
      · obtain ⟨⟨id', _⟩, hp', rfl⟩ := List.mem_map.mp (h.gapless id s hp)
        exact ih id' hp' (Nat.le_of_lt_succ hlt)
      · exact List.mem_map.mpr ⟨_, hp, rfl⟩

section Extend

variable {search : String → List (String × Nat)} {root : String}
  (hfinds : Finds edges root (search root))

include hfinds

/-- **Ranking a root adds what it reaches first**, as far behind the ranks in use
as it is distant. A root with a rank reaches nothing first. -/
theorem mem_extend :
    (id, r) ∈ extend search ranks root ↔ (id, r) ∈ ranks
      ∨ ∃ n, IsDistance edges root id n ∧ ¬ ReachedFrom edges done id
        ∧ r = nextRank ranks + n := by
  rw [extend]
  split
  next hsome =>
    have hroot := (h.mem_keys root).mp (lookup_isSome_iff.mp hsome)
    refine ⟨.inl, ?_⟩
    rintro (hmem | ⟨n, hn, hnew, _⟩)
    · exact hmem
    · exact absurd (hroot.trans ⟨n, hn.1⟩) hnew
  next =>
    rw [List.mem_append, List.mem_map]
    refine or_congr_right ⟨?_, ?_⟩
    · rintro ⟨⟨_, n⟩, hmem, heq⟩
      obtain ⟨rfl, rfl⟩ := Prod.mk.inj heq
      obtain ⟨hn, hnew⟩ := List.mem_filter.mp hmem
      exact ⟨n, (hfinds.mem_iff _ n).mp hn,
        fun hreach => lookup_isNone_iff.mp hnew ((h.mem_keys _).mpr hreach), rfl⟩
    · rintro ⟨n, hn, hnew, rfl⟩
      refine ⟨(id, n), List.mem_filter.mpr ⟨(hfinds.mem_iff id n).mpr hn, ?_⟩, rfl⟩
      exact lookup_isNone_iff.mpr fun hmem => hnew ((h.mem_keys id).mp hmem)

/-- Ranking a root gives no id a second rank. -/
theorem nodup_extend : ((extend search ranks root).map Prod.fst).Nodup := by
  rw [extend]
  split
  next => exact h.nodup
  next =>
    have hkeys : (((search root).filter fun d => (ranks.lookup d.1).isNone).map
          fun d => (d.1, nextRank ranks + d.2)).map Prod.fst
        = ((search root).filter fun d => (ranks.lookup d.1).isNone).map Prod.fst := by
      rw [List.map_map]
      rfl
    rw [List.map_append, hkeys]
    refine List.nodup_append.mpr ⟨h.nodup, hfinds.nodup.sublist (List.filter_sublist.map _), ?_⟩
    rintro _ hold _ hnew rfl
    obtain ⟨d, hd, rfl⟩ := List.mem_map.mp hnew
    exact lookup_isNone_iff.mp (List.mem_filter.mp hd).2 hold

/-- What has a rank is closed, so a root adds all that it reaches. -/
theorem mem_keys_extend :
    id ∈ (extend search ranks root).map Prod.fst ↔ ReachedFrom edges (done ++ [root]) id := by
  rw [reachedFrom_concat]
  constructor
  · intro hkey
    obtain ⟨⟨_, r⟩, hr, rfl⟩ := List.mem_map.mp hkey
    rcases (h.mem_extend hfinds).mp hr with hold | ⟨n, hn, _⟩
    · exact .inl (h.reachedFrom hold)
    · exact .inr ⟨n, hn.1⟩
  · intro hreach
    by_cases hold : ReachedFrom edges done id
    · obtain ⟨r, hr⟩ := h.exists_rank hold
      exact List.mem_map.mpr ⟨_, (h.mem_extend hfinds).mpr (.inl hr), rfl⟩
    · obtain ⟨m, walk⟩ := hreach.resolve_left hold
      obtain ⟨n, _, hn⟩ := walk.exists_isDistance
      exact List.mem_map.mpr ⟨_, (h.mem_extend hfinds).mpr (.inr ⟨n, hn, hold, rfl⟩), rfl⟩

/-- Ranking a root leaves no gap: on a shortest walk to an id without a rank no
id has one. -/
theorem gapless_extend (hr : (id, r + 1) ∈ extend search ranks root) :
    r ∈ (extend search ranks root).map Prod.snd := by
  have hkept : ∀ {s}, s ∈ ranks.map Prod.snd → s ∈ (extend search ranks root).map Prod.snd := by
    intro s hs
    obtain ⟨p, hp, rfl⟩ := List.mem_map.mp hs
    exact List.mem_map.mpr ⟨p, (h.mem_extend hfinds).mpr (.inl hp), rfl⟩
  rcases (h.mem_extend hfinds).mp hr with hold | ⟨n, hn, hnew, heq⟩
  · exact hkept (h.gapless id r hold)
  · cases n with
    | zero => exact hkept (h.mem_ranks_iff.mpr (by omega))
    | succ n =>
      obtain ⟨id', hn', edge⟩ := hn.pred
      have hnew' : ¬ ReachedFrom edges done id' := fun hreach =>
        hnew (hreach.trans (Reaches.refl.step edge))
      exact List.mem_map.mpr
        ⟨(id', r), (h.mem_extend hfinds).mpr (.inr ⟨n, hn', hnew', by omega⟩), rfl⟩

/-- An edge leads at most one rank further after a root was ranked, or back to
what had a rank before. -/
theorem edge_extend (edge : (id, next) ∈ edges) (hr : (id, r) ∈ extend search ranks root) :
    ∃ s ≤ r + 1, (next, s) ∈ extend search ranks root := by
  rcases (h.mem_extend hfinds).mp hr with hold | ⟨n, hn, _, rfl⟩
  · obtain ⟨s, hle, hs⟩ := h.edge id next edge r hold
    exact ⟨s, hle, (h.mem_extend hfinds).mpr (.inl hs)⟩
  · by_cases hnext : ReachedFrom edges done next
    · obtain ⟨s, hs⟩ := h.exists_rank hnext
      have hlt : s < nextRank ranks := lt_nextRank_iff.mpr ⟨_, hs, Nat.le_refl _⟩
      exact ⟨s, by omega, (h.mem_extend hfinds).mpr (.inl hs)⟩
    · obtain ⟨m, hle, hm⟩ := hn.step edge
      exact ⟨_, by omega, (h.mem_extend hfinds).mpr (.inr ⟨m, hm, hnext, rfl⟩)⟩

/-- What is reached from none of the first ids is still ranked behind all that
is, after one more root was ranked. -/
theorem later_extend {before after : List String} (hsplit : done ++ [root] = before ++ after)
    (hr : (id, r) ∈ extend search ranks root) (hnew : ¬ ReachedFrom edges before id)
    {other : String} {s : Nat} (hs : (other, s) ∈ extend search ranks root)
    (hreach : ReachedFrom edges before other) : s < r := by
  rcases List.eq_nil_or_concat' after with rfl | ⟨after, last, rfl⟩
  · -- all ids so far come first, and nothing else has a rank
    rw [List.append_nil] at hsplit
    exact absurd ((h.mem_keys_extend hfinds).mp (List.mem_map_of_mem hr)) (hsplit ▸ hnew)
  · rw [← List.append_assoc] at hsplit
    obtain ⟨hdone, _⟩ := List.append_inj' hsplit rfl
    rcases (h.mem_extend hfinds).mp hs with hs | ⟨_, _, hother, _⟩
    · rcases (h.mem_extend hfinds).mp hr with hr | ⟨n, _, _, rfl⟩
      · exact h.later before after hdone id r hr hnew other s hs hreach
      · have hlt : s < nextRank ranks := lt_nextRank_iff.mpr ⟨_, hs, Nat.le_refl _⟩
        omega
    · exact absurd (hdone ▸ hreach.append) hother

/-- What a root reaches first is ranked by its distance, and if the root is the
first of all, from rank `0` on. -/
theorem depth_extend {before after : List String} {first : String}
    (hsplit : done ++ [root] = before ++ first :: after)
    (hfirst : ¬ ReachedFrom edges before first) :
    ∃ base, (before = [] → base = 0) ∧ ∀ id n, IsDistance edges first id n →
      ¬ ReachedFrom edges before id → (id, base + n) ∈ extend search ranks root := by
  rcases List.eq_nil_or_concat' after with rfl | ⟨after, last, rfl⟩
  · obtain ⟨rfl, heq⟩ := List.append_inj' hsplit rfl
    obtain rfl := List.singleton_inj.mp heq
    refine ⟨nextRank ranks, fun hnil => ?_, fun id n hn hnew =>
      (h.mem_extend hfinds).mpr (.inr ⟨n, hn, hnew, rfl⟩)⟩
    -- without ids before the root there is no rank in use
    by_contra hpos
    obtain ⟨⟨id, _⟩, hp, _⟩ := lt_nextRank_iff.mp (Nat.pos_of_ne_zero hpos)
    exact not_reachedFrom_nil (hnil ▸ h.reachedFrom hp)
  · rw [← List.cons_append, ← List.append_assoc] at hsplit
    obtain ⟨hdone, _⟩ := List.append_inj' hsplit rfl
    obtain ⟨base, hbase, hall⟩ := h.depth before first after hdone hfirst
    exact ⟨base, hbase, fun id n hn hnew => (h.mem_extend hfinds).mpr (.inl (hall id n hn hnew))⟩

/-- **Going through one more id keeps what is known.** -/
theorem extend : Ranked edges (done ++ [root]) (extend search ranks root) where
  nodup := h.nodup_extend hfinds
  mem_keys _ := h.mem_keys_extend hfinds
  gapless _ _ := h.gapless_extend hfinds
  edge _ _ edge _ := h.edge_extend hfinds edge
  later _ _ hsplit _ _ hr hnew _ _ := h.later_extend hfinds hsplit hr hnew
  depth _ _ _ := h.depth_extend hfinds

end Extend

end Ranked

/-- **Going through all ids ranks what is reached from them.** -/
theorem ranked_assign {search : Search} (hsearch : search.FindsDistances) {ids : List String}
    {edges : List (String × String)} (hedges : ∀ e ∈ edges, e.1 ∈ ids ∧ e.2 ∈ ids) :
    Ranked edges ids (assign search ids edges) := by
  have hrun : ∀ rest, rest ⊆ ids → ∀ done ranks, Ranked edges done ranks →
      Ranked edges (done ++ rest) (rest.foldl (extend (search ids edges)) ranks) := by
    intro rest
    induction rest with
    | nil => exact fun _ done ranks h => by rwa [List.append_nil]
    | cons root rest ih =>
      intro hsub done ranks h
      obtain ⟨hroot, hrest⟩ := List.cons_subset.mp hsub
      have hstep := ih hrest _ _ (h.extend (hsearch ids edges hedges root hroot))
      rwa [List.append_assoc] at hstep
  exact hrun ids (List.Subset.refl ids) [] [] (ranked_nil edges)

/-! ## What the ranks say -/

section Assign

variable {search : Search} {ids : List String} {edges : List (String × String)}

theorem reachedFrom_ids_iff (hedges : ∀ e ∈ edges, e.1 ∈ ids ∧ e.2 ∈ ids) {id : String} :
    ReachedFrom edges ids id ↔ id ∈ ids := by
  constructor
  · rintro ⟨root, hroot, n, walk⟩
    exact walk.mem hedges hroot
  · exact fun hid => ⟨id, hid, .refl⟩

/-- **Ranks follow the edges**, whichever search finds the distances:

* every id has one rank, and nothing else has one,
* the ranks in use are the first ones, without a gap,
* what can be reached from the first id has its distance for a rank,
* what is reached first from a later root is ranked behind all that is reached
  from the ids before it, and
* an edge leads at most one rank further. -/
theorem assign_layers (hsearch : search.FindsDistances)
    (hedges : ∀ e ∈ edges, e.1 ∈ ids ∧ e.2 ∈ ids) :
    (((assign search ids edges).map Prod.fst).Nodup
      ∧ ∀ id, id ∈ (assign search ids edges).map Prod.fst ↔ id ∈ ids)
    ∧ (∃ count, ∀ r, r ∈ (assign search ids edges).map Prod.snd ↔ r < count)
    ∧ (∀ first rest, ids = first :: rest → ∀ id n, IsDistance edges first id n →
      Rank.of (assign search ids edges) id = n)
    ∧ (∀ before root after, ids = before ++ root :: after → ∀ id, Reaches edges root id →
      ¬ ReachedFrom edges before id → ∀ other, ReachedFrom edges before other →
      Rank.of (assign search ids edges) other < Rank.of (assign search ids edges) id)
    ∧ ∀ e ∈ edges, Rank.of (assign search ids edges) e.2
      ≤ Rank.of (assign search ids edges) e.1 + 1 := by
  have h := ranked_assign hsearch hedges
  refine ⟨⟨h.nodup, fun id => (h.mem_keys id).trans (reachedFrom_ids_iff hedges)⟩,
    ⟨_, fun r => h.mem_ranks_iff⟩, ?_, ?_, ?_⟩
  · rintro first rest rfl id n hn
    obtain ⟨base, hbase, hall⟩ := h.depth [] first rest rfl not_reachedFrom_nil
    rw [h.of_eq (hall id n hn not_reachedFrom_nil), hbase rfl, Nat.zero_add]
  · rintro before root after rfl id hreach hnew other hother
    have hid : ReachedFrom edges (before ++ root :: after) id :=
      ⟨root, List.mem_append_right _ List.mem_cons_self, hreach⟩
    obtain ⟨r, hr⟩ := h.exists_rank hid
    obtain ⟨s, hs⟩ := h.exists_rank hother.append
    rw [h.of_eq hr, h.of_eq hs]
    exact h.later before (root :: after) rfl id r hr hnew other s hs hother
  · rintro ⟨id, next⟩ hmem
    obtain ⟨r, hr⟩ := h.exists_rank ((reachedFrom_ids_iff hedges).mpr (hedges _ hmem).1)
    obtain ⟨s, hle, hs⟩ := h.edge id next hmem r hr
    rw [h.of_eq hr, h.of_eq hs]
    exact hle

end Assign

/-- Edges among five ids: a loop, an edge from a later root back into it, and an
id by itself. -/
def crossedEdges : List (String × String) := [("a", "b"), ("b", "a"), ("c", "b"), ("c", "d")]

/-- Ranking these ids, one of them listed twice: the later root and the id by
itself lie behind the loop. -/
theorem assign_layers_crossedEdges :
    assign distances ["a", "b", "c", "a", "d", "e"] crossedEdges
      = [("a", 0), ("b", 1), ("c", 2), ("d", 3), ("e", 4)]
    ∧ (∀ e ∈ crossedEdges, e.1 ∈ ["a", "b", "c", "a", "d", "e"]
      ∧ e.2 ∈ ["a", "b", "c", "a", "d", "e"])
    ∧ ∀ e ∈ crossedEdges, Rank.of (assign distances ["a", "b", "c", "a", "d", "e"] crossedEdges) e.2
      ≤ Rank.of (assign distances ["a", "b", "c", "a", "d", "e"] crossedEdges) e.1 + 1 := by
  have hedges : ∀ e ∈ crossedEdges, e.1 ∈ ["a", "b", "c", "a", "d", "e"]
      ∧ e.2 ∈ ["a", "b", "c", "a", "d", "e"] := by decide
  obtain ⟨_, _, _, _, hfurther⟩ := assign_layers findsDistances_distances hedges
  exact ⟨by decide, hedges, hfurther⟩

end CallFlow.Rank
