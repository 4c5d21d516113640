import CallFlow.Proofs.Session.Selection
import CallFlow.Proofs.Session.Agreement
import Mathlib.Data.List.Induction

/-!
# Undoing is exact

The graphs a session can go back to form a stack, and which graph is on top of
it is told by the run alone. An edit that was recorded *stands* as long as the
depth of the stack has not come back to what it was before the edit
(`Stands`). Undoing takes back the latest edit that stands: it shows the graph
there was just before it (`undo_run`).

Two things carry this. A step raises the depth by one at most, so for each
depth below the one that is reached there is an edit that stands and was made
at that depth (`exists_stands`). And as long as the depth does not fall below
some number, that many graphs at the bottom of the stack stay what they are
(`suffix_run`), so that what an edit recorded is still there when the depth is
back to where it had left it.
-/

namespace CallFlow.Session

/-- How many edits can be taken back. -/
def depth (s : Session) : Nat := s.history.length

/-- **An edit that was recorded and has not been taken back** by what was done
after it: it raised the depth, and the depth has stayed above what it was. -/
structure Stands (first : Session) (before : List Step) (t : Step) (after : List Step) :
    Prop where
  /-- The edit was recorded. -/
  recorded : ((first.run before).step t).1.depth = (first.run before).depth + 1
  /-- At no later time was it taken back. -/
  kept : ∀ done, done <+: after →
    (first.run before).depth < (((first.run before).step t).1.run done).depth

/-- **The latest edit of a run that stands.** -/
structure IsLatestEdit (first : Session) (steps before : List Step) (t : Step)
    (after : List Step) : Prop where
  /-- The edit is a step of the run. -/
  split : steps = before ++ t :: after
  /-- It stands. -/
  stands : Stands first before t after
  /-- No edit that stands was made later. -/
  latest : ∀ before' t' after', steps = before' ++ t' :: after' →
    Stands first before' t' after' → before'.length ≤ before.length

/-! ## The depth of a run -/

/-- **A step raises the depth by one at most.** -/
theorem depth_step_le (s : Session) (t : Step) : (s.step t).1.depth ≤ s.depth + 1 := by
  unfold depth
  cases advances_step s t with
  | same h => rw [h.2]; exact Nat.le_succ _
  | recorded h => exact Nat.le_of_eq (congrArg List.length h)
  | returned h => rw [h, List.length_cons]; omega

/-- Where it does, the graph before it was recorded. -/
theorem history_of_depth_step {s : Session} {t : Step} (h : (s.step t).1.depth = s.depth + 1) :
    (s.step t).1.history = s.graph :: s.history := by
  unfold depth at h
  cases advances_step s t with
  | same hsame =>
    rw [hsame.2] at h
    omega
  | recorded hrecorded => exact hrecorded
  | returned hreturned =>
    rw [hreturned, List.length_cons] at h
    omega

/-- **For each depth below the one that is reached there is an edit that
stands** and was made at that depth. -/
theorem exists_stands {first : Session} (hfirst : first.history = []) (steps : List Step) {k : Nat}
    (hk : k < (first.run steps).depth) :
    ∃ before t after, steps = before ++ t :: after ∧ (first.run before).depth = k
      ∧ Stands first before t after := by
  -- by induction on the run from its end, where the last step may be the edit itself
  induction steps using List.reverseRecOn with
  | nil =>
    rw [depth, show first.run [] = first from rfl, hfirst] at hk
    cases hk
  | append_singleton steps t ih =>
    by_cases hbefore : k < (first.run steps).depth
    · obtain ⟨before, t', after, rfl, hdepth, hstands⟩ := ih hbefore
      refine ⟨before, t', after ++ [t], by simp, hdepth, hstands.recorded, fun done hdone => ?_⟩
      rcases List.prefix_concat_iff.mp hdone with rfl | hdone
      · rw [← run_cons, ← run_append, hdepth]
        simpa using hk
      · exact hstands.kept done hdone
    · rw [run_concat] at hk
      have hle := depth_step_le (first.run steps) t
      refine ⟨steps, t, [], rfl, by omega, by omega, fun done hdone => ?_⟩
      obtain rfl := List.prefix_nil.mp hdone
      show _ < ((first.run steps).step t).1.depth
      omega

/-! ## The bottom of the stack -/

/-- What is at the bottom stays there over a step that leaves the stack deep
enough. -/
theorem suffix_step {s : Session} {t : Step} {base : List Value} (hbase : base <:+ s.history)
    (hdepth : base.length ≤ (s.step t).1.depth) : base <:+ (s.step t).1.history := by
  cases advances_step s t with
  | same h => rwa [h.2]
  | recorded h =>
    rw [h]
    exact hbase.trans (List.suffix_cons _ _)
  | returned h =>
    rw [h] at hbase
    rcases List.suffix_cons_iff.mp hbase with rfl | hbase
    · rw [depth, List.length_cons] at hdepth
      omega
    · exact hbase

/-- **What is at the bottom of the stack stays there over a run that leaves the
stack deep enough** all the time. -/
theorem suffix_run {s : Session} {base : List Value} (hbase : base <:+ s.history)
    (steps : List Step) (hdepth : ∀ done, done <+: steps → base.length ≤ (s.run done).depth) :
    base <:+ (s.run steps).history := by
  induction steps generalizing s with
  | nil => exact hbase
  | cons t rest ih =>
    have hstep : base.length ≤ (s.step t).1.depth := hdepth [t] (by simp)
    refine ih (suffix_step hbase hstep) fun done hdone => ?_
    exact hdepth (t :: done) (List.cons_prefix_cons.mpr ⟨rfl, hdone⟩)

/-- **Where an edit stands and the depth is what the edit left, the graph to go
back to is the one before it.** -/
theorem Stands.history_eq {first : Session} {before : List Step} {t : Step} {after : List Step}
    (h : Stands first before t after)
    (hdepth : (first.run (before ++ t :: after)).depth = (first.run before).depth + 1) :
    (first.run (before ++ t :: after)).history
      = (first.run before).graph :: (first.run before).history := by
  have hrecorded := history_of_depth_step h.recorded
  rw [run_append, run_cons] at hdepth ⊢
  have hbase : (first.run before).graph :: (first.run before).history
      <:+ ((first.run before).step t).1.history := hrecorded ▸ List.suffix_rfl
  have hsuffix := suffix_run hbase after fun done hdone => by
    rw [List.length_cons]
    exact h.kept done hdone
  exact (hsuffix.eq_of_length (by rw [List.length_cons]; exact hdepth.symm)).symm

/-! ## The latest edit -/

section Splits

variable {first : Session} {steps before before' : List Step} {t : Step} {after after' : List Step}

theorem Stands.depth_lt_run (h : Stands first before t after)
    (hsplit : steps = before ++ t :: after) :
    (first.run before).depth < (first.run steps).depth := by
  rw [hsplit, run_append, run_cons]
  exact h.kept after List.prefix_rfl

/-- Whatever is done later in the run is done at a greater depth. -/
theorem Stands.depth_lt (h : Stands first before t after) (hsplit : steps = before ++ t :: after)
    (hsplit' : steps = before' ++ after') (hlater : before.length < before'.length) :
    (first.run before).depth < (first.run before').depth := by
  have hprefix : before ++ [t] <+: steps := ⟨after, by simp [hsplit]⟩
  obtain ⟨done, rfl⟩ := List.prefix_of_prefix_length_le hprefix ⟨after', hsplit'.symm⟩
    (by rw [List.length_append]; exact hlater)
  have hafter : after = done ++ after' := by
    rw [hsplit, List.append_cons, List.append_assoc (before ++ [t])] at hsplit'
    exact List.append_cancel_left hsplit'
  rw [List.append_assoc, List.singleton_append, run_append, run_cons]
  exact h.kept done (hafter ▸ List.prefix_append _ _)

variable (hfirst : first.history = [])

include hfirst

/-- **The latest edit that stands was made one below the depth that is
reached.** -/
theorem IsLatestEdit.depth_eq (h : IsLatestEdit first steps before t after) :
    (first.run steps).depth = (first.run before).depth + 1 := by
  have hreached := h.stands.depth_lt_run h.split
  obtain ⟨before', t', after', hsplit', hdepth', hstands'⟩ :=
    exists_stands hfirst steps (k := (first.run steps).depth - 1) (by omega)
  rcases Nat.lt_or_eq_of_le (h.latest before' t' after' hsplit' hstands') with hlt | heq
  · have hlower := hstands'.depth_lt hsplit' h.split hlt
    omega
  · obtain ⟨rfl, _⟩ := List.append_inj (hsplit'.symm.trans h.split) heq
    omega

/-- **Where the depth is not zero there is a latest edit that stands.** -/
theorem exists_isLatestEdit (h : 0 < (first.run steps).depth) :
    ∃ before t after, IsLatestEdit first steps before t after := by
  obtain ⟨before, t, after, hsplit, hdepth, hstands⟩ :=
    exists_stands hfirst steps (k := (first.run steps).depth - 1) (by omega)
  refine ⟨before, t, after, hsplit, hstands, fun before' t' after' hsplit' hstands' => ?_⟩
  by_contra hlater
  have hlower := hstands.depth_lt hsplit hsplit' (by omega)
  have hreached := hstands'.depth_lt_run hsplit'
  omega

/-- **Undoing shows the graph there was just before the latest edit that
stands.** -/
theorem IsLatestEdit.graph_undo (h : IsLatestEdit first steps before t after) :
    (first.run steps).undo.1.graph = (first.run before).graph := by
  have hdepth := h.depth_eq hfirst
  obtain rfl := h.split
  exact (sameGraphs_undo (h.stands.history_eq hdepth)).1

end Splits

/-! ## Runs -/

/-- **What a step other than undoing records.** An edit that hands back a graph
built anew records the one there was, and no other step records anything. -/
theorem history_step {s : Session} {t : Step} (hundo : t ≠ .undo) :
    (∀ g, t.edit? s.graph = some (.ok (.rebuilt g)) →
      (s.step t).1.graph = g.toValue ∧ (s.step t).1.history = s.graph :: s.history)
    ∧ ((∀ g, t.edit? s.graph ≠ some (.ok (.rebuilt g))) →
      (s.step t).1.graph = s.graph ∧ (s.step t).1.history = s.history) := by
  refine ⟨fun g hedit => sameGraphs_step_of_edit hedit, fun hkept => ?_⟩
  cases s.comesTo t with
  | selectNode | selectEdge | clearSelection | save => exact ⟨rfl, rfl⟩
  | rejected _ hstep =>
    rw [hstep]
    exact ⟨rfl, rfl⟩
  | @edited _ revision hedit =>
    cases revision with
    | kept => exact sameGraphs_step_of_edit hedit
    | rebuilt g => exact absurd hedit (hkept g)
  | idle | returned => exact absurd rfl hundo

/-- **Undoing is exact.** After any run of steps on a session that was started
on a configuration, with no other ids selected than texts,

* where the depth is zero, undoing changes nothing and answers so,
* where it is not, undoing answers that there was something to undo, leaves the
  depth one less, and shows the graph there was just before the latest edit that
  stands, which there is,
* of the other steps an edit records one graph if it hands back one that was
  built anew, and no other step records any,
* a step that meets a fault changes nothing, and
* undoing as often as the depth says leads to the first graph. -/
theorem undo_run {settings : Settings} {config : Value} {first : Session} {steps : List Step}
    (hfirst : ofConfig settings config = .ok first)
    (hsteps : steps.all Step.selectsNamed = true) :
    ((first.run steps).depth = 0 →
      (first.run steps).step .undo = (first.run steps, .ok (.bool false)))
    ∧ (0 < (first.run steps).depth →
      ((first.run steps).step .undo).2 = .ok (.bool true)
        ∧ ((first.run steps).step .undo).1.depth + 1 = (first.run steps).depth
        ∧ (∃ before t after, IsLatestEdit first steps before t after)
        ∧ ∀ before t after, IsLatestEdit first steps before t after →
          ((first.run steps).step .undo).1.graph = (first.run before).graph)
    ∧ (∀ t, t ≠ .undo →
      (∀ g, t.edit? (first.run steps).graph = some (.ok (.rebuilt g)) →
        ((first.run steps).step t).1.graph = g.toValue
          ∧ ((first.run steps).step t).1.history
            = (first.run steps).graph :: (first.run steps).history)
      ∧ ((∀ g, t.edit? (first.run steps).graph ≠ some (.ok (.rebuilt g))) →
        ((first.run steps).step t).1.graph = (first.run steps).graph
          ∧ ((first.run steps).step t).1.history = (first.run steps).history))
    ∧ (∀ t fault, ((first.run steps).step t).2 = .error fault →
      ((first.run steps).step t).1 = first.run steps)
    ∧ (first.run (steps ++ List.replicate (first.run steps).depth .undo)).graph = first.graph := by
  obtain ⟨hhistory, hselection⟩ := fresh_of_ofConfig hfirst
  have hlisted : (first.run steps).Listed := (listed_ofConfig hfirst).run steps
  have hnamed : (first.run steps).selection.isNamed = true :=
    isNamed_run (by rw [hselection]; rfl) (listed_ofConfig hfirst) hsteps
  refine ⟨fun hdepth => ?_, fun hdepth => ⟨?_, ?_, exists_isLatestEdit hhistory hdepth,
    fun before t after hlatest => hlatest.graph_undo hhistory⟩, fun t => history_step,
    fun t fault hfault => ?_, ?_⟩
  · rw [step, undo, List.length_eq_zero_iff.mp hdepth]
  · obtain ⟨graph, history, heq⟩ := List.exists_cons_of_length_pos hdepth
    exact (undo_of_isListed heq hnamed (hlisted.isListed_of_history heq)).1
  · show (first.run steps).undo.1.history.length + 1 = _
    rw [history_undo, List.length_tail]
    exact Nat.sub_add_cancel hdepth
  · rcases step_of_error hnamed hfault with hsame | ⟨_, graph, history, heq, hgraph, _⟩
    · exact hsame
    · exact absurd (hlisted.isListed_of_history heq) hgraph
  · have horigin := origin_run first (steps ++ List.replicate (first.run steps).depth .undo)
    rw [origin, origin, run_append, history_run_undo, depth, List.drop_length, hhistory] at horigin
    rw [run_append]
    exact horigin

/-- Selecting an edge, drawing another, and an edit that meets a fault. -/
def loopEdits : List Step :=
  [.selectEdge (.str "a-a-0"), .connect (.str "a") (.str "b") (.str "timeout") (.int 0),
    .setTransitions (.str "a") (.int 3)]

/-- Taking back an edit that was made after those on a workflow of one node. -/
theorem undo_run_loop :
    ∃ first, ofConfig .default (loopConfig (.int 1)) = .ok first
      ∧ ((first.run (loopEdits ++ [.setTransitions (.str "a") (.list [])])).step .undo).2
        = .ok (.bool true)
      ∧ ((first.run (loopEdits ++ [.setTransitions (.str "a") (.list [])])).step .undo).1.graph
        = (first.run loopEdits).graph := by
  have hfirst : ofConfig .default (loopConfig (.int 1)) = .ok (loopSession (.int 1)) := by
    decide +kernel
  have hlatest : IsLatestEdit (loopSession (.int 1))
      (loopEdits ++ [.setTransitions (.str "a") (.list [])]) loopEdits
      (.setTransitions (.str "a") (.list [])) [] := by
    refine ⟨rfl, ⟨by decide +kernel, fun done hdone => ?_⟩, fun before t after hsplit _ => ?_⟩
    · obtain rfl := List.prefix_nil.mp hdone
      decide +kernel
    · have hlength := congrArg List.length hsplit
      simp only [List.length_append, List.length_cons, List.length_nil] at hlength
      omega
  obtain ⟨_, hundo, _⟩ := @undo_run .default (loopConfig (.int 1)) _
    (loopEdits ++ [.setTransitions (.str "a") (.list [])]) hfirst rfl
  obtain ⟨hanswer, _, _, hgraph⟩ := hundo (by decide +kernel)
  exact ⟨_, hfirst, hanswer, hgraph _ _ _ hlatest⟩

end CallFlow.Session
