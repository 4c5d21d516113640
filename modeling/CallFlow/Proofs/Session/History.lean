import CallFlow.Proofs.Session.Consistency

/-!
# What undoing goes back to

A step leaves the graphs of a session as they are, or makes the graph one of
those to go back to, or goes back to the latest of them (`Advances`). In each
case the one that is gone back to last is the same (`Advances.origin_eq`), and that
is the graph the session started on (`origin_run`).

Undoing answers that there was nothing to undo exactly where there is no
graph to go back to, and then the session shows that first graph. As often as
there are graphs to go back to, and no more often, undoing leads there.
-/

namespace CallFlow.Session

/-- **The graph that is gone back to last**, or the one shown where there is
none to go back to. -/
def origin (s : Session) : Value := s.history.getLastD s.graph

/-- **What a step does to the graphs of a session**: nothing, or one is
recorded, or one is gone back to. -/
inductive Advances (s s' : Session) : Prop where
  /-- The graphs are what they were. -/
  | same (h : SameGraphs s s')
  /-- The graph is recorded before another takes its place. -/
  | recorded (h : s'.history = s.graph :: s.history)
  /-- The latest graph that was recorded is shown again. -/
  | returned (h : s.history = s'.graph :: s'.history)

namespace Advances

variable {s s' : Session}

theorem origin_eq (h : Advances s s') : s'.origin = s.origin := by
  unfold origin
  cases h with
  | same h => rw [h.1, h.2]
  | recorded h => rw [h, List.getLastD_cons]
  | returned h => rw [h, List.getLastD_cons]

theorem trans_same (h : Advances s s') {s'' : Session} (hsame : SameGraphs s' s'') :
    Advances s s'' := by
  cases h with
  | same h => exact .same ⟨hsame.1.trans h.1, hsame.2.trans h.2⟩
  | recorded h => exact .recorded (hsame.2.trans h)
  | returned h => exact .returned (by rw [hsame.1, hsame.2, h])

theorem andThen {first : Result} (h : Advances s first.1) {next : Session → Result}
    (hnext : ∀ s', SameGraphs s' (next s').1) : Advances s (Session.andThen first next).1 := by
  obtain ⟨s', answer⟩ := first
  cases answer with
  | error fault => exact h
  | ok value => exact h.trans_same (hnext s')

end Advances

theorem advances_commit (s : Session) (revision : Revision) : Advances s (s.commit revision) := by
  cases revision with
  | kept => exact .same ⟨rfl, rfl⟩
  | rebuilt g => exact .recorded rfl

theorem advances_edit (s : Session) (revision : Outcome Revision) :
    Advances s (s.edit revision).1 := by
  cases revision with
  | error fault => exact .same ⟨rfl, rfl⟩
  | ok revision => exact advances_commit s revision

/-- **Undoing shows the latest graph that was recorded**, and drops it from
those to go back to. -/
theorem sameGraphs_undo {s : Session} {graph : Value} {history : List Value}
    (h : s.history = graph :: history) :
    SameGraphs { s with graph := graph, history := history } s.undo.1 := by
  unfold undo
  rw [h]
  exact sameGraphs_andThen _ (sameGraphs_dropLost _) fun _ => ⟨rfl, rfl⟩

/-- Undoing goes back to the latest graph, if there is one. -/
theorem advances_undo (s : Session) : Advances s s.undo.1 := by
  cases h : s.history with
  | nil =>
    unfold undo
    rw [h]
    exact .same ⟨rfl, rfl⟩
  | cons graph history =>
    have hback : Advances s { s with graph := graph, history := history } := .returned h
    exact hback.trans_same (sameGraphs_undo h)

/-- **Every step leaves the graphs, records one or goes back to one**, also
where it meets a fault. -/
theorem advances_step (s : Session) (t : Step) : Advances s (s.step t).1 := by
  cases t with
  | selectNode id => exact .same ⟨rfl, rfl⟩
  | selectEdge id => exact .same ⟨rfl, rfl⟩
  | clearSelection => exact .same ⟨rfl, rfl⟩
  | connect source target condition priority => exact advances_edit s _
  | deleteEdge id => exact (advances_edit s _).andThen fun s' => sameGraphs_forgetEdge s' id
  | relabelEdge id condition priority => exact advances_edit s _
  | updateNode id updates => exact advances_edit s _
  | setTransitions id transitions => exact advances_edit s _
  | addNode kind position id draw =>
    unfold Session.step
    dsimp only
    split
    · exact advances_commit s _
    · exact .same ⟨rfl, rfl⟩
  | deleteNode id =>
    refine (advances_edit s _).andThen fun s' => ?_
    have hnode := sameGraphs_forgetNode s' id
    have hedge := sameGraphs_dropLostEdge (s'.forgetNode id)
    exact ⟨hedge.1.trans hnode.1, hedge.2.trans hnode.2⟩
  | undo => exact advances_undo s
  | save request => exact .same ⟨rfl, rfl⟩

/-- **Every run leaves the graph that is gone back to last.** -/
theorem origin_run (s : Session) (steps : List Step) : (s.run steps).origin = s.origin := by
  induction steps generalizing s with
  | nil => rfl
  | cons t rest ih =>
    show ((s.step t).1.run rest).origin = s.origin
    rw [ih, (advances_step s t).origin_eq]

/-! ## Undoing until there is nothing to undo -/

/-- **Undoing answers that there was nothing to undo** exactly where there is
no graph to go back to. -/
theorem undo_eq_false_iff (s : Session) : s.undo.2 = .ok (.bool false) ↔ s.history = [] := by
  unfold undo
  cases s.history with
  | nil => simp
  | cons graph history =>
    simp only [reduceCtorEq, iff_false]
    unfold Session.andThen
    split
    · simp
    · simp

theorem history_undo (s : Session) : s.undo.1.history = s.history.tail := by
  cases h : s.history with
  | nil =>
    unfold undo
    rw [h]
    exact h
  | cons graph history => exact (sameGraphs_undo h).2

theorem history_run_undo (s : Session) (n : Nat) :
    (s.run (List.replicate n .undo)).history = s.history.drop n := by
  induction n generalizing s with
  | zero => rfl
  | succ n ih =>
    show (s.undo.1.run (List.replicate n .undo)).history = s.history.drop (n + 1)
    rw [ih, history_undo, ← List.drop_one, List.drop_drop, Nat.add_comm]

/-- **Undoing as often as there are graphs to go back to leaves none.** -/
theorem undo_run_undo_eq_false (s : Session) :
    (s.run (List.replicate s.history.length .undo)).undo.2 = .ok (.bool false) := by
  rw [undo_eq_false_iff, history_run_undo, List.drop_length]

/-- **Where undoing answers that there was nothing to undo, the session shows
the graph it started on.** -/
theorem graph_eq_of_undo {first last : Session} (hfirst : first.history = []) (steps : List Step)
    (h : (first.run steps).undo = (last, .ok (.bool false))) : last.graph = first.graph := by
  have hnone : (first.run steps).history = [] :=
    (undo_eq_false_iff _).mp (congrArg Prod.snd h)
  have hlast : first.run steps = last := by
    unfold undo at h
    rw [hnone] at h
    exact congrArg Prod.fst h
  have horigin := origin_run first steps
  rw [origin, origin, hnone, hfirst, hlast] at horigin
  exact horigin

end CallFlow.Session
