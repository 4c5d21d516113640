import Mathlib.Data.List.Forall2
import CallFlow.Value.Basic

/-!
# Outcomes, step by step

A reading that succeeds has succeeded at each of its steps. The statements
here take an outcome apart that way: `Outcome.bind_eq_ok` a step and what
follows it, `Outcome.mapM_eq_ok` a reading of every value of a sequence. A
sequence that holds nothing but objects is read as the objects it holds.
-/

namespace CallFlow

/-- Of two sequences that match, every value of the second matches one of
the first. -/
theorem exists_of_mem_right {α β : Type} {R : α → β → Prop} {xs : List α} {ys : List β}
    (h : List.Forall₂ R xs ys) {y : β} (hy : y ∈ ys) : ∃ x ∈ xs, R x y := by
  induction h with
  | nil => cases hy
  | cons hR _ ih =>
    rcases List.mem_cons.mp hy with rfl | hy
    · exact ⟨_, List.mem_cons_self, hR⟩
    · obtain ⟨x, hx, hxy⟩ := ih hy
      exact ⟨x, List.mem_cons_of_mem _ hx, hxy⟩

theorem exists_of_mem_left {α β : Type} {R : α → β → Prop} {xs : List α} {ys : List β}
    (h : List.Forall₂ R xs ys) {x : α} (hx : x ∈ xs) : ∃ y ∈ ys, R x y :=
  exists_of_mem_right h.flip hx

theorem forall₂_imp_of_mem {α β : Type} {R S : α → β → Prop} {xs : List α} {ys : List β}
    (h : List.Forall₂ R xs ys) (himp : ∀ x ∈ xs, ∀ y, R x y → S x y) : List.Forall₂ S xs ys := by
  induction h with
  | nil => exact .nil
  | cons hR _ ih =>
    exact .cons (himp _ List.mem_cons_self _ hR)
      (ih fun x hx => himp x (List.mem_cons_of_mem _ hx))

/-- Sequences match alike under two relations that agree on their values. -/
theorem forall₂_congr_of_mem {α β : Type} {R S : α → β → Prop} {xs : List α} {ys : List β}
    (h : ∀ x ∈ xs, ∀ y ∈ ys, R x y ↔ S x y) : List.Forall₂ R xs ys ↔ List.Forall₂ S xs ys := by
  induction xs generalizing ys with
  | nil => cases ys <;> simp
  | cons x xs ih =>
    cases ys with
    | nil => simp
    | cons y ys =>
      rw [List.forall₂_cons, List.forall₂_cons, h x List.mem_cons_self y List.mem_cons_self,
        ih fun x hx y hy => h x (List.mem_cons_of_mem _ hx) y (List.mem_cons_of_mem _ hy)]

/-- Where every value of a sequence has a match, the sequence has one. -/
theorem exists_forall₂_of_forall {α β : Type} {R : α → β → Prop} {xs : List α}
    (h : ∀ x ∈ xs, ∃ y, R x y) : ∃ ys, List.Forall₂ R xs ys := by
  induction xs with
  | nil => exact ⟨[], .nil⟩
  | cons x xs ih =>
    obtain ⟨y, hy⟩ := h x List.mem_cons_self
    obtain ⟨ys, hys⟩ := ih fun x hx => h x (List.mem_cons_of_mem _ hx)
    exact ⟨y :: ys, .cons hy hys⟩

/-- Where every value that matches has a third to go with it, two sequences
that match have a third. -/
theorem exists_forall₂_of_mem {α β γ : Type} {R : α → β → Prop} {S : β → γ → Prop}
    {T : γ → α → Prop} {xs : List α} {ys : List β} (h : List.Forall₂ R xs ys)
    (hex : ∀ x ∈ xs, ∀ y, R x y → ∃ z, S y z ∧ T z x) :
    ∃ zs, List.Forall₂ S ys zs ∧ List.Forall₂ T zs xs := by
  induction h with
  | nil => exact ⟨[], .nil, .nil⟩
  | @cons x y _ _ hR _ ih =>
    obtain ⟨z, hS, hT⟩ := hex x List.mem_cons_self y hR
    obtain ⟨zs, hSs, hTs⟩ := ih fun x hx => hex x (List.mem_cons_of_mem _ hx)
    exact ⟨z :: zs, .cons hS hSs, .cons hT hTs⟩

/-- Two sequences match if both match a third between them. -/
theorem forall₂_comp {α β γ : Type} {R : α → β → Prop} {S : β → γ → Prop} {xs : List α}
    {ys : List β} {zs : List γ} (h : List.Forall₂ R xs ys) (h' : List.Forall₂ S ys zs) :
    List.Forall₂ (fun x z => ∃ y ∈ ys, R x y ∧ S y z) xs zs := by
  induction h generalizing zs with
  | nil =>
    cases h'
    exact .nil
  | @cons x y xs ys hR _ ih =>
    cases h' with
    | cons hS hrest =>
      refine .cons ⟨y, List.mem_cons_self, hR, hS⟩ ((ih hrest).imp ?_)
      rintro x z ⟨y', hmem, hboth⟩
      exact ⟨y', List.mem_cons_of_mem _ hmem, hboth⟩

theorem map_eq_map_of_forall₂ {α β γ : Type} {f : α → γ} {g : β → γ} {xs : List α} {ys : List β}
    (h : List.Forall₂ (fun x y => g y = f x) xs ys) : ys.map g = xs.map f := by
  induction h with
  | nil => rfl
  | cons hR _ ih => rw [List.map_cons, List.map_cons, hR, ih]

/-- Two sequences have the same values of a kind, if each value is of the kind
as its counterpart is, and then is its counterpart. -/
theorem filter_eq_filter_of_forall₂ {α : Type} {p : α → Bool} {xs ys : List α}
    (h : List.Forall₂ (fun x y => p y = p x ∧ (p x = true → y = x)) xs ys) :
    ys.filter p = xs.filter p := by
  induction h with
  | nil => rfl
  | @cons x y _ _ hxy _ ih =>
    rw [List.filter_cons, List.filter_cons, hxy.1, ih]
    split
    next hx => rw [hxy.2 hx]
    next => rfl

/-- Where every value of a sequence is an object that matches, the sequence
is one of objects that match. -/
theorem exists_map_obj_of_forall₂ {α : Type} {R : α → Fields → Prop} {xs : List α}
    {values : List Value}
    (h : List.Forall₂ (fun x value => ∃ fields, value = .obj fields ∧ R x fields) xs values) :
    ∃ fs : List Fields, values = fs.map Value.obj ∧ List.Forall₂ R xs fs := by
  induction h with
  | nil => exact ⟨[], rfl, .nil⟩
  | cons hx _ ih =>
    obtain ⟨fields, rfl, hR⟩ := hx
    obtain ⟨fs, rfl, hall⟩ := ih
    exact ⟨fields :: fs, rfl, .cons hR hall⟩

/-- A sequence without what is there before has nothing twice. -/
theorem nodup_eraseDups : ∀ ids : List String, ids.eraseDups.Nodup
  | [] => List.nodup_nil
  | id :: rest => by
    rw [List.eraseDups_cons, List.nodup_cons]
    refine ⟨fun hmem => ?_, nodup_eraseDups _⟩
    simpa using (List.mem_filter.mp (List.mem_eraseDups.mp hmem)).2
  termination_by ids => ids.length
  decreasing_by exact Nat.lt_succ_of_le (List.length_filter_le _ _)

/-- What is less than the greatest of some numbers is less than one of them. -/
theorem lt_foldl_max_iff {α : Type} (f : α → Nat) (xs : List α) (first n : Nat) :
    n < xs.foldl (fun greatest x => max greatest (f x)) first
      ↔ n < first ∨ ∃ x ∈ xs, n < f x := by
  induction xs generalizing first with
  | nil => simp
  | cons x rest ih =>
    rw [List.foldl_cons, ih, List.exists_mem_cons_iff, ← or_assoc]
    exact or_congr_left (by omega)

namespace Outcome

variable {α β : Type}

/-- **A step and what follows it succeed together**: the step with some
result, and what follows on that result. -/
theorem bind_eq_ok {x : Outcome α} {f : α → Outcome β} {b : β} :
    x >>= f = .ok b ↔ ∃ a, x = .ok a ∧ f a = .ok b := by
  cases x with
  | error fault => simp [bind, Except.bind]
  | ok a => simp [bind, Except.bind]

@[simp] theorem ok_bind (a : α) (f : α → Outcome β) : (.ok a : Outcome α) >>= f = f a := rfl

theorem pure_eq (a : α) : (pure a : Outcome α) = .ok a := rfl

theorem map_eq_ok {x : Outcome α} {f : α → β} {b : β} :
    f <$> x = .ok b ↔ ∃ a, x = .ok a ∧ f a = b := by
  cases x with
  | error fault => simp [Functor.map, Except.map]
  | ok a => simp [Functor.map, Except.map]

/-- **A sequence is read where each of its values is.** -/
theorem mapM_eq_ok {f : α → Outcome β} {xs : List α} {ys : List β} :
    xs.mapM f = .ok ys ↔ List.Forall₂ (fun x y => f x = .ok y) xs ys := by
  induction xs generalizing ys with
  | nil => simp [pure_eq, eq_comm]
  | cons x xs ih =>
    rw [List.mapM_cons, bind_eq_ok, List.forall₂_cons_left_iff]
    constructor
    · rintro ⟨y, hy, h⟩
      obtain ⟨ys', hys, h⟩ := bind_eq_ok.mp h
      exact ⟨y, ys', hy, ih.mp hys, (Except.ok.inj h).symm⟩
    · rintro ⟨y, ys', hy, hys, rfl⟩
      exact ⟨y, hy, bind_eq_ok.mpr ⟨ys', ih.mpr hys, rfl⟩⟩

theorem mapM_eq_mapM_of_forall₂ {f : α → Outcome β} {xs ys : List α}
    (h : List.Forall₂ (fun x y => f y = f x) xs ys) : ys.mapM f = xs.mapM f := by
  induction h with
  | nil => rfl
  | cons hxy _ ih => rw [List.mapM_cons, List.mapM_cons, hxy, ih]

theorem mapM_ok (f : α → β) (xs : List α) :
    xs.mapM (fun x => (.ok (f x) : Outcome β)) = .ok (xs.map f) :=
  List.mapM_pure

end Outcome

/-! ## Outcomes that are alike -/

/-- Whether two readings come out alike: both succeed, with results that
match, or both meet the same fault. -/
inductive Outcome.Alike {α β : Type} (R : α → β → Prop) : Outcome α → Outcome β → Prop
  /-- Both succeed. -/
  | ok {a : α} {b : β} (h : R a b) : Alike R (.ok a) (.ok b)
  /-- Both meet a fault. -/
  | error (fault : Fault) : Alike R (.error fault) (.error fault)

namespace Outcome.Alike

variable {α β γ δ : Type} {R : α → β → Prop} {S : γ → δ → Prop}

theorem refl {T : α → α → Prop} (x : Outcome α) (h : ∀ a, x = .ok a → T a a) : Alike T x x := by
  cases x with
  | ok a => exact .ok (h a rfl)
  | error fault => exact .error fault

theorem imp {T : α → β → Prop} {x : Outcome α} {y : Outcome β} (h : Alike R x y)
    (himp : ∀ a b, x = .ok a → y = .ok b → R a b → T a b) : Alike T x y := by
  cases h with
  | ok h => exact .ok (himp _ _ rfl rfl h)
  | error fault => exact .error fault

/-- **Steps that come out alike, followed by what comes out alike, come out
alike.** -/
theorem bind {x : Outcome α} {y : Outcome β} {f : α → Outcome γ} {g : β → Outcome δ}
    (h : Alike R x y) (hfg : ∀ a b, R a b → Alike S (f a) (g b)) : Alike S (x >>= f) (y >>= g) := by
  cases h with
  | ok h => exact hfg _ _ h
  | error fault => exact .error fault

/-- Sequences whose values are read alike are read alike. -/
theorem mapM {f : α → Outcome γ} {g : β → Outcome δ} {xs : List α} {ys : List β}
    (h : List.Forall₂ (fun x y => Alike S (f x) (g y)) xs ys) :
    Alike (List.Forall₂ S) (xs.mapM f) (ys.mapM g) := by
  induction h with
  | nil => exact .ok .nil
  | cons hxy _ ih =>
    rw [List.mapM_cons, List.mapM_cons]
    exact hxy.bind fun c d hcd => ih.bind fun cs ds hrest => .ok (.cons hcd hrest)

end Outcome.Alike

/-! ## Sequences of objects -/

@[simp] theorem objects_map_obj (fs : List Fields) : objects (fs.map Value.obj) = .ok fs := by
  rw [objects, List.mapM_map]
  exact (Outcome.mapM_ok id fs).trans (by rw [List.map_id])

@[simp] theorem objectsAmong_map_obj (fs : List Fields) : objectsAmong (fs.map Value.obj) = fs := by
  rw [objectsAmong, List.filterMap_map]
  exact List.filterMap_some

/-- The objects of a sequence are the fields of which it holds the object. -/
theorem mem_objectsAmong {values : List Value} {fields : Fields} :
    fields ∈ objectsAmong values ↔ Value.obj fields ∈ values := by
  rw [objectsAmong, List.mem_filterMap]
  constructor
  · rintro ⟨value, hvalue, hobj⟩
    cases value with
    | obj fs => rwa [← Option.some.inj hobj]
    | _ => cases hobj
  · exact fun hmem => ⟨_, hmem, rfl⟩

end CallFlow
