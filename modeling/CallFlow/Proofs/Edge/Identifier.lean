import Mathlib.Data.Finset.Card
import CallFlow.Edge.Identifier
import CallFlow.Proofs.Number.Numeral

/-!
# Ids are handed out once

The search for a free id ends at the first ordinal, from the given one on,
whose spelling nobody has taken (`firstFree_passes`). It ends there, and not
where it runs out of ordinals to try, because different ordinals are spelled
differently: among one more ordinals than there are taken ids one is free.
An id that is handed out is therefore never one that was taken
(`allocate_not_mem`).
-/

namespace CallFlow

namespace EdgeId

variable {taken : List String} {source target : String}

theorem spell_injective (source target : String) : Function.Injective (spell source target) := by
  intro a b h
  have htail := String.append_right_inj _ |>.mp h
  refine intText_injective ?_
  simpa using congrArg String.toList htail

theorem next_add (ordinal : Int) (i : Nat) :
    ordinal + 1 + (i : Int) = ordinal + ((i + 1 : Nat) : Int) := by
  omega

/-- **Where the search for a free id ends**: after `k` ordinals that are all
taken, at one that is free unless the fuel has run out. -/
theorem firstFree_spec (taken : List String) (source target : String) (fuel : Nat)
    (ordinal : Int) :
    ∃ k ≤ fuel, firstFree taken source target fuel ordinal = ordinal + k
      ∧ (∀ i < k, spell source target (ordinal + i) ∈ taken)
      ∧ (k < fuel → spell source target (ordinal + k) ∉ taken) := by
  induction fuel generalizing ordinal with
  | zero => exact ⟨0, Nat.le_refl 0, by simp [firstFree], by simp, by simp⟩
  | succ fuel ih =>
    rw [firstFree]
    by_cases hmem : spell source target ordinal ∈ taken
    · obtain ⟨k, hk, hres, htaken, hfree⟩ := ih (ordinal + 1)
      rw [if_pos hmem]
      refine ⟨k + 1, by omega, by rw [hres, next_add], ?_, fun hlt => ?_⟩
      · intro i hi
        cases i with
        | zero => simpa using hmem
        | succ i =>
          rw [← next_add]
          exact htaken i (by omega)
      · rw [← next_add]
        exact hfree (by omega)
    · rw [if_neg hmem]
      exact ⟨0, by omega, by simp, by simp, fun _ => by simpa using hmem⟩

/-- Ordinals in a row whose ids are all taken are no more than there are taken
ids. -/
theorem passed_le_card {ordinal : Int} {k : Nat}
    (hpassed : ∀ i < k, spell source target (ordinal + i) ∈ taken) : k ≤ taken.toFinset.card := by
  have hmaps : ∀ i ∈ Finset.range k, spell source target (ordinal + i) ∈ taken.toFinset :=
    fun i hi => List.mem_toFinset.mpr (hpassed i (Finset.mem_range.mp hi))
  have hinj : Set.InjOn (fun i : Nat => spell source target (ordinal + i)) (Finset.range k) := by
    intro i _ j _ h
    have := spell_injective source target h
    omega
  simpa using Finset.card_le_card_of_injOn _ hmaps hinj

/-- **The search for a free id finds one**: it passes over ordinals that are all
taken, and ends at one that is free. -/
theorem firstFree_passes (taken : List String) (source target : String) (ordinal : Int) :
    ∃ k : Nat, firstFree taken source target taken.length ordinal = ordinal + k
      ∧ (∀ i < k, spell source target (ordinal + i) ∈ taken)
      ∧ spell source target (ordinal + k) ∉ taken := by
  obtain ⟨k, hk, hres, hpassed, hfree⟩ := firstFree_spec taken source target taken.length ordinal
  refine ⟨k, hres, hpassed, fun hmem => ?_⟩
  -- if the fuel had run out, one more ordinal would be taken than there are taken ids
  have hle : k + 1 ≤ taken.toFinset.card := passed_le_card fun i hi => by
    rcases Nat.lt_succ_iff_lt_or_eq.mp hi with hlt | rfl
    · exact hpassed i hlt
    · exact hmem
  have hcard := taken.toFinset_card_le
  exact hfree (by omega) hmem

theorem firstFree_not_mem (taken : List String) (source target : String) (ordinal : Int) :
    spell source target (firstFree taken source target taken.length ordinal) ∉ taken := by
  obtain ⟨k, hres, _, hfree⟩ := firstFree_passes taken source target ordinal
  rwa [hres]

/-- **No id is handed out twice.** -/
theorem allocate_not_mem (taken : List String) (source target : String) (ordinal : Int) :
    (allocate taken source target ordinal).1 ∉ taken :=
  firstFree_not_mem taken source target ordinal

/-- **An id that is handed out first is met by none behind it**, where it is taken
for those. -/
theorem fresh_cons {id : String} {ids : List String} (hfree : id ∉ taken)
    (hids : ids.Nodup ∧ ∀ x ∈ ids, x ∉ id :: taken) :
    (id :: ids).Nodup ∧ ∀ x ∈ id :: ids, x ∉ taken := by
  obtain ⟨hnodup, hfresh⟩ := hids
  refine ⟨List.nodup_cons.mpr ⟨fun hmem => hfresh id hmem List.mem_cons_self, hnodup⟩, ?_⟩
  intro x hx
  rcases List.mem_cons.mp hx with rfl | hx
  · exact hfree
  · exact fun hmem => hfresh x hx (List.mem_cons_of_mem _ hmem)

end EdgeId

end CallFlow
