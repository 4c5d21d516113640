import Mathlib.Order.Bounds.Defs
import CallFlow.Proofs.Edge.Identifier
import CallFlow.Proofs.Value.Outcome

/-!
# The search for a free id comes to an end

Whoever needs an id goes from ordinal to ordinal until one is free, and nothing
counts the rounds (`Search`). The search comes to an end all the same, at the
least ordinal that is free, after no more rounds than there are taken ids. Only
one thing can end it before: a whole number of too many digits is not written,
so an ordinal may have no id at all. It is enough to know that of the ordinal
the search starts with and of the free one, as between numbers that can be
written all can (`isWritable_of_between`).

Searches that share the taken ids never come to the same one. What each of them
looks for does not matter, nor whether one of them fails (`issueAny_least`).
-/

namespace CallFlow

/-- **Between whole numbers that can be written all can.** -/
theorem isWritable_of_between {a b n : Int} (ha : isWritable a = true) (hb : isWritable b = true)
    (han : a ≤ n) (hnb : n ≤ b) : isWritable n = true := by
  simp only [isWritable, decide_eq_true_eq] at ha hb ⊢
  generalize Nat.pow 10 longestWhole = bound at *
  omega

namespace EdgeId

variable {taken : List String} {source target : String}

/-! ## The least free ordinal -/

/-- The ordinals from a given one on whose ids are free. -/
def freeFrom (taken : List String) (source target : String) (ordinal : Int) : Set Int :=
  {n | ordinal ≤ n ∧ spell source target n ∉ taken}

/-- Behind ordinals that are all taken, a free one is the least. -/
theorem isLeast_of_passed {ordinal : Int} {k : Nat}
    (hpassed : ∀ i < k, spell source target (ordinal + i) ∈ taken)
    (hfree : spell source target (ordinal + k) ∉ taken) :
    IsLeast (freeFrom taken source target ordinal) (ordinal + k) := by
  refine ⟨⟨by omega, hfree⟩, ?_⟩
  rintro n ⟨hle, hn⟩
  by_contra hlt
  obtain ⟨i, rfl⟩ : ∃ i : Nat, n = ordinal + i := ⟨(n - ordinal).toNat, by omega⟩
  exact hn (hpassed i (by omega))

/-! ## Round by round -/

/-- **The search for a free id**, from an ordinal on: after how many rounds it
ends, and with what. -/
inductive Search (taken : List String) (source target : String) : Nat → Int → Outcome Int → Prop
  /-- Where an ordinal cannot be written, the search is given up. -/
  | unwritable {n : Int} (hn : isWritable n = false) :
      Search taken source target 0 n (.error .badContent)
  /-- An ordinal whose id is free is what is looked for. -/
  | free {n : Int} (hn : isWritable n = true) (hfree : spell source target n ∉ taken) :
      Search taken source target 0 n (.ok n)
  /-- An ordinal whose id is taken gives way to the next. -/
  | next {rounds : Nat} {n : Int} {result : Outcome Int} (hn : isWritable n = true)
      (htaken : spell source target n ∈ taken)
      (rest : Search taken source target rounds (n + 1) result) :
      Search taken source target (rounds + 1) n result

/-- What a search comes to from an ordinal, where one is the least that is free:
that one, if both can be written. -/
def foundFrom (ordinal free : Int) : Outcome Int :=
  if isWritable ordinal && isWritable free then .ok free else .error .badContent

theorem foundFrom_next {ordinal free : Int} (hn : isWritable ordinal = true)
    (hlt : ordinal < free) : foundFrom (ordinal + 1) free = foundFrom ordinal free := by
  rw [foundFrom, foundFrom, hn, Bool.true_and]
  cases hfree : isWritable free with
  | false => rw [Bool.and_false]
  | true => rw [isWritable_of_between hn hfree (by omega) hlt, Bool.true_and]

/-- **The search comes to an end** behind ordinals that are all taken, at a free
one. -/
theorem exists_search {ordinal : Int} {k : Nat}
    (hpassed : ∀ i < k, spell source target (ordinal + i) ∈ taken)
    (hfree : spell source target (ordinal + k) ∉ taken) :
    ∃ rounds ≤ k, Search taken source target rounds ordinal (foundFrom ordinal (ordinal + k)) := by
  -- the induction is on the ordinals that are passed over
  induction k generalizing ordinal with
  | zero =>
    refine ⟨0, Nat.le_refl 0, ?_⟩
    rw [Int.natCast_zero, Int.add_zero] at hfree ⊢
    rw [foundFrom, Bool.and_self]
    cases hn : isWritable ordinal with
    | false => exact .unwritable hn
    | true => exact .free hn hfree
  | succ k ih =>
    cases hn : isWritable ordinal with
    | false =>
      refine ⟨0, Nat.zero_le _, ?_⟩
      rw [foundFrom, hn]
      exact .unwritable hn
    | true =>
      have htaken : spell source target ordinal ∈ taken := by simpa using hpassed 0 (by omega)
      have hpassed' : ∀ i < k, spell source target (ordinal + 1 + i) ∈ taken := by
        intro i hi
        rw [next_add]
        exact hpassed (i + 1) (by omega)
      obtain ⟨rounds, hle, hsearch⟩ := ih hpassed' (by rwa [next_add])
      refine ⟨rounds + 1, by omega, .next hn htaken ?_⟩
      rwa [foundFrom_next hn (by omega), next_add] at hsearch

/-- With fuel for all its rounds, the search ends the same. -/
theorem Search.firstFreeAny_eq {rounds fuel : Nat} {n : Int} {result : Outcome Int}
    (h : Search taken source target rounds n result) (hfuel : rounds ≤ fuel) :
    firstFreeAny taken source target fuel (.int n) = spell source target <$> result := by
  induction h generalizing fuel with
  | unwritable hn => cases fuel <;> rw [firstFreeAny, spellAny_int, hn] <;> rfl
  | free hn hfree =>
    cases fuel with
    | zero => rw [firstFreeAny, spellAny_int, if_pos hn]; rfl
    | succ fuel => rw [firstFreeAny, spellAny_int, if_pos hn, Outcome.ok_bind, if_neg hfree]; rfl
  | next hn htaken _ ih =>
    obtain ⟨fuel, rfl⟩ := Nat.exists_eq_succ_of_ne_zero (n := fuel) (by omega)
    rw [firstFreeAny, spellAny_int, if_pos hn, Outcome.ok_bind, if_pos htaken]
    exact ih (by omega)

theorem Search.issueAny_eq {rounds : Nat} {ordinal : Int} {result : Outcome Int}
    (h : Search taken source target rounds ordinal result)
    (hrounds : rounds ≤ taken.toFinset.card) :
    issueAny (some taken) source target (.int ordinal)
      = (fun k => (spell source target k, some (spell source target k :: taken))) <$> result := by
  rw [issueAny, h.firstFreeAny_eq (hrounds.trans taken.toFinset_card_le)]
  cases result <;> rfl

/-- **From any ordinal on there is a least free one**, which the search comes to in
no more rounds than there are taken ids. -/
theorem exists_isLeast (taken : List String) (source target : String) (ordinal : Int) :
    ∃ k, IsLeast (freeFrom taken source target ordinal) k
      ∧ firstFree taken source target taken.length ordinal = k
      ∧ ∃ rounds ≤ taken.toFinset.card,
        Search taken source target rounds ordinal (foundFrom ordinal k) := by
  obtain ⟨m, hm, hpassed, hfree⟩ := firstFree_passes taken source target ordinal
  obtain ⟨rounds, hle, hsearch⟩ := exists_search hpassed hfree
  exact ⟨ordinal + m, isLeast_of_passed hpassed hfree, hm, rounds,
    hle.trans (passed_le_card hpassed), hsearch⟩

/-! ## One search after the other -/

/-- What an id is looked for with: the two ends, and the ordinal to start with. -/
structure Request where
  /-- The id of the node the edge starts from. -/
  source : String
  /-- The id of the node it leads to. -/
  target : String
  /-- The first ordinal that is tried. -/
  ordinal : Int

/-- Answers requests one after the other. An id that is handed out is taken for
the requests behind it; a request that fails takes none. -/
def answerAll (taken : List String) : List Request → List (Outcome String) × List String
  | [] => ([], taken)
  | request :: rest =>
    match issueAny (some taken) request.source request.target (.int request.ordinal) with
    | .ok (id, after) =>
      let (answers, last) := answerAll (after.getD taken) rest
      (.ok id :: answers, last)
    | .error fault =>
      let (answers, last) := answerAll taken rest
      (.error fault :: answers, last)

/-- The ids among some answers. -/
def idsAmong (answers : List (Outcome String)) : List String :=
  answers.filterMap Except.toOption

/-- An id that is handed out was free, and is the one that is taken then. -/
theorem issueAny_eq_ok {ordinal : Int} {id : String} {after : Option (List String)}
    (h : issueAny (some taken) source target (.int ordinal) = .ok (id, after)) :
    id ∉ taken ∧ after = some (id :: taken) := by
  obtain ⟨k, hk, _, rounds, hrounds, hsearch⟩ := exists_isLeast taken source target ordinal
  rw [hsearch.issueAny_eq hrounds] at h
  obtain ⟨found, hfound, hboth⟩ := Outcome.map_eq_ok.mp h
  obtain ⟨rfl, rfl⟩ := Prod.mk.inj hboth
  rw [foundFrom] at hfound
  split at hfound
  next =>
    obtain rfl := Except.ok.inj hfound
    exact ⟨hk.1.2, rfl⟩
  next => cases hfound

/-- **No id is handed out twice**, and those that are handed out are taken. -/
theorem answerAll_spec (taken : List String) (requests : List Request) :
    (answerAll taken requests).1.length = requests.length
      ∧ (idsAmong (answerAll taken requests).1).Nodup
      ∧ (∀ id ∈ idsAmong (answerAll taken requests).1, id ∉ taken)
      ∧ (answerAll taken requests).2
        = (idsAmong (answerAll taken requests).1).reverse ++ taken := by
  -- what the induction carries is the list of taken ids: it grows by each that is handed out
  induction requests generalizing taken with
  | nil => exact ⟨rfl, List.nodup_nil, fun id hid => absurd hid List.not_mem_nil, rfl⟩
  | cons request rest ih =>
    rw [answerAll]
    split
    next id after hissue =>
      obtain ⟨hfree, rfl⟩ := issueAny_eq_ok hissue
      obtain ⟨hlength, hnodup, hfresh, hlast⟩ := ih (id :: taken)
      obtain ⟨hnodup', hfresh'⟩ := fresh_cons hfree ⟨hnodup, hfresh⟩
      refine ⟨congrArg (· + 1) hlength, hnodup', hfresh', ?_⟩
      rw [List.append_cons, ← List.reverse_cons] at hlast
      exact hlast
    next fault hissue =>
      obtain ⟨hlength, hrest⟩ := ih taken
      exact ⟨congrArg (· + 1) hlength, hrest⟩

/-- Two pairs of ends that spell the same ids, and one of them a second time. -/
example : answerAll ["a-b-c-1"] [⟨"a-b", "c", 0⟩, ⟨"a", "b-c", 0⟩, ⟨"a", "b-c", -1⟩]
    = ([.ok "a-b-c-0", .ok "a-b-c-2", .ok "a-b-c--1"],
      ["a-b-c--1", "a-b-c-2", "a-b-c-0", "a-b-c-1"]) := by
  decide +kernel

/-- **Looking for a free id.** From any ordinal on there is a least free one.

* Where ordinals are counts, its id is the one handed out, and taken then.
* The search itself is not bounded. It ends all the same, after no more rounds
  than there are taken ids: with that ordinal if it and the first one can be
  written, and with a fault if not.
* So an ordinal handed in as a value gets the id of the least free one, and that
  id and no other is taken then; or it gets none.

Requests one after the other are all answered. The ids among the answers are
distinct, none of them was taken, and they are what is taken then. -/
theorem issueAny_least (taken : List String) :
    (∀ source target ordinal, ∃ k, IsLeast (freeFrom taken source target ordinal) k
      ∧ allocate taken source target ordinal
        = (spell source target k, spell source target k :: taken)
      ∧ (∃ rounds ≤ taken.toFinset.card,
          Search taken source target rounds ordinal (foundFrom ordinal k))
      ∧ issueAny (some taken) source target (.int ordinal)
        = if isWritable ordinal && isWritable k then
            .ok (spell source target k, some (spell source target k :: taken))
          else .error .badContent)
    ∧ ∀ requests, (answerAll taken requests).1.length = requests.length
      ∧ (idsAmong (answerAll taken requests).1).Nodup
      ∧ (∀ id ∈ idsAmong (answerAll taken requests).1, id ∉ taken)
      ∧ (answerAll taken requests).2
        = (idsAmong (answerAll taken requests).1).reverse ++ taken := by
  refine ⟨fun source target ordinal => ?_, answerAll_spec taken⟩
  obtain ⟨k, hk, hfirst, rounds, hrounds, hsearch⟩ := exists_isLeast taken source target ordinal
  refine ⟨k, hk, by rw [allocate, hfirst], ⟨rounds, hrounds, hsearch⟩, ?_⟩
  rw [hsearch.issueAny_eq hrounds, foundFrom]
  split <;> rfl

/-- The last whole number that can be written. -/
def lastWritable : Int := (Nat.pow 10 longestWhole : Int) - 1

/-- Behind the last whole number that can be written is one that cannot. -/
theorem isWritable_lastWritable :
    isWritable lastWritable = true ∧ isWritable (lastWritable + 1) = false := by
  -- the power is not worked out: of any number of digits the same is so
  have hends : ∀ digits : Nat, ((Nat.pow 10 digits : Int) - 1).natAbs < Nat.pow 10 digits
      ∧ ¬ ((Nat.pow 10 digits : Int) - 1 + 1).natAbs < Nat.pow 10 digits := by
    intro digits
    have hpos : 0 < Nat.pow 10 digits := Nat.pow_pos (by decide)
    omega
  obtain ⟨hlast, hnext⟩ := hends longestWhole
  exact ⟨decide_eq_true hlast, decide_eq_false hnext⟩

/-- **A search that is given up**: the id of the last ordinal that can be written is
taken, and the next ordinal is free but gets no id. -/
theorem issueAny_lastWritable :
    isWritable lastWritable = true
      ∧ IsLeast (freeFrom [spell "a" "b" lastWritable] "a" "b" lastWritable) (lastWritable + 1)
      ∧ issueAny (some [spell "a" "b" lastWritable]) "a" "b" (.int lastWritable)
        = .error .badContent := by
  have hpassed : ∀ i < 1, spell "a" "b" (lastWritable + (i : Nat))
      ∈ [spell "a" "b" lastWritable] := by
    intro i hi
    obtain rfl := Nat.lt_one_iff.mp hi
    simp
  have hfree : spell "a" "b" (lastWritable + (1 : Nat)) ∉ [spell "a" "b" lastWritable] := by
    rw [List.mem_singleton]
    intro h
    have := spell_injective "a" "b" h
    omega
  refine ⟨isWritable_lastWritable.1, isLeast_of_passed hpassed hfree, ?_⟩
  obtain ⟨rounds, hle, hsearch⟩ := exists_search hpassed hfree
  rw [hsearch.issueAny_eq (hle.trans (passed_le_card hpassed)), foundFrom, Int.natCast_one,
    isWritable_lastWritable.2, Bool.and_false]
  rfl

end EdgeId

end CallFlow
