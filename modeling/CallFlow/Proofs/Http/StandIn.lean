import CallFlow.Packages.Serving
import CallFlow.Proofs.Http.Answers

/-!
# The stand-in does what is relied on

The framework the service is run on is lawful (`lawful_standIn`). So what is proved
of the service over every lawful framework is true of the service as it is run,
and there is a framework it is true of.

Of how values are read the laws of lists and models take the most work, since
the stand-in goes through all items and fields to collect what is wrong with
them, and only what is right is described by the laws (`Checked.all_eq_ok`).
-/

namespace CallFlow

namespace Checked

variable {α β : Type}

theorem map_eq_ok {x : Checked α} {f : α → β} {b : β} :
    x.map f = .ok b ↔ ∃ a, x = .ok a ∧ f a = b := by
  cases x <;> simp [Except.map]

/-- **Several checks pass if each does.** -/
theorem all_eq_ok {results : List (Checked α)} {values : List α} :
    all results = .ok values
      ↔ List.Forall₂ (fun result value => result = .ok value) results values := by
  induction results generalizing values with
  | nil => simp [all, eq_comm]
  | cons result rest ih =>
    rw [List.forall₂_cons_left_iff]
    cases result with
    | error issues =>
      -- whatever else is found, the issues are reported
      have hfails : all (.error issues :: rest) ≠ .ok values := by
        rw [all]
        cases all rest <;> exact fun h => by cases h
      constructor
      · exact fun h => absurd h hfails
      · rintro ⟨value, values', h, _⟩
        cases h
    | ok value =>
      rw [all]
      cases hrest : all rest with
      | error issues =>
        constructor
        · exact fun h => by cases h
        · rintro ⟨value', values', _, hvalues, _⟩
          rw [ih.mpr hvalues] at hrest
          cases hrest
      | ok more =>
        constructor
        · intro h
          obtain rfl := Except.ok.inj h
          exact ⟨value, more, rfl, ih.mp hrest, rfl⟩
        · rintro ⟨value', values', hvalue, hvalues, rfl⟩
          rw [Except.ok.inj hvalue, Except.ok.inj ((ih.mpr hvalues).symm.trans hrest)]

end Checked

namespace Packages

/-! ## Single values -/

theorem isText_standIn {value : Value} : IsText .standIn value ↔ ∃ s, value = .str s :=
  exists_congr fun _ => and_iff_left rfl

theorem text_eq_ok {place : List Place} {value read : Value} :
    text place value = .ok read ↔ IsText .standIn value ∧ read = value := by
  rw [isText_standIn]
  cases value with
  | str s => simp [text, eq_comm]
  | _ => simp [text, Checked.fail]

/-- **What is read as a number is one**, and numbers are read as they are. -/
theorem settles_number : number.Settles IsNumber where
  yields {place value read} h := by
    have hneither : ∀ {whole fraction}, neitherNumber whole fraction place ≠ .ok read :=
      fun h => by cases h
    cases value with
    | int n => exact ⟨.int n, (Except.ok.inj h).symm⟩
    | float x => exact ⟨.float x, (Except.ok.inj h).symm⟩
    | bool b => exact ⟨.int _, (Except.ok.inj h).symm⟩
    | str s =>
      unfold number at h
      dsimp only at h
      split at h
      · exact ⟨.int _, (Except.ok.inj h).symm⟩
      · exact ⟨.float _, (Except.ok.inj h).symm⟩
      · exact absurd h hneither
      · exact absurd h hneither
    | _ => exact absurd h hneither
  keeps _ h := by
    obtain ⟨n, rfl⟩ := h
    cases n <;> rfl

/-- **What is read as a flag is one**, and flags are read as they are. -/
theorem settles_flag : flag.Settles IsFlag where
  yields {place value read} h := by
    have hwhole : ∀ {n}, flagOfWhole place n = .ok read → IsFlag read := by
      intro n h
      unfold flagOfWhole at h
      split at h
      · exact ⟨false, (Except.ok.inj h).symm⟩
      split at h
      · exact ⟨true, (Except.ok.inj h).symm⟩
      · cases h
    have hnumber : ∀ n, flagOfNumber place n = .ok read → IsFlag read := by
      intro n h
      unfold flagOfNumber at h
      split at h
      · split at h
        · exact hwhole h
        · cases h
      · split at h
        · split at h
          · exact hwhole h
          · cases h
        · cases h
    cases value with
    | bool b => exact ⟨b, (Except.ok.inj h).symm⟩
    | int n => exact hnumber (.int n) h
    | float x => exact hnumber (.float x) h
    | str s =>
      unfold flag at h
      dsimp only at h
      split at h
      · exact ⟨_, (Except.ok.inj h).symm⟩
      · cases h
    | _ => cases h
  keeps _ h := by
    obtain ⟨b, rfl⟩ := h
    rfl

/-! ## Lists and objects -/

theorem itemsFrom_eq_map (check : Check) (place : List Place) (items : List Value) (index : Nat) :
    itemsFrom check place index items
      = (items.zipIdx index).map fun item => check (place ++ [.item item.2]) item.1 := by
  induction items generalizing index with
  | nil => rfl
  | cons item rest ih => rw [itemsFrom, ih, List.zipIdx_cons, List.map_cons]

/-- A list is read item by item, and nothing else is read. -/
theorem listOf_eq_ok {check : Check} {place : List Place} {value read : Value} :
    listOf check place value = .ok read ↔ ∃ items reads, value = .list items ∧ read = .list reads
      ∧ List.Forall₂ (fun item v => check (place ++ [.item item.2]) item.1 = .ok v)
        items.zipIdx reads := by
  cases value with
  | list items =>
    rw [listOf, Checked.map_eq_ok]
    simp only [Checked.all_eq_ok, itemsFrom_eq_map, List.forall₂_map_left_iff, Value.list.injEq,
      exists_and_left, exists_eq_left']
    exact exists_congr fun reads => and_comm.trans (and_congr_left fun _ => eq_comm)
  | _ => simp [listOf, Checked.fail]

theorem keyIssues_eq_nil {kind : IssueKind} {place : List Place} {fields : Fields} :
    keyIssues kind place fields = [] ↔ HaveTextKeys .standIn fields := by
  have hkey : ∀ key : Key, key.isText = true ↔ ∃ s, key = Key.text s ∧ Framework.standIn.encodes s := by
    intro key
    cases key <;> simp [Key.isText, Framework.standIn]
  rw [keyIssues, List.map_eq_nil_iff, List.filter_eq_nil_iff, HaveTextKeys]
  exact forall₂_congr fun f _ => by rw [← hkey]; simp

/-- An object is read as it is, and nothing else is read. -/
theorem object_eq_ok {place : List Place} {value read : Value} :
    object place value = .ok read ↔ IsObject .standIn value ∧ read = value := by
  cases value with
  | obj fields =>
    have hobject : IsObject .standIn (.obj fields) ↔ keyIssues .textExpected place fields = [] := by
      rw [keyIssues_eq_nil]
      exact ⟨fun ⟨_, heq, hkeys⟩ => Value.obj.inj heq ▸ hkeys, fun hkeys => ⟨fields, rfl, hkeys⟩⟩
    rw [hobject, object]
    split
    next hnone => simp [hnone, eq_comm]
    next hsome => exact ⟨fun h => (by cases h), fun h => absurd h.1 hsome⟩
  | _ => simp [object, Checked.fail, IsObject]

theorem readField_eq_ok {place : List Place} {fields : Fields} {f : Check.Field}
    {pair : Key × Value} : readField place fields f = .ok pair ↔ f.Reads place fields pair := by
  rw [readField, Check.Field.Reads]
  cases Fields.get? fields f.key with
  | some value =>
    rw [Checked.map_eq_ok]
    exact exists_congr fun read => by simp [and_comm, eq_comm]
  | none => cases f.default <;> simp [Checked.fail, eq_comm]

/-- An object is read as a model field by field, and nothing else is read. -/
theorem model_eq_ok {declared : List Check.Field} {keepsOthers : Bool} {place : List Place}
    {value read : Value} :
    model declared keepsOthers place value = .ok read ↔ ∃ fields reads, value = .obj fields
      ∧ List.Forall₂ (Check.Field.Reads place fields) declared reads
      ∧ (keepsOthers = true → HaveTextKeys .standIn fields)
      ∧ read = .obj (reads ++ if keepsOthers then Check.others declared fields else []) := by
  cases value with
  | obj fields =>
    have hreads : ∀ reads, Checked.all (declared.map (readField place fields)) = .ok reads
        ↔ List.Forall₂ (Check.Field.Reads place fields) declared reads := by
      intro reads
      rw [Checked.all_eq_ok, List.forall₂_map_left_iff]
      simp only [readField_eq_ok]
    have hkeys : (if keepsOthers then keyIssues .keyInvalid place fields else []) = []
        ↔ (keepsOthers = true → HaveTextKeys .standIn fields) := by
      cases keepsOthers <;> simp [keyIssues_eq_nil]
    simp only [← hreads, ← hkeys, Value.obj.injEq, exists_and_left, exists_eq_left', model]
    split
    next hall hnone => simp [hall, hnone, eq_comm]
    next hall hsome => exact ⟨fun h => (by cases h), fun ⟨_, _, hnone, _⟩ => absurd hnone hsome⟩
    next hall => simp [hall]
  | _ => simp [model, Checked.fail]

/-! ## Requests -/

/-- **The route of a plain path** is the one that has it, if no two have one path. -/
theorem routeOf?_eq_some {routes : List Route} {route : Route} (hmem : route ∈ routes)
    (hapart : (routes.map Route.path).Nodup)
    (hplain : (route.path.toList.all fun c => c.isAlpha || c = '/') = true) :
    routeOf? routes route.path = some route := by
  have hbreak : withoutFinalBreak route.path = route.path := by
    rw [withoutFinalBreak, if_neg]
    intro hlast
    exact absurd (List.all_eq_true.mp hplain '\n' (List.mem_of_getLast? hlast)) (by decide)
  rw [routeOf?, hbreak]
  induction routes with
  | nil => cases hmem
  | cons first rest ih =>
    rw [List.map_cons, List.nodup_cons] at hapart
    rcases List.mem_cons.mp hmem with rfl | hmem
    · exact List.find?_cons_of_pos (by simp)
    · have hne : first.path ≠ route.path := fun heq => hapart.1 (heq ▸ List.mem_map_of_mem hmem)
      rw [List.find?_cons_of_neg (by simpa using hne)]
      exact ih hmem hapart.2

theorem serve_standIn : Framework.standIn.serve = serve := rfl

/-- **What is posted to a route is read and worked on.** -/
theorem serve_post {routes : List Route} {route : Route} {check : Check} {body : Fields}
    (htakes : Route.TakesPosts routes route check) :
    Framework.standIn.serve routes (.post route.path body)
      = withBody route check (some (.obj body)) := by
  have hupper : UpperCase.ofText "POST" = "POST" := by decide
  have hroute := routeOf?_eq_some htakes.mem htakes.apart htakes.plain
  rw [serve_standIn]
  unfold serve Request.post
  dsimp only
  rw [hupper, if_neg (by decide), serveAt, hroute]
  dsimp only
  rw [if_pos htakes.method, run, htakes.body]

theorem withBody_of_ok {route : Route} {check : Check} {body read : Fields}
    (hbody : check [.field "body"] (.obj body) = .ok (.obj read)) :
    withBody route check (some (.obj body)) = answerTo (route.run read) := by
  unfold withBody
  dsimp only
  rw [hbody]
  rfl

end Packages

theorem answered_standIn (status : Nat) (value : Value) :
    Framework.standIn.answered status value = ⟨status, .body value⟩ :=
  if_pos (Wire.allTexts_of_forall (fun _ => rfl) value)

/-- **The framework the service is run on is lawful.** -/
theorem lawful_standIn : Framework.standIn.Lawful where
  text := Packages.text_eq_ok
  number := Packages.settles_number
  flag := Packages.settles_flag
  object := Packages.object_eq_ok
  oneOf _ hmem := if_pos hmem
  nullable_null _ _ := rfl
  nullable_of_ne {_ _ value} hne := by
    cases value with
    | null => exact absurd rfl hne
    | _ => rfl
  listOf := Packages.listOf_eq_ok
  model := Packages.model_eq_ok
  encodes _ := rfl
  refuses htakes hbody := by
    rw [Packages.serve_post htakes]
    unfold Packages.withBody
    dsimp only
    rw [hbody]
  fails htakes hbody hrun := by
    rw [Packages.serve_post htakes, Packages.withBody_of_ok hbody, hrun]
    rfl
  answers htakes hbody hrun _ := by
    rw [Packages.serve_post htakes, Packages.withBody_of_ok hbody, hrun, answered_standIn]
    rfl
  declines htakes hbody hrun _ := by
    rw [Packages.serve_post htakes, Packages.withBody_of_ok hbody, hrun, answered_standIn]
    rfl

/-- What the service is posted where it is run is read and worked on. -/
theorem Service.answer_standIn (settings : Settings) {endpoint : Endpoint} {check : Check}
    (body : Fields) (hcheck : endpoint.body? .standIn = some check) :
    answer .standIn settings (endpoint.post body)
      = Packages.withBody (route .standIn settings endpoint) check (some (.obj body)) := by
  have htakes : Route.TakesPosts (routes .standIn settings) (route .standIn settings endpoint) check :=
    takesPosts hcheck
  have hposted := @Packages.serve_post _ _ _ body htakes
  rw [answer, Endpoint.post]
  exact hposted

end CallFlow
