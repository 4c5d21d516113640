import CallFlow.Http.Endpoint
import CallFlow.Proofs.Http.Stability

/-!
# What is answered to a post

An endpoint that takes a body is a route of its own, so what is posted to its
path is read by its model and worked on, and one of four things is answered: what
is wrong with the body, that something failed, a value, or a refusal.

A value that is answered goes through a model as well. For the values the service
makes that is a formality: the model reads them as they are, if at all
(`Check.Exact`), and it reads every one of them that can be written. So a value is
answered as it is, or not at all (`Service.answer_modelled`).
-/

namespace CallFlow

/-- A request that posts an object to an endpoint. -/
def Endpoint.post (endpoint : Endpoint) (body : Fields) : Request := .post endpoint.path body

namespace Check

/-- **A model reads as they are** fields that stand in its order, if the check of each
does. -/
theorem exact_model {F : Framework} (hF : F.Lawful) {declared : List Field} {fields : Fields}
    (hdistinct : (declared.map Field.key).Nodup)
    (h : List.Forall₂ (fun f pair => pair.1 = Key.text f.key ∧ f.check.Exact pair.2)
      declared fields) : (F.model declared false).Exact (.obj fields) := by
  intro place read hread
  obtain ⟨fields', reads, hfields, hreads, _, rfl⟩ := hF.model.mp hread
  obtain rfl := Value.obj.inj hfields
  have hfound := get?_of_forall₂ (fun hfield => hfield.1) hdistinct h []
  rw [List.append_nil] at hfound
  have hsame : List.Forall₂ (fun read pair => read = pair) reads fields := by
    refine (forall₂_comp hreads.flip hfound).imp ?_
    rintro _ ⟨k, v⟩ ⟨f, _, ⟨read, rfl, hread⟩, ⟨hkey, hexact⟩, hget⟩
    obtain rfl : k = Key.text f.key := hkey
    rcases hread with ⟨value, hvalue, hread⟩ | ⟨hnone, _⟩
    · obtain rfl := Option.some.inj (hget.symm.trans hvalue)
      rw [hexact hread]
    · rw [hget] at hnone
      cases hnone
  rw [List.forall₂_eq_eq_eq] at hsame
  rw [hsame]
  exact congrArg Value.obj (List.append_nil fields)

/-! ## Values that can be written -/

section Written

variable {F : Framework}

theorem isText_of_allTexts {s : String} (h : Wire.allTexts F.encodes (.str s) = true) :
    IsText F (.str s) :=
  ⟨s, rfl, List.all_eq_true.mp h s List.mem_cons_self⟩

/-- An object that can be written has texts for keys. -/
theorem haveTextKeys_of_allTexts {fields : Fields}
    (h : Wire.allTexts F.encodes (.obj fields) = true)
    (hkeys : Json.textKeyed (.obj fields) = true) : HaveTextKeys F fields := by
  intro f hf
  have hform := (Wire.allTexts_obj.mp h f hf).1
  have htext := (Json.hereditary_textKeyed.mem hkeys f hf).1
  obtain ⟨k, v⟩ := f
  cases k with
  | text s => exact ⟨s, rfl, List.all_eq_true.mp hform s List.mem_cons_self⟩
  | _ => cases htext

end Written

end Check

/-! ## Posts -/

namespace Service

variable {F : Framework} {settings : Settings} {endpoint : Endpoint} {check : Check}
  {body read : Fields}

/-- **An endpoint that takes a body takes what is posted to its path.** -/
theorem takesPosts (hcheck : endpoint.body? F = some check) :
    Route.TakesPosts (routes F settings) (route F settings endpoint) check where
  mem := List.mem_map_of_mem (by cases endpoint <;> decide)
  method := by
    cases endpoint with
    | health | conditions => cases hcheck
    | _ => rfl
  body := hcheck
  apart := by
    rw [routes, List.map_map]
    show (Endpoint.all.map Endpoint.path).Nodup
    decide
  plain := by
    show (endpoint.path.toList.all fun c => c.isAlpha || c = '/') = true
    cases endpoint <;> decide

theorem modelled_eq_ok {model : Check} {value read : Value} :
    modelled model value = .ok read ↔ model [] value = .ok read := by
  rw [modelled]
  split <;> simp [*]

/-! What each endpoint does with what was read of the request. -/

theorem work_reconcile (body : Fields) : work F settings .reconcile body
    = sync (Fields.get body "graph") none >>= fun synced =>
      modelled (Schema.graph F) (synced.revision.apply (Fields.get body "graph")) >>= fun graph =>
      Reply.value <$> modelled (Schema.reconcileAnswer F) (reconciled graph synced.updated) := rfl

variable (hF : F.Lawful) (hcheck : endpoint.body? F = some check)

include hF hcheck

theorem answer_of_issues {issues : List Issue}
    (hbody : check [.field "body"] (.obj body) = .error issues) :
    answer F settings (endpoint.post body) = .refused issues :=
  hF.refuses (takesPosts hcheck) hbody

variable (hbody : check [.field "body"] (.obj body) = .ok (.obj read))

include hbody

theorem answer_of_fault {fault : Fault} (hwork : work F settings endpoint read = .error fault) :
    answer F settings (endpoint.post body) = .failed :=
  hF.fails (takesPosts hcheck) hbody hwork

theorem answer_of_value {value : Value} (hwork : work F settings endpoint read = .ok (.value value))
    (hkeys : Json.textKeyed value = true) :
    answer F settings (endpoint.post body) = F.answered 200 (Wire.sendable value) :=
  hF.answers (takesPosts hcheck) hbody hwork hkeys

/-- **A value that is read as a model is answered as it is**, if it is read by
the model whenever it can be written. -/
theorem answer_modelled {model : Check} {value : Value}
    (hwork : work F settings endpoint read = Reply.value <$> modelled model value)
    (hexact : model.Exact value)
    (haccepts : Wire.allTexts F.encodes value = true → model.Accepts value)
    (hsendable : IsSendable value) :
    answer F settings (endpoint.post body) = F.answered 200 value := by
  cases hread : model [] value with
  | error issues =>
    have hfails : modelled model value = .error .badContent := by rw [modelled, hread]
    rw [hfails] at hwork
    rw [answer_of_fault hF hcheck hbody hwork, Framework.answered, if_neg fun hform => ?_]
    obtain ⟨read, hok⟩ := haccepts hform []
    rw [hread] at hok
    cases hok
  | ok read =>
    obtain rfl : read = value := hexact hread
    have hdone : modelled model read = .ok read := by rw [modelled, hread]
    rw [hdone] at hwork
    rw [answer_of_value hF hcheck hbody hwork hsendable.1,
      Wire.sendable_of_isFinite _ hsendable.2]

omit hbody in
/-- **Where a value is answered with success, work was done** on a body that was
read. -/
theorem exists_work_of_answer {value : Value}
    (hobject : ∀ {read}, check [.field "body"] (.obj body) = .ok read →
      ∃ fields, read = .obj fields)
    (h : answer F settings (endpoint.post body) = ⟨200, .body value⟩) :
    ∃ read reply, check [.field "body"] (.obj body) = .ok (.obj read)
      ∧ work F settings endpoint read = .ok reply := by
  cases hread : check [.field "body"] (.obj body) with
  | error issues =>
    rw [answer_of_issues hF hcheck hread] at h
    cases h
  | ok read =>
    obtain ⟨fields, rfl⟩ := hobject hread
    cases hwork : work F settings endpoint fields with
    | error fault =>
      rw [answer_of_fault hF hcheck hread hwork] at h
      cases h
    | ok reply => exact ⟨fields, reply, rfl, hwork⟩

end Service

/-- **An answer with something in it was sent as it is**: every text in it has a
form. -/
theorem Framework.answered_eq {F : Framework} {status status' : Nat} {value value' : Value}
    (h : F.answered status value = ⟨status', .body value'⟩) :
    value' = value ∧ Wire.allTexts F.encodes value = true := by
  unfold answered at h
  split at h
  next hform =>
    injection h with _ hcontent
    exact ⟨(Content.body.inj hcontent).symm, hform⟩
  next =>
    injection h with _ hcontent
    cases hcontent

end CallFlow
