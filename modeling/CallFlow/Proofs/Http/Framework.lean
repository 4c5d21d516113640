import CallFlow.Http.Framework
import CallFlow.Proofs.Http.Sendable

/-!
# What is relied on of the packages

What the service does depends on how its packages read values and serve routes.
Of each of these things a little is relied on, and only what its documentation
says (`Framework.Lawful`). A value of the kind a field declares is read as it is,
and what is read is of that kind; how lenient a package is about other values,
what it reports as wrong with them, and how it answers requests for which there
is no route, is left open.

The law of models says field by field what becomes of an object. So a field
of a kind that its check *settles* (`Check.Settles`) reads afterwards as before,
or as the default where it was not there (`Check.Field.Reads.settles`).
-/

namespace CallFlow

/-! ## Kinds of values -/

/-- Whether a text is of plain characters. -/
def isPlain (s : String) : Bool := s.toList.all fun c => c.toNat < 128

/-- Whether a value is a text that has a form in UTF-8. -/
def IsText (F : Framework) (value : Value) : Prop := ∃ s, value = .str s ∧ F.encodes s = true

/-- Whether a value is a number; true and false are none. -/
def IsNumber (value : Value) : Prop := ∃ n, value = .ofNumber n

/-- Whether a value is a flag. -/
def IsFlag (value : Value) : Prop := ∃ b, value = .bool b

/-- Whether the fields of an object stand under texts that have a form in UTF-8. -/
def HaveTextKeys (F : Framework) (fields : Fields) : Prop :=
  ∀ f ∈ fields, ∃ s, f.1 = Key.text s ∧ F.encodes s = true

/-- Whether a value is an object, with such texts for keys. -/
def IsObject (F : Framework) (value : Value) : Prop :=
  ∃ fields, value = .obj fields ∧ HaveTextKeys F fields

/-- Whether a value is an object of a kind. -/
def IsObjectOf (Q : Fields → Prop) (value : Value) : Prop := ∃ fields, value = .obj fields ∧ Q fields

/-- Whether a value is a list of objects of a kind. -/
def IsListOf (Q : Fields → Prop) (value : Value) : Prop :=
  ∃ items : List Fields, value = .list (items.map Value.obj) ∧ ∀ item ∈ items, Q item

/-- Whether a value is null or of a kind. -/
def OrNull (Q : Value → Prop) (value : Value) : Prop := value = .null ∨ Q value

/-- Whether what stands under a key is of a kind, if anything stands there. -/
def IfStated (Q : Value → Prop) (fields : Fields) (key : String) : Prop :=
  ∀ value, Fields.get? fields key = some value → Q value

/-- Whether something of a kind stands under a key. -/
def Stated (Q : Value → Prop) (fields : Fields) (key : String) : Prop :=
  ∃ value, Fields.get? fields key = some value ∧ Q value

theorem IfStated.imp {Q R : Value → Prop} {fields : Fields} {key : String}
    (h : IfStated Q fields key) (himp : ∀ value, Q value → R value) : IfStated R fields key :=
  fun value hread => himp value (h value hread)

theorem Stated.imp {Q R : Value → Prop} {fields : Fields} {key : String}
    (h : Stated Q fields key) (himp : ∀ value, Q value → R value) : Stated R fields key := by
  obtain ⟨value, hread, hQ⟩ := h
  exact ⟨value, hread, himp value hQ⟩

theorem Stated.ifStated {Q : Value → Prop} {fields : Fields} {key : String}
    (h : Stated Q fields key) : IfStated Q fields key := by
  obtain ⟨value, hread, hQ⟩ := h
  intro value' hread'
  rw [← Option.some.inj (hread.symm.trans hread')]
  exact hQ

theorem IfStated.of_none {Q : Value → Prop} {fields : Fields} {key : String}
    (h : Fields.get? fields key = none) : IfStated Q fields key := by
  intro value hread
  rw [h] at hread
  cases hread

theorem IfStated.orNull_get {Q : Value → Prop} {fields : Fields} {key : String}
    (h : IfStated (OrNull Q) fields key) : OrNull Q (Fields.get fields key) := by
  rw [Fields.get]
  cases hread : Fields.get? fields key with
  | none => exact .inl rfl
  | some value => exact h value hread

/-- Writing under a text leaves texts for keys. -/
theorem HaveTextKeys.put {F : Framework} {fields : Fields} (h : HaveTextKeys F fields) {key : String}
    (hkey : F.encodes key = true) (value : Value) : HaveTextKeys F (Fields.put fields key value) := by
  induction fields with
  | nil => exact List.forall_mem_singleton.mpr ⟨key, rfl, hkey⟩
  | cons f rest ih =>
    obtain ⟨k, v⟩ := f
    obtain ⟨hfirst, hrest⟩ := List.forall_mem_cons.mp h
    rw [Fields.put]
    split
    · exact List.forall_mem_cons.mpr ⟨hfirst, hrest⟩
    · exact List.forall_mem_cons.mpr ⟨hfirst, ih hrest⟩

/-! ## What is said of a check -/

namespace Check

/-- Whether a check lets a value pass, wherever it stands. -/
def Accepts (check : Check) (value : Value) : Prop := ∀ place, ∃ read, check place value = .ok read

/-- Whether a check hands a value back as it is, wherever it stands. -/
def Keeps (check : Check) (value : Value) : Prop := ∀ place, check place value = .ok value

/-- **Whether a check reads a value as it is**, if it reads it. -/
def Exact (check : Check) (value : Value) : Prop :=
  ∀ ⦃place : List Place⦄ ⦃read : Value⦄, check place value = .ok read → read = value

/-- **Whether a check settles that a value is of a kind**: it hands back values
of the kind only, and those it is given as they are. -/
structure Settles (check : Check) (Q : Value → Prop) : Prop where
  /-- What is handed back is of the kind. -/
  yields {place : List Place} {value read : Value} : check place value = .ok read → Q read
  /-- What is of the kind is handed back as it is. -/
  keeps {value : Value} (place : List Place) : Q value → check place value = .ok value

/-- **What becomes of a field of an object**: what stands there is read by the
check, or else the default is put there. -/
def Field.Reads (place : List Place) (fields : Fields) (f : Field) (pair : Key × Value) : Prop :=
  ∃ read, pair = (Key.text f.key, read)
    ∧ ((∃ value, Fields.get? fields f.key = some value
          ∧ f.check (place ++ [.field f.key]) value = .ok read)
      ∨ Fields.get? fields f.key = none ∧ f.default = some read)

end Check

/-! ## The laws -/

/-- A request that posts an object to a path. -/
def Request.post (path : String) (body : Fields) : Request :=
  { method := "POST", target := ⟨path, none⟩, body := some (.obj body) }

/-- **Whether a route takes what is posted to its path**, and reads it by a check:
it is the only route of that path, which is a plain one. -/
structure Route.TakesPosts (routes : List Route) (route : Route) (check : Check) : Prop where
  /-- It is one of the routes. -/
  mem : route ∈ routes
  /-- Its method is that of a post. -/
  method : route.method = "POST"
  /-- It takes a body. -/
  body : route.body? = some check
  /-- No two routes have one path. -/
  apart : (routes.map Route.path).Nodup
  /-- Its path is made of letters and slashes, and so stands for itself only. -/
  plain : (route.path.toList.all fun c => c.isAlpha || c = '/') = true

/-- **What the service relies on** of the packages it is built on: of pydantic how
values of the declared types are read, and of FastAPI how a post is answered. -/
structure Framework.Lawful (F : Framework) : Prop where
  /-- pydantic, `str`: a text is read as it is, and nothing else is read. -/
  text {place : List Place} {value read : Value} :
    F.text place value = .ok read ↔ IsText F value ∧ read = value
  /-- pydantic, `Union[int, float]`: numbers are numbers, and a whole one stays
  whole. What else is read, such as a text that spells a number, becomes one. -/
  number : F.number.Settles IsNumber
  /-- pydantic, `bool`: flags are flags. -/
  flag : F.flag.Settles IsFlag
  /-- pydantic, `Dict[str, Any]`: an object with texts for keys is read as it is, whatever
  stands in it, and nothing else is read. -/
  object {place : List Place} {value read : Value} :
    F.object place value = .ok read ↔ IsObject F value ∧ read = value
  /-- pydantic, `Literal`: a text that is listed is read. -/
  oneOf {names : List String} {s : String} (place : List Place) :
    s ∈ names → F.oneOf names place (.str s) = .ok (.str s)
  /-- pydantic, `Optional`: null is null. -/
  nullable_null (check : Check) (place : List Place) : F.nullable check place .null = .ok .null
  /-- pydantic, `Optional`: anything else is read by the check. -/
  nullable_of_ne {check : Check} {place : List Place} {value : Value} :
    value ≠ .null → F.nullable check place value = check place value
  /-- pydantic, `List`: a list is read item by item, each at a place of its own. -/
  listOf {check : Check} {place : List Place} {value read : Value} :
    F.listOf check place value = .ok read ↔ ∃ items reads, value = .list items ∧ read = .list reads
      ∧ List.Forall₂ (fun item v => check (place ++ [.item item.2]) item.1 = .ok v)
        items.zipIdx reads
  /-- pydantic, models: an object is read field by field. It is written out again
  with the fields that are declared, in their order, and the others behind
  them if they are kept, the keys of which have to be texts. -/
  model {declared : List Check.Field} {keepsOthers : Bool} {place : List Place}
    {value read : Value} :
    F.model declared keepsOthers place value = .ok read ↔ ∃ fields reads, value = .obj fields
      ∧ List.Forall₂ (Check.Field.Reads place fields) declared reads
      ∧ (keepsOthers = true → HaveTextKeys F fields)
      ∧ read = .obj (reads ++ if keepsOthers then Check.others declared fields else [])
  /-- Plain characters have a form in UTF-8. -/
  encodes {s : String} : isPlain s = true → F.encodes s = true
  /-- FastAPI, request bodies: one that cannot be read is refused with what is wrong
  with it. -/
  refuses {routes : List Route} {route : Route} {check : Check} {body : Fields}
    {issues : List Issue} (htakes : Route.TakesPosts routes route check)
    (hbody : check [.field "body"] (.obj body) = .error issues) :
    F.serve routes (.post route.path body) = .refused issues
  /-- FastAPI, handling errors: an exception that nobody caught is a failure. -/
  fails {routes : List Route} {route : Route} {check : Check} {body read : Fields} {fault : Fault}
    (htakes : Route.TakesPosts routes route check)
    (hbody : check [.field "body"] (.obj body) = .ok (.obj read))
    (hrun : route.run read = .error fault) :
    F.serve routes (.post route.path body) = .failed
  /-- FastAPI, response models: a value that is returned is sent with status 200, and
  null for what is no finite number in it. -/
  answers {routes : List Route} {route : Route} {check : Check} {body read : Fields} {value : Value}
    (htakes : Route.TakesPosts routes route check)
    (hbody : check [.field "body"] (.obj body) = .ok (.obj read))
    (hrun : route.run read = .ok (.value value)) (hkeys : Json.textKeyed value = true) :
    F.serve routes (.post route.path body) = F.answered 200 (Wire.sendable value)
  /-- FastAPI, `HTTPException`: a refusal is sent with its status and its detail. -/
  declines {routes : List Route} {route : Route} {check : Check} {body read : Fields}
    {status : Nat} {detail : Value} (htakes : Route.TakesPosts routes route check)
    (hbody : check [.field "body"] (.obj body) = .ok (.obj read))
    (hrun : route.run read = .ok (.refusal status detail)) (hdetail : IsSendable detail) :
    F.serve routes (.post route.path body) = F.answered status (.obj [("detail", detail)])

theorem Framework.Lawful.allTexts_of_isPlain {F : Framework} (hF : F.Lawful) {value : Value}
    (h : Wire.allTexts isPlain value = true) : Wire.allTexts F.encodes value = true :=
  Wire.allTexts_imp (fun _ => hF.encodes) h

/-! ## Single values -/

namespace Check

namespace Settles

variable {check : Check} {Q : Value → Prop}

theorem accepts (h : check.Settles Q) {value : Value} (hQ : Q value) : check.Accepts value :=
  fun place => ⟨value, h.keeps place hQ⟩

theorem exact (h : check.Settles Q) {value : Value} (hQ : Q value) : check.Exact value :=
  fun place _ hread => Except.ok.inj (hread.symm.trans (h.keeps place hQ))

end Settles

theorem Keeps.exact {check : Check} {value : Value} (h : check.Keeps value) : check.Exact value :=
  fun place _ hread => Except.ok.inj (hread.symm.trans (h place))

variable {place : List Place} {fields : Fields}

/-! ## Fields -/

/-- Whether a field of some fields passes, wherever they stand. -/
def Field.Accepts (f : Field) (fields : Fields) : Prop :=
  ∀ place, ∃ pair, f.Reads place fields pair

theorem Field.accepts_of_stated {f : Field} (h : Stated f.check.Accepts fields f.key) :
    f.Accepts fields := by
  obtain ⟨value, hread, hvalue⟩ := h
  intro place
  obtain ⟨read, hvalue⟩ := hvalue (place ++ [.field f.key])
  exact ⟨_, read, rfl, .inl ⟨value, hread, hvalue⟩⟩

/-- A field that is read, by a check that reads values as they are, was of the kind
that its check settles. -/
theorem Field.Reads.ifStated {f : Field} {Q : Value → Prop} {pair : Key × Value}
    (h : f.Reads place fields pair) (hf : f.check.Settles Q)
    (hexact : ∀ value, f.check.Exact value) : IfStated Q fields f.key := by
  intro value hvalue
  obtain ⟨read, rfl, ⟨value', hvalue', hread⟩ | ⟨hnone, _⟩⟩ := h
  · obtain rfl := Option.some.inj (hvalue.symm.trans hvalue')
    rw [← hexact value hread]
    exact hf.yields hread
  · rw [hvalue] at hnone
    cases hnone

/-- **A field of a kind that its check settles** is of the kind afterwards, and
reads as before if it was, or as the default if it was not there. -/
theorem Field.Reads.settles {f : Field} {Q : Value → Prop} {default : Value}
    {pair : Key × Value} (h : f.Reads place fields pair) (hf : f.check.Settles Q)
    (hdefault : f.default = some default) (hQ : Q default) :
    ∃ read, pair = (Key.text f.key, read) ∧ Q read
      ∧ (IfStated Q fields f.key → read = (Fields.get? fields f.key).getD default) := by
  obtain ⟨read, rfl, ⟨value, hvalue, hread⟩ | ⟨hnone, hread⟩⟩ := h
  · refine ⟨read, rfl, hf.yields hread, fun hstated => ?_⟩
    rw [hvalue]
    exact hf.exact (hstated value hvalue) hread
  · obtain rfl := Option.some.inj (hdefault.symm.trans hread)
    exact ⟨default, rfl, hQ, fun _ => by rw [hnone]; rfl⟩

/-- **A field that has to be there** is of the kind that its check settles, and
reads as before if it was. -/
theorem Field.Reads.settles_required {f : Field} {Q : Value → Prop} {pair : Key × Value}
    (h : f.Reads place fields pair) (hf : f.check.Settles Q) (hdefault : f.default = none) :
    ∃ read, pair = (Key.text f.key, read) ∧ Q read
      ∧ (IfStated Q fields f.key → Fields.get fields f.key = read) := by
  obtain ⟨read, rfl, ⟨value, hvalue, hread⟩ | ⟨_, hread⟩⟩ := h
  · refine ⟨read, rfl, hf.yields hread, fun hstated => ?_⟩
    rw [Fields.get, hvalue, hf.exact (hstated value hvalue) hread]
    rfl
  · rw [hdefault] at hread
    cases hread

end Check

namespace Framework.Lawful

variable {F : Framework} (hF : F.Lawful) {check : Check} {place : List Place}

include hF

theorem settles_text : F.text.Settles (IsText F) where
  yields hread := by
    obtain ⟨htext, rfl⟩ := hF.text.mp hread
    exact htext
  keeps _ htext := hF.text.mpr ⟨htext, rfl⟩

theorem settles_object : F.object.Settles (IsObject F) where
  yields hread := by
    obtain ⟨hobject, rfl⟩ := hF.object.mp hread
    exact hobject
  keeps _ hobject := hF.object.mpr ⟨hobject, rfl⟩

/-- Where null may stand, the check settles that a value is null or of the
kind. -/
theorem settles_nullable {Q : Value → Prop} (h : check.Settles Q) :
    (F.nullable check).Settles (OrNull Q) where
  yields {place value read} hread := by
    by_cases hnull : value = .null
    · rw [hnull, hF.nullable_null] at hread
      exact .inl (Except.ok.inj hread).symm
    · rw [hF.nullable_of_ne hnull] at hread
      exact .inr (h.yields hread)
  keeps {value} place hvalue := by
    by_cases hnull : value = .null
    · rw [hnull, hF.nullable_null]
    · rw [hF.nullable_of_ne hnull]
      exact h.keeps place (hvalue.resolve_left hnull)

theorem exact_text (value : Value) : F.text.Exact value := fun _ _ hread => (hF.text.mp hread).2

theorem exact_object (value : Value) : F.object.Exact value :=
  fun _ _ hread => (hF.object.mp hread).2

theorem exact_nullable {value : Value} (h : check.Exact value) :
    (F.nullable check).Exact value := by
  intro place read hread
  by_cases hnull : value = .null
  · rw [hnull, hF.nullable_null] at hread
    rw [hnull, Except.ok.inj hread]
  · rw [hF.nullable_of_ne hnull] at hread
    exact h hread

/-! ## Lists -/

/-- **A list that passes is a list of items that pass.** -/
theorem listOf_eq_ok {value read : Value} (h : F.listOf check place value = .ok read) :
    ∃ items reads, value = .list items ∧ read = .list reads
      ∧ List.Forall₂ (fun item v => ∃ here, check here item = .ok v) items reads := by
  obtain ⟨items, reads, rfl, rfl, hall⟩ := hF.listOf.mp h
  refine ⟨items, reads, rfl, rfl, ?_⟩
  rw [← List.zipIdx_map_fst 0 items, List.forall₂_map_left_iff]
  exact hall.imp fun item v hv => ⟨_, hv⟩

/-- **A list of items that pass does.** -/
theorem accepts_listOf {items : List Value} (h : ∀ item ∈ items, check.Accepts item) :
    (F.listOf check).Accepts (.list items) := by
  intro place
  obtain ⟨reads, hreads⟩ : ∃ reads, List.Forall₂
      (fun item v => check (place ++ [.item item.2]) item.1 = .ok v) items.zipIdx reads := by
    refine exists_forall₂_of_forall fun item hitem => h item.1 ?_ _
    rw [← List.zipIdx_map_fst 0 items]
    exact List.mem_map_of_mem hitem
  exact ⟨.list reads, hF.listOf.mpr ⟨items, reads, rfl, rfl, hreads⟩⟩

/-- A list of items that are kept is kept. -/
theorem keeps_listOf {items : List Value} (h : ∀ item ∈ items, check.Keeps item) :
    (F.listOf check).Keeps (.list items) := by
  intro place
  refine hF.listOf.mpr ⟨items, items, rfl, rfl, ?_⟩
  have hall : List.Forall₂ (fun item v => check (place ++ [.item item.2]) item.1 = .ok v)
      items.zipIdx (items.zipIdx.map Prod.fst) := by
    rw [List.forall₂_map_right_iff, List.forall₂_same]
    refine fun item hitem => h item.1 ?_ _
    rw [← List.zipIdx_map_fst 0 items]
    exact List.mem_map_of_mem hitem
  rwa [List.zipIdx_map_fst] at hall

theorem exact_listOf {items : List Value} (h : ∀ item ∈ items, check.Exact item) :
    (F.listOf check).Exact (.list items) := by
  intro place read hread
  obtain ⟨items', reads, hitems, rfl, hall⟩ := hF.listOf_eq_ok hread
  obtain rfl := Value.list.inj hitems
  have hsame : List.Forall₂ (fun item read => item = read) items reads :=
    forall₂_imp_of_mem hall fun item hitem _ ⟨_, hread⟩ => (h item hitem hread).symm
  rw [List.forall₂_eq_eq_eq] at hsame
  rw [hsame]

/-! ## Models -/

variable {declared : List Check.Field} {keepsOthers : Bool} {fields : Fields}

/-- **A model accepts an object** if it accepts each field it declares, and the
object has texts for keys, where others are kept. -/
theorem accepts_model (hkeys : keepsOthers = true → HaveTextKeys F fields)
    (h : declared.Forall fun f => f.Accepts fields) :
    (F.model declared keepsOthers).Accepts (.obj fields) := by
  intro place
  obtain ⟨reads, hreads⟩ : ∃ reads, List.Forall₂ (Check.Field.Reads place fields) declared reads :=
    exists_forall₂_of_forall fun f hf => List.forall_iff_forall_mem.mp h f hf place
  exact ⟨_, hF.model.mpr ⟨fields, reads, rfl, hreads, hkeys, rfl⟩⟩

end Framework.Lawful

end CallFlow
