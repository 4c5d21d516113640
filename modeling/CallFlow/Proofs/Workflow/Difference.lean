import CallFlow.Proofs.Json.Canonical
import CallFlow.Proofs.Workflow.Dirty

/-!
# Whether there is anything to save

Whether there is anything to save is decided on a digest of the canonical text,
and that text says what the document is, up to the order of fields. So a graph
is not dirty if it is saved as what an unedited one is saved as, the order of
fields apart; and it is dirty otherwise, unless two texts that differ have one
digest (`canonical_identifies`).

What is saved of documents is a document, so that this applies whenever a graph,
the document it was loaded from, the edits and the settings are such.
-/

namespace CallFlow

open Json (IsDocument hereditary_isDocument)

section Difference

variable {settings : Settings} {request : SaveRequest} {graph current baseline : Value} {g : Graph}

theorem digest_eq_of_reordered {v w : Value} (hv : IsDocument v) (hw : IsDocument w)
    (h : v.Reordered w) : digest v = digest w := by
  rw [digest_of_textKeyed hv.1, digest_of_textKeyed hw.1, (Json.canonical_eq_iff hv hw).mpr h]

/-- **What a graph is saved as, and what an unedited one is saved as, are documents**
if what they are made of are. -/
theorem isDocument_saved (hgraph : IsDocument graph) (hprevious : IsDocument request.previous)
    (hedits : request.edits = .null ∨ ∃ fields, request.edits = .obj fields)
    (hchanges : IsDocument request.edits) (hsettings : IsDocument settings.toValue)
    (hload : loadGraph settings request.previous = .ok g)
    (hsave : saveGraph settings request graph = .ok current)
    (hbaseline : saveGraph settings { request with edits := .null } g.toValue = .ok baseline) :
    IsDocument current ∧ IsDocument baseline :=
  ⟨hereditary_isDocument.saveGraph_of_graph hgraph
      (hereditary_isDocument.get_settings hsettings "default_initial_node") hprevious hedits
      hchanges hsave,
    hereditary_isDocument.saveGraph_loadGraph_of_settings (fun _ => ⟨rfl, rfl⟩) hprevious hsettings
      hload hbaseline⟩

/-- **The canonical text identifies a document.**

* Documents have the same text exactly if they are the same up to the order of
  fields, at every depth; an atom has the text of itself only, so `1`, `1.0` and
  `true` are kept apart.
* The digest of a document is that of its text, so documents that are the same up
  to the order of fields have the same.
* A graph is compared with a document that is not empty without fault. It is not
  dirty if the document it is saved as is, up to the order of fields, the one an
  unedited graph is saved as; it is dirty otherwise, if the digests of the two do
  not collide.
* These two are documents if the graph, the document before, the edits and the
  settings are. -/
theorem canonical_identifies :
    (∀ v w : Value, IsDocument v → IsDocument w →
      (Json.canonical v = Json.canonical w ↔ v.Reordered w))
    ∧ (∀ v w : Value, v.isAtom = true → (Json.canonical v = Json.canonical w ↔ v = w))
    ∧ (∀ v : Value, IsDocument v →
      digest v = .ok (Sha256.hexDigest (Json.canonical v))
        ∧ ∀ w : Value, IsDocument w → v.Reordered w → digest v = digest w)
    ∧ ∀ (settings : Settings) (request : SaveRequest) (graph current baseline : Value) (g : Graph),
      request.previous.truthy = true → loadGraph settings request.previous = .ok g →
      saveGraph settings request graph = .ok current →
      saveGraph settings { request with edits := .null } g.toValue = .ok baseline →
      (IsDocument current → IsDocument baseline →
        ∃ state, dirtyState settings request graph = .ok state ∧ state.config = current
          ∧ (current.Reordered baseline → state.dirty = false)
          ∧ ((Sha256.hexDigest (Json.canonical current) = Sha256.hexDigest (Json.canonical baseline)
              → Json.canonical current = Json.canonical baseline) →
            ¬ current.Reordered baseline → state.dirty = true))
      ∧ (IsDocument graph → IsDocument request.previous → IsDocument request.edits →
          (request.edits = .null ∨ ∃ fields, request.edits = .obj fields) →
          IsDocument settings.toValue → IsDocument current ∧ IsDocument baseline) := by
  refine ⟨fun v w hv hw => Json.canonical_eq_iff hv hw, fun v w hatom => ?_, fun v hv =>
    ⟨digest_of_textKeyed hv.1, fun w hw => digest_eq_of_reordered hv hw⟩, ?_⟩
  · rw [Json.canonical, Json.canonical, String.ofList_inj]
    exact ⟨Json.eq_of_canonicalChars_eq hatom, fun h => h ▸ rfl⟩
  intro settings request graph current baseline g hprevious hload hsave hbaseline
  refine ⟨fun hcurrent hunedited => ?_, fun hgraph hbefore hchanges hedits hsettings =>
    isDocument_saved hgraph hbefore hedits hchanges hsettings hload hsave hbaseline⟩
  have hreordered := Json.canonical_eq_iff hcurrent hunedited
  refine ⟨_, dirtyState_eq hsave hprevious hload hbaseline hcurrent.1 hunedited.1, rfl,
    fun hsame => ?_, fun hdigest hother => ?_⟩
  · dsimp only
    rw [decide_eq_false_iff_not, not_not, hreordered.mpr hsame]
  · dsimp only
    rw [decide_eq_true_eq]
    exact fun heq => hother (hreordered.mp (hdigest heq))

end Difference

/-- A document without nodes, with a setting that has some fields. -/
def voicedDocument (voice : Fields) : Value :=
  .obj [("initial_node", .str "a"), ("k", .obj voice), ("nodes", .list [])]

/-- Editing that setting. -/
def voiceEdit (voice edited : Fields) : SaveRequest :=
  { previous := voicedDocument voice, edits := .obj [("k", .obj edited)] }

/-- With two fields in the other order there is nothing to save; with `true` in the
place of `1` there is. -/
theorem canonical_identifies_voicedDocument :
    (∃ state, dirtyState .default
        (voiceEdit [("a", .int 1), ("b", .int 2)] [("b", .int 2), ("a", .int 1)])
        (Graph.ofObjects [] []).toValue = .ok state ∧ state.dirty = false)
    ∧ ∃ state, dirtyState .default (voiceEdit [("a", .int 1)] [("a", .bool true)])
        (Graph.ofObjects [] []).toValue = .ok state ∧ state.dirty = true := by
  obtain ⟨hcanonical, -, -, hstates⟩ := canonical_identifies
  constructor
  · obtain ⟨hstate, hdocuments⟩ := hstates .default
      (voiceEdit [("a", .int 1), ("b", .int 2)] [("b", .int 2), ("a", .int 1)])
      (Graph.ofObjects [] []).toValue (voicedDocument [("b", .int 2), ("a", .int 1)])
      (voicedDocument [("a", .int 1), ("b", .int 2)]) _ rfl rfl rfl rfl
    obtain ⟨hcurrent, hbaseline⟩ := hdocuments (by decide) (by decide) (by decide) (.inr ⟨_, rfl⟩)
      (by decide)
    obtain ⟨state, hstate, -, hclean, -⟩ := hstate hcurrent hbaseline
    have hvoice : (Value.obj [("b", .int 2), ("a", .int 1)]).Reordered
        (.obj [("a", .int 1), ("b", .int 2)]) :=
      .of_get?_eq rfl rfl (Fields.get?_perm (.swap _ _ _) rfl)
    have hdocument : (voicedDocument [("b", .int 2), ("a", .int 1)]).Reordered
        (voicedDocument [("a", .int 1), ("b", .int 2)]) :=
      @Value.Reordered.put [("initial_node", .str "a"), ("k", _), ("nodes", .list [])] rfl "k"
        _ _ rfl hvoice
    exact ⟨state, hstate, hclean hdocument⟩
  · obtain ⟨hstate, hdocuments⟩ := hstates .default (voiceEdit [("a", .int 1)] [("a", .bool true)])
      (Graph.ofObjects [] []).toValue (voicedDocument [("a", .bool true)])
      (voicedDocument [("a", .int 1)]) _ rfl rfl rfl rfl
    obtain ⟨hcurrent, hbaseline⟩ := hdocuments (by decide) (by decide) (by decide) (.inr ⟨_, rfl⟩)
      (by decide)
    obtain ⟨state, hstate, -, -, hdirty⟩ := hstate hcurrent hbaseline
    have hedited : Json.canonical (voicedDocument [("a", .bool true)])
        = "\x7b\"initial_node\": \"a\", \"k\": \x7b\"a\": true\x7d, \"nodes\": []\x7d" := by cbv
    have hsaved : Json.canonical (voicedDocument [("a", .int 1)])
        = "\x7b\"initial_node\": \"a\", \"k\": \x7b\"a\": 1\x7d, \"nodes\": []\x7d" := by cbv
    refine ⟨state, hstate, hdirty ?_ fun hsame => ?_⟩
    · rw [hedited, hsaved]
      decide +kernel
    · have heq := (hcanonical _ _ hcurrent hbaseline).mpr hsame
      rw [hedited, hsaved] at heq
      exact absurd heq (by decide)

end CallFlow
