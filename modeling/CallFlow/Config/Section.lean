import CallFlow.Value.Text

/-!
# The workflow section

A configuration document holds the workflow in a section of its own, under
the key `workflow`, beside whatever else an agent is made of. A document
without such a section *is* the section.
-/

namespace CallFlow

/-- The key of the workflow section. -/
def sectionKey : String := "workflow"

/-- The section a document wraps, if it wraps one. -/
def wrappedSection? (config : Value) : Option Fields :=
  (Fields.get config.fieldsOrNone sectionKey).object?

/-- The workflow section of a document. -/
def workflowSection (config : Value) : Fields :=
  (wrappedSection? config).getD config.fieldsOrNone

end CallFlow
