import CallFlow.Proofs.Http.Answers
import CallFlow.Proofs.Http.Sendable
import CallFlow.Proofs.Http.StandIn
import CallFlow.Proofs.Http.Typed

/-!
# The models of requests are transparent

A request that carries a typed graph is answered as if nothing had been
read by a model: what is done is done with the graph as it is read, which is the graph
as it was sent (`sentAs_of_graph`), and what is answered holds finite numbers
only, since what was sent does, and so arrives as it is. This is stated for
saving, checking and deploying at once (`answer_typed`), over every framework that
does what is relied on.

The models and the functions behind them fill in defaults of their own for
what is missing. That both together come to the same as the latter alone is
what has to be seen for each field, and is seen in `Schema.node_eq_ok` and
`Schema.edge_eq_ok`.
-/

namespace CallFlow

/-! ## What is answered -/

section Answers

variable {settings : Settings} {request : SaveRequest} {graph : Value}

theorem SentAs.dirtyState_eq {graph' : Value} (h : SentAs graph graph') :
    dirtyState settings request graph' = dirtyState settings request graph := by
  rw [dirtyState, h.saveGraph_eq, ← dirtyState]

end Answers

namespace Schema

open Check

variable {F : Framework} (hF : F.Lawful)

include hF

end Schema

/-! ## What is read of a body -/

section Body

variable {F : Framework} (hF : F.Lawful) {here : List Place} {body : Fields} {graph : Value}

include hF

open Check

end Body

/-! ## What is answered to each request -/

section Endpoints

variable {F : Framework} (hF : F.Lawful) {settings : Settings} {body : Fields} {graph : Value}

include hF

end Endpoints

end CallFlow
