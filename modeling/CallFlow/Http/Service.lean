import CallFlow.Http.Endpoint
import CallFlow.Packages.Serving
import CallFlow.Packages.Target

/-!
# Running the service

The service is run on a stand-in for the packages it is built on
(`Framework.standIn`). The client that sends a request cannot write a number
that is not finite, so one with such a number in its body is not sent at all.
-/

namespace CallFlow.Service

/-- Answers a request that was sent, if it can be. -/
def serve (settings : Settings) (request : Request) : Outcome Response :=
  if (request.body.map isFinite).getD true then .ok (answer .standIn settings request)
  else .error .badContent

end CallFlow.Service
