import Triage.Http
import Triage.Json.Reader
import Triage.Source.Error

/-!
# Answers of services

What an answer over the network means before its content is looked at.
-/

namespace Triage

open Http

/-- An answer with a success status; any other is an error that quotes its body. -/
def Service.success (service : Service) (r : Response) : SourceResult Response :=
  if r.isSuccess then .ok r else .error (.unsuccessful service r.status r.body)

def received : Option Response → SourceResult Response
  | some r => .ok r
  | none => .error .http

def Http.Response.record (read : Json → Option α) (r : Response) : SourceResult α :=
  ((Json.read? r.body).bind read).elim (.error .http) .ok

end Triage
