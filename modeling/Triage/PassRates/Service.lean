import Triage.PassRates.Report
import Triage.Source.Answer

/-!
# CI reports over the network
-/

namespace Triage

open Http

namespace PassRates

def request (url version : String) : Request where
  method := .get
  url := url
  query := [("release", version)]
  headers := [agentHeader]

def ofResponse (version : String) (r : Response) : SourceResult PassRates := do
  let r ← Service.sippy.success r
  (ofReport? r.body version).elim (.error .json) .ok

def fetch (url version : String) : NetM (SourceResult PassRates) := do
  return (received (← send (request url version))).bind (ofResponse version)

end PassRates

end Triage
