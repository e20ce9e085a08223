import Triage.Directory
import Triage.Source.Answer

/-!
# A directory over the network
-/

namespace Triage

open Http

namespace ServiceOrgSource

def request (url : String) : Request where
  method := .get
  url := url
  headers := [("User-Agent", userAgent ++ " org")]

def directory (r : Response) : SourceResult Directory := do
  let r ← Service.orgData.success r
  (Directory.ofJsonText r.body).mapError .config

def load (url : String) : NetM (SourceResult Directory) := do
  return (received (← send (request url))).bind directory

end ServiceOrgSource

end Triage
