import Triage.Bug.Json
import Triage.BugUpdate.Json
import Triage.Json.Printer
import Triage.Settings.Tracker
import Triage.Source.Answer
import Triage.Tracker

/-!
# The tracker over the network

The server gives bugs in pages and does not say how long a page is. So the first
request asks for any number; the number of bugs in its answer is then asked for
until a page is shorter or empty.
-/

namespace Triage

open Http

structure Bugzilla where
  endpoint : String
  apiKey : Option String
  deriving DecidableEq, Repr

namespace Bugzilla

def ofSettings (s : TrackerSettings) (fs : Files) : SourceResult Bugzilla :=
  (s.key fs).map fun key => ⟨withoutSlashes s.endpoint, key⟩

def headers (c : Bugzilla) : List (String × String) :=
  agentHeader :: (match c.apiKey with
    | some key => [("X-BUGZILLA-API-KEY", key)]
    | none => [])

def searchUrl (c : Bugzilla) : String := c.endpoint ++ "/rest/bug"

def bugUrl (c : Bugzilla) (id : UInt64) : String :=
  c.searchUrl ++ "/" ++ String.ofList (Text.digits id.toNat)

def number (n : Nat) : String := String.ofList (Text.digits n)

def pageRequest (c : Bugzilla) (params : List (String × String)) (limit offset : Nat) : Request where
  method := .get
  url := c.searchUrl
  query := params ++ [("limit", number limit), ("offset", number offset)]
  headers := c.headers

def readBugs (r : Response) : SourceResult (List Bug) :=
  (Service.bugzilla.success r).bind (Response.record Bug.recordOfJson?)

/-- One page, from `offset` on; no limit is a limit of zero. -/
def page (c : Bugzilla) (params : List (String × String)) (limit offset : Nat) :
    NetM (SourceResult (List Bug)) := do
  return (received (← send (c.pageRequest params limit offset))).bind readBugs

/-- The pages from `offset` on behind those read before; `none` when the server has
not come to an end after `rounds` of them. -/
def pages (c : Bugzilla) (params : List (String × String)) :
    Nat → Nat → Nat → List Bug → NetM (Option (SourceResult (List Bug)))
  | 0, _, _, _ => pure none
  | rounds + 1, limit, offset, before => do
    match ← c.page params limit offset with
    | .error e => return some (.error e)
    | .ok bugs =>
      if bugs.isEmpty then return some (.ok before)
      let limit := if limit = 0 then bugs.length else limit
      if bugs.length < limit then return some (.ok (before ++ bugs))
      pages c params rounds limit (offset + limit) (before ++ bugs)

def search? (c : Bugzilla) (rounds : Nat) (q : BugQuery) : NetM (Option (SourceResult BugSet)) := do
  return (← c.pages q.toParams rounds 0 0 []).map fun r => r.map BugSet.mk

/-- An answer about one bug, which the server may not have. -/
def known (id : UInt64) (r : Response) : SourceResult Response :=
  if r.status = 404 then .error (.notFound id) else Service.bugzilla.success r

def firstBug (id : UInt64) (r : Response) : SourceResult Bug := do
  let bugs ← (← known id r).record Bug.recordOfJson?
  bugs.head?.elim (.error (.notFound id)) .ok

def getBug (c : Bugzilla) (id : UInt64) : NetM (SourceResult Bug) := do
  let answer ← send { method := .get, url := c.bugUrl id, headers := c.headers }
  return (received answer).bind (firstBug id)

def updateBug (c : Bugzilla) (id : UInt64) (u : BugUpdate) : NetM (SourceResult Unit) := do
  let answer ← send {
    method := .put
    url := c.bugUrl id
    headers := c.headers
    body := u.toJson.compact }
  return ((received answer).bind (known id)).map fun _ => ()

/-- The tracker as its callers see it; a search that takes more than `rounds` pages
counts as broken off. -/
def tracker (c : Bugzilla) (rounds : Nat) : Tracker NetM where
  search q := do return (← c.search? rounds q).getD (.error .http)
  getBug := c.getBug
  updateBug := c.updateBug

end Bugzilla

end Triage
