import Triage.Text.Blank

/-!
# Exchanges with a server

What a client sends, what it gets back, and the record of what it did. A server
is given by what it answers after any series of requests, so that statements
about clients can speak of every server.

One `send` is one exchange as the HTTP library hands it back. Redirects that the
library follows and addresses that it refuses are left to it: the record has the
request that the client asked for, and what comes of that is the server's answer.
-/

namespace Triage

namespace Http

inductive Method where
  | get
  | put
  | post
  deriving DecidableEq, Repr

def Method.name : Method → String
  | get => "GET"
  | put => "PUT"
  | post => "POST"

structure Request where
  method : Method
  url : String
  /-- Parameters after those of the address. -/
  query : List (String × String) := []
  headers : List (String × String) := []
  body : String := ""
  deriving DecidableEq, Repr

structure Response where
  status : Nat
  headers : List (String × String) := []
  body : String := ""
  deriving DecidableEq, Repr

def isVisible (c : Char) : Bool := (0x20 ≤ c.toNat && c.toNat < 0x7f) || c == '\t'

namespace Response

def isSuccess (r : Response) : Bool := 200 ≤ r.status && r.status < 300

/-- The value of a header, whose name may be in any case. -/
def header? (r : Response) (name : String) : Option String :=
  (r.headers.find? fun (n, _) =>
    n.toList.map Char.toLower == name.toList.map Char.toLower).map (·.2)

/-- The value of a header, if it is one that can be read as text. -/
def headerText? (r : Response) (name : String) : Option String :=
  (r.header? name).filter fun value => value.toList.all isVisible

end Response

/-- What a server answers to the last of the requests it has had, oldest first;
nothing when it cannot be reached. -/
abbrev Server := List Request → Option Response

def unreachable : Server := fun _ => none

inductive Event where
  | sent (r : Request)
  | waited (seconds : Nat)
  deriving DecidableEq, Repr

def Event.request? : Event → Option Request
  | sent r => some r
  | waited _ => none

abbrev NetM := ReaderT Server (StateM (List Event))

def requests (log : List Event) : List Request := log.filterMap Event.request?

/-- A control character other than the tab, which no header may hold. -/
def isControl (c : Char) : Bool := (c.toNat < 0x20 && c != '\t') || c.toNat = 0x7f

def Request.isValid (r : Request) : Bool := r.headers.all fun (_, v) => !v.toList.any isControl

/-- Sends a request; nothing comes back from a server that cannot be reached, and
a request that cannot be sent is not. -/
def send (r : Request) : NetM (Option Response) := do
  if !r.isValid then return none
  modify fun log => log ++ [.sent r]
  return (← read) (requests (← get))

def wait (seconds : Nat) : NetM Unit := modify fun log => log ++ [.waited seconds]

def run (server : Server) (x : NetM α) : α × List Event := (x.run server).run []

def userAgent : String := "triage-sources/0.3.1"

def agentHeader : String × String := ("User-Agent", userAgent)

end Http

end Triage
