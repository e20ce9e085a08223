import Triage.Json.Printer
import Triage.Notifier
import Triage.Settings.Slack
import Triage.Source.Answer
import Triage.Text.Quoted

/-!
# The chat service

A method of the service is called once, and a second time after the wait it asks
for when it is rate limited. In debug mode nothing but messages to the debug
channel is sent.
-/

namespace Triage

open Http

structure Slack.Reply where
  ok : Bool
  error : Option String := none
  user : Option String := none
  channel : Option String := none
  deriving DecidableEq, Repr

structure Slack where
  apiUrl : String
  token : String
  debug : Bool
  debugChannel : String
  emailAliases : SortedMap String String

namespace Slack

open Document (required? defaulted? optional?)

def readId? (v : Json) : Option String := do
  let get ← v.fields? ["id"]
  required? get "id" Json.text?

def Reply.ofJson? (v : Json) : Option Reply := do
  let get ← v.fields? ["ok", "error", "user", "channel"]
  some {
    ok := ← required? get "ok" Json.flag?
    error := ← defaulted? get "error" none (optional? Json.text?)
    user := ← defaulted? get "user" none (optional? readId?)
    channel := ← defaulted? get "channel" none (optional? readId?) }

def Reply.success (r : Reply) : SourceResult Reply :=
  if r.ok then .ok r else .error (.chat (r.error.getD "unknown error"))

def ofSettings (s : SlackSettings) (fs : Files) : SourceResult Slack :=
  (s.resolveToken fs).map fun token => {
    apiUrl := withoutSlashes s.apiUrl
    token := token
    debug := s.debug
    debugChannel := s.debugChannel
    emailAliases := s.emailAliases }

def chatEmail (c : Slack) (email : String) : String := (c.emailAliases.get? email).getD email

-- ---------------------------------------------------------------------------
-- Calls
-- ---------------------------------------------------------------------------

def defaultWait : Nat := 1

/-- The wait in seconds that a rate limited answer asks for. -/
def waitOf (r : Response) : Nat :=
  ((r.headerText? "Retry-After").bind fun v =>
    Text.unsigned? Word.greatest64 (Text.trim v.toList)).getD defaultWait

/-- An answer to one request: a reply, or a wait. -/
def readAnswer (answer : Option Response) : SourceResult (Reply ⊕ Nat) := do
  let r ← received answer
  if r.status = 429 then .ok (.inr (waitOf r))
  else .ok (.inl (← (← Service.slack.success r).record Reply.ofJson?))

def headers (c : Slack) : List (String × String) :=
  [agentHeader, ("Authorization", "Bearer " ++ c.token)]

/-- Makes a call, and a second one after a wait if the first is rate limited. -/
def call (r : Request) : NetM (SourceResult Reply) := do
  match readAnswer (← send r) with
  | .error e => return .error e
  | .ok (.inl reply) => return reply.success
  | .ok (.inr seconds) =>
    wait seconds
    match readAnswer (← send r) with
    | .error e => return .error e
    | .ok (.inl reply) => return reply.success
    | .ok (.inr seconds) => return .error (.rateLimited seconds)

def postRequest (c : Slack) (channel text : String) : Request where
  method := .post
  url := c.apiUrl ++ "/chat.postMessage"
  headers := c.headers
  body := (Json.object [("channel", .string channel), ("text", .string text)]).compact

def lookupRequest (c : Slack) (email : String) : Request where
  method := .get
  url := c.apiUrl ++ "/users.lookupByEmail"
  query := [("email", email)]
  headers := c.headers

def openRequest (c : Slack) (user : String) : Request where
  method := .post
  url := c.apiUrl ++ "/conversations.open"
  headers := c.headers
  body := (Json.object [("users", .string user)]).compact

-- ---------------------------------------------------------------------------
-- Messages
-- ---------------------------------------------------------------------------

def post (c : Slack) (channel text : String) : NetM (SourceResult Unit) := do
  return (← call (c.postRequest channel text)).map fun _ => ()

def postDebug (c : Slack) (text : String) : NetM (SourceResult Unit) := c.post c.debugChannel text

def messageChannel (c : Slack) (channel text : String) : NetM (SourceResult Unit) :=
  if c.debug && channel != c.debugChannel then
    c.postDebug ("DEBUG sendto: " ++ channel ++ ": " ++ text)
  else c.post channel text

/-- A message to a person: the user is looked up and a conversation opened first. -/
def messagePerson (c : Slack) (email text : String) : NetM (SourceResult Unit) := do
  if c.debug then
    return ← c.postDebug ("DEBUG: " ++ Text.quoted email ++ " will receive:\n" ++ text)
  let address := c.chatEmail email
  match ← call (c.lookupRequest address) with
  | .error e => return .error e
  | .ok reply =>
    match reply.user with
    | none => return .error (.chat ("no user for " ++ address))
    | some user =>
      match ← call (c.openRequest user) with
      | .error e => return .error e
      | .ok reply =>
        match reply.channel with
        | none => return .error (.chat ("no IM channel for " ++ address))
        | some channel => c.post channel text

def notifier (c : Slack) : Notifier NetM := fun message =>
  match message.recipient with
  | .channel name => c.messageChannel name message.text
  | .person email => c.messagePerson email message.text
  | .debug => c.postDebug message.text

end Slack

end Triage
