import Triage.Proofs.Json.Values
import Triage.Slack

/-!
# What the service is asked

The requests of a client as the service reads them: which of its methods is
called, by which token, and with which parameters or body. What is said of calls
and messages is said of such requests, however the client writes them.
-/

namespace Triage.Slack

open Http

structure Asks (c : Slack) (verb : Method) (path : String) (query : List (String × String))
    (r : Request) : Prop where
  method : r.method = verb
  url : r.url = c.apiUrl ++ path
  query : r.query = query
  token : ("Authorization", "Bearer " ++ c.token) ∈ r.headers

/-- Asks for the user of a mail address, or of the one that is its alias. -/
structure LooksUp (c : Slack) (email : String) (r : Request) : Prop
    extends Asks c .get "/users.lookupByEmail"
      [("email", (c.emailAliases.get? email).getD email)] r where
  body : r.body = ""

structure Opens (c : Slack) (user : String) (r : Request) : Prop
    extends Asks c .post "/conversations.open" [] r where
  body : Json.read? r.body = some (.object [("users", .string user)])

structure Posts (c : Slack) (channel text : String) (r : Request) : Prop
    extends Asks c .post "/chat.postMessage" [] r where
  body : Json.read? r.body =
    some (.object [("channel", .string channel), ("text", .string text)])

section Requests

variable (c : Slack)

theorem read?_strings (members : List (String × String)) :
    let v := Json.object (members.map fun m => (m.1, .string m.2))
    Json.read? v.compact = some v := by
  intro v
  have hv : v.reread = v := by
    rw [Json.reread, Json.rereadMembers_eq_map, List.map_map]
    rfl
  have hlegible : Json.Legible Json.deepest v := .object fun m hm => by
    obtain ⟨m, -, rfl⟩ := List.mem_map.mp hm
    exact .string
  rw [hlegible.read?_compact, hv]

theorem token_mem_headers : ("Authorization", "Bearer " ++ c.token) ∈ c.headers :=
  List.mem_cons_of_mem _ (List.mem_singleton_self _)

theorem looksUp_lookupRequest (email : String) :
    LooksUp c email (c.lookupRequest (c.chatEmail email)) where
  method := rfl
  url := rfl
  query := rfl
  token := c.token_mem_headers
  body := rfl

theorem opens_openRequest (user : String) : Opens c user (c.openRequest user) where
  method := rfl
  url := rfl
  query := rfl
  token := c.token_mem_headers
  body := read?_strings [("users", user)]

theorem posts_postRequest (channel text : String) :
    Posts c channel text (c.postRequest channel text) where
  method := rfl
  url := rfl
  query := rfl
  token := c.token_mem_headers
  body := read?_strings [("channel", channel), ("text", text)]

end Requests

end Triage.Slack
