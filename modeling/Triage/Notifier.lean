import Triage.Source.Error

/-!
# Notifiers

Whatever delivers messages: to a channel, to a person by mail address, and to
the channel for the program's own reports.
-/

namespace Triage

inductive Recipient where
  | channel (name : String)
  | person (email : String)
  | debug
  deriving DecidableEq, Repr

structure Message where
  recipient : Recipient
  text : String
  deriving DecidableEq, Repr

abbrev Notifier (m : Type → Type) := Message → m (SourceResult Unit)

end Triage
