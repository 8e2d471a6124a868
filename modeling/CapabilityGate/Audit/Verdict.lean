import CapabilityGate.Capability.Descriptor
import CapabilityGate.Resolution.Model

/-!
# The verdict on a program

A program is checked against a denylist call site by call site, in order. It is rejected at the
first one that a descriptor covers, or that points into the program at nothing it declares and so
may hide anything. With nothing denied there is nothing to check.

## Main definitions

* `Verdict`: the outcome of a check.
* `withoutRepeats`: a denylist with each descriptor once.
* `Model.verdict`: the verdict on a program.
-/

namespace CapabilityGate

/-- The outcome of checking a program against a denylist. -/
inductive Verdict where
  /-- Nothing is denied, after so many call sites. -/
  | passed (scanned : Nat)
  /-- The call site falls under the descriptor. -/
  | violation (site : CallSite) (descriptor : Descriptor)
  /-- What the call site names cannot be found in the program. -/
  | unresolved (site : CallSite)
  deriving Repr, DecidableEq

namespace Verdict

/-- The call site that a program is rejected for. -/
def offending? : Verdict → Option CallSite
  | passed _ => none
  | violation site _ => some site
  | unresolved site => some site

/-- Whether a program is rejected. -/
def rejects (v : Verdict) : Bool :=
  v.offending?.isSome

end Verdict

/-- The members of a list in order, each at its first place only. -/
def withoutRepeats {α : Type} [DecidableEq α] (xs : List α) : List α :=
  xs.foldl (fun done x => if x ∈ done then done else done ++ [x]) []

namespace Descriptor

/-- The descriptor with its type in canonical form. -/
def canonical (d : Descriptor) : Descriptor :=
  ⟨Model.canonical d.target, d.method⟩

end Descriptor

namespace Model

/-- The finding at one call site, if it is a reason to reject: the first of the `denied`
descriptors that covers it, or that nothing is known of what it names. -/
def finding? (m : Model) (denied : List Descriptor) (site : CallSite) : Option Verdict :=
  match denied.find? (·.covers site) with
  | some d => some (.violation site d)
  | none => if m.isUnresolved site then some (.unresolved site) else none

/-- The **verdict** on a program under a denylist: the finding at the first call site that has
one. -/
def verdict (m : Model) (denylist : List Descriptor) : Verdict :=
  if denylist.isEmpty then .passed 0
  else (m.sites.findSome? (m.finding? (denylist.map Descriptor.canonical))).getD
    (.passed m.sites.length)

end Model

end CapabilityGate
