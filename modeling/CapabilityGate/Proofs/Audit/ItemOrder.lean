import CapabilityGate.Audit.Report
import CapabilityGate.Proofs.Audit.FirstOffence
import CapabilityGate.Proofs.Audit.Rejection
import CapabilityGate.Proofs.Resolution.AlikeSites
import CapabilityGate.Proofs.Resolution.DeclarationOrder

/-!
# The order of items and the audit

Items may stand in any order, and those in the body of a function declare their names for the
module around it. The audit collects all declarations before it looks up anything, so it mostly
does not see in which order they come. It does in four things: the imports of one name, the globs
of one module, names for types that stand for each other, and the types of local names, which are
passed on from one function to the next.

## Main definitions

* `SourceFile.localCalls`: the method calls on local names of a program, each with the mention
  that gave the name its type.
* `KeepsOrder`: a rearrangement that leaves these four things as they are.
* `TurnsVerdict`: a rearrangement on which an audit comes to another verdict.

## Main results

* `sites_matched`: rearrangements that keep the order of these have alike call sites.
* `rejects_of_items_moved`: an audit rejects both or neither.
* `order_turns_verdicts`: each of the four things can turn a verdict round.
-/

namespace CapabilityGate

open Program

/-! ### Offences at alike call sites -/

section Alike

variable {s t : CallSite} (h : s.Alike t)

include h

/-- A descriptor covers alike call sites, or neither. -/
theorem CallSite.Alike.covers_eq (d : Descriptor) : d.covers s = d.covers t := by
  have hcallee : s.callee = t.callee := by rw [callee, callee, h.container, h.method]
  rw [Descriptor.covers, Descriptor.covers, h.kind, h.container, h.method, hcallee]

/-- Alike call sites offend against a denylist in programs with alike names, or neither does. -/
theorem CallSite.Alike.offends_iff {m k : Model} (hnames : m.names.Alike k.names)
    (denylist : List Descriptor) : m.Offends denylist s ↔ k.Offends denylist t := by
  have hunresolved : m.isUnresolved s = k.isUnresolved t := by
    rw [Model.isUnresolved, Model.isUnresolved, h.container, h.method]
    simp only [hnames.isMissing_eq]
  rw [Model.Offends, Model.Offends, hunresolved]
  simp only [h.covers_eq]

end Alike

/-- An audit **rejects** a program when something is denied and a call site offends. -/
theorem Model.rejects_iff {m : Model} {denylist : List Descriptor} :
    (m.verdict denylist).rejects = true ↔
      denylist ≠ [] ∧ ∃ site ∈ m.sites, m.Offends denylist site := by
  by_cases hne : denylist = []
  · subst hne
    simp [verdict, Verdict.rejects, Verdict.offending?]
  · rcases m.exists_firstOffence denylist with hpass | ⟨i, site, hfirst⟩
    · rw [verdict_of_no_offence hne hpass]
      simp only [Verdict.rejects, Verdict.offending?, Option.isSome_none, Bool.false_eq_true,
        false_iff]
      rintro ⟨-, site, hsite, hoffends⟩
      exact hpass site hsite hoffends
    · have hrejects := rejects_of_finding (verdict_of_firstOffence hne hfirst)
      simp only [hrejects, true_iff]
      exact ⟨hne, site, List.mem_of_getElem? hfirst.at_, hfirst.offends⟩

/-! ### Rearrangements that keep what depends on order -/

/-- The **method calls on local names** in a program, each with the mention that gave the name its
type. -/
def Program.SourceFile.localCalls (p : SourceFile) : List LocalCall :=
  (Names.ofProgram p).localCalls [] p.mentions

/-- A rearrangement **keeps the order** of what depends on order. -/
structure KeepsOrder (p q : SourceFile) : Prop where
  /-- It keeps the names of the program. -/
  names : KeepsNames p q
  /-- A local name that a method is called on got its type from the same place. -/
  calls : Matched LocalCall.Alike p.localCalls q.localCalls

variable {p q : SourceFile}

/-- Rearrangements that keep the order of what depends on it have **alike call sites**. -/
theorem sites_matched (h : p.Rearranged q) (hkeeps : KeepsOrder p q) :
    Matched CallSite.Alike (Model.ofProgram p).sites (Model.ofProgram q).sites :=
  (hkeeps.names.alike h).sitesOfAll_matched h.mentioned hkeeps.calls

/-- **The order of items does not matter to an audit**, whatever is denied, as long as the items are
moved in such a way that of several imports of a name in a module the last one is the same, that
the globs of a module keep their order, that a name for a type stands for the same type, and that
each local name which a method is called on got its type last from the same place. -/
theorem rejects_of_items_moved (h : p.Rearranged q) (hkeeps : KeepsOrder p q)
    (denylist : List Descriptor) :
    (AuditReport.ofProgram q denylist).verdict.rejects = true ↔
      (AuditReport.ofProgram p denylist).verdict.rejects = true := by
  have hnames : (Model.ofProgram p).names.Alike (Model.ofProgram q).names := hkeeps.names.alike h
  have hoffence := (sites_matched h hkeeps).exists_iff fun s t hst =>
    hst.offends_iff hnames (withoutRepeats denylist)
  rw [AuditReport.ofProgram, AuditReport.ofProgram, Model.rejects_iff, Model.rejects_iff, hoffence]

/-- The import of `std::fs::read` as `load`. -/
def loadImport : Item :=
  .use [] false (.under ⟨"std", Eq.refl true⟩
    (.under ⟨"fs", Eq.refl true⟩ (.rename ⟨"read", Eq.refl true⟩ ⟨"load", Eq.refl true⟩)))

/-- The name `Pool` for the type `std::net::TcpStream`. -/
def poolAlias : Item :=
  .typeAlias [] ⟨"Pool", Eq.refl true⟩
    (.path (pathOf [⟨"std", Eq.refl true⟩, ⟨"net", Eq.refl true⟩, ⟨"TcpStream", Eq.refl true⟩]))

/-- The parameter `s` with the type that a path names. -/
def parameterOf (type : Path) : Part :=
  .pattern (.typed [] (.bind ⟨"s", Eq.refl true⟩ []) (.path type))

/-- The call of a method of `s`. -/
def methodOf (name : Word) : Part :=
  .expr (.method (.path .start (pathOf [⟨"s", Eq.refl true⟩])) name .start [] [])

/-- The tree of `mod m { fn a() {} fn b() { load(); } }`, `use std::fs::read as load;`,
`type Pool = std::net::TcpStream;` and `fn f(s: Pool) { s.shutdown(); }`. -/
def moduleFirst : SourceFile :=
  ⟨[], [.module ⟨"m", Eq.refl true⟩ [.item (.declaration .function ⟨"a", Eq.refl true⟩ []),
      .item (.declaration .function ⟨"b", Eq.refl true⟩ [callOf [⟨"load", Eq.refl true⟩]])],
    loadImport, poolAlias, functionOf [parameterOf (pathOf [⟨"Pool", Eq.refl true⟩]),
      methodOf ⟨"shutdown", Eq.refl true⟩]]⟩

/-- The tree of `moduleFirst` with all items in reverse order, those of the module too. -/
def moduleLast : SourceFile :=
  ⟨[], [functionOf [parameterOf (pathOf [⟨"Pool", Eq.refl true⟩]),
      methodOf ⟨"shutdown", Eq.refl true⟩],
    poolAlias, loadImport, .module ⟨"m", Eq.refl true⟩ [
      .item (.declaration .function ⟨"b", Eq.refl true⟩ [callOf [⟨"load", Eq.refl true⟩]]),
      .item (.declaration .function ⟨"a", Eq.refl true⟩ [])]]⟩

/-- The call of `shutdown` in `moduleFirst`, with the parameter that gave `s` its type. -/
def shutdownCall : LocalCall :=
  ⟨(⟨[], none⟩, .method (.path .start (pathOf [⟨"s", Eq.refl true⟩])) "shutdown" .start),
    some (⟨[], none⟩, .typed "s" (.path (pathOf [⟨"Pool", Eq.refl true⟩])))⟩

/-- The audit of `moduleFirst` and `moduleLast` comes to one verdict, since neither imports nor
names for types are moved past each other, and `s` has its type from the parameter in both. -/
theorem rejects_of_module_moved :
    moduleFirst.Rearranged moduleLast ∧ KeepsOrder moduleFirst moduleLast ∧
      ∀ denylist : List Descriptor,
        ((AuditReport.ofProgram moduleLast denylist).verdict.rejects = true ↔
          (AuditReport.ofProgram moduleFirst denylist).verdict.rejects = true) := by
  have hmoved : moduleFirst.Rearranged moduleLast :=
    .mk (.cons (.item (.module (ItemsMoved.rearranged ⟨.swap .., rfl⟩))) (PartsInPlace.refl _))
      ⟨(List.reverse_perm _).symm, rfl⟩
  have hfirst : moduleFirst.localCalls = [shutdownCall] := rfl
  have hlast : moduleLast.localCalls = [shutdownCall] := rfl
  have hkeeps : KeepsOrder moduleFirst moduleLast := by
    refine ⟨.of_in_order hmoved rfl (.cons (.same _) .nil), ?_⟩
    rw [hfirst, hlast]
    exact .singleton ⟨⟨.free, .method (Expr.Rearranged.refl _)⟩,
      .some ⟨.free, .typed (Ty.Rearranged.refl _)⟩⟩
  exact ⟨hmoved, hkeeps, rejects_of_items_moved hmoved hkeeps⟩

/-! ### Where order shows -/

/-- A rearrangement turns the **verdict** under a denylist round: the program passes, and is
rejected when it is rearranged. -/
structure TurnsVerdict (p q : SourceFile) (denylist : List Descriptor) : Prop where
  /-- It is a rearrangement. -/
  moved : p.Rearranged q
  /-- The program passes. -/
  passes : (AuditReport.ofProgram p denylist).verdict.rejects = false
  /-- What is rearranged does not. -/
  rejects : (AuditReport.ofProgram q denylist).verdict.rejects = true

/-- Two programs are rearrangements when the first two items of one are swapped in the other. -/
theorem rearranged_of_swap (i j : Item) (rest : List Item) :
    SourceFile.Rearranged ⟨[], i :: j :: rest⟩ ⟨[], j :: i :: rest⟩ :=
  ItemsMoved.rearranged ⟨.swap .., rfl⟩

/-- A function that imports something from `std` as `r`, and calls it. -/
def importingCall (name from_ what : Word) : Item :=
  .declaration .function name [.item (.use [] false (.under ⟨"std", Eq.refl true⟩
    (.under from_ (.rename what ⟨"r", Eq.refl true⟩)))), callOf [⟨"r", Eq.refl true⟩]]

/-- The path `std::fs::File`. -/
def filePath : Path :=
  pathOf [⟨"std", Eq.refl true⟩, ⟨"fs", Eq.refl true⟩, ⟨"File", Eq.refl true⟩]

/-- The glob import of all that a module offers. -/
def globOf (module : Word) : Item :=
  .use [] false (.under module .glob)

/-- The modules `a` with a file type `T` from the standard library, and `b` with one of its own,
and a function that reads from a parameter of type `T`. -/
def modulesOfGlobs : List Item :=
  [.module ⟨"a", Eq.refl true⟩ [.item (.use [] false (.under ⟨"std", Eq.refl true⟩
      (.under ⟨"fs", Eq.refl true⟩ (.rename ⟨"File", Eq.refl true⟩ ⟨"T", Eq.refl true⟩))))],
    .module ⟨"b", Eq.refl true⟩ [.item (.declaration .structure_ ⟨"T", Eq.refl true⟩ [])],
    functionOf [parameterOf (pathOf [⟨"T", Eq.refl true⟩]), methodOf ⟨"read", Eq.refl true⟩]]

/-- The name `A` for the type `T<B>`. -/
def genericAlias : Item :=
  .typeAlias [] ⟨"A", Eq.refl true⟩ (.path (.mk false [.mk ⟨"T", Eq.refl true⟩ .angle
    [.type (.path (pathOf [⟨"B", Eq.refl true⟩]))]]))

/-- The name `B` for the type `std::fs::File`. -/
def fileAlias : Item :=
  .typeAlias [] ⟨"B", Eq.refl true⟩ (.path filePath)

/-- The import of the type `k::T`, and a function that makes a value of type `A`. -/
def callOfAlias : List Item :=
  [.use [] false (.under ⟨"k", Eq.refl true⟩ (.name ⟨"T", Eq.refl true⟩)),
    functionOf [callOf [⟨"A", Eq.refl true⟩, ⟨"new", Eq.refl true⟩]]]

/-- **The order of items can turn a verdict round**: that of two functions which import different
things under one name, that of two globs which offer the same name, that of two names for types of
which one stands for the other, and that of two functions of which one has a parameter that the
other one has not. -/
theorem order_turns_verdicts :
    TurnsVerdict
        ⟨[], [importingCall ⟨"f", Eq.refl true⟩ ⟨"fs", Eq.refl true⟩ ⟨"read", Eq.refl true⟩,
          importingCall ⟨"g", Eq.refl true⟩ ⟨"mem", Eq.refl true⟩ ⟨"drop", Eq.refl true⟩]⟩
        ⟨[], [importingCall ⟨"g", Eq.refl true⟩ ⟨"mem", Eq.refl true⟩ ⟨"drop", Eq.refl true⟩,
          importingCall ⟨"f", Eq.refl true⟩ ⟨"fs", Eq.refl true⟩ ⟨"read", Eq.refl true⟩]⟩
        [⟨.ofPath "std::fs", none⟩] ∧
      TurnsVerdict
        ⟨[], globOf ⟨"b", Eq.refl true⟩ :: globOf ⟨"a", Eq.refl true⟩ :: modulesOfGlobs⟩
        ⟨[], globOf ⟨"a", Eq.refl true⟩ :: globOf ⟨"b", Eq.refl true⟩ :: modulesOfGlobs⟩
        [⟨.ofPath "std::fs::File", none⟩] ∧
      TurnsVerdict
        ⟨[], genericAlias :: fileAlias :: callOfAlias⟩
        ⟨[], fileAlias :: genericAlias :: callOfAlias⟩
        [⟨.apply "k::T" [.ofPath "std::fs::File"], none⟩] ∧
      TurnsVerdict
        ⟨[], [functionOf [methodOf ⟨"read", Eq.refl true⟩], functionOf [parameterOf filePath]]⟩
        ⟨[], [functionOf [parameterOf filePath], functionOf [methodOf ⟨"read", Eq.refl true⟩]]⟩
        [⟨.ofPath "std::fs::File", none⟩] := by
  refine ⟨⟨rearranged_of_swap .., ?_, ?_⟩, ⟨rearranged_of_swap .., ?_, ?_⟩,
    ⟨rearranged_of_swap .., ?_, ?_⟩, ⟨rearranged_of_swap .., ?_, ?_⟩⟩
  all_goals decide

end CapabilityGate
