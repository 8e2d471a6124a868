import CapabilityGate.Proofs.Audit.DescriptorMeaning
import CapabilityGate.Proofs.Report.FormReading

/-!
# Reading reports back

What is reported of a program and its run is written as a JSON text, on one line or indented, and
can be read from either text again, as long as the container of the call site in it is readable: a
path of identifiers, with generic arguments of the same kind. A program may call a method of a
slice, a tuple or a trait object. The text of such a container is refused where it is read, or read
as a different type.

## Main definitions

* `ReadsBack`: a value is read back from its texts.
* `Model.Bounded`: the numbers in a model are those of the machine words that hold them.

## Main results

* `readsBack_iff`: a value is read back from its texts exactly when it is read from its form.
* `Model.verdict_cases`: what a verdict names.
* `Model.readable_of_verdict`: descriptors that are denied stay readable in the verdict.
* `reads_back_iff_readable`: which call sites, outcomes, verdicts and reports are read back.
* `slice_not_read_back`: those that name a call of a method of a slice are not.
-/

namespace CapabilityGate

open Form JsonText Program

/-! ### Texts -/

section Texts

variable {α : Type} {form : α → Data} {ofForm : Reads α} {a : α}

/-- A value is **read back** when both its texts, the one on one line and the indented one, are read
as its form, and the form as the value. -/
structure ReadsBack (form : α → Data) (ofForm : Reads α) (a : α) : Prop where
  /-- It is read from its text on one line. -/
  compact : (read (compact (form a))).map ofForm = some (.ok a)
  /-- It is read from its indented text. -/
  indented : (read (indented (form a))).map ofForm = some (.ok a)

/-- A value is read back from its texts exactly when it is read **from its form**. -/
theorem readsBack_iff (h : Writable maxDepth (form a)) :
    ReadsBack form ofForm a ↔ ofForm (form a) = .ok a := by
  constructor
  · intro hread
    have hcompact := hread.compact
    rw [read_compact h] at hcompact
    exact Option.some.inj hcompact
  · intro hread
    constructor
    · rw [read_compact h, Option.map_some, hread]
    · rw [read_indented h, Option.map_some, hread]

end Texts

/-! ### Verdicts on programs -/

/-- A proper path is proper in full. -/
theorem properPath_fullPath {path : String} (h : TypeName.ProperPath path) :
    TypeName.ProperPath (normalPath (fullPath path)) := by
  cases hfull : prelude? path with
  | none =>
      rw [fullPath, hfull, Option.getD_none, h.1]
      exact h
  | some full =>
      have hall : ∀ entry ∈ preludePaths, TypeName.ProperPath entry.2 := by decide +kernel
      have hproper := hall (path, full) (mem_of_prelude hfull)
      rw [fullPath, hfull, Option.getD_some, hproper.1]
      exact hproper

mutual

/-- The canonical form of a readable type is **readable**. -/
theorem readable_canonical : ∀ {t : TypeName}, t.Readable → (Model.canonical t).Readable
  | .mk path args, ⟨hpath, hargs⟩ => by
    rw [Model.canonical_mk]
    exact ⟨properPath_fullPath hpath, readable_canonicalAll hargs⟩

theorem readable_canonicalAll : ∀ {ts : List TypeName},
    TypeName.ArgsAllPaths TypeName.ProperPath ts →
      TypeName.ArgsAllPaths TypeName.ProperPath (Model.canonicalAll ts)
  | [], _ => trivial
  | _ :: _, ⟨hfirst, hrest⟩ => ⟨readable_canonical hfirst, readable_canonicalAll hrest⟩

end

/-- A model is **bounded** when its call sites are, and their number is one of 64 bits. -/
structure Model.Bounded (m : Model) : Prop where
  /-- The call sites are bounded. -/
  sites : ∀ s ∈ m.sites, s.Bounded
  /-- Their number is. -/
  length : m.sites.length < Nat.pow 2 64

/-- A verdict names **a call site of the program and a denied descriptor** in canonical form, or
counts call sites. -/
theorem Model.verdict_cases (m : Model) (denylist : List Descriptor) :
    (∃ scanned ≤ m.sites.length, m.verdict denylist = .passed scanned) ∨
      ∃ site ∈ m.sites, (∃ d ∈ denylist, m.verdict denylist = .violation site d.canonical) ∨
        m.verdict denylist = .unresolved site := by
  rw [verdict]
  split
  · exact Or.inl ⟨0, Nat.zero_le _, rfl⟩
  · cases hfound : m.sites.findSome? (m.finding? (denylist.map Descriptor.canonical)) with
    | none => exact Or.inl ⟨m.sites.length, Nat.le_refl _, rfl⟩
    | some v =>
        obtain ⟨site, hsite, hfinding⟩ := List.exists_of_findSome?_eq_some hfound
        refine Or.inr ⟨site, hsite, ?_⟩
        rw [Option.getD_some]
        rw [finding?] at hfinding
        split at hfinding
        next d hd =>
          obtain ⟨written, hwritten, rfl⟩ := List.mem_map.mp (List.mem_of_find?_eq_some hd)
          exact Or.inl ⟨written, hwritten, (Option.some.inj hfinding).symm⟩
        next =>
          split at hfinding
          · exact Or.inr (Option.some.inj hfinding).symm
          · cases hfinding

/-- The verdict on a bounded model is **bounded**. -/
theorem Model.Bounded.verdict {m : Model} (hm : m.Bounded) (denylist : List Descriptor) :
    (m.verdict denylist).Bounded := by
  rcases m.verdict_cases denylist with
    ⟨scanned, hle, heq⟩ | ⟨site, hsite, ⟨d, -, heq⟩ | heq⟩
  · rw [heq]
    exact Nat.lt_of_le_of_lt hle hm.length
  · rw [heq]
    exact hm.sites site hsite
  · rw [heq]
    exact hm.sites site hsite

/-- The descriptor in a verdict is **readable** if the denied ones are. -/
theorem Model.readable_of_verdict {m : Model} {denylist : List Descriptor}
    (hdenied : ∀ d ∈ denylist, d.Readable) : ∀ d ∈ (m.verdict denylist).violated?, d.Readable := by
  rcases m.verdict_cases denylist with
    ⟨scanned, -, heq⟩ | ⟨site, -, ⟨d, hd, heq⟩ | heq⟩
  · rw [heq]
    exact fun _ => nofun
  · rw [heq]
    rintro _ ⟨⟩
    exact ⟨readable_canonical (hdenied d hd).target, (hdenied d hd).method⟩
  · rw [heq]
    exact fun _ => nofun

/-! ### What is read back -/

/-- **What is reported can be read back** exactly when what it names is readable: each call site of
a program when its container is, the outcome of a run and its report when they name no call site or
one with such a container, and the verdict on the program when this holds of its call site and its
descriptor is readable too. A descriptor always is if those that are denied are read from texts. -/
theorem reads_back_iff_readable {m : Model} (hm : m.Bounded) (denylist : List Descriptor)
    {r : RunReport} (hr : r.Bounded) :
    (∀ s ∈ m.sites, ReadsBack CallSite.form CallSite.ofForm s ↔ s.container.Readable) ∧
    ((ReadsBack Verdict.form Verdict.ofForm (m.verdict denylist) ↔
        (∀ s ∈ (m.verdict denylist).offending?, s.container.Readable) ∧
          ∀ d ∈ (m.verdict denylist).violated?, d.Readable) ∧
      ((∀ d ∈ denylist, ∃ text, Descriptor.parse text = .ok d) →
        ∀ d ∈ (m.verdict denylist).violated?, d.Readable)) ∧
    (ReadsBack Outcome.form Outcome.ofForm r.outcome ↔
      ∀ s ∈ r.outcome.denied?, s.container.Readable) ∧
    (ReadsBack RunReport.form RunReport.ofForm r ↔
      ∀ s ∈ r.outcome.denied?, s.container.Readable) := by
  refine ⟨?_, ⟨?_, ?_⟩, ?_, ?_⟩
  · intro s hs
    rw [readsBack_iff (s.writable_form 126), CallSite.ofForm_form_iff (hm.sites s hs)]
  · rw [readsBack_iff (Verdict.writable_form 125 _), Verdict.ofForm_form_iff (hm.verdict denylist)]
  · intro hparsed
    refine Model.readable_of_verdict fun d hd => ?_
    obtain ⟨text, hparse⟩ := hparsed d hd
    exact Descriptor.readable_of_parse hparse
  · rw [readsBack_iff (r.outcome.writable_form 124), Outcome.ofForm_form_iff hr.outcome]
  · rw [readsBack_iff (r.writable_form 123), RunReport.ofForm_form_iff hr]

/-- The call site of `fn f() { core::fs::read(); }`. -/
def readOfFile : CallSite :=
  ⟨.mk "std::fs" [], "read", .path, 1, 1⟩

/-- The report of a run that is refused for this call site. -/
def refusedForRead : RunReport :=
  ⟨⟨List.replicate 32 '0'⟩, .policyViolation readOfFile, "", [], none, 0⟩

/-- The call of a function is read back by itself, and as the reason for a verdict, an outcome and
the report of a run. -/
theorem full_call_reads_back :
    ReadsBack CallSite.form CallSite.ofForm readOfFile ∧
    ReadsBack Verdict.form Verdict.ofForm
      ((Model.ofProgram fullCall).verdict [⟨.mk "std::fs" [], none⟩]) ∧
    ReadsBack Outcome.form Outcome.ofForm refusedForRead.outcome ∧
    ReadsBack RunReport.form RunReport.ofForm refusedForRead := by
  have hbounded : readOfFile.Bounded := ⟨by decide, by decide⟩
  have hreadable : ∀ s ∈ some readOfFile, s.container.Readable := by
    rintro s ⟨⟩
    exact ⟨by decide, trivial⟩
  have hsites : (Model.ofProgram fullCall).sites = [readOfFile] := by decide +kernel
  have hmodel : (Model.ofProgram fullCall).Bounded := by
    constructor
    · rw [hsites]
      simpa using hbounded
    · rw [hsites]
      decide
  have hparsed : ∀ d ∈ [Descriptor.mk (.mk "std::fs" []) none],
      ∃ text, Descriptor.parse text = .ok d := by
    intro d hd
    obtain rfl := List.mem_singleton.mp hd
    exact ⟨"std::fs", rfl⟩
  have hreport : refusedForRead.Bounded := ⟨by decide, hbounded, Nat.two_pow_pos 64⟩
  have hoffending : ((Model.ofProgram fullCall).verdict [⟨.mk "std::fs" [], none⟩]).offending? =
      some readOfFile := by decide +kernel
  obtain ⟨hsite, ⟨hverdict, hviolated⟩, houtcome, hrun⟩ :=
    reads_back_iff_readable hmodel [⟨.mk "std::fs" [], none⟩] hreport
  refine ⟨(hsite readOfFile ?_).mpr (hreadable _ rfl),
    hverdict.mpr ⟨hoffending ▸ hreadable, hviolated hparsed⟩, houtcome.mpr hreadable,
    hrun.mpr hreadable⟩
  rw [hsites]
  exact List.mem_singleton_self _

/-- The tree of `fn f(x: &[u8]) { x.len(); }`. -/
def lengthOfSlice : SourceFile :=
  ⟨[], [functionOf [.pattern (.typed [] (.bind ⟨"x", by decide⟩ []) (.wrapped (.other "[u8]"
      [.type (.path (.mk false [.mk ⟨"u8", by decide⟩ .none []]))]))),
    .expr (.method (.path ⟨1, 18⟩ (.mk false [.mk ⟨"x", by decide⟩ .none []])) ⟨"len", by decide⟩
      ⟨1, 20⟩ [] [])]]⟩

/-- **A call of a method of a slice is not read back**: the text of the slice is no path. The text
of a trait object with arguments is read, but as a type with these arguments. -/
theorem slice_not_read_back :
    (∃ s ∈ (Model.ofProgram lengthOfSlice).sites, ¬ ReadsBack CallSite.form CallSite.ofForm s) ∧
    TypeName.parse (TypeName.mk "dynFoo<u8>" []).text = .ok (.mk "dynFoo" [.mk "u8" []]) := by
  have hsites : (Model.ofProgram lengthOfSlice).sites =
      [⟨.mk "[u8]" [], "len", .method, 1, 20⟩] := by decide +kernel
  refine ⟨⟨_, by rw [hsites]; exact List.mem_singleton_self _, ?_⟩, by decide +kernel⟩
  rw [readsBack_iff (CallSite.writable_form 126 _), CallSite.ofForm_form_iff ⟨by decide, by decide⟩]
  exact fun h => absurd h.1 (by decide)

end CapabilityGate
