import CapabilityGate.Proofs.Audit.Strictness
import CapabilityGate.Proofs.Capability.TypeText
import CapabilityGate.Proofs.Resolution.RespelledSites

/-!
# Verdicts in two spellings

A call site falls under a descriptor in both spellings or in neither, if the names in the descriptor
keep their spelling, and it points into the program at nothing in both or in neither. So programs in
two spellings come to verdicts of one kind, for the same call site as far as it goes by its place in
the list of all.

## Main definitions

* `Descriptor.Kept`: all names in a descriptor keep their spelling.
* `Model.SameVerdict`: two programs come to verdicts of one kind, for call sites with one index.

## Main results

* `Descriptor.Kept.covers_eq`: such a descriptor covers the same in two spellings.
* `Model.sameVerdict_of_respelled`: programs in two spellings come to the same verdict.
-/

namespace CapabilityGate

open Program

open List (Forall₂ rel_append)

variable {σ : Spelling}

/-! ### Types that are denied -/

/-- A name that may be denied **keeps its spelling** if it is a word. -/
def Spelling.KeepsName (σ : Spelling) (name : String) : Prop :=
  isIdentifier name.toList = true ∧ (Program.isWord name = true → σ.word name name)

/-- A path of such names is that of a type in both spellings or in neither. -/
theorem Spelling.Path.eq_kept_iff {p q path : String} (h : σ.Path p q)
    (hpath : ∀ name ∈ splitPath path, σ.KeepsName name) : path = p ↔ path = q := by
  have hsplit : ∀ x : String, path = x ↔ splitPath x = splitPath path := fun x =>
    ⟨fun h => h ▸ rfl, fun h => splitPath_injective h.symm⟩
  rw [hsplit p, hsplit q]
  have hnames := h.names
  revert hpath hnames
  generalize splitPath path = names
  generalize splitPath p = as
  generalize splitPath q = bs
  intro hpath hnames
  induction hnames generalizing names with
  | nil => exact Iff.rfl
  | cons h _ ih =>
      cases names with
      | nil => simp
      | cons name names =>
          obtain ⟨hname, hkept⟩ := hpath name (List.mem_cons_self ..)
          rw [List.cons.injEq, List.cons.injEq, h.eq_denied_iff hname hkept]
          exact and_congr_right fun _ => ih names fun n hn =>
            hpath n (List.mem_cons_of_mem _ hn)

/-- All names in the paths of a type **keep their spelling**. -/
def TypeName.Kept (σ : Spelling) (t : TypeName) : Prop :=
  t.AllPaths fun path => ∀ name ∈ splitPath path, σ.KeepsName name

mutual

/-- A type is an **instance** of such a pattern in both spellings or in neither. -/
theorem TypeName.Kept.instanceOf_eq : ∀ {s x y : TypeName}, s.Kept σ → x.Respelled σ y →
    instanceOf s x = instanceOf s y
  | .mk _ [], _, _, hs, .mk hpath _ => by
    rw [instanceOf, instanceOf, Bool.eq_iff_iff, beq_iff_eq, beq_iff_eq]
    exact hpath.eq_kept_iff hs.1
  | .mk _ (_ :: _), _, _, hs, .mk hpath hargs => by
    have hsame := instancesOf_eq_of_kept hs.2 hargs
    rw [instanceOf, instanceOf, hsame, Bool.eq_iff_iff, Bool.and_eq_true, Bool.and_eq_true,
      beq_iff_eq, beq_iff_eq, hpath.eq_kept_iff hs.1]

theorem instancesOf_eq_of_kept : ∀ {ss xs ys : List TypeName},
    TypeName.ArgsAllPaths (fun path => ∀ name ∈ splitPath path, σ.KeepsName name) ss →
      TypesRespelled σ xs ys → instancesOf ss xs = instancesOf ss ys
  | [], _, _, _, .nil => rfl
  | [], _, _, _, .cons _ _ => rfl
  | _ :: _, _, _, _, .nil => rfl
  | _ :: _, _, _, hs, .cons h hrest => by
    rw [instancesOf, instancesOf, TypeName.Kept.instanceOf_eq hs.1 h,
      instancesOf_eq_of_kept hs.2 hrest]

end

/-- Known names are identifiers that keep their spelling. -/
theorem keepsName_of_known {name : String} (h : name ∈ knownNames) : σ.KeepsName name := by
  have hidentifiers : ∀ name ∈ knownNames, isIdentifier name.toList = true := by decide +kernel
  exact ⟨hidentifiers name h, fun _ => σ.known name h⟩

/-- The names of a path in full keep their spelling when those of the path do. -/
theorem keepsName_fullPath {path : String} (hnormal : normalPath path = path)
    (hpath : ∀ name ∈ splitPath path, σ.KeepsName name) :
    ∀ name ∈ splitPath (normalPath (fullPath path)), σ.KeepsName name := by
  rw [normalPath_fullPath hnormal, fullPath]
  cases hprelude : prelude? path with
  | none => exact hpath
  | some full =>
      obtain ⟨-, hknown⟩ := Names.names_of_prelude hprelude
      exact fun name hname => keepsName_of_known (hknown name hname)

mutual

/-- The **canonical form** of a type keeps its spelling when the type does. -/
theorem TypeName.Kept.canonical : ∀ {t : TypeName}, t.AllPaths TypeName.ProperPath → t.Kept σ →
    (Model.canonical t).Kept σ
  | .mk _ _, hproper, h => by
    rw [Model.canonical_mk]
    exact ⟨keepsName_fullPath hproper.1.1 h.1, kept_canonicalAll hproper.2 h.2⟩

theorem kept_canonicalAll : ∀ {ts : List TypeName}, TypeName.ArgsAllPaths TypeName.ProperPath ts →
    TypeName.ArgsAllPaths (fun path => ∀ name ∈ splitPath path, σ.KeepsName name) ts →
      TypeName.ArgsAllPaths (fun path => ∀ name ∈ splitPath path, σ.KeepsName name)
        (Model.canonicalAll ts)
  | [], _, _ => trivial
  | _ :: _, hproper, h =>
    ⟨TypeName.Kept.canonical hproper.1 h.1, kept_canonicalAll hproper.2 h.2⟩

end

/-! ### Call sites -/

/-- The item that a call site names is the same in two spellings. -/
theorem CallSite.Respelled.callee {s t : CallSite} (h : s.Respelled σ t) :
    s.callee.Respelled σ t.callee := by
  have hpath : ∀ s : CallSite, s.callee =
      .mk (normalPath (joinPath (splitPath s.container.path ++ [s.method]))) [] := by
    intro s
    rw [CallSite.callee, TypeName.ofPath, joinPath_concat (splitPath_ne_nil _),
      joinPath_splitPath]
  rw [hpath, hpath]
  exact .mk (Spelling.path_joinPath
    (rel_append h.container.path.names (.cons h.method .nil)) (by simp)) .nil

namespace Descriptor

/-- All names in a descriptor **keep their spelling**. -/
def Kept (σ : Spelling) (d : Descriptor) : Prop :=
  d.AllNames σ.KeepsName

/-- The canonical form of a descriptor that is parsed keeps its spelling, if the **words in the
descriptor** do. -/
theorem kept_of_parse {text : String} {d : Descriptor} (hparse : parse text = .ok d)
    (h : d.AllNames fun name => isWord name = true → σ.word name name) : d.canonical.Kept σ := by
  obtain ⟨hproper, hmethod⟩ := proper_of_parse hparse
  refine ⟨TypeName.Kept.canonical hproper (hproper.imp ?_ h.target), fun name hname =>
    ⟨hmethod name hname, h.method name hname⟩⟩
  intro path hpath hwords name hname
  exact ⟨List.all_eq_true.mp hpath.2 name hname, hwords name hname⟩

variable {d : Descriptor} (h : d.Kept σ)

include h

theorem Kept.agrees_eq (kind : CallKind) {s t : TypeName} (htype : s.Respelled σ t) :
    d.agrees kind s = d.agrees kind t := by
  cases kind with
  | macroBody =>
      obtain ⟨target, method⟩ := d
      obtain ⟨path, args⟩ := target
      rw [agrees, agrees, Bool.eq_iff_iff, beq_iff_eq, beq_iff_eq]
      exact htype.path.eq_kept_iff h.target.1
  | path | method | reference => exact TypeName.Kept.instanceOf_eq h.target htype

/-- A call site falls under such a descriptor **in both spellings or in neither**. -/
theorem Kept.covers_eq {s t : CallSite} (hsite : s.Respelled σ t) : d.covers s = d.covers t := by
  have hmethod : d.method.all (· == s.method) = d.method.all (· == t.method) := by
    have hname := h.method
    revert hname
    cases d.method with
    | none => exact fun _ => rfl
    | some name =>
        intro hname
        obtain ⟨hidentifier, hkept⟩ := hname name rfl
        rw [Option.all_some, Option.all_some, Bool.eq_iff_iff, beq_iff_eq, beq_iff_eq,
          eq_comm, hsite.method.eq_denied_iff hidentifier hkept, eq_comm]
  rw [covers, covers, hsite.kind, h.agrees_eq _ hsite.container, hmethod]
  cases t.kind with
  | method => rfl
  | path | reference | macroBody =>
      dsimp only
      rw [h.agrees_eq _ hsite.callee]

end Descriptor

/-! ### Verdicts -/

namespace Model

/-- A call site points into the program at nothing it declares **in both spellings or in
neither**. -/
theorem isUnresolved_respelled {m o : Model} (hn : m.names.Respelled σ o.names) {s t : CallSite}
    (h : s.Respelled σ t) : m.isUnresolved s = o.isUnresolved t := by
  have hnames := h.container.path.names
  rw [isUnresolved, isUnresolved]
  generalize splitPath s.container.path = as at hnames
  generalize splitPath t.container.path = bs at hnames
  cases hnames with
  | nil => rfl
  | cons hroot hrest =>
      dsimp only
      rw [hroot.beq_known (by decide),
        hn.isMissing_eq .nil (rel_append hrest (.cons h.method .nil))]

/-- Two programs come to verdicts **of one kind, for call sites with one index**. -/
inductive SameVerdict (m o : Model) (denylist : List Descriptor) : Prop
  /-- Both pass, after as many call sites. -/
  | passed (scanned : Nat) (h : m.verdict (withoutRepeats denylist) = .passed scanned)
      (hother : o.verdict (withoutRepeats denylist) = .passed scanned)
  /-- A descriptor covers both call sites, which are the first that offend. -/
  | violation (i : Nat) (s t : CallSite) (d e : Descriptor) (hs : m.FirstOffence denylist i s)
      (ht : o.FirstOffence denylist i t)
      (h : m.verdict (withoutRepeats denylist) = .violation s d)
      (hother : o.verdict (withoutRepeats denylist) = .violation t e)
  /-- Nothing is known of both call sites, which are the first that offend. -/
  | unresolved (i : Nat) (s t : CallSite) (hs : m.FirstOffence denylist i s)
      (ht : o.FirstOffence denylist i t)
      (h : m.verdict (withoutRepeats denylist) = .unresolved s)
      (hother : o.verdict (withoutRepeats denylist) = .unresolved t)

variable {m o : Model} {denylist : List Descriptor} {s t : CallSite}

/-- Programs that come to the same verdict are both rejected, or both pass. -/
theorem SameVerdict.rejects_eq (h : SameVerdict m o denylist) :
    (m.verdict (withoutRepeats denylist)).rejects =
      (o.verdict (withoutRepeats denylist)).rejects := by
  cases h with
  | passed _ h hother => rw [h, hother]
  | violation _ _ _ _ _ _ _ h hother => rw [h, hother]; rfl
  | unresolved _ _ _ _ _ h hother => rw [h, hother]; rfl

section Same

variable (hn : m.names.Respelled σ o.names) (hkept : ∀ d ∈ denylist, d.canonical.Kept σ)

include hkept

/-- The same descriptor is the first that covers a call site in both spellings. -/
theorem find?_respelled (h : s.Respelled σ t) :
    denylist.find? (·.canonical.covers s) = denylist.find? (·.canonical.covers t) := by
  induction denylist with
  | nil => rfl
  | cons d rest ih =>
      rw [List.find?_cons, List.find?_cons, (hkept d (List.mem_cons_self ..)).covers_eq h,
        ih fun e he => hkept e (List.mem_cons_of_mem _ he)]

include hn

/-- A call site offends in both spellings or in neither. -/
theorem offends_respelled (h : s.Respelled σ t) :
    m.Offends denylist s ↔ o.Offends denylist t := by
  rw [← finding?_isSome_iff, ← finding?_isSome_iff, finding?, finding?, find?_canonical,
    find?_canonical, isUnresolved_respelled hn h, find?_respelled hkept h]
  cases denylist.find? (·.canonical.covers t) with
  | some d => exact Iff.rfl
  | none =>
      rw [Option.map_none]
      dsimp only
      split <;> exact Iff.rfl

/-- The first offences in two spellings lead to findings **of one kind**. -/
theorem sameVerdict_of_firstOffence {i : Nat} (hne : denylist ≠ []) (h : s.Respelled σ t)
    (hs : m.FirstOffence denylist i s) (ht : o.FirstOffence denylist i t) :
    SameVerdict m o denylist := by
  have hverdict := verdict_of_firstOffence hne hs
  have hverdict' := verdict_of_firstOffence hne ht
  rw [finding?, find?_canonical, ← verdict_withoutRepeats] at hverdict hverdict'
  rw [← isUnresolved_respelled hn h, ← find?_respelled hkept h] at hverdict'
  cases hd : denylist.find? (·.canonical.covers s) with
  | some d =>
      rw [hd] at hverdict hverdict'
      exact .violation i s t _ _ hs ht (Option.some.inj hverdict).symm
        (Option.some.inj hverdict').symm
  | none =>
      rw [hd, Option.map_none] at hverdict hverdict'
      dsimp only at hverdict hverdict'
      split at hverdict
      next hunresolved =>
        rw [if_pos hunresolved] at hverdict'
        exact .unresolved i s t hs ht (Option.some.inj hverdict).symm
          (Option.some.inj hverdict').symm
      next => exact absurd hverdict.symm (Option.some_ne_none _)

/-- **Programs in two spellings come to the same verdict**, if the names in the denylist keep their
spelling. -/
theorem sameVerdict_of_respelled (hsites : Forall₂ (CallSite.Respelled σ) m.sites o.sites) :
    SameVerdict m o denylist := by
  have hat : ∀ {i : Nat} {s t : CallSite}, m.sites[i]? = some s → o.sites[i]? = some t →
      (m.Offends denylist s ↔ o.Offends denylist t) := by
    intro i s t hs ht
    obtain ⟨hi, rfl⟩ := List.getElem?_eq_some_iff.mp hs
    obtain ⟨hi', rfl⟩ := List.getElem?_eq_some_iff.mp ht
    exact offends_respelled hn hkept (hsites.get hi hi')
  by_cases hne : denylist = []
  · subst hne
    exact .passed 0 rfl rfl
  · rcases m.exists_firstOffence denylist with hpass | ⟨i, s, hfirst⟩
    · have hpass' : ∀ t ∈ o.sites, ¬ o.Offends denylist t := by
        intro t ht
        obtain ⟨i, hi, rfl⟩ := List.mem_iff_getElem.mp ht
        have hi' : i < m.sites.length := hsites.length_eq ▸ hi
        rw [← hat (List.getElem?_eq_getElem hi') (List.getElem?_eq_getElem hi)]
        exact hpass _ (List.getElem_mem hi')
      refine .passed m.sites.length ?_ ?_
      · rw [verdict_withoutRepeats, verdict_of_no_offence hne hpass]
      · rw [verdict_withoutRepeats, verdict_of_no_offence hne hpass', hsites.length_eq]
    · obtain ⟨hi, hs⟩ := List.getElem?_eq_some_iff.mp hfirst.at_
      have hi' : i < o.sites.length := hsites.length_eq ▸ hi
      have hsite : s.Respelled σ o.sites[i] := hs ▸ hsites.get hi hi'
      have hfirst' : o.FirstOffence denylist i o.sites[i] := by
        refine ⟨List.getElem?_eq_getElem hi',
          (offends_respelled hn hkept hsite).mp hfirst.offends, fun j hj earlier hearlier => ?_⟩
        have hj' : j < m.sites.length := Nat.lt_trans hj hi
        rw [← hat (List.getElem?_eq_getElem hj') hearlier]
        exact hfirst.first j hj _ (List.getElem?_eq_getElem hj')
      exact sameVerdict_of_firstOffence hn hkept hne hsite hfirst hfirst'

end Same

end Model

end CapabilityGate
