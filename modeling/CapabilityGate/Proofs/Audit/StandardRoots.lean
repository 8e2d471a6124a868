import CapabilityGate.Proofs.Audit.GlobReading
import CapabilityGate.Proofs.Audit.MacroWrapping
import CapabilityGate.Proofs.Audit.RespelledVerdict
import CapabilityGate.Proofs.Capability.RootExchange

/-!
# The roots of the standard library and the audit

A path of the standard library may start with `std`, `core` or `alloc`, and so may a path in a
descriptor. Where no module binds one of the three names, it does not matter to an audit which of
them is written, at whatever places. It does matter where a root is no root: it may be the name of
a variable or of a method, or a part of what a type is called that is known by its text only. And
the budget of a lookup counts the readings of a name through globs that lead to paths of different
roots, though they lead to the same path in the end.

## Main definitions

* `rootSpelling`: the spelling in which no word but the roots at the start of paths changes.

## Main results

* `sameVerdict_of_other_roots`: an audit comes to the same verdict at the same call site.
* `roots_turn_verdicts`: each of the four exceptions can turn a verdict round.
-/

namespace CapabilityGate

open Program

open List (Forall₂)

/-! ### Programs and denylists with other roots -/

/-- All words are spelled **as they are**, but for roots of the standard library at the start of a
path, which may be exchanged. -/
def rootSpelling : Spelling where
  word a b := a = b ∧ isWord a = true
  roots := true
  isWord := by
    rintro a _ ⟨rfl, ha⟩
    exact ⟨ha, ha⟩
  eq_iff := by
    rintro a _ c _ ⟨rfl, -⟩ ⟨rfl, -⟩
    exact Iff.rfl
  startsLower_eq := by
    rintro a _ ⟨rfl, -⟩
    rfl
  known := by
    have hwords : ∀ name ∈ knownNames, isWord name = true := by decide +kernel
    exact fun name hname => ⟨rfl, hwords name hname⟩
  eq_of_roots := fun _ _ _ h => h.1

/-- What is parsed as a descriptor has only names that **keep their spelling** when roots are
exchanged. -/
theorem Descriptor.kept_rootSpelling {text : String} {d : Descriptor}
    (h : parse text = .ok d) : d.canonical.Kept rootSpelling := by
  obtain ⟨hproper, -⟩ := proper_of_parse h
  refine kept_of_parse h ⟨hproper.imp ?_ hproper, fun name _ hword => ⟨rfl, hword⟩⟩
  exact fun path _ _ name _ hword => ⟨rfl, hword⟩

variable {p q : SourceFile} {texts others : List String} {denylist : List Descriptor}

/-- Texts with other roots are **parsed as the same denylist**. -/
theorem denylist_of_exchanged (htexts : Forall₂ Descriptor.TextExchanged texts others)
    (hparse : Forall₂ (fun text d => Descriptor.parse text = .ok d) texts denylist) :
    Forall₂ (fun text d => Descriptor.parse text = .ok d) others denylist := by
  induction htexts generalizing denylist with
  | nil =>
      cases hparse
      exact .nil
  | cons htext _ ih =>
      cases hparse with
      | cons hd hrest => exact .cons (Descriptor.parse_of_exchanged htext hd) (ih hrest)

/-- **Which root of the standard library is written does not matter to an audit.** A program and a
denylist may have other roots at any places where these are the roots of paths. When no module of
the program binds the name of a root, and no lookup uses up its budget, the verdict is of the same
kind, and for the call site with the same index. -/
theorem sameVerdict_of_other_roots (h : p.Respelled rootSpelling q) (hfree : p.bindsNoRoot = true)
    (hspare : p.affordsLookups = true) (htexts : Forall₂ Descriptor.TextExchanged texts others)
    (hparse : Forall₂ (fun text d => Descriptor.parse text = .ok d) texts denylist) :
    Forall₂ (fun text d => Descriptor.parse text = .ok d) others denylist ∧
      Model.SameVerdict (.ofProgram p) (.ofProgram q) denylist := by
  refine ⟨denylist_of_exchanged htexts hparse, ?_⟩
  have hkept : ∀ d ∈ denylist, d.canonical.Kept rootSpelling := by
    intro d hd
    obtain ⟨i, hi, rfl⟩ := List.mem_iff_getElem.mp hd
    exact Descriptor.kept_rootSpelling (hparse.get (hparse.length_eq ▸ hi) hi)
  exact Model.sameVerdict_of_respelled (Model.names_respelled h (fun _ => hfree) fun _ => hspare)
    hkept (Model.sites_respelled h (fun _ => hfree) fun _ => hspare)

/-- The tree of `use root::fs::read as load;` and `fn f() { load(); root::env::var(); }`, with a
root for each of the two paths. -/
def twoRoots (first second : Word) : SourceFile :=
  ⟨[], [renamed first ⟨"fs", Eq.refl true⟩ ⟨"read", Eq.refl true⟩ ⟨"load", Eq.refl true⟩,
    functionOf [callOf [⟨"load", Eq.refl true⟩],
      callOf [second, ⟨"env", Eq.refl true⟩, ⟨"var", Eq.refl true⟩]]]⟩

/-- A path that starts with a root is one with another root **in another spelling**. -/
theorem pathOf_other_root {a b : Word} (ha : a.text ∈ standardRoots) (hb : b.text ∈ standardRoots)
    (words : List Word) : (pathOf (a :: words)).Respelled rootSpelling (pathOf (b :: words)) := by
  refine .root rfl ha hb .nil (.of_words ?_)
  exact List.forall₂_same.mpr fun word _ => ⟨rfl, word.isWord⟩

theorem twoRoots_respelled {a b c d : Word} (ha : a.text ∈ standardRoots)
    (hb : b.text ∈ standardRoots) (hc : c.text ∈ standardRoots) (hd : d.text ∈ standardRoots) :
    (twoRoots a b).Respelled rootSpelling (twoRoots c d) := by
  have hkept : ∀ word : Word, rootSpelling.word word.text word.text := fun word =>
    ⟨rfl, word.isWord⟩
  have himport : UseTree.Respelled rootSpelling true
      (.under a (.under ⟨"fs", Eq.refl true⟩ (.rename ⟨"read", Eq.refl true⟩ ⟨"load", Eq.refl true⟩)))
      (.under c (.under ⟨"fs", Eq.refl true⟩
        (.rename ⟨"read", Eq.refl true⟩ ⟨"load", Eq.refl true⟩))) :=
    .under (.inr ⟨rfl, .inr ⟨rfl, ha, hc⟩⟩)
      (.under (.inl (hkept _)) (.rename (.inl (hkept _)) (hkept _)))
  have hload : Part.Respelled rootSpelling (callOf [⟨"load", Eq.refl true⟩])
      (callOf [⟨"load", Eq.refl true⟩]) := by
    refine .expr (.call (.path (.mk (.cons (hkept _) .nil .nil)) ?_) .nil)
    rintro _ _ ⟨⟩ ⟨⟩
    exact hkept _
  have hvar : Part.Respelled rootSpelling
      (callOf [b, ⟨"env", Eq.refl true⟩, ⟨"var", Eq.refl true⟩])
      (callOf [d, ⟨"env", Eq.refl true⟩, ⟨"var", Eq.refl true⟩]) := by
    refine .expr (.call (.path (pathOf_other_root hb hd _) ?_) .nil)
    rintro _ _ ⟨⟩
  exact .cons (.item (.use .nil himport))
    (.cons (.item (.declaration (hkept _) (.cons hload (.cons hvar .nil)))) .nil)

/-- The program with `core` and `alloc`, which is denied `core::fs`, and the one with `std` and
`core`, which is denied `alloc::fs`. -/
theorem sameVerdict_of_two_roots :
    (twoRoots ⟨"core", Eq.refl true⟩ ⟨"alloc", Eq.refl true⟩).Respelled rootSpelling
        (twoRoots ⟨"std", Eq.refl true⟩ ⟨"core", Eq.refl true⟩) ∧
      (twoRoots ⟨"core", Eq.refl true⟩ ⟨"alloc", Eq.refl true⟩).bindsNoRoot = true ∧
      (twoRoots ⟨"core", Eq.refl true⟩ ⟨"alloc", Eq.refl true⟩).affordsLookups = true ∧
      Descriptor.TextExchanged "core::fs" "alloc::fs" ∧
      Descriptor.parse "core::fs" = .ok ⟨.ofPath "std::fs", none⟩ ∧
      Descriptor.parse "alloc::fs" = .ok ⟨.ofPath "std::fs", none⟩ ∧
      Model.SameVerdict
        (.ofProgram (twoRoots ⟨"core", Eq.refl true⟩ ⟨"alloc", Eq.refl true⟩))
        (.ofProgram (twoRoots ⟨"std", Eq.refl true⟩ ⟨"core", Eq.refl true⟩))
        [⟨.ofPath "std::fs", none⟩] := by
  have hrespelled : (twoRoots ⟨"core", Eq.refl true⟩ ⟨"alloc", Eq.refl true⟩).Respelled rootSpelling
      (twoRoots ⟨"std", Eq.refl true⟩ ⟨"core", Eq.refl true⟩) :=
    twoRoots_respelled (by decide) (by decide) (by decide) (by decide)
  have hfree : (twoRoots ⟨"core", Eq.refl true⟩ ⟨"alloc", Eq.refl true⟩).bindsNoRoot = true := by
    decide
  have hspare :
      (twoRoots ⟨"core", Eq.refl true⟩ ⟨"alloc", Eq.refl true⟩).affordsLookups = true := by
    decide
  have htext : Descriptor.TextExchanged "core::fs" "alloc::fs" :=
    .type (by decide) (.path (by decide) (List.all_eq_true.mp (by decide)) (by simp)
      (@PathExchanged.root "core" "alloc" "::fs".toList (by decide) (by decide)
        (.inr ⟨"fs".toList, rfl⟩)) .nil)
  have hparse : Descriptor.parse "core::fs" = .ok ⟨.ofPath "std::fs", none⟩ := by rfl
  obtain ⟨hothers, hsame⟩ := sameVerdict_of_other_roots hrespelled hfree hspare
    (.cons htext .nil) (.cons hparse .nil)
  refine ⟨hrespelled, hfree, hspare, htext, hparse, ?_, hsame⟩
  cases hothers with
  | cons h _ => exact h

/-! ### Roots that are no roots -/

/-- Whether a program is rejected for a **descriptor**. -/
def Verdict.isViolation : Verdict → Bool
  | .violation _ _ => true
  | .passed _ | .unresolved _ => false

/-- The name of another root **turns the verdict** on a program: a descriptor covers a call site of
the program with the first name and none of that with the second one. -/
structure RootTurnsVerdict (program : Word → SourceFile) (a b : Word) (denylist : List Descriptor) :
    Prop where
  /-- Both are names of roots. -/
  roots : a.text ∈ standardRoots ∧ b.text ∈ standardRoots
  /-- The program binds no name of a root. -/
  free : (program a).bindsNoRoot = true
  /-- The descriptor covers a call site. -/
  violation : (AuditReport.ofProgram (program a) denylist).verdict.isViolation = true
  /-- It covers none of the program with the other name. -/
  turned : (AuditReport.ofProgram (program b) denylist).verdict.isViolation = false

/-- The tree of `fn f(alloc: std::fs::File) { root.sync_all(); }`. -/
def rootAsVariable (root : Word) : SourceFile :=
  ⟨[], [functionOf [.pattern (.typed [] (.bind ⟨"alloc", Eq.refl true⟩ []) (.path filePath)),
    .expr (syncOf (.path .start (pathOf [root])))]]⟩

/-- The tree of `fn f() { <std::fs::File>::root(); }`. -/
def rootAsMethod (root : Word) : SourceFile :=
  ⟨[], [functionOf [.expr (.call (.qualified .start (.path filePath) 0 (pathOf [root])) [])]]⟩

/-- The tree of `fn f(s: &dyn root::fmt::Debug) { s.fmt(); }`. -/
def rootInText (root : Word) : SourceFile :=
  let trait := pathOf [root, ⟨"fmt", Eq.refl true⟩, ⟨"Debug", Eq.refl true⟩]
  let type := Ty.other (joinPath ["dyn" ++ root.text, "fmt", "Debug"]) [.path trait]
  ⟨[], [functionOf [.pattern (.typed [] (.bind ⟨"s", Eq.refl true⟩ []) (.wrapped type)),
    methodOf ⟨"fmt", Eq.refl true⟩]]⟩

/-- The tree of `use root::fs::*;`, `use crate::*;` and `fn f() { crate::x::y(); }`. -/
def rootOfGlob (root : Word) : SourceFile :=
  ⟨[], [globAt [root, ⟨"fs", Eq.refl true⟩], globAt [⟨"crate", Eq.refl true⟩],
    functionOf [callOf [⟨"crate", Eq.refl true⟩, ⟨"x", Eq.refl true⟩, ⟨"y", Eq.refl true⟩]]]⟩

/-- **The root that is written can turn a verdict round**: where it stands alone as the name of a
variable, where it is the name of a method, where it is a part of what a type is called that is
known by its text only, and where a glob leads to it and a lookup runs out of budget before it
comes to the reading that is denied. -/
theorem roots_turn_verdicts :
    RootTurnsVerdict rootAsVariable ⟨"alloc", Eq.refl true⟩ ⟨"core", Eq.refl true⟩
        [⟨.ofPath "std::fs::File", none⟩] ∧
      RootTurnsVerdict rootAsMethod ⟨"std", Eq.refl true⟩ ⟨"core", Eq.refl true⟩
        [⟨.ofPath "std::fs::File", some "std"⟩] ∧
      RootTurnsVerdict rootInText ⟨"core", Eq.refl true⟩ ⟨"std", Eq.refl true⟩
        [⟨.ofPath "dyncore::fmt::Debug", none⟩] ∧
      RootTurnsVerdict rootOfGlob ⟨"core", Eq.refl true⟩ ⟨"std", Eq.refl true⟩
        [⟨.ofPath "crate::core::fs::x", none⟩] := by
  refine ⟨⟨by decide, by decide, by decide, by decide⟩, ⟨by decide, by decide, by decide, by decide⟩,
    ⟨by decide, by decide, by decide, by decide⟩, ⟨by decide, by decide, ?_, ?_⟩⟩
  all_goals decide +kernel

end CapabilityGate
