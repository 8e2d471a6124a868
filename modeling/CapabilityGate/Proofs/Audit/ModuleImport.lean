import CapabilityGate.Proofs.Audit.Rejection
import CapabilityGate.Proofs.Resolution.ModulePath

/-!
# Modules under other names

A `use` leaf may give a module of the program another name. A path through that name is a path
into the module, but nothing behind the name is looked up: what the module declares is found, since
it is where the path says, and what the module imports is not. The path in full is followed through
these imports.

## Main results

* `candidates_of_module_import`: what a path through the name of an imported module stands for,
  and when this is what the path in full stands for.
* `module_import_hides_reexport`: a module that imports what a path through its other name asks
  for, and an audit that does not notice.
-/

namespace CapabilityGate

open Program Route

/-! ### Paths through an imported module -/

variable {p : SourceFile} {module target named : List String} {name : String}

/-- A path through a name for a module of the program is found **as a path into that module**, with
the rest as it is written. -/
theorem candidates_through_module (hword : name ∉ pathWords)
    (hbound : p.boundTo module name = [.import_ target])
    (htarget : NamesModule p module target named) (rest : Route) (owner : Option TypeName) :
    (Names.ofProgram p).candidates module (plainStep name :: rest) owner =
      [inModule named rest] := by
  have hbudget : Names.lookupBudget = 510 + 1 + 1 := rfl
  have himport := Names.import?_ofProgram hbound
  have hmodule := htarget.written_eq (Nat.le_refl 510) none (some name)
  obtain ⟨left, hfound⟩ : ∃ left, ((Names.ofProgram p).lookup (510 + 1)).written module
      (ofNames target) none (some name) (510 + 1) = ([inModule named []], left) :=
    ⟨_, Prod.ext hmodule rfl⟩
  have hthrough : Names.throughImport ((Names.ofProgram p).lookup (510 + 1)) module name
      (ofNames target) (plainStep name :: rest) (510 + 1) =
        ([inModule named []].map fun r => substitute r (plainStep name :: rest), left) :=
    Names.throughImport_apply hfound
  have hsubstitute : substitute (inModule named []) (plainStep name :: rest) =
      inModule named rest := by
    simp [substitute, plainStep, inModule]
  rw [Names.candidates, Names.candidatesWithin, hbudget, Names.lookup_written,
    Names.writtenRule_name hword, Names.byName_import (by simp) himport]
  rw [List.map_singleton, hsubstitute] at hthrough
  exact congrArg Prod.fst hthrough

/-- A path in full that stays in the program is found **as it is written**. -/
theorem candidates_in_full (hdown : LeadsDown p [] named) {rest : Route}
    (hstays : StaysIn p named rest) (owner : Option TypeName) :
    (Names.ofProgram p).candidates module (plainStep "crate" :: (ofNames named ++ rest)) owner =
      [inModule named rest] := by
  have hbudget : Names.lookupBudget = 511 + 1 := rfl
  have hroute : plainStep "crate" :: (ofNames named ++ rest) =
      ofNames ["crate"] ++ (ofNames named ++ rest) := rfl
  have hfull : StaysIn p [] (ofNames named ++ rest) := hdown.staysIn hstays
  have hnamed : inModule [] (ofNames named ++ rest) = inModule named rest := by
    rw [← inModule_append, List.nil_append]
  rw [Names.candidates, Names.candidatesWithin, hbudget, Names.lookup_written, hroute,
    Names.writtenRule_starts .crate, hfull.below_eq, hnamed]

/-- **A path through another name for a module** stands for the path into that module, whatever the
module holds: what is written behind the name is not looked up. It stands for the same as the path
in full, from the root of the program, when what is written behind the name stays among the
declarations of the module. -/
theorem candidates_of_module_import (hword : name ∉ pathWords)
    (hbound : p.boundTo module name = [.import_ target])
    (htarget : NamesModule p module target named) :
    (∀ rest owner, (Names.ofProgram p).candidates module (plainStep name :: rest) owner =
      [inModule named rest]) ∧
    ∀ rest owner, LeadsDown p [] named → StaysIn p named rest →
      (Names.ofProgram p).candidates module (plainStep name :: rest) owner =
        (Names.ofProgram p).candidates module
          (plainStep "crate" :: (ofNames named ++ rest)) owner := by
  refine ⟨candidates_through_module hword hbound htarget, ?_⟩
  intro rest owner hdown hstays
  rw [candidates_through_module hword hbound htarget rest owner,
    candidates_in_full hdown hstays owner]

/-! ### A module with another name -/

/-- The tree of `mod m { pub use std::fs::read; pub fn write() {} }`, `fn m() {}`,
`use crate::m as k;` and a function that calls what the words name. -/
def moduleWithName (words : List Word) : SourceFile :=
  ⟨[], [.module ⟨"m", Eq.refl true⟩ [
      .item (.use [] false (.under ⟨"std", Eq.refl true⟩ (.under ⟨"fs", Eq.refl true⟩
        (.name ⟨"read", Eq.refl true⟩)))),
      .item (.declaration .function ⟨"write", Eq.refl true⟩ [])],
    .declaration .function ⟨"m", Eq.refl true⟩ [],
    .use [] false (.under ⟨"crate", Eq.refl true⟩
      (.rename ⟨"m", Eq.refl true⟩ ⟨"k", Eq.refl true⟩)),
    functionOf [callOf words]]⟩

/-- A call through the name `k` for the module, of the function in it. -/
def callOfWrite : SourceFile :=
  moduleWithName [⟨"k", Eq.refl true⟩, ⟨"write", Eq.refl true⟩]

/-- A call through the name `k` for the module, of what the module imports. -/
def callOfRead : SourceFile :=
  moduleWithName [⟨"k", Eq.refl true⟩, ⟨"read", Eq.refl true⟩]

/-- The same call by its path in full. -/
def callOfReadInFull : SourceFile :=
  moduleWithName [⟨"crate", Eq.refl true⟩, ⟨"m", Eq.refl true⟩, ⟨"read", Eq.refl true⟩]

/-- A name that a module and a function have, and nothing else, is that of a declared module. -/
theorem declaresModule_of_two {base : List String} (h : p.boundTo base name = [.module, .item]) :
    p.DeclaresModule base name :=
  ⟨by simp [h], by simp [h]⟩

/-- In `callOfWrite` the path `k::write` stands for what `crate::m::write` stands for. -/
theorem candidates_of_write :
    "k" ∉ pathWords ∧ callOfWrite.boundTo [] "k" = [.import_ ["crate", "m"]] ∧
      NamesModule callOfWrite [] ["crate", "m"] ["m"] ∧ LeadsDown callOfWrite [] ["m"] ∧
      StaysIn callOfWrite ["m"] [plainStep "write"] ∧
      (Names.ofProgram callOfWrite).candidates [] [plainStep "k", plainStep "write"] none =
        (Names.ofProgram callOfWrite).candidates []
          [plainStep "crate", plainStep "m", plainStep "write"] none := by
  have hbound : callOfWrite.boundTo [] "k" = [.import_ ["crate", "m"]] := rfl
  have hdown : LeadsDown callOfWrite [] ["m"] :=
    .into (by decide) (declaresModule_of_two rfl) .here
  have htarget : NamesModule callOfWrite [] ["crate", "m"] ["m"] := .around .crate hdown
  have hwrite : callOfWrite.boundTo ["m"] "write" = [.item] := rfl
  have hstays : StaysIn callOfWrite ["m"] [plainStep "write"] :=
    .item (by decide) (by simp [hwrite]) (by simp [hwrite])
  obtain ⟨-, hsame⟩ := candidates_of_module_import (by decide) hbound htarget
  exact ⟨by decide, hbound, htarget, hdown, hstays, hsame _ none hdown hstays⟩

/-- **What a module imports is out of reach through another name for it**: in `callOfRead` the path
`k::read` stands for `crate::m::read`, and this for `std::fs::read` when it is written in full.
With `std::fs` denied an audit rejects the call in full. The call through the other name passes,
since a function has the name of the module, and so the path counts as one to a declared item. -/
theorem module_import_hides_reexport :
    callOfRead.boundTo [] "k" = [.import_ ["crate", "m"]] ∧
      NamesModule callOfRead [] ["crate", "m"] ["m"] ∧
      (Names.ofProgram callOfRead).candidates [] [plainStep "k", plainStep "read"] none =
        [ofNames ["crate", "m", "read"]] ∧
      (Names.ofProgram callOfRead).candidates []
          [plainStep "crate", plainStep "m", plainStep "read"] none =
        [ofNames ["std", "fs", "read"]] ∧
      ((Model.ofProgram callOfReadInFull).verdict [⟨.ofPath "std::fs", none⟩]).rejects = true ∧
      ((Model.ofProgram callOfRead).verdict [⟨.ofPath "std::fs", none⟩]).rejects = false := by
  refine ⟨rfl, ?_, by decide, by decide, by decide, by decide⟩
  exact .around .crate (.into (by decide) (declaresModule_of_two rfl) .here)

end CapabilityGate
