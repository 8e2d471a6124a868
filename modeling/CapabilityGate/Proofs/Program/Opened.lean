import CapabilityGate.Proofs.Program.DeclaredItems

/-!
# Modules on the way to a declaration

A declaration carries the names of the modules around it. Each of them is itself declared by the
program, in the module that is named by those before it: the walk for declarations enters a module
only where it meets its declaration.

## Main definitions

* `Opened`: the modules that declarations lead to.

## Main results

* `opened_of_mem_declarations`: every declaration of a program stands in such a module.
-/

namespace CapabilityGate.Program

/-- A module is **opened** by declarations from the module `base` on, when each of the names that
lead to it from there is declared as a module by one of them. -/
inductive Opened (ds : List Declaration) (base : List String) : List String → Prop
  /-- No names lead to the module itself. -/
  | here : Opened ds base base
  /-- A module in an opened one. -/
  | into {module : List String} {name : String} (h : Opened ds base module)
      (hd : ⟨module, .module name⟩ ∈ ds) : Opened ds base (module ++ [name])

/-- A declaration **stands** among others when these open its module. If it declares a module, its
name is a word. -/
structure Declaration.Stands (ds : List Declaration) (base : List String) (d : Declaration) :
    Prop where
  /-- Its module is opened. -/
  opened : Opened ds base d.module
  /-- The name of a module is a word. -/
  isWord_of_module : ∀ name, d.what = .module name → isWord name = true

/-- Every one of the declarations stands among all of them. -/
def StandTogether (base : List String) (ds : List Declaration) : Prop :=
  ∀ d ∈ ds, d.Stands ds base

variable {ds es : List Declaration} {base : List String}

/-- What declarations open **more of them** open too. -/
theorem Opened.mono {module : List String} (h : Opened ds base module) (hsub : ds ⊆ es) :
    Opened es base module := by
  induction h with
  | here => exact .here
  | into h hd ih => exact .into ih (hsub hd)

/-- What is opened from an opened module on **is opened**. -/
theorem Opened.trans {between module : List String} (h : Opened ds base between)
    (hrest : Opened ds between module) : Opened ds base module := by
  induction hrest with
  | here => exact h
  | into _ hd ih => exact .into ih hd

/-- What stands among declarations stands **among more of them**. -/
theorem Declaration.Stands.mono {d : Declaration} (h : d.Stands ds base) (hsub : ds ⊆ es) :
    d.Stands es base :=
  ⟨h.opened.mono hsub, h.isWord_of_module⟩

namespace StandTogether

/-- No declarations stand among each other. -/
theorem nil : StandTogether base [] :=
  fun _ hd => absurd hd List.not_mem_nil

/-- Declarations that stand among each other do so **with others that do**. -/
theorem append (h : StandTogether base ds) (hmore : StandTogether base es) :
    StandTogether base (ds ++ es) := by
  intro d hd
  rcases List.mem_append.mp hd with hd | hd
  · exact (h d hd).mono (List.subset_append_left ds es)
  · exact (hmore d hd).mono (List.subset_append_right ds es)

/-- A declaration that stands in the module itself and declares no module. -/
theorem singleton {what : Declares} (hwhat : ∀ name, what ≠ .module name) :
    StandTogether base [⟨base, what⟩] := by
  intro d hd
  obtain rfl := List.mem_singleton.mp hd
  exact ⟨.here, fun name hname => absurd hname (hwhat name)⟩

/-- A module opens **what is declared in it**. -/
theorem module (name : Word) (h : StandTogether (base ++ [name.text]) ds) :
    StandTogether base (⟨base, .module name.text⟩ :: ds) := by
  intro d hd
  rcases List.mem_cons.mp hd with rfl | hd
  · refine ⟨.here, fun other hother => ?_⟩
    obtain rfl := Declares.module.inj hother
    exact name.isWord
  · have hopened : Opened (⟨base, .module name.text⟩ :: ds) base (base ++ [name.text]) :=
      .into .here List.mem_cons_self
    have hstands := (h d hd).mono (List.subset_cons_self ⟨base, .module name.text⟩ ds)
    exact ⟨hopened.trans hstands.opened, hstands.isWord_of_module⟩

/-- What is declared in parts stands together if it does **in each part**. -/
theorem inParts {parts : List Part}
    (h : ∀ part ∈ parts, StandTogether base (Declaration.inPart base part)) :
    StandTogether base (Declaration.inParts base parts) := by
  induction parts with
  | nil => exact .nil
  | cons part rest ih =>
      obtain ⟨hpart, hrest⟩ := List.forall_mem_cons.mp h
      exact hpart.append (ih hrest)

end StandTogether

/-- The declarations **in a part** stand among each other: a module opens what it holds, and any
other part stands where the parts in it do. -/
theorem Declaration.standTogether_inPart (module : List String) (part : Part) :
    StandTogether module (inPart module part) := by
  have hentered : StandTogether (part.moduleWithin module)
      (inParts (part.moduleWithin module) part.entered) :=
    .inParts fun child hchild =>
      have := sizeOf_lt_of_mem_entered hchild
      standTogether_inPart (part.moduleWithin module) child
  rw [inPart_eq]
  cases part with
  | item item =>
      cases item with
      | module name parts => exact .module name hentered
      | implementation parts selfType members => exact hentered
      | other parts => exact hentered
      | _ =>
          refine (StandTogether.singleton fun name hname => ?_).append hentered
          cases hname
  | _ => exact hentered
termination_by sizeOf part

/-- **Every declaration of a program stands in a module that the program opens.** -/
theorem opened_of_mem_declarations {p : SourceFile} {d : Declaration} (h : d ∈ p.declarations) :
    Opened p.declarations [] d.module ∧ ∀ name, d.what = .module name → isWord name = true := by
  rw [Declaration.declarations_eq_inParts] at h ⊢
  obtain ⟨hopened, hword⟩ :=
    StandTogether.inParts (fun part _ => Declaration.standTogether_inPart [] part) d h
  exact ⟨hopened, hword⟩

end CapabilityGate.Program
