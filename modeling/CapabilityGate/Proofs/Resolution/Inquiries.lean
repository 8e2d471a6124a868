import CapabilityGate.Proofs.Resolution.Scopes

/-!
# What the rules ask for

The rules for looking up are told how lookups are made. They see nothing of this but what the
lookups find: a rule asks for a lookup, goes on with what is found, and comes to a result. So what
holds of each lookup, and passes on from one step to the next, holds of all rules, and it is enough
to go once through the rules.

## Main definitions

* `Inquiry`: what is computed from lookups, however they are made.
* `Asks`: an inquiry that is made of lookups, one after the other.
* `Names.writtenPaid`, `Names.memberPaid`: the rules, once they are paid for.

## Main results

* `Names.writtenPaid_asks`, `Names.memberPaid_asks`: the rules are made of lookups.
-/

namespace CapabilityGate

open Route

/-- An **inquiry** computes something from lookups, in whichever way these are made. -/
abbrev Inquiry (α : Type) : Type := Lookup → Paid α

/-- An inquiry **is made of lookups**: it uses them in no other way than to ask for what they
find. -/
inductive Asks : {α : Type} → Inquiry α → Prop
  /-- It is known without a lookup. -/
  | pure {α : Type} (a : α) : Asks fun _ => Pure.pure a
  /-- It is what a route means that is written in a module. -/
  | written (module : List String) (route : Route) (owner : Option TypeName)
      (skip : Option String) : Asks fun l => l.written module route owner skip
  /-- It is what a route means below a module. -/
  | member (module : List String) (route : Route) : Asks fun l => l.member module route
  /-- One inquiry, and one that goes on with its result. -/
  | bind {α β : Type} {c : Inquiry α} {f : Lookup → α → Paid β} (h : Asks c)
      (hf : ∀ a, Asks fun l => f l a) : Asks fun l => c l >>= f l

namespace Asks

variable {α β : Type}

/-- The result of an inquiry may be put into **another form**. -/
theorem map {c : Inquiry α} (h : Asks c) (f : α → β) : Asks fun l => do return f (← c l) :=
  h.bind fun a => .pure (f a)

/-- Inquiries for **each member of a list** are made of lookups if each of them is. -/
theorem mapM {f : Lookup → α → Paid β} (hf : ∀ a, Asks fun l => f l a) (xs : List α) :
    Asks fun l => xs.mapM (f l) := by
  induction xs with
  | nil => exact .pure []
  | cons x rest ih =>
      simp only [List.mapM_cons]
      exact (hf x).bind fun b => ih.map (b :: ·)

end Asks

namespace Names

variable (n : Names)

/-! ### The rules, once they are paid for -/

/-- What the rule for a route that is written in a module does **once it is paid for**. -/
def writtenPaid (n : Names) (l : Lookup) (module : List String) (first : Step) (rest : Route)
    (owner : Option TypeName) (skip : Option String) : Paid (List Route) :=
  if first.name == "crate" then below l [] rest
  else if first.name == "self" then below l module rest
  else if first.name == "super" then below l module.dropLast rest
  else
    match (if first.name == "Self" then owner else none) with
    | some t => return [substitute (ofType t) (first :: rest)]
    | none => n.byName l module first rest skip

/-- With something to pay with, the rule for written routes **pays first**. -/
theorem writtenRule_succ (n : Names) (l : Lookup) (module : List String) (first : Step)
    (rest : Route) (owner : Option TypeName) (skip : Option String) (left : Nat) :
    n.writtenRule l module (first :: rest) owner skip (left + 1) =
      n.writtenPaid l module first rest owner skip left := rfl

/-- What the rule for a route below a module does **once it is paid for**. -/
def memberPaid (n : Names) (l : Lookup) (module : List String) (first : Step) (rest : Route) :
    Paid (Option (List Route)) :=
  match (n.scopeAt module).import? first.name with
  | some target => return some (← throughImport l module first.name target (first :: rest))
  | none =>
    if (n.scopeAt module).modules.contains first.name then
      return some (← below l (module ++ [first.name]) rest)
    else if (n.scopeAt module).items.contains first.name then
      return some [inModule module (first :: rest)]
    else do
      let found ← n.throughGlobs l module (first :: rest)
      return if found.isEmpty then none else some found

/-- With something to pay with, the rule for routes below a module **pays first** too. -/
theorem memberRule_succ (n : Names) (l : Lookup) (module : List String) (first : Step)
    (rest : Route) (left : Nat) :
    n.memberRule l module (first :: rest) (left + 1) = n.memberPaid l module first rest left := by
  rw [memberRule_cons]
  rfl

/-! ### The lookups that the rules are made of -/

/-- Below a module **at most one lookup** is asked for. -/
theorem below_asks (module : List String) (route : Route) :
    Asks fun l => below l module route := by
  simp only [below]
  split
  · exact .pure _
  · exact (Asks.member _ _).map _

/-- Through an import the **target** is asked for. -/
theorem throughImport_asks (module : List String) (name : String) (target route : Route) :
    Asks fun l => throughImport l module name target route :=
  (Asks.written _ _ _ _).map _

/-- Through a glob a lookup is asked for **in the module that it leads to**, if it leads to one. -/
theorem throughGlob_asks (route above : Route) : Asks fun l => n.throughGlob l route above := by
  simp only [throughGlob]
  split
  · exact (Asks.member _ _).map _
  · exact .pure _

/-- Through a glob lookups are asked for **in all modules that it may lead to**. -/
theorem throughAboves_asks (route : Route) (aboves : List Route) :
    Asks fun l => do return (← aboves.mapM (n.throughGlob l route)).flatten :=
  (Asks.mapM (n.throughGlob_asks route) aboves).map _

/-- Through a glob of a module lookups are asked for **once it is known where it may lead to**. -/
theorem throughTarget_asks (module : List String) (route glob : Route) :
    Asks fun l => do
      let aboves ← l.written module glob none none
      return (← aboves.mapM (n.throughGlob l route)).flatten :=
  (Asks.written _ _ _ _).bind fun aboves => n.throughAboves_asks route aboves

/-- Through all globs of a module lookups are asked for **one after the other**. -/
theorem throughGlobs_asks (module : List String) (route : Route) :
    Asks fun l => n.throughGlobs l module route := by
  simp only [throughGlobs]
  split
  · exact .pure _
  · exact (Asks.mapM (n.throughTarget_asks module route) _).map _

/-- Where the name itself is read **before or behind** what is found, no lookup is asked for. -/
theorem ordered_asks (first : Step) (rest : Route) (found : List Route) :
    Asks fun _ =>
      if !rest.isEmpty && startsLower first.name
        then Pure.pure (literal (first :: rest) :: found)
        else (Pure.pure (found ++ [literal (first :: rest)]) : Paid (List Route)) := by
  split
  · exact .pure _
  · exact .pure _

/-- A name that is not declared is looked for **in the globs at most**. -/
theorem undeclared_asks (module : List String) (first : Step) (rest : Route) :
    Asks fun l => n.undeclared l module first rest := by
  simp only [undeclared]
  split
  · exact (Asks.pure []).bind (ordered_asks first rest)
  · exact (n.throughGlobs_asks module (first :: rest)).bind (ordered_asks first rest)

/-- A name is looked for **in the way in which it is bound**. -/
theorem byName_asks (module : List String) (first : Step) (rest : Route) (skip : Option String) :
    Asks fun l => n.byName l module first rest skip := by
  simp only [byName]
  split
  · exact throughImport_asks _ _ _ _
  · split
    · exact below_asks _ _
    · split
      · exact .pure _
      · split
        · exact .pure _
        · exact n.undeclared_asks _ _ _

/-- **The rule for written routes** is made of lookups. -/
theorem writtenPaid_asks (module : List String) (first : Step) (rest : Route)
    (owner : Option TypeName) (skip : Option String) :
    Asks fun l => n.writtenPaid l module first rest owner skip := by
  simp only [writtenPaid]
  split
  · exact below_asks _ _
  · split
    · exact below_asks _ _
    · split
      · exact below_asks _ _
      · split
        · exact .pure _
        · exact n.byName_asks _ _ _ _

/-- **The rule for routes below a module** is too. -/
theorem memberPaid_asks (module : List String) (first : Step) (rest : Route) :
    Asks fun l => n.memberPaid l module first rest := by
  simp only [memberPaid]
  split
  · exact (throughImport_asks _ _ _ _).map _
  · split
    · exact (below_asks _ _).map _
    · split
      · exact .pure _
      · exact (n.throughGlobs_asks _ _).map _

end Names

end CapabilityGate
