import CapabilityGate.Proofs.Resolution.Scopes

/-!
# Following re-exports

A name that a `use` leaf binds may stand for another such name, and so on, until a path is reached
that starts at a standard root. Here such a chain of re-exports is a relation, read off the
declarations of a program, and looking a name up is shown to follow the chain to its end. Every
lookup on the way is paid for exactly once.

## Main definitions

* `Starts`, `Descends`, `Targets`: how the target of one `use` leaf leads to the next name.
* `Leads`: a chain of re-exports to a path with a standard root, and the lookups it takes.

## Main results

* `Leads.lookup_eq`: looking up a name follows the chain, and pays for each lookup once.
* `candidates_of_leads`: a path through a chain of re-exports has one candidate.
* `candidates_of_standard`: so has a path that starts at a standard root.
-/

namespace CapabilityGate

open Program Route

/-! ### Chains of re-exports -/

/-- The roots of paths into the standard library. -/
def standardRoots : List String := ["std", "core", "alloc"]

/-- The words of a path that stand for a module around the one it is written in, or for a type. -/
def pathWords : List String := ["crate", "self", "super", "Self"]

/-- The words at the start of a path that stand for a module, and **the module** they stand for
in the module `module`. -/
inductive Starts (module : List String) : (words base : List String) → Prop
  /-- The root of the program. -/
  | crate : Starts module ["crate"] []
  /-- The module itself. -/
  | self : Starts module ["self"] module
  /-- The module around it. -/
  | super : Starts module ["super"] module.dropLast
  /-- The module around one that other words stand for. -/
  | up {words base : List String} (h : Starts module words base) :
      Starts module (words ++ ["super"]) base.dropLast

/-- The names lead from the module `base` **down through declared modules** to another one. Each
of them is bound once where it is looked for. -/
inductive Descends (p : SourceFile) : (base names below : List String) → Prop
  /-- No names lead to the module itself. -/
  | here {base : List String} : Descends p base [] base
  /-- One name leads to a module in it. -/
  | into {base names below : List String} {name : String} (hword : name ∉ pathWords)
      (hbound : p.boundTo base name = [.module])
      (hrest : Descends p (base ++ [name]) names below) : Descends p base (name :: names) below

/-- The target of a `use` leaf, written in the module `module`, leads to the name `next` of the
module `at_`, and takes so many lookups before that of `next`. -/
inductive Targets (p : SourceFile) (module : List String) :
    (target at_ : List String) → (next : String) → (cost : Nat) → Prop
  /-- Another name of the same module. -/
  | sibling {next : String} : Targets p module [next] module next 0
  /-- A name below a module of this module. -/
  | child {name : String} {names at_ : List String} {next : String}
      (h : Descends p module (name :: names) at_) :
      Targets p module (name :: names ++ [next]) at_ next (names.length + 1)
  /-- A name in or below a module around this one. -/
  | around {words base names at_ : List String} {next : String} (hstart : Starts module words base)
      (h : Descends p base names at_) :
      Targets p module (words ++ names ++ [next]) at_ next (names.length + 1)

/-- The name `name` of a module **leads through re-exports** to the path `path`, which starts at a
standard root, by so many lookups, the first of which is that of the name. Each name on the way
is bound once in its module, and the module that names the standard root does not bind it. -/
inductive Leads (p : SourceFile) :
    (module : List String) → (name : String) → (path : List String) → (lookups : Nat) → Prop
  /-- The name is bound to the path itself. -/
  | standard {module : List String} {name root : String} {rest : List String}
      (hword : name ∉ pathWords)
      (hbound : p.boundTo module name = [.import_ (root :: rest)])
      (hroot : root ∈ standardRoots) (hfree : p.boundTo module root = []) :
      Leads p module name (root :: rest) 2
  /-- The name is bound to a name that leads to the path. -/
  | through {module target at_ path : List String} {name next : String} {cost lookups : Nat}
      (hword : name ∉ pathWords)
      (hbound : p.boundTo module name = [.import_ target])
      (htarget : Targets p module target at_ next cost)
      (hnext : Leads p at_ next path lookups) :
      Leads p module name path (lookups + cost + 1)

theorem Starts.ne_nil {module words base : List String} (h : Starts module words base) :
    words ≠ [] := by
  cases h <;> simp

/-- A name on a chain is none of the words for modules around it. -/
theorem Leads.not_mem_pathWords {p : SourceFile} {module path : List String} {name : String}
    {lookups : Nat} (h : Leads p module name path lookups) : name ∉ pathWords := by
  cases h with
  | standard hword => exact hword
  | through hword => exact hword

/-- A target of one name leads to that name of the same module. -/
theorem Targets.of_singleton {p : SourceFile} {module target at_ : List String}
    {name next : String} {cost : Nat} (h : Targets p module target at_ next cost)
    (hname : target = [name]) : at_ = module ∧ next = name := by
  cases h with
  | sibling => exact ⟨rfl, (List.cons.inj hname).1⟩
  | child h => simp at hname
  | around hstart h =>
      obtain ⟨word, words, rfl⟩ := List.exists_cons_of_ne_nil hstart.ne_nil
      simp at hname

/-- A chain that comes to an end does not start with a name that is bound **to itself**. -/
theorem Leads.not_bound_to_self {p : SourceFile} {module path : List String} {name : String}
    {lookups : Nat} (h : Leads p module name path lookups) :
    p.boundTo module name ≠ [.import_ [name]] := by
  intro hself
  induction h with
  | standard hword hbound hroot hfree =>
      rw [hself] at hbound
      simp only [List.cons.injEq, Binding.import_.injEq, and_true] at hbound
      obtain ⟨rfl, -⟩ := hbound
      rw [hself] at hfree
      exact List.cons_ne_nil _ _ hfree
  | through hword hbound htarget hnext ih =>
      rw [hself] at hbound
      simp only [List.cons.injEq, Binding.import_.injEq, and_true] at hbound
      obtain ⟨rfl, rfl⟩ := htarget.of_singleton hbound.symm
      exact ih hself

/-- A chain ends at a standard root, with **words** behind it. -/
theorem Leads.exists_root {p : SourceFile} {module path : List String} {name : String}
    {lookups : Nat} (h : Leads p module name path lookups) :
    ∃ root more, path = root :: more ∧ root ∈ standardRoots ∧ ∀ n ∈ more, isWord n = true := by
  induction h with
  | @standard module name root more hword hbound hroot hfree =>
      refine ⟨root, more, rfl, hroot, ?_⟩
      cases more with
      | nil => exact fun _ h => absurd h List.not_mem_nil
      | cons next rest =>
          have hmem : Binding.import_ (root :: next :: rest) ∈ p.boundTo module name := by
            rw [hbound]
            exact List.mem_singleton_self _
          have hwords := isWord_of_boundTo hmem (by simp)
          exact fun n hn => hwords n (List.mem_cons_of_mem _ hn)
  | through hword hbound htarget hnext ih => exact ih

/-! ### One lookup -/

namespace Names

variable {n : Names} {l : Lookup} {module : List String} {first : Step} {rest : Route}
  {owner : Option TypeName} {skip : Option String} {left : Nat}

/-- A name that is no word for a module is looked up **as a name**, and is paid for. -/
theorem writtenRule_name (hword : first.name ∉ pathWords) :
    n.writtenRule l module (first :: rest) owner skip (left + 1) =
      n.byName l module first rest skip left := by
  simp only [pathWords, List.mem_cons, List.not_mem_nil, or_false, not_or] at hword
  obtain ⟨hcrate, hself, hsuper, htype⟩ := hword
  simp [writtenRule, Paid.spend, bind, StateT.bind, hcrate, hself, hsuper, htype]

/-- A `super` in front of what is looked for leads to the module around. -/
theorem below_super : below l module (plainStep "super" :: rest) = below l module.dropLast rest :=
  rfl

/-- Words for a module are paid for once, and the rest is looked for **below that module**. -/
theorem writtenRule_starts {words base : List String} (hstart : Starts module words base)
    (rest : Route) :
    n.writtenRule l module (ofNames words ++ rest) owner skip (left + 1) =
      below l base rest left := by
  induction hstart generalizing rest with
  | crate => simp [writtenRule, Paid.spend, bind, StateT.bind, ofNames, plainStep]
  | self => simp [writtenRule, Paid.spend, bind, StateT.bind, ofNames, plainStep]
  | super => simp [writtenRule, Paid.spend, bind, StateT.bind, ofNames, plainStep]
  | up h ih =>
      have hmore := ih (plainStep "super" :: rest)
      rw [below_super] at hmore
      rw [← hmore]
      simp [ofNames]

/-- Names are looked for below a module in that module, if they do not start with `super`. -/
theorem below_name {name : String} (hword : name ∉ pathWords) (args : List TypeName) :
    below l module (⟨name, args⟩ :: rest) left =
      (let (found, left) := l.member module (⟨name, args⟩ :: rest) left
       (found.getD [inModule module (⟨name, args⟩ :: rest)], left)) := by
  have hsuper : (name == "super") = false := by
    simp only [pathWords, List.mem_cons, List.not_mem_nil, or_false, not_or] at hword
    simpa using hword.2.2.1
  have hascend : ascend module (⟨name, args⟩ :: rest) = (module, ⟨name, args⟩ :: rest) := by
    simp [ascend, hsuper]
  rw [below, hascend]
  rfl

/-- A name that is imported is looked up **through its import**. -/
theorem byName_import {target : Route} (hskip : skip ≠ some first.name)
    (himport : (n.scopeAt module).import? first.name = some target) :
    n.byName l module first rest skip =
      throughImport l module first.name target (first :: rest) := by
  rw [scopeAt] at himport
  simp only [byName, if_neg hskip, himport]

/-- A name that is a module and no import is looked for **in that module**. -/
theorem byName_module (himport : (n.scopeAt module).import? first.name = none)
    (hmodule : (n.scopeAt module).modules.contains first.name = true) :
    n.byName l module first rest skip = below l (module ++ [first.name]) rest := by
  rw [scopeAt] at himport hmodule
  simp only [byName, himport, ite_self, hmodule, if_true]

/-- A name that is an item, and neither an import nor a module, **stands for the item**. -/
theorem byName_item (himport : (n.scopeAt module).import? first.name = none)
    (hmodule : (n.scopeAt module).modules.contains first.name = false)
    (hitem : (n.scopeAt module).items.contains first.name = true) :
    n.byName l module first rest skip = return [inModule module (first :: rest)] := by
  rw [scopeAt] at himport hmodule hitem
  simp only [byName, himport, ite_self, hmodule, hitem, Bool.false_eq_true, if_false, if_true]

/-- A standard root that the module does not bind is **read as it is written**. -/
theorem byName_standard (hroot : first.name ∈ standardRoots)
    (himport : (n.scopeAt module).import? first.name = none)
    (hmodule : (n.scopeAt module).modules.contains first.name = false)
    (hitem : (n.scopeAt module).items.contains first.name = false) :
    n.byName l module first rest skip left = ([literal (first :: rest)], left) := by
  rw [scopeAt] at himport hmodule hitem
  have hprelude : prelude? first.name = none := by
    simp only [standardRoots, List.mem_cons, List.not_mem_nil, or_false] at hroot
    rcases hroot with h | h | h <;> rw [h] <;> decide
  have hpath : pathRoots.contains first.name = true := by
    simp only [standardRoots, List.mem_cons, List.not_mem_nil, or_false] at hroot
    rcases hroot with h | h | h <;> rw [h] <;> decide
  simp only [byName, himport, ite_self, hmodule, hitem, hprelude, undeclared, hpath,
    Bool.false_eq_true, if_false, Bool.or_true, if_true]
  cases rest with
  | nil => rfl
  | cons second behind =>
      -- A name in lower case is read first as it is written, any other name last.
      cases startsLower first.name with
      | false => rfl
      | true => rfl

/-- A name that is imported by the module it is looked for in is looked up **through its
import**, and is paid for. -/
theorem memberRule_import {target : Route}
    (himport : (n.scopeAt module).import? first.name = some target) :
    n.memberRule l module (first :: rest) (left + 1) =
      (let (found, left) := throughImport l module first.name target (first :: rest) left
       (some found, left)) := by
  have hscope : n.scope? module = some (n.scopeAt module) := by
    refine scope?_eq_some_scopeAt fun hempty => ?_
    rw [hempty] at himport
    exact Option.some_ne_none target himport.symm
  simp only [memberRule, Paid.spend, bind, StateT.bind, hscope, himport]
  rfl

/-- A module in the module it is looked for in is paid for, and the rest is **looked for in
it**. -/
theorem memberRule_module (himport : (n.scopeAt module).import? first.name = none)
    (hmodule : (n.scopeAt module).modules.contains first.name = true) :
    n.memberRule l module (first :: rest) (left + 1) =
      (let (found, left) := below l (module ++ [first.name]) rest left
       (some found, left)) := by
  have hscope : n.scope? module = some (n.scopeAt module) := by
    refine scope?_eq_some_scopeAt fun hempty => ?_
    rw [hempty] at hmodule
    exact Bool.noConfusion hmodule
  simp only [memberRule, Paid.spend, bind, StateT.bind, hscope, himport, hmodule]
  rfl

/-- The target of an import is looked up in the module, **but for the import itself**, and what
is found takes the place of the first step. -/
theorem throughImport_apply {name : String} {target route : Route} {found : List Route}
    {left' : Nat} (hfound : l.written module target none (some name) left = (found, left')) :
    throughImport l module name target route left =
      (found.map fun r => substitute r route, left') := by
  simp only [throughImport, bind, StateT.bind, hfound]
  rfl

/-- A lookup that may go one deeper looks up a written route by the rule for these. -/
theorem lookup_written (n : Names) (depth : Nat) :
    (n.lookup (depth + 1)).written = n.writtenRule (n.lookup depth) := by
  rw [lookup]

/-- A lookup that may go one deeper looks up a route below a module by the rule for these. -/
theorem lookup_member (n : Names) (depth : Nat) :
    (n.lookup (depth + 1)).member = n.memberRule (n.lookup depth) := by
  rw [lookup]

end Names

/-! ### Lookups along a chain -/

open Names

variable {p : SourceFile} {next : String} {depth left left' : Nat} {found : List Route}

/-- Names that lead down through modules are looked up **one module after another**. -/
theorem Descends.below_eq {base names at_ : List String} (h : Descends p base names at_)
    (hnext : next ∉ pathWords)
    (hmember : ((ofProgram p).lookup depth).member at_ [plainStep next] left =
      (some found, left')) :
    Names.below ((ofProgram p).lookup (names.length + depth)) base
      (ofNames names ++ [plainStep next]) (names.length + left) = (found, left') := by
  induction h with
  | here =>
      have hone : ((ofProgram p).lookup depth).member _ (⟨next, []⟩ :: []) left = _ := hmember
      rw [List.length_nil, Nat.zero_add, Nat.zero_add]
      exact (below_name hnext []).trans (by rw [hone]; rfl)
  | @into base names at_ name hword hbound hrest ih =>
      obtain ⟨himport, hmodule⟩ := module_ofProgram hbound
      have hdepth : (name :: names).length + depth = (names.length + depth) + 1 := by
        simp only [List.length_cons]
        omega
      have hleft : (name :: names).length + left = (names.length + left) + 1 := by
        simp only [List.length_cons]
        omega
      have hroute : ofNames (name :: names) ++ [plainStep next] =
          ⟨name, []⟩ :: (ofNames names ++ [plainStep next]) := rfl
      rw [hdepth, hleft, hroute, below_name hword, lookup_member,
        memberRule_module himport hmodule, ih hmember]
      rfl

/-- The target of a `use` leaf is looked up **as far as the next name**, which decides what is
found. -/
theorem Targets.written_eq {module target at_ : List String} {cost : Nat} {skip : Option String}
    (h : Targets p module target at_ next cost) (hnext : next ∉ pathWords)
    (hskip : target = [next] → skip ≠ some next)
    (hmember : ((ofProgram p).lookup depth).member at_ [plainStep next] left =
      (some found, left'))
    (hwritten : ∀ skip, skip ≠ some next →
      ((ofProgram p).lookup depth).written at_ [plainStep next] none skip left = (found, left')) :
    ((ofProgram p).lookup (cost + depth)).written module (ofNames target) none skip
      (cost + left) = (found, left') := by
  cases h with
  | sibling =>
      rw [Nat.zero_add, Nat.zero_add]
      exact hwritten skip (hskip rfl)
  | @child name names at_ next hdown =>
      cases hdown with
      | into hword hbound hrest =>
          obtain ⟨himport, hmodule⟩ := module_ofProgram hbound
          have hdepth : names.length + 1 + depth = (names.length + depth) + 1 := by omega
          have hleft : names.length + 1 + left = (names.length + left) + 1 := by omega
          have hroute : ofNames (name :: names ++ [next]) =
              ⟨name, []⟩ :: (ofNames names ++ [plainStep next]) := by
            simp [ofNames, plainStep]
          rw [hdepth, hleft, hroute, lookup_written, writtenRule_name hword,
            byName_module himport hmodule]
          exact hrest.below_eq hnext hmember
  | @around words base names at_ next hstart hdown =>
      have hdepth : names.length + 1 + depth = (names.length + depth) + 1 := by omega
      have hleft : names.length + 1 + left = (names.length + left) + 1 := by omega
      have hroute : ofNames (words ++ names ++ [next]) =
          ofNames words ++ (ofNames names ++ [plainStep next]) := by
        simp [ofNames]
      rw [hdepth, hleft, hroute, lookup_written, writtenRule_starts hstart]
      exact hdown.below_eq hnext hmember

/-- A standard root that a module does not bind is no word for a module. -/
theorem not_mem_pathWords_of_standard {root : String} (hroot : root ∈ standardRoots) :
    root ∉ pathWords := by
  simp only [standardRoots, List.mem_cons, List.not_mem_nil, or_false] at hroot
  rcases hroot with rfl | rfl | rfl <;> decide

/-- A path that starts at a standard root its module does not bind is found **as it is
written**, with one lookup. -/
theorem written_standard {module : List String} (first : Step) (rest : Route)
    (owner : Option TypeName) (skip : Option String) (depth left : Nat)
    (hroot : first.name ∈ standardRoots) (hfree : p.boundTo module first.name = []) :
    ((ofProgram p).lookup (depth + 1)).written module (first :: rest) owner skip (left + 1) =
      ([literal (first :: rest)], left) := by
  obtain ⟨himport, hmodule, hitem⟩ := unbound_ofProgram hfree
  rw [lookup_written, writtenRule_name (not_mem_pathWords_of_standard hroot),
    byName_standard hroot himport hmodule hitem]

/-- A name that is bound once, by a `use` leaf, is looked up **through its import**, whether it is
written in its module or looked for there. -/
theorem lookup_import {module target : List String} {name : String} {path : Route}
    (hword : name ∉ pathWords) (hbound : p.boundTo module name = [.import_ target])
    (htarget : ((ofProgram p).lookup depth).written module (ofNames target) none (some name) left =
      ([path], left'))
    (args : List TypeName) (rest : Route) :
    ((ofProgram p).lookup (depth + 1)).member module (⟨name, args⟩ :: rest) (left + 1) =
        (some [substitute path (⟨name, args⟩ :: rest)], left') ∧
      ∀ owner skip, skip ≠ some name →
        ((ofProgram p).lookup (depth + 1)).written module (⟨name, args⟩ :: rest) owner skip
            (left + 1) =
          ([substitute path (⟨name, args⟩ :: rest)], left') := by
  have himport := import?_ofProgram hbound
  constructor
  · rw [lookup_member, memberRule_import himport, throughImport_apply htarget]
    rfl
  · intro owner skip hskip
    rw [lookup_written, writtenRule_name hword, byName_import hskip himport,
      throughImport_apply htarget]
    rfl

/-- A name that leads to a path is looked up **to the end of its chain**, whether it is written
in its module or looked for there. Each lookup on the way is paid for once. -/
theorem Leads.lookup_eq {module path : List String} {name : String} {lookups : Nat}
    (h : Leads p module name path lookups) (args : List TypeName) (rest : Route)
    (depth left : Nat) :
    ((ofProgram p).lookup (lookups + depth)).member module (⟨name, args⟩ :: rest)
        (lookups + left) =
      (some [substitute (literal (ofNames path)) (⟨name, args⟩ :: rest)], left) ∧
    ∀ owner skip, skip ≠ some name →
      ((ofProgram p).lookup (lookups + depth)).written module (⟨name, args⟩ :: rest) owner skip
          (lookups + left) =
        ([substitute (literal (ofNames path)) (⟨name, args⟩ :: rest)], left) := by
  induction h generalizing args rest depth left with
  | @standard module name root more hword hbound hroot hfree =>
      have htarget := written_standard ⟨root, []⟩ (ofNames more) none (some name) depth left
        hroot hfree
      have hdepth : 2 + depth = depth + 1 + 1 := by omega
      have hleft : 2 + left = left + 1 + 1 := by omega
      rw [hdepth, hleft]
      exact lookup_import hword hbound htarget args rest
  | @through module target at_ path name next cost lookups hword hbound htarget hnext ih =>
      obtain ⟨hmember, hwritten⟩ := ih [] [] depth left
      have hskip : target = [next] → (some name) ≠ some next := by
        rintro rfl hname
        obtain rfl := Option.some.inj hname
        obtain ⟨rfl, -⟩ := htarget.of_singleton rfl
        exact hnext.not_bound_to_self hbound
      have hempty : substitute (literal (ofNames path)) [plainStep next] =
          literal (ofNames path) := by
        simp [substitute, plainStep]
      have hfound := htarget.written_eq hnext.not_mem_pathWords hskip hmember
        (fun skip h => hwritten none skip h)
      rw [← plainStep, hempty] at hfound
      have hdepth : lookups + cost + 1 + depth = cost + (lookups + depth) + 1 := by omega
      have hleft : lookups + cost + 1 + left = cost + (lookups + left) + 1 := by omega
      rw [hdepth, hleft]
      exact lookup_import hword hbound hfound args rest

/-! ### Candidates -/

/-- A path through a chain of re-exports that the budget can pay for has **one candidate**: the
path at the end of the chain, in place of the name that leads to it. -/
theorem candidates_of_leads {module path : List String} {name : String} {lookups : Nat}
    (h : Leads p module name path lookups) (hbudget : lookups ≤ lookupBudget)
    (args : List TypeName) (rest : Route) (owner : Option TypeName) :
    (ofProgram p).candidates module (⟨name, args⟩ :: rest) owner =
      [substitute (literal (ofNames path)) (⟨name, args⟩ :: rest)] := by
  obtain ⟨spare, hspare⟩ := Nat.exists_eq_add_of_le hbudget
  have hwritten := (h.lookup_eq args rest spare spare).2 owner none (by simp)
  rw [candidates, candidatesWithin, hspare, hwritten]

/-- A path that starts at a standard root its module does not bind has **one candidate**: itself,
with the root `std`. -/
theorem candidates_of_standard {module : List String} {first : Step} {rest : Route}
    (hroot : first.name ∈ standardRoots) (hfree : p.boundTo module first.name = [])
    (owner : Option TypeName) :
    (ofProgram p).candidates module (first :: rest) owner = [literal (first :: rest)] := by
  have hbudget : lookupBudget = 511 + 1 := rfl
  rw [candidates, candidatesWithin, hbudget, written_standard _ _ _ _ _ _ hroot hfree]

end CapabilityGate
