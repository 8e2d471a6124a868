import CapabilityGate.Proofs.Audit.GlobReading
import CapabilityGate.Proofs.Audit.ItemOrder
import CapabilityGate.Proofs.Resolution.TypeReadings

/-!
# Types that are named indirectly

A function of a type can be called by the path of the type, or through something that stands for
the type: another name for it, a local name with this type, `Self`, or the type in angle brackets.
The path makes a call site of each of its candidates. The others know one type only, the first that
the path may mean. So they lose nothing where the path means one type, and else they do.

## Main definitions

* `OneReading`: all that the path of a type may mean is one type.
* `SourceFile.Records`: a program has a call site for a function of a type.
* `CallsIndirectly`: a program calls a function of a type through something that stands for it.

## Main results

* `records_of_indirect_call`: an indirect call makes the call sites that a direct one does, for
  types with one reading.
* `indirect_names_lose_readings`: calls that go unnoticed where there is another reading.
-/

namespace CapabilityGate

open Program Route Names

/-! ### Types with one reading -/

/-- The type whose full name is a path **as it is written** in a module. -/
def Names.asWritten (n : Names) (module : List String) (type : Path) : TypeName :=
  (literal (n.stepsOf module none type.segments)).type

/-- All that a path **may mean as a type** in a module of a program is one type, unless it is the
full name of a type. -/
structure OneReading (n : Names) (module : List String) (type : Path) : Prop where
  /-- The module is one of the program. -/
  scope : (n.scope? module).isSome = true
  /-- The path has a name. -/
  segments : type.segments ≠ []
  /-- What it may mean does not depend on what `Self` stands for. -/
  steady : ∀ owner, n.candidates module (n.stepsOf module owner type.segments) owner =
    n.candidates module (n.stepsOf module none type.segments) none
  /-- It means one type, or the one with this full name. -/
  one : ∀ r ∈ n.candidates module (n.stepsOf module none type.segments) none,
    r.type = n.typeMeaning module none (.path type) ∨ r.type = n.asWritten module type
  /-- It means no module of the program. -/
  noModule : ∀ r ∈ n.candidates module (n.stepsOf module none type.segments) none,
    n.module? r = none

namespace OneReading

variable {n : Names} {module : List String} {type : Path} (h : OneReading n module type)

include h

/-- The type means the same **wherever it stands** in the module. -/
theorem typeMeaning_eq (owner : Option TypeName) :
    n.typeMeaning module owner (.path type) = n.typeMeaning module none (.path type) := by
  have hsteady := h.steady owner
  obtain ⟨global, segments⟩ := type
  rw [typeMeaning, typeMeaning]
  rw [Path.segments] at hsteady
  rw [hsteady]

end OneReading

/-- The steps that segments spell one behind the other. -/
theorem Names.stepsOf_append (n : Names) (module : List String) (owner : Option TypeName)
    (ss ts : List Segment) :
    n.stepsOf module owner (ss ++ ts) = n.stepsOf module owner ss ++ n.stepsOf module owner ts := by
  induction ss with
  | nil => rw [stepsOf]; rfl
  | cons s rest ih =>
      obtain ⟨word, style, args⟩ := s
      rw [List.cons_append, stepsOf, stepsOf, ih]
      rfl

theorem Names.stepsOf_ne_nil (n : Names) (module : List String) (owner : Option TypeName)
    {segments : List Segment} (h : segments ≠ []) : n.stepsOf module owner segments ≠ [] := by
  obtain ⟨⟨word, style, args⟩, rest, rfl⟩ := List.exists_cons_of_ne_nil h
  rw [stepsOf]
  exact List.cons_ne_nil _ _

/-- A path means the type that **the first of its candidates** leads to. -/
theorem Names.typeMeaning_of_candidates {n : Names} {module : List String} {owner : Option TypeName}
    {type : Path} {r : Route} {rest : List Route}
    (h : n.candidates module (n.stepsOf module owner type.segments) owner = r :: rest) :
    n.typeMeaning module owner (.path type) = r.type := by
  obtain ⟨global, segments⟩ := type
  rw [Path.segments] at h
  rw [typeMeaning, h]

/-- A path means a type that some route leads to. -/
theorem exists_typeMeaning_eq (p : SourceFile) (module : List String) (owner : Option TypeName)
    {type : Path} (h : type.segments ≠ []) :
    ∃ r : Route, (ofProgram p).typeMeaning module owner (.path type) = r.type := by
  obtain ⟨r, rest, hcons⟩ := List.exists_cons_of_ne_nil (candidates_ne_nil p module owner
    ((ofProgram p).stepsOf_ne_nil module owner h))
  exact ⟨r, typeMeaning_of_candidates hcons⟩

/-- What a path means does not depend on what `Self` stands for, if it does **not start with
`Self`**. -/
theorem Names.candidates_of_ne_self {n : Names} {module : List String} {first : Step}
    {rest : Route} (h : first.name ≠ "Self") (owner : Option TypeName) :
    n.candidates module (first :: rest) owner = n.candidates module (first :: rest) none := by
  have hself : (first.name == "Self") = false := by simpa using h
  have hbudget : lookupBudget = 511 + 1 := rfl
  rw [candidates, candidates, candidatesWithin, candidatesWithin, hbudget, lookup_written,
    writtenRule, writtenRule, hself]
  rfl

/-! ### Call sites of a type -/

variable {p : SourceFile} {module : List String} {type : Path} {method : Word}
  {style : ArgumentStyle} {args : List Part}

/-- A program **records** a function of a type, when one of its call sites names it other than in
the tokens of a macro. -/
def Program.SourceFile.Records (p : SourceFile) (container : TypeName) (method : String) : Prop :=
  ∃ site ∈ (Model.ofProgram p).sites,
    site.container = container ∧ site.method = method ∧ site.kind ≠ .macroBody

/-- A program that records a function of a **denied type** is rejected. -/
theorem Program.SourceFile.Records.rejects {container : TypeName} {method : String}
    (h : p.Records container method) {denylist : List Descriptor} {d : Descriptor}
    (hd : d ∈ denylist) (htype : d.canonical.coversType container = true)
    (hmethod : d.method.all (· == method) = true) :
    (AuditReport.ofProgram p denylist).verdict.rejects = true := by
  obtain ⟨site, hsite, rfl, rfl, hkind⟩ := h
  have hagrees : d.canonical.agrees site.kind site.container = true := by
    rw [Descriptor.agrees]
    · exact htype
    · exact hkind
  have hcovers : d.canonical.covers site = true := by
    have hboth : (d.canonical.agrees site.kind site.container &&
        d.canonical.method.all (· == site.method)) = true :=
      Bool.and_eq_true_iff.mpr ⟨hagrees, hmethod⟩
    rw [Descriptor.covers, hboth, Bool.true_or]
  rw [AuditReport.ofProgram, Model.verdict_withoutRepeats]
  exact Model.rejects_of_covers hsite hd hcovers

/-- A candidate that goes on behind a route with a function makes **the call site of this function
in the type** that the route names. -/
theorem siteOf_concat {r : Route} {step : Step} {kind : CallKind} {at_ : Position} {site : CallSite}
    (h : siteOf kind at_ (r ++ [step]) = some site) :
    site.container = r.type ∧ site.method = step.name ∧ site.kind = kind := by
  cases r with
  | nil => exact absurd h (Option.some_ne_none site).symm
  | cons first rest =>
      rw [siteOf, split?_concat_eq (List.cons_ne_nil _ _)] at h
      obtain rfl := Option.some.inj h
      exact ⟨rfl, rfl, rfl⟩

/-- A call site of a candidate that goes on behind a route is recorded for **the type that the
route names**. -/
theorem records_of_candidate {place : Place} {at_ : Position} {called : Bool} {path : Path}
    {r : Route} {step : Step} (hmention : (place, Mention.path called at_ path) ∈ p.mentions)
    (hlength : 2 ≤ path.segments.length) (hne : r ≠ [])
    (hr : r ++ [step] ∈ (ofProgram p).candidatesAt place ((ofProgram p).routeAt place path)) :
    p.Records r.type step.name := by
  have hlength' : 2 ≤ ((ofProgram p).routeAt place path).length := by
    have hnames := congrArg List.length ((ofProgram p).map_name_routeAt place path)
    rw [List.length_map, Path.names, List.length_map] at hnames
    omega
  have hsome : ∃ site, siteOf (kindOf called) at_ (r ++ [step]) = some site := by
    rw [siteOf, split?_concat_eq hne]
    exact ⟨_, rfl⟩
  obtain ⟨site, hsite⟩ := hsome
  obtain ⟨hcontainer, hmethod, hkind⟩ := siteOf_concat hsite
  refine ⟨site, mem_sitesOfAll (fun bindings => ?_) [] hmention, hcontainer, hmethod, ?_⟩
  · rw [sitesOf, sitesOfPath_of_two_le _ _ hlength']
    exact List.mem_filterMap.mpr ⟨_, hr, hsite⟩
  · rw [hkind]
    cases called <;> exact CallKind.noConfusion

/-- The call sites of a **direct call** of a function of a type with one reading are those of that
type, and of the one whose full name is the path as it is written. -/
theorem container_of_direct_call {place : Place} {path : Path} {site : CallSite}
    (h : OneReading (ofProgram p) place.module type)
    (hpath : path.segments = type.segments ++ [.mk method style args]) {bindings : Bindings}
    {called : Bool} {at_ : Position}
    (hsite : site ∈ (ofProgram p).sitesOf bindings place (.path called at_ path)) :
    site.container = (ofProgram p).typeMeaning place.module none (.path type) ∨
      site.container = (ofProgram p).asWritten place.module type := by
  have hroute : ∃ step : Step, (ofProgram p).routeAt place path =
      (ofProgram p).stepsOf place.module ((ofProgram p).ownerAt place) type.segments ++ [step] := by
    rw [routeAt, routeOf, hpath, stepsOf_append, stepsOf, stepsOf]
    exact ⟨_, rfl⟩
  obtain ⟨step, hroute⟩ := hroute
  have hne := (ofProgram p).stepsOf_ne_nil place.module ((ofProgram p).ownerAt place) h.segments
  have hlength : 2 ≤ ((ofProgram p).routeAt place path).length := by
    have hpositive := List.length_pos_iff.mpr hne
    rw [hroute, List.length_append, List.length_singleton]
    omega
  rw [sitesOf, sitesOfPath_of_two_le _ _ hlength, hroute] at hsite
  obtain ⟨m, hm, hmsite⟩ := List.mem_filterMap.mp hsite
  have hsteady := h.steady ((ofProgram p).ownerAt place)
  have hadded := candidates_concat (nested_ofProgram p) ((ofProgram p).ownerAt place) h.scope hne
    (by rw [hsteady]; exact h.noModule) step
  obtain ⟨r, hr, rfl⟩ := (hadded m).mp hm
  obtain ⟨hcontainer, -, -⟩ := siteOf_concat hmsite
  rw [hsteady] at hr
  rw [hcontainer]
  exact h.one r hr

/-! ### Names for types -/

/-- A name for a type is no name for one **under other names**, or in other modules. -/
theorem Names.import?_addAlias {n : Names} {d : Declaration} {name : String}
    (hd : d.module = module → ∀ type, d.what ≠ .typeAlias name type) :
    ((n.addAlias d).scopeAt module).import? name = (n.scopeAt module).import? name := by
  obtain ⟨at_, what⟩ := d
  cases what with
  | typeAlias other type =>
      rw [addAlias, scopeAt_update]
      split
      next hat =>
        have hne : (name == other) = false := by
          rw [beq_eq_false_iff_ne]
          rintro rfl
          exact hd hat.symm type rfl
        rw [Scope.import?, Scope.addImport, List.lookup_cons, hne]
        rfl
      next => rfl
  | _ => rfl

/-- A name for a type is an import of what the type means **where the name is declared**, if it is
not declared again. -/
theorem Names.import?_of_alias {before after : List Declaration} {name : String} {written : Ty}
    (hsplit : p.declarations = before ++ ⟨module, .typeAlias name written⟩ :: after)
    (hlast : ∀ d ∈ after, d.module = module → ∀ other, d.what ≠ .typeAlias name other) :
    ((ofProgram p).scopeAt module).import? name = some (.ofType
      ((before.foldl addAlias (.ofDeclarations p.declarations)).typeMeaning module none
        written)) := by
  have hafter : ∀ (ds : List Declaration) (n : Names),
      (∀ d ∈ ds, d.module = module → ∀ other, d.what ≠ .typeAlias name other) →
        ((ds.foldl addAlias n).scopeAt module).import? name = (n.scopeAt module).import? name := by
    intro ds
    induction ds with
    | nil => exact fun _ _ => rfl
    | cons d rest ih =>
        intro n hds
        have hrest := ih (n.addAlias d) fun e he => hds e (List.mem_cons_of_mem _ he)
        rw [List.foldl_cons, hrest, import?_addAlias (hds d (List.mem_cons_self ..))]
  have hfold : ofProgram p = after.foldl addAlias
      ((before.foldl addAlias (.ofDeclarations p.declarations)).addAlias
        ⟨module, .typeAlias name written⟩) := by
    rw [ofProgram, ← List.foldl_cons, ← List.foldl_append, ← hsplit]
  rw [hfold, hafter after _ hlast, addAlias, scopeAt_update, if_pos rfl, Scope.import?,
    Scope.addImport, List.lookup_cons, beq_self_eq_true]

/-! ### Indirect calls -/

/-- A name **stands for a type** in a module: it is a name for the path of the type, which means
there what it means in the end; and the full name of the type, written in the module, means the
type, by one lookup less than a path may take. -/
structure StandsFor (p : SourceFile) (module : List String) (name : String) (type : Path) :
    Prop where
  /-- It is none of the words for modules and types around it. -/
  word : name ∉ pathWords
  /-- It is declared as a name for the type, which already means there what it means at last, and
  not declared again. -/
  declared : ∃ before after,
    p.declarations = before ++ ⟨module, .typeAlias name (.path type)⟩ :: after ∧
      (before.foldl addAlias (.ofDeclarations p.declarations)).typeMeaning module none
          (.path type) = (ofProgram p).typeMeaning module none (.path type) ∧
      ∀ d ∈ after, d.module = module → ∀ other, d.what ≠ .typeAlias name other
  /-- The full name of the type does not start with the name. -/
  notFirst : ∀ first ∈ (Route.ofType
    ((ofProgram p).typeMeaning module none (.path type))).head?, first.name ≠ name
  /-- The full name of the type means the type. -/
  full : ∃ r ∈ ((ofProgram p).candidatesWithin (lookupBudget - 1) module
      (.ofType ((ofProgram p).typeMeaning module none (.path type))) none).1,
    r ≠ [] ∧ r.type = (ofProgram p).typeMeaning module none (.path type)

/-- A program **calls a function of a type indirectly**, by what stands in a module for the path of
the type. -/
inductive CallsIndirectly (p : SourceFile) (module : List String) (type : Path) (method : Word) :
    Prop
  /-- By another name for the type. -/
  | byAlias {place : Place} {at_ : Position} {path : Path} {called : Bool} {name : Word}
      {style : ArgumentStyle} {args : List Part}
      (hmention : (place, Mention.path called at_ path) ∈ p.mentions)
      (hmodule : place.module = module)
      (hpath : path.segments = [.mk name .none [], .mk method style args])
      (hname : StandsFor p module name.text type)
  /-- As a method of a local name that has got the type last. -/
  | byBinding {place bound : Place} {at_ : Position} {receiver : Expr} {name : String}
      (hcall : ⟨(place, .method receiver method.text at_), some (bound, .typed name (.path type))⟩ ∈
        p.localCalls)
      (hmodule : bound.module = module)
  /-- By `Self`, in an implementation of the type. -/
  | bySelf {place : Place} {at_ : Position} {path : Path} {called : Bool} {self_ : Word}
      {style : ArgumentStyle} {args : List Part}
      (hmention : (place, Mention.path called at_ path) ∈ p.mentions)
      (howner : place.owner = some (module, .path type)) (hself : self_.text = "Self")
      (hpath : path.segments = [.mk self_ .none [], .mk method style args])
  /-- By the type in angle brackets. -/
  | byBrackets {place : Place} {at_ : Position} {path : Path} {called : Bool}
      {style : ArgumentStyle} {args : List Part}
      (hmention : (place, Mention.qualified called at_ (.path type) 0 path) ∈ p.mentions)
      (hmodule : place.module = module) (hpath : path.segments = [.mk method style args])

/-- The candidates of a **name for a type** with a function behind it are those of the full name of
the type. -/
theorem mem_candidates_of_alias {name : String} (h : StandsFor p module name type) {r : Route}
    (hr : r ∈ ((ofProgram p).candidatesWithin (lookupBudget - 1) module
      (.ofType ((ofProgram p).typeMeaning module none (.path type))) none).1)
    (owner : Option TypeName) (step : Step) :
    r ++ [step] ∈ (ofProgram p).candidates module [plainStep name, step] owner := by
  obtain ⟨before, after, hsplit, hsettled, hlast⟩ := h.declared
  have himport := import?_of_alias hsplit hlast
  rw [hsettled] at himport
  have hnotFirst := h.notFirst
  generalize (ofProgram p).typeMeaning module none (.path type) = t at *
  obtain ⟨first, rest, hfull⟩ := List.exists_cons_of_ne_nil (ofType_ne_nil t)
  rw [hfull] at himport hr hnotFirst
  -- the target is looked up without the name, which it does not start with
  have hskip : (ofProgram p).writtenRule ((ofProgram p).lookup 510) module (first :: rest) none
      (some name) = (ofProgram p).writtenRule ((ofProgram p).lookup 510) module (first :: rest) none
        none := by
    have hne : first.name ≠ name := hnotFirst first rfl
    have hskipped : (some name = some first.name) = False :=
      eq_false fun heq => hne (Option.some.inj heq).symm
    have hnone : ((none : Option String) = some first.name) = False :=
      eq_false (Option.some_ne_none _).symm
    simp only [writtenRule, byName, hskipped, hnone, if_false]
  have htarget : ((ofProgram p).lookup (510 + 1)).written module (first :: rest) none (some name)
      511 = (ofProgram p).candidatesWithin (lookupBudget - 1) module (first :: rest) none := by
    have hbudget : lookupBudget - 1 = 510 + 1 := rfl
    rw [candidatesWithin, hbudget, lookup_written, hskip]
  have hlookup : (ofProgram p).candidates module [plainStep name, step] owner =
      (throughImport ((ofProgram p).lookup (510 + 1)) module name (first :: rest)
        [plainStep name, step] 511).1 := by
    have hbudget : lookupBudget = 511 + 1 := rfl
    have hword : (plainStep name).name ∉ pathWords := h.word
    have hbound : ((ofProgram p).scopeAt module).import? (plainStep name).name =
        some (first :: rest) := himport
    rw [candidates, candidatesWithin, hbudget, lookup_written, writtenRule_name hword,
      byName_import (Option.some_ne_none _).symm hbound]
    rfl
  rw [hlookup]
  change r ++ [step] ∈ (((ofProgram p).lookup (510 + 1)).written module (first :: rest) none
    (some name) 511).1.map fun found => substitute found [plainStep name, step]
  rw [htarget]
  exact List.mem_map.mpr ⟨r, hr, rfl⟩

/-- **`Self`** with a function behind it is looked up as the full name of the type that it stands
for. -/
theorem mem_candidates_of_self (n : Names) (module : List String) (t : TypeName) (step : Step) :
    ofType t ++ [step] ∈ n.candidates module [plainStep "Self", step] (some t) :=
  List.mem_singleton.mpr rfl

/-- A method call on a local name is one in a list of local calls, with **what gave this name its
type** as far as that is known. -/
theorem Names.localName?_of_mem_localCalls {n : Names} {c : LocalCall}
    {before ms : List (Place × Mention)} (h : c ∈ n.localCalls before ms) :
    ∃ name earlier, c.call.2.localName? = some name ∧ c.giver = n.giver? name earlier := by
  induction ms generalizing before with
  | nil => exact absurd h List.not_mem_nil
  | cons m rest ih =>
      rw [localCalls, List.mem_append] at h
      rcases h with h | h
      · rw [Option.mem_toList] at h
        obtain ⟨name, hname, rfl⟩ := Option.map_eq_some_iff.mp h
        exact ⟨name, before, hname, rfl⟩
      · exact ih h

/-- The type of a receiver that is a local name is **that of the name**. -/
theorem Names.receiverType_of_localName (n : Names) (place : Place) (bindings : Bindings)
    {name : String} : ∀ {e : Expr}, e.localName? = some name →
      n.receiverType place bindings e = bindings.lookup name
  | .path _ p, h => by
    rw [Expr.localName?, Option.filter_eq_some_iff] at h
    have hself : (name == "self") = false := by simpa using h.2
    rw [receiverType, h.1]
    simp [hself]
  | .paren _, h => by
    rw [Expr.localName?] at h
    rw [receiverType, receiverType_of_localName n place bindings h]
  | .reference _, h => by
    rw [Expr.localName?] at h
    rw [receiverType, receiverType_of_localName n place bindings h]
  | .attributed _ _, h => by
    rw [Expr.localName?] at h
    rw [receiverType, receiverType_of_localName n place bindings h]

/-- A method call on a local name that has got a type last **makes the call site of that type**. -/
theorem mem_sites_of_local_call {place bound : Place} {at_ : Position} {receiver : Expr}
    {name method : String} {written : Ty}
    (hcall : ⟨(place, .method receiver method at_), some (bound, .typed name written)⟩ ∈
      p.localCalls) :
    ⟨(ofProgram p).typeMeaning bound.module ((ofProgram p).ownerAt bound) written, method, .method,
      at_.line, at_.column⟩ ∈ (Model.ofProgram p).sites := by
  obtain ⟨found, earlier, hlocal, hgiver⟩ := localName?_of_mem_localCalls hcall
  have hname : name = found := by
    have hgives := List.find?_some hgiver.symm
    simpa [given?] using hgives
  subst hname
  refine (mem_sitesOfAll_iff [] p.mentions).mpr (List.mem_append_right _ ?_)
  refine List.mem_flatMap.mpr ⟨_, hcall, ?_⟩
  have hreceiver := receiverType_of_localName (ofProgram p) place
    [(name, (ofProgram p).typeMeaning bound.module ((ofProgram p).ownerAt bound) written)] hlocal
  rw [List.lookup_cons, beq_self_eq_true] at hreceiver
  have hbindings : (ofProgram p).bindingsFrom [(bound, .typed name written)] =
      [(name, (ofProgram p).typeMeaning bound.module ((ofProgram p).ownerAt bound) written)] := rfl
  rw [sitesOfCall, Option.toList_some, hbindings, sitesOf, hreceiver]
  exact List.mem_singleton.mpr rfl

/-- An indirect call of a function of a type with one reading **is recorded for this type**. -/
theorem records_typeMeaning (h : OneReading (ofProgram p) module type)
    (hcall : CallsIndirectly p module type method) :
    p.Records ((ofProgram p).typeMeaning module none (.path type)) method.text := by
  have hnormal : (ofType ((ofProgram p).typeMeaning module none (.path type))).type =
      (ofProgram p).typeMeaning module none (.path type) := by
    obtain ⟨r, hr⟩ := exists_typeMeaning_eq p module none h.segments
    rw [hr, type_ofType_type]
  cases hcall with
  | @byAlias place at_ path called name style args hmention hmodule hpath hname =>
      subst hmodule
      obtain ⟨r, hr, hne, hrtype⟩ := hname.full
      have hroute : ∃ step : Step, step.name = method.text ∧
          (ofProgram p).routeAt place path = [plainStep name.text, step] := by
        rw [routeAt, routeOf, hpath, stepsOf, stepsOf, stepsOf]
        exact ⟨_, rfl, rfl⟩
      obtain ⟨step, hstep, hroute⟩ := hroute
      have hcandidate := mem_candidates_of_alias hname hr ((ofProgram p).ownerAt place) step
      rw [← hrtype, ← hstep]
      refine records_of_candidate hmention (by rw [hpath]; exact Nat.le_refl 2) hne ?_
      rw [hroute]
      exact hcandidate
  | @byBinding place bound at_ receiver name hcall hmodule =>
      subst hmodule
      exact ⟨_, mem_sites_of_local_call hcall, h.typeMeaning_eq _, rfl, CallKind.noConfusion⟩
  | @bySelf place at_ path called self_ style args hmention howner hself hpath =>
      have hroute : ∃ step : Step, step.name = method.text ∧
          (ofProgram p).routeAt place path = [plainStep "Self", step] := by
        rw [routeAt, routeOf, hpath, stepsOf, stepsOf, stepsOf, hself]
        exact ⟨_, rfl, rfl⟩
      obtain ⟨step, hstep, hroute⟩ := hroute
      have hcandidate := mem_candidates_of_self (ofProgram p) place.module
        ((ofProgram p).typeMeaning module none (.path type)) step
      rw [← hnormal, ← hstep]
      refine records_of_candidate hmention (by rw [hpath]; exact Nat.le_refl 2)
        (ofType_ne_nil _) ?_
      rw [hroute, candidatesAt, ownerAt, howner]
      exact hcandidate
  | @byBrackets place at_ path called style args hmention hmodule hpath =>
      subst hmodule
      have hlast : path.segments.getLast? = some (.mk method style args) := by rw [hpath]; rfl
      have hsites : ∀ bindings, (ofProgram p).sitesOf bindings place
          (.qualified called at_ (.path type) 0 path) =
          [⟨(ofProgram p).typeMeaning place.module ((ofProgram p).ownerAt place) (.path type),
            method.text, kindOf called, at_.line, at_.column⟩] := by
        intro bindings
        rw [sitesOf, sitesOfQualified, hlast]
        rfl
      have hsite := mem_sitesOfAll (fun bindings =>
        (hsites bindings).symm ▸ List.mem_singleton.mpr rfl) [] hmention
      refine ⟨_, hsite, h.typeMeaning_eq _, rfl, ?_⟩
      cases called <;> exact CallKind.noConfusion

/-- **Naming a type indirectly loses no candidate** where the path of the type has one reading: for
every container that a direct call of a function of the type records, a call through another name
for the type, through a local name that has got the type, through `Self` in an implementation of
it, or through the type in angle brackets records it too, so all of these are rejected when the
container is denied. The path as it is written is one of the containers, though it may not be what
it means; it does not count. -/
theorem records_of_indirect_call {place : Place} {path : Path} {called : Bool} {at_ : Position}
    {bindings : Bindings} {site : CallSite}
    (hone : OneReading (ofProgram p) place.module type)
    (hpath : path.segments = type.segments ++ [.mk method style args])
    (hsite : site ∈ (ofProgram p).sitesOf bindings place (.path called at_ path))
    (hread : site.container = (ofProgram p).asWritten place.module type →
      (ofProgram p).asWritten place.module type =
        (ofProgram p).typeMeaning place.module none (.path type))
    (hcall : CallsIndirectly p place.module type method) :
    p.Records site.container method.text ∧
      ∀ denylist : List Descriptor, ∀ d ∈ denylist,
        d.canonical.coversType site.container = true → d.method.all (· == method.text) = true →
          (AuditReport.ofProgram p denylist).verdict.rejects = true := by
  have hcontainer : site.container =
      (ofProgram p).typeMeaning place.module none (.path type) := by
    rcases container_of_direct_call hone hpath hsite with hmeant | hwritten
    · exact hmeant
    · rw [hwritten, hread hwritten]
  have hrecords : p.Records site.container method.text := by
    rw [hcontainer]
    exact records_typeMeaning hone hcall
  exact ⟨hrecords, fun denylist d hd htype hmethod => hrecords.rejects hd htype hmethod⟩

/-! ### Types that globs offer -/

/-- The path of the type `TcpStream`. -/
def tcpStream : Path :=
  pathOf [⟨"TcpStream", Eq.refl true⟩]

/-- The name of the function `connect`. -/
def connect : Word :=
  ⟨"connect", Eq.refl true⟩

/-- The tree of a program with globs of modules of the standard library, followed by items. -/
def withGlobs (modules : List Word) (items : List Item) : SourceFile :=
  ⟨[], modules.map (fun module => globAt [⟨"std", Eq.refl true⟩, module]) ++ items⟩

/-- The call `TcpStream::connect()`. -/
def directCall : List Item :=
  [functionOf [callOf [⟨"TcpStream", Eq.refl true⟩, connect]]]

/-- The call `A::connect()` with the name `A` for the type. -/
def callByAlias : List Item :=
  [.typeAlias [] ⟨"A", Eq.refl true⟩ (.path tcpStream),
    functionOf [callOf [⟨"A", Eq.refl true⟩, connect]]]

/-- The call `s.connect()` on a parameter with the type. -/
def callByBinding : List Item :=
  [functionOf [parameterOf tcpStream, methodOf connect]]

/-- The call `Self::connect()` in an implementation of the type. -/
def callBySelf : List Item :=
  [.implementation [] (.path tcpStream)
    [.item (.other [callOf [⟨"Self", Eq.refl true⟩, connect]])]]

/-- The call `<TcpStream>::connect()`. -/
def callByBrackets : List Item :=
  [functionOf [.expr (.call (.qualified .start (.path tcpStream) 0 (pathOf [connect])) [])]]

/-- The call site of `connect` in the `TcpStream` of the standard library. -/
def connectSite : CallSite :=
  ⟨.ofPath "std::net::TcpStream", "connect", .path, 1, 1⟩

/-- A path of one name has **one reading** where a glob offers it under one full name. -/
theorem oneReading_of_candidates {n : Names} (hscope : (n.scope? []).isSome = true)
    (hcandidates : n.candidates [] [plainStep "TcpStream"] none =
      [ofNames ["std", "net", "TcpStream"], [plainStep "TcpStream"]]) :
    OneReading n [] tcpStream := by
  have hsteps : ∀ owner, n.stepsOf [] owner tcpStream.segments = [plainStep "TcpStream"] := by
    intro owner
    rw [tcpStream, pathOf, Path.segments, List.map_cons, List.map_nil, stepsOf, stepsOf]
    rfl
  have hmeaning : n.typeMeaning [] none (.path tcpStream) = .ofPath "std::net::TcpStream" := by
    rw [typeMeaning_of_candidates ((hsteps none).symm ▸ hcandidates)]
    decide
  have hwritten : n.asWritten [] tcpStream = .ofPath "TcpStream" := by
    rw [asWritten, hsteps]
    decide
  refine ⟨hscope, by decide, fun owner => ?_, ?_, ?_⟩
  · rw [hsteps, hsteps, candidates_of_ne_self (by decide)]
  · rw [hsteps, hcandidates, hmeaning, hwritten]
    decide
  · rw [hsteps, hcandidates]
    intro r hr
    simp only [List.mem_cons, List.not_mem_nil, or_false] at hr
    rcases hr with rfl | rfl <;> rfl

/-- An indirect call of `connect` is recorded **as the direct one is**, in a program with one glob,
which offers the type. -/
structure RecordedAsDirect (items : List Item) : Prop where
  /-- The path of the type means one type. -/
  one : OneReading (ofProgram (withGlobs [⟨"net", Eq.refl true⟩] items)) [] tcpStream
  /-- A direct call makes a call site. -/
  direct : connectSite ∈ (ofProgram (withGlobs [⟨"net", Eq.refl true⟩] items)).sitesOf []
    ⟨[], none⟩ (.path true .start (pathOf [⟨"TcpStream", Eq.refl true⟩, connect]))
  /-- The program calls the function indirectly. -/
  indirect : CallsIndirectly (withGlobs [⟨"net", Eq.refl true⟩] items) [] tcpStream connect
  /-- So it has a call site for it. -/
  recorded : (withGlobs [⟨"net", Eq.refl true⟩] items).Records (.ofPath "std::net::TcpStream")
    "connect"

/-- With one glob that offers the type, each of the indirect calls is recorded as the direct one
is. -/
theorem connect_recorded_indirectly :
    RecordedAsDirect callByAlias ∧ RecordedAsDirect callByBinding ∧
      RecordedAsDirect callBySelf ∧ RecordedAsDirect callByBrackets := by
  have hrecorded : ∀ items, (connectSite ∈
        (ofProgram (withGlobs [⟨"net", Eq.refl true⟩] items)).sitesOf [] ⟨[], none⟩
          (.path true .start (pathOf [⟨"TcpStream", Eq.refl true⟩, connect])) ∧
      (ofProgram (withGlobs [⟨"net", Eq.refl true⟩] items)).candidates []
        [plainStep "TcpStream"] none =
          [ofNames ["std", "net", "TcpStream"], [plainStep "TcpStream"]] ∧
      (ofProgram (withGlobs [⟨"net", Eq.refl true⟩] items)).asWritten [] tcpStream =
        .ofPath "TcpStream") →
      CallsIndirectly (withGlobs [⟨"net", Eq.refl true⟩] items) [] tcpStream connect →
        RecordedAsDirect items := by
    rintro items ⟨hsite, hcandidates, hwritten⟩ hcall
    have hone := oneReading_of_candidates (nested_ofProgram _).root hcandidates
    have hplace : OneReading (ofProgram (withGlobs [⟨"net", Eq.refl true⟩] items))
        (Place.mk [] none).module tcpStream := hone
    have hpath : (pathOf [⟨"TcpStream", Eq.refl true⟩, connect]).segments =
        tcpStream.segments ++ [.mk connect .none []] := rfl
    have hread : connectSite.container ≠ .ofPath "TcpStream" := by decide
    exact ⟨hone, hsite, hcall, (records_of_indirect_call hplace hpath hsite
      (fun hcontainer => absurd (hcontainer.trans hwritten) hread) hcall).1⟩
  refine ⟨hrecorded _ ?_ ?_, hrecorded _ ?_ ?_, hrecorded _ ?_ ?_, hrecorded _ ?_ ?_⟩
  · decide +kernel
  · have hmeaning : (ofProgram (withGlobs [⟨"net", Eq.refl true⟩] callByAlias)).typeMeaning []
        none (.path tcpStream) = .ofPath "std::net::TcpStream" := by decide
    refine .byAlias (List.mem_cons_self ..) rfl rfl ⟨by decide,
      ⟨[⟨[], .use false (.under ⟨"std", Eq.refl true⟩ (.under ⟨"net", Eq.refl true⟩ .glob))⟩],
        [⟨[], .item "f"⟩], rfl, ?_, by simp⟩, ?_, ?_⟩
    · rw [hmeaning]
      decide +kernel
    · rw [hmeaning]
      decide +kernel
    · rw [hmeaning]
      decide +kernel
  · decide +kernel
  · exact .byBinding (List.mem_cons_self ..) rfl
  · decide +kernel
  · exact .bySelf (List.mem_cons_self ..) rfl rfl rfl
  · decide +kernel
  · exact .byBrackets (List.mem_cons_self ..) rfl rfl

/-- An indirect call of `connect` **goes unnoticed** in a program with globs: with the direct call
the program is rejected for the `TcpStream` of the standard library, and with the indirect one it
passes. -/
structure LosesReading (modules : List Word) (items : List Item) : Prop where
  /-- The direct call is denied. -/
  direct : (AuditReport.ofProgram (withGlobs modules directCall)
    [⟨.ofPath "std::net::TcpStream", none⟩]).verdict.rejects = true
  /-- The indirect one is not. -/
  indirect : (AuditReport.ofProgram (withGlobs modules items)
    [⟨.ofPath "std::net::TcpStream", none⟩]).verdict.rejects = false

/-- **An indirect call loses what the path of the type may mean besides**: a type that the second
of two globs offers, however the type is named indirectly. -/
theorem indirect_names_lose_readings :
    LosesReading [⟨"fs", Eq.refl true⟩, ⟨"net", Eq.refl true⟩] callByAlias ∧
      LosesReading [⟨"fs", Eq.refl true⟩, ⟨"net", Eq.refl true⟩] callByBinding ∧
      LosesReading [⟨"fs", Eq.refl true⟩, ⟨"net", Eq.refl true⟩] callBySelf ∧
      LosesReading [⟨"fs", Eq.refl true⟩, ⟨"net", Eq.refl true⟩] callByBrackets := by
  refine ⟨⟨?_, ?_⟩, ⟨?_, ?_⟩, ⟨?_, ?_⟩, ⟨?_, ?_⟩⟩
  all_goals decide +kernel

end CapabilityGate
