import CapabilityGate.Proofs.Audit.IndirectTypes

/-!
# Receivers and the scopes of their names

A method call on a local name has the type that the name was given last, in the order of the walk.
Here that is compared with the scopes of names: a parameter holds up to the end of its function, and
a name that a `let` statement binds up to the end of its block. Inside them the call is recorded
with the type of the binding, as long as nothing that is walked in between gives the name another
type. What bindings there are before the binding or behind the call is of no account.

A binding in between counts even where it holds no longer, in a block that has ended, or not yet,
in a `let` statement whose own initialiser contains the call.

## Main definitions

* `Part.Binds`: a part gives a type to a name.
* `Names.GivesOnly`: mentions that give a name no other type.
* `Names.Undisturbed`: a part that stands in another one, with no other type given on the way.

## Main results

* `undisturbed_of_within`: where nothing gives the name another type, everything is reached so.
* `site_of_scoped_receiver`: the call site of a method call in the scope of its receiver.
* `left_bindings_count`: a call that a binding out of scope is taken for, and that passes.
-/

namespace CapabilityGate

open Program Names Mentions

/-! ### Bindings and scopes -/

/-- The parts of a construct in which names that are bound **hold up to the end**: a function, with
its parameters, a member, a closure or a block. -/
def Program.Part.scope? : Part → Option (List Part)
  | .item (.declaration _ _ parts) => some parts
  | .item (.other parts) => some parts
  | .expr (.compound _ parts) => some parts
  | _ => none

/-- A part **gives a type to a name**: it is a parameter with a type, a `let` statement with a type,
or one that starts with a call of a constructor. -/
inductive Program.Part.Binds (n : Names) (place : Place) (x : String) : Part → TypeName → Prop
  /-- A parameter. -/
  | parameter {attributes parts : List Part} {word : Word} {type : Ty} (hname : word.text = x) :
      Binds n place x (.pattern (.typed attributes (.bind word parts) type))
        (n.typeMeaning place.module (n.ownerAt place) type)
  /-- A `let` statement with a type. -/
  | written {attributes more parts : List Part} {word : Word} {type : Ty} {values : List Expr}
      (hname : word.text = x) :
      Binds n place x (.binding attributes (.typed more (.bind word parts) type) values)
        (n.typeMeaning place.module (n.ownerAt place) type)
  /-- A `let` statement without a type that starts with a constructor. -/
  | constructed {attributes parts : List Part} {word : Word} {value : Expr} {others : List Expr}
      {t : TypeName} (hname : word.text = x) (hvalue : n.constructed place value = some t) :
      Binds n place x (.binding attributes (.bind word parts) (value :: others)) t

namespace Names

/-- None of the mentions gives a name **another type** than one. -/
def GivesOnly (n : Names) (x : String) (t : TypeName) (ms : List (Place × Mention)) : Prop :=
  ∀ m ∈ ms, ∀ u, n.given? m = some (x, u) → u = t

/-- A part stands within another one, and **nothing that is walked before it there** gives a name
another type. -/
inductive Undisturbed (n : Names) (x : String) (t : TypeName) :
    (place : Place) → (part : Part) → (at_ : Place) → (inner : Part) → Prop
  /-- It is that other part itself. -/
  | here {place : Place} {part : Part} : Undisturbed n x t place part place part
  /-- It stands within something that stands directly in the other part, and neither this itself
  nor what stands before in it gives the name another type. -/
  | inside {place between at_ : Place} {part child inner : Part}
      {before behind : List (Place × Part)}
      (hchildren : part.children place = before ++ (between, child) :: behind)
      (hown : n.GivesOnly x t (part.own place)) (hbefore : n.GivesOnly x t (walkedIn before))
      (h : Undisturbed n x t between child at_ inner) : Undisturbed n x t place part at_ inner

variable {n : Names} {x : String} {t : TypeName} {ms more : List (Place × Mention)}

/-- What gives a name one type only does so **in fewer mentions** too. -/
theorem GivesOnly.mono (h : n.GivesOnly x t more) (hsub : ms ⊆ more) : n.GivesOnly x t ms :=
  fun m hm => h m (hsub hm)

/-- It does so in mentions **behind others**. -/
theorem GivesOnly.append (h : n.GivesOnly x t ms) (hmore : n.GivesOnly x t more) :
    n.GivesOnly x t (ms ++ more) := by
  intro m hm
  rcases List.mem_append.mp hm with hm | hm
  · exact h m hm
  · exact hmore m hm

/-- What gives a type to a name in an expression does so **called or not**. -/
theorem mem_inExpr_of_given {place : Place} {m : Place × Mention} (called other : Bool)
    (hgiven : n.given? m ≠ none) : ∀ {e : Expr}, m ∈ inExpr place called e →
      m ∈ inExpr place other e
  | .path at_ path, h => by
    rw [inExpr, List.mem_singleton] at h
    subst h
    exact absurd rfl hgiven
  | .qualified at_ owner position path, h => by
    rw [inExpr, List.mem_singleton] at h
    subst h
    exact absurd rfl hgiven
  | .attributed attributes inner, h => by
    rw [inExpr] at h ⊢
    split at h
    next hhidden =>
      rw [if_pos hhidden]
      exact mem_inExpr_of_given called other hgiven h
    next hshown =>
      rw [if_neg hshown]
      rcases List.mem_append.mp h with hattribute | hinner
      · exact List.mem_append_left _ hattribute
      · exact List.mem_append_right _ (mem_inExpr_of_given called other hgiven hinner)
  | .call .., h => by rwa [inExpr] at h ⊢
  | .method .., h => by rwa [inExpr] at h ⊢
  | .paren _, h => by rwa [inExpr] at h ⊢
  | .reference _, h => by rwa [inExpr] at h ⊢
  | .tried _, h => by rwa [inExpr] at h ⊢
  | .construct .., h => by rwa [inExpr] at h ⊢
  | .invoke _, h => by rwa [inExpr] at h ⊢
  | .compound .., h => by rwa [inExpr] at h ⊢

/-- A part that gives a name no other type gives it none **when it is called**, or is not. -/
theorem GivesOnly.called {place : Place} {part : Part} {called : Bool}
    (h : n.GivesOnly x t (inPartAs place called part)) (other : Bool) :
    n.GivesOnly x t (inPartAs place other part) := by
  cases part with
  | expr e =>
      intro m hm u hu
      exact h m (mem_inExpr_of_given other called (hu ▸ Option.some_ne_none _) hm) u hu
  | _ => exact h

/-- It does so **whether the first child is called or not**. -/
theorem GivesOnly.walkedAs {children : List (Place × Part)} {first : Bool}
    (h : n.GivesOnly x t (walkedAs first children)) (other : Bool) :
    n.GivesOnly x t (walkedAs other children) := by
  cases children with
  | nil => exact h
  | cons c rest =>
      have hhead : n.GivesOnly x t (inPartAs c.1 first c.2) :=
        h.mono (List.subset_append_left _ _)
      exact (hhead.called other).append (h.mono (List.subset_append_right _ _))

/-- What is mentioned in a part that is reached undisturbed stands in a row, behind mentions that
**give the name no other type**. -/
theorem Undisturbed.split {place at_ : Place} {part inner : Part}
    (h : n.Undisturbed x t place part at_ inner) (called : Bool) :
    ∃ passed c after, inPartAs place called part = passed ++ inPartAs at_ c inner ++ after ∧
      n.GivesOnly x t passed := by
  induction h generalizing called with
  | here => exact ⟨[], called, [], by simp, fun _ hm => absurd hm List.not_mem_nil⟩
  | @inside place between at_ part child inner before behind hchildren hown hbefore h ih =>
      obtain ⟨passed, c, after, hinner, hquiet⟩ := ih (before.isEmpty && part.calls called)
      rw [← walkedAs_false] at hbefore
      refine ⟨part.own place ++ Program.walkedAs (part.calls called) before ++ passed, c,
        after ++ walkedIn behind, ?_, (hown.append (hbefore.walkedAs _)).append hquiet⟩
      rw [inPartAs_split hchildren, hinner]
      simp only [List.append_assoc]

/-- A part that gives a name no other type **disturbs nothing** that stands within it. -/
theorem undisturbed_of_within {place at_ : Place} {part inner : Part}
    (h : Within place part at_ inner) (honly : n.GivesOnly x t (inPart place part)) :
    n.Undisturbed x t place part at_ inner := by
  induction h with
  | here => exact .here
  | @inside place between at_ part child inner hchild h ih =>
      obtain ⟨before, behind, hchildren⟩ := List.append_of_mem hchild
      rw [← inPartAs_false, inPartAs_split hchildren] at honly
      have hfront := honly.mono (List.subset_append_left _ _)
      have hway := hfront.mono (List.subset_append_left _ _)
      have hchild := (hfront.mono (List.subset_append_right _ _)).called false
      have hbefore := (hway.mono (List.subset_append_right _ _)).walkedAs false
      rw [inPartAs_false] at hchild
      rw [walkedAs_false] at hbefore
      exact .inside hchildren (hway.mono (List.subset_append_left _ _)) hbefore (ih hchild)

/-- Of bindings that give a name one type only, **this type** is looked up. -/
theorem lookup_of_givesOnly (honly : n.GivesOnly x t ms) {m : Place × Mention} (hm : m ∈ ms)
    (hgiven : n.given? m = some (x, t)) (before : List (Place × Mention)) :
    (n.bindingsFrom (ms.reverse ++ before)).lookup x = some t := by
  have hmem : ∀ u, (x, u) ∈ ms.reverse.filterMap n.given? → u = t := by
    intro u hu
    obtain ⟨m, hm, hgiven⟩ := List.mem_filterMap.mp hu
    exact honly m (List.mem_reverse.mp hm) u hgiven
  have hbound : (x, t) ∈ ms.reverse.filterMap n.given? :=
    List.mem_filterMap.mpr ⟨m, List.mem_reverse.mpr hm, hgiven⟩
  rw [bindingsFrom, List.filterMap_append, List.lookup_append]
  cases hlookup : (ms.reverse.filterMap n.given?).lookup x with
  | none =>
      have hnone := List.lookup_eq_none_iff.mp hlookup (x, t) hbound
      simp at hnone
  | some u =>
      obtain ⟨front, rest, hsplit, -⟩ := List.lookup_eq_some_iff.mp hlookup
      rw [hmem u (by simp [hsplit])]
      rfl

/-- The call sites of mentions behind others are met with **what those bind**. -/
theorem sitesOfAll_append (n : Names) (before ms more : List (Place × Mention)) :
    n.sitesOfAll (n.bindingsFrom before) (ms ++ more) =
      n.sitesOfAll (n.bindingsFrom before) ms ++
        n.sitesOfAll (n.bindingsFrom (ms.reverse ++ before)) more := by
  induction ms generalizing before with
  | nil => rfl
  | cons m rest ih =>
      rw [List.cons_append, sitesOfAll, sitesOfAll, bindingsAfter_eq, ih, List.append_assoc,
        List.reverse_cons, List.append_assoc]
      rfl

end Names

/-! ### Calls in the scope of a binding -/

variable {p : SourceFile} {place at_ : Place}

/-- What gives a type to a name **is mentioned**. -/
theorem exists_given_of_binds {n : Names} {x : String} {part : Part} {t : TypeName}
    (h : part.Binds n place x t) : ∃ m ∈ inPart place part, n.given? m = some (x, t) := by
  cases h with
  | @parameter attributes parts word type hname =>
      subst hname
      refine ⟨(place, .typed word.text type), ?_, rfl⟩
      simp [inPart, inPattern, ofTyped, binder?]
  | @written attributes more parts word type values hname =>
      subst hname
      refine ⟨(place, .typed word.text type), ?_, rfl⟩
      simp [inPart, inPattern, ofTyped, ofBinding, binder?]
  | @constructed attributes parts word value others t hname hvalue =>
      subst hname
      refine ⟨(place, .bound word.text value), ?_, by simp [given?, hvalue]⟩
      simp [inPart, ofBinding, binder?]

/-- A part that is a scope mentions what its parts do, **called or not**. -/
theorem inPartAs_of_scope? {part : Part} {parts : List Part} (h : part.scope? = some parts)
    (called : Bool) : inPartAs place called part = inParts place parts := by
  cases part with
  | item item =>
      cases item with
      | declaration kind name inner =>
          obtain rfl := Option.some.inj h
          rfl
      | other inner =>
          obtain rfl := Option.some.inj h
          rfl
      | _ => exact absurd h (Option.some_ne_none _).symm
  | expr e =>
      cases e with
      | compound form inner =>
          obtain rfl := Option.some.inj h
          rfl
      | _ => exact absurd h (Option.some_ne_none _).symm
  | _ => exact absurd h (Option.some_ne_none _).symm

/-- **A method call in the scope of a binding of its receiver is recorded with the type of the
binding**: a parameter or a `let` statement in front of what the call stands in, in the same
function, member, closure or block, gives the name the type, and nothing that is walked from there
to the call gives it another one. -/
theorem site_of_scoped_receiver {outer binder part : Part} {before between behind : List Part}
    {x : String} {t : TypeName} {receiver : Expr} {name : Word} {position : Position}
    {turbofish : List Part} {args : List Expr} (houter : p.Holds place outer)
    (hscope : outer.scope? = some (before ++ binder :: (between ++ part :: behind)))
    (hbinds : binder.Binds (ofProgram p) place x t)
    (hkept : (ofProgram p).GivesOnly x t (inParts place (binder :: between)))
    (hcall : (ofProgram p).Undisturbed x t place part at_
      (.expr (.method receiver name position turbofish args)))
    (hreceiver : receiver.localName? = some x) :
    ⟨t, name.text, .method, position.line, position.column⟩ ∈ (Model.ofProgram p).sites := by
  obtain ⟨c, earlier, later, hrow⟩ := infix_mentions_of_holds houter
  obtain ⟨passed, d, after, hpassed, hquiet⟩ := hcall.split false
  rw [inPartAs_false] at hpassed
  have hmention : inPartAs at_ d (.expr (.method receiver name position turbofish args)) =
      (at_, .method receiver name.text position) ::
        (inExpr at_ false receiver ++ inExprs at_ args) := rfl
  -- from the binding to the call nothing gives the name another type
  have hway : ∃ rest, p.mentions =
      (earlier ++ inParts place before) ++ (inParts place (binder :: between) ++ passed) ++
        (at_, .method receiver name.text position) :: rest := by
    refine ⟨inExpr at_ false receiver ++ inExprs at_ args ++ after ++ inParts place behind ++ later,
      ?_⟩
    rw [← hrow, inPartAs_of_scope? hscope, inParts_append, ← List.cons_append, inParts_append,
      inParts, inParts, hpassed, hmention]
    simp only [List.append_assoc, List.cons_append]
  obtain ⟨rest, hmentions⟩ := hway
  obtain ⟨giver, hgiver, hgiven⟩ := exists_given_of_binds hbinds
  have hbound : giver ∈ inParts place (binder :: between) ++ passed :=
    List.mem_append_left _ (mem_inParts.mpr ⟨binder, List.mem_cons_self .., hgiver⟩)
  have hlookup := lookup_of_givesOnly (hkept.append hquiet) hbound hgiven
    (earlier ++ inParts place before).reverse
  have hsites : (Model.ofProgram p).sites =
      (ofProgram p).sitesOfAll ((ofProgram p).bindingsFrom []) p.mentions := rfl
  rw [hsites, hmentions, sitesOfAll_append, List.append_nil, List.reverse_append]
  refine List.mem_append_right _ ?_
  rw [sitesOfAll]
  refine List.mem_append_left _ ?_
  rw [sitesOf, receiverType_of_localName _ _ _ hreceiver, hlookup]
  exact List.mem_singleton_self _

/-! ### Programs with a name that is bound twice -/

/-- The name `x` as an expression. -/
def nameX : Expr :=
  .path .start (pathOf [⟨"x", Eq.refl true⟩])

/-- A method call on the name `x`. -/
def callOnX (method : Word) : Part :=
  .expr (.method nameX method .start [] [])

/-- A name with a type. -/
def typedAs (name : Word) (type : List Word) : Pat :=
  .typed [] (.bind name []) (.path (pathOf type))

/-- The statement that binds a name with a type. -/
def letTyped (name : Word) (type : List Word) (values : List Expr) : Part :=
  .binding [] (typedAs name type) values

/-- The parameter `x` of the type `std::fs::File`. -/
def fileParameter : Part :=
  .pattern (typedAs ⟨"x", Eq.refl true⟩
    [⟨"std", Eq.refl true⟩, ⟨"fs", Eq.refl true⟩, ⟨"File", Eq.refl true⟩])

/-- The tree of `fn f(x: std::fs::File) { let y: u8; x.sync_all(); }`. -/
def callInScope : SourceFile :=
  ⟨[], [functionOf [fileParameter, letTyped ⟨"y", Eq.refl true⟩ [⟨"u8", Eq.refl true⟩] [],
    callOnX ⟨"sync_all", Eq.refl true⟩]]⟩

/-- The call in `callInScope` is recorded with the type of the parameter. -/
theorem call_in_scope_recorded :
    ⟨.mk "std::fs::File" [], "sync_all", .method, 1, 1⟩ ∈ (Model.ofProgram callInScope).sites := by
  have hmeaning : (ofProgram callInScope).typeMeaning [] none (.path (pathOf
      [⟨"std", Eq.refl true⟩, ⟨"fs", Eq.refl true⟩, ⟨"File", Eq.refl true⟩])) =
        .mk "std::fs::File" [] := by
    decide +kernel
  have hkept : (ofProgram callInScope).GivesOnly "x" (.mk "std::fs::File" [])
      (inParts ⟨[], none⟩
        [fileParameter, letTyped ⟨"y", Eq.refl true⟩ [⟨"u8", Eq.refl true⟩] []]) := by
    intro m hm u hu
    have hmet : inParts ⟨[], none⟩
        [fileParameter, letTyped ⟨"y", Eq.refl true⟩ [⟨"u8", Eq.refl true⟩] []] =
          [(⟨[], none⟩, .typed "x" (.path (pathOf
              [⟨"std", Eq.refl true⟩, ⟨"fs", Eq.refl true⟩, ⟨"File", Eq.refl true⟩]))),
            (⟨[], none⟩, .typed "y" (.path (pathOf [⟨"u8", Eq.refl true⟩])))] := rfl
    rw [hmet, List.mem_cons, List.mem_singleton] at hm
    rcases hm with rfl | rfl
    · exact (Prod.mk.inj (Option.some.inj hu)).2.symm.trans hmeaning
    · exact absurd (Prod.mk.inj (Option.some.inj hu)).1 (by decide)
  rw [← hmeaning] at hkept ⊢
  have hfunction : callInScope.Holds ⟨[], none⟩ (.item (functionOf ([] ++ fileParameter ::
      ([letTyped ⟨"y", Eq.refl true⟩ [⟨"u8", Eq.refl true⟩] []] ++
        callOnX ⟨"sync_all", Eq.refl true⟩ :: [])))) :=
    ⟨_, List.mem_singleton_self _, .here⟩
  exact site_of_scoped_receiver hfunction rfl (.parameter rfl) hkept .here rfl

/-- The tree of `fn f(x: std::fs::File) { { let x: u8; } x.sync_all(); }`. -/
def leftBinding : SourceFile :=
  ⟨[], [functionOf [fileParameter, .expr (.compound .block
      [letTyped ⟨"x", Eq.refl true⟩ [⟨"u8", Eq.refl true⟩] []]),
    callOnX ⟨"sync_all", Eq.refl true⟩]]⟩

/-- The tree of `fn f(x: std::fs::File) { let x: u64 = x.len(); }`. -/
def rebinding : SourceFile :=
  ⟨[], [functionOf [fileParameter, letTyped ⟨"x", Eq.refl true⟩ [⟨"u64", Eq.refl true⟩]
    [.method nameX ⟨"len", Eq.refl true⟩ .start [] []]]]⟩

/-- **A binding counts where it does not hold**: the calls in `leftBinding` and in `rebinding` are
on a parameter of the type `std::fs::File`, and are recorded with the type of a name in a block that
has ended, and of the name that the call gives its value. Both programs pass where the type is
denied. -/
theorem left_bindings_count :
    (leftBinding.Holds ⟨[], none⟩ (callOnX ⟨"sync_all", Eq.refl true⟩) ∧
      (Model.ofProgram leftBinding).sites = [⟨.mk "u8" [], "sync_all", .method, 1, 1⟩] ∧
      ((Model.ofProgram leftBinding).verdict [⟨.ofPath "std::fs::File", none⟩]).rejects = false) ∧
    (Model.ofProgram rebinding).sites = [⟨.mk "u64" [], "len", .method, 1, 1⟩] ∧
      ((Model.ofProgram rebinding).verdict [⟨.ofPath "std::fs::File", none⟩]).rejects =
        false := by
  refine ⟨⟨⟨_, List.mem_singleton_self _, .inside (List.mem_of_getElem? (i := 2) rfl) .here⟩,
    ?_, ?_⟩, ?_, ?_⟩
  all_goals decide +kernel

end CapabilityGate
