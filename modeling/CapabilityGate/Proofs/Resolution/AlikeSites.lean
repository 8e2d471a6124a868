import CapabilityGate.Proofs.Resolution.AlikeNames

/-!
# Call sites of rearranged programs

A mention makes the same call sites wherever it is walked, with one exception: a method call on a
local name has the type that this name was given last. Everything that gives a type to a name
counts, in whatever function it stands, so here the order of the walk shows.

## Main definitions

* `CallSite.Alike`: call sites that differ in nothing but their places.
* `Names.giver?`: the last mention that gave a name its type.
* `LocalCall`, `Names.localCalls`: the method calls on local names, each with that mention.

## Main results

* `Names.mem_sitesOfAll_iff`: the call sites of a program are those of its local calls and of its
  other mentions, each by itself.
* `Names.Alike.sitesOfAll_matched`: alike names find alike call sites in rearranged programs, if
  the local calls are alike.
-/

namespace CapabilityGate

open Program

/-- Two call sites are **alike** when they differ in nothing but their places. -/
structure CallSite.Alike (s t : CallSite) : Prop where
  /-- They name an item of the same container. -/
  container : s.container = t.container
  /-- They name the same item. -/
  method : s.method = t.method
  /-- They name it in the same way. -/
  kind : s.kind = t.kind

/-! ### Local names -/

/-- The local name that an expression is, behind brackets and references. -/
def Program.Expr.localName? : Expr → Option String
  | .path _ p => p.ident?.filter (· != "self")
  | .paren inner => inner.localName?
  | .reference inner => inner.localName?
  | .attributed _ inner => inner.localName?
  | _ => none

/-- The local name that a method is called on, if a mention is such a call. -/
def Program.Mention.localName? : Mention → Option String
  | .method receiver _ _ => receiver.localName?
  | _ => none

/-- A **method call on a local name**, with the mention that gave this name its type, if one
did. -/
structure LocalCall where
  /-- The call. -/
  call : Place × Mention
  /-- What gave the name its type. -/
  giver : Option (Place × Mention)

namespace Names

/-- The name that a mention gives a type to, with this type. -/
def given? (n : Names) : Place × Mention → Option (String × TypeName)
  | (place, .typed name type) => some (name, n.typeMeaning place.module (n.ownerAt place) type)
  | (place, .bound name value) => (n.constructed place value).map fun t => (name, t)
  | _ => none

/-- Of mentions, the latest first, the **last that gave a name its type**. -/
def giver? (n : Names) (name : String) (before : List (Place × Mention)) :
    Option (Place × Mention) :=
  before.find? fun m => (n.given? m).any (·.1 == name)

/-- The method calls on local names among mentions that follow others, which are listed the latest
first. -/
def localCalls (n : Names) : (before : List (Place × Mention)) → List (Place × Mention) →
    List LocalCall
  | _, [] => []
  | before, m :: rest =>
    (m.2.localName?.map fun name => LocalCall.mk m (n.giver? name before)).toList ++
      n.localCalls (m :: before) rest

/-- The bindings that mentions leave, which are listed the latest first. -/
def bindingsFrom (n : Names) (before : List (Place × Mention)) : Bindings :=
  before.filterMap n.given?

/-- The call sites of a method call on a local name. -/
def sitesOfCall (n : Names) (c : LocalCall) : List CallSite :=
  n.sitesOf (n.bindingsFrom c.giver.toList) c.call.1 c.call.2

end Names

/-! ### Rearranged expressions -/

/-- Rearranged expressions are the same local name, if they are one. -/
theorem Program.Expr.Rearranged.localName?_eq : ∀ {e f : Expr}, e.Rearranged f →
    e.localName? = f.localName?
  | _, _, .path hpath => by
    rw [Expr.localName?, Expr.localName?, hpath.ident?_eq]
  | _, _, .paren h => by
    rw [Expr.localName?, Expr.localName?, h.localName?_eq]
  | _, _, .reference h => by
    rw [Expr.localName?, Expr.localName?, h.localName?_eq]
  | _, _, .attributed _ h => by
    rw [Expr.localName?, Expr.localName?, h.localName?_eq]
  | _, _, .qualified .. => rfl
  | _, _, .call .. => rfl
  | _, _, .method .. => rfl
  | _, _, .tried _ => rfl
  | _, _, .construct .. => rfl
  | _, _, .invoke _ => rfl
  | _, _, .compound _ => rfl

/-- Rearranged mentions are calls on the same local name, if they are such calls. -/
theorem Program.Mention.Rearranged.localName?_eq {a b : Mention} (h : a.Rearranged b) :
    a.localName? = b.localName? := by
  cases h with
  | method h => exact h.localName?_eq
  | _ => rfl

/-- Rearranged expressions are so **without their attributes**. -/
theorem Program.Expr.Rearranged.bare : ∀ {e f : Expr}, e.Rearranged f → e.bare.Rearranged f.bare
  | _, _, .attributed _ h => h.bare
  | _, _, .path h => .path h
  | _, _, .qualified howner h => .qualified howner h
  | _, _, .call h hargs => .call h hargs
  | _, _, .method h hturbofish hargs => .method h hturbofish hargs
  | _, _, .paren h => .paren h
  | _, _, .reference h => .reference h
  | _, _, .tried h => .tried h
  | _, _, .construct howner h hfields => .construct howner h hfields
  | _, _, .invoke h => .invoke h
  | _, _, .compound h => .compound h

namespace Names

section Alike

variable {n o : Names} (h : n.Alike o) {a b : Place} (hplace : a.Rearranged b)

include h hplace

/-- A rearranged expression constructs **the same type** by its call. -/
theorem Alike.constructedBy_eq {e f : Expr} (hef : e.Rearranged f) :
    n.constructedBy a e = o.constructedBy b f := by
  have hbare := hef.bare
  rw [constructedBy, constructedBy]
  generalize e.bare = callee at hbare
  generalize f.bare = other at hbare
  cases hbare with
  | path hpath => simp only [h.firstOf_eq hplace hpath]
  | _ => rfl

/-- So it does by any of the forms that **show their type**. -/
theorem Alike.constructed_eq : ∀ {e f : Expr}, e.Rearranged f →
    n.constructed a e = o.constructed b f
  | _, _, .tried hef => by
    rw [constructed, constructed]
    exact constructed_eq hef
  | _, _, .paren hef => by
    rw [constructed, constructed]
    exact constructed_eq hef
  | _, _, .attributed _ hef => by
    rw [constructed, constructed]
    exact constructed_eq hef
  | _, _, .method hef _ _ => by
    rw [constructed, constructed, constructed_eq hef]
  | _, _, .call hef _ => by
    rw [constructed, constructed]
    exact h.constructedBy_eq hplace hef
  | _, _, .construct _ hpath _ => by
    rw [constructed, constructed, h.firstOf_eq hplace hpath]
  | _, _, .path _ => rfl
  | _, _, .qualified .. => rfl
  | _, _, .reference _ => rfl
  | _, _, .invoke _ => rfl
  | _, _, .compound _ => rfl


/-- Rearranged receivers have **the same type** if they are no local names, or are local names with
the same type. -/
theorem Alike.receiverType_eq {bs cs : Bindings} : ∀ {e f : Expr}, e.Rearranged f →
    (∀ name, e.localName? = some name → bs.lookup name = cs.lookup name) →
      n.receiverType a bs e = o.receiverType b cs f
  | _, _, @Expr.Rearranged.path _ _ p _ hpath, hlocal => by
    rw [receiverType, receiverType, ← hpath.ident?_eq]
    rw [Expr.localName?] at hlocal
    cases hident : p.ident? with
    | none => rfl
    | some name =>
        by_cases hself : name = "self"
        · simpa [hself] using h.ownerAt_eq hplace
        · have hname := hlocal name (by simp [hident, Option.filter, hself])
          simpa [hself] using hname
  | _, _, .paren hef, hlocal => by
    rw [receiverType, receiverType]
    exact receiverType_eq hef hlocal
  | _, _, .reference hef, hlocal => by
    rw [receiverType, receiverType]
    exact receiverType_eq hef hlocal
  | _, _, .attributed _ hef, hlocal => by
    rw [receiverType, receiverType]
    exact receiverType_eq hef hlocal
  | _, _, .qualified .., _ => rfl
  | _, _, .call .., _ => rfl
  | _, _, .method .., _ => rfl
  | _, _, .tried _, _ => rfl
  | _, _, .construct .., _ => rfl
  | _, _, .invoke _, _ => rfl
  | _, _, .compound _, _ => rfl

end Alike

end Names

/-! ### The walk, mention by mention -/

namespace Names

variable {n : Names} {place : Place} {bindings : Bindings}

/-- A mention leaves the bindings before it, and the one that it gives. -/
theorem bindingsAfter_eq (n : Names) (before : List (Place × Mention)) (m : Place × Mention) :
    n.bindingsAfter (n.bindingsFrom before) m.1 m.2 = n.bindingsFrom (m :: before) := by
  obtain ⟨place, m⟩ := m
  rw [bindingsFrom, bindingsFrom, List.filterMap_cons]
  cases m with
  | bound name value =>
      rw [bindingsAfter, given?]
      cases n.constructed place value <;> rfl
  | _ => rfl

/-- The type of a name is what **the last mention that gave it one** gave it. -/
theorem lookup_bindingsFrom (n : Names) (name : String) (before : List (Place × Mention)) :
    (n.bindingsFrom before).lookup name =
      (n.bindingsFrom (n.giver? name before).toList).lookup name := by
  induction before with
  | nil => rfl
  | cons m rest ih =>
      rw [bindingsFrom, giver?, List.filterMap_cons, List.find?_cons]
      cases hgiven : n.given? m with
      | none =>
          rw [Option.any_none]
          exact ih
      | some given =>
          obtain ⟨x, t⟩ := given
          rw [Option.any_some]
          by_cases hx : x = name
          · subst hx
            simp [bindingsFrom, hgiven]
          · have hne : (x == name) = false := by simpa using hx
            have hne' : (name == x) = false := by simpa using Ne.symm hx
            rw [hne]
            simp only [List.lookup_cons, hne']
            exact ih

/-- Bindings under which a local name has the same type give a call on it **the same call
sites**. -/
theorem sitesOf_of_lookup {m : Mention} {other : Bindings}
    (h : ∀ name, m.localName? = some name → bindings.lookup name = other.lookup name) :
    n.sitesOf bindings place m = n.sitesOf other place m := by
  cases m with
  | method receiver name p =>
      rw [sitesOf, sitesOf, (Alike.refl n).receiverType_eq (Place.Rearranged.refl place)
        (Expr.Rearranged.refl receiver) h]
  | _ => rfl

/-- A call site is met **at a method call on a local name**, with the type that was given to the
name last, or at another mention, by itself. -/
theorem mem_sitesOfAll_iff {site : CallSite} (before ms : List (Place × Mention)) :
    site ∈ n.sitesOfAll (n.bindingsFrom before) ms ↔
      site ∈ (ms.filter (·.2.localName?.isNone)).flatMap (fun m => n.sitesOf [] m.1 m.2) ++
        (n.localCalls before ms).flatMap n.sitesOfCall := by
  -- the induction is on the mentions still to come, over any that were walked before
  induction ms generalizing before with
  | nil => simp [sitesOfAll, localCalls]
  | cons m rest ih =>
      rw [sitesOfAll, List.mem_append, bindingsAfter_eq, ih (m :: before), localCalls]
      cases hlocal : m.2.localName? with
      | none =>
          have hsites : n.sitesOf (n.bindingsFrom before) m.1 m.2 = n.sitesOf [] m.1 m.2 :=
            sitesOf_of_lookup fun name hname => by simp [hlocal] at hname
          simp [hsites, hlocal]
      | some name =>
          have hsites : n.sitesOf (n.bindingsFrom before) m.1 m.2 =
              n.sitesOfCall ⟨m, n.giver? name before⟩ := by
            refine sitesOf_of_lookup fun x hx => ?_
            obtain rfl : name = x := Option.some.inj (hlocal.symm.trans hx)
            exact lookup_bindingsFrom n name before
          simp [hsites, hlocal, or_left_comm]

end Names

/-! ### Alike call sites -/

/-- Two method calls on local names are **alike** when they are rearrangements of each other, and
so are the mentions that gave the names their types. -/
structure LocalCall.Alike (c d : LocalCall) : Prop where
  /-- The calls are rearrangements. -/
  call : MentionedAlike c.call d.call
  /-- What gave the names their types are rearrangements. -/
  giver : Option.Rel MentionedAlike c.giver d.giver

namespace Names

section Alike

variable {n o : Names}

/-- The same candidates make alike call sites, wherever they are written. -/
theorem siteOf_matched (kind : CallKind) (at_ other : Position) (candidates : List Route) :
    Matched CallSite.Alike (candidates.filterMap (siteOf kind at_))
      (candidates.filterMap (siteOf kind other)) := by
  induction candidates with
  | nil => exact .nil
  | cons candidate rest ih =>
      rw [List.filterMap_cons, List.filterMap_cons]
      unfold siteOf
      cases candidate.split? with
      | none => exact ih
      | some member => exact ih.cons ⟨rfl, rfl, rfl⟩

variable (h : n.Alike o)

include h

/-- Mentions that are alike give **the same type to the same name**. -/
theorem Alike.given?_eq {a b : Place × Mention} (hab : MentionedAlike a b) :
    n.given? a = o.given? b := by
  obtain ⟨place, m⟩ := a
  obtain ⟨place', m'⟩ := b
  obtain ⟨hplace, hm⟩ := hab
  cases hm with
  | typed htype => rw [given?, given?, h.typeMeaningAt_eq hplace htype]
  | bound hvalue => rw [given?, given?, h.constructed_eq hplace hvalue]
  | _ => rfl

/-- Alike mentions that gave a name its type leave **the same bindings**. -/
theorem Alike.bindingsFrom_eq {a b : Option (Place × Mention)}
    (hab : Option.Rel MentionedAlike a b) :
    n.bindingsFrom a.toList = o.bindingsFrom b.toList := by
  cases hab with
  | none => rw [bindingsFrom, bindingsFrom, Option.toList_none, List.filterMap_nil,
      List.filterMap_nil]
  | some hab =>
      simp only [bindingsFrom, Option.toList_some, List.filterMap_cons, h.given?_eq hab,
        List.filterMap_nil]

section

variable {a b : Place} (hplace : a.Rearranged b)

include hplace

/-- A route makes **matching call sites** at places that correspond. -/
theorem Alike.sitesOfPath_matched (kind : CallKind) (at_ other : Position) (route : Route) :
    Matched CallSite.Alike (n.sitesOfPath a kind at_ route) (o.sitesOfPath b kind other route) := by
  simp only [sitesOfPath, hplace.module_eq, h.knows_eq, h.candidatesAt_eq hplace]
  exact (siteOf_matched kind at_ other _).ite_nil _

/-- So does a path behind a qualified type. -/
theorem Alike.sitesOfQualified_matched (kind : CallKind) (at_ other : Position) {s t : Ty}
    (howner : s.Rearranged t) (position : Nat) {p q : Path} (hpath : p.Rearranged q) :
    Matched CallSite.Alike (n.sitesOfQualified a kind at_ s position p)
      (o.sitesOfQualified b kind other t position q) := by
  have hlast := hpath.getLast?_name_eq
  rw [sitesOfQualified, sitesOfQualified]
  cases hp : p.segments.getLast? with
  | none =>
      cases hq : q.segments.getLast? with
      | none => exact .nil
      | some last => simp [hp, hq] at hlast
  | some first =>
      cases hq : q.segments.getLast? with
      | none => simp [hp, hq] at hlast
      | some last =>
          have hname : first.name = last.name := by simpa [hp, hq] using hlast
          simp only [h.candidatesAt_eq hplace, h.routeAt_eq hplace hpath,
            h.typeMeaningAt_eq hplace howner, hname]
          exact (Matched.of_map _ fun route => ⟨rfl, rfl, rfl⟩).append (.singleton ⟨rfl, rfl, rfl⟩)

/-- Tokens that read alike make alike call sites. -/
theorem Alike.sitesOfTokens_matched {ts us : List Token} (htokens : TokensReadAlike ts us) :
    Matched CallSite.Alike
      ((tokenPaths ts).flatMap fun (names, p) => n.sitesOfPath a .macroBody p (.ofNames names))
      ((tokenPaths us).flatMap fun (names, p) =>
        o.sitesOfPath b .macroBody p (.ofNames names)) := by
  have hpaths := htokens.tokenPaths
  generalize tokenPaths ts = found at hpaths
  generalize tokenPaths us = others at hpaths
  induction found generalizing others with
  | nil =>
      obtain rfl := List.map_eq_nil_iff.mp hpaths.symm
      exact .nil
  | cons first rest ih =>
      cases others with
      | nil => simp at hpaths
      | cons other more =>
          obtain ⟨hfirst, hrest⟩ := List.cons.inj hpaths
          rw [List.flatMap_cons, List.flatMap_cons]
          refine Matched.append ?_ (ih more hrest)
          simp only [hfirst]
          exact h.sitesOfPath_matched hplace _ _ _ _

end

/-- Mentions that are alike make **alike call sites**, if a local name that a method is called on
has the same type. -/
theorem Alike.sitesOf_matched {a b : Place × Mention} (hab : MentionedAlike a b)
    {bs cs : Bindings}
    (hlocal : ∀ name, a.2.localName? = some name → bs.lookup name = cs.lookup name) :
    Matched CallSite.Alike (n.sitesOf bs a.1 a.2) (o.sitesOf cs b.1 b.2) := by
  obtain ⟨place, m⟩ := a
  obtain ⟨place', m'⟩ := b
  obtain ⟨hplace, hm⟩ := hab
  cases hm with
  | path hpath =>
      rw [sitesOf, sitesOf, h.routeAt_eq hplace hpath]
      exact h.sitesOfPath_matched hplace _ _ _ _
  | qualified howner hpath =>
      rw [sitesOf, sitesOf]
      exact h.sitesOfQualified_matched hplace _ _ _ howner _ hpath
  | method hreceiver =>
      rw [sitesOf, sitesOf, h.receiverType_eq hplace hreceiver hlocal]
      split
      · exact .singleton ⟨rfl, rfl, rfl⟩
      · exact .nil
  | tokens htokens =>
      rw [sitesOf, sitesOf]
      exact h.sitesOfTokens_matched hplace htokens
  | typed htype =>
      rw [sitesOf, sitesOf]
      exact .nil
  | bound hvalue =>
      rw [sitesOf, sitesOf]
      exact .nil

/-- Method calls on local names that are alike make alike call sites. -/
theorem Alike.sitesOfCall_matched {c d : LocalCall} (hcd : c.Alike d) :
    Matched CallSite.Alike (n.sitesOfCall c) (o.sitesOfCall d) := by
  rw [sitesOfCall, sitesOfCall, h.bindingsFrom_eq hcd.giver]
  exact h.sitesOf_matched hcd.call fun _ _ => rfl

/-- Alike names find **alike call sites** in mentions that match, if the method calls on local names
do so with what gave the names their types. -/
theorem Alike.sitesOfAll_matched {ms ns : List (Place × Mention)}
    (hmentions : Matched MentionedAlike ms ns)
    (hcalls : Matched LocalCall.Alike (n.localCalls [] ms) (o.localCalls [] ns)) :
    Matched CallSite.Alike (n.sitesOfAll [] ms) (o.sitesOfAll [] ns) := by
  have hothers : Matched CallSite.Alike
      ((ms.filter (·.2.localName?.isNone)).flatMap fun m => n.sitesOf [] m.1 m.2)
      ((ns.filter (·.2.localName?.isNone)).flatMap fun m => o.sitesOf [] m.1 m.2) :=
    (comparesLists_matched.filter hmentions fun a b hab =>
      congrArg Option.isNone hab.mention.localName?_eq).flatMap
      fun a _ b hab => h.sitesOf_matched hab fun _ _ => rfl
  have hlocals : Matched CallSite.Alike ((n.localCalls [] ms).flatMap n.sitesOfCall)
      ((o.localCalls [] ns).flatMap o.sitesOfCall) :=
    hcalls.flatMap fun c _ d hcd => h.sitesOfCall_matched hcd
  exact (hothers.append hlocals).of_mem_iff (fun _ => (mem_sitesOfAll_iff [] ms).symm)
    fun _ => (mem_sitesOfAll_iff [] ns).symm

end Alike

end Names

end CapabilityGate
