import CapabilityGate.Proofs.Program.WrappedWalk
import CapabilityGate.Proofs.Resolution.AlikeSites

/-!
# Call sites of wrapped programs

A program with carefully wrapped expressions declares the same names as before. Its types and paths
mean the same, its `let` statements give the same types to the same names, and so each of its
mentions makes the same call sites as before, but for their places.

## Main results

* `SourceFile.Wrapped.names_eq`: carefully wrapped programs have the same names.
* `SourceFile.Wrapped.sites`: they have the same call sites in the same order, but for their
  places.
-/

namespace CapabilityGate

open Program Names

open List (Forall₂ rel_append)

/-! ### What types and paths mean -/

section Meaning

variable (n : Names) (module : List String) (owner : Option TypeName)

/-- A part that is an expression is passed over among generic arguments. -/
theorem Program.Part.Is.argumentsOf_eq {a : Part} {e : Expr} (h : a.Is e) (rest : List Part) :
    n.argumentsOf module owner (a :: rest) = n.argumentsOf module owner rest := by
  cases h with
  | expr e => rw [argumentsOf]; exact nofun
  | invoke i => rw [argumentsOf]; exact nofun

mutual

/-- A type **means the same** with expressions in it wrapped. -/
theorem Program.Ty.Wrapped.typeMeaning_eq : ∀ {s t : Ty}, s.Wrapped true t →
    n.typeMeaning module owner s = n.typeMeaning module owner t
  | _, _, .path (.mk h) => by
    rw [typeMeaning, typeMeaning, h.stepsOf_eq]
  | _, _, .wrapped h => by
    rw [typeMeaning, typeMeaning]
    exact h.typeMeaning_eq
  | _, _, .other htext _ => by
    rw [typeMeaning, typeMeaning, htext rfl]

/-- Its segments are the same steps. -/
theorem Program.SegmentsWrapped.stepsOf_eq : ∀ {ss ts : List Segment}, SegmentsWrapped true ss ts →
    n.stepsOf module owner ss = n.stepsOf module owner ts
  | _, _, .nil => rfl
  | _, _, .cons h hrest => by
    rw [stepsOf, stepsOf, h.argumentsOf_eq, hrest.stepsOf_eq]

/-- Its arguments are the same types. -/
theorem Program.PartsWrapped.argumentsOf_eq : ∀ {as bs : List Part}, PartsWrapped true as bs →
    n.argumentsOf module owner as = n.argumentsOf module owner bs
  | _, _, .nil => rfl
  | _, _, .cons hpart hrest => by
    have hrest := hrest.argumentsOf_eq
    cases hpart with
    | type htype => rw [argumentsOf, argumentsOf, htype.typeMeaning_eq, hrest]
    | expr ha hb h => rw [ha.argumentsOf_eq, hb.argumentsOf_eq, hrest]
    | _ => exact hrest

end

end Meaning

/-! ### The names of a program -/

/-- A declaration adds the same to the names as the one with expressions wrapped, types apart. -/
theorem Program.Declaration.Wrapped.declare_eq {d e : Declaration} (h : d.Wrapped e) (n : Names) :
    n.declare d = n.declare e := by
  cases h with
  | same d => rfl
  | typeAlias h => rfl

/-- A name for a type is added with the same meaning. -/
theorem Program.Declaration.Wrapped.addAlias_eq {d e : Declaration} (h : d.Wrapped e) (n : Names) :
    n.addAlias d = n.addAlias e := by
  cases h with
  | same d => rfl
  | typeAlias h => simp only [addAlias, h.typeMeaning_eq]

/-- Carefully wrapped programs **have the same names**. -/
theorem Program.SourceFile.Wrapped.names_eq {p q : SourceFile} (h : p.Wrapped true q) :
    Names.ofProgram p = Names.ofProgram q := by
  have hdeclared : ofDeclarations p.declarations = ofDeclarations q.declarations := by
    refine List.rel_foldl (fun n _ hn d e hde => ?_) rfl h.declared
    rw [← hn]
    exact hde.declare_eq n
  refine List.rel_foldl (fun n _ hn d e hde => ?_) hdeclared h.declared
  rw [← hn]
  exact hde.addAlias_eq n

/-! ### Places and paths -/

section Places

variable (n : Names) {a b : Place} (hplace : a.Wrapped b)

include hplace

/-- A place has the same owner **in the wrapped program**. -/
theorem Program.Place.Wrapped.ownerAt_eq : n.ownerAt a = n.ownerAt b := by
  cases hplace with
  | free => rfl
  | owned howner => simp only [ownerAt, Option.map_some, howner.typeMeaning_eq]

/-- A type means the same **at places that correspond**. -/
theorem Program.Place.Wrapped.typeMeaning_eq {s t : Ty} (htype : s.Wrapped true t) :
    n.typeMeaning a.module (n.ownerAt a) s = n.typeMeaning b.module (n.ownerAt b) t := by
  rw [hplace.module_eq, hplace.ownerAt_eq]
  exact htype.typeMeaning_eq n _ _

/-- There a route has the same candidates. -/
theorem Program.Place.Wrapped.candidatesAt_eq (route : Route) :
    n.candidatesAt a route = n.candidatesAt b route := by
  rw [candidatesAt, candidatesAt, hplace.module_eq, hplace.ownerAt_eq]

/-- There a path is the same route. -/
theorem Program.Place.Wrapped.routeAt_eq {p q : Path} (hpath : p.Wrapped true q) :
    n.routeAt a p = n.routeAt b q := by
  cases hpath with
  | mk hsegments =>
      rw [routeAt, routeAt, routeOf, routeOf, hplace.module_eq, hplace.ownerAt_eq]
      exact hsegments.stepsOf_eq n _ _

/-- There a path has the same first candidate. -/
theorem Program.Place.Wrapped.firstOf_eq {p q : Path} (hpath : p.Wrapped true q) :
    n.firstOf a p = n.firstOf b q := by
  rw [firstOf, firstOf, hplace.routeAt_eq n hpath, hplace.candidatesAt_eq]

end Places

/-! ### Types of values and receivers -/

/-- An expression that does not show the type of a value is not taken to make one. -/
theorem constructed_eq_none (n : Names) (place : Place) : ∀ {e : Expr}, e.makesValue = false →
    n.constructed place e = none
  | .tried inner, h => by
    rw [constructed]
    exact constructed_eq_none n place h
  | .paren inner, h => by
    rw [constructed]
    exact constructed_eq_none n place h
  | .attributed _ inner, h => by
    rw [constructed]
    exact constructed_eq_none n place h
  | .method receiver name _ _ _, h => by
    rw [constructed]
    rw [Expr.makesValue] at h
    cases hname : (name.text == "unwrap" || name.text == "expect") with
    | false => rfl
    | true =>
        rw [hname, Bool.true_and] at h
        exact constructed_eq_none n place h
  | .call callee _, h => by
    rw [constructed, constructedBy]
    rw [Expr.makesValue] at h
    split
    next heq =>
      rw [heq] at h
      exact Bool.noConfusion h
    next => rfl
  | .construct _ _ _, h => Bool.noConfusion h
  | .path _ _, _ => rfl
  | .qualified _ _ _ _, _ => rfl
  | .reference _, _ => rfl
  | .invoke _, _ => rfl
  | .compound _ _, _ => rfl

/-- A receiver that is no lone name has no type. -/
theorem receiverType_eq_none (n : Names) (place : Place) (bindings : Bindings) :
    ∀ {e : Expr}, e.isLoneName = false → n.receiverType place bindings e = none
  | .path _ p, h => by
    have hident : p.ident? = none :=
      Option.isNone_iff_eq_none.mp (by simpa [Expr.isLoneName] using h)
    rw [receiverType, hident]
  | .paren inner, h => by
    rw [receiverType]
    exact receiverType_eq_none n place bindings h
  | .reference inner, h => by
    rw [receiverType]
    exact receiverType_eq_none n place bindings h
  | .attributed _ inner, h => by
    rw [receiverType]
    exact receiverType_eq_none n place bindings h
  | .qualified _ _ _ _, _ => rfl
  | .call _ _, _ => rfl
  | .method _ _ _ _ _, _ => rfl
  | .tried _, _ => rfl
  | .construct _ _ _, _ => rfl
  | .invoke _, _ => rfl
  | .compound _ _, _ => rfl

/-- A callee that is a path as before is **the same path** but for what is wrapped in it, and one
that is none is none. -/
theorem Program.Expr.Wrapped.bare_cases : ∀ {e f : Expr}, e.Wrapped true f → e.isPath = f.isPath →
    (∃ at_ p other q, e.bare = .path at_ p ∧ f.bare = .path other q ∧ p.Wrapped true q) ∨
      ((∀ at_ p, e.bare ≠ .path at_ p) ∧ ∀ at_ p, f.bare ≠ .path at_ p)
  | e, _, .wrap _ _, hpath => by
    refine Or.inr ⟨fun at_ p he => ?_, fun at_ p => nofun⟩
    rw [Expr.isPath, he] at hpath
    exact Bool.noConfusion hpath
  | _, _, .attributed _ _ h, hpath => h.bare_cases hpath
  | _, _, .path h, _ => Or.inl ⟨_, _, _, _, rfl, rfl, h⟩
  | _, _, .qualified _ _, _ => Or.inr ⟨nofun, nofun⟩
  | _, _, .call _ _ _, _ => Or.inr ⟨nofun, nofun⟩
  | _, _, .method _ _ _ _, _ => Or.inr ⟨nofun, nofun⟩
  | _, _, .paren _, _ => Or.inr ⟨nofun, nofun⟩
  | _, _, .reference _, _ => Or.inr ⟨nofun, nofun⟩
  | _, _, .tried _, _ => Or.inr ⟨nofun, nofun⟩
  | _, _, .construct _ _ _, _ => Or.inr ⟨nofun, nofun⟩
  | _, _, .invoke _, _ => Or.inr ⟨nofun, nofun⟩
  | _, _, .compound _, _ => Or.inr ⟨nofun, nofun⟩

/-- A callee that is no path makes no value. -/
theorem constructedBy_eq_none (n : Names) (place : Place) {e : Expr}
    (h : ∀ at_ p, e.bare ≠ .path at_ p) : n.constructedBy place e = none := by
  rw [constructedBy]
  split
  next heq => exact absurd heq (h _ _)
  next => rfl

section Values

variable (n : Names) {a b : Place} (hplace : a.Wrapped b)

include hplace

/-- A callee that is a path as before makes a value **of the same type**. -/
theorem Program.Place.Wrapped.constructedBy_eq {e f : Expr} (h : e.Wrapped true f)
    (hpath : e.isPath = f.isPath) : n.constructedBy a e = n.constructedBy b f := by
  rcases h.bare_cases hpath with ⟨_, _, _, _, he, hf, hpq⟩ | ⟨he, hf⟩
  · simp only [constructedBy, he, hf, hplace.firstOf_eq n hpq]
  · rw [constructedBy_eq_none n a he, constructedBy_eq_none n b hf]

/-- An initialiser that shows its type as before **has the same type**. -/
theorem Program.Place.Wrapped.constructed_eq {e f : Expr} (h : e.Wrapped true f)
    (hvalue : e.makesValue = f.makesValue) : n.constructed a e = n.constructed b f := by
  cases h with
  | wrap hdeclares h => exact constructed_eq_none n a hvalue
  | tried h =>
      rw [constructed, constructed]
      exact constructed_eq h hvalue
  | paren h =>
      rw [constructed, constructed]
      exact constructed_eq h hvalue
  | attributed hhides hattributes h =>
      rw [constructed, constructed]
      exact constructed_eq h hvalue
  | @method e f name at_ other ps qs as bs hreceiver h hturbofish hargs =>
      rw [constructed, constructed]
      rw [Expr.makesValue, Expr.makesValue] at hvalue
      by_cases hname : (name.text == "unwrap" || name.text == "expect") = true
      · rw [hname, Bool.true_and, Bool.true_and] at hvalue
        rw [if_pos hname, if_pos hname]
        exact constructed_eq h hvalue
      · rw [if_neg hname, if_neg hname]
  | call hcallee h hargs =>
      rw [constructed, constructed]
      exact hplace.constructedBy_eq n h (hcallee rfl)
  | construct howner h hfields => rw [constructed, constructed, hplace.firstOf_eq n h]
  | _ => rfl

/-- A receiver that is a lone name as before **has the same type**. -/
theorem Program.Place.Wrapped.receiverType_eq (bindings : Bindings) {e f : Expr}
    (h : e.Wrapped true f) (hname : e.isLoneName = f.isLoneName) :
    n.receiverType a bindings e = n.receiverType b bindings f := by
  cases h with
  | wrap hdeclares h => exact receiverType_eq_none n a bindings hname
  | path h => rw [receiverType, receiverType, h.ident?_eq, hplace.ownerAt_eq]
  | paren h =>
      rw [receiverType, receiverType]
      exact receiverType_eq bindings h hname
  | reference h =>
      rw [receiverType, receiverType]
      exact receiverType_eq bindings h hname
  | attributed hhides hattributes h =>
      rw [receiverType, receiverType]
      exact receiverType_eq bindings h hname
  | _ => rfl

end Values

/-! ### Call sites -/

/-- The same candidates make alike call sites in the same order, wherever they are written. -/
theorem siteOf_forall₂ (kind : CallKind) (at_ other : Position) (candidates : List Route) :
    Forall₂ CallSite.Alike (candidates.filterMap (siteOf kind at_))
      (candidates.filterMap (siteOf kind other)) := by
  induction candidates with
  | nil => exact .nil
  | cons candidate rest ih =>
      rw [List.filterMap_cons, List.filterMap_cons]
      unfold siteOf
      cases candidate.split? with
      | none => exact ih
      | some member => exact .cons ⟨rfl, rfl, rfl⟩ ih

/-- Lists that are related one by one may be left out together. -/
theorem forall₂_ite_nil {α : Type} {R : α → α → Prop} {as bs : List α} (h : Forall₂ R as bs)
    (c : Prop) [Decidable c] : Forall₂ R (if c then [] else as) (if c then [] else bs) := by
  split
  · exact .nil
  · exact h

section Sites

variable (n : Names) {a b : Place} (hplace : a.Wrapped b)

include hplace

/-- A route makes **call sites that are alike** at places that correspond. -/
theorem Program.Place.Wrapped.sitesOfPath (kind : CallKind) (at_ other : Position)
    (route : Route) :
    Forall₂ CallSite.Alike (n.sitesOfPath a kind at_ route) (n.sitesOfPath b kind other route) := by
  simp only [Names.sitesOfPath, hplace.module_eq, hplace.candidatesAt_eq]
  exact forall₂_ite_nil (siteOf_forall₂ kind at_ other _) _

/-- So does a path behind a qualified type. -/
theorem Program.Place.Wrapped.sitesOfQualified (kind : CallKind) (at_ other : Position) {s t : Ty}
    (howner : s.Wrapped true t) (position : Nat) {p q : Path} (hpath : p.Wrapped true q) :
    Forall₂ CallSite.Alike (n.sitesOfQualified a kind at_ s position p)
      (n.sitesOfQualified b kind other t position q) := by
  have hlast := hpath.getLast?_name_eq
  rw [Names.sitesOfQualified, Names.sitesOfQualified]
  cases hp : p.segments.getLast? with
  | none =>
      rw [hp, Option.map_none] at hlast
      rw [Option.map_eq_none_iff.mp hlast.symm]
      exact .nil
  | some first =>
      rw [hp, Option.map_some] at hlast
      obtain ⟨last, hq, hname⟩ := Option.map_eq_some_iff.mp hlast.symm
      simp only [hq, hname, hplace.candidatesAt_eq, hplace.routeAt_eq n hpath,
        hplace.typeMeaning_eq n howner]
      refine rel_append ?_ (.cons ⟨rfl, rfl, rfl⟩ .nil)
      rw [List.forall₂_map_left_iff, List.forall₂_map_right_iff]
      exact List.forall₂_same.mpr fun route _ => ⟨rfl, rfl, rfl⟩

/-- Tokens that read alike make alike call sites in the same order. -/
theorem Program.Place.Wrapped.sitesOfTokens {ts us : List Token} (htokens : TokensReadAlike ts us) :
    Forall₂ CallSite.Alike
      ((tokenPaths ts).flatMap fun (names, p) => n.sitesOfPath a .macroBody p (.ofNames names))
      ((tokenPaths us).flatMap fun (names, p) =>
        n.sitesOfPath b .macroBody p (.ofNames names)) := by
  have hpaths : Forall₂ Eq ((tokenPaths ts).map Prod.fst) ((tokenPaths us).map Prod.fst) := by
    rw [htokens.tokenPaths]
    exact List.forall₂_refl _
  rw [List.forall₂_map_left_iff, List.forall₂_map_right_iff] at hpaths
  refine List.rel_flatMap hpaths fun s t hst => ?_
  obtain ⟨names, at_⟩ := s
  obtain ⟨others, other⟩ := t
  obtain rfl : names = others := hst
  exact hplace.sitesOfPath n .macroBody at_ other _

end Sites

/-- Mentions that are the same up to wrapping **make alike call sites** in the same order. -/
theorem Program.MentionedInWrapped.sitesOf (n : Names) {a b : Place × Mention}
    (h : MentionedInWrapped a b) (bindings : Bindings) :
    Forall₂ CallSite.Alike (n.sitesOf bindings a.1 a.2) (n.sitesOf bindings b.1 b.2) := by
  obtain ⟨place, m⟩ := a
  obtain ⟨place', m'⟩ := b
  obtain ⟨hplace, hm⟩ := h
  cases hm with
  | path hpath =>
      rw [Names.sitesOf, Names.sitesOf, hplace.routeAt_eq n hpath]
      exact hplace.sitesOfPath n _ _ _ _
  | qualified howner hpath =>
      rw [Names.sitesOf, Names.sitesOf]
      exact hplace.sitesOfQualified n _ _ _ howner _ hpath
  | method hreceiver hef =>
      rw [Names.sitesOf, Names.sitesOf, hplace.receiverType_eq n bindings hef hreceiver]
      split
      · exact .cons ⟨rfl, rfl, rfl⟩ .nil
      · exact .nil
  | tokens htokens =>
      rw [Names.sitesOf, Names.sitesOf]
      exact hplace.sitesOfTokens n htokens
  | typed htype =>
      rw [Names.sitesOf, Names.sitesOf]
      exact .nil
  | bound hvalue hef =>
      rw [Names.sitesOf, Names.sitesOf]
      exact .nil

/-- Mentions that are the same up to wrapping **leave the same bindings**. -/
theorem Program.MentionedInWrapped.bindingsAfter_eq (n : Names) {a b : Place × Mention}
    (h : MentionedInWrapped a b) (bindings : Bindings) :
    n.bindingsAfter bindings a.1 a.2 = n.bindingsAfter bindings b.1 b.2 := by
  obtain ⟨place, m⟩ := a
  obtain ⟨place', m'⟩ := b
  obtain ⟨hplace, hm⟩ := h
  cases hm with
  | typed htype => rw [bindingsAfter, bindingsAfter, hplace.typeMeaning_eq n htype]
  | bound hvalue hef => rw [bindingsAfter, bindingsAfter, hplace.constructed_eq n hef hvalue]
  | _ => rfl

/-- Mentions that are the same up to wrapping, one by one, make alike call sites **all along the
walk**, from any bindings on. -/
theorem sitesOfAll_forall₂ (n : Names) {ms ns : List (Place × Mention)}
    (h : Forall₂ MentionedInWrapped ms ns) (bindings : Bindings) :
    Forall₂ CallSite.Alike (n.sitesOfAll bindings ms) (n.sitesOfAll bindings ns) := by
  induction h generalizing bindings with
  | nil => exact .nil
  | cons hab hrest ih =>
      rw [sitesOfAll, sitesOfAll]
      refine rel_append (hab.sitesOf n bindings) ?_
      rw [hab.bindingsAfter_eq n bindings]
      exact ih _

/-- Carefully wrapped programs **have the same call sites** in the same order, but for their
places. -/
theorem Program.SourceFile.Wrapped.sites {p q : SourceFile} (h : p.Wrapped true q) :
    Forall₂ CallSite.Alike (Model.ofProgram p).sites (Model.ofProgram q).sites := by
  have hsites := sitesOfAll_forall₂ (Names.ofProgram p) h.mentioned []
  have hnames : Forall₂ CallSite.Alike ((Names.ofProgram p).sitesOfAll [] p.mentions)
      ((Names.ofProgram q).sitesOfAll [] q.mentions) := by
    rw [← h.names_eq]
    exact hsites
  exact hnames

end CapabilityGate
