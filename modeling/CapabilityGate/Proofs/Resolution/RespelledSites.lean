import CapabilityGate.Proofs.Resolution.RespelledNames

/-!
# Call sites in two spellings

A mention makes the same call sites in two spellings, one by one: containers and methods are the
same in the two spellings, and so are the types of the names that are bound. So programs in two
spellings have the same call sites in the same order.

## Main definitions

* `CallSite.Respelled`: a call site in another spelling, at whatever place.

## Main results

* `Names.Respelled.sitesOf`: a mention makes the same call sites in two spellings.
* `Model.sites_respelled`: programs in two spellings have the same call sites.
-/

namespace CapabilityGate

open Program Route

open List (Forall₂ rel_append rel_map)

variable {σ : Spelling}

/-- A call site is another one **in another spelling**, at whatever place. -/
structure CallSite.Respelled (σ : Spelling) (s t : CallSite) : Prop where
  /-- They name an item of the same container. -/
  container : s.container.Respelled σ t.container
  /-- They name the same item. -/
  method : σ.Name s.method t.method
  /-- They name it in the same way. -/
  kind : s.kind = t.kind

/-- The types of names that are bound are the same in two spellings. -/
def BindingsRespelled (σ : Spelling) : Bindings → Bindings → Prop :=
  Forall₂ fun x y => σ.word x.1 y.1 ∧ x.2.Respelled σ y.2

theorem Program.Expr.Respelled.bare : ∀ {e f : Expr}, e.Respelled σ f →
    e.bare.Respelled σ f.bare
  | _, _, .attributed _ h => h.bare
  | _, _, .path h hlone => .path h hlone
  | _, _, .qualified howner h hmethod => .qualified howner h hmethod
  | _, _, .call h hargs => .call h hargs
  | _, _, .method h hname hturbofish hargs => .method h hname hturbofish hargs
  | _, _, .paren h => .paren h
  | _, _, .reference h => .reference h
  | _, _, .tried h => .tried h
  | _, _, .construct howner h hfields => .construct howner h hfields
  | _, _, .invoke h => .invoke h
  | _, _, .compound h => .compound h

namespace Names

variable {n o : Names} (hn : n.Respelled σ o) {a b : Place} (hplace : a.Respelled σ b)

/-! ### Paths and types at a place -/

include hn hplace

/-- `Self` means the same in two spellings. -/
theorem Respelled.ownerAt (hspare : σ.roots = true → n.affordsOwner a = true) :
    Option.Rel (TypeName.Respelled σ) (n.ownerAt a) (o.ownerAt b) := by
  obtain ⟨m, x⟩ := a
  obtain ⟨m', y⟩ := b
  obtain ⟨-, howner⟩ := hplace
  cases howner with
  | none => exact .none
  | some h => exact .some (hn.typeMeaning (h.1.imp fun _ _ => Or.inl) .none h.2 hspare)

variable (howner : Option.Rel (TypeName.Respelled σ) (n.ownerAt a) (o.ownerAt b))

include howner

theorem Respelled.typeMeaningAt {s t : Ty} (h : s.Respelled σ t)
    (hspare : σ.roots = true → n.affordsType a.module (n.ownerAt a) s = true) :
    (n.typeMeaning a.module (n.ownerAt a) s).Respelled σ
      (o.typeMeaning b.module (o.ownerAt b) t) :=
  hn.typeMeaning (hplace.module.imp fun _ _ => Or.inl) howner h hspare

/-- A path spells the same route in two spellings, perhaps with another root. -/
theorem Respelled.routeAt {p q : Path} (h : p.Respelled σ q)
    (hspare : σ.roots = true → n.affordsSegments a.module (n.ownerAt a) p.segments = true) :
    Written σ (n.routeAt a p) (o.routeAt b q) :=
  hn.written_of_path (hplace.module.imp fun _ _ => Or.inl) howner h hspare

/-- A route has **the same candidates** in two spellings. -/
theorem Respelled.candidatesAt {r s : Route} (h : Written σ r s)
    (hspare : σ.roots = true → n.affords a.module r (n.ownerAt a) = true) :
    Forall₂ (Found σ) (n.candidatesAt a r) (o.candidatesAt b s) :=
  hn.candidates (hplace.module.imp fun _ _ => Or.inl) h howner fun hroots =>
    of_decide_eq_true (hspare hroots)

theorem Respelled.firstOf {p q : Path} (h : p.Respelled σ q)
    (hspare : σ.roots = true → n.affordsPath a p = true) :
    Option.Rel (Found σ) (n.firstOf a p) (o.firstOf b q) := by
  have hboth := fun hroots => Bool.and_eq_true_iff.mp (hspare hroots)
  have hroute := hn.routeAt hplace howner h fun hroots => (hboth hroots).1
  have hfound := hn.candidatesAt hplace howner hroute fun hroots => (hboth hroots).2
  rw [Names.firstOf, Names.firstOf]
  revert hfound
  generalize n.candidatesAt a (n.routeAt a p) = found
  generalize o.candidatesAt b (o.routeAt b q) = others
  intro hfound
  cases hfound with
  | nil => exact .none
  | cons h _ => exact .some h

/-! ### Values and receivers -/

/-- A call constructs a value of the same type in two spellings. -/
theorem Respelled.constructedBy {e f : Expr} (h : e.Respelled σ f)
    (hspare : σ.roots = true → n.affordsCallee a e = true) :
    Option.Rel (TypeName.Respelled σ) (n.constructedBy a e) (o.constructedBy b f) := by
  have hbare := h.bare
  rw [affordsCallee] at hspare
  rw [Names.constructedBy, Names.constructedBy]
  generalize e.bare = callee at hbare hspare
  generalize f.bare = other at hbare
  cases hbare with
  | @path at_ other p q hpath hlone =>
      have hfirst := hn.firstOf hplace howner hpath hspare
      dsimp only
      generalize n.firstOf a p = x at hfirst
      generalize o.firstOf b q = y at hfirst
      cases hfirst with
      | none => exact .none
      | @some r s hfound =>
          have hsplit := hfound.respelled.split?
          rw [Option.bind_some, Option.bind_some]
          generalize r.split? = x at hsplit
          generalize s.split? = y at hsplit
          cases hsplit with
          | none => exact .none
          | some h =>
              dsimp only
              rw [h.2.contains_known (by decide)]
              split
              · exact .some h.1
              · exact .none
  | _ => exact .none

/-- An expression makes a value of the same type in two spellings. -/
theorem Respelled.constructed : ∀ {e f : Expr}, e.Respelled σ f →
    (σ.roots = true → n.affordsValue a e = true) →
      Option.Rel (TypeName.Respelled σ) (n.constructed a e) (o.constructed b f)
  | _, _, .tried h, hspare => by
    rw [Names.constructed, Names.constructed]
    exact constructed h hspare
  | _, _, .paren h, hspare => by
    rw [Names.constructed, Names.constructed]
    exact constructed h hspare
  | _, _, .attributed _ h, hspare => by
    rw [Names.constructed, Names.constructed]
    exact constructed h hspare
  | _, _, @Expr.Respelled.method _ _ _ v w _ _ _ _ _ _ h hname _ _, hspare => by
    have hknown : σ.Name v.text w.text := Or.inl hname
    rw [Names.constructed, Names.constructed, ← hknown.beq_known (by decide),
      ← hknown.beq_known (by decide)]
    rw [affordsValue] at hspare
    split
    next hpassed =>
      rw [if_pos hpassed] at hspare
      exact constructed h hspare
    next => exact .none
  | _, _, .call h _, hspare => by
    rw [Names.constructed, Names.constructed]
    exact hn.constructedBy hplace howner h hspare
  | _, _, @Expr.Respelled.construct _ _ _ _ _ p q _ h _, hspare => by
    have hfirst := hn.firstOf hplace howner h hspare
    rw [Names.constructed, Names.constructed]
    generalize n.firstOf a p = x at hfirst
    generalize o.firstOf b q = y at hfirst
    cases hfirst with
    | none => exact .none
    | some hfound =>
        refine .some (.mk (Spelling.path_joinPath hfound.respelled.map_name ?_) .nil)
        simpa using hfound.ne_nil
  | _, _, .path .., _ => .none
  | _, _, .qualified .., _ => .none
  | _, _, .reference _, _ => .none
  | _, _, .invoke _, _ => .none
  | _, _, .compound _, _ => .none

omit hn hplace howner in
/-- A name is bound with the same type in two spellings. -/
theorem lookup_respelled {bs cs : Bindings} (hbindings : BindingsRespelled σ bs cs) {x y : String}
    (hname : σ.word x y) :
    Option.Rel (TypeName.Respelled σ) (bs.lookup x) (cs.lookup y) := by
  induction hbindings with
  | nil => exact .none
  | @cons d e bs cs h _ ih =>
      obtain ⟨c, s⟩ := d
      obtain ⟨c', t⟩ := e
      have hkey : (x == c) = (y == c') :=
        Bool.eq_iff_iff.mpr (by simpa using σ.eq_iff hname h.1)
      rw [List.lookup_cons, List.lookup_cons, hkey]
      split
      · exact .some h.2
      · exact ih

omit hn hplace in
/-- A receiver has the same type in two spellings. -/
theorem Respelled.receiverType {bs cs : Bindings} (hbindings : BindingsRespelled σ bs cs) :
    ∀ {e f : Expr}, e.Respelled σ f →
      Option.Rel (TypeName.Respelled σ) (n.receiverType a bs e) (o.receiverType b cs f)
  | _, _, @Expr.Respelled.path _ _ _ p q h hlone => by
    have hident := h.ident?_isSome
    rw [Names.receiverType, Names.receiverType]
    revert hident hlone
    generalize p.ident? = x
    generalize q.ident? = y
    intro hlone hident
    match x, y with
    | none, none => exact .none
    | some x, some y =>
        have hname := hlone x y rfl rfl
        have hself : (x == "self") = (y == "self") :=
          Spelling.Name.beq_known (Or.inl hname) (by decide)
        dsimp only
        rw [hself]
        split
        · exact howner
        · exact lookup_respelled hbindings hname
  | _, _, .paren h => by
    rw [Names.receiverType, Names.receiverType]
    exact receiverType hbindings h
  | _, _, .reference h => by
    rw [Names.receiverType, Names.receiverType]
    exact receiverType hbindings h
  | _, _, .attributed _ h => by
    rw [Names.receiverType, Names.receiverType]
    exact receiverType hbindings h
  | _, _, .qualified .. => .none
  | _, _, .call .. => .none
  | _, _, .method .. => .none
  | _, _, .tried _ => .none
  | _, _, .construct .. => .none
  | _, _, .invoke _ => .none
  | _, _, .compound _ => .none

/-! ### Call sites -/

omit hn hplace howner in
/-- A candidate makes the same call site in two spellings, or none in both. -/
theorem siteOf_respelled (kind : CallKind) (p q : Position) {r s : Route} (h : Found σ r s) :
    Option.Rel (CallSite.Respelled σ) (siteOf kind p r) (siteOf kind q s) := by
  have hsplit := h.respelled.split?
  rw [siteOf, siteOf]
  generalize r.split? = x at hsplit
  generalize s.split? = y at hsplit
  cases hsplit with
  | none => exact .none
  | some h => exact .some ⟨h.1, h.2, rfl⟩

omit hplace howner in
/-- A lone name is that of a variable in both spellings or in neither. -/
theorem Respelled.isVariable_eq {m m' : List String} (hmodule : Forall₂ σ.Name m m')
    (kind : CallKind) {r s : Route} (h : Written σ r s) :
    n.isVariable m kind r = o.isVariable m' kind s := by
  have hlone : ∀ {x y : Step}, Written σ [x] [y] → n.knows m x.name = o.knows m' y.name := by
    intro x y h
    cases h with
    | same h =>
        cases h with
        | cons h _ => exact hn.knows_eq hmodule h.name
    | root hroots hfirst hother _ _ =>
        have hprelude : ∀ root ∈ standardRoots, prelude? root = none := by decide
        rw [knows_eq_scopeAt, knows_eq_scopeAt, hprelude _ hfirst, hprelude _ hother,
          (hn.free hroots m _ hfirst).1, (hn.free hroots m' _ hother).2]
  cases kind with
  | path => rfl
  | method | reference | macroBody =>
      cases h with
      | same h =>
          cases h with
          | nil => rfl
          | cons hstep hrest =>
              cases hrest with
              | nil => exact congrArg (!·) (hlone (.same (.cons hstep .nil)))
              | cons _ _ => rfl
      | root hroots hfirst hother hargs hrest =>
          cases hrest with
          | nil => exact congrArg (!·) (hlone (.root hroots hfirst hother hargs .nil))
          | cons _ _ => rfl

/-- A path makes the same call sites in two spellings. -/
theorem Respelled.sitesOfPath (kind : CallKind) (p q : Position) {r s : Route} (h : Written σ r s)
    (hspare : σ.roots = true →
      n.isVariable a.module kind r = true ∨ n.affords a.module r (n.ownerAt a) = true) :
    Forall₂ (CallSite.Respelled σ) (n.sitesOfPath a kind p r) (o.sitesOfPath b kind q s) := by
  rw [sitesOfPath_eq, sitesOfPath_eq,
    ← hn.isVariable_eq (hplace.module.imp fun _ _ => Or.inl) kind h]
  split
  next => exact .nil
  next hlooked =>
    refine List.rel_filterMap (fun _ _ h => siteOf_respelled kind p q h)
      (hn.candidatesAt hplace howner h fun hroots => ?_)
    exact (hspare hroots).resolve_left hlooked

omit hn hplace howner in
/-- The last name of a path below a type is the same in two spellings. -/
theorem getLast?_name_respelled {position : Nat} {p q : Path} (h : p.Respelled σ q)
    (hmethod : position = 0 ∨ p.segments.length ≤ 1 → SegmentsRespelled σ p.segments q.segments) :
    Option.Rel σ.word (p.segments.getLast?.map Segment.name)
      (q.segments.getLast?.map Segment.name) := by
  cases h with
  | mk h => exact h.getLast?_name
  | root hroots hv hw hargs hrest =>
      cases hrest with
      | nil => exact (hmethod (Or.inr (Nat.le_refl 1))).getLast?_name
      | cons hword hmore hlast =>
          rw [Path.segments, Path.segments, List.getLast?_cons_cons, List.getLast?_cons_cons]
          exact (SegmentsRespelled.cons hword hmore hlast).getLast?_name

omit hn hplace howner in
/-- The start of a route is the same in two spellings, perhaps with another root. -/
theorem written_take {r s : Route} (h : Written σ r s) {position : Nat} (hne : position ≠ 0) :
    Written σ (r.take position) (s.take position) := by
  obtain ⟨k, rfl⟩ := Nat.exists_eq_succ_of_ne_zero hne
  cases h with
  | same h => exact .same (List.forall₂_take _ h)
  | root hroots hfirst hother hargs hrest =>
      exact .root hroots hfirst hother hargs (List.forall₂_take k hrest)

/-- A path below a type makes the same call sites in two spellings. -/
theorem Respelled.sitesOfQualified (kind : CallKind) (at_ other : Position) {s t : Ty}
    (htype : s.Respelled σ t) (position : Nat) {p q : Path} (h : p.Respelled σ q)
    (hmethod : position = 0 ∨ p.segments.length ≤ 1 → SegmentsRespelled σ p.segments q.segments)
    (hsegments : σ.roots = true → n.affordsSegments a.module (n.ownerAt a) p.segments = true)
    (htrait : σ.roots = true → position = 0 ∨
      n.affords a.module ((n.routeAt a p).take position) (n.ownerAt a) = true)
    (hself : σ.roots = true → n.affordsType a.module (n.ownerAt a) s = true) :
    Forall₂ (CallSite.Respelled σ) (n.sitesOfQualified a kind at_ s position p)
      (o.sitesOfQualified b kind other t position q) := by
  have hlast := getLast?_name_respelled h hmethod
  have howned := hn.typeMeaningAt hplace howner htype hself
  rw [Names.sitesOfQualified, Names.sitesOfQualified]
  generalize p.segments.getLast? = x at hlast
  generalize q.segments.getLast? = y at hlast
  match x, y, hlast with
  | none, none, _ => exact .nil
  | some last, some last', .some hname =>
      refine rel_append (rel_map (R := Found σ) (fun r s hfound => ?_) ?_)
        (.cons ⟨howned, Or.inl hname, rfl⟩ .nil)
      · exact ⟨hfound.type, Or.inl hname, rfl⟩
      · by_cases hzero : position = 0
        · rw [hzero]
          exact .nil
        · have hne : (position == 0) = false := by simpa using hzero
          simp only [hne, Bool.false_eq_true, if_false]
          have hroute := hn.routeAt hplace howner h hsegments
          exact List.forall₂_take 1
            (hn.candidatesAt hplace howner (written_take hroute hzero) fun hroots =>
              (htrait hroots).resolve_left hzero)

/-! ### Mentions -/

omit howner

/-- **A mention makes the same call sites** in two spellings. -/
theorem Respelled.sitesOf {bs cs : Bindings} (hbindings : BindingsRespelled σ bs cs)
    {x y : Mention} (h : x.Respelled σ y)
    (hspare : σ.roots = true → n.affordsMention a x = true) :
    Forall₂ (CallSite.Respelled σ) (n.sitesOf bs a x) (o.sitesOf cs b y) := by
  have hboth := fun hroots => Bool.and_eq_true_iff.mp (hspare hroots)
  have howner := hn.ownerAt hplace fun hroots => (hboth hroots).1
  cases h with
  | path h hlone =>
      have hpaid := fun hroots => Bool.and_eq_true_iff.mp (hboth hroots).2
      exact hn.sitesOfPath hplace howner _ _ _
        (hn.routeAt hplace howner h fun hroots => (hpaid hroots).1)
        fun hroots => Bool.or_eq_true_iff.mp (hpaid hroots).2
  | qualified htype h hmethod =>
      have hpaid : σ.roots = true → _ := fun hroots => (hboth hroots).2
      simp only [Bool.and_eq_true, Bool.or_eq_true, beq_iff_eq] at hpaid
      exact hn.sitesOfQualified hplace howner _ _ _ htype _ h hmethod
        (fun hroots => (hpaid hroots).1.1) (fun hroots => (hpaid hroots).1.2)
        fun hroots => (hpaid hroots).2
  | @method e f _ _ _ _ h hname =>
      have hreceiver := Respelled.receiverType howner hbindings h
      rw [Names.sitesOf, Names.sitesOf]
      generalize n.receiverType a bs e = s at hreceiver
      generalize o.receiverType b cs f = t at hreceiver
      cases hreceiver with
      | none => exact .nil
      | some h => exact .cons ⟨h, Or.inl hname, rfl⟩ .nil
  | tokens h =>
      have hpaid := fun hroots => List.all_eq_true.mp (hboth hroots).2
      rw [Names.sitesOf, Names.sitesOf]
      -- the induction is on the paths among the tokens, which are all paid for
      have hpaths : ∀ {ps qs : List (List String × Position)},
          Forall₂ (fun c d => Forall₂ σ.word c.1 d.1) ps qs →
            (σ.roots = true → ∀ path ∈ ps,
              n.isVariable a.module .macroBody (.ofNames path.1) = true ∨
                n.affords a.module (.ofNames path.1) (n.ownerAt a) = true) →
            Forall₂ (CallSite.Respelled σ)
              (ps.flatMap fun path => n.sitesOfPath a .macroBody path.2 (.ofNames path.1))
              (qs.flatMap fun path => o.sitesOfPath b .macroBody path.2 (.ofNames path.1)) := by
        intro ps qs hpaths
        induction hpaths with
        | nil => exact fun _ => .nil
        | cons hpath _ ih =>
            intro hpaid
            refine rel_append (hn.sitesOfPath hplace howner _ _ _
              (.same (respelled_ofNames (hpath.imp fun _ _ => Or.inl)))
              fun hroots => hpaid hroots _ (List.mem_cons_self ..)) (ih fun hroots path hmem => ?_)
            exact hpaid hroots path (List.mem_cons_of_mem _ hmem)
      exact hpaths h.tokenPaths fun hroots path hmem =>
        Bool.or_eq_true_iff.mp (hpaid hroots path hmem)
  | typed _ _ => exact .nil
  | bound _ _ => exact .nil

/-- A mention binds the same names with the same types in two spellings. -/
theorem Respelled.bindingsAfter {bs cs : Bindings} (hbindings : BindingsRespelled σ bs cs)
    {x y : Mention} (h : x.Respelled σ y)
    (hspare : σ.roots = true → n.affordsMention a x = true) :
    BindingsRespelled σ (n.bindingsAfter bs a x) (o.bindingsAfter cs b y) := by
  have hboth := fun hroots => Bool.and_eq_true_iff.mp (hspare hroots)
  have howner := hn.ownerAt hplace fun hroots => (hboth hroots).1
  cases h with
  | typed hname h =>
      exact .cons ⟨hname, hn.typeMeaningAt hplace howner h fun hroots => (hboth hroots).2⟩
        hbindings
  | @bound _ _ e f hname h =>
      have hvalue := hn.constructed hplace howner h fun hroots => (hboth hroots).2
      rw [Names.bindingsAfter, Names.bindingsAfter]
      generalize n.constructed a e = s at hvalue
      generalize o.constructed b f = t at hvalue
      cases hvalue with
      | none => exact hbindings
      | some h => exact .cons ⟨hname, h⟩ hbindings
  | _ => exact hbindings

omit hplace in
/-- Mentions in order make the same call sites in two spellings. -/
theorem Respelled.sitesOfAll {ms ks : List (Place × Mention)}
    (h : Forall₂ (MentionRespelled σ) ms ks)
    (hspare : σ.roots = true → ∀ m ∈ ms, n.affordsMention m.1 m.2 = true) {bs cs : Bindings}
    (hbindings : BindingsRespelled σ bs cs) :
    Forall₂ (CallSite.Respelled σ) (n.sitesOfAll bs ms) (o.sitesOfAll cs ks) := by
  induction h generalizing bs cs with
  | nil => exact .nil
  | @cons x y ms ks h _ ih =>
      have hfirst := fun hroots => hspare hroots x (List.mem_cons_self ..)
      refine rel_append (hn.sitesOf h.place hbindings h.mention hfirst)
        (ih (fun hroots m hm => ?_) (hn.bindingsAfter h.place hbindings h.mention hfirst))
      exact hspare hroots m (List.mem_cons_of_mem _ hm)

end Names

/-! ### Programs -/

namespace Model

variable {p q : SourceFile} (h : p.Respelled σ q)
  (hfree : σ.roots = true → p.bindsNoRoot = true)
  (hspare : σ.roots = true → p.affordsLookups = true)

include h hfree hspare

/-- What programs in two spellings declare is the same. -/
theorem names_respelled : (ofProgram p).names.Respelled σ (ofProgram q).names :=
  Names.respelled_ofProgram h hfree fun hroots => (Bool.and_eq_true_iff.mp (hspare hroots)).1

/-- **Programs in two spellings have the same call sites** in the same order. -/
theorem sites_respelled :
    Forall₂ (CallSite.Respelled σ) (ofProgram p).sites (ofProgram q).sites :=
  (names_respelled h hfree hspare).sitesOfAll h.mentioned
    (fun hroots => List.all_eq_true.mp (Bool.and_eq_true_iff.mp (hspare hroots)).2) .nil

end Model

end CapabilityGate
