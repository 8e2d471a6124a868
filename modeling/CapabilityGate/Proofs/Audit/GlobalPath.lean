import CapabilityGate.Proofs.Audit.FirstOffence
import CapabilityGate.Proofs.Audit.Rejection

/-!
# Paths from a standard root

A path that starts at a standard root leads out of the program, unless the module it is written in
binds the root itself; what other modules bind is of no account. Two colons in front of the path
change nothing: a module that binds the root captures the path with them too.

## Main results

* `standard_path_leads_out`: what a path from a standard root means as an expression, as a type and
  as the target of an import, and the call site that it makes.
* `shadowed_root_captures`: a call in full, with two colons in front, that a module of the program
  captures.
-/

namespace CapabilityGate

open Program Route

/-! ### Call sites below the standard root -/

/-- A path that starts with the standard root is **no name of the prelude**. -/
theorem prelude?_standard (names : List String) : prelude? (joinPath ("std" :: names)) = none := by
  have hhead : (joinPath ("std" :: names)).toList.head? = some 's' := by
    rw [toList_joinPath_cons]
    rfl
  have hother : ∀ entry ∈ preludePaths, entry.1.toList.head? ≠ some 's' := by decide
  rw [prelude?, List.lookup_eq_none_iff]
  intro entry hentry
  rw [bne_iff_ne]
  intro heq
  rw [heq] at hhead
  exact hother entry hentry hhead

/-- The words of a path from the standard root, with the root. -/
theorem isWord_of_mem_standard {names : List String} (hwords : ∀ n ∈ names, isWord n = true) :
    ∀ n ∈ "std" :: names, isWord n = true := by
  intro n hn
  rcases List.mem_cons.mp hn with rfl | hn
  · decide
  · exact hwords n hn

/-- A path that words spell below the standard root is in normal form. -/
theorem normalPath_standard {names : List String} (hwords : ∀ n ∈ names, isWord n = true) :
    normalPath (joinPath ("std" :: names)) = joinPath ("std" :: names) :=
  normalPath_joinPath (isWord_of_mem_standard hwords)

/-- The call site of a route below the standard root: the **path without its last name**, and that
name. -/
theorem siteOf_standard {candidate : Route} {middle : List String} {method : String}
    (kind : CallKind) (at_ : Position)
    (hnames : candidate.map Step.name = "std" :: middle ++ [method])
    (hwords : ∀ n ∈ middle, isWord n = true) :
    ∃ args, Names.siteOf kind at_ candidate =
      some ⟨.mk (joinPath ("std" :: middle)) args, method, kind, at_.line, at_.column⟩ := by
  have hlength : 2 ≤ candidate.length := by
    rw [← List.length_map Step.name, hnames]
    simp
  obtain ⟨front, owner, step, rfl⟩ := exists_eq_concat hlength
  rw [List.map_append, List.map_cons, List.map_nil] at hnames
  obtain ⟨hinit, hlast⟩ := List.append_inj' hnames rfl
  obtain rfl := List.singleton_inj.mp hlast
  refine ⟨owner.args, ?_⟩
  rw [Names.siteOf, split?_concat, hinit, TypeName.apply, normalPath_standard hwords]
  rfl

/-- The descriptor of a whole type below the standard root covers the paths to its members. -/
theorem covers_standard {middle : List String} (hwords : ∀ n ∈ middle, isWord n = true)
    {site : CallSite} {args : List TypeName} {called : Bool}
    (hcontainer : site.container = .mk (joinPath ("std" :: middle)) args)
    (hkind : site.kind = Names.kindOf called) :
    (Descriptor.canonical ⟨.ofPath (joinPath ("std" :: middle)), none⟩).covers site = true := by
  have hcanonical : Descriptor.canonical ⟨.ofPath (joinPath ("std" :: middle)), none⟩ =
      ⟨.mk (joinPath ("std" :: middle)) [], none⟩ := by
    rw [Descriptor.canonical, TypeName.ofPath, normalPath_standard hwords, Model.canonical,
      Model.namedType, prelude?_standard, Option.getD_none, TypeName.ofPath,
      normalPath_standard hwords]
  have hinstance : instanceOf (.mk (joinPath ("std" :: middle)) [])
      (.mk (joinPath ("std" :: middle)) args) = true := by
    rw [instanceOf, beq_self_eq_true]
  have hagrees : Descriptor.agrees ⟨.mk (joinPath ("std" :: middle)) [], none⟩ site.kind
      site.container = true := by
    rw [hkind, hcontainer]
    cases called <;> exact hinstance
  rw [hcanonical, Descriptor.covers, hagrees]
  rfl

/-! ### What a path from a standard root means -/

variable {p : SourceFile} {module : List String} {path : Path} {root : String}
  {rest : List String}

/-- A path from a standard root that its module does not bind has one candidate, with the root
`std` and **the names that are written**. -/
theorem candidates_of_standard_path (hnames : path.names = root :: rest)
    (hroot : root ∈ standardRoots) (hfree : p.boundTo module root = [])
    (owner : Option TypeName) :
    ∃ r : Route, (Names.ofProgram p).candidates module
        ((Names.ofProgram p).routeOf module owner path) owner = [r] ∧
      r.map Step.name = "std" :: rest := by
  have hsteps := (Names.ofProgram p).map_name_stepsOf module owner path.segments
  rw [← Path.names, hnames] at hsteps
  obtain ⟨first, more, hroute, rfl, rfl⟩ := List.map_eq_cons_iff.mp hsteps
  refine ⟨Names.literal (first :: more), ?_, map_name_literal first more hroot⟩
  rw [Names.routeOf, hroute]
  exact candidates_of_standard hroot hfree owner

/-- A type that is a path means its first candidate. -/
theorem typeMeaning_path (n : Names) (owner : Option TypeName) (path : Path) {r : Route}
    (h : n.candidates module (n.routeOf module owner path) owner = [r]) :
    n.typeMeaning module owner (.path path) = r.type := by
  obtain ⟨global, segments⟩ := path
  rw [Names.routeOf, Path.segments] at h
  rw [Names.typeMeaning, h]

/-- A target from a standard root is read with the root `std` and the names that are written. -/
theorem literal_ofNames (hroot : root ∈ standardRoots) :
    Names.literal (.ofNames (root :: rest)) = .ofNames ("std" :: rest) := by
  simp only [standardRoots, List.mem_cons, List.not_mem_nil, or_false] at hroot
  rcases hroot with rfl | rfl | rfl <;> rfl

/-- The call sites of a path of two names or more are those of **all its candidates**, whether it
is called or stands as a value. -/
theorem sitesOf_path {place : Place} {called : Bool} {at_ : Position} {first second : String}
    {behind : List String} (n : Names) (bindings : Bindings)
    (hnames : path.names = first :: second :: behind) :
    n.sitesOf bindings place (.path called at_ path) =
      (n.candidatesAt place (n.routeAt place path)).filterMap
        (Names.siteOf (Names.kindOf called) at_) := by
  have hlength : 2 ≤ (n.routeAt place path).length := by
    rw [← List.length_map Step.name, n.map_name_routeAt, hnames]
    simp
  rw [Names.sitesOf, Names.sitesOfPath_of_two_le _ _ hlength]

/-- **A path from a standard root leads out of the program**, with two colons in front or without,
if the module it is written in binds nothing to the root, whatever the rest of the program binds.
As an expression and as a type it means itself with the root `std`, and so does the target of an
import. Where a program mentions such a path of two names or more, called or not, there is a call
site of its last name in what stands in front of it, and a denylist that holds this rejects the
program. -/
theorem standard_path_leads_out (hnames : path.names = root :: rest)
    (hroot : root ∈ standardRoots) (hfree : p.boundTo module root = []) :
    (∀ place : Place, place.module = module →
      ∃ r : Route, (Names.ofProgram p).candidatesAt place
          ((Names.ofProgram p).routeAt place path) = [r] ∧ r.map Step.name = "std" :: rest) ∧
    (∀ owner, ((Names.ofProgram p).typeMeaning module owner (.path path)).path =
      joinPath ("std" :: rest)) ∧
    (∀ skip depth left, ((Names.ofProgram p).lookup (depth + 1)).written module
        (.ofNames (root :: rest)) none skip (left + 1) = ([.ofNames ("std" :: rest)], left)) ∧
    ∀ (place : Place) (called : Bool) (at_ : Position) (middle : List String) (method : String),
      place.module = module → rest = middle ++ [method] →
      (place, Mention.path called at_ path) ∈ p.mentions →
      ∃ site ∈ (Model.ofProgram p).sites,
        site.kind = Names.kindOf called ∧ site.line = at_.line ∧ site.column = at_.column ∧
        site.container.path = joinPath ("std" :: middle) ∧ site.method = method ∧
        ∀ denylist : List Descriptor, ⟨.ofPath (joinPath ("std" :: middle)), none⟩ ∈ denylist →
          ((Model.ofProgram p).verdict (withoutRepeats denylist)).rejects = true := by
  have hwords : ∀ n ∈ rest, isWord n = true := by
    intro n hn
    have hmem : n ∈ path.names := by
      rw [hnames]
      exact List.mem_cons_of_mem _ hn
    exact isWord_of_mem_names hmem
  refine ⟨?_, ?_, ?_, ?_⟩
  · rintro place rfl
    exact candidates_of_standard_path hnames hroot hfree _
  · intro owner
    obtain ⟨r, hcandidate, hr⟩ := candidates_of_standard_path hnames hroot hfree owner
    rw [typeMeaning_path _ owner path hcandidate, Route.type, Route.path, hr]
    exact normalPath_standard hwords
  · intro skip depth left
    rw [← literal_ofNames hroot]
    exact written_standard (plainStep root) (ofNames rest) none skip depth left hroot hfree
  · rintro place called at_ middle method rfl rfl hmention
    obtain ⟨r, hcandidate, hr⟩ := candidates_of_standard_path hnames hroot hfree
      ((Names.ofProgram p).ownerAt place)
    have hmiddle : ∀ n ∈ middle, isWord n = true := fun n hn =>
      hwords n (List.mem_append_left _ hn)
    obtain ⟨args, hsite⟩ := siteOf_standard (Names.kindOf called) at_ hr hmiddle
    obtain ⟨second, behind, hrest⟩ : ∃ second behind, middle ++ [method] = second :: behind :=
      List.exists_cons_of_ne_nil (by simp)
    have hmem : ⟨.mk (joinPath ("std" :: middle)) args, method, Names.kindOf called, at_.line,
        at_.column⟩ ∈ (Model.ofProgram p).sites := by
      refine Names.mem_sitesOfAll (fun bindings => ?_) [] hmention
      rw [sitesOf_path _ bindings (hrest ▸ hnames), Names.candidatesAt, Names.routeAt, hcandidate,
        List.filterMap_cons_some hsite]
      exact List.mem_cons_self ..
    refine ⟨_, hmem, rfl, rfl, rfl, rfl, rfl, fun denylist hd => ?_⟩
    exact Model.rejects_of_covers hmem (mem_withoutRepeats.mpr hd)
      (covers_standard hmiddle rfl rfl)

/-! ### Programs with a module named like a standard root -/

/-- The path that words spell behind two colons. -/
def globalPathOf (words : List Word) : Path :=
  .mk true (words.map fun word => .mk word .none [])

/-- The call of `::std::fs::read` at the start of a text. -/
def globalCall : Part :=
  .expr (.call (.path .start
    (globalPathOf [⟨"std", Eq.refl true⟩, ⟨"fs", Eq.refl true⟩, ⟨"read", Eq.refl true⟩])) [])

/-- A module `std` with the function `std::fs::read`. -/
def shadowModule : Item :=
  .module ⟨"std", Eq.refl true⟩ [.item (.module ⟨"fs", Eq.refl true⟩
    [.item (.declaration .function ⟨"read", Eq.refl true⟩ [])])]

/-- The tree of `mod m { mod std { mod fs { fn read() {} } } }` and
`fn f() { ::std::fs::read(); }`. -/
def shadowedElsewhere : SourceFile :=
  ⟨[], [.module ⟨"m", Eq.refl true⟩ [.item shadowModule], functionOf [globalCall]]⟩

/-- In `shadowedElsewhere` the call leads out of the program. -/
theorem global_read_leads_out :
    (⟨[], none⟩, Mention.path true .start
        (globalPathOf [⟨"std", Eq.refl true⟩, ⟨"fs", Eq.refl true⟩, ⟨"read", Eq.refl true⟩])) ∈
      shadowedElsewhere.mentions ∧
    shadowedElsewhere.boundTo ["m"] "std" = [.module] ∧
    ∃ site ∈ (Model.ofProgram shadowedElsewhere).sites,
      site.kind = .path ∧ site.line = 1 ∧ site.column = 1 ∧
      site.container.path = joinPath ["std", "fs"] ∧ site.method = "read" ∧
      ∀ denylist : List Descriptor, ⟨.ofPath (joinPath ["std", "fs"]), none⟩ ∈ denylist →
        ((Model.ofProgram shadowedElsewhere).verdict (withoutRepeats denylist)).rejects =
          true := by
  have hmention : (⟨[], none⟩, Mention.path true .start
      (globalPathOf [⟨"std", Eq.refl true⟩, ⟨"fs", Eq.refl true⟩, ⟨"read", Eq.refl true⟩])) ∈
        shadowedElsewhere.mentions :=
    List.mem_singleton_self _
  have hnames : (globalPathOf [⟨"std", Eq.refl true⟩, ⟨"fs", Eq.refl true⟩,
      ⟨"read", Eq.refl true⟩]).names = "std" :: ["fs", "read"] := rfl
  have hfree : shadowedElsewhere.boundTo [] "std" = [] := rfl
  obtain ⟨-, -, -, hsite⟩ := standard_path_leads_out hnames (by decide) hfree
  exact ⟨hmention, rfl, hsite ⟨[], none⟩ true .start ["fs"] "read" rfl rfl hmention⟩

/-- The tree of `mod std { mod fs { fn read() {} } }` and `fn f() { ::std::fs::read(); }`. -/
def shadowedRoot : SourceFile :=
  ⟨[], [shadowModule, functionOf [globalCall]]⟩

/-- **A module named like the root captures the path**, two colons or not: the call of
`::std::fs::read` in `shadowedRoot` is recorded as one into the program, and passes where `std::fs`
is denied. -/
theorem shadowed_root_captures :
    shadowedRoot.Holds ⟨[], none⟩ globalCall ∧
      (globalPathOf [⟨"std", Eq.refl true⟩, ⟨"fs", Eq.refl true⟩,
        ⟨"read", Eq.refl true⟩]).isGlobal = true ∧
      (Model.ofProgram shadowedRoot).sites =
        [⟨.mk "crate::std::fs" [], "read", .path, 1, 1⟩] ∧
      ((Model.ofProgram shadowedRoot).verdict
        (withoutRepeats [⟨.ofPath "std::fs", none⟩])).rejects = false := by
  refine ⟨?_, rfl, by decide, by decide⟩
  exact ⟨_, List.mem_of_getElem? (i := 1) rfl, .inside (List.mem_singleton_self _) .here⟩

end CapabilityGate
