import CapabilityGate.Proofs.Files.Directories

/-!
# What is seen of files

Of a tree of files it can be seen what is at each place: nothing, a file with its bytes, or a
directory. What a directory holds is seen at the places below it. A change is told by the places at
which something else is seen than before: where a directory is made, a directory, and where one is
removed, nothing there and below. Everywhere else the same is seen.

## Main definitions

* `Files.what?`: what is seen at a place.
* `Files.AgreeOn`: the same is seen at some places.
* `Files.OnTheWay`: a place on the way along a path.
* `Files.AddsOnTheWay`: what is new are directories on the way along a path.
* `FilePath.IsName`: a name of its own, which leads one place down.

## Main results

* `Files.agreeOn_put`, `Files.agreeOn_remove`: a change at a place is seen there and below only.
* `Files.Makes.what?_eq`: what is seen after a directory is made.
* `Files.addsOnTheWay_makeDirectories`: making a directory with those above it makes directories on
  the way to it.
* `Files.AgreeOn.isDirectory_eq_true`: a directory is one as long as the same is seen on the way to
  it.
-/

namespace CapabilityGate

namespace Entry

variable {e : Entry} {place other : List String}

/-- An entry **without what it holds**. -/
def bare : Entry → Entry
  | directory _ => directory []
  | e => e

/-- A name in a directory after **another one** was taken out there. -/
theorem lookup_filter_other {n name : String} (h : n ≠ name) (entries : List (String × Entry)) :
    (entries.filter (·.1 != name)).lookup n = entries.lookup n := by
  induction entries with
  | nil => rfl
  | cons entry entries ih =>
      obtain ⟨m, old⟩ := entry
      by_cases hm : m = name
      · rw [List.filter_cons_of_neg (by simp [hm]), ih, lookup_cons_eq_ite, if_neg (hm ▸ h)]
      · rw [List.filter_cons_of_pos (by simp [hm]), lookup_cons_eq_ite, lookup_cons_eq_ite, ih]

/-- A change below an entry leaves it **what it is**. -/
theorem bare_set (change : Option Entry) (name : String) (rest : List String) (e : Entry) :
    (e.set change (name :: rest)).bare = e.bare := by
  cases e with
  | file bytes => cases rest <;> rfl
  | executable what => cases rest <;> rfl
  | directory entries =>
      cases rest with
      | nil => cases change <;> rfl
      | cons next rest => rfl

/-- A change at a place is seen **there and below it** only. -/
theorem bare_find?_set (change : Option Entry) (e : Entry) (h : ¬ place <+: other) :
    ((e.set change place).find? other).map bare = (e.find? other).map bare := by
  induction place generalizing e other with
  | nil => exact absurd List.nil_prefix h
  | cons name rest ih =>
      cases other with
      | nil => exact congrArg some (bare_set change name rest e)
      | cons n more =>
          rw [List.cons_prefix_cons, not_and] at h
          cases e with
          | file bytes => cases rest <;> rfl
          | executable what => cases rest <;> rfl
          | directory entries =>
              cases rest with
              | nil =>
                  have hn : n ≠ name := fun heq => h heq.symm List.nil_prefix
                  cases change with
                  | some new => rw [set, find?, lookup_insertInto, if_neg hn, find?]
                  | none => rw [set, find?, lookup_filter_other hn, find?]
              | cons next rest =>
                  rw [set, find?, lookup_map_entries, find?]
                  · cases entries.lookup n with
                    | none => rfl
                    | some below =>
                        rw [Option.map_some, Option.bind_some, Option.bind_some]
                        by_cases hn : n = name
                        · rw [if_pos hn]
                          exact ih below (h hn.symm)
                        · rw [if_neg hn]
                  · simp

end Entry

namespace Files

variable {f g after : Files} {place other : List String} {path : String}
  {p q : List String → Prop}

/-! ### Places -/

/-- What is **seen** at a place: a directory is seen without what it holds. -/
def what? (f : Files) (place : List String) : Option Entry :=
  (f.root.find? place).map Entry.bare

/-- Nothing is seen where **nothing is**. -/
theorem what?_eq_none : f.what? place = none ↔ f.root.find? place = none :=
  Option.map_eq_none_iff

/-- A directory is seen where **one is**. -/
theorem what?_eq_directory : f.what? place = some (.directory []) ↔ f.root.Holds place := by
  rw [what?, Option.map_eq_some_iff]
  constructor
  · rintro ⟨e, he, hbare⟩
    cases e with
    | directory entries => exact ⟨entries, he⟩
    | file bytes => exact nomatch hbare
    | executable what => exact nomatch hbare
  · rintro ⟨entries, hentries⟩
    exact ⟨_, hentries, rfl⟩

/-- What is no directory is seen **as it is**. -/
theorem what?_eq_some_iff {e : Entry} (he : e.isDirectory = false) :
    f.what? place = some e ↔ f.root.find? place = some e := by
  rw [what?, Option.map_eq_some_iff]
  constructor
  · rintro ⟨found, hfound, rfl⟩
    cases found with
    | directory entries => exact Bool.noConfusion he
    | file bytes => exact hfound
    | executable what => exact hfound
  · intro hfound
    refine ⟨e, hfound, ?_⟩
    cases e with
    | directory entries => exact Bool.noConfusion he
    | file bytes => rfl
    | executable what => rfl

/-- Where nothing is seen there is no place **on the way** to a directory. -/
theorem not_prefix_of_vacant (h : f.what? place = none) (hholds : f.root.Holds other) :
    ¬ place <+: other := by
  rintro ⟨back, rfl⟩
  exact Entry.not_holds_of_none (what?_eq_none.mp h) hholds.of_append

/-- Nothing is seen **below** a place where nothing is seen. -/
theorem what?_below (h : f.what? place = none) (back : List String) :
    f.what? (place ++ back) = none := by
  rw [what?_eq_none] at h ⊢
  rw [Entry.find?_append, h, Option.bind_none]

/-! ### Agreement -/

/-- **The same is seen** in two trees at some places. -/
structure AgreeOn (p : List String → Prop) (f g : Files) : Prop where
  /-- Relative paths start from the same directory. -/
  here : g.here = f.here
  /-- At those places the same is seen. -/
  what : ∀ place, p place → g.what? place = f.what? place

/-- A tree agrees **with itself** everywhere. -/
theorem AgreeOn.refl (p : List String → Prop) (f : Files) : AgreeOn p f f :=
  ⟨rfl, fun _ _ => rfl⟩

/-- Trees that agree at some places agree **at fewer of them**. -/
theorem AgreeOn.mono (h : AgreeOn p f g) (hle : ∀ place, q place → p place) : AgreeOn q f g :=
  ⟨h.here, fun place hq => h.what place (hle place hq)⟩

/-- They agree **from tree to tree**. -/
theorem AgreeOn.trans (h : AgreeOn p f g) (hnext : AgreeOn p g after) : AgreeOn p f after :=
  ⟨hnext.here.trans h.here, fun place hp => (hnext.what place hp).trans (h.what place hp)⟩

/-- Something **put** at a place is seen there and below only. -/
theorem agreeOn_put (f : Files) (place : List String) (e : Entry) :
    AgreeOn (¬ place <+: ·) f (f.put place e) :=
  ⟨rfl, fun _ h => Entry.bare_find?_set (some e) f.root h⟩

/-- What is **taken out** of a place is missed there and below only. -/
theorem agreeOn_remove (f : Files) (place : List String) :
    AgreeOn (¬ place <+: ·) f { f with root := f.root.set none place } :=
  ⟨rfl, fun _ h => Entry.bare_find?_set none f.root h⟩

/-- A directory **is one** where the same is seen. -/
theorem AgreeOn.holds (h : AgreeOn p f g) (hp : p place) (hholds : f.root.Holds place) :
    g.root.Holds place := by
  rw [← what?_eq_directory] at hholds ⊢
  rw [h.what place hp, hholds]

/-- Paths start from **the same directories** in trees in which relative paths do. -/
theorem startOf_congr (h : g.here = f.here) : g.startOf = f.startOf := by
  funext path
  rw [startOf, startOf, h]

/-- Paths lead to **the same places** in trees in which relative paths start from one directory. -/
theorem placeOf_congr (h : g.here = f.here) : g.placeOf = f.placeOf := by
  funext path
  rw [placeOf, placeOf, startOf_congr h]

theorem AgreeOn.startOf_eq (h : AgreeOn p f g) (path : String) :
    g.startOf path = f.startOf path :=
  congrFun (startOf_congr h.here) path

theorem AgreeOn.placeOf_eq (h : AgreeOn p f g) (path : String) :
    g.placeOf path = f.placeOf path :=
  congrFun (placeOf_congr h.here) path

/-! ### Ways -/

/-- A place is **on the way** along a path, or at its end. -/
def OnTheWay (f : Files) (path : String) (place : List String) : Prop :=
  ∃ front, front <+: FilePath.names path ∧ place = walk (f.startOf path) front

/-- There is a directory wherever the way to a **directory** leads. -/
theorem holds_of_onTheWay (h : f.isDirectory path = true) (hplace : f.OnTheWay path place) :
    f.root.Holds place := by
  obtain ⟨-, hopen, hholds⟩ := isDirectory_iff.mp h
  obtain ⟨front, ⟨back, hback⟩, rfl⟩ := hplace
  cases back with
  | nil =>
      rw [List.append_nil] at hback
      rw [hback]
      exact hholds
  | cons name back => exact (hopen front name back hback.symm).1

/-- A directory **stays** one as long as the same is seen on the way to it. -/
theorem AgreeOn.isDirectory_eq_true (h : AgreeOn p f g)
    (hway : ∀ place, f.OnTheWay path place → p place) (hdir : f.isDirectory path = true) :
    g.isDirectory path = true := by
  have hholds : ∀ front, front <+: FilePath.names path →
      g.root.Holds (walk (g.startOf path) front) := by
    intro front hfront
    have hplace : f.OnTheWay path (walk (f.startOf path) front) := ⟨front, hfront, rfl⟩
    rw [h.startOf_eq]
    exact h.holds (hway _ hplace) (holds_of_onTheWay hdir hplace)
  obtain ⟨husable, hopen, -⟩ := isDirectory_iff.mp hdir
  refine isDirectory_iff.mpr ⟨husable, ?_, hholds _ List.prefix_rfl⟩
  intro front name back hnames
  exact ⟨hholds front ⟨name :: back, hnames.symm⟩, (hopen front name back hnames).2⟩

/-! ### Directories that are made -/

/-- After a directory is made, it is seen **at its place**, and otherwise what was seen before. -/
theorem Makes.what?_eq (h : f.Makes path after) (other : List String) :
    after.what? other =
      if other = f.placeOf path then some (.directory []) else f.what? other := by
  have hthere : after.root.find? (f.placeOf path) = some (.directory []) :=
    (stat_eq_ok_iff.mp h.stat_eq).2.2
  by_cases hbelow : f.placeOf path <+: other
  · obtain ⟨back, rfl⟩ := hbelow
    cases back with
    | nil => rw [List.append_nil, if_pos rfl, what?, hthere, Option.map_some, Entry.bare]
    | cons n back =>
        rw [if_neg (by simp), what?_below (what?_eq_none.mpr h.vacant), what?_eq_none,
          Entry.find?_append, hthere, Option.bind_some]
        rfl
  · have hne : other ≠ f.placeOf path := fun heq => hbelow (heq ▸ List.prefix_rfl)
    rw [if_neg hne, h.made]
    exact (agreeOn_put f _ _).what other hbelow

/-- What is new are **directories on the way** along a path, or nothing at all. -/
structure AddsOnTheWay (path : String) (f after : Files) : Prop where
  /-- Relative paths start from the same directory. -/
  here : after.here = f.here
  /-- The same is seen, or a directory where nothing was. -/
  what : ∀ place, after.what? place = f.what? place ∨
    f.OnTheWay path place ∧ f.what? place = none ∧ after.what? place = some (.directory [])

namespace AddsOnTheWay

/-- Nothing new is on the way where **nothing changes**. -/
theorem refl (path : String) (f : Files) : AddsOnTheWay path f f :=
  ⟨rfl, fun _ => Or.inl rfl⟩

/-- What is new stays on the way **from change to change**. -/
theorem trans (h : AddsOnTheWay path f g) (hnext : AddsOnTheWay path g after) :
    AddsOnTheWay path f after := by
  refine ⟨hnext.here.trans h.here, fun place => ?_⟩
  rcases hnext.what place with hsame | ⟨hway, hnone, hnew⟩
  · rw [hsame]
    exact h.what place
  · rcases h.what place with hsame | ⟨hway', hnone', -⟩
    · refine Or.inr ⟨?_, hsame ▸ hnone, hnew⟩
      rwa [OnTheWay, startOf_congr h.here] at hway
    · exact Or.inr ⟨hway', hnone', hnew⟩

/-- Nothing more is new where **the same is seen** everywhere. -/
theorem of_agree (h : AddsOnTheWay path f g) (hsame : AgreeOn (fun _ => True) g after) :
    AddsOnTheWay path f after := by
  refine ⟨hsame.here.trans h.here, fun place => ?_⟩
  rw [hsame.what place trivial]
  exact h.what place

/-- The way to a path **above** another one is the beginning of the way to that one. -/
theorem of_parent {above : String} (hparent : FilePath.parent? path = some above)
    (hne : above ≠ "") (h : AddsOnTheWay above f after) : AddsOnTheWay path f after := by
  obtain ⟨⟨rest, hnames⟩, habsolute⟩ := (FilePath.names_of_parent hparent).resolve_left hne
  refine ⟨h.here, fun place => (h.what place).imp_right ?_⟩
  rintro ⟨⟨front, hfront, rfl⟩, hnew⟩
  refine ⟨⟨front, ?_, ?_⟩, hnew⟩
  · rw [hnames]
    exact hfront.trans (List.prefix_append _ _)
  · rw [startOf, startOf, habsolute]

end AddsOnTheWay

/-- A directory that is made unless it is there is **at the end of the way** to it. -/
theorem addsOnTheWay_ensureDirectory (f : Files) (path : String) :
    AddsOnTheWay path f (f.ensureDirectory path).1 := by
  rw [ensureDirectory]
  cases hmake : f.makeDirectory path with
  | error e => exact .refl path f
  | ok after =>
      have hmakes := makes_of_makeDirectory hmake
      refine ⟨by rw [hmakes.made]; rfl, fun place => ?_⟩
      rw [hmakes.what?_eq]
      by_cases hplace : place = f.placeOf path
      · rw [if_pos hplace, hplace]
        exact Or.inr ⟨⟨_, List.prefix_rfl, rfl⟩, what?_eq_none.mpr hmakes.vacant, rfl⟩
      · rw [if_neg hplace]
        exact Or.inl rfl

/-- Making a directory with those above it makes directories **on the way** to it. -/
theorem addsOnTheWay_makeDirectoriesFor (fuel : Nat) (path : String) (f : Files) :
    AddsOnTheWay path f (makeDirectoriesFor fuel path f).1 := by
  induction fuel generalizing path f with
  | zero => exact .refl path f
  | succ fuel ih =>
      rw [makeDirectoriesFor]
      split
      next => exact .refl path f
      next =>
        split
        next above hmake hparent =>
          have habove : AddsOnTheWay path f (makeDirectoriesFor fuel above f).1 := by
            by_cases hempty : above = ""
            · have hnothing : (makeDirectoriesFor fuel above f).1 = f := by
                rw [hempty]
                cases fuel <;> rfl
              rw [hnothing]
              exact .refl path f
            · exact (ih above f).of_parent hparent hempty
          split
          next g hg =>
            rw [hg] at habove
            exact habove.trans (addsOnTheWay_ensureDirectory g path)
          next g e hg =>
            rw [hg] at habove
            exact habove
        next => exact addsOnTheWay_ensureDirectory f path

theorem addsOnTheWay_makeDirectories (path : String) (f : Files) :
    AddsOnTheWay path f (f.makeDirectories path).1 :=
  addsOnTheWay_makeDirectoriesFor (path.length + 1) path f

end Files

/-! ### Names of their own -/

namespace FilePath

/-- A text is a name **of its own**: one name, which is no dots. -/
structure IsName (name : String) : Prop where
  /-- There is no slash in it. -/
  no_slash : '/' ∉ name.toList
  /-- It is not empty. -/
  nonempty : name ≠ ""
  /-- It does not stand for the directory itself. -/
  not_here : name ≠ "."
  /-- It does not stand for the directory above. -/
  not_up : name ≠ ".."

namespace IsName

variable {root name : String} {f : Files}

theorem isAbsolute_eq_false (h : IsName name) : isAbsolute name = false :=
  Files.isAbsolute_of_no_slash h.no_slash

/-- A name of its own is **the last one** in a path. -/
theorem names_join (h : IsName name) : names (join root name) = names root ++ [name] := by
  rw [FilePath.names_join h.isAbsolute_eq_false, names_of_no_slash h.no_slash
    fun hnil => h.nonempty (String.toList_eq_nil_iff.mp hnil)]

theorem placeOf_join (h : IsName name) : f.placeOf (join root name) = f.placeOf root ++ [name] :=
  Files.placeOf_join_name h.no_slash h.nonempty h.not_here h.not_up

/-- The way to a name in a directory leads to the directory, **and to the name**. -/
theorem onTheWay_join_cases (h : IsName name) {place : List String}
    (hplace : f.OnTheWay (join root name) place) :
    f.OnTheWay root place ∨ place = f.placeOf (join root name) := by
  obtain ⟨front, hfront, rfl⟩ := hplace
  rw [h.names_join, List.prefix_concat_iff] at hfront
  rcases hfront with rfl | hfront
  · right
    rw [Files.placeOf, h.names_join]
  · left
    refine ⟨front, hfront, ?_⟩
    rw [Files.startOf, Files.startOf, isAbsolute_join h.isAbsolute_eq_false]

/-- There is a directory wherever the way to a directory leads, if the way **to a name in it** is
open. -/
theorem holds_of_open (h : IsName name) {place : List String}
    (hopen : f.Open (f.startOf (join root name)) (names (join root name)))
    (hplace : f.OnTheWay root place) : f.root.Holds place := by
  obtain ⟨front, ⟨back, hback⟩, rfl⟩ := hplace
  rw [Files.startOf, isAbsolute_join h.isAbsolute_eq_false, ← Files.startOf, h.names_join, ← hback,
    List.append_assoc] at hopen
  have hne : back ++ [name] ≠ [] := List.append_ne_nil_of_right_ne_nil back (List.cons_ne_nil _ _)
  obtain ⟨next, rest, hnext⟩ := List.exists_cons_of_ne_nil hne
  rw [hnext] at hopen
  exact (hopen front next rest rfl).1

end IsName

end FilePath

end CapabilityGate
