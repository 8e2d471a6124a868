import CapabilityGate.Files.Tree
import CapabilityGate.Proofs.Files.PathNames

/-!
# Places in a tree of files

A path leads to a place, if it leads anywhere: the names in it say to which, whatever there is in
the tree. The tree only decides whether the way there is open, which takes a directory at each
place on the way.

## Main definitions

* `Entry.Holds`: names lead to a directory.
* `Files.walk`: the place that names lead to, if they lead anywhere.
* `Files.placeOf`: the place that a path leads to, if it leads anywhere.

## Main results

* `Entry.find?_set_none`: what is taken out of a tree is not there.
* `Entry.find?_of_set_directory`, `Entry.find?_set_above`, `Entry.Holds.set`: what there is in a
  tree with something new.
* `Files.follow_eq_ok_iff`: when the way along some names is open, and where it leads.
* `Files.stat_eq_ok_iff`: what a path leads to.
-/

namespace CapabilityGate

/-! ### Entries -/

namespace Entry

variable {e : Entry} {place back : List String} {name : String}

/-- Names lead to a **directory** in an entry. -/
def Holds (e : Entry) (place : List String) : Prop :=
  ∃ entries, e.find? place = some (directory entries)

/-- Names lead where the first ones lead, **and on from there**. -/
theorem find?_append (front back : List String) (e : Entry) :
    e.find? (front ++ back) = (e.find? front).bind (find? back) := by
  induction front generalizing e with
  | nil => rw [List.nil_append, find?, Option.bind_some]
  | cons name front ih =>
      cases e with
      | file bytes => rfl
      | executable what => rfl
      | directory entries =>
          rw [List.cons_append, find?, find?, Option.bind_assoc]
          exact congrArg _ (funext ih)

/-- There is a directory **on the way** to anything. -/
theorem holds_of_find? (hback : back ≠ []) (h : (e.find? (place ++ back)).isSome) :
    e.Holds place := by
  rw [find?_append] at h
  cases hfound : e.find? place with
  | none => rw [hfound] at h; exact absurd h (by simp)
  | some found =>
      rw [hfound, Option.bind_some] at h
      cases found with
      | directory entries => exact ⟨entries, hfound⟩
      | file bytes =>
          cases back with
          | nil => exact absurd rfl hback
          | cons _ _ => exact absurd h (by simp [find?])
      | executable what =>
          cases back with
          | nil => exact absurd rfl hback
          | cons _ _ => exact absurd h (by simp [find?])

/-- There is a directory **on the way** to each directory. -/
theorem Holds.of_append (h : e.Holds (place ++ back)) : e.Holds place := by
  cases back with
  | nil => rwa [List.append_nil] at h
  | cons name back =>
      obtain ⟨entries, hentries⟩ := h
      exact holds_of_find? (List.cons_ne_nil name back)
        (Option.isSome_iff_exists.mpr ⟨_, hentries⟩)

/-- There is a directory **above** each directory. -/
theorem Holds.dropLast (h : e.Holds place) : e.Holds place.dropLast := by
  rcases List.eq_nil_or_concat place with rfl | ⟨front, name, rfl⟩
  · exact h
  · rw [List.concat_eq_append] at h ⊢
    rw [List.dropLast_concat]
    exact h.of_append

/-- Where there is nothing, there is **no directory**. -/
theorem not_holds_of_none (h : e.find? place = none) : ¬ e.Holds place := by
  rintro ⟨entries, hentries⟩
  rw [h] at hentries
  exact nomatch hentries

/-- The first entry of a directory is the one of its name. -/
theorem lookup_cons_eq_ite (n m : String) (e : Entry) (entries : List (String × Entry)) :
    ((m, e) :: entries).lookup n = if n = m then some e else entries.lookup n := by
  rw [List.lookup_cons]
  by_cases h : n = m
  · rw [if_pos h, beq_iff_eq.mpr h]
  · rw [if_neg h, beq_eq_false_iff_ne.mpr h]

/-- A name in a directory after some entry was **put in** there. -/
theorem lookup_insertInto (n name : String) (new : Entry) (entries : List (String × Entry)) :
    (insertInto name new entries).lookup n =
      if n = name then some new else entries.lookup n := by
  induction entries with
  | nil => rw [insertInto, lookup_cons_eq_ite]
  | cons entry entries ih =>
      obtain ⟨m, old⟩ := entry
      rw [insertInto]
      by_cases hm : name = m
      · subst hm
        rw [if_pos (beq_self_eq_true name), lookup_cons_eq_ite, lookup_cons_eq_ite]
        by_cases hn : n = name
        · rw [if_pos hn, if_pos hn]
        · rw [if_neg hn, if_neg hn, if_neg hn]
      · rw [if_neg (fun h => hm (beq_iff_eq.mp h))]
        by_cases hlt : name < m
        · rw [if_pos hlt, lookup_cons_eq_ite]
        · rw [if_neg hlt, lookup_cons_eq_ite, ih, lookup_cons_eq_ite]
          by_cases hn : n = m
          · subst hn
            rw [if_pos rfl, if_pos rfl, if_neg (Ne.symm hm)]
          · rw [if_neg hn, if_neg hn]

/-- A name in a directory of whose entries **some were changed**. -/
theorem lookup_map_entries (n name : String) (change : Entry → Entry)
    (entries : List (String × Entry)) :
    (entries.map fun (m, e) => (m, if m == name then change e else e)).lookup n =
      (entries.lookup n).map fun e => if n = name then change e else e := by
  induction entries with
  | nil => rfl
  | cons entry entries ih =>
      obtain ⟨m, old⟩ := entry
      rw [List.map_cons, lookup_cons_eq_ite, lookup_cons_eq_ite, ih]
      by_cases hn : n = m
      · subst hn
        rw [if_pos rfl, if_pos rfl, Option.map_some]
        by_cases hname : n = name
        · rw [if_pos hname, if_pos (beq_iff_eq.mpr hname)]
        · rw [if_neg hname, if_neg (fun h => hname (beq_iff_eq.mp h))]
      · rw [if_neg hn, if_neg hn]

/-- A name in a directory after **it was taken out** there. -/
theorem lookup_filter_name (name : String) (entries : List (String × Entry)) :
    (entries.filter (·.1 != name)).lookup name = none := by
  rw [List.lookup_eq_none_iff]
  intro entry hentry
  have hkept := (List.mem_filter.mp hentry).2
  exact bne_iff_ne.mpr (Ne.symm (bne_iff_ne.mp hkept))

/-- What is **taken out** of a tree is not there. -/
theorem find?_set_none (e : Entry) (hplace : place ≠ []) :
    (e.set none place).find? place = none := by
  induction place generalizing e with
  | nil => exact absurd rfl hplace
  | cons name rest ih =>
      cases e with
      | file bytes => cases rest <;> rfl
      | executable what => cases rest <;> rfl
      | directory entries =>
          cases rest with
          | nil => rw [set, find?, lookup_filter_name, Option.bind_none]
          | cons next rest =>
              rw [set, find?, lookup_map_entries]
              · cases entries.lookup name with
                | none => rfl
                | some below =>
                    rw [Option.map_some, Option.bind_some, if_pos rfl]
                    exact ih below (by simp)
              · simp

/-- In a tree with a new directory, there is **nothing else new**. -/
theorem find?_of_set_directory {e : Entry} {place other : List String}
    (h : ((e.set (some (directory [])) place).find? other).isSome) :
    other = place ∨ (e.find? other).isSome := by
  induction place generalizing e other with
  | nil =>
      cases other with
      | nil => exact Or.inl rfl
      | cons name rest => exact absurd h (by simp [set, find?])
  | cons name rest ih =>
      cases other with
      | nil => exact Or.inr rfl
      | cons n more =>
          cases e with
          | file bytes => cases rest <;> exact Or.inr h
          | executable what => cases rest <;> exact Or.inr h
          | directory entries =>
              cases rest with
              | nil =>
                  rw [set, find?, lookup_insertInto] at h
                  by_cases hn : n = name
                  · subst hn
                    rw [if_pos rfl, Option.bind_some] at h
                    cases more with
                    | nil => exact Or.inl rfl
                    | cons _ _ => exact absurd h (by simp [find?])
                  · rw [if_neg hn] at h
                    exact Or.inr h
              | cons next rest =>
                  rw [set, find?, lookup_map_entries] at h
                  · cases hbelow : entries.lookup n with
                    | none => rw [hbelow] at h; exact absurd h (by simp)
                    | some below =>
                        rw [hbelow, Option.map_some, Option.bind_some] at h
                        by_cases hn : n = name
                        · subst hn
                          rw [if_pos rfl] at h
                          rcases ih h with rfl | hthere
                          · exact Or.inl rfl
                          · refine Or.inr ?_
                            rwa [find?, hbelow, Option.bind_some]
                        · rw [if_neg hn] at h
                          refine Or.inr ?_
                          rwa [find?, hbelow, Option.bind_some]
                  · simp

/-- What is put into a directory is **there**. -/
theorem find?_set_some {e : Entry} {front : List String} (h : e.Holds front) (name : String)
    (new : Entry) : (e.set (some new) (front ++ [name])).find? (front ++ [name]) = some new := by
  induction front generalizing e with
  | nil =>
      obtain ⟨entries, hentries⟩ := h
      obtain rfl := Option.some.inj hentries
      rw [List.nil_append, set, find?, lookup_insertInto, if_pos rfl, Option.bind_some, find?]
  | cons first front ih =>
      obtain ⟨entries, hentries⟩ := h
      cases e with
      | file bytes => exact nomatch hentries
      | executable what => exact nomatch hentries
      | directory children =>
          rw [find?] at hentries
          obtain ⟨below, hbelow, hfound⟩ := Option.bind_eq_some_iff.mp hentries
          rw [List.cons_append, set, find?, lookup_map_entries, hbelow, Option.map_some,
            Option.bind_some, if_pos rfl]
          · exact ih ⟨entries, hfound⟩
          · simp

/-- A directory that something is put into **holds that too**. -/
theorem find?_set_above {e : Entry} {front : List String} {entries : List (String × Entry)}
    (h : e.find? front = some (directory entries)) (name : String) (new : Entry) :
    (e.set (some new) (front ++ [name])).find? front =
      some (directory (insertInto name new entries)) := by
  induction front generalizing e with
  | nil =>
      obtain rfl := Option.some.inj h
      rfl
  | cons first front ih =>
      cases e with
      | file bytes => exact nomatch h
      | executable what => exact nomatch h
      | directory children =>
          rw [find?] at h
          obtain ⟨below, hbelow, hfound⟩ := Option.bind_eq_some_iff.mp h
          rw [List.cons_append, set, find?, lookup_map_entries, hbelow, Option.map_some,
            Option.bind_some, if_pos rfl]
          · exact ih hfound
          · simp

/-- In a directory with **one entry**, which is no directory, there is nothing else. -/
theorem find?_of_single {name : String} {e : Entry} (he : e.isDirectory = false)
    {place : List String} (hplace : place ≠ []) (hother : place ≠ [name]) :
    (directory [(name, e)]).find? place = none := by
  cases place with
  | nil => exact absurd rfl hplace
  | cons n more =>
      rw [find?, lookup_cons_eq_ite]
      by_cases hn : n = name
      · rw [if_pos hn, Option.bind_some]
        cases more with
        | nil => exact absurd (congrArg (fun m => [m]) hn) hother
        | cons next more =>
            cases e with
            | directory entries => exact Bool.noConfusion he
            | file bytes => rfl
            | executable what => rfl
      · rw [if_neg hn]
        rfl

/-- A directory **stays** one in a tree with something else, unless that takes its place. -/
theorem Holds.set {e : Entry} {place other : List String} (h : e.Holds other) (new : Entry)
    (hplace : ¬ e.Holds place) : (e.set (some new) place).Holds other := by
  induction place generalizing e other with
  | nil =>
      have hroot : e.Holds ([] ++ other) := h
      exact absurd hroot.of_append hplace
  | cons name rest ih =>
      obtain ⟨entries, hentries⟩ := h
      cases e with
      | file bytes => cases other <;> exact nomatch hentries
      | executable what => cases other <;> exact nomatch hentries
      | directory children =>
          cases other with
          | nil =>
              cases rest with
              | nil => exact ⟨_, rfl⟩
              | cons next rest => exact ⟨_, rfl⟩
          | cons n more =>
              have hholds : (directory children).Holds ([n] ++ more) := ⟨entries, hentries⟩
              rw [find?] at hentries
              obtain ⟨below, hbelow, hfound⟩ := Option.bind_eq_some_iff.mp hentries
              cases rest with
              | nil =>
                  have hn : n ≠ name := by
                    rintro rfl
                    exact hplace hholds.of_append
                  refine ⟨entries, ?_⟩
                  rw [Entry.set, find?, lookup_insertInto, if_neg hn, hbelow, Option.bind_some,
                    hfound]
              | cons next rest =>
                  rw [Holds, Entry.set, find?, lookup_map_entries, hbelow, Option.map_some,
                    Option.bind_some]
                  · by_cases hn : n = name
                    · subst hn
                      rw [Holds, find?, hbelow, Option.bind_some] at hplace
                      rw [if_pos rfl]
                      exact ih ⟨entries, hfound⟩ hplace
                    · rw [if_neg hn]
                      exact ⟨entries, hfound⟩
                  · simp

end Entry

/-! ### Ways -/

namespace Files

variable {f : Files} {start place : List String} {path : String}

/-- The place that a name leads to from a place, if it leads anywhere. -/
def into (place : List String) (name : String) : List String :=
  if name == "." then place
  else if name == ".." then place.dropLast
  else place ++ [name]

/-- The place that names lead to from a place, **if they lead anywhere**. -/
def walk (place names : List String) : List String :=
  names.foldl into place

/-- The way along some names is **open** from a place: there is a directory wherever the way goes
on, and no name is too long. -/
def Open (f : Files) (place names : List String) : Prop :=
  ∀ front name back, names = front ++ name :: back →
    f.root.Holds (walk place front) ∧ name.utf8ByteSize ≤ maxName

/-- A way is open **step by step**. -/
theorem open_cons {name : String} {names : List String} :
    f.Open place (name :: names) ↔
      f.root.Holds place ∧ name.utf8ByteSize ≤ maxName ∧ f.Open (into place name) names := by
  constructor
  · intro h
    obtain ⟨hholds, hsize⟩ := h [] name names rfl
    refine ⟨hholds, hsize, ?_⟩
    rintro front next back rfl
    exact h (name :: front) next back rfl
  · rintro ⟨hholds, hsize, hrest⟩ front next back hnames
    cases front with
    | nil =>
        obtain ⟨rfl, rfl⟩ := List.cons.inj hnames
        exact ⟨hholds, hsize⟩
    | cons first front =>
        obtain ⟨rfl, hback⟩ := List.cons.inj hnames
        exact hrest front next back hback

/-- A way is open if **its two parts** are. -/
theorem open_append {front back : List String} :
    f.Open place (front ++ back) ↔ f.Open place front ∧ f.Open (walk place front) back := by
  induction front generalizing place with
  | nil =>
      constructor
      · intro h
        exact ⟨fun front name back hnames => absurd hnames (by simp), h⟩
      · intro h
        exact h.2
  | cons name front ih =>
      rw [List.cons_append, open_cons, open_cons, ih, and_assoc, and_assoc]
      rfl

/-- The way on along a **dot** is open from a directory. -/
theorem open_dot : f.Open place ["."] ↔ f.root.Holds place := by
  rw [open_cons]
  constructor
  · rintro ⟨hholds, -, -⟩
    exact hholds
  · intro hholds
    exact ⟨hholds, by decide, fun front name back hnames => absurd hnames (by simp)⟩

/-- Names are not followed from what is **no directory**. -/
theorem follow_ne_ok {name : String} {names found : List String} (h : ¬ f.root.Holds place) :
    f.follow place (name :: names) ≠ .ok found := by
  rw [follow]
  cases hfound : f.root.find? place with
  | none => exact nofun
  | some e =>
      cases e with
      | directory entries => exact absurd ⟨entries, hfound⟩ h
      | file bytes => exact nofun
      | executable what => exact nofun

/-- A name is followed **in a directory**, unless it is too long. -/
theorem follow_cons (h : f.root.Holds place) (name : String) (names : List String) :
    f.follow place (name :: names) =
      if maxName < name.utf8ByteSize then .error .nameTooLong
      else f.follow (into place name) names := by
  obtain ⟨entries, hentries⟩ := h
  rw [follow, hentries, into]
  by_cases hdot : (name == ".") = true
  · simp only [hdot, if_true]
  · by_cases hdots : (name == "..") = true
    · simp only [hdot, hdots, if_true, if_false, Bool.false_eq_true]
    · simp only [hdot, hdots, if_false, Bool.false_eq_true]

/-- Names are **followed** along an open way, to where they lead. -/
theorem follow_eq_ok_iff {names found : List String} :
    f.follow place names = .ok found ↔ found = walk place names ∧ f.Open place names := by
  induction names generalizing place with
  | nil =>
      constructor
      · intro h
        refine ⟨(Except.ok.inj h).symm, ?_⟩
        intro front name back hnames
        exact absurd hnames (by simp)
      · rintro ⟨rfl, -⟩
        rfl
  | cons name names ih =>
      rw [open_cons]
      by_cases hholds : f.root.Holds place
      · rw [follow_cons hholds]
        by_cases hsize : maxName < name.utf8ByteSize
        · rw [if_pos hsize]
          constructor
          · intro h
            exact nomatch h
          · rintro ⟨-, -, hle, -⟩
            exact absurd hsize (Nat.not_lt.mpr hle)
        · rw [if_neg hsize, ih]
          constructor
          · rintro ⟨rfl, hopen⟩
            exact ⟨rfl, hholds, Nat.not_lt.mp hsize, hopen⟩
          · rintro ⟨rfl, -, -, hopen⟩
            exact ⟨rfl, hopen⟩
      · constructor
        · intro h
          exact absurd h (follow_ne_ok hholds)
        · rintro ⟨-, hyes, -⟩
          exact absurd hyes hholds

/-! ### Paths -/

/-- The text of a path that **can be used**: neither empty nor too long, and without null
characters. -/
structure Usable (path : String) : Prop where
  /-- It has no null characters. -/
  plain : '\x00' ∉ path.toList
  /-- It is not empty. -/
  nonempty : path ≠ ""
  /-- It is not too long. -/
  short : path.utf8ByteSize ≤ maxPath

/-- Whether a path ends with a slash. -/
def endsWithSlash (path : String) : Bool :=
  path.toList.getLast? == some '/'

/-- The place that a path starts from. -/
def startOf (f : Files) (path : String) : List String :=
  if FilePath.isAbsolute path then [] else f.here

/-- The place that a path leads to, **if it leads anywhere**. -/
def placeOf (f : Files) (path : String) : List String :=
  walk (f.startOf path) (FilePath.names path)

/-- The way along a path is **passable**: its text can be used, the way along its names is open,
and there is a directory at its end if there is a slash. -/
structure Passable (f : Files) (path : String) : Prop where
  /-- Its text can be used. -/
  usable : Usable path
  /-- The way along its names is open. -/
  clear : f.Open (f.startOf path) (FilePath.names path)
  /-- A slash leads to a directory. -/
  slash : endsWithSlash path = true → f.root.Holds (f.placeOf path)

/-- Only a path that **can be used** is located. -/
theorem usable_of_locate {bare : Bool} (h : f.locate bare path = .ok place) : Usable path := by
  rw [locate] at h
  split at h
  · exact nomatch h
  · next hplain =>
    split at h
    · exact nomatch h
    · next hempty =>
      split at h
      · exact nomatch h
      · next hshort =>
        exact ⟨fun hmem => hplain (List.contains_iff_mem.mpr hmem),
          fun heq => hempty (String.isEmpty_iff.mpr heq), Nat.not_lt.mp hshort⟩

/-- A path that can be used is located by **following its names**, and a dot if it has to lead to a
directory. -/
theorem locate_of_usable (h : Usable path) (bare : Bool) :
    f.locate bare path = f.follow (f.startOf path)
      (if (!bare && endsWithSlash path) = true then FilePath.names path ++ ["."]
        else FilePath.names path) := by
  rw [locate, if_neg (fun hmem => h.plain (List.contains_iff_mem.mp hmem)),
    if_neg (fun hempty => h.nonempty (String.isEmpty_iff.mp hempty)),
    if_neg (Nat.not_lt.mpr h.short)]
  rfl

/-- A dot leads to **where it stands**. -/
theorem walk_dot (place names : List String) : walk place (names ++ ["."]) = walk place names := by
  rw [walk, List.foldl_append]
  rfl

/-- A path is **located** along a way that is open, at the place that its names lead to. -/
theorem locate_eq_ok_iff (bare : Bool) :
    f.locate bare path = .ok place ↔ Usable path ∧ place = f.placeOf path ∧
      f.Open (f.startOf path) (FilePath.names path) ∧
        (bare = false → endsWithSlash path = true → f.root.Holds (f.placeOf path)) := by
  by_cases husable : Usable path
  · rw [locate_of_usable husable, follow_eq_ok_iff]
    by_cases hslash : (!bare && endsWithSlash path) = true
    · rw [if_pos hslash, walk_dot, open_append, open_dot]
      obtain ⟨hbare, hends⟩ := Bool.and_eq_true_iff.mp hslash
      constructor
      · rintro ⟨rfl, hopen, hholds⟩
        exact ⟨husable, rfl, hopen, fun _ _ => hholds⟩
      · rintro ⟨-, rfl, hopen, hholds⟩
        exact ⟨rfl, hopen, hholds (by simpa using hbare) hends⟩
    · rw [if_neg hslash]
      constructor
      · rintro ⟨rfl, hopen⟩
        refine ⟨husable, rfl, hopen, fun hbare hends => absurd ?_ hslash⟩
        rw [hbare, hends]
        rfl
      · rintro ⟨-, rfl, hopen, -⟩
        exact ⟨rfl, hopen⟩
  · constructor
    · intro h
      exact absurd (usable_of_locate h) husable
    · rintro ⟨hyes, -⟩
      exact absurd hyes husable

/-- What a path **leads to**, along a way that is passable. -/
theorem stat_eq_ok_iff {e : Entry} :
    f.stat path = .ok (place, e) ↔
      f.Passable path ∧ place = f.placeOf path ∧ f.root.find? place = some e := by
  have hlocate : f.stat path = .ok (place, e) ↔
      f.locate false path = .ok place ∧ f.root.find? place = some e := by
    rw [stat]
    cases hplace : f.locate false path with
    | error err =>
        constructor
        · intro h
          exact nomatch h
        · rintro ⟨h, -⟩
          exact nomatch h
    | ok found =>
        simp only [bind, Except.bind, pure, Except.pure]
        cases hfound : f.root.find? found with
        | none =>
            constructor
            · intro h
              exact nomatch h
            · rintro ⟨h, hsome⟩
              obtain rfl := Except.ok.inj h
              rw [hfound] at hsome
              exact nomatch hsome
        | some there =>
            constructor
            · intro h
              obtain ⟨rfl, rfl⟩ := Prod.mk.inj (Except.ok.inj h)
              exact ⟨rfl, hfound⟩
            · rintro ⟨h, hsome⟩
              obtain rfl := Except.ok.inj h
              rw [hfound] at hsome
              rw [Option.some.inj hsome]
  rw [hlocate, locate_eq_ok_iff]
  constructor
  · rintro ⟨⟨husable, rfl, hopen, hslash⟩, hfound⟩
    exact ⟨⟨husable, hopen, hslash rfl⟩, rfl, hfound⟩
  · rintro ⟨⟨husable, hopen, hslash⟩, rfl, hfound⟩
    exact ⟨⟨husable, rfl, hopen, fun _ => hslash⟩, hfound⟩

/-- A path leads to something if its way is passable and there is something **at its place**. -/
theorem isThere_iff :
    f.isThere path = true ↔ f.Passable path ∧ (f.root.find? (f.placeOf path)).isSome := by
  rw [isThere]
  cases hstat : f.stat path with
  | error err =>
      constructor
      · intro h
        exact Bool.noConfusion h
      · rintro ⟨hpass, hsome⟩
        obtain ⟨e, he⟩ := Option.isSome_iff_exists.mp hsome
        rw [stat_eq_ok_iff.mpr ⟨hpass, rfl, he⟩] at hstat
        exact nomatch hstat
  | ok found =>
      obtain ⟨place, e⟩ := found
      obtain ⟨hpass, rfl, he⟩ := stat_eq_ok_iff.mp hstat
      constructor
      · intro _
        exact ⟨hpass, Option.isSome_iff_exists.mpr ⟨e, he⟩⟩
      · intro _
        rfl

/-- A path leads to a **directory** if the way along its names is open and there is one. -/
theorem isDirectory_iff :
    f.isDirectory path = true ↔ Usable path ∧
      f.Open (f.startOf path) (FilePath.names path) ∧ f.root.Holds (f.placeOf path) := by
  constructor
  · intro h
    rw [isDirectory] at h
    cases hstat : f.stat path with
    | error err => rw [hstat] at h; exact Bool.noConfusion h
    | ok found =>
        obtain ⟨place, e⟩ := found
        rw [hstat] at h
        obtain ⟨hpass, rfl, he⟩ := stat_eq_ok_iff.mp hstat
        cases e with
        | directory entries => exact ⟨hpass.usable, hpass.clear, entries, he⟩
        | file bytes => exact Bool.noConfusion h
        | executable what => exact Bool.noConfusion h
  · rintro ⟨husable, hopen, entries, hentries⟩
    have hstat := stat_eq_ok_iff.mpr ⟨⟨husable, hopen, fun _ => ⟨entries, hentries⟩⟩, rfl, hentries⟩
    rw [isDirectory, hstat]
    rfl

end Files

end CapabilityGate
