import CapabilityGate.Files.Path

/-!
# The names in a path

The names in a path are those before a slash and those behind it. So a path below another one has
the names of that one first, and the path without its last component has some of the first names.

## Main definitions

* `FilePath.Cut`: a text is cut beside a slash.

## Main results

* `FilePath.names_of_cut`: the names in a text that is cut.
* `FilePath.names_join`: the names in a path below another one.
* `FilePath.names_of_parent`: the names in a path without its last component.
* `FilePath.components_ending`: the last component of a path has what the path ends with.
-/

namespace CapabilityGate.FilePath

variable {front back : List Char}

/-! ### Cut texts -/

/-- The pieces between slashes are those before a slash and those **behind it**. -/
theorem splitSlashes_append (acc front back : List Char) :
    splitSlashes acc (front ++ '/' :: back) = splitSlashes acc front ++ splitSlashes [] back := by
  induction front generalizing acc with
  | nil => rfl
  | cons c front ih =>
      rw [List.cons_append, splitSlashes, splitSlashes]
      by_cases hc : (c == '/') = true
      · rw [if_pos hc, if_pos hc, ih, List.cons_append]
      · rw [if_neg hc, if_neg hc, ih]

/-- The names before and behind a slash. -/
theorem names_append_slash (front back : List Char) :
    names (String.ofList (front ++ '/' :: back)) =
      names (String.ofList front) ++ names (String.ofList back) := by
  simp only [names, String.toList_ofList, splitSlashes_append, List.filter_append, List.map_append]

/-- There are no names in an empty text. -/
@[simp]
theorem names_empty : names (String.ofList []) = [] :=
  rfl

/-- A text is **cut beside a slash**, or at its end. -/
def Cut (front back : List Char) : Prop :=
  back = [] ∨ back.head? = some '/' ∨ front.getLast? = some '/'

/-- The names in a text that is **cut** beside a slash. -/
theorem names_of_cut (h : Cut front back) :
    names (String.ofList (front ++ back)) =
      names (String.ofList front) ++ names (String.ofList back) := by
  rcases h with rfl | hback | hfront
  · rw [List.append_nil, names_empty, List.append_nil]
  · obtain ⟨rest, rfl⟩ := List.head?_eq_some_iff.mp hback
    have hslash := names_append_slash [] rest
    rw [List.nil_append, names_empty, List.nil_append] at hslash
    rw [names_append_slash, hslash]
  · obtain ⟨init, rfl⟩ := List.getLast?_eq_some_iff.mp hfront
    rw [List.append_assoc, List.singleton_append, names_append_slash, names_append_slash,
      names_empty, List.append_nil]

/-- A character that is no slash is in one of the **pieces**. -/
theorem exists_mem_splitSlashes {c : Char} {cs : List Char} (hc : c ≠ '/') (acc : List Char)
    (h : c ∈ acc ∨ c ∈ cs) : ∃ piece ∈ splitSlashes acc cs, c ∈ piece := by
  induction cs generalizing acc with
  | nil =>
      have hacc : c ∈ acc := h.resolve_right List.not_mem_nil
      exact ⟨acc.reverse, List.mem_singleton_self _, List.mem_reverse.mpr hacc⟩
  | cons d cs ih =>
      rw [splitSlashes]
      by_cases hd : (d == '/') = true
      · rw [if_pos hd]
        rcases h with hacc | hmem
        · exact ⟨acc.reverse, List.mem_cons_self, List.mem_reverse.mpr hacc⟩
        · have hrest : c ∈ cs := by
            rcases List.mem_cons.mp hmem with rfl | hrest
            · exact absurd (beq_iff_eq.mp hd) hc
            · exact hrest
          obtain ⟨piece, hpiece, hin⟩ := ih [] (Or.inr hrest)
          exact ⟨piece, List.mem_cons_of_mem _ hpiece, hin⟩
      · rw [if_neg hd]
        refine ih (d :: acc) ?_
        rcases h with hacc | hmem
        · exact Or.inl (List.mem_cons_of_mem _ hacc)
        · rcases List.mem_cons.mp hmem with rfl | hrest
          · exact Or.inl List.mem_cons_self
          · exact Or.inr hrest

/-- A path with a character that is no slash has a **name**. -/
theorem names_ne_nil {path : String} {c : Char} (hc : c ≠ '/') (h : c ∈ path.toList) :
    names path ≠ [] := by
  obtain ⟨piece, hpiece, hin⟩ := exists_mem_splitSlashes hc [] (Or.inr h)
  have hkept : piece ∈ (splitSlashes [] path.toList).filter (!·.isEmpty) := by
    rw [List.mem_filter]
    refine ⟨hpiece, ?_⟩
    cases piece with
    | nil => exact absurd hin List.not_mem_nil
    | cons _ _ => rfl
  exact List.ne_nil_of_mem (List.mem_map_of_mem hkept)

/-- A text without slashes is one piece. -/
theorem splitSlashes_of_no_slash {cs : List Char} (h : '/' ∉ cs) (acc : List Char) :
    splitSlashes acc cs = [acc.reverse ++ cs] := by
  induction cs generalizing acc with
  | nil => rw [splitSlashes, List.append_nil]
  | cons c cs ih =>
      have hcs : '/' ∉ cs := fun hmem => h (List.mem_cons_of_mem _ hmem)
      have hne : ¬ (c == '/') = true := by
        intro heq
        obtain rfl := beq_iff_eq.mp heq
        exact h List.mem_cons_self
      rw [splitSlashes, if_neg hne, ih hcs, List.reverse_cons, List.append_assoc,
        List.singleton_append]

/-- A text without slashes that is not empty is **one name**. -/
theorem names_of_no_slash {name : String} (h : '/' ∉ name.toList) (hne : name.toList ≠ []) :
    names name = [name] := by
  have hkept : [name.toList].filter (!·.isEmpty) = [name.toList] := by
    refine List.filter_cons_of_pos ?_
    cases hcs : name.toList with
    | nil => exact absurd hcs hne
    | cons _ _ => rfl
  rw [names, splitSlashes_of_no_slash h, List.reverse_nil, List.nil_append, hkept,
    List.map_singleton, String.ofList_toList]

/-! ### Paths below others -/

/-- A path below another one is the name alone, or both with **one slash** between them. -/
theorem join_cases (base : String) {name : String} (h : isAbsolute name = false) :
    base = "" ∧ join base name = name ∨
      base ≠ "" ∧ base.toList.getLast? = some '/' ∧ join base name = base ++ name ∨
        base ≠ "" ∧ join base name = base ++ "/" ++ name := by
  rw [join, h, Bool.false_or]
  by_cases hbase : base = ""
  · rw [if_pos (String.isEmpty_iff.mpr hbase)]
    exact Or.inl ⟨hbase, rfl⟩
  · rw [if_neg (fun hempty => hbase (String.isEmpty_iff.mp hempty))]
    by_cases hslash : (base.toList.getLast? == some '/') = true
    · rw [if_pos hslash]
      exact Or.inr (Or.inl ⟨hbase, beq_iff_eq.mp hslash, rfl⟩)
    · rw [if_neg hslash]
      exact Or.inr (Or.inr ⟨hbase, rfl⟩)

/-- The names in a path below another one are **those in that one**, and its own. -/
theorem names_join {base name : String} (h : isAbsolute name = false) :
    names (join base name) = names base ++ names name := by
  rcases join_cases base h with ⟨rfl, hjoin⟩ | ⟨-, hlast, hjoin⟩ | ⟨-, hjoin⟩
  · rw [hjoin]
    rfl
  · have hbeside : Cut base.toList name.toList := Or.inr (Or.inr hlast)
    have hcut := names_of_cut hbeside
    rwa [← String.toList_append, String.ofList_toList, String.ofList_toList,
      String.ofList_toList, ← hjoin] at hcut
  · have hcut := names_append_slash base.toList name.toList
    rw [String.ofList_toList, String.ofList_toList] at hcut
    have htext : String.ofList (base.toList ++ '/' :: name.toList) = base ++ "/" ++ name := by
      rw [← String.toList_inj, String.toList_ofList, String.toList_append, String.toList_append,
        List.append_assoc]
      rfl
    rw [hjoin, ← htext, hcut]

/-- A path below another one starts where **that one** starts. -/
theorem isAbsolute_join {base name : String} (h : isAbsolute name = false) :
    isAbsolute (join base name) = isAbsolute base := by
  have hhead : ∀ {rest : String}, base ≠ "" →
      isAbsolute (base ++ rest) = isAbsolute base := by
    intro rest hne
    rw [isAbsolute, isAbsolute, String.toList_append]
    cases hcs : base.toList with
    | nil => exact absurd (String.toList_eq_nil_iff.mp hcs) hne
    | cons c cs => rfl
  rcases join_cases base h with ⟨rfl, hjoin⟩ | ⟨hne, -, hjoin⟩ | ⟨hne, hjoin⟩
  · rw [hjoin, h]
    rfl
  · rw [hjoin, hhead hne]
  · rw [hjoin, String.append_assoc, hhead hne]

/-- A path is **as long** as another one above it, at least, and has its characters. -/
theorem exists_join (base : String) {name : String} (h : isAbsolute name = false) :
    ∃ rest, join base name = base ++ rest := by
  rcases join_cases base h with ⟨rfl, hjoin⟩ | ⟨-, -, hjoin⟩ | ⟨-, hjoin⟩
  · exact ⟨name, by rw [hjoin, String.empty_append]⟩
  · exact ⟨name, hjoin⟩
  · exact ⟨"/" ++ name, by rw [hjoin, String.append_assoc]⟩

/-! ### Paths above others -/

/-- Still more is cut off a text **beside a slash**, if it is when nothing else is. -/
theorem Cut.append {more : List Char} (h : Cut front back) (hmore : back = [] → Cut front more) :
    Cut front (back ++ more) := by
  rcases h with rfl | hback | hfront
  · exact hmore rfl
  · obtain ⟨rest, rfl⟩ := List.head?_eq_some_iff.mp hback
    exact Or.inr (Or.inl rfl)
  · exact Or.inr (Or.inr hfront)

/-- What is trimmed from a text that is read backwards is cut off **beside a slash**. -/
theorem trimBackwards_cut (s : List Char) :
    ∃ cut, s = cut ++ trimBackwards s ∧ Cut (trimBackwards s).reverse cut.reverse := by
  induction s using trimBackwards.induct with
  | case1 rest hall =>
      have hslashes : rest = List.replicate rest.length '/' := by
        refine List.eq_replicate_iff.mpr ⟨rfl, fun c hc => ?_⟩
        exact beq_iff_eq.mp (List.all_eq_true.mp hall c hc)
      have htrim : trimBackwards ('/' :: rest) = ['/'] := by rw [trimBackwards, if_pos hall]
      rw [htrim]
      refine ⟨rest, ?_, Or.inr (Or.inr rfl)⟩
      rw [hslashes, ← List.replicate_succ, List.replicate_succ']
  | case2 rest hall ih =>
      obtain ⟨cut, hcut, hbeside⟩ := ih
      have htrim : trimBackwards ('/' :: rest) = trimBackwards rest := by
        rw [trimBackwards, if_neg hall]
      rw [htrim]
      refine ⟨'/' :: cut, by rw [List.cons_append, ← hcut], ?_⟩
      rw [List.reverse_cons]
      exact hbeside.append fun _ => Or.inr (Or.inl rfl)
  | case3 rest hempty =>
      obtain rfl := List.isEmpty_iff.mp hempty
      exact ⟨['.'], rfl, Or.inr (Or.inr rfl)⟩
  | case4 rest hempty ih =>
      obtain ⟨cut, hcut, hbeside⟩ := ih
      have htrim : trimBackwards ('.' :: '/' :: rest) = trimBackwards ('/' :: rest) :=
        (trimBackwards.eq_2 rest).trans (if_neg hempty)
      rw [htrim]
      refine ⟨'.' :: cut, by rw [List.cons_append, ← hcut], ?_⟩
      rw [List.reverse_cons]
      refine hbeside.append fun hnil => Or.inr (Or.inr ?_)
      rw [List.reverse_eq_nil_iff.mp hnil, List.nil_append] at hcut
      rw [← hcut, List.getLast?_reverse, List.head?_cons]
  | case5 s h1 h2 =>
      have htrim : trimBackwards s = s := by
        rw [trimBackwards]
        · exact h1
        · exact h2
      exact ⟨[], by rw [htrim, List.nil_append], Or.inl rfl⟩

/-- The path without its last component is empty, or is cut off the path **beside a slash**. -/
theorem cut_of_parent {path above : String} (h : parent? path = some above) :
    above = "" ∨ ∃ rest, path.toList = above.toList ++ rest ∧ Cut above.toList rest := by
  cases hrev : path.toList.reverse with
  | nil => rw [parent?, hrev] at h; exact nomatch h
  | cons d ds =>
      obtain ⟨trimmed, htrimmed, -⟩ := trimBackwards_cut (d :: ds)
      simp only [parent?, hrev] at h
      generalize trimBackwards (d :: ds) = backwards at h htrimmed
      have hsplit := List.takeWhile_append_dropWhile (p := (· != '/')) (l := backwards)
      have hslash := List.head?_dropWhile_not (· != '/') backwards
      generalize backwards.takeWhile (· != '/') = last at hsplit
      generalize backwards.dropWhile (· != '/') = found at h hsplit hslash
      split at h
      · exact nomatch h
      · cases found with
        | nil => exact Or.inl (Option.some.inj h).symm
        | cons c cs =>
            obtain rfl : c = '/' := by simpa using hslash
            obtain ⟨cut, hcut, hbeside⟩ := trimBackwards_cut ('/' :: cs)
            obtain rfl := Option.some.inj h
            rw [String.toList_ofList]
            refine Or.inr ⟨cut.reverse ++ (trimmed ++ last).reverse, ?_, ?_⟩
            · rw [← List.append_assoc, ← List.reverse_append, ← hcut, ← List.reverse_append,
                List.append_assoc, hsplit, ← htrimmed, ← hrev, List.reverse_reverse]
            · refine hbeside.append fun hnil => Or.inr (Or.inr ?_)
              rw [List.reverse_eq_nil_iff.mp hnil, List.nil_append] at hcut
              rw [← hcut, List.getLast?_reverse, List.head?_cons]

/-- The path without its last component has **some of the first names**, and starts where the path
starts, unless it is empty. -/
theorem names_of_parent {path above : String} (h : parent? path = some above) :
    above = "" ∨
      (∃ rest, names path = names above ++ rest) ∧ isAbsolute above = isAbsolute path := by
  rcases cut_of_parent h with hempty | ⟨rest, hpath, hcut⟩
  · exact Or.inl hempty
  · by_cases hempty : above = ""
    · exact Or.inl hempty
    · refine Or.inr ⟨⟨names (String.ofList rest), ?_⟩, ?_⟩
      · have hnames := names_of_cut hcut
        rwa [← hpath, String.ofList_toList, String.ofList_toList] at hnames
      · rw [isAbsolute, isAbsolute, hpath]
        cases hcs : above.toList with
        | nil => exact absurd (String.toList_eq_nil_iff.mp hcs) hempty
        | cons c cs => rfl

/-! ### The last name -/

/-- A text that ends without a slash has that end **in its last piece**. -/
theorem splitSlashes_ending {back : List Char} (h : '/' ∉ back) (front acc : List Char) :
    ∃ init piece, splitSlashes acc (front ++ back) = init ++ [piece ++ back] := by
  induction front generalizing acc with
  | nil => exact ⟨[], acc.reverse, splitSlashes_of_no_slash h acc⟩
  | cons c front ih =>
      rw [List.cons_append, splitSlashes]
      by_cases hc : (c == '/') = true
      · obtain ⟨init, piece, heq⟩ := ih []
        exact ⟨acc.reverse :: init, piece, by rw [if_pos hc, heq, List.cons_append]⟩
      · rw [if_neg hc]
        exact ih (c :: acc)

/-- The **last component** of a path is its last name, unless that is made up of dots. -/
theorem components_of_names {path name : String} {init : List String}
    (h : names path = init ++ [name]) (hname : Component.ofName name = .name name) :
    ∃ before, components path = before ++ [.name name] := by
  have hkept : ∀ all : List Component,
      (all ++ [Component.name name]).filter (· ≠ .here) =
        all.filter (· ≠ .here) ++ [.name name] :=
    fun all => List.filter_append all [.name name]
  rw [components, h, List.map_append, List.map_singleton, hname]
  generalize init.map Component.ofName = before
  split
  · exact ⟨.root :: before.filter (· ≠ .here), congrArg (Component.root :: ·) (hkept before)⟩
  · cases before with
    | nil => exact ⟨[], rfl⟩
    | cons first rest =>
        cases first with
        | here =>
            exact ⟨.here :: rest.filter (· ≠ .here), congrArg (Component.here :: ·) (hkept rest)⟩
        | root => exact ⟨_, hkept (.root :: rest)⟩
        | up => exact ⟨_, hkept (.up :: rest)⟩
        | name text => exact ⟨_, hkept (.name text :: rest)⟩

/-- A path that ends without a slash has that end **in its last component**, unless it is made up of
dots. -/
theorem components_ending {path : String} {front back : List Char}
    (hpath : path.toList = front ++ back) (hslash : '/' ∉ back)
    (hname : ∃ c ∈ back, c ≠ '.') :
    ∃ before piece, components path = before ++ [.name (String.ofList (piece ++ back))] := by
  obtain ⟨init, piece, hpieces⟩ := splitSlashes_ending hslash front []
  obtain ⟨c, hc, hdot⟩ := hname
  have hmem : c ∈ piece ++ back := List.mem_append_right piece hc
  have hnames : names path =
      (init.filter (!·.isEmpty)).map String.ofList ++ [String.ofList (piece ++ back)] := by
    have hkept : [piece ++ back].filter (!·.isEmpty) = [piece ++ back] :=
      List.filter_cons_of_pos (by simpa using List.ne_nil_of_mem hmem)
    rw [names, hpath, hpieces, List.filter_append, hkept, List.map_append, List.map_singleton]
  have hother : ∀ dots : String, (∀ d ∈ dots.toList, d = '.') →
      ¬ (String.ofList (piece ++ back) == dots) = true := by
    intro dots hdots heq
    obtain rfl := beq_iff_eq.mp heq
    exact hdot (hdots c (by rwa [String.toList_ofList]))
  obtain ⟨before, hcomponents⟩ := components_of_names hnames (by
    rw [Component.ofName, if_neg (hother ".." (by simp)), if_neg (hother "." (by simp))])
  exact ⟨before, piece, hcomponents⟩

end CapabilityGate.FilePath
