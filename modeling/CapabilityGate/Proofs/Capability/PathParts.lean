import CapabilityGate.Proofs.Capability.PathText

/-!
# Cutting paths and joining them

A path is cut at each `::` from the left. Joining what it is cut into gives the path back, and
cutting what parts spell gives the parts back.

## Main results

* `joinPath_splitPath`: a path that is cut and joined is what it was.
* `splitPath_joinPath`: so are parts that are joined and cut.
* `splitPath_normalPath_joinPath`: the names of the normal form of a path that parts spell.
-/

namespace CapabilityGate

open Text Program

/-! ### Cutting -/

/-- A path is not cut **within a part**: what is cut off first is the part. -/
theorem splitColons_append_colons {s : List Char} (h : colonsApart s = true)
    (acc rest : List Char) :
    splitColons acc (s ++ ':' :: ':' :: rest) = (acc.reverse ++ s) :: splitColons [] rest := by
  induction s generalizing acc with
  | nil => rw [List.nil_append, List.append_nil, splitColons]
  | cons c more ih =>
      have hmore : colonsApart more = true := colonsApart_of_append (s := [c]) h
      rw [List.cons_append, splitColons, ih hmore, List.reverse_cons, List.append_assoc,
        List.singleton_append]
      exact fun t hc ht => ne_colons_of_colonsApart h _ t (by rw [List.cons_append, hc, ht])

/-- A part that stands alone is **not cut** at all. -/
theorem splitColons_of_colonsApart {s : List Char} (h : colonsApart s = true) (acc : List Char) :
    splitColons acc s = [acc.reverse ++ s] := by
  induction s generalizing acc with
  | nil => rw [splitColons, List.append_nil]
  | cons c more ih =>
      have hmore : colonsApart more = true := colonsApart_of_append (s := [c]) h
      rw [splitColons, ih hmore, List.reverse_cons, List.append_assoc, List.singleton_append]
      exact fun t hc ht => ne_colons_of_colonsApart h [] t (by rw [List.append_nil, hc, ht])

/-- Parts that are joined and cut **are what they were**. -/
theorem splitPath_joinPath {first : String} {rest : List String}
    (hparts : ∀ n ∈ first :: rest, isPart n = true) :
    splitPath (joinPath (first :: rest)) = first :: rest := by
  have hapart : ∀ n ∈ first :: rest, colonsApart n.toList = true := fun n hn =>
    (isPart_iff.mp (hparts n hn)).2
  clear hparts
  rw [splitPath, toList_joinPath_cons]
  induction rest generalizing first with
  | nil =>
      rw [tailChars_nil, List.append_nil,
        splitColons_of_colonsApart (hapart first (List.mem_cons_self ..))]
      simp
  | cons second rest ih =>
      rw [tailChars_cons, splitColons_append_colons (hapart first (List.mem_cons_self ..)),
        List.map_cons, ih fun n hn => hapart n (List.mem_cons_of_mem _ hn)]
      simp

/-- What stands behind a first name that holds together is cut **in one way**, whatever the name. -/
theorem exists_splitPath_append {more : List Char}
    (hmore : more = [] ∨ ∃ rest, more = ':' :: ':' :: rest) :
    ∃ names : List String, ∀ first : String, colonsApart first.toList = true →
      splitPath (String.ofList (first.toList ++ more)) = first :: names := by
  rcases hmore with rfl | ⟨rest, rfl⟩
  · refine ⟨[], fun first hfirst => ?_⟩
    rw [splitPath, String.toList_ofList, List.append_nil, splitColons_of_colonsApart hfirst]
    simp
  · refine ⟨(splitColons [] rest).map String.ofList, fun first hfirst => ?_⟩
    rw [splitPath, String.toList_ofList, splitColons_append_colons hfirst]
    simp

/-- The characters that a cut text is joined from. -/
theorem toList_joinPath_splitColons (acc s : List Char) :
    (joinPath ((splitColons acc s).map String.ofList)).toList = acc.reverse ++ s := by
  fun_induction splitColons acc s with
  | case1 acc rest ih =>
      obtain ⟨second, more, hcons⟩ := List.exists_cons_of_ne_nil (splitColons_ne_nil [] rest)
      rw [hcons, List.map_cons, toList_joinPath_cons] at ih
      rw [hcons, List.map_cons, List.map_cons, toList_joinPath_cons, tailChars_cons, ih]
      simp
  | case2 acc c rest _ ih =>
      rw [ih, List.reverse_cons, List.append_assoc, List.singleton_append]
  | case3 acc => simp [joinPath]

/-- A path that is cut and joined **is what it was**. -/
theorem joinPath_splitPath (path : String) : joinPath (splitPath path) = path := by
  refine String.toList_inj.mp ?_
  rw [splitPath, toList_joinPath_splitColons, List.reverse_nil, List.nil_append]

/-- A path is spelled by the names that it is cut into. -/
theorem toList_eq_of_splitPath {path first : String} {rest : List String}
    (h : splitPath path = first :: rest) : path.toList = first.toList ++ tailChars rest := by
  rw [← joinPath_splitPath path, h, toList_joinPath_cons]

theorem splitPath_injective {p q : String} (h : splitPath p = splitPath q) : p = q := by
  rw [← joinPath_splitPath p, h, joinPath_splitPath]

/-- The text of a path with one more name. -/
theorem joinPath_concat {names : List String} (hne : names ≠ []) (last : String) :
    joinPath (names ++ [last]) = joinPath names ++ "::" ++ last := by
  obtain ⟨first, rest, rfl⟩ := List.exists_cons_of_ne_nil hne
  have hcolons : "::".toList = [':', ':'] := by decide
  refine String.toList_inj.mp ?_
  rw [List.cons_append, toList_joinPath_cons, String.toList_append, String.toList_append,
    toList_joinPath_cons, hcolons]
  simp [tailChars]

/-- A path whose first name is empty starts with two colons, which its normal form **drops**. -/
theorem normalPath_joinPath_empty (second : String) (rest : List String) :
    normalPath (joinPath ("" :: second :: rest)) = normalPath (joinPath (second :: rest)) := by
  have hcolon : isBlank ':' = false := by decide
  have hchars : (joinPath ("" :: second :: rest)).toList =
      ':' :: ':' :: (joinPath (second :: rest)).toList := by
    rw [toList_joinPath_cons, tailChars_cons, toList_joinPath_cons]
    rfl
  have hblanks : withoutBlanks (':' :: ':' :: (joinPath (second :: rest)).toList) =
      ':' :: ':' :: withoutBlanks (joinPath (second :: rest)).toList := by
    simp [withoutBlanks, hcolon]
  rw [normalPath, normalPath, hchars, hblanks, dropLeadingColons]

/-- The names of the normal form of a path that **parts spell**: the parts, without the empty ones
at the start, and with the standard root. -/
theorem splitPath_normalPath_joinPath {names : List String} (hne : names ≠ [])
    (hparts : ∀ n ∈ names, isPart n = true) :
    splitPath (normalPath (joinPath names)) =
      match names.dropWhile (· == "") with
      | [] => [""]
      | first :: rest => standardName first :: rest := by
  induction names with
  | nil => exact absurd rfl hne
  | cons first rest ih =>
      by_cases hfirst : first = ""
      · subst hfirst
        cases rest with
        | nil => rfl
        | cons second more =>
            rw [normalPath_joinPath_empty]
            exact ih (List.cons_ne_nil _ _) fun n hn => hparts n (List.mem_cons_of_mem _ hn)
      · have hchars : first.toList ≠ [] := fun h => hfirst (String.toList_inj.mp h)
        have hkept : (first :: rest).dropWhile (· == "") = first :: rest := by
          simp [hfirst]
        rw [hkept, normalPath_joinPath_of_parts hparts hchars]
        refine splitPath_joinPath fun n hn => ?_
        rcases List.mem_cons.mp hn with rfl | hrest
        · rw [standardName]
          split
          · decide
          · exact hparts first (List.mem_cons_self ..)
        · exact hparts n (List.mem_cons_of_mem _ hrest)

end CapabilityGate
