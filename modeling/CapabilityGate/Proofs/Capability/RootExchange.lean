import Mathlib.Data.List.TakeWhile
import CapabilityGate.Proofs.Capability.TypeText
import CapabilityGate.Proofs.Resolution.Reexport

/-!
# Descriptors with another root

The roots of the standard library are one root in the normal form of a path. So the text of a
descriptor is read as the same descriptor when the roots of its paths are exchanged, in generic
arguments too.

## Main definitions

* `PathExchanged`, `TypeExchanged`: the texts of paths, and of types, with other roots.
* `Descriptor.TextExchanged`: the texts of descriptors with other roots.

## Main results

* `Descriptor.parse_of_exchanged`: such texts are read as the same descriptor.
-/

namespace CapabilityGate

open Text

/-! ### Paths -/

/-- The texts of two paths are the same but for the **roots of the standard library** that they
start with, perhaps behind `::`. -/
inductive PathExchanged : List Char → List Char → Prop
  | same (p : List Char) : PathExchanged p p
  | root {a b : String} {more : List Char} (ha : a ∈ standardRoots) (hb : b ∈ standardRoots)
      (hmore : more = [] ∨ ∃ rest, more = ':' :: ':' :: rest) :
      PathExchanged (a.toList ++ more) (b.toList ++ more)
  | global {p q : List Char} (h : PathExchanged p q) :
      PathExchanged (':' :: ':' :: p) (':' :: ':' :: q)

/-- The texts of two types are the same but for the **roots of the paths** in them. -/
inductive TypeExchanged : List Char → List Char → Prop
  | nil : TypeExchanged [] []
  | mark {c : Char} {s t : List Char} (hc : TypeName.isPathChar c = false)
      (h : TypeExchanged s t) : TypeExchanged (c :: s) (c :: t)
  | path {p q s t : List Char} (hne : p ≠ []) (hp : ∀ c ∈ p, TypeName.isPathChar c = true)
      (hend : ∀ c ∈ s.head?, TypeName.isPathChar c = false) (hpath : PathExchanged p q)
      (h : TypeExchanged s t) : TypeExchanged (p ++ s) (q ++ t)

namespace PathExchanged

variable {p q : List Char} (h : PathExchanged p q)

include h

/-- Paths with other roots are made of the same kind of characters. -/
theorem isPathChar (hp : ∀ c ∈ p, TypeName.isPathChar c = true) :
    ∀ c ∈ q, TypeName.isPathChar c = true := by
  have hroots : ∀ root ∈ standardRoots, root.toList.all TypeName.isPathChar = true := by decide
  induction h with
  | same p => exact hp
  | root ha hb _ =>
      intro c hc
      rcases List.mem_append.mp hc with hc | hc
      · exact List.all_eq_true.mp (hroots _ hb) c hc
      · exact hp c (List.mem_append_right _ hc)
  | global _ ih =>
      have hcolon : TypeName.isPathChar ':' = true := by decide
      intro c hc
      simp only [List.mem_cons] at hc
      rcases hc with rfl | rfl | hc
      · exact hcolon
      · exact hcolon
      · exact ih (fun c hc => hp c (List.mem_cons_of_mem _ (List.mem_cons_of_mem _ hc))) c hc

/-- A path is not empty **with another root** if it was not before. -/
theorem ne_nil (hne : p ≠ []) : q ≠ [] := by
  have hroots : ∀ root ∈ standardRoots, root.toList ≠ [] := by decide
  cases h with
  | same => exact hne
  | root _ hb _ => exact List.append_ne_nil_of_left_ne_nil (hroots _ hb) _
  | global => exact List.cons_ne_nil _ _

/-- Paths with other roots have **the same standard root**. -/
theorem standardRoot_eq :
    standardRoot (dropLeadingColons p) = standardRoot (dropLeadingColons q) := by
  have hroot : ∀ {a : String} {more : List Char}, a ∈ standardRoots →
      (more = [] ∨ ∃ rest, more = ':' :: ':' :: rest) →
        standardRoot (dropLeadingColons (a.toList ++ more)) = "std".toList ++ more := by
    intro a more ha hmore
    simp only [standardRoots, List.mem_cons, List.not_mem_nil, or_false] at ha
    rcases ha with rfl | rfl | rfl <;> rcases hmore with rfl | ⟨rest, rfl⟩ <;> rfl
  induction h with
  | same p => rfl
  | root ha hb hmore => rw [hroot ha hmore, hroot hb hmore]
  | global _ ih => rw [dropLeadingColons, dropLeadingColons, ih]

end PathExchanged

/-! ### Types -/

theorem rangesApart_alphabetic_blank : rangesApart alphabeticRanges blankRanges = true := by
  decide +kernel

theorem rangesApart_numeric_blank : rangesApart numericRanges blankRanges = true := by
  decide +kernel

/-- A blank is **no character of a path**. -/
theorem isPathChar_eq_false_of_isBlank {c : Char} (h : isBlank c = true) :
    TypeName.isPathChar c = false := by
  have hascii : ∀ n ∈ [32, 9, 10, 11, 12, 13], TypeName.isPathChar (Char.ofNat n) = false := by
    decide
  have hblank := h
  rw [isBlank] at h
  split at h
  next =>
    have hn : c.toNat ∈ [32, 9, 10, 11, 12, 13] := by
      simp only [Bool.or_eq_true, beq_iff_eq, Bool.and_eq_true, decide_eq_true_eq] at h
      simp only [List.mem_cons, List.not_mem_nil, or_false]
      rcases h with rfl | h
      · exact Or.inl rfl
      · omega
    rw [← Char.ofNat_toNat c]
    exact hascii _ hn
  next hwide =>
    have hmark : c ≠ '_' ∧ c ≠ ':' := by
      constructor <;> rintro rfl <;> exact absurd hblank (by decide)
    simp [TypeName.isPathChar, isAlphanumeric, hwide, hmark.1, hmark.2,
      inRanges_eq_false_of_rangesApart rangesApart_alphabetic_blank h,
      inRanges_eq_false_of_rangesApart rangesApart_numeric_blank h]

/-- A character of a path is **not blank**. -/
theorem isBlank_eq_false_of_isPathChar {c : Char} (h : TypeName.isPathChar c = true) :
    isBlank c = false := by
  rw [← Bool.not_eq_true]
  intro hblank
  rw [isPathChar_eq_false_of_isBlank hblank] at h
  exact Bool.noConfusion h

namespace TypeExchanged

variable {s t : List Char} (h : TypeExchanged s t)

include h

/-- Texts that start with no path start with **the same mark**, or are empty. -/
theorem cases_of_mark (hstart : ∀ c ∈ s.head?, TypeName.isPathChar c = false) :
    s = [] ∧ t = [] ∨ ∃ c s' t', s = c :: s' ∧ t = c :: t' ∧ TypeExchanged s' t' := by
  cases h with
  | nil => exact Or.inl ⟨rfl, rfl⟩
  | mark _ h => exact Or.inr ⟨_, _, _, rfl, rfl, h⟩
  | path hne hp _ _ _ =>
      obtain ⟨c, p, rfl⟩ := List.exists_cons_of_ne_nil hne
      have hc := hstart c (by simp)
      rw [hp c (List.mem_cons_self ..)] at hc
      exact Bool.noConfusion hc

/-- The mark that a text starts with **starts the other one** too. -/
theorem head?_eq_iff {c : Char} (hc : TypeName.isPathChar c = false) :
    s.head? = some c ↔ t.head? = some c := by
  have hpath : ∀ {p s : List Char}, p ≠ [] → (∀ d ∈ p, TypeName.isPathChar d = true) →
      (p ++ s).head? ≠ some c := by
    intro p s hne hp hhead
    obtain ⟨d, p, rfl⟩ := List.exists_cons_of_ne_nil hne
    obtain rfl := Option.some.inj hhead
    rw [hp d (List.mem_cons_self ..)] at hc
    exact Bool.noConfusion hc
  cases h with
  | nil => exact Iff.rfl
  | mark => exact Iff.rfl
  | path hne hp hend hexchanged h =>
      exact iff_of_false (hpath hne hp)
        (hpath (hexchanged.ne_nil hne) (hexchanged.isPathChar hp))

/-- A mark stands in both texts **or in neither**. -/
theorem mem_iff {c : Char} (hc : TypeName.isPathChar c = false) : c ∈ s ↔ c ∈ t := by
  have hpath : ∀ {p : List Char}, (∀ d ∈ p, TypeName.isPathChar d = true) → c ∉ p := by
    intro p hp hmem
    rw [hp c hmem] at hc
    exact Bool.noConfusion hc
  induction h with
  | nil => exact Iff.rfl
  | mark _ _ ih =>
      rw [List.mem_cons, List.mem_cons]
      exact or_congr_right ih
  | path hne hp hend hexchanged h ih =>
      rw [List.mem_append, List.mem_append, or_iff_right (hpath hp),
        or_iff_right (hpath (hexchanged.isPathChar hp))]
      exact ih

/-- Roots stay exchanged behind **blanks at the start**. -/
theorem dropBlanks : TypeExchanged (s.dropWhile isBlank) (t.dropWhile isBlank) := by
  have hkept : ∀ {p s : List Char}, p ≠ [] → (∀ c ∈ p, TypeName.isPathChar c = true) →
      (p ++ s).dropWhile isBlank = p ++ s := by
    intro p s hne hp
    obtain ⟨c, p, rfl⟩ := List.exists_cons_of_ne_nil hne
    have hc := isBlank_eq_false_of_isPathChar (hp c (List.mem_cons_self ..))
    rw [List.cons_append, List.dropWhile_cons, hc]
    rfl
  induction h with
  | nil => exact .nil
  | @mark c s t hc h ih =>
      rw [List.dropWhile_cons, List.dropWhile_cons]
      split
      · exact ih
      · exact .mark hc h
  | path hne hp hend hpath h _ =>
      rw [hkept hne hp, hkept (hpath.ne_nil hne) (hpath.isPathChar hp)]
      exact .path hne hp hend hpath h

/-- The paths that texts start with are the same but for their roots, and so is what is behind. -/
theorem span :
    PathExchanged (s.takeWhile TypeName.isPathChar) (t.takeWhile TypeName.isPathChar) ∧
      TypeExchanged (s.dropWhile TypeName.isPathChar) (t.dropWhile TypeName.isPathChar) := by
  have hcut : ∀ {p s : List Char}, (∀ c ∈ p, TypeName.isPathChar c = true) →
      (∀ c ∈ s.head?, TypeName.isPathChar c = false) →
        (p ++ s).takeWhile TypeName.isPathChar = p ∧
          (p ++ s).dropWhile TypeName.isPathChar = s := by
    intro p s hp hs
    rw [List.takeWhile_append_of_pos hp, List.dropWhile_append_of_pos hp]
    cases s with
    | nil => simp
    | cons c s =>
        have hc := hs c rfl
        simp [hc]
  cases h with
  | nil => exact ⟨.same [], .nil⟩
  | mark hc h =>
      rw [List.takeWhile_cons, List.takeWhile_cons, List.dropWhile_cons, List.dropWhile_cons, hc]
      exact ⟨.same [], .mark hc h⟩
  | @path p q s t hne hp hend hpath h =>
      have hend' : ∀ c ∈ t.head?, TypeName.isPathChar c = false := by
        rcases h.cases_of_mark hend with ⟨-, rfl⟩ | ⟨c, s', t', rfl, rfl, -⟩
        · simp
        · exact hend
      obtain ⟨htake, hdrop⟩ := hcut hp hend
      obtain ⟨htake', hdrop'⟩ := hcut (hpath.isPathChar hp) hend'
      rw [htake, htake', hdrop, hdrop']
      exact ⟨hpath, h⟩

/-- Texts with other roots start with **the same path**. -/
theorem pathAt_eq : TypeName.pathAt s = TypeName.pathAt t := by
  have hpath := h.dropBlanks.span.1
  have hblanks : ∀ {p : List Char}, withoutBlanks (p.takeWhile TypeName.isPathChar) =
      p.takeWhile TypeName.isPathChar := by
    intro p
    exact withoutBlanks_of_no_blank fun c hc =>
      isBlank_eq_false_of_isPathChar (List.mem_takeWhile_imp hc)
  rw [TypeName.pathAt, TypeName.pathAt, normalPath, normalPath, String.toList_ofList,
    String.toList_ofList, hblanks, hblanks, hpath.standardRoot_eq]

/-- Roots stay exchanged behind **the path at the start** too. -/
theorem behindPath : TypeExchanged (TypeName.behindPath s) (TypeName.behindPath t) :=
  h.dropBlanks.span.2.dropBlanks

/-- Behind a mark that both texts start with they are **the same but for roots** again. -/
theorem cons_mark {c : Char} (hc : TypeName.isPathChar c = false) {rest : List Char}
    (hs : s = c :: rest) : ∃ more, t = c :: more ∧ TypeExchanged rest more := by
  subst hs
  have hstart : ∀ d ∈ (c :: rest).head?, TypeName.isPathChar d = false := by
    intro d hd
    obtain rfl := Option.some.inj hd
    exact hc
  rcases h.cases_of_mark hstart with ⟨hnil, -⟩ | ⟨d, s', t', hs, ht, hrest⟩
  · exact absurd hnil (List.cons_ne_nil _ _)
  · obtain ⟨rfl, rfl⟩ := List.cons.inj hs
    exact ⟨t', ht, hrest⟩

end TypeExchanged

mutual

/-- A text with other roots starts with **the same type**. -/
theorem TypeName.Reads.exchanged : ∀ {s rest s' : List Char} {t : TypeName}, Reads s t rest →
    TypeExchanged s s' → ∃ rest', Reads s' t rest' ∧ TypeExchanged rest rest'
  | s, _, s', _, .bare hpath hopen, h => by
    have hbehind := h.behindPath
    rw [h.pathAt_eq] at hpath ⊢
    rw [Ne, hbehind.head?_eq_iff (by decide)] at hopen
    exact ⟨behindPath s', .bare hpath hopen, hbehind⟩
  | s, _, s', _, .applied hpath hopen hargs, h => by
    obtain ⟨more, hmore, hrest⟩ := h.behindPath.cons_mark (by decide) hopen
    obtain ⟨rest', hargs', hrest'⟩ := hargs.exchanged hrest
    rw [h.pathAt_eq] at hpath ⊢
    exact ⟨rest', .applied hpath hmore hargs', hrest'⟩

/-- A text with other roots starts with the same arguments. -/
theorem TypeName.ReadsArgs.exchanged : ∀ {s rest s' : List Char} {args : List TypeName},
    ReadsArgs s args rest → TypeExchanged s s' →
      ∃ rest', ReadsArgs s' args rest' ∧ TypeExchanged rest rest'
  | _, _, _, _, .last h hclose, hs => by
    obtain ⟨middle, hreads, hmiddle⟩ := h.exchanged hs
    obtain ⟨rest', hclose', hrest⟩ := hmiddle.dropBlanks.cons_mark (by decide) hclose
    exact ⟨rest', .last hreads hclose', hrest⟩
  | _, _, _, _, .more h hcomma hargs, hs => by
    obtain ⟨middle, hreads, hmiddle⟩ := h.exchanged hs
    obtain ⟨next, hcomma', hnext⟩ := hmiddle.dropBlanks.cons_mark (by decide) hcomma
    obtain ⟨rest', hargs', hrest⟩ := hargs.exchanged hnext
    exact ⟨rest', .more hreads hcomma' hargs', hrest⟩

end

/-- A text with other roots is **parsed as the same type**. -/
theorem TypeName.parse_of_exchanged {text other : String} {t : TypeName}
    (h : TypeExchanged text.toList other.toList) (hparse : parse text = .ok t) :
    parse other = .ok t := by
  obtain ⟨rest, hreads, hend⟩ := parse_eq_ok_iff.mp hparse
  obtain ⟨rest', hreads', hrest⟩ := hreads.exchanged h
  have hblanks := hrest.dropBlanks
  rw [hend] at hblanks
  refine parse_eq_ok_iff.mpr ⟨rest', hreads', ?_⟩
  rcases hblanks.cases_of_mark (by simp) with ⟨-, hnil⟩ | ⟨_, _, _, hcons, -, -⟩
  · exact hnil
  · exact absurd hcons.symm (List.cons_ne_nil _ _)

/-! ### Descriptors -/

namespace Descriptor

/-- The texts of two descriptors are the same but for the **roots of the paths** in their types. -/
inductive TextExchanged : String → String → Prop
  | type {text other : String} (hhash : '#' ∉ text.toList)
      (h : TypeExchanged text.toList other.toList) : TextExchanged text other
  | method {s t method : List Char} (hhash : '#' ∉ method) (h : TypeExchanged s t) :
      TextExchanged (String.ofList (s ++ '#' :: method)) (String.ofList (t ++ '#' :: method))

/-- A text without `#` is not cut. -/
theorem cutLastHash_eq_none {s : List Char} (h : '#' ∉ s) : cutLastHash s = none := by
  have hnil : s.reverse.dropWhile (· != '#') = [] := by
    rw [List.dropWhile_eq_nil_iff]
    intro c hc
    rw [bne_iff_ne]
    rintro rfl
    exact h (List.mem_reverse.mp hc)
  rw [cutLastHash, hnil]

/-- A text is cut at the `#` that **no other one** follows. -/
theorem cutLastHash_append {s method : List Char} (h : '#' ∉ method) :
    cutLastHash (s ++ '#' :: method) = some (s, method) := by
  have hbehind : ∀ c ∈ method.reverse, (c != '#') = true := by
    intro c hc
    rw [bne_iff_ne]
    rintro rfl
    exact h (List.mem_reverse.mp hc)
  have hreverse : (s ++ '#' :: method).reverse = method.reverse ++ '#' :: s.reverse := by simp
  rw [cutLastHash, hreverse, List.dropWhile_append_of_pos hbehind,
    List.takeWhile_append_of_pos hbehind]
  simp

/-- A text with other roots is **parsed as the same descriptor**. -/
theorem parse_of_exchanged {text other : String} {d : Descriptor} (h : TextExchanged text other)
    (hparse : parse text = .ok d) : parse other = .ok d := by
  have hmap : ∀ {text other : String} {f : TypeName → Descriptor},
      TypeExchanged text.toList other.toList → (TypeName.parse text).map f = .ok d →
        (TypeName.parse other).map f = .ok d := by
    intro text other f h hparse
    cases ht : TypeName.parse text with
    | error e =>
        rw [ht] at hparse
        cases hparse
    | ok t =>
        rw [ht] at hparse
        rw [TypeName.parse_of_exchanged h ht]
        exact hparse
  cases h with
  | type hhash h =>
      have hhash' : '#' ∉ other.toList := fun hmem => hhash ((h.mem_iff (by decide)).mpr hmem)
      rw [parse, cutLastHash_eq_none hhash] at hparse
      rw [parse, cutLastHash_eq_none hhash']
      exact hmap h hparse
  | @method s t method hhash h =>
      rw [parse, String.toList_ofList, cutLastHash_append hhash] at hparse
      rw [parse, String.toList_ofList, cutLastHash_append hhash]
      dsimp only at hparse ⊢
      split at hparse
      next hname =>
        rw [if_pos hname]
        refine hmap ?_ hparse
        rw [String.toList_ofList, String.toList_ofList]
        exact h
      next => cases hparse

end Descriptor

end CapabilityGate
