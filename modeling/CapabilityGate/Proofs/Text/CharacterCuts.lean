import CapabilityGate.Proofs.Text.Utf8Reading

/-!
# Cuts inside characters

The bytes of a text can be cut between two characters, or inside one. The bytes between two cuts
are read as a part of the text if neither cut falls inside a character, and otherwise there is a
replacement character in what is read. Behind a line feed a cut never falls inside a character.

## Main definitions

* `Text.CutsApart`: a cut falls between two characters.

## Main results

* `Text.exists_cut`: a cut falls between two characters or inside one.
* `Text.cutsApart_of_endsLine`: behind a line feed no character is cut.
* `Text.exists_between`: what is between two cuts, neither of which falls inside a character.
* `Text.replacement_mem_between_iff`: when a text is garbled between two cuts.
-/

namespace CapabilityGate.Text

variable {s : String} {front back p : List UInt8}

/-- A cut behind some bytes of a text **falls between two characters** of it. -/
def CutsApart (s : String) (front : List UInt8) : Prop :=
  String.Pos.Raw.IsValid s ⟨front.length⟩

/-- The bytes of characters that are **cut in two** are those of the characters in front and behind,
or one character is cut itself. -/
theorem exists_cut {cs : List Char} (h : cs.flatMap String.utf8EncodeChar = front ++ back) :
    (∃ before behind, cs = before ++ behind ∧ front = before.flatMap String.utf8EncodeChar ∧
      back = behind.flatMap String.utf8EncodeChar) ∨
    ∃ before c behind start rest, cs = before ++ c :: behind ∧
      String.utf8EncodeChar c = start ++ rest ∧ start ≠ [] ∧ rest ≠ [] ∧
      front = before.flatMap String.utf8EncodeChar ++ start ∧
      back = rest ++ behind.flatMap String.utf8EncodeChar := by
  induction cs generalizing front with
  | nil =>
      obtain ⟨rfl, rfl⟩ := List.append_eq_nil_iff.mp h.symm
      exact Or.inl ⟨[], [], rfl, rfl, rfl⟩
  | cons c cs ih =>
      rw [List.flatMap_cons] at h
      rcases List.append_eq_append_iff.mp h with ⟨more, rfl, hmore⟩ | ⟨rest, hbytes, rfl⟩
      · -- The cut is behind the first character.
        rcases ih hmore with ⟨before, behind, rfl, rfl, rfl⟩ |
          ⟨before, d, behind, start, rest, rfl, hd, hstart, hrest, rfl, rfl⟩
        · exact Or.inl ⟨c :: before, behind, rfl, rfl, rfl⟩
        · refine Or.inr ⟨c :: before, d, behind, start, rest, rfl, hd, hstart, hrest, ?_, rfl⟩
          rw [List.flatMap_cons, List.append_assoc]
      · by_cases hfront : front = []
        · subst hfront
          rw [List.nil_append] at hbytes
          exact Or.inl ⟨[], c :: cs, rfl, rfl, by rw [List.flatMap_cons, hbytes]⟩
        by_cases hrest : rest = []
        · subst hrest
          rw [List.append_nil] at hbytes
          refine Or.inl ⟨[c], cs, rfl, ?_, rfl⟩
          rw [List.flatMap_singleton, hbytes]
        · exact Or.inr ⟨[], c, cs, front, rest, rfl, hbytes, hfront, hrest, rfl, rfl⟩

/-- A cut falls between two characters if **there are two texts** in front and behind. -/
theorem cutsApart_iff (h : bytesOf s = front ++ back) :
    CutsApart s front ↔ ∃ s₁ s₂, s = s₁ ++ s₂ ∧ front = bytesOf s₁ ∧ back = bytesOf s₂ := by
  rw [CutsApart, String.Pos.Raw.isValid_iff_exists_append]
  constructor
  · rintro ⟨s₁, s₂, rfl, hlength⟩
    rw [bytesOf_append] at h
    have hsize : front.length = (bytesOf s₁).length := by
      rw [length_bytesOf]
      exact congrArg String.Pos.Raw.byteIdx hlength
    obtain ⟨rfl, rfl⟩ := List.append_inj h hsize.symm
    exact ⟨s₁, s₂, rfl, rfl, rfl⟩
  · rintro ⟨s₁, s₂, rfl, rfl, rfl⟩
    exact ⟨s₁, s₂, rfl, congrArg String.Pos.Raw.mk (length_bytesOf s₁)⟩

/-- The start of a text and its end are **no cuts inside a character**. -/
theorem cutsApart_nil (s : String) : CutsApart s [] :=
  (cutsApart_iff (show bytesOf s = [] ++ bytesOf s from rfl)).mpr
    ⟨"", s, String.empty_append.symm, bytesOf_empty.symm, rfl⟩

theorem cutsApart_bytesOf (s : String) : CutsApart s (bytesOf s) :=
  (cutsApart_iff (List.append_nil (bytesOf s)).symm).mpr
    ⟨s, "", String.append_empty.symm, rfl, bytesOf_empty.symm⟩

/-- What is read **in front of a cut inside a character** ends with an invalid part. -/
theorem scan_front (before : List Char) {c : Char} {start rest : List UInt8}
    (hc : String.utf8EncodeChar c = start ++ rest) (hstart : start ≠ []) (hrest : rest ≠ []) :
    Utf8.scan (before.flatMap String.utf8EncodeChar ++ start) = before.map some ++ [none] := by
  rw [Utf8.scan_encode, (Utf8.encodeChar_cut hc hstart hrest).1]

/-- A cut that does not fall between two characters falls **inside one**. -/
theorem exists_of_not_cutsApart (h : bytesOf s = front ++ back) (hcut : ¬ CutsApart s front) :
    ∃ before c behind start rest, s.toList = before ++ c :: behind ∧
      String.utf8EncodeChar c = start ++ rest ∧ start ≠ [] ∧ rest ≠ [] ∧
      front = before.flatMap String.utf8EncodeChar ++ start ∧
      back = rest ++ behind.flatMap String.utf8EncodeChar := by
  have hbytes := h
  rw [bytesOf_eq] at hbytes
  refine (exists_cut hbytes).resolve_left ?_
  rintro ⟨before, behind, hs, rfl, rfl⟩
  refine hcut ((cutsApart_iff h).mpr ⟨String.ofList before, String.ofList behind, ?_, ?_, ?_⟩)
  · rw [← String.ofList_append, ← hs, String.ofList_toList]
  · rw [bytesOf_eq, String.toList_ofList]
  · rw [bytesOf_eq, String.toList_ofList]

/-- Behind a line feed **no character is cut**. -/
theorem cutsApart_of_endsLine (h : bytesOf s = front ++ back) (hline : EndsLine front) :
    CutsApart s front := by
  refine Classical.byContradiction fun hcut => ?_
  obtain ⟨before, c, behind, start, rest, -, hc, hstart, hrest, rfl, -⟩ :=
    exists_of_not_cutsApart h hcut
  -- A line feed at the end would be read as a character of its own.
  obtain ⟨init, last, hlast⟩ := (List.eq_nil_or_concat start).resolve_left hstart
  rw [List.concat_eq_append] at hlast
  have hfeed : last = lineFeed := hline last (by rw [hlast, ← List.append_assoc]; simp)
  have hread := scan_front before hc hstart hrest
  rw [hlast, hfeed, ← List.append_assoc, Utf8.scan_plain (by decide)] at hread
  have hends := (List.append_inj' hread rfl).2
  exact nomatch (List.cons.inj hends).1

/-- Between two cuts that fall between characters there is **a text**. -/
theorem exists_between (h : bytesOf s = front ++ p ++ back) (hstarts : CutsApart s front)
    (hends : CutsApart s (front ++ p)) :
    ∃ before middle after, s = before ++ middle ++ after ∧ bytesOf before = front ∧
      bytesOf middle = p := by
  obtain ⟨both, after, hboth, hfront, -⟩ := (cutsApart_iff h).mp hends
  rw [List.append_assoc] at h
  obtain ⟨before, rest, rfl, rfl, -⟩ := (cutsApart_iff h).mp hstarts
  have hchars := congrArg String.toList hboth
  rw [String.toList_append, String.toList_append] at hchars
  rcases List.append_eq_append_iff.mp hchars with ⟨middle, hmiddle, -⟩ | ⟨middle, hmiddle, -⟩
  · have htext : both = before ++ String.ofList middle := by
      rw [← String.toList_inj, hmiddle, String.toList_append, String.toList_ofList]
    rw [htext, bytesOf_append] at hfront
    exact ⟨before, String.ofList middle, after, by rw [hboth, htext], rfl,
      (List.append_cancel_left hfront).symm⟩
  · -- The second cut is not in front of the first one, and so there are no bytes between them.
    have htext : before = both ++ String.ofList middle := by
      rw [← String.toList_inj, hmiddle, String.toList_append, String.toList_ofList]
    have hnothing : p = [] := by
      have hlength := congrArg List.length hfront
      rw [htext, bytesOf_append] at hlength
      simp only [List.length_append] at hlength
      exact List.eq_nil_of_length_eq_zero (by omega)
    exact ⟨before, "", rest, by rw [String.append_empty], rfl, hnothing ▸ bytesOf_empty⟩

/-- Between two cuts a text is garbled if **one of them falls inside a character**, and not
otherwise. -/
theorem replacement_mem_between_iff (hs : '\uFFFD' ∉ s.toList) (hp : p ≠ [])
    (h : bytesOf s = front ++ p ++ back) :
    '\uFFFD' ∈ (decodeLossy p).toList ↔ ¬ (CutsApart s front ∧ CutsApart s (front ++ p)) := by
  by_cases hboth : CutsApart s front ∧ CutsApart s (front ++ p)
  · obtain ⟨before, middle, after, rfl, -, rfl⟩ := exists_between h hboth.1 hboth.2
    refine iff_of_false ?_ (not_not_intro hboth)
    rw [decodeLossy_bytesOf]
    intro hmem
    rw [String.toList_append, String.toList_append] at hs
    exact hs (List.mem_append_left _ (List.mem_append_right _ hmem))
  · refine iff_of_true ?_ hboth
    rw [replacement_mem_decodeLossy]
    left
    have hfirst : bytesOf s = front ++ (p ++ back) := by rw [h, List.append_assoc]
    by_cases hstarts : CutsApart s front
    · -- The last bytes start a character that goes on behind the cut.
      obtain ⟨before, c, behind, start, rest, -, hc, hstart, hrest, hfront, -⟩ :=
        exists_of_not_cutsApart h fun hends => hboth ⟨hstarts, hends⟩
      obtain ⟨s₁, s₂, -, rfl, -⟩ := (cutsApart_iff hfirst).mp hstarts
      have hread : s₁.toList.map some ++ Utf8.scan p = before.map some ++ [none] := by
        rw [← Utf8.scan_encode, ← bytesOf_eq, hfront, scan_front before hc hstart hrest]
      have hnone : none ∈ s₁.toList.map some ++ Utf8.scan p :=
        hread ▸ List.mem_append_right _ (List.mem_singleton_self _)
      exact (List.mem_append.mp hnone).resolve_left (by simp)
    · -- The first byte goes on with a character that starts in front of the cut.
      obtain ⟨before, c, behind, start, rest, -, hc, hstart, hrest, -, hback⟩ :=
        exists_of_not_cutsApart hfirst hstarts
      obtain ⟨b, p, rfl⟩ := List.exists_cons_of_ne_nil hp
      obtain ⟨first, rest, rfl⟩ := List.exists_cons_of_ne_nil hrest
      obtain ⟨rfl, -⟩ := List.cons.inj hback
      rw [Utf8.scan_trail ((Utf8.encodeChar_cut hc hstart hrest).2 b List.mem_cons_self)]
      exact List.mem_cons_self

end CapabilityGate.Text
