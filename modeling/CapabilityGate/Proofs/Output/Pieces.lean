import CapabilityGate.Output.Stream
import CapabilityGate.Proofs.Text.LineBytes
import Mathlib.Algebra.Order.Floor.Div

/-!
# The pieces of a stream

A stream is cut behind each line feed, and wherever a piece has as many bytes as a piece may have.
There is no other way to cut a stream like that. So the pieces of a stream are those of its lines,
one line after another, and a line has as many pieces as its bytes need.

## Main definitions

* `Stream.IsPiece`, `Stream.IsFull`: what a piece looks like, and when it ends.
* `Stream.IsCut`: a stream is cut into pieces, all of which but the last are full.
* `Stream.IsLine`: a line with the line feed at its end.

## Main results

* `Stream.IsCut.unique`: a stream is cut in one way only.
* `Stream.IsCut.length_eq`: how many pieces a line has.
* `Stream.isCut_pieces`: the pieces of a stream are what it is cut into.
* `Stream.pieces_append`: behind a line feed the pieces start afresh.
-/

namespace CapabilityGate.Stream

variable {size : Nat} {bs rest p : List UInt8} {ps qs : List (List UInt8)}

/-! ### Ways to cut a stream -/

/-- Some bytes can be **one piece**: they are neither none nor too many, and a line feed stands at
most at their end. -/
structure IsPiece (size : Nat) (p : List UInt8) : Prop where
  /-- There are bytes. -/
  nonempty : p ≠ []
  /-- There are not too many. -/
  short : p.length ≤ size
  /-- There is no line feed before the last one. -/
  oneLine : lineFeed ∉ p.dropLast

/-- A piece that does not end with a line feed **has none**. -/
theorem IsPiece.lineFeed_not_mem (h : IsPiece size p) (hlast : p.getLast? ≠ some lineFeed) :
    lineFeed ∉ p := by
  intro hmem
  rw [← List.dropLast_append_getLast h.nonempty] at hmem
  rcases List.mem_append.mp hmem with hfront | hend
  · exact h.oneLine hfront
  · rw [List.getLast?_eq_some_getLast h.nonempty, ← List.mem_singleton.mp hend] at hlast
    exact hlast rfl

/-- A piece **is full**: it ends with a line feed or can hold no more bytes. -/
def IsFull (size : Nat) (p : List UInt8) : Prop :=
  p.getLast? = some lineFeed ∨ p.length = size

/-- A stream **is cut** into pieces, of which the last one alone need not be full. -/
structure IsCut (size : Nat) (bs : List UInt8) (ps : List (List UInt8)) : Prop where
  /-- Together the pieces are the stream. -/
  flatten_eq : ps.flatten = bs
  /-- Each of them can be one. -/
  isPiece : ∀ p ∈ ps, IsPiece size p
  /-- Each of them but the last is full. -/
  isFull : ∀ p ∈ ps.dropLast, IsFull size p

theorem isCut_nil : IsCut size [] [] :=
  ⟨rfl, fun _ h => absurd h List.not_mem_nil, fun _ h => absurd h List.not_mem_nil⟩

theorem IsPiece.isCut (h : IsPiece size p) : IsCut size p [p] := by
  refine ⟨by simp, fun q hq => ?_, fun q hq => absurd hq List.not_mem_nil⟩
  rwa [List.mem_singleton.mp hq]

/-- A full piece may stand **in front** of others. -/
theorem IsCut.cons (h : IsCut size rest ps) (hpiece : IsPiece size p) (hfull : IsFull size p) :
    IsCut size (p ++ rest) (p :: ps) := by
  refine ⟨by rw [List.flatten_cons, h.flatten_eq], ?_, ?_⟩
  · intro q hq
    rcases List.mem_cons.mp hq with rfl | hq
    · exact hpiece
    · exact h.isPiece q hq
  · intro q hq
    cases ps with
    | nil => exact absurd hq List.not_mem_nil
    | cons next ps =>
        rw [List.dropLast_cons_cons] at hq
        rcases List.mem_cons.mp hq with rfl | hq
        · exact hfull
        · exact h.isFull q hq

/-- What is known of the **first piece** and of those behind it. -/
theorem IsCut.of_cons (h : IsCut size bs (p :: ps)) :
    IsPiece size p ∧ (ps ≠ [] → IsFull size p) ∧ bs = p ++ ps.flatten ∧
      IsCut size ps.flatten ps := by
  refine ⟨h.isPiece p List.mem_cons_self, ?_, ?_, rfl, ?_, ?_⟩
  · intro hne
    refine h.isFull p ?_
    rw [List.dropLast_cons_of_ne_nil hne]
    exact List.mem_cons_self
  · rw [← h.flatten_eq, List.flatten_cons]
  · exact fun q hq => h.isPiece q (List.mem_cons_of_mem p hq)
  · intro q hq
    have hne : ps ≠ [] := by
      rintro rfl
      exact absurd hq List.not_mem_nil
    refine h.isFull q ?_
    rw [List.dropLast_cons_of_ne_nil hne]
    exact List.mem_cons_of_mem p hq

/-- Only an empty stream is cut into **nothing**. -/
theorem IsCut.eq_nil (h : IsCut size [] ps) : ps = [] := by
  cases ps with
  | nil => rfl
  | cons p ps =>
      obtain ⟨hpiece, -, happend, -⟩ := h.of_cons
      exact absurd (List.append_eq_nil_iff.mp happend.symm).1 hpiece.nonempty

/-- A line feed that ends a part of a piece **ends the piece**. -/
theorem IsPiece.eq_nil_of_append {back : List UInt8} (h : IsPiece size (p ++ back))
    (hlast : p.getLast? = some lineFeed) : back = [] := by
  by_contra hne
  refine h.oneLine ?_
  rw [List.dropLast_append_of_ne_nil hne]
  exact List.mem_append_left _ (List.mem_of_getLast? hlast)

/-- Of two first pieces of one stream **neither goes on** behind the other. -/
theorem IsCut.eq_nil_of_longer {back : List UInt8}
    (h : IsCut size bs (p :: ps)) (h' : IsCut size bs ((p ++ back) :: qs)) : back = [] := by
  obtain ⟨-, hfull, happend, -⟩ := h.of_cons
  obtain ⟨hlong, -, happend', -⟩ := h'.of_cons
  by_cases hlast : ps = []
  · -- The shorter piece is the whole stream.
    rw [hlast, List.flatten_nil, List.append_nil] at happend
    rw [happend, List.append_assoc] at happend'
    have hnothing : back ++ qs.flatten = [] := List.append_right_eq_self.mp happend'.symm
    exact (List.append_eq_nil_iff.mp hnothing).1
  · rcases hfull hlast with hline | hsize
    · exact hlong.eq_nil_of_append hline
    · have hshort := hlong.short
      rw [List.length_append, hsize] at hshort
      exact List.eq_nil_of_length_eq_zero (by omega)

/-- A stream is cut in **one way only**. -/
theorem IsCut.unique (h : IsCut size bs ps) (h' : IsCut size bs qs) : ps = qs := by
  induction ps generalizing bs qs with
  | nil =>
      obtain rfl : [] = bs := h.flatten_eq
      exact h'.eq_nil.symm
  | cons p ps ih =>
      cases qs with
      | nil =>
          obtain rfl : [] = bs := h'.flatten_eq
          exact h.eq_nil
      | cons q qs =>
          obtain ⟨-, -, happend, hrest⟩ := h.of_cons
          obtain ⟨-, -, happend', hrest'⟩ := h'.of_cons
          -- One of the two first pieces is the start of the other.
          have hsame : p = q := by
            rcases List.append_eq_append_iff.mp (happend.symm.trans happend') with
              ⟨back, rfl, -⟩ | ⟨back, rfl, -⟩
            · rw [h.eq_nil_of_longer h', List.append_nil]
            · rw [h'.eq_nil_of_longer h, List.append_nil]
          subst hsame
          have hflatten : ps.flatten = qs.flatten :=
            List.append_cancel_left (happend.symm.trans happend')
          rw [← hflatten] at hrest'
          rw [ih hrest hrest']

/-- Behind a stream whose last piece is full **another one** is cut on its own. -/
theorem IsCut.append (h : IsCut size bs ps) (h' : IsCut size rest qs)
    (hfull : ∀ p ∈ ps.getLast?, IsFull size p) : IsCut size (bs ++ rest) (ps ++ qs) := by
  induction ps generalizing bs with
  | nil =>
      obtain rfl : [] = bs := h.flatten_eq
      exact h'
  | cons p ps ih =>
      obtain ⟨hpiece, hfirst, rfl, hrest⟩ := h.of_cons
      rw [List.append_assoc, List.cons_append]
      cases ps with
      | nil => exact (ih hrest (fun _ hq => nomatch hq)).cons hpiece (hfull p rfl)
      | cons next ps => exact (ih hrest hfull).cons hpiece (hfirst (List.cons_ne_nil _ _))

/-- The last piece of a stream **ends as the stream does**. -/
theorem IsCut.getLast?_eq (h : IsCut size bs ps) (hp : ps.getLast? = some p) :
    bs.getLast? = p.getLast? := by
  obtain ⟨front, rfl⟩ := List.getLast?_eq_some_iff.mp hp
  have hne : p ≠ [] := (h.isPiece p (by simp)).nonempty
  rw [← h.flatten_eq, List.flatten_append, List.flatten_singleton,
    List.getLast?_append_of_ne_nil _ hne]

/-- A stream without line feeds before its end is cut into **as many pieces as its bytes need**,
since each of them but the last has all the bytes that it may have. -/
theorem IsCut.length_eq (h : IsCut size bs ps) (hsize : 0 < size)
    (hline : lineFeed ∉ bs.dropLast) : ps.length = bs.length ⌈/⌉ size := by
  induction ps generalizing bs with
  | nil =>
      obtain rfl : [] = bs := h.flatten_eq
      rw [List.length_nil, List.length_nil, zero_ceilDiv]
  | cons p ps ih =>
      obtain ⟨hpiece, hfull, rfl, hrest⟩ := h.of_cons
      have hpositive : 0 < p.length := List.length_pos_iff.mpr hpiece.nonempty
      by_cases hlast : ps = []
      · subst hlast
        have hshort := hpiece.short
        rw [List.flatten_nil, List.append_nil, List.length_singleton, Nat.ceilDiv_eq_add_pred_div]
        refine (Nat.div_eq_of_lt_le ?_ ?_).symm <;> omega
      · have hne : ps.flatten ≠ [] := by
          intro hnil
          rw [hnil] at hrest
          exact hlast hrest.eq_nil
        rw [List.dropLast_append_of_ne_nil hne] at hline
        have hlength : p.length = size := by
          refine (hfull hlast).resolve_left fun hend => hline ?_
          exact List.mem_append_left _ (List.mem_of_getLast? hend)
        have hbehind : lineFeed ∉ ps.flatten.dropLast := fun hmem =>
          hline (List.mem_append_right _ hmem)
        rw [List.length_cons, ih hrest hbehind, List.length_append, hlength,
          Nat.ceilDiv_eq_add_pred_div, Nat.ceilDiv_eq_add_pred_div, ← Nat.add_div_right _ hsize]
        congr 1
        omega

/-! ### The pieces -/

/-- The pieces behind some are **cut apart** from them. -/
theorem piecesFrom_eq (done : List (List UInt8)) (taken : List UInt8) (room : Nat)
    (bs : List UInt8) :
    piecesFrom size done taken room bs = done.reverse ++ piecesFrom size [] taken room bs := by
  induction bs generalizing done taken room with
  | nil => cases taken <;> simp [piecesFrom]
  | cons b bs ih =>
      rw [piecesFrom, piecesFrom]
      split
      · rw [ih, ih [(b :: taken).reverse]]
        simp
      · exact ih done (b :: taken) (room - 1)

/-- A stream of which a part is taken up is cut **from there on**. -/
theorem isCut_piecesFrom {taken : List UInt8} {room : Nat} (hroom : 0 < room)
    (hsize : taken.length + room = size) (hline : lineFeed ∉ taken) (bs : List UInt8) :
    IsCut size (taken.reverse ++ bs) (piecesFrom size [] taken room bs) := by
  induction bs generalizing taken room with
  | nil =>
      rw [List.append_nil]
      cases taken with
      | nil => exact isCut_nil
      | cons b taken =>
          refine IsPiece.isCut ⟨by simp, ?_, ?_⟩
          · rw [List.length_reverse]
            omega
          · intro hmem
            exact hline (List.mem_reverse.mp (List.mem_of_mem_dropLast hmem))
  | cons b bs ih =>
      have happend : taken.reverse ++ b :: bs = (b :: taken).reverse ++ bs := by simp
      rw [piecesFrom, happend]
      split
      next hends =>
        have hpiece : IsPiece size (b :: taken).reverse := by
          refine ⟨by simp, ?_, ?_⟩
          · rw [List.length_reverse, List.length_cons]
            omega
          · rwa [List.reverse_cons, List.dropLast_concat, List.mem_reverse]
        have hfull : IsFull size (b :: taken).reverse := by
          rcases Bool.or_eq_true_iff.mp hends with hfeed | hlast
          · left
            rw [List.reverse_cons, List.getLast?_concat, of_decide_eq_true hfeed]
          · right
            have hle := of_decide_eq_true hlast
            rw [List.length_reverse, List.length_cons]
            omega
        have hbehind : IsCut size bs (piecesFrom size [] [] size bs) :=
          ih (by omega) (by simp) List.not_mem_nil
        rw [piecesFrom_eq]
        exact hbehind.cons hpiece hfull
      next hgoes =>
        rw [Bool.or_eq_true_iff, decide_eq_true_iff, decide_eq_true_iff, not_or] at hgoes
        obtain ⟨hfeed, hleft⟩ := hgoes
        refine ih (by omega) (by rw [List.length_cons]; omega) ?_
        intro hmem
        rcases List.mem_cons.mp hmem with hb | hmem
        · exact hfeed hb.symm
        · exact hline hmem

/-- The pieces of a stream are **what it is cut into**. -/
theorem isCut_pieces (bs : List UInt8) : IsCut maxPiece bs (pieces bs) :=
  isCut_piecesFrom (by decide) (Nat.zero_add _) List.not_mem_nil bs

/-- Behind a line feed the pieces **start afresh**. -/
theorem pieces_append {before : List UInt8} (h : Text.EndsLine before) (after : List UInt8) :
    pieces (before ++ after) = pieces before ++ pieces after := by
  refine (isCut_pieces _).unique ((isCut_pieces before).append (isCut_pieces after) ?_)
  intro p hp
  have hends := (isCut_pieces before).getLast?_eq hp
  have hne : p ≠ [] := ((isCut_pieces before).isPiece p (List.mem_of_getLast? hp)).nonempty
  rw [List.getLast?_eq_some_getLast hne] at hends
  left
  rw [List.getLast?_eq_some_getLast hne, h _ hends]
  rfl

/-- Some bytes are **a line** with the line feed at its end. -/
def IsLine (line : List UInt8) : Prop :=
  line.getLast? = some lineFeed ∧ lineFeed ∉ line.dropLast

/-- A line is cut into **as many pieces as it needs**. -/
theorem length_pieces_of_isLine {line : List UInt8} (h : IsLine line) :
    (pieces line).length = line.length ⌈/⌉ maxPiece :=
  (isCut_pieces line).length_eq (by decide) h.2

end CapabilityGate.Stream
