import CapabilityGate.Text.Lines
import CapabilityGate.Text.Utf8

/-!
# Lines of bytes

A line feed is a byte of its own wherever it stands in some bytes: no other character has it as a
part, and an invalid part ends in front of it. So the lines of bytes that are read as text are those
up to a line feed, and those behind it.

## Main definitions

* `Text.lineFeed`: the byte that ends a line.
* `Text.EndsLine`: bytes behind which a line starts.

## Main results

* `Text.Utf8.exists_scanFrom_append`: a line feed is read apart from what stands around it.
* `Text.lines_decodeLossy_append`: the lines of bytes are those before and behind a line feed.
-/

namespace CapabilityGate.Text

/-- The byte that **ends a line**. -/
def lineFeed : UInt8 := 0x0A

/-! ### Line feeds among bytes -/

namespace Utf8

/-- The bytes that may go on with a character are **no characters** of their own. -/
def State.Continues : State → Prop
  | .outside => True
  | .inside _ least _ _ => 0x80 ≤ least

theorem State.continues_of_lead? {b : UInt8} {st : State} (h : lead? b = some st) :
    st.Continues := by
  rw [lead?] at h
  repeat' split at h
  all_goals cases h
  all_goals
    rw [Continues]
    decide

/-- What a byte outside a character adds **does not depend** on the characters before. -/
theorem begin_eq (done : List (Option Char)) (b : UInt8) :
    begin done b = ((begin [] b).1 ++ done, (begin [] b).2) := by
  rw [begin, begin]
  split
  · rfl
  · cases lead? b <;> rfl

theorem continues_begin (done : List (Option Char)) (b : UInt8) : (begin done b).2.Continues := by
  rw [begin]
  split
  · trivial
  · split
    next hlead => exact State.continues_of_lead? hlead
    next => trivial

/-- What a byte adds does not depend on the characters before, and neither does **the state behind
it**. -/
theorem next_eq (done : List (Option Char)) (st : State) (b : UInt8) :
    next done st b = ((next [] st b).1 ++ done, (next [] st b).2) := by
  cases st with
  | outside => exact begin_eq done b
  | inside left least most value =>
      rw [next, next]
      split
      · dsimp only
        split <;> rfl
      · rw [begin_eq (none :: done), begin_eq [none]]
        simp

/-- Whatever a byte goes on with, the bytes that may go on with this are no characters of their
own. -/
theorem continues_next (done : List (Option Char)) (st : State) (b : UInt8) :
    (next done st b).2.Continues := by
  cases st with
  | outside => exact continues_begin done b
  | inside left least most value =>
      rw [next]
      split
      · dsimp only
        split
        · trivial
        · exact UInt8.le_refl 0x80
      · exact continues_begin _ b

theorem scanFrom_cons (done : List (Option Char)) (st : State) (b : UInt8) (bs : List UInt8) :
    scanFrom done st (b :: bs) = scanFrom (next done st b).1 (next done st b).2 bs := by
  cases st <;> rw [scanFrom]

/-- The characters behind some are **read apart** from them. -/
theorem scanFrom_eq (done : List (Option Char)) (st : State) (bs : List UInt8) :
    scanFrom done st bs = done.reverse ++ scanFrom [] st bs := by
  induction bs generalizing done st with
  | nil => cases st <;> simp [scanFrom]
  | cons b bs ih =>
      rw [scanFrom_cons, scanFrom_cons [], next_eq done, ih, ih (next [] st b).1]
      simp

/-- A line feed is **a character of its own**, behind a character that is cut short if need be. -/
theorem exists_next_lineFeed {st : State} (hst : st.Continues) :
    ∃ cut, next [] st lineFeed = (some '\n' :: cut, .outside) := by
  cases st with
  | outside => exact ⟨[], rfl⟩
  | inside left least most value =>
      have hleast : ¬ least ≤ lineFeed := by
        intro hle
        exact absurd (UInt8.le_trans hst hle) (by decide)
      refine ⟨[none], ?_⟩
      rw [next, decide_eq_false hleast, Bool.false_and, if_neg Bool.false_ne_true]
      rfl

/-- A line feed is read **apart from what stands around it**. -/
theorem exists_scanFrom_append {st : State} (hst : st.Continues) (a : List UInt8) :
    ∃ cs, ∀ b, scanFrom [] st (a ++ lineFeed :: b) = cs ++ some '\n' :: scan b := by
  induction a generalizing st with
  | nil =>
      obtain ⟨cut, hnext⟩ := exists_next_lineFeed hst
      refine ⟨cut.reverse, fun b => ?_⟩
      rw [List.nil_append, scanFrom_cons, hnext, scanFrom_eq]
      simp [scan]
  | cons x a ih =>
      obtain ⟨cs, hcs⟩ := ih (continues_next [] st x)
      refine ⟨(next [] st x).1.reverse ++ cs, fun b => ?_⟩
      rw [List.cons_append, scanFrom_cons, scanFrom_eq, hcs, List.append_assoc]

end Utf8

/-! ### Lines -/

/-- A line feed ends **the line that is taken**, whatever stands behind it. -/
theorem exists_linesFrom_cons (taken : List Char) :
    ∃ line, ∀ rest, linesFrom taken ('\n' :: rest) = line :: linesFrom [] rest := by
  by_cases h : ∃ before, taken = '\r' :: before
  · obtain ⟨before, rfl⟩ := h
    exact ⟨before.reverse, fun rest => linesFrom.eq_2 rest before⟩
  · exact ⟨taken.reverse, fun rest => linesFrom.eq_3 taken rest fun before hb => h ⟨before, hb⟩⟩

/-- Characters are taken **line by line**. -/
theorem linesFrom_append (taken a b : List Char) :
    linesFrom taken (a ++ '\n' :: b) = linesFrom taken (a ++ ['\n']) ++ linesFrom [] b := by
  induction a generalizing taken with
  | nil =>
      obtain ⟨line, hline⟩ := exists_linesFrom_cons taken
      rw [List.nil_append, List.nil_append, hline, hline]
      rfl
  | cons c a ih =>
      rw [List.cons_append, List.cons_append]
      by_cases hc : c = '\n'
      · obtain ⟨line, hline⟩ := exists_linesFrom_cons taken
        rw [hc, hline, hline, ih []]
        rfl
      · rw [linesFrom.eq_4 _ _ _ hc, linesFrom.eq_4 _ _ _ hc]
        exact ih (c :: taken)

/-- The lines of bytes are those of the bytes **up to a line feed and those behind it**. -/
theorem lines_decodeLossy_append (a b : List UInt8) :
    lines (decodeLossy (a ++ lineFeed :: b)) =
      lines (decodeLossy (a ++ [lineFeed])) ++ lines (decodeLossy b) := by
  have hstart : Utf8.State.Continues .outside := trivial
  obtain ⟨cs, hcs⟩ := Utf8.exists_scanFrom_append hstart a
  have hscan : ∀ b, (decodeLossy (a ++ lineFeed :: b)).toList =
      (cs.map fun c => c.getD '\uFFFD') ++ '\n' :: (decodeLossy b).toList := by
    intro b
    rw [decodeLossy, String.toList_ofList, decodeLossy, String.toList_ofList, Utf8.scan, hcs b]
    simp
  rw [lines, lines, lines, hscan b, hscan [], linesFrom_append]
  simp [decodeLossy, Utf8.scan, Utf8.scanFrom]

/-- Bytes **end a line** if there are none of them or the last one is a line feed. -/
def EndsLine (bs : List UInt8) : Prop :=
  ∀ b ∈ bs.getLast?, b = lineFeed

/-- Behind bytes that end a line **a line starts**. -/
theorem EndsLine.lines_append {a : List UInt8} (h : EndsLine a) (b : List UInt8) :
    lines (decodeLossy (a ++ b)) = lines (decodeLossy a) ++ lines (decodeLossy b) := by
  rcases List.eq_nil_or_concat a with rfl | ⟨front, last, rfl⟩
  · rfl
  · obtain rfl : last = lineFeed := h last (by simp)
    rw [List.concat_eq_append, List.append_assoc, List.singleton_append]
    exact lines_decodeLossy_append front b

end CapabilityGate.Text
