import CapabilityGate.Output.Buffer
import CapabilityGate.Proofs.Output.Pieces
import CapabilityGate.Proofs.Text.CharacterCuts

/-!
# What a buffer gets of a stream

A buffer gets one chunk for each piece of a stream, in order: the text of the piece with one line
break at its end. There is no other line break in it, so that the chunks can be told apart in what
the buffer holds as a whole.

Each piece is read on its own. A cut that is made for want of room can fall inside a character, and
then neither piece has that character: this is the only way in which a text is garbled.

## Main definitions

* `Text.splitAfterBreaks`: a text, cut behind each line break.
* `Stream.IsTakenUp`: what is promised of a stream that a buffer gets.
* `Stream.TextIsTakenUp`: what is promised of a stream that is a text.

## Main results

* `Stream.splitAfterBreaks_contents`: the chunks of streams are told apart by their line breaks.
* `Stream.stream_is_taken_up`: the promise is kept for every stream.
* `Stream.text_is_garbled_iff`: a text is garbled exactly where a cut falls inside a character.
* `Stream.character_cut_in_two`: a text that is garbled.
-/

namespace CapabilityGate

/-! ### Texts cut behind line breaks -/

namespace Text

/-- The parts of a text, the first of which starts with `taken`, which is given backwards. -/
def splitAfterBreaksFrom (taken : List Char) : List Char → List (List Char)
  | [] => if taken.isEmpty then [] else [taken.reverse]
  | c :: rest =>
    if c = '\n' then (c :: taken).reverse :: splitAfterBreaksFrom [] rest
    else splitAfterBreaksFrom (c :: taken) rest

/-- The parts of a text that is **cut behind each line break**. -/
def splitAfterBreaks (s : String) : List String :=
  (splitAfterBreaksFrom [] s.toList).map String.ofList

/-- A text without line breaks and one line break behind it are **a part**. -/
theorem splitAfterBreaksFrom_append {line : List Char} (h : '\n' ∉ line) (taken rest : List Char) :
    splitAfterBreaksFrom taken (line ++ '\n' :: rest) =
      (taken.reverse ++ line ++ ['\n']) :: splitAfterBreaksFrom [] rest := by
  induction line generalizing taken with
  | nil => simp [splitAfterBreaksFrom]
  | cons c line ih =>
      rw [List.mem_cons, not_or] at h
      rw [List.cons_append, splitAfterBreaksFrom, if_neg (Ne.symm h.1), ih h.2]
      simp

/-- Texts without line breaks are told apart by **one behind each**. -/
theorem splitAfterBreaks_join {texts : List String} (h : ∀ t ∈ texts, '\n' ∉ t.toList) :
    splitAfterBreaks (String.join (texts.map (· ++ "\n"))) = texts.map (· ++ "\n") := by
  rw [splitAfterBreaks]
  induction texts with
  | nil => rfl
  | cons t texts ih =>
      have hlist : (String.join ((t :: texts).map (· ++ "\n"))).toList =
          t.toList ++ '\n' :: (String.join (texts.map (· ++ "\n"))).toList := by
        simp [String.join_cons]
      rw [hlist, splitAfterBreaksFrom_append (h t List.mem_cons_self), List.map_cons, List.map_cons,
        ih fun u hu => h u (List.mem_cons_of_mem t hu)]
      simp

end Text

namespace Stream

variable {bs p : List UInt8}

/-! ### The text of a piece -/

/-- A byte at the end is **left out, or is not there**. -/
theorem dropLastIf_cases (b : UInt8) (bs : List UInt8) :
    bs = dropLastIf b bs ++ [b] ∨ dropLastIf b bs = bs ∧ bs.getLast? ≠ some b := by
  rw [dropLastIf]
  split
  next h => exact Or.inl (List.dropLast_append_getLast? b h).symm
  next h => exact Or.inr ⟨rfl, h⟩

/-- What is left of some bytes without the last one are **some of them**. -/
theorem mem_of_mem_dropLastIf {b x : UInt8} (h : x ∈ dropLastIf b bs) : x ∈ bs := by
  rcases dropLastIf_cases b bs with heq | ⟨heq, -⟩
  · rw [heq]
    exact List.mem_append_left _ h
  · rwa [heq] at h

/-- The text of a piece has **no line break**. -/
theorem newline_not_mem_chunk {size : Nat} (h : IsPiece size p) : '\n' ∉ (chunk p).toList := by
  intro hmem
  have hfeed : lineFeed ∈ dropLastIf lineFeed p :=
    mem_of_mem_dropLastIf (Text.lineFeed_mem_of_decodeLossy hmem)
  rcases dropLastIf_cases lineFeed p with heq | ⟨heq, hlast⟩
  · have hline := h.oneLine
    rw [heq, List.dropLast_concat] at hline
    exact hline hfeed
  · rw [heq] at hfeed
    exact h.lineFeed_not_mem hlast hfeed

/-- No chunk of a stream has **a line break** in it. -/
theorem newline_not_mem_of_mem_chunks {text : String} (h : text ∈ chunks bs) :
    '\n' ∉ text.toList := by
  obtain ⟨p, hp, rfl⟩ := List.mem_map.mp h
  exact newline_not_mem_chunk ((isCut_pieces bs).isPiece p hp)

/-- Chunks of streams, however they are mixed, are **told apart** in what a buffer holds. -/
theorem splitAfterBreaks_contents {texts : List String}
    (h : ∀ text ∈ texts, ∃ bs, text ∈ chunks bs) :
    Text.splitAfterBreaks (Buffer.empty.appendAll texts).contents =
      (Buffer.empty.appendAll texts).chunks := by
  refine Text.splitAfterBreaks_join fun text htext => ?_
  obtain ⟨bs, hbs⟩ := h text htext
  exact newline_not_mem_of_mem_chunks hbs

/-! ### Every stream -/

/-- What is **promised of a stream** that a buffer gets. -/
structure IsTakenUp (bs : List UInt8) : Prop where
  /-- There is one way to cut the stream, and the buffer gets one chunk for each piece, in order. -/
  cut : ∃ ps, IsCut maxPiece bs ps ∧ (∀ qs, IsCut maxPiece bs qs → qs = ps) ∧
    ∀ b : Buffer, (b.appendAll (chunks bs)).chunks = b.chunks ++ ps.map fun p =>
      Text.decodeLossy (dropLastIf carriageReturn (dropLastIf lineFeed p)) ++ "\n"
  /-- A line has chunks of its own, as many as its bytes need. -/
  line : ∀ before line after : List UInt8, bs = before ++ line ++ after → Text.EndsLine before →
    IsLine line → chunks bs = chunks before ++ chunks line ++ chunks after ∧
      (chunks line).length = line.length ⌈/⌉ maxPiece
  /-- What the buffer holds as a whole can be cut into the chunks again. -/
  split : Text.splitAfterBreaks (Buffer.empty.appendAll (chunks bs)).contents =
    (Buffer.empty.appendAll (chunks bs)).chunks

/-- The chunks of **a line** are its own. -/
theorem chunks_append {before : List UInt8} (h : Text.EndsLine before) (after : List UInt8) :
    chunks (before ++ after) = chunks before ++ chunks after := by
  rw [chunks, pieces_append h, List.map_append]
  rfl

/-- Bytes that go on with a line **end as the line does**. -/
theorem IsLine.endsLine {line : List UInt8} (h : IsLine line) (before : List UInt8) :
    Text.EndsLine (before ++ line) := by
  have hne : line ≠ [] := by
    rintro rfl
    exact nomatch h.1
  intro b hb
  rw [List.getLast?_append_of_ne_nil _ hne, h.1] at hb
  exact (Option.some.inj hb).symm

/-- **Every stream is taken up as promised**: it is cut behind its line feeds and where a piece is
full, and nowhere else. -/
theorem stream_is_taken_up (bs : List UInt8) : IsTakenUp bs where
  cut := by
    refine ⟨pieces bs, isCut_pieces bs, fun qs hqs => hqs.unique (isCut_pieces bs), fun b => ?_⟩
    rw [Buffer.appendAll, chunks, List.map_map]
    rfl
  line := by
    rintro before line after rfl hbefore hline
    refine ⟨?_, ?_⟩
    · rw [chunks_append (hline.endsLine before), chunks_append hbefore]
    · rw [chunks, List.length_map, length_pieces_of_isLine hline]
  split := splitAfterBreaks_contents fun text htext => ⟨bs, htext⟩

example : chunks [97, 13, 10, 98] = ["a", "b"] := by
  decide

/-! ### Texts -/

/-- The line break that a piece may have **at its end**. -/
def lineEnds : List String := ["", "\n", "\r", "\r\n"]

/-- What is read of a piece is **its text and the line break** at its end. -/
theorem exists_chunk_append (p : List UInt8) :
    ∃ ending ∈ lineEnds, Text.decodeLossy p = chunk p ++ ending := by
  have hfeed : lineFeed < 0x80 := by decide
  have hreturn : carriageReturn < 0x80 := by decide
  rw [chunk]
  rcases dropLastIf_cases lineFeed p with hp | ⟨hp, -⟩ <;>
    rcases dropLastIf_cases carriageReturn (dropLastIf lineFeed p) with hq | ⟨hq, -⟩
  · refine ⟨"\r\n", by decide, ?_⟩
    conv_lhs => rw [hp, Text.decodeLossy_concat hfeed, hq, Text.decodeLossy_concat hreturn]
    rw [String.append_assoc]
    rfl
  · refine ⟨"\n", by decide, ?_⟩
    conv_lhs => rw [hp, Text.decodeLossy_concat hfeed]
    rw [hq]
    rfl
  · refine ⟨"\r", by decide, ?_⟩
    rw [hp] at hq ⊢
    conv_lhs => rw [hq, Text.decodeLossy_concat hreturn]
    rfl
  · refine ⟨"", by decide, ?_⟩
    rw [hq, hp, String.append_empty]

/-- A piece is garbled **as the bytes are that it consists of**. -/
theorem replacement_mem_chunk : '\uFFFD' ∈ (chunk p).toList ↔
    '\uFFFD' ∈ (Text.decodeLossy p).toList := by
  have hends : ∀ ending ∈ lineEnds, '\uFFFD' ∉ ending.toList := by decide
  obtain ⟨ending, hending, hread⟩ := exists_chunk_append p
  rw [hread, String.toList_append, List.mem_append]
  exact ⟨Or.inl, fun h => h.resolve_right (hends ending hending)⟩

/-- What is **promised of a stream that is a text**. -/
structure TextIsTakenUp (s : String) : Prop where
  /-- A chunk is garbled if the cut in front of its piece or behind it falls inside a character. -/
  garbled_iff : ∀ front p back, pieces (Text.bytesOf s) = front ++ p :: back →
    ('\uFFFD' ∈ (chunk p).toList ↔
      ¬ (Text.CutsApart s front.flatten ∧ Text.CutsApart s (front.flatten ++ p)))
  /-- Otherwise the chunk is a part of the text, but for the line break at its end. -/
  intact : ∀ front p back, pieces (Text.bytesOf s) = front ++ p :: back →
    Text.CutsApart s front.flatten → Text.CutsApart s (front.flatten ++ p) →
      ∃ before after, ∃ ending ∈ lineEnds, s = before ++ (chunk p ++ ending) ++ after ∧
        Text.bytesOf before = front.flatten
  /-- Behind a line feed no cut falls inside a character. -/
  line : ∀ front back, pieces (Text.bytesOf s) = front ++ back → Text.EndsLine front.flatten →
    Text.CutsApart s front.flatten
  /-- No chunk that the buffer gets is garbled if each line fits into a piece. -/
  short : (∀ run, run <:+: Text.bytesOf s → lineFeed ∉ run → run.length < maxPiece) →
    ∀ c ∈ (Buffer.empty.appendAll (chunks (Text.bytesOf s))).chunks, '\uFFFD' ∉ c.toList
  /-- No chunk that the buffer gets is garbled if no cut at all falls inside a character, and only
  then. -/
  whole : (∀ c ∈ (Buffer.empty.appendAll (chunks (Text.bytesOf s))).chunks, '\uFFFD' ∉ c.toList) ↔
    ∀ front back, pieces (Text.bytesOf s) = front ++ back → Text.CutsApart s front.flatten

/-- The pieces of a text are its bytes **in front of some of them and from them on**. -/
theorem bytesOf_of_pieces {s : String} {front back : List (List UInt8)}
    (h : pieces (Text.bytesOf s) = front ++ back) :
    Text.bytesOf s = front.flatten ++ back.flatten := by
  rw [← (isCut_pieces (Text.bytesOf s)).flatten_eq, h, List.flatten_append]

/-- The pieces of a text are its bytes **in front of one, in it and behind it**. -/
theorem bytesOf_of_pieces_cons {s : String} {front back : List (List UInt8)}
    (h : pieces (Text.bytesOf s) = front ++ p :: back) :
    Text.bytesOf s = front.flatten ++ p ++ back.flatten := by
  rw [bytesOf_of_pieces h, List.flatten_cons, List.append_assoc]

/-- A chunk of a text is garbled if **the piece starts or ends inside a character**. -/
theorem replacement_mem_chunk_iff {s : String} (hs : '\uFFFD' ∉ s.toList)
    {front back : List (List UInt8)} (h : pieces (Text.bytesOf s) = front ++ p :: back) :
    '\uFFFD' ∈ (chunk p).toList ↔
      ¬ (Text.CutsApart s front.flatten ∧ Text.CutsApart s (front.flatten ++ p)) := by
  have hmem : p ∈ pieces (Text.bytesOf s) := h ▸ List.mem_append_right _ List.mem_cons_self
  rw [replacement_mem_chunk]
  exact Text.replacement_mem_between_iff hs ((isCut_pieces _).isPiece p hmem).nonempty
    (bytesOf_of_pieces_cons h)

/-- Between two cuts that fall between characters the chunk is **the text between them**. -/
theorem exists_text_of_chunk {s : String} {front back : List (List UInt8)}
    (h : pieces (Text.bytesOf s) = front ++ p :: back)
    (hstarts : Text.CutsApart s front.flatten) (hends : Text.CutsApart s (front.flatten ++ p)) :
    ∃ before after, ∃ ending ∈ lineEnds, s = before ++ (chunk p ++ ending) ++ after ∧
      Text.bytesOf before = front.flatten := by
  obtain ⟨before, middle, after, hs, hbefore, rfl⟩ :=
    Text.exists_between (bytesOf_of_pieces_cons h) hstarts hends
  obtain ⟨ending, hending, hread⟩ := exists_chunk_append (Text.bytesOf middle)
  rw [Text.decodeLossy_bytesOf] at hread
  exact ⟨before, after, ending, hending, hread ▸ hs, hbefore⟩

/-- No piece of a text is garbled if **no cut falls inside a character**, and only then. -/
theorem replacement_not_mem_chunks_iff {s : String} (hs : '\uFFFD' ∉ s.toList) :
    (∀ text ∈ chunks (Text.bytesOf s), '\uFFFD' ∉ text.toList) ↔
      ∀ front back, pieces (Text.bytesOf s) = front ++ back → Text.CutsApart s front.flatten := by
  constructor
  · intro hclean front back h
    rcases List.eq_nil_or_concat front with rfl | ⟨front, p, rfl⟩
    · exact Text.cutsApart_nil s
    · rw [List.concat_eq_append, List.append_assoc, List.singleton_append] at h
      have hmem : p ∈ pieces (Text.bytesOf s) := h ▸ List.mem_append_right _ List.mem_cons_self
      have hchunk := hclean (chunk p) (List.mem_map_of_mem hmem)
      rw [replacement_mem_chunk_iff hs h, not_not] at hchunk
      rw [List.concat_eq_append, List.flatten_append, List.flatten_singleton]
      exact hchunk.2
  · intro hcuts text htext
    obtain ⟨p, hp, rfl⟩ := List.mem_map.mp htext
    obtain ⟨front, back, h⟩ := List.append_of_mem hp
    rw [replacement_mem_chunk_iff hs h, not_not]
    refine ⟨hcuts front (p :: back) h, ?_⟩
    have hfront := hcuts (front ++ [p]) back (by rw [h, List.append_assoc, List.singleton_append])
    rwa [List.flatten_append, List.flatten_singleton] at hfront

/-- The buffer gets no garbled chunk if **no piece is garbled**, and only then. -/
theorem replacement_not_mem_appendAll_iff {texts : List String} :
    (∀ c ∈ (Buffer.empty.appendAll texts).chunks, '\uFFFD' ∉ c.toList) ↔
      ∀ text ∈ texts, '\uFFFD' ∉ text.toList := by
  have hbreak : '\uFFFD' ∉ "\n".toList := by decide
  simp only [Buffer.appendAll, Buffer.empty, List.nil_append, List.forall_mem_map,
    String.toList_append, List.mem_append, not_or, hbreak, not_false_eq_true, and_true]

/-- If each line fits into a piece, then each piece but the last one **ends with its line**. -/
theorem endsLine_of_short (hshort : ∀ run, run <:+: bs → lineFeed ∉ run → run.length < maxPiece)
    {front : List (List UInt8)} {next : List UInt8} {back : List (List UInt8)}
    (h : pieces bs = front ++ next :: back) : Text.EndsLine front.flatten := by
  rcases List.eq_nil_or_concat front with rfl | ⟨init, p, rfl⟩
  · exact fun b hb => nomatch hb
  · rw [List.concat_eq_append] at h ⊢
    have hdrop : p ∈ (pieces bs).dropLast := by
      rw [h, List.dropLast_append_cons]
      exact List.mem_append_left _ (by simp)
    have hpiece := (isCut_pieces bs).isPiece p (List.mem_of_mem_dropLast hdrop)
    have hflat : p <:+: bs := by
      refine ⟨init.flatten, (next :: back).flatten, ?_⟩
      rw [← (isCut_pieces bs).flatten_eq, h]
      simp
    intro b hb
    rw [List.flatten_append, List.flatten_singleton,
      List.getLast?_append_of_ne_nil _ hpiece.nonempty] at hb
    rcases (isCut_pieces bs).isFull p hdrop with hline | hsize
    · rw [hline] at hb
      exact (Option.some.inj hb).symm
    · -- A piece with all the bytes that it may have has a line feed, which is its last byte.
      refine Classical.byContradiction fun hne => ?_
      have hlast : p.getLast? ≠ some lineFeed := by
        rw [hb]
        exact fun heq => hne (Option.some.inj heq)
      have hlt := hshort p hflat (hpiece.lineFeed_not_mem hlast)
      omega

/-- A character of two bytes **behind a run of letters**. -/
def straddling (n : Nat) : String :=
  String.ofList (List.replicate n 'a' ++ ['é'])

theorem replacement_not_mem_straddling (n : Nat) : '\uFFFD' ∉ (straddling n).toList := by
  rw [straddling, String.toList_ofList, List.mem_append]
  rintro (ha | he)
  · exact absurd (List.eq_of_mem_replicate ha) (by decide)
  · exact absurd (List.mem_singleton.mp he) (by decide)

theorem bytesOf_straddling (n : Nat) :
    Text.bytesOf (straddling n) = List.replicate n 97 ++ [0xC3, 0xA9] := by
  have ha : String.utf8EncodeChar 'a' = [97] := by decide
  have he : String.utf8EncodeChar 'é' = [0xC3, 0xA9] := by decide
  rw [Text.bytesOf_eq, straddling, String.toList_ofList, List.flatMap_append,
    List.flatMap_singleton, he, List.flatMap_replicate, ha, List.flatten_replicate_singleton]

/-- Where a piece has room for the first byte of the character only, its bytes stand **in two
pieces**. -/
theorem pieces_straddling {n : Nat} (hn : n + 1 = maxPiece) :
    pieces (Text.bytesOf (straddling n)) = [List.replicate n 97 ++ [0xC3], [0xA9]] := by
  have hlength : (List.replicate n (97 : UInt8) ++ [0xC3]).length = maxPiece := by
    rw [List.length_append, List.length_replicate, List.length_singleton, hn]
  have hfirst : IsPiece maxPiece (List.replicate n 97 ++ [0xC3]) := by
    refine ⟨by simp, hlength.le, ?_⟩
    rw [List.dropLast_concat]
    exact fun hmem => absurd (List.eq_of_mem_replicate hmem) (by decide)
  have hsecond : IsPiece maxPiece [0xA9] := by
    refine ⟨by decide, by decide, by decide⟩
  have hcut := hsecond.isCut.cons hfirst (Or.inr hlength)
  rw [List.append_assoc, List.singleton_append, ← bytesOf_straddling] at hcut
  exact (isCut_pieces _).unique hcut

/-- A text is **garbled exactly where a cut falls inside a character**: nowhere, if all its lines
fit into a piece, and otherwise wherever a character does not end with the piece that it starts
in. -/
theorem text_is_garbled_iff (s : String) (hs : '\uFFFD' ∉ s.toList) : TextIsTakenUp s where
  garbled_iff _ _ _ h := replacement_mem_chunk_iff hs h
  intact _ _ _ := exists_text_of_chunk
  line _ _ h := Text.cutsApart_of_endsLine (bytesOf_of_pieces h)
  short := by
    intro hshort
    rw [replacement_not_mem_appendAll_iff, replacement_not_mem_chunks_iff hs]
    intro front back h
    cases back with
    | nil =>
        rw [← List.append_nil front.flatten, ← List.flatten_nil, ← bytesOf_of_pieces h]
        exact Text.cutsApart_bytesOf s
    | cons next back =>
        exact Text.cutsApart_of_endsLine (bytesOf_of_pieces h) (endsLine_of_short hshort h)
  whole := by
    rw [replacement_not_mem_appendAll_iff, replacement_not_mem_chunks_iff hs]

/-- What is promised of a text with a character **in two pieces**. -/
theorem straddling_is_taken_up : '\uFFFD' ∉ (straddling 65535).toList ∧
    TextIsTakenUp (straddling 65535) := by
  have hs := replacement_not_mem_straddling 65535
  exact ⟨hs, text_is_garbled_iff (straddling 65535) hs⟩

/-- A text with a character **that a piece ends inside of** is garbled. -/
theorem character_cut_in_two : '\uFFFD' ∉ (straddling 65535).toList ∧
    "\uFFFD\n" ∈
      (Buffer.empty.appendAll (chunks (Text.bytesOf (straddling 65535)))).chunks := by
  refine ⟨replacement_not_mem_straddling 65535, ?_⟩
  have hchunk : chunk [0xA9] ++ "\n" = "\uFFFD\n" := by decide
  rw [chunks, pieces_straddling rfl, ← hchunk]
  exact List.mem_cons_of_mem _ List.mem_cons_self

end Stream

end CapabilityGate
