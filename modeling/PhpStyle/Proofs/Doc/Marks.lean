import PhpStyle.Proofs.Doc.Rendering

/-!
# Comments that the lexer ends and the reader does not

The lexer looks for the closing mark of a documentation comment from the start of the opening mark
on, the reader only behind it. So they agree on which comments are closed, except where both marks
share a star. `DocBlock.reader_of_comment` says how reading ends, for every comment of every source
text, and `DocBlock.reader_of_comment_sharedStar` is the comment on which they differ.

Reading starts at the opening mark, and it must be known that a comment has one. Of the tokens this
can only be said of lines that do not continue another one, since two comments may follow each other
directly. `StartsMarked` says it of a sequence, and it is kept when the lexer puts one more piece in
front: in a comment only the first line does not continue another one (`append_comment`), and a
piece of another kind has no such line (`append_other`). So it holds of every source text
(`startsMarked_lexemes`).

A text that starts with one mark and ends with the other has a text between them, or is the shortest
one (`marks_cases`), and a text in which the closing mark occurs nowhere is not closed for the
reader either. With what the lexer leaves of a comment, that is all that there can be
(`DocBlock.read_cases_of_marks`).

Between the marks, reading can fail only at an at sign without a name. The name of a tag is looked
for before the lines behind it are read, so it is the first such line that counts
(`readTags_eq_error_iff`); and as a line of the description is no tag line, it is the first one of
all lines (`find?_taggedLines`).
-/

namespace PhpStyle

variable {text body : List Char} {pairs front rear : List (Kind × String)} {i start last : Nat}
  {raw word : String}

/-! ### Opening marks -/

/-- The opening mark is not empty. -/
theorem openingMark_ne_nil : openingMark ≠ [] := by decide

/-- The opening mark is on one line. -/
theorem newline_notMem_openingMark : '\n' ∉ openingMark := by decide

/-- Every line of a comment that does not continue the line in front of it starts with the opening
mark. -/
def StartsMarked (pairs : List (Kind × String)) : Prop :=
  ∀ i word, pairs[i]? = some (.docComment, word) → (∀ j, j + 1 = i → goesOn pairs j = false) →
    openingMark <+: word.toList

namespace StartsMarked

/-- There is no line in an empty sequence. -/
theorem nil : StartsMarked [] := by
  intro i word hword
  simp at hword

/-- The lines behind some pairs. -/
theorem behind (h : StartsMarked rear) (hi : front.length ≤ i)
    (hword : (front ++ rear)[i]? = some (.docComment, word))
    (hfresh : ∀ j, j + 1 = i → goesOn (front ++ rear) j = false) : openingMark <+: word.toList := by
  obtain ⟨i, rfl⟩ := Nat.exists_eq_add_of_le hi
  rw [List.getElem?_append_right hi, Nat.add_sub_cancel_left] at hword
  apply h i word hword
  intro j hj
  rw [← goesOn_append front]
  exact hfresh _ (by omega)

/-- A piece that is no comment is put in front. -/
theorem append_other (h : StartsMarked rear) (hfront : ∀ pair ∈ front, pair.1 ≠ .docComment) :
    StartsMarked (front ++ rear) := by
  intro i word hword hfresh
  refine h.behind ?_ hword hfresh
  by_contra hi
  rw [List.getElem?_append_left (by omega)] at hword
  exact hfront _ (List.mem_of_getElem? hword) rfl

/-- A comment is put in front: its other lines continue the first one. -/
theorem append_comment (h : StartsMarked rear) (hopening : openingMark <+: text) :
    StartsMarked (commentLines text ++ rear) := by
  intro i word hword hfresh
  by_cases hi : i < (commentLines text).length
  · cases i with
    | zero =>
        obtain ⟨line, hline, hpair⟩ := exists_line_commentLines rear hi
        obtain ⟨l, ls, hlines, hl⟩ :=
          Text.exists_keepLines_eq_cons newline_notMem_openingMark openingMark_ne_nil hopening
        rw [hlines] at hline
        obtain rfl : l = line := Option.some.inj hline
        rw [hpair, Option.some.injEq, Prod.mk.injEq] at hword
        rw [← hword.2, String.toList_ofList]
        exact hl
    | succ i =>
        have hends := hfresh i rfl
        rw [goesOn_commentLines hi] at hends
        cases hends
  · exact h.behind (by omega) hword hfresh

end StartsMarked

/-- **The comments of a source text start with the opening mark.** -/
theorem startsMarked_lexemes (source : String) : StartsMarked (lexemes source) := by
  rw [lexemes_eq_scan]
  -- along the pieces: each one is put in front of what the rest of the text gives
  fun_induction scan .markup source.toList with
  | case1 => exact StartsMarked.nil
  | case2 region c cs piece text lines ih =>
      rw [List.map_append, List.map_map]
      by_cases hdoc : piece.kind = .docComment
      · obtain ⟨-, hper, -⟩ := nextPiece_of_docComment hdoc
        have hlines : lines = Text.keepLines text := dif_pos hper
        rw [hlines, hdoc]
        exact ih.append_comment (openingMark_prefix_nextPiece hdoc)
      · refine ih.append_other ?_
        simp [hdoc]

/-- The text of a comment starts with the opening mark. -/
theorem IsComment.openingMark_prefix {source : String} (h : IsComment (lexemes source) start last)
    (hspells : Spells (lexemes source) start last text) : openingMark <+: text := by
  obtain ⟨word, hword⟩ := h.kind_start
  have hopening := startsMarked_lexemes source start word hword h.fresh
  have hle := h.le
  have hfirst : (commentLines text)[0]? = some (.docComment, word) := by
    rw [← hspells.lines, List.getElem?_drop, List.getElem?_take, if_pos (by omega)]
    exact hword
  rw [commentLines, List.getElem?_map] at hfirst
  obtain ⟨line, hline, hpair⟩ := Option.map_eq_some_iff.mp hfirst
  rw [← (Prod.mk.inj hpair).2, String.toList_ofList] at hopening
  refine hopening.trans ?_
  -- the first line is a start of all lines
  rcases hlines : Text.keepLines text with _ | ⟨first, others⟩
  · rw [hlines] at hline
    cases hline
  · rw [hlines] at hline
    obtain rfl : first = line := Option.some.inj hline
    rw [← Text.flatten_keepLines text, hlines, List.flatten_cons]
    exact List.prefix_append first _

/-! ### Both marks -/

/-- The shortest text that starts with the opening mark and ends with the closing mark. -/
def sharedStar : List Char := ['/', '*', '*', '/']

/-- **Between the marks stands a text, or they share a star.** -/
theorem marks_cases (hopening : openingMark <+: text) (hclosing : closingMark <:+ text) :
    text = sharedStar ∨ ∃ body, text = openingMark ++ (body ++ closingMark) := by
  obtain ⟨rest, rfl⟩ := hopening
  rcases List.suffix_or_suffix_of_suffix hclosing (List.suffix_append openingMark rest)
    with hrest | hrest
  · obtain ⟨body, rfl⟩ := hrest
    exact Or.inr ⟨body, rfl⟩
  · -- not both characters of the closing mark are behind the opening mark, unless it is all
    -- that is there
    rw [← List.mem_tails] at hrest
    simp only [closingMark, List.tails, List.mem_cons, List.not_mem_nil, or_false] at hrest
    rcases hrest with rfl | rfl | rfl
    · exact Or.inr ⟨[], rfl⟩
    · exact Or.inl rfl
    · exact absurd hclosing (by decide)

/-! ### Tags without a name -/

/-- Whether a line is an at sign without a name. -/
def isUnnamedTag : List Char → Bool
  | '@' :: text => (text.takeWhile (!Text.isBlank ·)).isEmpty
  | _ => false

/-- Such a line is a tag line. -/
theorem isTagLine_of_isUnnamedTag (h : isUnnamedTag text = true) : isTagLine text = true := by
  unfold isUnnamedTag at h
  split at h
  · rfl
  · cases h

/-- A step that cannot fail adds no failure. -/
theorem bind_eq_error_iff {ε α β : Type} {x : Except ε α} {f : α → Except ε β} {e : ε}
    (hf : ∀ a, ∃ b, f a = .ok b) : (x >>= f) = .error e ↔ x = .error e := by
  rcases x with e' | a
  · change Except.error e' = Except.error e ↔ _
    rw [Except.error.injEq, Except.error.injEq]
  · obtain ⟨b, hb⟩ := hf a
    change f a = .error e ↔ _
    rw [hb]
    simp

/-- **Reading tags stops at the first one without a name**, and at nothing else. -/
theorem readTags_eq_error_iff {numbered : List (List Char × Nat)} {p : ReadProblem} :
    readTags numbered = .error p ↔
      ∃ entry, numbered.find? (fun entry => isUnnamedTag entry.1) = some entry ∧
        p = .unnamedTag entry.2 := by
  fun_induction readTags numbered with
  | case1 => simp
  | case2 text line rest hname =>
      rw [List.find?_cons_of_pos (by simpa [isUnnamedTag] using hname)]
      simp [eq_comm]
  | case3 text line rest hname ih =>
      rw [List.find?_cons_of_neg (by simpa [isUnnamedTag] using hname), ← ih]
      exact bind_eq_error_iff fun _ => ⟨_, rfl⟩
  | case4 text line rest hplain ih =>
      have hnamed : isUnnamedTag text = false := by
        unfold isUnnamedTag
        split
        · next text' => exact absurd rfl (hplain text')
        · rfl
      rw [List.find?_cons_of_neg (by simp [hnamed]), ← ih]
      exact bind_eq_error_iff fun _ => ⟨_, rfl⟩

/-- No description line is a tag without a name. -/
theorem find?_taggedLines (body : List Char) :
    (taggedLines body).find? (fun entry => isUnnamedTag entry.1) =
      (contentLines body).zipIdx.find? fun entry => isUnnamedTag entry.1 := by
  have hfront : ((contentLines body).zipIdx.take (descriptionOf body).length).find?
      (fun entry => isUnnamedTag entry.1) = none := by
    rw [List.find?_eq_none]
    rintro ⟨text, n⟩ hmem hunnamed
    have htext : text ∈ descriptionOf body := by
      have hprefix : descriptionOf body <+: contentLines body := List.takeWhile_prefix _
      rw [List.prefix_iff_eq_take.mp hprefix, ← List.zipIdx_map_fst 0 (contentLines body),
        ← List.map_take]
      exact List.mem_map_of_mem hmem
    -- the description ends in front of the first tag line
    have hplain := List.mem_takeWhile_imp htext
    rw [isTagLine_of_isUnnamedTag hunnamed] at hplain
    cases hplain
  conv_rhs => rw [← List.take_append_drop (descriptionOf body).length (contentLines body).zipIdx]
  rw [List.find?_append, hfront]
  rfl

namespace DocBlock

/-- **Between the marks, reading fails at the first at sign without a name**, and at nothing
else. -/
theorem readBody_eq_error_iff {p : ReadProblem} :
    readBody body = .error p ↔
      ∃ n, (contentLines body).findIdx? isUnnamedTag = some n ∧ p = .unnamedTag n := by
  have hmap : readBody body = .error p ↔ readTags (taggedLines body) = .error p :=
    bind_eq_error_iff fun _ => ⟨_, rfl⟩
  rw [hmap, readTags_eq_error_iff, find?_taggedLines, List.findIdx?_eq_fst_find?_zipIdx]
  constructor
  · rintro ⟨entry, hfind, rfl⟩
    exact ⟨entry.2, Option.map_eq_some_iff.mpr ⟨entry, hfind, rfl⟩, rfl⟩
  · rintro ⟨n, hfind, rfl⟩
    obtain ⟨entry, hentry, rfl⟩ := Option.map_eq_some_iff.mp hfind
    exact ⟨entry, hentry, rfl⟩

/-- What the reader reports. -/
theorem reader_eq_error_iff {e : CommentError} : reader raw = .error e ↔
    ∃ p, read raw = .error p ∧ e = p.toError := by
  refine ⟨exists_of_reader_eq_error, ?_⟩
  rintro ⟨p, hread, rfl⟩
  rw [reader, hread]
  rfl

/-- **How reading a text with an opening mark ends**, if it has no closing mark but at its end. -/
theorem read_cases_of_marks (hopening : openingMark <+: raw.toList)
    (hclosing : closingMark <:+ raw.toList ∨ ¬ closingMark <:+: raw.toList) :
    (∃ n, read raw = .error (.unterminated n) ∧ (¬ closingMark <:+ raw.toList ∨ raw = "/**/")) ∨
    ∃ body, raw.toList = openingMark ++ (body ++ closingMark) ∧ read raw = readBody body := by
  rcases hclosing with hclosing | hnone
  · rcases marks_cases hopening hclosing with hshared | ⟨body, hbody⟩
    · obtain rfl : raw = "/**/" := String.toList_inj.mp hshared
      exact Or.inl ⟨0, by decide +kernel, Or.inr rfl⟩
    · exact Or.inr ⟨body, hbody, read_of_toList hbody⟩
  · left
    obtain ⟨rest, hrest⟩ := hopening
    have hafter : Text.after? "/**".toList raw.toList = some rest := by
      rw [← hrest]
      exact Text.after?_append _ _
    rcases hbody : commentBody? raw with _ | body
    · exact ⟨_, read_of_commentBody?_eq_none hafter hbody, Or.inl (mt List.IsSuffix.isInfix hnone)⟩
    · -- behind what the reader found there would be a closing mark
      obtain ⟨tail, htail⟩ := marked_of_commentBody? hbody
      refine absurd ?_ hnone
      rw [htail, ← List.append_assoc]
      exact List.infix_append _ _ _

/-- **How reading a comment of a source text ends**, for every comment that the lexer finds there.
The opening mark is never missed. The reader finds the comment unterminated exactly if it does not
end with the closing mark, or if it is the shortest one, whose marks share a star. Every other
comment has a text between its marks, and reading that text fails at its first line that is an at
sign without a name, and at nothing else. -/
theorem reader_of_comment (source : String) {start last : Nat}
    (h : IsComment (lexemes source) start last) :
    let raw := (TokenSeq.ofSource source).textOf start last
    (∀ e, reader raw = .error e → e.message ≠ "Comment does not start with /**") ∧
    ((∃ e, reader raw = .error e ∧ e.message = "Unterminated doc comment") ↔
      ¬ closingMark <:+ raw.toList ∨ raw = "/**/") ∧
    (closingMark <:+ raw.toList → raw ≠ "/**/" →
      ∃ body, raw.toList = openingMark ++ (body ++ closingMark) ∧
        ∀ e, reader raw = .error e ↔
          ∃ n, (contentLines body).findIdx? isUnnamedTag = some n ∧
            e = ⟨"Tag name missing after @", n⟩) := by
  intro raw
  obtain ⟨text, hspells⟩ := (commentsSpelled_lexemes source).spelled start last h
  have htext : raw.toList = text := by
    have hraw : raw = String.ofList text := TokenSeq.textOf_of_spells hspells
    rw [hraw, String.toList_ofList]
  have hopening : openingMark <+: raw.toList := htext ▸ h.openingMark_prefix hspells
  have hclosing : closingMark <:+ raw.toList ∨ ¬ closingMark <:+: raw.toList :=
    htext ▸ hspells.closing
  rcases read_cases_of_marks hopening hclosing with ⟨n, hread, hunclosed⟩ | ⟨body, hbody, hread⟩
  · have herror : reader raw = .error ⟨"Unterminated doc comment", n⟩ :=
      reader_eq_error_iff.mpr ⟨_, hread, rfl⟩
    refine ⟨?_, ⟨fun _ => hunclosed, fun _ => ⟨_, herror, rfl⟩⟩, fun hclosed hne => ?_⟩
    · intro e he
      obtain rfl := Except.error.inj (herror.symm.trans he)
      simp
    · exact absurd hunclosed (not_or_intro (not_not_intro hclosed) hne)
  · have herror : ∀ e, reader raw = .error e ↔
        ∃ n, (contentLines body).findIdx? isUnnamedTag = some n ∧
          e = ⟨"Tag name missing after @", n⟩ := by
      intro e
      rw [reader_eq_error_iff, hread]
      simp only [readBody_eq_error_iff]
      constructor
      · rintro ⟨p, ⟨n, hn, rfl⟩, rfl⟩
        exact ⟨n, hn, rfl⟩
      · rintro ⟨n, hn, rfl⟩
        exact ⟨_, ⟨n, hn, rfl⟩, rfl⟩
    refine ⟨?_, ⟨?_, ?_⟩, fun _ _ => ⟨body, hbody, herror⟩⟩
    · intro e he
      obtain ⟨n, -, rfl⟩ := (herror e).mp he
      simp
    · rintro ⟨e, he, hmessage⟩
      obtain ⟨n, -, rfl⟩ := (herror e).mp he
      simp at hmessage
    · rintro (hopen | hshort)
      · refine absurd ?_ hopen
        rw [hbody, ← List.append_assoc]
        exact List.suffix_append _ _
      · -- the marks do not share a star
        have hlength := congrArg List.length hbody
        rw [hshort] at hlength
        simp [openingMark, closingMark] at hlength

/-- A source text with a comment of four lines, of which the third one is an at sign without a
name. -/
def namelessTag : String := "<?php\n/**\n * Loads.\n * @ net\n */"

/-- The comment is read up to that line. -/
theorem reader_of_comment_namelessTag :
    IsComment (lexemes namelessTag) 1 4 ∧
      (TokenSeq.ofSource namelessTag).textOf 1 4 = "/**\n * Loads.\n * @ net\n */" ∧
      reader ((TokenSeq.ofSource namelessTag).textOf 1 4) =
        .error ⟨"Tag name missing after @", 2⟩ := by
  have hlexemes : lexemes namelessTag = [(.openTag, "<?php\n"), (.docComment, "/**\n"),
      (.docComment, " * Loads.\n"), (.docComment, " * @ net\n"), (.docComment, " */")] := by
    decide +kernel
  have hcomment : IsComment (lexemes namelessTag) 1 4 := by
    rw [hlexemes]
    refine ⟨by decide, ?_, ?_, ⟨" */", rfl⟩, by decide⟩
    · intro i hi
      obtain rfl : i = 0 := by omega
      decide
    · intro i hstart hlast
      obtain rfl | rfl | rfl : i = 1 ∨ i = 2 ∨ i = 3 := by omega
      · decide
      · decide
      · decide
  have htext : (TokenSeq.ofSource namelessTag).textOf 1 4 = "/**\n * Loads.\n * @ net\n */" := by
    decide +kernel
  have hmarks : "/**\n * Loads.\n * @ net\n */".toList =
      openingMark ++ ("\n * Loads.\n * @ net\n ".toList ++ closingMark) := by decide +kernel
  obtain ⟨-, -, hmarked⟩ := reader_of_comment namelessTag hcomment
  obtain ⟨body, hbody, herror⟩ := hmarked (by rw [htext]; decide) (by rw [htext]; decide)
  rw [htext, hmarks] at hbody
  obtain rfl := List.append_cancel_right (List.append_cancel_left hbody)
  exact ⟨hcomment, htext, (herror _).mpr ⟨2, by decide +kernel, rfl⟩⟩

/-- **The lexer ends a comment that the reader finds unterminated**: the marks share a star. -/
theorem reader_of_comment_sharedStar :
    lexemes "<?php\n/**/" = [(.openTag, "<?php\n"), (.docComment, "/**/")] ∧
      closingMark <:+ "/**/".toList ∧ reader "/**/" = .error ⟨"Unterminated doc comment", 0⟩ := by
  decide +kernel

end DocBlock

end PhpStyle
