import PhpStyle.Proofs.Doc.Comments
import PhpStyle.Proofs.Lexemes

/-!
# Newlines at the ends of tokens

Rules that count lines rely on where newlines stand in the tokens of a source text: whitespace and
the lines of documentation comments hold one at their end at most, and so does a comment that goes
to the end of its line. A run of whitespace is cut behind its newlines only, and a comment to the
end of its line has the newline, unless the text ends there. The result is
`TokenSeq.lineEnds_ofSource`.

The first two are known from the shapes of pieces. What is new here are the comments to the end of a
line, which are known by their first characters (`IsLineComment`). Of kind they are the same as
comments between marks, but those start otherwise. So such a comment as a piece goes through the
first newline, or to the end of the text (`Piece.Remark.lineEnd`). To say the latter of tokens it
has to be known what follows them, and therefore the recursion of the lexer is followed with the
lexemes behind the comment at hand (`lineEnd_of_suffix_scan`): the comment is the one lexeme of the
piece that is cut off now, or it is among the lexemes of the rest.
-/

namespace PhpStyle

variable {region : Region} {c : Char} {cs text : List Char}

/-! ### Comments to the end of a line -/

/-- A text starts like a comment to the end of a line, with two slashes or a number sign. -/
def IsLineComment (text : List Char) : Prop := ['/', '/'] <+: text ∨ ['#'] <+: text

instance decidableIsLineComment (text : List Char) : Decidable (IsLineComment text) :=
  inferInstanceAs (Decidable (['/', '/'] <+: text ∨ ['#'] <+: text))

/-- A comment up to a closing mark does not start so. -/
theorem not_isLineComment_of_blockMark (h : ['/', '*'] <+: text) : ¬ IsLineComment text := by
  obtain ⟨rest, rfl⟩ := h
  rintro (⟨tail, htail⟩ | ⟨tail, htail⟩)
  · simp at htail
  · simp at htail

/-- What a beginning of a text starts with, the text starts with. -/
theorem IsLineComment.mono {lead : List Char} (h : IsLineComment lead) (hlead : lead <+: text) :
    IsLineComment text :=
  h.imp (fun hslashes => hslashes.trans hlead) fun hsign => hsign.trans hlead

/-- **A comment to the end of its line goes through the first newline**, or to the end of the
text if there is none. -/
theorem Piece.Remark.lineEnd {piece : Piece} (h : piece.Remark c cs) (hkind : piece.kind = .comment)
    (hline : IsLineComment (c :: cs.take piece.more)) :
    '\n' ∉ (c :: cs.take piece.more).dropLast ∧
      ((c :: cs.take piece.more).getLast? = some '\n' ∨ cs.drop piece.more = []) := by
  cases h with
  | doc hother =>
      rw [hkind] at hother
      cases hother
  | block _ _ hstart _ =>
      have hpiece : c :: cs.take piece.more <+: c :: cs :=
        (List.prefix_cons_inj c).mpr (List.take_prefix _ _)
      exact absurd (hline.mono hpiece) (not_isLineComment_of_blockMark hstart)
  | line _ _ _ hmore =>
      have hne : ['\n'] ≠ [] := List.cons_ne_nil _ _
      rw [hmore]
      refine ⟨?_, ?_⟩
      · rw [← List.singleton_infix_iff]
        exact not_infix_dropLast_through hne c cs
      · rcases through_cases hne c cs with ⟨lead, hlead⟩ | ⟨-, hnil⟩
        · left
          rw [← hlead, List.getLast?_concat]
        · exact Or.inr hnil

/-- A comment that is no documentation is one lexeme. -/
theorem Piece.Remark.perLine_eq {piece : Piece} (h : piece.Remark c cs)
    (hkind : piece.kind = .comment) : piece.perLine = false := by
  cases h with
  | doc hother =>
      rw [hkind] at hother
      cases hother
  | block _ hper | line _ hper => exact hper

/-- **Such a comment among the lexemes of a text** has a newline at its end only, and lacks it only
if no lexeme follows. -/
theorem lineEnd_of_suffix_scan {back : List (Kind × List Char)}
    (h : (.comment, text) :: back <:+ scan region cs) (hline : IsLineComment text) :
    '\n' ∉ text.dropLast ∧ (text.getLast? = some '\n' ∨ back = []) := by
  fun_induction scan region cs with
  | case1 =>
      rw [List.suffix_nil] at h
      cases h
  | case2 region c cs piece all lines ih =>
      obtain ⟨front, hfront⟩ := h
      -- the comment is a lexeme of this piece, or of the rest of the text
      obtain ⟨front', -, hrest⟩ | ⟨back', hlines, hback⟩ := List.append_eq_append_iff.mp hfront.symm
      · exact ih ⟨front', hrest.symm⟩
      rcases back' with _ | ⟨lexeme, back'⟩
      · exact ih (hback ▸ List.suffix_refl _)
      rw [List.cons_append, List.cons.injEq] at hback
      obtain ⟨rfl, rfl⟩ := hback
      have hkind : piece.kind = .comment := by
        have hmem : (Kind.comment, text) ∈ lines.map (piece.kind, ·) := by
          rw [hlines]
          simp
        obtain ⟨line, -, heq⟩ := List.mem_map.mp hmem
        exact congrArg Prod.fst heq
      have hremark : piece.Remark c cs := by
        apply remark_nextPiece
        · rw [show (nextPiece region c cs).kind = .comment from hkind]
          rfl
        · rw [show (nextPiece region c cs).kind = .comment from hkind]
          exact Kind.noConfusion
      -- a comment that is no documentation is not cut into lines, so it is all of the piece
      rw [show lines = [all] by simp [lines, hremark.perLine_eq hkind],
        List.map_singleton] at hlines
      obtain ⟨-, hone⟩ | ⟨-, hnone⟩ := List.append_eq_singleton_iff.mp hlines.symm
      · rw [List.cons.injEq, Prod.mk.injEq] at hone
        obtain ⟨⟨-, rfl⟩, rfl⟩ := hone
        obtain ⟨hnot, hend⟩ := hremark.lineEnd hkind hline
        refine ⟨hnot, hend.imp id fun hnil => ?_⟩
        rw [hnil, scan]
        rfl
      · cases hnone

/-! ### Tokens of a source text -/

namespace TokenSeq

variable {source : String} {i : Nat} {t : Token}

/-- The lexeme of a token, in front of those behind it. -/
theorem suffix_scan_of_get? (ht : (ofSource source).get? i = some t) :
    (t.kind, t.text.toList) :: (scan .markup source.toList).drop (i + 1) <:+
      scan .markup source.toList := by
  obtain ⟨hi, hget⟩ := List.getElem?_eq_some_iff.mp (getElem?_scan_of_get? ht)
  rw [← hget, ← List.drop_eq_getElem_cons hi]
  exact List.drop_suffix _ _

/-- A comment to the end of its line, as a token. -/
theorem lineEnd_of_get? (ht : (ofSource source).get? i = some t) (hkind : t.kind = .comment)
    (hline : IsLineComment t.text.toList) :
    '\n' ∉ t.text.toList.dropLast ∧
      (t.text.toList.getLast? ≠ some '\n' → i + 1 = (ofSource source).size) := by
  have hsuffix := suffix_scan_of_get? ht
  rw [hkind] at hsuffix
  obtain ⟨hnot, hend⟩ := lineEnd_of_suffix_scan hsuffix hline
  refine ⟨hnot, fun hlast => ?_⟩
  have hrest := List.drop_eq_nil_iff.mp (hend.resolve_left hlast)
  have hi := lt_size_of_get? ht
  rw [size_ofSource] at hi ⊢
  omega

/-- **Newlines in the tokens of a source text.** Whitespace holds a newline at its end at most, and
has one there if more whitespace follows. A line of a documentation comment holds one at its end at
most. So does a comment that starts with two slashes or a number sign, and it lacks that newline
only if it is the last token. -/
theorem lineEnds_ofSource (source : String) (i : Nat) (t : Token)
    (ht : (ofSource source).get? i = some t) :
    (t.kind = .whitespace → '\n' ∉ t.text.toList.dropLast ∧
      ∀ u, (ofSource source).get? (i + 1) = some u → u.kind = .whitespace →
        t.text.toList.getLast? = some '\n') ∧
    (t.kind = .docComment → '\n' ∉ t.text.toList.dropLast) ∧
    (t.kind = .comment → IsLineComment t.text.toList → '\n' ∉ t.text.toList.dropLast ∧
      (t.text.toList.getLast? ≠ some '\n' → i + 1 = (ofSource source).size)) := by
  have hsingle : t.kind.wraps = false → '\n' ∉ t.text.toList.dropLast :=
    newline_notMem_dropLast_of_mem_scan (mem_scan_of_get? ht)
  refine ⟨fun hkind => ⟨?_, fun u hu hnext => ?_⟩, fun hkind => ?_, fun hkind hline => ?_⟩
  · apply hsingle
    rw [hkind]
    rfl
  · exact (adjoins_of_get? ht hu).whitespace hkind hnext
  · apply hsingle
    rw [hkind]
    rfl
  · exact lineEnd_of_get? ht hkind hline

/-- Whitespace on two lines, a documentation comment on two lines, and a comment at the end of the
text. -/
def mixedLines : String := "<?php\n \n\t/** a\n */# b"

/-- The first run of whitespace ends with its newline, the first line of the documentation comment
holds none but the last one, and the comment without a newline is the last token. -/
theorem lineEnds_ofSource_mixedLines :
    ∃ t u v w, (ofSource mixedLines).get? 1 = some t ∧ (ofSource mixedLines).get? 2 = some u ∧
      (ofSource mixedLines).get? 3 = some v ∧ (ofSource mixedLines).get? 5 = some w ∧
      t.kind = .whitespace ∧ u.kind = .whitespace ∧ t.text.toList.getLast? = some '\n' ∧
      v.kind = .docComment ∧ '\n' ∉ v.text.toList.dropLast ∧
      w.kind = .comment ∧ IsLineComment w.text.toList ∧ w.text.toList.getLast? ≠ some '\n' ∧
      5 + 1 = (ofSource mixedLines).size := by
  have hlexemes : lexemes mixedLines =
      [(.openTag, "<?php\n"), (.whitespace, " \n"), (.whitespace, "\t"), (.docComment, "/** a\n"),
        (.docComment, " */"), (.comment, "# b")] := by decide +kernel
  have hget : ∀ {i kind word}, (lexemes mixedLines)[i]? = some (kind, word) →
      ∃ t, (ofSource mixedLines).get? i = some t ∧ t.kind = kind ∧ t.text = word :=
        exists_get?_ofPairs
  rw [hlexemes] at hget
  obtain ⟨t, ht, htk, -⟩ := hget (i := 1) rfl
  obtain ⟨u, hu, huk, -⟩ := hget (i := 2) rfl
  obtain ⟨v, hv, hvk, -⟩ := hget (i := 3) rfl
  obtain ⟨w, hw, hwk, hwt⟩ := hget (i := 5) rfl
  have hline : IsLineComment w.text.toList := by
    rw [hwt]
    decide
  have hlast : w.text.toList.getLast? ≠ some '\n' := by
    rw [hwt]
    decide
  obtain ⟨hblank, -, -⟩ := lineEnds_ofSource mixedLines 1 t ht
  obtain ⟨-, hdoc, -⟩ := lineEnds_ofSource mixedLines 3 v hv
  obtain ⟨-, -, hcomment⟩ := lineEnds_ofSource mixedLines 5 w hw
  exact ⟨t, u, v, w, ht, hu, hv, hw, htk, huk, (hblank htk).2 u hu huk, hvk, hdoc hvk,
    hwk, hline, hlast, (hcomment hwk hline).2 hlast⟩

end TokenSeq

end PhpStyle
