import PhpStyle.Proofs.Doc.Comments
import PhpStyle.Proofs.Lexemes
import PhpStyle.Rule.RepeatedBlock

/-!
# Two blocks in front of a class

The lines of all documentation comments in front of a class are one list. The block of the file ends
at the first line that is a closing mark and nothing else, and the rest is the block of the class. A
block whose closing mark stands behind other text has no such line; then both blocks are taken for
the block of the file. `RepeatedBlock.check_twoBlocks` says what is reported: the lines of the first
block that the second one lacks exactly if the first block closes alone
(`RepeatedBlock.ClosesAlone`), and otherwise every line of both.

The comments of a file are tokens, one for each line, and it has to be known that they come from
blocks (`IsBlock`, `BlocksBefore`). In a source text they do, one block for each comment, if some
other token follows: a comment that is not closed goes to the end of the text. This is shown along
the recursion of the lexer, where a piece is put in front of the lexemes of the rest
(`BlockLines`, `exists_blocksBefore`).

A block ends with its first closing mark. So no line but the last one can be a closing mark alone
(`RepeatedBlock.exists_lines`), and the lines that are compared have one such line at their end, or
none. This tells where the lines of two blocks are split (`RepeatedBlock.splitBlocks_compared`,
`RepeatedBlock.splitBlocks_compared_of_not`). If they are taken for one block, nothing is left to
compare with, and all lines are lacking.

For the converse the reports are counted. A block has a line to compare
(`RepeatedBlock.compared_ne_nil`), so if both blocks are reported, that is more than the first one
has. How more than two blocks are split is not said.
-/

namespace PhpStyle

variable {c : Char} {cs text : List Char} {i : Nat}

/-! ### Blocks -/

/-- A text is one documentation block: it starts with an opening mark, and ends with the
first closing mark. -/
@[mk_iff] structure IsBlock (text : List Char) : Prop where
  /-- It starts with the mark. -/
  opening : openingMark <+: text
  /-- It ends with the mark. -/
  closing : closingMark <:+ text
  /-- There is no closing mark before. -/
  first : ¬ closingMark <:+: text.dropLast

/-- Whether a text is a block can be computed. -/
instance decidableIsBlock (text : List Char) : Decidable (IsBlock text) :=
  decidable_of_iff _ (isBlock_iff text).symm

/-- The documentation comments in front of the token `i` are the lines of the given blocks. -/
@[mk_iff] structure BlocksBefore (s : TokenSeq) (i : Nat) (texts : List (List Char)) : Prop where
  /-- The token is there. -/
  lt_size : i < s.size
  /-- The texts are blocks. -/
  blocks : ∀ text ∈ texts, IsBlock text
  /-- Their lines are the comments. -/
  lines : ((s.tokens.toList.take i).filter (·.kind == .docComment)).map (·.text.toList) =
    texts.flatMap Text.keepLines

/-- Whether the comments are the lines of the blocks can be computed. -/
instance decidableBlocksBefore (s : TokenSeq) (i : Nat) (texts : List (List Char)) :
    Decidable (BlocksBefore s i texts) :=
  decidable_of_iff _ (blocksBefore_iff s i texts).symm

/-- A comment that something follows is a block. -/
theorem isBlock_nextPiece {region : Region} (hkind : (nextPiece region c cs).kind = .docComment)
    (hrest : cs.drop (nextPiece region c cs).more ≠ []) :
    IsBlock (c :: cs.take (nextPiece region c cs).more) := by
  obtain ⟨-, -, hmore⟩ := nextPiece_of_docComment hkind
  rw [hmore] at hrest ⊢
  have hclosing := (through_cases closingMark_ne_nil c cs).resolve_right fun hnone => hrest hnone.2
  have hopening := openingMark_prefix_nextPiece hkind
  rw [hmore] at hopening
  exact ⟨hopening, hclosing, not_infix_dropLast_through closingMark_ne_nil c cs⟩

/-- The comments in front of every lexeme that is none are the lines of blocks. -/
def BlockLines (entries : List (Kind × List Char)) : Prop :=
  ∀ (i : Nat) (entry : Kind × List Char), entries[i]? = some entry → entry.1 ≠ .docComment →
    ∃ texts : List (List Char), (∀ text ∈ texts, IsBlock text) ∧
      ((entries.take i).filter (·.1 == .docComment)).map (·.2) = texts.flatMap Text.keepLines

namespace BlockLines

variable {front rear : List (Kind × List Char)}

/-- There is no comment in an empty list. -/
theorem nil : BlockLines [] := by
  intro i entry hentry
  simp at hentry

/-- A piece that is no comment is put in front. -/
theorem append_other (h : BlockLines rear) (hfront : ∀ entry ∈ front, entry.1 ≠ .docComment) :
    BlockLines (front ++ rear) := by
  have hnone : ∀ n, (front.take n).filter (·.1 == .docComment) = [] := by
    intro n
    rw [List.filter_eq_nil_iff]
    intro entry hentry
    simpa using hfront entry (List.mem_of_mem_take hentry)
  intro i entry hentry hkind
  by_cases hi : i < front.length
  · refine ⟨[], by simp, ?_⟩
    rw [List.take_append_of_le_length hi.le, hnone]
    rfl
  · obtain ⟨i, rfl⟩ := Nat.exists_eq_add_of_le (Nat.le_of_not_lt hi)
    rw [List.getElem?_append_right (Nat.le_add_right _ _), Nat.add_sub_cancel_left] at hentry
    obtain ⟨texts, hblocks, htexts⟩ := h i entry hentry hkind
    refine ⟨texts, hblocks, ?_⟩
    have hall := hnone front.length
    rw [List.take_length] at hall
    rw [List.take_length_add_append, List.filter_append, hall, List.nil_append, htexts]

/-- A comment is put in front. It is a block if anything follows. -/
theorem append_comment (h : BlockLines rear) (hblock : rear ≠ [] → IsBlock text) :
    BlockLines ((Text.keepLines text).map (.docComment, ·) ++ rear) := by
  intro i entry hentry hkind
  set front : List (Kind × List Char) := (Text.keepLines text).map (.docComment, ·) with hfront
  by_cases hi : i < front.length
  · rw [List.getElem?_append_left hi] at hentry
    obtain ⟨line, -, rfl⟩ := List.mem_map.mp (List.mem_of_getElem? hentry)
    exact absurd rfl hkind
  · obtain ⟨i, rfl⟩ := Nat.exists_eq_add_of_le (Nat.le_of_not_lt hi)
    rw [List.getElem?_append_right (Nat.le_add_right _ _), Nat.add_sub_cancel_left] at hentry
    obtain ⟨texts, hblocks, htexts⟩ := h i entry hentry hkind
    have hrear : rear ≠ [] := List.ne_nil_of_mem (List.mem_of_getElem? hentry)
    refine ⟨text :: texts, List.forall_mem_cons.mpr ⟨hblock hrear, hblocks⟩, ?_⟩
    have hall : front.filter (·.1 == .docComment) = front := by
      rw [List.filter_eq_self]
      intro entry hentry
      obtain ⟨line, -, rfl⟩ := List.mem_map.mp hentry
      rfl
    rw [List.take_length_add_append, List.filter_append, hall, List.map_append, htexts,
      List.flatMap_cons, hfront, List.map_map]
    exact congrArg (· ++ _) (List.map_id _)

end BlockLines

/-- The comments of a source text, in front of anything else, are the lines of blocks. -/
theorem blockLines_scan (region : Region) (cs : List Char) : BlockLines (scan region cs) := by
  fun_induction scan region cs with
  | case1 => exact BlockLines.nil
  | case2 region c cs piece text lines ih =>
      by_cases hdoc : piece.kind = .docComment
      · obtain ⟨-, hper, -⟩ := nextPiece_of_docComment hdoc
        have hlines : lines = Text.keepLines text := dif_pos hper
        rw [hlines, hdoc]
        refine ih.append_comment fun hrear => isBlock_nextPiece hdoc ?_
        intro hdrop
        apply hrear
        rw [hdrop, scan]
      · refine ih.append_other ?_
        simp [hdoc]

/-- The tokens of a source text are its lexemes. -/
theorem TokenSeq.map_lexeme_ofSource (source : String) :
    (ofSource source).tokens.toList.map (fun t => (t.kind, t.text.toList)) =
      scan .markup source.toList := by
  have hlength := size_ofSource source
  apply List.ext_getElem?
  intro n
  rw [List.getElem?_map, Array.getElem?_toList]
  by_cases hn : n < (ofSource source).size
  · obtain ⟨t, ht⟩ := exists_get? hn
    rw [getElem?_scan_of_get? ht, show (ofSource source).tokens[n]? = some t from ht,
      Option.map_some]
  · rw [List.getElem?_eq_none (by omega), Array.getElem?_eq_none (Nat.le_of_not_lt hn),
      Option.map_none]

/-- **The comments in front of a token of a source text** are blocks, if the token is no comment
itself. -/
theorem exists_blocksBefore {source : String} {t : Token}
    (ht : (TokenSeq.ofSource source).get? i = some t) (hkind : t.kind ≠ .docComment) :
    ∃ texts, BlocksBefore (.ofSource source) i texts := by
  obtain ⟨texts, hblocks, htexts⟩ :=
    blockLines_scan .markup source.toList i _ (TokenSeq.getElem?_scan_of_get? ht) hkind
  refine ⟨texts, TokenSeq.lt_size_of_get? ht, hblocks, ?_⟩
  rw [← htexts, ← TokenSeq.map_lexeme_ofSource, ← List.map_take, List.filter_map, List.map_map]
  rfl

/-! ### The lines of a block -/

namespace RepeatedBlock

/-- The lines of a block that are compared. -/
def compared (text : List Char) : List (List Char) :=
  ((Text.keepLines text).map Text.trim).filter (!isFree ·)

/-- The closing mark of a block is alone on its line. -/
def ClosesAlone (text : List Char) : Prop :=
  ((Text.keepLines text).getLast?).map Text.trim = some closingLine

/-- This can be computed. -/
instance decidableClosesAlone (text : List Char) : Decidable (ClosesAlone text) :=
  inferInstanceAs (Decidable (_ = _))

/-- A block has a last line, and no line before that is a closing mark. -/
theorem exists_lines (h : IsBlock text) :
    ∃ lines last, Text.keepLines text = lines ++ [last] ∧
      ∀ line ∈ lines, Text.trim line ≠ closingLine := by
  -- a block is not empty, and a closing mark on an earlier line would not be the first one to end it
  rcases List.eq_nil_or_concat' (Text.keepLines text) with hnil | ⟨lines, last, hlines⟩
  · have htext := Text.flatten_keepLines text
    rw [hnil, List.flatten_nil] at htext
    have hopening := h.opening
    rw [← htext] at hopening
    exact absurd (List.prefix_nil.mp hopening) (by decide)
  · refine ⟨lines, last, hlines, fun line hline heq => h.first ?_⟩
    have hlast : last ≠ [] := by
      refine Text.ne_nil_of_mem_keepLines (?_ : last ∈ Text.keepLines text)
      rw [hlines]
      exact List.mem_append_right lines List.mem_cons_self
    have htext := Text.flatten_keepLines text
    rw [hlines, List.flatten_append, List.flatten_singleton] at htext
    rw [← htext, List.dropLast_append_of_ne_nil hlast]
    have hmark : closingMark <:+: line := by
      have hinfix := Text.isInfix_trim line
      rwa [heq] at hinfix
    exact hmark.trans ((List.infix_of_mem_flatten hline).trans (List.prefix_append _ _).isInfix)

/-- The lines that are compared, if the block closes alone: there is one closing mark, at the
end. -/
theorem compared_of_closesAlone (h : IsBlock text) (halone : ClosesAlone text) :
    ∃ lines, compared text = lines ++ [closingLine] ∧ closingLine ∉ lines := by
  obtain ⟨lines, last, hlines, hbefore⟩ := exists_lines h
  rw [ClosesAlone, hlines, List.getLast?_concat, Option.map_some, Option.some.injEq] at halone
  refine ⟨(lines.map Text.trim).filter (!isFree ·), ?_, ?_⟩
  · rw [compared, hlines, List.map_append, List.filter_append, List.map_singleton, halone]
    rfl
  · intro hmem
    obtain ⟨line, hline, heq⟩ := List.mem_map.mp (List.mem_of_mem_filter hmem)
    exact hbefore line hline heq

/-- The lines that are compared, if the block does not close alone: there is no closing mark. -/
theorem notMem_compared (h : IsBlock text) (halone : ¬ ClosesAlone text) :
    closingLine ∉ compared text := by
  obtain ⟨lines, last, hlines, hbefore⟩ := exists_lines h
  rw [ClosesAlone, hlines, List.getLast?_concat, Option.map_some, Option.some.injEq] at halone
  intro hmem
  obtain ⟨line, hline, heq⟩ := List.mem_map.mp (List.mem_of_mem_filter hmem)
  rw [hlines, List.mem_append, List.mem_singleton] at hline
  rcases hline with hline | rfl
  · exact hbefore line hline heq
  · exact halone heq

/-- The first line of a block is compared, whatever follows the opening mark on it. -/
theorem compared_ne_nil (h : IsBlock text) : compared text ≠ [] := by
  obtain ⟨rest, rfl⟩ := h.opening
  obtain ⟨line, lines, hlines⟩ : ∃ line lines,
      Text.keepLines (openingMark ++ rest) = (openingMark ++ line) :: lines := by
    rcases hrest : Text.keepLines rest with _ | ⟨line, lines⟩
    · exact ⟨[], [], by simp [openingMark, Text.keepLines, hrest]⟩
    · exact ⟨line, lines, by simp [openingMark, Text.keepLines, hrest]⟩
  -- no blank is cut off in front of the mark or in it
  obtain ⟨tail, htail⟩ : ∃ tail, Text.trim (openingMark ++ line) = openingMark ++ tail := by
    have hstart : Text.trimStart (openingMark ++ line) = openingMark ++ line := rfl
    have hmark : openingMark.reverse.dropWhile Text.isBlank = openingMark.reverse := rfl
    refine ⟨(line.reverse.dropWhile Text.isBlank).reverse, ?_⟩
    rw [Text.trim, hstart, Text.trimEnd, Text.dropEndWhile, List.reverse_append,
      List.dropWhile_append, hmark]
    split
    · next hempty => simp [List.isEmpty_iff.mp hempty]
    · rw [List.reverse_append, List.reverse_reverse]
  have hfree : isFree (openingMark ++ tail) = false := rfl
  rw [compared, hlines, List.map_cons, htail, List.filter_cons, hfree]
  simp

/-! ### Where the lines are split -/

variable {file cls : List Char} {front lines first second : List (List Char)}

/-- The lines are split behind the first closing mark. -/
theorem splitBlocks_append (h : closingLine ∉ front) (rest : List (List Char)) :
    splitBlocks (front ++ closingLine :: rest) = (front ++ [closingLine], rest) := by
  induction front with
  | nil => rfl
  | cons line front ih =>
      rw [List.mem_cons, not_or] at h
      rw [List.cons_append, splitBlocks, if_neg (by simpa using Ne.symm h.1), ih h.2]
      rfl

/-- Lines without a closing mark are not split. -/
theorem splitBlocks_of_notMem (h : closingLine ∉ lines) : splitBlocks lines = (lines, []) := by
  induction lines with
  | nil => rfl
  | cons line lines ih =>
      rw [List.mem_cons, not_or] at h
      rw [splitBlocks, if_neg (by simpa using Ne.symm h.1), ih h.2]

/-- **Two blocks are told apart** if the first one closes alone. -/
theorem splitBlocks_compared (hfile : IsBlock file) (halone : ClosesAlone file) :
    splitBlocks (compared file ++ compared cls) = (compared file, compared cls) := by
  obtain ⟨lines, hlines, hnot⟩ := compared_of_closesAlone hfile halone
  rw [hlines, List.append_assoc, List.singleton_append, splitBlocks_append hnot]

/-- **Two blocks are taken for one** if the first one does not close alone, whether or not
the second one does. -/
theorem splitBlocks_compared_of_not (hfile : IsBlock file) (hcls : IsBlock cls)
    (halone : ¬ ClosesAlone file) :
    splitBlocks (compared file ++ compared cls) = (compared file ++ compared cls, []) := by
  have hnot := notMem_compared hfile halone
  by_cases hclosed : ClosesAlone cls
  · obtain ⟨lines, hlines, hnot'⟩ := compared_of_closesAlone hcls hclosed
    have hfront : closingLine ∉ compared file ++ lines := by simp [hnot, hnot']
    rw [hlines, ← List.append_assoc, splitBlocks_append hfront]
  · have hnot' := notMem_compared hcls hclosed
    exact splitBlocks_of_notMem (by simp [hnot, hnot'])

/-! ### What is reported -/

/-- The numbers of the lines of the first list that the second one lacks. -/
def lacking (first second : List (List Char)) : List Nat :=
  (List.range first.length).filter fun k => first[k]?.any (!second.contains ·)

/-- No list lacks a line of its own. -/
theorem lacking_self (lines : List (List Char)) : lacking lines lines = [] := by
  rw [lacking, List.filter_eq_nil_iff]
  intro k hk
  have hk := List.mem_range.mp hk
  rw [List.getElem?_eq_getElem hk, Option.any_some, List.contains_iff_mem.mpr (List.getElem_mem hk)]
  simp

/-- The empty list lacks all lines. -/
theorem lacking_nil (lines : List (List Char)) : lacking lines [] = List.range lines.length := by
  rw [lacking, List.filter_eq_self]
  intro k hk
  rw [List.getElem?_eq_getElem (List.mem_range.mp hk)]
  rfl

/-- The report about the line `k`, at the class. -/
def differs (u : SourceUnit) (i k : Nat) : Violation :=
  id.violation u i .error s!"File and class doc block differ in line {k}"

/-- The compared lines of the comments in front of a token. -/
theorem comparedLines_of_blocksBefore {s : TokenSeq} {texts : List (List Char)}
    (h : BlocksBefore s i texts) :
    comparedLines (s.tokens.toList.take i) = texts.flatMap compared := by
  have hlines : ((s.tokens.toList.take i).filter (·.kind == .docComment)).map (fun t =>
      Text.trim t.text.toList) = (texts.flatMap Text.keepLines).map Text.trim := by
    rw [← h.lines, List.map_map]
    rfl
  rw [comparedLines, hlines, List.map_flatMap, List.filter_flatMap]
  rfl

/-- The lines that differ are those of the first part that the second part lacks. -/
theorem differences_of_splitBlocks {tokens : List Token}
    (h : splitBlocks (comparedLines tokens) = (first, second)) :
    differences tokens = lacking first second := by
  unfold differences lacking
  rw [h, List.range_eq_range', ← List.zipIdx_map_snd 0 first, List.filter_map]
  refine congrArg _ (List.filter_congr fun entry hentry => ?_)
  obtain ⟨line, k⟩ := entry
  have hk := List.mk_mem_zipIdx_iff_getElem?.mp hentry
  rw [Function.comp_apply, hk, Option.any_some]

/-- What is reported behind two blocks. -/
theorem check_of_splitBlocks {u : SourceUnit} (hstem : u.stem? ≠ some exemptStem)
    (hblocks : BlocksBefore u.tokens i [file, cls])
    (h : splitBlocks (compared file ++ compared cls) = (first, second)) :
    check u i = .ok { violations := (lacking first second).map (differs u i) } := by
  have hsize : i ≤ u.tokens.tokens.toList.length := by
    rw [Array.length_toList]
    exact hblocks.lt_size.le
  have hsplit : splitBlocks (comparedLines (u.tokens.tokens.toList.take i)) = (first, second) := by
    rw [comparedLines_of_blocksBefore hblocks, ← h]
    simp
  unfold check
  rw [if_neg (by simpa using hstem), firstOf, if_pos hsize, ← differences_of_splitBlocks hsplit]
  rfl

/-- **Which lines of two blocks are reported.** If the comments in front of a class are two
blocks, the lines of the first one that the second one lacks are reported, by their numbers,
exactly if the closing mark of the first block is alone on its line. If it is not, every line of
both blocks is reported that is compared. So a block that is repeated word for word is accepted
exactly if it closes alone. -/
theorem check_twoBlocks (u : SourceUnit) (i : Nat) (file cls : List Char)
    (hstem : u.stem? ≠ some exemptStem) (hblocks : BlocksBefore u.tokens i [file, cls]) :
    (check u i = .ok { violations := (lacking (compared file) (compared cls)).map (differs u i) } ↔
      ClosesAlone file) ∧
    (¬ ClosesAlone file → check u i = .ok { violations :=
      (List.range ((compared file).length + (compared cls).length)).map (differs u i) }) ∧
    (file = cls → (check u i = .ok {} ↔ ClosesAlone file)) := by
  have hfile := hblocks.blocks file List.mem_cons_self
  have hcls := hblocks.blocks cls (List.mem_cons_of_mem _ List.mem_cons_self)
  have hpos := List.length_pos_iff.mpr (compared_ne_nil hcls)
  have halone : ClosesAlone file →
      check u i = .ok { violations :=
        (lacking (compared file) (compared cls)).map (differs u i) } := by
    intro halone
    exact check_of_splitBlocks hstem hblocks (splitBlocks_compared hfile halone)
  have hnot : ¬ ClosesAlone file → check u i = .ok { violations :=
      (List.range ((compared file).length + (compared cls).length)).map (differs u i) } := by
    intro halone
    rw [check_of_splitBlocks hstem hblocks (splitBlocks_compared_of_not hfile hcls halone),
      lacking_nil, List.length_append]
  -- too many lines are reported if the first block does not close alone
  have hmore : ∀ reported : List Nat, reported.length ≤ (compared file).length →
      check u i = .ok { violations := reported.map (differs u i) } → ClosesAlone file := by
    intro reported hlength hcheck
    by_contra hopen
    rw [hnot hopen, Except.ok.injEq, Inspection.mk.injEq] at hcheck
    have hcount := congrArg List.length hcheck.1
    rw [List.length_map, List.length_map, List.length_range] at hcount
    omega
  refine ⟨⟨hmore _ ?_, halone⟩, hnot, ?_⟩
  · exact (List.length_filter_le _ _).trans List.length_range.le
  · rintro rfl
    refine ⟨hmore [] (Nat.zero_le _), fun h => ?_⟩
    rw [halone h, lacking_self]
    rfl

/-- Two blocks. The first one closes alone, and the second one has its closing mark behind the only
line that it repeats. -/
def closedBlocks : String :=
  "<?php\n/**\n * Reads.\n * @author  A\n * @package  net\n */\n/**\n * Reads. */\nclass Request"

/-- Three lines of the first block are missing. The line of the author is not counted. -/
theorem check_twoBlocks_closedBlocks :
    BlocksBefore (.ofSource closedBlocks) 10
      ["/**\n * Reads.\n * @author  A\n * @package  net\n */".toList, "/**\n * Reads. */".toList] ∧
    check (.ofText closedBlocks) 10 =
      .ok { violations := [1, 2, 3].map (differs (.ofText closedBlocks) 10) } := by
  have hblocks : BlocksBefore (.ofSource closedBlocks) 10
      ["/**\n * Reads.\n * @author  A\n * @package  net\n */".toList,
        "/**\n * Reads. */".toList] := by
    decide +kernel
  have hcheck :=
    (check_twoBlocks (.ofText closedBlocks) 10 _ _ (by decide) hblocks).1.mpr (by decide)
  have hlacking : lacking (compared "/**\n * Reads.\n * @author  A\n * @package  net\n */".toList)
      (compared "/**\n * Reads. */".toList) = [1, 2, 3] := by
    decide
  rw [hlacking] at hcheck
  exact ⟨hblocks, hcheck⟩

/-- A block on one line, twice. -/
def sameLine : String :=
  "<?php\n/** Request handling. */\n\n/** Request handling. */\nclass Request {}\n"

/-- **A block that is repeated word for word is reported**, with every line of both blocks,
because it is on one line. -/
theorem check_sameLine :
    BlocksBefore (.ofSource sameLine) 6 ["/** Request handling. */".toList,
      "/** Request handling. */".toList] ∧
    check (.ofText sameLine) 6 =
      .ok { violations := [0, 1].map (differs (.ofText sameLine) 6) } := by
  decide +kernel

end RepeatedBlock

end PhpStyle
