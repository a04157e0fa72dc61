import PhpStyle.Doc.Reader
import PhpStyle.Doc.Span
import PhpStyle.Proofs.Doc.Comments

/-!
# Lines of a block and tokens of a comment

Reading a comment numbers its lines, the lexer makes a token of each line, and tokens have line
numbers of their own. All three agree: the line `n` of the block is the token `n` places behind the
first one, and `n` lines below it (`DocBlock.reader_aligned`).

From the block to the comment, what has to be followed is where a line goes. Tags, and tags without
a name, come from lines that start with an at sign (`readTags_eq_ok`, `readTags_eq_error`). Such a
line is what is left of a line between the marks when its decoration is cut off
(`infix_contentLines`), and a line between the marks is part of a line of the comment, under the
same number (`Marked.exists_line`): the opening mark is on one line, so it adds to the first line
and none in front of it. The line is not empty, which is why it is also found under its number in
the other cut of the text, the one that the lexer makes.

From the comment to the tokens, it is known of source texts that a comment is spelled by the lines
of a text. Then the line `n` is the token `n` places behind the first one, and the texts between the
two hold one newline each (`TokenSeq.aligned`).

A comment that cannot be read has one of three problems (`DocBlock.read_cases`), and each of them is
on a line of the comment (`DocBlock.line_lt_of_read`). The comments here are those of source texts;
in a sequence of tokens that was made otherwise, lines may be missing.
-/

namespace PhpStyle

variable {cs body lead tail line text : List Char} {n start last : Nat} {raw : String}

/-! ### Lines without their decoration -/

/-- A text that was found behind another one. -/
theorem Text.eq_append_of_after? (h : Text.after? lead cs = some tail) : cs = lead ++ tail := by
  unfold Text.after? at h
  split at h
  · next hprefix =>
      obtain ⟨rest, rfl⟩ := List.isPrefixOf_iff_prefix.mp hprefix
      simpa using h
  · cases h

/-- A text that was found in front of another one. -/
theorem Text.eq_append_of_before? (h : Text.before? tail cs = some lead) : cs = lead ++ tail := by
  unfold Text.before? at h
  split at h
  · next hsuffix =>
      obtain ⟨front, rfl⟩ := List.isSuffixOf_iff_suffix.mp hsuffix
      simp at h
      rw [h]
  · cases h

/-- What is left when both ends are cut is part of the line. -/
theorem isInfix_trimStart_dropLineEnd (line : List Char) :
    Text.trimStart (dropLineEnd line) <:+: line :=
  (List.dropWhile_suffix _).isInfix.trans (Text.isPrefix_dropEndWhile _ line).isInfix

/-- What a later line says is part of it. -/
theorem isInfix_innerLine (line : List Char) : innerLine line <:+: line := by
  refine List.IsInfix.trans ?_ (isInfix_trimStart_dropLineEnd line)
  unfold innerLine
  split
  · next rest heq =>
      rw [heq]
      exact (List.suffix_append ['*', ' '] rest).isInfix
  · next rest _ heq =>
      rw [heq]
      exact (List.suffix_append ['*'] rest).isInfix
  · exact List.infix_rfl

/-- What a line of a comment says is part of the line. -/
theorem infix_contentLines (h : (contentLines body)[n]? = some text) :
    ∃ line, (Text.splitLines body)[n]? = some line ∧ text <:+: line := by
  unfold contentLines at h
  split at h
  · simp at h
  · next first later hlines =>
      rw [hlines]
      cases n with
      | zero =>
          rw [← Option.some.inj h]
          exact ⟨first, rfl, isInfix_trimStart_dropLineEnd first⟩
      | succ n =>
          rw [List.getElem?_cons_succ, List.getElem?_map] at h
          obtain ⟨line, hline, rfl⟩ := Option.map_eq_some_iff.mp h
          exact ⟨line, hline, isInfix_innerLine line⟩

/-! ### Tags and their lines -/

/-- Tags are found on lines that start with an at sign and go on with the name, in the
order of the lines. -/
theorem readTags_eq_ok {numbered : List (List Char × Nat)} {continuation : List (List Char)}
    {tags : List DocTag} (h : readTags numbered = .ok (continuation, tags)) :
    (tags.map (·.line)).Sublist (numbered.map (·.2)) ∧
      ∀ tag ∈ tags, ∃ text, ('@' :: text, tag.line) ∈ numbered ∧ tag.name.toList <+: text := by
  -- along the lines: a tag is put in front, or a line more belongs to the tag before it
  fun_induction readTags numbered generalizing continuation tags with
  | case1 =>
      cases h
      simp
  | case2 => cases h
  | case3 text line rest hname ih =>
      rcases hrest : readTags rest with p | ⟨continuation', tags'⟩
      · rw [hrest] at h
        cases h
      · rw [hrest] at h
        cases h
        obtain ⟨hsublist, hlines⟩ := ih hrest
        refine ⟨by simpa [readTag] using hsublist, ?_⟩
        rw [List.forall_mem_cons]
        refine ⟨⟨text, List.mem_cons_self, ?_⟩, fun tag htag => ?_⟩
        · simpa [readTag] using List.takeWhile_prefix _
        · obtain ⟨text', hmem, hprefix⟩ := hlines tag htag
          exact ⟨text', List.mem_cons_of_mem _ hmem, hprefix⟩
  | case4 text line rest _ ih =>
      rcases hrest : readTags rest with p | ⟨continuation', tags'⟩
      · rw [hrest] at h
        cases h
      · rw [hrest] at h
        cases h
        obtain ⟨hsublist, hlines⟩ := ih hrest
        refine ⟨hsublist.cons _, fun tag htag => ?_⟩
        obtain ⟨text', hmem, hprefix⟩ := hlines tag htag
        exact ⟨text', List.mem_cons_of_mem _ hmem, hprefix⟩

/-- A tag without a name is found on a line that starts with an at sign. -/
theorem readTags_eq_error {numbered : List (List Char × Nat)} {p : ReadProblem}
    (h : readTags numbered = .error p) : ∃ text, p = .unnamedTag p.line ∧
      ('@' :: text, p.line) ∈ numbered := by
  fun_induction readTags numbered with
  | case1 => cases h
  | case2 text line rest _ =>
      cases h
      exact ⟨text, rfl, List.mem_cons_self⟩
  | case3 text line rest _ ih =>
      rcases hrest : readTags rest with p' | found
      · rw [hrest] at h
        cases h
        obtain ⟨text', heq, hmem⟩ := ih hrest
        exact ⟨text', heq, List.mem_cons_of_mem _ hmem⟩
      · rw [hrest] at h
        cases h
  | case4 text line rest _ ih =>
      rcases hrest : readTags rest with p' | found
      · rw [hrest] at h
        cases h
        obtain ⟨text', heq, hmem⟩ := ih hrest
        exact ⟨text', heq, List.mem_cons_of_mem _ hmem⟩
      · rw [hrest] at h
        cases h

/-! ### Between the marks -/

/-- The text of a comment has both marks, and `body` is what stands between them. Blanks may
follow. -/
def Marked (raw : String) (body : List Char) : Prop :=
  ∃ tail, raw.toList = "/**".toList ++ body ++ (closingMark ++ tail)

/-- What is said in front of the first tag. -/
def descriptionOf (body : List Char) : List (List Char) :=
  (contentLines body).takeWhile (!isTagLine ·)

/-- What is said from the first tag on, with the numbers of the lines. -/
def taggedLines (body : List Char) : List (List Char × Nat) :=
  (contentLines body).zipIdx.drop (descriptionOf body).length

/-- The block that the text between the marks spells. -/
def DocBlock.readBody (body : List Char) : Except ReadProblem DocBlock :=
  (fun found => { describe (descriptionLines (descriptionOf body)) with tags := found.2 }) <$>
    readTags (taggedLines body)

/-- The numbers of the lines are theirs. -/
theorem getElem?_of_mem_taggedLines (h : (text, n) ∈ taggedLines body) :
    (contentLines body)[n]? = some text :=
  List.mem_zipIdx_iff_getElem?.mp (List.mem_of_mem_drop h)

/-- The lines are numbered upwards. -/
theorem taggedLines_sorted (body : List Char) :
    ((taggedLines body).map (·.2)).Pairwise (· < ·) := by
  refine List.Pairwise.sublist ((List.drop_sublist _ _).map _) ?_
  rw [List.zipIdx_map_snd]
  exact List.pairwise_lt_range'

/-- The text between the marks of a comment, if it has both. Blanks may follow. -/
def commentBody? (raw : String) : Option (List Char) :=
  (Text.after? "/**".toList raw.toList).bind fun rest =>
    Text.before? "*/".toList (Text.trimEnd rest)

/-- It stands between the marks. -/
theorem marked_of_commentBody? (h : commentBody? raw = some body) : Marked raw body := by
  obtain ⟨rest, hafter, hbefore⟩ := Option.bind_eq_some_iff.mp h
  obtain ⟨tail, htail⟩ := Text.isPrefix_dropEndWhile Text.isBlank rest
  refine ⟨tail, ?_⟩
  rw [Text.eq_append_of_after? hafter, ← htail]
  change _ ++ (Text.trimEnd rest ++ tail) = _
  rw [Text.eq_append_of_before? hbefore]
  simp [closingMark]

/-- The text between the marks is what is read. -/
theorem DocBlock.read_of_commentBody? (h : commentBody? raw = some body) :
    DocBlock.read raw = readBody body := by
  obtain ⟨rest, hafter, hbefore⟩ := Option.bind_eq_some_iff.mp h
  unfold DocBlock.read
  simp only [hafter, hbefore]
  unfold readBody taggedLines descriptionOf
  rcases readTags _ <;> rfl

/-- A comment without a text between the marks is not terminated. -/
theorem DocBlock.read_of_commentBody?_eq_none {rest : List Char}
    (hafter : Text.after? "/**".toList raw.toList = some rest) (h : commentBody? raw = none) :
    DocBlock.read raw = .error (.unterminated ((Text.keepLines raw.toList).length - 1)) := by
  rw [commentBody?, hafter, Option.bind_some] at h
  unfold DocBlock.read
  simp only [hafter, h]

/-- **How reading a comment ends.** A mark may be missing; otherwise the text between the marks is
read. -/
theorem DocBlock.read_cases (raw : String) :
    DocBlock.read raw = .error .noOpening ∨
    DocBlock.read raw = .error (.unterminated ((Text.keepLines raw.toList).length - 1)) ∨
    ∃ body, Marked raw body ∧ DocBlock.read raw = readBody body := by
  rcases hbody : commentBody? raw with _ | body
  · rcases hafter : Text.after? "/**".toList raw.toList with _ | rest
    · left
      unfold DocBlock.read
      simp only [hafter]
    · exact Or.inr (Or.inl (read_of_commentBody?_eq_none hafter hbody))
  · exact Or.inr (Or.inr ⟨body, marked_of_commentBody? hbody, read_of_commentBody? hbody⟩)

/-- **A line between the marks** that says something is part of the line of the comment with its
number. -/
theorem Marked.exists_line (h : Marked raw body) (hline : (contentLines body)[n]? = some text)
    (htext : text ≠ []) : ∃ line, (Text.keepLines raw.toList)[n]? = some line ∧ text <:+: line := by
  obtain ⟨tail, hraw⟩ := h
  obtain ⟨inner, hinner, hpart⟩ := infix_contentLines hline
  have hlead : '\n' ∉ "/**".toList := by decide
  obtain ⟨outer, houter, hpart'⟩ := Text.infix_splitLines hlead hinner (closingMark ++ tail)
  rw [← hraw] at houter
  -- an empty last line would not be kept, but this one is not empty
  have hne : outer ≠ [] := by
    rintro rfl
    exact htext (List.infix_nil.mp (hpart.trans hpart'))
  obtain ⟨line, hline, hkept⟩ := Text.exists_keepLines houter hne
  exact ⟨line, hline, (hpart.trans hpart').trans hkept.isInfix⟩

/-- **The tags of a block are in the lines of its text**, in their order and under their numbers.
The text has a closing mark. -/
theorem DocBlock.tags_of_read {doc : DocBlock} (h : DocBlock.read raw = .ok doc) :
    closingMark <:+: raw.toList ∧ (doc.tags.map (·.line)).Pairwise (· < ·) ∧
      ∀ tag ∈ doc.tags, ∃ line, (Text.keepLines raw.toList)[tag.line]? = some line ∧
        '@' :: tag.name.toList <:+: line := by
  rcases DocBlock.read_cases raw with hread | hread | ⟨body, hmarked, hread⟩
  · rw [hread] at h
    cases h
  · rw [hread] at h
    cases h
  rw [hread, readBody] at h
  rcases htags : readTags (taggedLines body) with p | ⟨continuation, tags⟩
  · rw [htags] at h
    cases h
  rw [htags] at h
  cases h
  obtain ⟨hsublist, hlines⟩ := readTags_eq_ok htags
  refine ⟨?_, ?_, ?_⟩
  · obtain ⟨tail, hraw⟩ := hmarked
    rw [hraw, ← List.append_assoc]
    exact List.infix_append _ _ _
  · exact (taggedLines_sorted body).sublist hsublist
  · intro tag htag
    obtain ⟨text, hmem, hname⟩ := hlines tag htag
    obtain ⟨line, hline, hpart⟩ :=
      hmarked.exists_line (getElem?_of_mem_taggedLines hmem) (List.cons_ne_nil _ _)
    exact ⟨line, hline, ((List.prefix_cons_inj '@').mpr hname).isInfix.trans hpart⟩

/-- The line of a problem is a line of the text. -/
theorem DocBlock.line_lt_of_read {p : ReadProblem} (h : DocBlock.read raw = .error p)
    (hraw : raw ≠ "") : p.line < (Text.keepLines raw.toList).length := by
  -- a missing opening mark is on the first line, and a missing closing mark on the last one
  have hpos : 0 < (Text.keepLines raw.toList).length := by
    rw [List.length_pos_iff]
    intro hnil
    have hflat := Text.flatten_keepLines raw.toList
    rw [hnil] at hflat
    exact hraw (String.toList_eq_nil_iff.mp hflat.symm)
  rcases DocBlock.read_cases raw with hread | hread | ⟨body, hmarked, hread⟩
  · rw [hread] at h
    cases h
    exact hpos
  · rw [hread] at h
    cases h
    change (Text.keepLines raw.toList).length - 1 < _
    omega
  rw [hread, readBody] at h
  rcases htags : readTags (taggedLines body) with p' | found
  · rw [htags] at h
    cases h
    obtain ⟨text, -, hmem⟩ := readTags_eq_error htags
    obtain ⟨line, hline, -⟩ :=
      hmarked.exists_line (getElem?_of_mem_taggedLines hmem) (List.cons_ne_nil _ _)
    exact (List.getElem?_eq_some_iff.mp hline).1
  · rw [htags] at h
    cases h

/-! ### Tokens of a comment -/

/-- Texts put together. -/
theorem join_map_ofList (lines : List (List Char)) :
    String.join (lines.map String.ofList) = String.ofList lines.flatten := by
  rw [← String.toList_inj, String.toList_join, String.toList_ofList, List.flatMap_map,
    ← List.flatMap_id]
  simp

namespace TokenSeq

variable {pairs : List (Kind × String)}

/-- The texts of the tokens of a comment. -/
theorem texts_of_spells (h : Spells pairs start last text) :
    (((ofPairs pairs).tokens.toList.take (last + 1)).drop start).map (·.text) =
      (Text.keepLines text).map String.ofList := by
  rw [List.map_drop, List.map_take, map_text_ofPairs, ← List.map_take, ← List.map_drop,
    h.lines, commentLines, List.map_map]
  rfl

/-- The text of a comment. -/
theorem textOf_of_spells (h : Spells pairs start last text) :
    (ofPairs pairs).textOf start last = String.ofList text := by
  rw [textOf, texts_of_spells h, join_map_ofList, Text.flatten_keepLines]

/-- **A line of a comment is a token of its own**, as many tokens and as many lines below the first
one as its number says. -/
theorem aligned (h : Spells pairs start last text) (hline : (Text.keepLines text)[n]? = some line) :
    start + n ≤ last ∧ ∃ first t, (ofPairs pairs).get? start = some first ∧
      (ofPairs pairs).get? (start + n) = some t ∧ t.kind = .docComment ∧
        t.text = String.ofList line ∧
      t.line = first.line + n := by
  have hlength := h.length
  rw [commentLines, List.length_map] at hlength
  have hn : n < (Text.keepLines text).length := (List.getElem?_eq_some_iff.mp hline).1
  have hpair : ∀ m line', (Text.keepLines text)[m]? = some line' →
      pairs[start + m]? = some (.docComment, String.ofList line') := by
    intro m line' hline'
    have hm : m < (Text.keepLines text).length := (List.getElem?_eq_some_iff.mp hline').1
    have hget := congrArg (·[m]?) h.lines
    simp only [List.getElem?_drop, List.getElem?_take, commentLines, List.getElem?_map,
      hline'] at hget
    rwa [if_pos (by omega)] at hget
  refine ⟨by omega, ?_⟩
  obtain ⟨line₀, hline₀⟩ : ∃ line₀, (Text.keepLines text)[0]? = some line₀ :=
    ⟨_, List.getElem?_eq_getElem (by omega)⟩
  obtain ⟨first, hfirst, -⟩ := exists_get?_ofPairs (hpair 0 line₀ hline₀)
  rw [Nat.add_zero] at hfirst
  obtain ⟨t, ht, hkind, htext⟩ := exists_get?_ofPairs (hpair n line hline)
  refine ⟨first, t, hfirst, ht, hkind, htext, ?_⟩
  -- between the two tokens stand the lines before, each with one newline
  have hbetween : textOfTokens ((ofPairs pairs).tokens.toList.take (start + n)) =
      textOfTokens ((ofPairs pairs).tokens.toList.take start) ++
        String.ofList ((Text.keepLines text).take n).flatten := by
    rw [List.take_add, textOfTokens_append]
    congr 1
    have hlines := congrArg (List.take n) (texts_of_spells h)
    rw [← List.map_take, List.drop_take, List.take_take, Nat.min_eq_left (by omega),
      ← List.map_take] at hlines
    rw [textOfTokens, hlines, join_map_ofList]
  have hplace := position_ofPairs ht
  rw [hbetween, Position.after_append, ← position_ofPairs hfirst] at hplace
  have hcount := congrArg Position.line hplace
  rw [Position.line_after, Text.newlines, String.toList_ofList,
    Text.count_take_keepLines hn] at hcount
  exact hcount

end TokenSeq

/-! ### Reading a comment of a source text -/

/-- What the reader says is what reading gives. -/
theorem DocBlock.reader_eq_ok_iff {doc : DocBlock} : reader raw = .ok doc ↔ read raw = .ok doc := by
  unfold reader
  rcases read raw with p | doc' <;> simp [Except.mapError]

/-- The problem that the reader reports. -/
theorem DocBlock.exists_of_reader_eq_error {e : CommentError} (h : reader raw = .error e) :
    ∃ p, read raw = .error p ∧ e = p.toError := by
  unfold reader at h
  rcases hread : read raw with p | doc
  · rw [hread] at h
    exact ⟨p, rfl, (Except.error.inj h).symm⟩
  · rw [hread] at h
    cases h

/-- **Lines of a block and tokens of its comment agree**, for every source text. Every token of a
documentation comment belongs to a single comment. If such a comment can be read, the reader sees as
many lines as there are tokens, the tags are on increasing lines, and for each tag the token of its
line is in the comment, holds the at sign and the name, and has the line number that the tag says,
counted from the first token. So a finding on this line is reported at this token. If the comment
cannot be read, the line of the problem is in the comment too. -/
theorem DocBlock.reader_aligned (source : String) :
    (∀ i t, (TokenSeq.ofSource source).get? i = some t → t.kind = .docComment →
      ∃ start last, start ≤ i ∧ i ≤ last ∧ IsComment (lexemes source) start last) ∧
    ∀ start last, IsComment (lexemes source) start last →
      let s := TokenSeq.ofSource source
      (∀ doc, reader (s.textOf start last) = .ok doc →
        (Text.splitLines (s.textOf start last).toList).length = last - start + 1 ∧
        (doc.tags.map (·.line)).Pairwise (· < ·) ∧
        ∀ tag ∈ doc.tags, start + tag.line ≤ last ∧
          (last ≤ maxWord → (Place.line tag.line).token start last = .ok (start + tag.line)) ∧
          ∃ first t, s.get? start = some first ∧ s.get? (start + tag.line) = some t ∧
            t.kind = .docComment ∧
            '@' :: tag.name.toList <:+: t.text.toList ∧ t.line = first.line + tag.line) ∧
      ∀ e, reader (s.textOf start last) = .error e → start + e.line ≤ last := by
  refine ⟨?_, ?_⟩
  · intro i t ht hkind
    have hpair := TokenSeq.getElem?_of_get?_ofPairs ht
    rw [hkind] at hpair
    exact (commentsSpelled_lexemes source).covered i t.text hpair
  intro start last h s
  obtain ⟨text, hspells⟩ := (commentsSpelled_lexemes source).spelled start last h
  have hlength := hspells.length
  rw [commentLines, List.length_map] at hlength
  have hle := h.le
  have htext : s.textOf start last = String.ofList text := TokenSeq.textOf_of_spells hspells
  rw [htext]
  refine ⟨?_, ?_⟩
  · intro doc hdoc
    obtain ⟨hclosing, hsorted, hlines⟩ := tags_of_read (reader_eq_ok_iff.mp hdoc)
    rw [String.toList_ofList] at hclosing hlines ⊢
    refine ⟨?_, hsorted, ?_⟩
    · -- a comment that can be read has a closing mark, and so ends with it
      obtain ⟨front, rfl⟩ := hspells.closing.resolve_right (not_not_intro hclosing)
      rw [← Text.length_keepLines_append (by decide) (by decide)]
      omega
    · intro tag htag
      obtain ⟨line, hline, hname⟩ := hlines tag htag
      obtain ⟨hlast, first, t, hfirst, ht, hkind, hword, hnumber⟩ := TokenSeq.aligned hspells hline
      refine ⟨hlast, fun hmax => ?_, first, t, hfirst, ht, hkind, ?_, hnumber⟩
      · have hplus : plus start tag.line = .ok (start + tag.line) :=
          plus_eq_ok_iff.mpr ⟨rfl, hlast.trans hmax⟩
        simp [Place.token, lineToken, hplus, bind, Except.bind, pure, Except.pure, hlast]
      · rwa [hword, String.toList_ofList]
  · intro e he
    obtain ⟨p, hread, rfl⟩ := exists_of_reader_eq_error he
    have hne : String.ofList text ≠ "" := by
      intro hempty
      rw [String.ofList_eq_empty_iff.mp hempty] at hlength
      simp [Text.keepLines] at hlength
      omega
    have hline := line_lt_of_read hread hne
    rw [String.toList_ofList] at hline
    change start + p.line ≤ last
    omega

/-- Two comments with nothing between them, on three lines. The second one has a tag on its second
line. -/
def adjacentComments : String := "<?php\n/** A. *//**\r\n * @see b\n */"

/-- The second comment starts on the line of the first one, and its tag is on the token
and line behind that. -/
theorem DocBlock.reader_aligned_adjacentComments :
    IsComment (lexemes adjacentComments) 2 4 ∧
      ∃ doc tag first t, reader ((TokenSeq.ofSource adjacentComments).textOf 2 4) = .ok doc ∧
        doc.tags = [tag] ∧ tag.name = "see" ∧ tag.line = 1 ∧
        (TokenSeq.ofSource adjacentComments).get? 2 = some first ∧
        (TokenSeq.ofSource adjacentComments).get? 3 = some t ∧
        '@' :: "see".toList <:+: t.text.toList ∧ t.line = first.line + 1 := by
  have hlexemes : lexemes adjacentComments = [(.openTag, "<?php\n"), (.docComment, "/** A. */"),
      (.docComment, "/**\r\n"), (.docComment, " * @see b\n"), (.docComment, " */")] := by
    decide +kernel
  have hcomment : IsComment (lexemes adjacentComments) 2 4 := by
    rw [hlexemes]
    refine ⟨by decide, ?_, ?_, ⟨" */", rfl⟩, by decide⟩
    · intro i hi
      obtain rfl : i = 1 := by omega
      decide
    · intro i hstart hlast
      obtain rfl | rfl : i = 2 ∨ i = 3 := by omega
      · decide
      · decide
  have hdoc : reader ((TokenSeq.ofSource adjacentComments).textOf 2 4) =
      .ok { newlinesBeforeTags := 1, tags := [⟨"see", "b", " ", 1⟩] } := by
    decide +kernel
  obtain ⟨-, -, htags⟩ := ((reader_aligned adjacentComments).2 2 4 hcomment).1 _ hdoc
  obtain ⟨-, -, first, t, hfirst, ht, -, hname, hline⟩ := htags _ List.mem_cons_self
  exact ⟨hcomment, _, _, first, t, hdoc, rfl, rfl, rfl, hfirst, ht, hname, hline⟩

end PhpStyle
