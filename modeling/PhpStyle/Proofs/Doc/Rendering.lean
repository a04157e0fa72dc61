import PhpStyle.Proofs.Doc.Alignment
import PhpStyle.Proofs.Doc.Paragraphs

/-!
# Comments in the usual layout are read back

A `CommentLayout` says what stands on the lines of a comment: blank lines, a short description,
perhaps a long one, and tags with the lines that continue them. `CommentLayout.render` writes it
down with an opening line, a star in front of each line and a closing line; `CommentLayout.block` is
the block that it describes. Reading undoes rendering (`CommentLayout.reader_render`). What a line
must be so that it is not taken for something else is part of the types: a description line does not
start with an at sign, the name of a tag has no blank in it, and a text has no blanks at its ends.

Reading takes the comment apart in steps, and each of them is undone on its own. The decoration of
a line is cut off, and since a text has no blanks at its ends, nothing else is
(`contentLines_bodyOf`). The lines fall into those in front of the first tag line and the others;
without a tag, the closing line still counts as one of the description
(`CommentLayout.descriptionOf_body`). The description lines are the paragraphs of a description, and
for these it is known what they spell (`CommentLayout.describe_description`).

Tags are read by recursion along the lines, and put together from the last one on. A line that is no
tag line is put in front of those that continue the tag before it (`readTags_map_plainText`), and a
tag line takes them all (`TagLayout.readTags_texts`, by induction along the tags). The line behind
the last tag is the closing line, which is blank and adds nothing to the content.
-/

namespace PhpStyle

/-- Lists put together with a separator: the first one, and the others each behind the separator. -/
theorem intercalate_cons_eq {α : Type} (a : α) (l : List α) (ls : List (List α)) :
    [a].intercalate (l :: ls) = l ++ ls.flatMap (a :: ·) := by
  induction ls generalizing l with
  | nil => simp
  | cons l' ls ih => rw [List.intercalate_cons_cons, ih]; simp

/-! ### Lines -/

/-- A text that fills a line: it is not empty, on one line, and without blanks at its ends. -/
structure FillsLine (text : List Char) : Prop where
  /-- It is not empty. -/
  ne_nil : text ≠ []
  /-- It is on one line. -/
  oneLine : '\n' ∉ text
  /-- It has no blanks at its ends. -/
  trimmed : Text.trim text = text

namespace FillsLine

variable {text : List Char}

/-- Nothing is cut at the start. -/
theorem trimStart_eq (h : FillsLine text) : Text.trimStart text = text := by
  have hsuffix : Text.trimStart text <:+ text := List.dropWhile_suffix _
  have hle : (Text.trim text).length ≤ (Text.trimStart text).length :=
    (Text.isPrefix_dropEndWhile Text.isBlank (Text.trimStart text)).length_le
  rw [h.trimmed] at hle
  exact hsuffix.eq_of_length_le hle

/-- Nothing is cut at the end. -/
theorem trimEnd_eq (h : FillsLine text) : Text.trimEnd text = text := by
  have htrim := h.trimmed
  rwa [Text.trim, h.trimStart_eq] at htrim

/-- The first character is not blank. -/
theorem head_not_blank (h : FillsLine text) : ∀ c ∈ text.head?, Text.isBlank c = false := by
  have hstart := List.dropWhile_eq_self_iff.mp h.trimStart_eq
  rcases text with _ | ⟨c, cs⟩
  · exact absurd rfl h.ne_nil
  · simpa using hstart

/-- Nothing is cut at the end of a line that ends with the text, if only blanks are cut. -/
theorem dropEndWhile_append (h : FillsLine text) {p : Char → Bool}
    (hp : ∀ c, p c = true → Text.isBlank c = true) (front : List Char) :
    Text.dropEndWhile p (front ++ text) = front ++ text := by
  have hlast := List.rdropWhile_eq_self_iff.mp h.trimEnd_eq h.ne_nil
  rw [Text.dropEndWhile_eq_rdropWhile, List.rdropWhile_eq_self_iff]
  refine fun hne hcut => hlast ?_
  rw [List.getLast_append_of_ne_nil hne h.ne_nil] at hcut
  exact hp _ hcut

/-- In particular, the end of the line stays. -/
theorem dropLineEnd_append (h : FillsLine text) (front : List Char) :
    dropLineEnd (front ++ text) = front ++ text := by
  refine h.dropEndWhile_append (fun c hc => ?_) front
  rw [Bool.or_eq_true, Bool.or_eq_true, beq_iff_eq, beq_iff_eq, beq_iff_eq] at hc
  obtain (rfl | rfl) | rfl := hc <;> rfl

end FillsLine

/-- A line that is filled and is no tag line. -/
structure PlainLine where
  /-- What the line says. -/
  text : List Char
  /-- The text fills the line. -/
  fills : FillsLine text
  /-- It does not start with an at sign. -/
  plain : isTagLine text = false

/-- What a line says that may be blank. -/
def plainText (line : Option PlainLine) : List Char := line.elim [] (·.text)

/-- A blank line says nothing. -/
@[simp] theorem plainText_none : plainText none = [] := rfl

/-- A line that is not blank says its text. -/
@[simp] theorem plainText_some (line : PlainLine) : plainText (some line) = line.text := rfl

/-- Nothing is cut from a plain line. -/
@[simp] theorem trim_plainText (line : Option PlainLine) :
    Text.trim (plainText line) = plainText line := by
  rcases line with _ | line
  · rfl
  · exact line.fills.trimmed

/-- A plain line is no tag line. -/
@[simp] theorem isTagLine_plainText (line : Option PlainLine) :
    isTagLine (plainText line) = false := by
  rcases line with _ | line
  · rfl
  · exact line.plain

/-- A line of a comment behind its star. -/
def decorate (text : List Char) : List Char :=
  if text.isEmpty then " *".toList else " * ".toList ++ text

/-- What is said on a line is nothing, or fills the line. -/
def IsLine (text : List Char) : Prop := text = [] ∨ FillsLine text

/-- Plain lines are lines. -/
theorem isLine_plainText (line : Option PlainLine) : IsLine (plainText line) := by
  rcases line with _ | line
  · exact Or.inl rfl
  · exact Or.inr line.fills

/-- A decorated line is on one line. -/
theorem IsLine.newline_notMem_decorate {text : List Char} (h : IsLine text) :
    '\n' ∉ decorate text := by
  obtain rfl | h := h
  · decide
  · simp [decorate, h.ne_nil, h.oneLine]

/-- The decoration of a line is taken off. -/
theorem IsLine.innerLine_decorate {text : List Char} (h : IsLine text) :
    innerLine (decorate text) = text := by
  obtain rfl | h := h
  · rfl
  · have hempty : text.isEmpty = false := by simp [h.ne_nil]
    rw [decorate, hempty, if_neg Bool.false_ne_true, innerLine, h.dropLineEnd_append]
    rfl

/-! ### The parts of a comment -/

/-- A tag line, and the lines that continue it. -/
structure TagLayout where
  /-- The name of the tag. -/
  name : List Char
  /-- The whitespace between the name and the content. -/
  gap : List Char
  /-- The content on the tag line. -/
  content : List Char
  /-- The lines that continue the content; blank ones say nothing. -/
  continuation : List (Option PlainLine) := []
  /-- There is a name. -/
  name_ne_nil : name ≠ []
  /-- There is no blank in the name. -/
  name_solid : ∀ c ∈ name, Text.isBlank c = false
  /-- There is whitespace. -/
  gap_ne_nil : gap ≠ []
  /-- It is whitespace. -/
  gap_blank : ∀ c ∈ gap, Text.isBlank c = true
  /-- It is on one line. -/
  gap_oneLine : '\n' ∉ gap
  /-- The content fills what is left of the line. -/
  content_fills : FillsLine content

/-- A long description, with the blank lines in front of it. -/
structure LongLayout where
  /-- How many blank lines there are in front. -/
  blanks : Nat
  /-- The lines, of which some may be blank. -/
  lines : List (Option PlainLine)
  /-- There is a blank line in front. -/
  blanks_pos : 0 < blanks
  /-- The first line is not blank. -/
  first : ∃ line, lines.head? = some (some line)
  /-- The last line is not blank. -/
  last : ∃ line, lines.getLast? = some (some line)

/-- What stands on the lines of a comment. -/
structure CommentLayout where
  /-- How many blank lines there are in front of the short description. -/
  leading : Nat
  /-- The short description. -/
  short : List PlainLine
  /-- The long description. -/
  long : Option LongLayout
  /-- How many blank lines there are behind the descriptions. -/
  gap : Nat
  /-- The tags. -/
  tags : List TagLayout
  /-- There is a short description. -/
  short_ne_nil : short ≠ []

namespace TagLayout

/-- What is said behind the at sign. -/
def text (t : TagLayout) : List Char := t.name ++ (t.gap ++ t.content)

/-- What the lines of the tag say. -/
def texts (t : TagLayout) : List (List Char) := ('@' :: t.text) :: t.continuation.map plainText

/-- The tag that is described, if its line has this number. The lines that continue the content
follow it, each behind a space. -/
def tag (t : TagLayout) (line : Nat) : DocTag where
  name := String.ofList t.name
  gap := String.ofList t.gap
  content :=
    String.ofList ([' '].intercalate (t.content :: t.continuation.filterMap (·.map PlainLine.text)))
  line

/-- The tags that are described, if their lines are numbered from `line` on. -/
def tagsFrom : Nat → List TagLayout → List DocTag
  | _, [] => []
  | line, t :: ts => t.tag line :: tagsFrom (line + t.texts.length) ts

end TagLayout

/-- What the lines of a long description say. -/
def LongLayout.texts (l : LongLayout) : List (List Char) := l.lines.map plainText

namespace CommentLayout

/-- The lines of the descriptions. -/
def paragraphs (p : CommentLayout) : List (Option PlainLine) :=
  List.replicate p.leading none ++ (p.short.map some ++
    p.long.elim [] fun l => List.replicate l.blanks none ++ l.lines)

/-- The lines in front of the tags. -/
def description (p : CommentLayout) : List (Option PlainLine) :=
  p.paragraphs ++ List.replicate p.gap none

/-- What the lines say. -/
def texts (p : CommentLayout) : List (List Char) :=
  p.description.map plainText ++ p.tags.flatMap TagLayout.texts

/-- The comment. -/
def render (p : CommentLayout) : String :=
  joinLines ("/**".toList :: (p.texts.map decorate ++ [" */".toList]))

/-- How many blank lines follow the descriptions. Without a tag, the closing line is one of them. -/
def trailing (p : CommentLayout) : Nat := if p.tags.isEmpty then p.gap + 1 else p.gap

/-- The block that is described. -/
def block (p : CommentLayout) : DocBlock where
  short := String.ofList (List.replicate p.leading '\n') ++ joinLines (p.short.map (·.text))
  long := p.long.elim "" fun l => joinLines l.texts
  newlinesBetween := p.long.elim 0 fun l => l.blanks + 1
  newlinesBeforeTags := p.trailing + 1
  tags := TagLayout.tagsFrom (p.description.length + 1) p.tags

end CommentLayout

/-! ### Taking off the decoration -/

/-- The text behind another one is found. -/
theorem Text.after?_append (lead tail : List Char) :
    Text.after? lead (lead ++ tail) = some tail := by
  simp [Text.after?]

/-- The text in front of another one is found. -/
theorem Text.before?_append (lead tail : List Char) :
    Text.before? tail (lead ++ tail) = some lead := by
  simp [Text.before?]

/-- A comment that ends with the closing mark is what stands between the marks. -/
theorem DocBlock.read_of_toList {raw : String} {body : List Char}
    (h : raw.toList = "/**".toList ++ (body ++ closingMark)) :
    DocBlock.read raw = DocBlock.readBody body := by
  have hend : Text.trimEnd (body ++ closingMark) = body ++ closingMark := by
    rw [Text.trimEnd, Text.dropEndWhile_eq_rdropWhile, List.rdropWhile_eq_self_iff]
    intro hne
    rw [List.getLast_append_of_ne_nil hne closingMark_ne_nil]
    decide
  have hbefore : Text.before? "*/".toList (body ++ closingMark) = some body :=
    Text.before?_append body _
  apply read_of_commentBody?
  rw [commentBody?, h, Text.after?_append, Option.bind_some, hend, hbefore]

/-- The text between the marks, if these lines are rendered. -/
def bodyOf (texts : List (List Char)) : List Char :=
  ['\n'].intercalate ([] :: (texts.map decorate ++ [[' ']]))

/-- **The decoration is taken off.** The lines say what was rendered, between the empty
opening and closing lines. -/
theorem contentLines_bodyOf {texts : List (List Char)} (h : ∀ text ∈ texts, IsLine text) :
    contentLines (bodyOf texts) = [] :: (texts ++ [[]]) := by
  have hlines : ∀ line ∈ [] :: (texts.map decorate ++ [[' ']]), '\n' ∉ line := by
    rw [List.forall_mem_cons, List.forall_mem_append, List.forall_mem_map,
      List.forall_mem_singleton]
    exact ⟨by decide, fun text htext => (h text htext).newline_notMem_decorate, by decide⟩
  rw [contentLines, bodyOf, Text.splitLines_intercalate (List.cons_ne_nil _ _) hlines]
  have hinner : texts.map (fun text => innerLine (decorate text)) = texts := by
    rw [List.map_congr_left fun text htext => (h text htext).innerLine_decorate, List.map_id']
  simp only [List.map_append, List.map_map, Function.comp_def, hinner]
  rfl

/-- A rendered comment is what stands between the marks, and the marks. -/
theorem CommentLayout.toList_render (p : CommentLayout) :
    p.render.toList = "/**".toList ++ (bodyOf p.texts ++ closingMark) := by
  simp [CommentLayout.render, joinLines, bodyOf, intercalate_cons_eq, closingMark]

/-! ### Descriptions -/

namespace CommentLayout

/-- The descriptions with `n` blank lines behind them, as paragraphs. -/
def toParagraphs (p : CommentLayout) (n : Nat) : Paragraphs where
  leading := p.leading
  short := p.short.map (·.text)
  between := p.long.elim 0 (·.blanks)
  long := p.long.elim [] (·.texts)
  trailing := n
  short_ne_nil := by simpa using p.short_ne_nil
  short_filled := by simpa using fun line _ => line.fills.ne_nil
  long_first := by
    rcases p.long with _ | long
    · simp
    · obtain ⟨line, hline⟩ := long.first
      simp [LongLayout.texts, hline, line.fills.ne_nil]
  long_last := by
    rcases p.long with _ | long
    · simp
    · obtain ⟨line, hline⟩ := long.last
      simp [LongLayout.texts, hline, line.fills.ne_nil]
  between_eq_zero_iff := by
    rcases p.long with _ | long
    · simp
    · obtain ⟨line, hline⟩ := long.first
      simp [LongLayout.texts, long.blanks_pos.ne', List.ne_nil_of_mem (List.mem_of_mem_head? hline)]

variable (p : CommentLayout)

/-- What the lines of the descriptions say, and `n` blank lines. -/
theorem map_paragraphs (n : Nat) :
    (p.paragraphs ++ List.replicate n none).map plainText = (p.toParagraphs n).lines := by
  rcases hlong : p.long with _ | long <;>
    simp [paragraphs, hlong, plainText, LongLayout.texts, toParagraphs, Paragraphs.lines,
      Function.comp_def]

/-- **The description lines give the descriptions**, and the numbers of newlines around them. -/
theorem describe_description (n : Nat) :
    describe ((p.paragraphs ++ List.replicate n none).map plainText) =
      { short := p.block.short
        long := p.block.long
        newlinesBetween := p.block.newlinesBetween
        newlinesBeforeTags := n + 1 } := by
  rw [map_paragraphs, Paragraphs.describe_lines]
  have hbetween := (p.toParagraphs n).between_eq_zero_iff
  rcases hlong : p.long with _ | long
  · simp [Paragraphs.block, toParagraphs, block, hlong, joinLines]
  · simp only [toParagraphs, hlong, Option.elim_some, long.blanks_pos.ne', false_iff] at hbetween
    simp [Paragraphs.block, toParagraphs, block, hlong, hbetween]

end CommentLayout

/-! ### Tags -/

/-- The lines that continue a content follow it, each behind a space; blank ones are left out. -/
theorem continued_eq {content : List Char} (h : content ≠ []) (lines : List (List Char)) :
    continued content lines = [' '].intercalate (content :: lines.filter (!·.isEmpty)) := by
  unfold continued
  induction lines generalizing content with
  | nil => simp
  | cons line lines ih =>
      rw [List.foldl_cons]
      by_cases hline : line = []
      · simpa [hline] using ih h
      · rw [if_neg (by simp [hline]), if_neg (by simp [h]), ih (by simp)]
        simp [intercalate_cons_eq, hline]

/-- The lines of a continuation that are not blank. -/
theorem filter_map_plainText (lines : List (Option PlainLine)) :
    (lines.map plainText).filter (!·.isEmpty) = lines.filterMap (·.map PlainLine.text) := by
  induction lines with
  | nil => rfl
  | cons line lines ih =>
      rcases line with _ | line
      · simpa [plainText] using ih
      · simpa [plainText, line.fills.ne_nil] using ih

/-- A plain line continues the tag in front of it. -/
theorem readTags_plainText (line : Option PlainLine) (n : Nat) (rest : List (List Char × Nat)) :
    readTags ((plainText line, n) :: rest) =
      (fun found => (plainText line :: found.1, found.2)) <$> readTags rest := by
  have htag : ∀ text, plainText line = '@' :: text → False := by
    intro text heq
    have hplain := isTagLine_plainText line
    rw [heq] at hplain
    cases hplain
  rw [readTags.eq_3 _ _ _ htag, trim_plainText]
  rcases readTags rest <;> rfl

/-- Plain lines continue the tag in front of them. -/
theorem readTags_map_plainText (lines : List (Option PlainLine)) (n : Nat)
    (rest : List (List Char × Nat)) : readTags ((lines.map plainText).zipIdx n ++ rest) =
      (fun found => (lines.map plainText ++ found.1, found.2)) <$> readTags rest := by
  induction lines generalizing n with
  | nil => simp
  | cons line lines ih =>
      rw [List.map_cons, List.zipIdx_cons, List.cons_append, readTags_plainText, ih,
        Functor.map_map]
      rfl

namespace TagLayout

variable (t : TagLayout)

/-- The name ends where the gap begins. -/
theorem head_gap_append : ∀ c ∈ (t.gap ++ t.content).head?, (!Text.isBlank c) = false := by
  have hblank := t.gap_blank
  have hne := t.gap_ne_nil
  rcases hgap : t.gap with _ | ⟨c, cs⟩
  · exact absurd hgap hne
  · simp [hblank c (by simp [hgap])]

/-- The name is read. -/
theorem takeWhile_text : t.text.takeWhile (!Text.isBlank ·) = t.name :=
  takeWhile_append_stop (by simpa using t.name_solid) t.head_gap_append

/-- What follows the name is read. -/
theorem dropWhile_text : t.text.dropWhile (!Text.isBlank ·) = t.gap ++ t.content :=
  dropWhile_append_stop (by simpa using t.name_solid) t.head_gap_append

/-- **A tag line and the lines that continue it give the tag**, whatever blank lines follow. -/
theorem readTag_text (line : Nat) {blanks : List (List Char)} (hblanks : ∀ l ∈ blanks, l = []) :
    readTag t.text line (t.continuation.map plainText ++ blanks) = t.tag line := by
  have hcontent : Text.trimStart (t.gap ++ t.content) = t.content :=
    dropWhile_append_stop t.gap_blank t.content_fills.head_not_blank
  have hgap : (t.gap ++ t.content).takeWhile Text.isBlank = t.gap :=
    takeWhile_append_stop t.gap_blank t.content_fills.head_not_blank
  have hne := t.content_fills.ne_nil
  have hfilter : blanks.filter (!·.isEmpty) = [] := by simpa using hblanks
  unfold readTag tag
  simp only [takeWhile_text, dropWhile_text, hcontent, hgap, t.content_fills.trimEnd_eq,
    continued_eq hne, List.filter_append, filter_map_plainText, hfilter, List.append_nil,
    List.isEmpty_eq_false_iff.mpr hne, Bool.false_eq_true, if_false]

/-- **The tag lines give the tags.** The closing line continues the last one, if there is one. -/
theorem readTags_texts (tags : List TagLayout) (line : Nat) :
    readTags ((tags.flatMap texts ++ [[]]).zipIdx line) =
      .ok (if tags.isEmpty then [[]] else [], tagsFrom line tags) := by
  -- the blank closing line is left over for the last tag, or for the description if there is none
  induction tags generalizing line with
  | nil => rfl
  | cons t ts ih =>
      rw [List.flatMap_cons, List.append_assoc, texts, List.cons_append, List.zipIdx_cons,
        List.zipIdx_append, readTags, t.takeWhile_text, if_neg (by simpa using t.name_ne_nil),
        readTags_map_plainText, ih]
      have hblanks : ∀ l ∈ (if ts.isEmpty then [[]] else [] : List (List Char)), l = [] := by
        split <;> simp
      have htag := t.readTag_text line hblanks
      change Except.ok ([], readTag t.text line _ :: tagsFrom _ ts) = _
      rw [htag, tagsFrom, texts]
      simp [Nat.add_assoc, Nat.add_comm 1]

/-- A tag line is filled. -/
theorem fillsLine_text : FillsLine ('@' :: t.text) where
  ne_nil := List.cons_ne_nil _ _
  oneLine := by
    have hname : '\n' ∉ t.name := fun hmem => absurd (t.name_solid _ hmem) (by decide)
    simp [text, hname, t.gap_oneLine, t.content_fills.oneLine]
  trimmed := by
    -- the line starts with the at sign and ends with the content
    have hend := t.content_fills.dropEndWhile_append (fun _ hc => hc) ('@' :: (t.name ++ t.gap))
    rw [List.cons_append, List.append_assoc] at hend
    exact hend

end TagLayout

/-! ### The whole comment -/

namespace CommentLayout

variable (p : CommentLayout)

/-- What the lines say is nothing, or fills the line. -/
theorem isLine_of_mem_texts {text : List Char} (h : text ∈ p.texts) : IsLine text := by
  rw [texts, List.mem_append, List.mem_flatMap] at h
  obtain h | ⟨t, _, h⟩ := h
  · obtain ⟨line, _, rfl⟩ := List.mem_map.mp h
    exact isLine_plainText line
  · obtain rfl | h := List.mem_cons.mp h
    · exact Or.inr t.fillsLine_text
    · obtain ⟨line, _, rfl⟩ := List.mem_map.mp h
      exact isLine_plainText line

/-- The lines of the body: the opening line, the description, the tags and the closing line. -/
theorem contentLines_body : contentLines (bodyOf p.texts) =
    ([] :: p.description.map plainText) ++ (p.tags.flatMap TagLayout.texts ++ [[]]) := by
  rw [contentLines_bodyOf fun text htext => p.isLine_of_mem_texts htext, texts, List.append_assoc,
    List.cons_append]

/-- The description ends at the first tag. Without a tag, the closing line belongs to it. -/
theorem descriptionOf_body :
    descriptionOf (bodyOf p.texts) =
      [] :: (p.paragraphs ++ List.replicate p.trailing none).map plainText := by
  have hplain : ∀ text ∈ [] :: p.description.map plainText, (!isTagLine text) = true :=
    List.forall_mem_cons.mpr ⟨rfl, by simp⟩
  rw [descriptionOf, contentLines_body, List.takeWhile_append_of_pos hplain, trailing]
  rcases htags : p.tags with _ | ⟨t, ts⟩
  · simp [description, isTagLine, List.replicate_succ']
  · simp [description, isTagLine, TagLayout.texts]

/-- What is said from the first tag on gives the tags. -/
theorem readTags_body : ∃ continuation, readTags (taggedLines (bodyOf p.texts)) =
    .ok (continuation, TagLayout.tagsFrom (p.description.length + 1) p.tags) := by
  rw [taggedLines, descriptionOf_body, contentLines_body]
  rcases htags : p.tags with _ | ⟨t, ts⟩
  · refine ⟨[], ?_⟩
    rw [List.drop_of_length_le (by simp [trailing, htags, description])]
    rfl
  · have hlength : (([] :: p.description.map plainText).zipIdx 0).length =
        ([] :: (p.paragraphs ++ List.replicate p.trailing none).map plainText).length := by
      simp [trailing, htags, description]
    rw [List.zipIdx_append, ← hlength, List.drop_left, List.length_cons,
      List.length_map, Nat.zero_add]
    exact ⟨_, TagLayout.readTags_texts (t :: ts) (p.description.length + 1)⟩

/-- **Reading undoes rendering.** The comment that a layout renders to is read as the block that
the layout describes. -/
theorem reader_render : DocBlock.reader p.render = .ok p.block := by
  rw [DocBlock.reader_eq_ok_iff]
  obtain ⟨continuation, htags⟩ := p.readTags_body
  rw [DocBlock.read_of_toList p.toList_render, DocBlock.readBody, htags, descriptionOf_body,
    descriptionLines]
  have htrim : Text.trim ∘ plainText = plainText := funext trim_plainText
  rw [List.map_map, htrim, List.isEmpty_nil, if_pos rfl, List.nil_append, describe_description]
  rfl

/-- A layout with a blank first line, both descriptions, and a tag that goes on behind a blank
line. -/
def sparseLayout : CommentLayout where
  leading := 1
  short := [⟨"Runs it.".toList, ⟨by decide, by decide, by decide⟩, rfl⟩]
  long := some
    { blanks := 1
      lines := [some ⟨"Twice.".toList, ⟨by decide, by decide, by decide⟩, rfl⟩]
      blanks_pos := by decide
      first := ⟨_, rfl⟩
      last := ⟨_, rfl⟩ }
  gap := 0
  tags :=
    [{ name := "see".toList
       gap := "\t".toList
       content := "stop".toList
       continuation := [none, some ⟨"and go".toList, ⟨by decide, by decide, by decide⟩, rfl⟩]
       name_ne_nil := by decide
       name_solid := by simp [Text.isBlank]
       gap_ne_nil := by decide
       gap_blank := by simp [Text.isBlank]
       gap_oneLine := by decide
       content_fills := ⟨by decide, by decide, by decide⟩ }]
  short_ne_nil := by decide

/-- It is rendered on nine lines, and these are read back. -/
theorem reader_render_sparseLayout :
    DocBlock.reader "/**\n *\n * Runs it.\n *\n * Twice.\n * @see\tstop\n *\n * and go\n */" =
      .ok { short := "\nRuns it.", long := "Twice.", newlinesBetween := 2, newlinesBeforeTags := 1,
            tags := [{ name := "see", content := "stop and go", gap := "\t", line := 5 }] } := by
  have hrender : sparseLayout.render =
      "/**\n *\n * Runs it.\n *\n * Twice.\n * @see\tstop\n *\n * and go\n */" := by decide
  have hread := reader_render sparseLayout
  rw [hrender] at hread
  rw [hread]
  decide

end CommentLayout

end PhpStyle
