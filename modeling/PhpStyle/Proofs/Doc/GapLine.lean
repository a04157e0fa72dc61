import PhpStyle.Proofs.Doc.Alignment
import PhpStyle.Proofs.Doc.Columns
import PhpStyle.Proofs.Doc.Paragraphs

/-!
# The line on which the gap in front of the tags is reported

The validation of a block does not know the lines of the comment. Where the tags are not one blank
line behind the descriptions, it works out a line from the newlines in the descriptions and around
them. Without a long description, this is the line of the last description. With one, it is further
up by the blank lines of the gap (`DocSchema.gapBeforeTags_place`,
`DocSchema.gapBeforeTags_place_ne_last`).

There are two sides to compare. On the side of the block, the descriptions are paragraphs with blank
lines around them, and the line that is worked out is a sum of their lengths
(`Paragraphs.gapLine_block`). The gap is reported on that line, whatever else is found
(`DocSchema.place_of_gapBeforeTags`).

On the side of the comment, the lines of the descriptions are found under their numbers, if the
opening line says nothing: it has the number zero, and the paragraphs start behind it. So the last
line that says something (`IsLastDescription`) has as its number the lines up to it
(`Paragraphs.isLastDescription`), and the first tag is on the line behind the blank ones
(`DocBlock.head_line_of_readBody`). If the opening line does say something, all numbers are less by
one, and nothing is said about this here.
-/

namespace PhpStyle

/-- The line with the number `n` is the last one of the descriptions: it says something, and no line
between it and the first tag does. -/
def IsLastDescription (body : List Char) (n : Nat) : Prop :=
  (∃ text ∈ (descriptionOf body)[n]?, Text.trim text ≠ []) ∧
    ∀ text ∈ (descriptionOf body).drop (n + 1), Text.trim text = []

instance (body : List Char) (n : Nat) : Decidable (IsLastDescription body n) :=
  inferInstanceAs (Decidable ((∃ text ∈ (descriptionOf body)[n]?, _) ∧ _))

variable {schema : DocSchema} {doc : DocBlock} {all : List Finding} {finding : Finding}
  {raw : String} {body : List Char} {lines : List (List Char)}

/-! ### Newlines in descriptions -/

/-- Lines that are put together have one newline less than lines. -/
theorem newlines_joinLines (hne : lines ≠ []) (h : ∀ l ∈ lines, '\n' ∉ l) :
    Text.newlines (joinLines lines) = lines.length - 1 := by
  rw [Text.newlines, joinLines, String.toList_ofList, ← Text.length_dropLast_splitLines,
    Text.splitLines_intercalate hne h, List.length_dropLast]

namespace Paragraphs

variable (p : Paragraphs)

/-- There is a long description exactly if it has lines. -/
theorem long_block_eq_empty_iff : p.block.long = "" ↔ p.long = [] := by
  constructor
  · intro h
    by_contra hlong
    obtain ⟨line, rest, hcons⟩ := List.exists_cons_of_ne_nil hlong
    have hline : line.isEmpty = false := p.long_first line (by simp [hcons])
    have hempty : ['\n'].intercalate p.long = [] := String.ofList_eq_empty_iff.mp h
    rw [hcons] at hempty
    rcases rest with _ | ⟨next, rest⟩
    · simp at hempty
      simp [hempty] at hline
    · simp [List.intercalate_cons_cons] at hempty
  · intro h
    simp [block, joinLines, h]

/-- The lines of the short description, and those in front of it. -/
theorem shortLines_block (hlines : ∀ l ∈ p.lines, '\n' ∉ l) :
    p.block.shortLines = p.leading + p.short.length := by
  have hshort : ∀ l ∈ p.short, '\n' ∉ l := fun l hl => hlines l (by simp [lines, hl])
  have hcount := newlines_joinLines p.short_ne_nil hshort
  have hpos := List.length_pos_iff.mpr p.short_ne_nil
  unfold DocBlock.shortLines
  simp only [Text.newlines, block, String.toList_append, String.toList_ofList, List.count_append,
    List.count_replicate_self] at hcount ⊢
  omega

/-- **The line that is worked out.** Without a long description it is the number of lines up to the
last one that says something; with one, the gap is taken off. -/
theorem gapLine_block (hlines : ∀ l ∈ p.lines, '\n' ∉ l) :
    p.block.gapLine =
      if p.block.long = "" then p.extent else p.extent + 1 - p.block.newlinesBeforeTags := by
  unfold DocBlock.gapLine extent
  rw [p.shortLines_block hlines]
  -- the lines of both descriptions are counted by their newlines, of which each has one less
  by_cases hlong : p.long = []
  · have hempty := p.long_block_eq_empty_iff.mpr hlong
    simp [hempty, hlong, p.between_eq_zero_iff.mpr hlong]
  · have hempty := mt p.long_block_eq_empty_iff.mp hlong
    have hcount : Text.newlines p.block.long = p.long.length - 1 :=
      newlines_joinLines hlong fun l hl => hlines l (by simp [lines, hl])
    have hpos := List.length_pos_iff.mpr hlong
    have hbetween : p.block.newlinesBetween = p.between + 1 := by simp [block, hlong]
    rw [if_neg (by simpa using hempty), if_neg hempty, hcount, hbetween]
    omega

end Paragraphs

/-! ### The report -/

/-- **A gap in front of the tags is reported on the line that is worked out**, whatever else is
found. -/
theorem DocSchema.place_of_gapBeforeTags (h : schema.findings doc = .ok all) (hmem : finding ∈ all)
    (hproblem : finding.problem = .gapBeforeTags) : finding.place = .line doc.gapLine := by
  have hcheck : finding.problem.foundBy = .description := by
    rw [hproblem]
    rfl
  obtain ⟨found, final, hfirst, hfound⟩ := mem_descriptionFindings h hmem hcheck
  rcases allAbout_descriptionFindings hfirst finding hfound with rfl | ⟨-, hne⟩
  · rfl
  · exact absurd hproblem hne

/-! ### The lines of the comment -/

/-- If the opening line says nothing, the descriptions are on the lines behind it. -/
theorem descriptionOf_of_bare (h : (contentLines body).head? = some []) :
    ∃ texts, descriptionOf body = [] :: texts ∧ descriptionLines (descriptionOf body) =
      texts.map Text.trim := by
  obtain ⟨later, hlater⟩ := List.head?_eq_some_iff.mp h
  refine ⟨later.takeWhile (!isTagLine ·), ?_⟩
  have hcons : descriptionOf body = [] :: later.takeWhile (!isTagLine ·) := by
    rw [descriptionOf, hlater, List.takeWhile_cons_of_pos rfl]
  refine ⟨hcons, ?_⟩
  rw [hcons]
  simp [descriptionLines]

/-- No line that was taken out of a comment has a newline. -/
theorem newline_notMem_of_mem_contentLines {text : List Char} (h : text ∈ contentLines body) :
    '\n' ∉ text := by
  obtain ⟨n, hn⟩ := List.mem_iff_getElem?.mp h
  obtain ⟨line, hline, hpart⟩ := infix_contentLines hn
  intro hmem
  exact Text.newline_notMem_of_mem_splitLines (List.mem_of_getElem? hline) (hpart.mem hmem)

/-- Blank lines spell no short description. -/
theorem short_describe_of_blank (h : ∀ l ∈ lines, l = []) : (describe lines).short = "" := by
  rw [List.eq_replicate_of_mem h]
  simp [describe]

/-- **The last line of the descriptions**, by its number in the comment. -/
theorem Paragraphs.isLastDescription (p : Paragraphs) {texts : List (List Char)}
    (hbody : descriptionOf body = [] :: texts) (hlines : texts.map Text.trim = p.lines) :
    IsLastDescription body p.extent ∧
      (descriptionOf body).length = p.extent + p.block.newlinesBeforeTags := by
  obtain ⟨front, l, hlast, hl, hlength⟩ := p.exists_last
  rw [hlast] at hlines
  rw [← hlength, IsLastDescription, hbody]
  refine ⟨⟨?_, ?_⟩, ?_⟩
  · have hget : (texts.map Text.trim)[front.length]? = some l := by
      rw [hlines]
      simp
    rw [List.getElem?_map] at hget
    obtain ⟨text, htext, rfl⟩ := Option.map_eq_some_iff.mp hget
    exact ⟨text, htext, hl⟩
  · intro text hmem
    have htrim : Text.trim text ∈ (texts.map Text.trim).drop (front.length + 1) := by
      rw [← List.map_drop]
      exact List.mem_map_of_mem hmem
    have hdrop : (front ++ l :: List.replicate p.trailing []).drop (front.length + 1) =
        List.replicate p.trailing [] := by simp
    rw [hlines, hdrop] at htrim
    exact List.eq_of_mem_replicate htrim
  · have hcount := congrArg List.length hlines
    simp only [List.length_map, List.length_append, List.length_cons,
      List.length_replicate] at hcount
    simp only [List.length_cons, Paragraphs.block]
    omega

/-- The line behind the descriptions is a tag line. -/
theorem isTagLine_of_taggedLines {text : List Char} {n : Nat} {rest : List (List Char × Nat)}
    (h : taggedLines body = (text, n) :: rest) : isTagLine text = true ∧
      n = (descriptionOf body).length := by
  have hget : (contentLines body).zipIdx[(descriptionOf body).length]? = some (text, n) := by
    have hfirst : (taggedLines body)[0]? = some (text, n) := by rw [h]; rfl
    simpa [taggedLines] using hfirst
  rw [List.getElem?_zipIdx] at hget
  obtain ⟨text', htext, heq⟩ := Option.map_eq_some_iff.mp hget
  obtain ⟨rfl, rfl⟩ := Prod.mk.inj heq
  refine ⟨?_, by omega⟩
  have hsplit : contentLines body =
      descriptionOf body ++ (contentLines body).dropWhile (!isTagLine ·) :=
    List.takeWhile_append_dropWhile.symm
  have hhead : ((contentLines body).dropWhile (!isTagLine ·)).head? = some text' := by
    rw [hsplit, List.getElem?_append_right (le_refl _), Nat.sub_self] at htext
    rwa [List.head?_eq_getElem?]
  have hstop := List.head?_dropWhile_not (!isTagLine ·) (contentLines body)
  rw [hhead] at hstop
  simpa using hstop

namespace DocBlock

/-- **The first tag is on the line behind the descriptions.** -/
theorem head_line_of_readBody (h : readBody body = .ok doc) (htags : doc.tags ≠ []) :
    doc.tags.head?.map (·.line) = some (descriptionOf body).length := by
  unfold readBody at h
  rcases hlines : taggedLines body with _ | ⟨⟨text, n⟩, rest⟩
  · rw [hlines] at h
    cases h
    exact absurd rfl htags
  obtain ⟨htag, rfl⟩ := isTagLine_of_taggedLines hlines
  unfold isTagLine at htag
  split at htag
  · rw [hlines, readTags] at h
    split at h
    · cases h
    · rcases hrest : readTags rest with problem | found
      · rw [hrest] at h
        cases h
      · rw [hrest] at h
        cases h
        rfl
  · cases htag

/-- **The descriptions of a block are paragraphs of the comment**, if the opening line says
nothing. -/
theorem exists_paragraphs_of_readBody (h : readBody body = .ok doc)
    (hbare : (contentLines body).head? = some []) (hshort : doc.short ≠ "") :
    ∃ p : Paragraphs, doc = { p.block with tags := doc.tags } ∧ (∀ l ∈ p.lines, '\n' ∉ l) ∧
      IsLastDescription body p.extent ∧ (descriptionOf body).length =
        p.extent + doc.newlinesBeforeTags := by
  obtain ⟨texts, hdescription, htrim⟩ := descriptionOf_of_bare hbare
  unfold readBody at h
  rcases hfound : readTags (taggedLines body) with problem | ⟨continuation, tags⟩
  · rw [hfound] at h
    cases h
  rw [hfound, htrim] at h
  obtain rfl := Except.ok.inj h
  -- there is a short description, so not all lines are blank
  obtain ⟨p, hp⟩ : ∃ p : Paragraphs, texts.map Text.trim = p.lines := by
    apply exists_paragraphs
    by_contra hblank
    push Not at hblank
    exact hshort (short_describe_of_blank hblank)
  obtain ⟨hlast, hlength⟩ := p.isLastDescription hdescription hp
  rw [hp, p.describe_lines]
  refine ⟨p, rfl, fun l hl hmem => ?_, hlast, hlength⟩
  -- what is left of a line of the comment has no newline
  rw [← hp] at hl
  obtain ⟨text, htext, rfl⟩ := List.mem_map.mp hl
  have hline : text ∈ contentLines body := by
    apply (List.takeWhile_prefix (!isTagLine ·)).subset
    change text ∈ descriptionOf body
    rw [hdescription]
    exact List.mem_cons_of_mem _ htext
  exact newline_notMem_of_mem_contentLines hline ((Text.isInfix_trim text).mem hmem)

end DocBlock

/-- A description line is a line of the comment, under its number. -/
theorem Marked.exists_description_line {n : Nat} {text : List Char} (h : Marked raw body)
    (hget : (descriptionOf body)[n]? = some text) (hsaid : Text.trim text ≠ []) :
    ∃ line ∈ (Text.keepLines raw.toList)[n]?, text <:+: line := by
  have hline : (contentLines body)[n]? = some text := by
    obtain ⟨rest, hrest⟩ : descriptionOf body <+: contentLines body := List.takeWhile_prefix _
    rw [← hrest, List.getElem?_append_left (List.getElem?_eq_some_iff.mp hget).1]
    exact hget
  apply h.exists_line hline
  rintro rfl
  exact hsaid rfl

/-! ### Where the gap is reported -/

namespace DocSchema

/-- **Where a gap in front of the tags is reported**, for every comment whose opening line says
nothing and which has a short description and a tag. The first tag is `newlinesBeforeTags` lines
behind the last description. Without a long description, the gap is reported on the line of the last
description. With one, it is reported `newlinesBeforeTags` lines in front of the line behind it, so
on the line of the last description exactly if the tags follow without a blank line. -/
theorem gapBeforeTags_place (schema : DocSchema) {raw : String} {body : List Char} {doc : DocBlock}
    {all : List Finding} {finding : Finding} (hread : DocBlock.reader raw = .ok doc)
    (hbody : commentBody? raw = some body) (hbare : (contentLines body).head? = some [])
    (hshort : doc.short ≠ "") (htags : doc.tags ≠ []) (hall : schema.findings doc = .ok all)
    (hmem : finding ∈ all)
    (hmessage : finding.problem.message schema =
      s!"There must be exactly one blank line before the tags in {schema.label} comment") :
    ∃ last, IsLastDescription body last ∧
      (∃ text ∈ (descriptionOf body)[last]?, ∃ line ∈ (Text.keepLines raw.toList)[last]?,
        text <:+: line) ∧
      doc.tags.head?.map (·.line) = some (last + doc.newlinesBeforeTags) ∧
      finding.place = .line (if doc.long = "" then last else last + 1 - doc.newlinesBeforeTags) ∧
      (finding.place = .line last ↔ doc.long = "" ∨ doc.newlinesBeforeTags = 1) := by
  rw [DocBlock.reader_eq_ok_iff, DocBlock.read_of_commentBody? hbody] at hread
  obtain ⟨p, hdoc, hnewline, hlast, hlength⟩ :=
    DocBlock.exists_paragraphs_of_readBody hread hbare hshort
  have hplace : finding.place =
      .line (if doc.long = "" then p.extent else p.extent + 1 - doc.newlinesBeforeTags) := by
    rw [place_of_gapBeforeTags hall hmem (DocProblem.message_eq_gapBeforeTags_iff.mp hmessage),
      hdoc]
    exact congrArg Place.line (p.gapLine_block hnewline)
  refine ⟨p.extent, hlast, ?_, ?_, hplace, ?_⟩
  · obtain ⟨text, htext, hsaid⟩ := hlast.1
    exact ⟨text, htext, (marked_of_commentBody? hbody).exists_description_line htext hsaid⟩
  · rw [DocBlock.head_line_of_readBody hread htags, hlength]
  · have hextent : 0 < p.extent := by
      have := List.length_pos_iff.mpr p.short_ne_nil
      unfold Paragraphs.extent
      omega
    have hpos : 0 < doc.newlinesBeforeTags := by
      rw [hdoc]
      exact Nat.succ_pos _
    rw [hplace, Place.line.injEq]
    by_cases hlong : doc.long = ""
    · simp [hlong]
    · simp only [hlong, if_false, false_or]
      omega

/-- A comment with a long description of two lines, and two blank lines in front of the tags. -/
def wideGap : String := "/**\n * Short.\n *\n * Long\n * text.\n *\n *\n * @package  net\n */"

/-- The block that it spells. -/
def wideGapBlock : DocBlock where
  short := "Short."
  long := "Long\ntext."
  newlinesBetween := 2
  newlinesBeforeTags := 3
  tags := [{ name := "package", content := "net", gap := "  ", line := 7 }]

/-- The text between its marks. -/
def wideGapBody : List Char :=
  "\n * Short.\n *\n * Long\n * text.\n *\n *\n * @package  net\n ".toList

/-- The gap of this comment is reported two lines in front of the last description. -/
theorem gapBeforeTags_place_wideGap :
    DocBlock.reader wideGap = .ok wideGapBlock ∧ commentBody? wideGap = some wideGapBody ∧
      file.findings wideGapBlock = .ok [⟨.gapBeforeTags, .line 2⟩] ∧
      ∃ last, IsLastDescription wideGapBody last ∧ 7 = last + 3 ∧
        Place.line 2 = .line (last + 1 - 3) ∧ Place.line 2 ≠ .line last := by
  have hread : DocBlock.reader wideGap = .ok wideGapBlock := by decide +kernel
  have hbody : commentBody? wideGap = some wideGapBody := by decide +kernel
  have hbare : (contentLines wideGapBody).head? = some [] := by decide +kernel
  have hall : file.findings wideGapBlock = .ok [⟨.gapBeforeTags, .line 2⟩] := by decide +kernel
  obtain ⟨last, hlast, -, htag, hplace, hiff⟩ :=
    gapBeforeTags_place file hread hbody hbare (by decide) (by decide) hall List.mem_cons_self rfl
  refine ⟨hread, hbody, hall, last, hlast, Option.some.inj htag, hplace, ?_⟩
  rw [Ne, hiff]
  decide

/-- **The gap is not always reported on the last description line**: here that is line four, and the
report is on line two. -/
theorem gapBeforeTags_place_ne_last :
    DocBlock.reader wideGap = .ok wideGapBlock ∧ commentBody? wideGap = some wideGapBody ∧
      IsLastDescription wideGapBody 4 ∧ file.findings wideGapBlock =
        .ok [⟨.gapBeforeTags, .line 2⟩] := by
  decide +kernel

end DocSchema

end PhpStyle
