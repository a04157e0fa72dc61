import PhpStyle.Proofs.Checked
import PhpStyle.Proofs.Doc.Comments
import PhpStyle.Proofs.Lexemes
import PhpStyle.Rule.Spacing

/-!
# Whitespace at the end of a line

The rule on trailing whitespace looks at whitespace that ends a line, and asks whether the token in
front of it starts on the same line. This is to tell lines with code from lines of whitespace alone.
Here it is said when it does, for every source text, in terms of the characters on the line
(`Spacing.checkTrailing_gap`): the rule is right, unless a comment or a string over several lines
ends in front of the whitespace; then it reports nothing (`Spacing.checkTrailing_wrappedComment`).

The rule is opened once (`Spacing.trails_of_gap`). At whitespace that ends a line
(`Spacing.IsGap`) it asks whether the token in front has a newline, because lines are counted by
newlines. What this has to do with the line (`Spacing.HoldsCode`) depends on which tokens can stand
there, and this is a matter of the lexer (`Spacing.front_of_gap`): more whitespace, which ends with
a newline, or a token that is not blank. If the token has no newline, all of it is on the line, and
it is not blank. If it ends with its only newline, the line is empty up to the whitespace. This
leaves a newline inside, and kinds that may have one.

The text in front of a token is given by its number of bytes, so it is the text of the tokens in
front (`Spacing.eq_of_append_eq`).
-/

namespace PhpStyle.Spacing

/-- The text is one or more characters other than newline and carriage return, and a newline. -/
def IsGap (text : String) : Prop :=
  ∃ gap : List Char, gap ≠ [] ∧ (∀ c ∈ gap, c ≠ '\n' ∧ c ≠ '\r') ∧ text.toList = gap ++ ['\n']

/-- The last line of the text, which is the line in front of what follows, has a
character that is not blank. -/
def HoldsCode (before : String) : Prop := ∃ c ∈ Text.lastLine before.toList, Text.isBlank c = false

variable {source : String} {tokens : TokenSeq} {i : Nat} {p t : Token}

/-! ### What the rule asks -/

/-- The first newline of a text. -/
theorem indexOf?_newline {l : List Char} (h : '\n' ∉ l) :
    Text.indexOf? ['\n'] (l ++ ['\n']) = some l.length := by
  unfold Text.indexOf?
  induction l with
  | nil => rfl
  | cons c l ih =>
      simp only [List.mem_cons, not_or] at h
      obtain ⟨⟨before, after⟩, hcut, hlength⟩ := Option.map_eq_some_iff.mp (ih h.2)
      have hprefix : ¬ (['\n'] : List Char).isPrefixOf (c :: (l ++ ['\n'])) := by simp [h.1]
      rw [List.cons_append, Text.cutAt, if_neg hprefix, hcut]
      simpa using hlength

/-- **What the rule asks at a gap**: whether the token in front of it has no newline. -/
theorem trails_of_gap {pairs : List (Kind × String)} (hp : (TokenSeq.ofPairs pairs).get? i = some p)
    (ht : (TokenSeq.ofPairs pairs).get? (i + 1) = some t) (hkind : t.kind = .whitespace)
    (hgap : IsGap t.text) :
    trails (TokenSeq.ofPairs pairs) (i + 1) = .ok (decide ('\n' ∉ p.text.toList)) := by
  obtain ⟨gap, hne, hplain, htext⟩ := hgap
  -- the three things that the rule looks up, in its order: a carriage return, the first newline,
  -- and the line of the token in front
  have hreturn : Text.cutAt ['\r', '\n'] t.text.toList = none := by
    by_contra hsome
    obtain ⟨⟨before, after⟩, hcut⟩ := Option.ne_none_iff_exists'.mp hsome
    have hmem : '\r' ∈ t.text.toList := by simp [Text.eq_append_of_cutAt hcut]
    rw [htext, List.mem_append] at hmem
    rcases hmem with hmem | hmem
    · exact (hplain _ hmem).2 rfl
    · simp at hmem
  have hindex : Text.indexOf? ['\n'] t.text.toList = some gap.length := by
    rw [htext]
    exact indexOf?_newline fun hmem => (hplain _ hmem).1 rfl
  have hline : (p.line == t.line) = decide ('\n' ∉ p.text.toList) := by
    rw [TokenSeq.line_succ_ofPairs hp ht, Text.newlines, Bool.eq_iff_iff, beq_iff_eq,
      decide_eq_true_iff, ← List.count_eq_zero]
    omega
  obtain ⟨c, rest, rfl⟩ := List.ne_nil_iff_exists_cons.mp hne
  rw [List.length_cons] at hindex
  have hminus : minus (i + 1) 1 = .ok i := rfl
  simp only [trails, gapTrails, TokenSeq.read_eq_ok_iff.mpr ht, TokenSeq.read_eq_ok_iff.mpr hp,
    hkind, hreturn, hindex, hminus, bind, Except.bind, Option.isSome_none, Bool.false_eq_true,
    if_false, Nat.add_one_ne_zero, hline]
  rfl

/-! ### What stands in front -/

/-- **What can stand in front of whitespace** in a source text: something that ends with a newline,
or that is not blank; and no text outside the tags. -/
theorem front_of_gap (hp : (TokenSeq.ofSource source).get? i = some p)
    (ht : (TokenSeq.ofSource source).get? (i + 1) = some t) (hkind : t.kind = .whitespace) :
    p.kind ≠ .inlineHtml ∧
      (p.text.toList.getLast? = some '\n' ∨ ∃ c ∈ p.text.toList, Text.isBlank c = false) := by
  have hadjoins := TokenSeq.adjoins_of_get? hp ht
  have hhtml : p.kind ≠ .inlineHtml := by
    intro hhtml
    have htag := hadjoins.markup hhtml
    simp [hkind] at htag
  refine ⟨hhtml, ?_⟩
  by_cases hspace : p.kind = .whitespace
  · exact Or.inl (hadjoins.whitespace hspace hkind)
  right
  by_cases hdoc : p.kind = .docComment
  · have hword := TokenSeq.getElem?_of_get?_ofPairs hp
    have hnext := TokenSeq.getElem?_of_get?_ofPairs ht
    rw [hdoc] at hword
    have hmark := (commentsSpelled_lexemes source).closingMark_suffix hword hnext (by simp [hkind])
    exact ⟨'*', hmark.mem (by decide), by decide⟩
  · apply exists_not_blank_of_mem_scan (TokenSeq.mem_scan_of_get? hp)
    revert hhtml hspace hdoc
    cases p.kind <;> simp [Kind.isSolid]

/-- The first token is no whitespace. -/
theorem exists_front (ht : (TokenSeq.ofSource source).get? i = some t)
    (hkind : t.kind = .whitespace) :
    ∃ j p, j + 1 = i ∧ (TokenSeq.ofSource source).get? j = some p := by
  cases i with
  | zero =>
      have hlexeme := TokenSeq.getElem?_scan_of_get? ht
      rcases hsource : source.toList with _ | ⟨c, cs⟩
      · rw [hsource, scan] at hlexeme
        cases hlexeme
      · rw [hsource, ← List.head?_eq_getElem?] at hlexeme
        have hfirst := kind_of_mem_head?_scan (Option.mem_def.mpr hlexeme)
        obtain ⟨hregion, -⟩ := nextPiece_of_whitespace (hfirst.symm.trans hkind)
        cases hregion
  | succ j =>
      obtain ⟨p, hp⟩ := TokenSeq.exists_get? (Nat.lt_of_succ_lt (TokenSeq.lt_size_of_get? ht))
      exact ⟨j, p, rfl, hp⟩

/-! ### What is reported -/

/-- The rule reports whether there is whitespace at the end of a line. -/
theorem checkTrailing_eq {u : SourceUnit} {trailing : Bool} (h : trails u.tokens i = .ok trailing) :
    checkTrailing u i = .ok (if trailing then
      trailingId.oneError u i "Trailing Whitespace at the end of line is not allowed" else {}) := by
  rw [checkTrailing, h]
  rfl

/-- The start of a text is known by its number of bytes. -/
theorem eq_of_append_eq {before before' rest rest' : String} (h : before ++ rest = before' ++ rest')
    (hsize : before.utf8ByteSize = before'.utf8ByteSize) : before = before' := by
  -- one of the two starts is a start of the other, and what it lacks has no bytes
  have hshort : ∀ {s s' : String} {more : List Char}, s'.toList = s.toList ++ more →
      s.utf8ByteSize = s'.utf8ByteSize → s = s' := by
    intro s s' more hmore hsame
    have hs' : s' = s ++ String.ofList more := by
      rw [← String.toList_inj, hmore, String.toList_append, String.toList_ofList]
    rw [hs', String.utf8ByteSize_append] at hsame
    rw [hs', String.utf8ByteSize_eq_zero_iff.mp
      (show (String.ofList more).utf8ByteSize = 0 by omega), String.append_empty]
  have hlist := congrArg String.toList h
  rw [String.toList_append, String.toList_append, List.append_eq_append_iff] at hlist
  obtain ⟨more, hmore, -⟩ | ⟨more, hmore, -⟩ := hlist
  · exact hshort hmore hsize
  · exact (hshort hmore hsize.symm).symm

/-- **What the rule reports at whitespace that ends a line**, in any source text. There is a
token in front of it. If the line is blank up to the whitespace, nothing is reported. If it is
not, there is one error at the whitespace, provided that the token in front has no newline.
Otherwise that token is a comment or a string over several lines, and nothing is reported
although the line is not blank. -/
theorem checkTrailing_gap (source path : String) (comments : CommentReader) (i : Nat) (t : Token)
    (ht : (TokenSeq.ofSource source).get? i = some t) (hkind : t.kind = .whitespace)
    (hgap : IsGap t.text) (before after : String) (hsource : source = before ++ t.text ++ after)
    (hoffset : t.offset = before.utf8ByteSize) :
    let u : SourceUnit := { path, tokens := .ofSource source, comments }
    ∃ j p, j + 1 = i ∧ u.tokens.get? j = some p ∧
      (¬ HoldsCode before → checkTrailing u i = .ok {}) ∧
      (HoldsCode before → '\n' ∉ p.text.toList →
        checkTrailing u i =
          .ok (trailingId.oneError u i "Trailing Whitespace at the end of line is not allowed")) ∧
      (HoldsCode before → '\n' ∈ p.text.toList →
        checkTrailing u i = .ok {} ∧ (p.kind = .comment ∨ p.kind = .literal)) := by
  intro u
  obtain ⟨j, p, rfl, hp⟩ := exists_front ht hkind
  have hcheck := checkTrailing_eq (u := u) (trails_of_gap hp ht hkind hgap)
  obtain ⟨hhtml, hfront⟩ := front_of_gap hp ht hkind
  have hlist : before.toList = (textOfTokens (u.tokens.tokens.toList.take j)).toList ++
      p.text.toList := by
    have haround := hsource.symm.trans
      ((TokenSeq.textOfTokens_ofSource source).symm.trans (TokenSeq.textOfTokens_around ht))
    rw [String.append_assoc, String.append_assoc] at haround
    rw [eq_of_append_eq haround (hoffset.symm.trans (TokenSeq.offset_ofPairs ht)),
      TokenSeq.textOfTokens_take_succ hp, String.toList_append]
  refine ⟨j, p, rfl, hp, ?_, ?_, ?_⟩
  · intro hblank
    -- a token without a newline would be one that is not blank, on the line
    have hnewline : '\n' ∈ p.text.toList := by
      by_contra hnot
      obtain hend | ⟨c, hc, hcode⟩ := hfront
      · exact hnot (List.mem_of_getLast? hend)
      · refine hblank ⟨c, ?_, hcode⟩
        rw [hlist, Text.lastLine_append hnot]
        exact List.mem_append_right _ hc
    rw [hcheck]
    simp [hnewline]
  · intro _ hnot
    rw [hcheck]
    simp [hnot]
  · intro ⟨c, hc, _⟩ hnewline
    refine ⟨by rw [hcheck]; simp [hnewline], ?_⟩
    by_contra hother
    have hwraps : p.kind.wraps = false := by
      revert hother hhtml
      cases p.kind <;> simp [Kind.wraps]
    -- the newline would be the last character, and the line behind it empty
    have hinner := newline_notMem_dropLast_of_mem_scan (TokenSeq.mem_scan_of_get? hp) hwraps
    have hne : p.text.toList ≠ [] := List.ne_nil_of_mem hnewline
    rw [← List.dropLast_append_getLast hne, List.mem_append, List.mem_singleton] at hnewline
    have hend : before.toList.getLast? = some '\n' := by
      rw [hlist, List.getLast?_append, List.getLast?_eq_some_getLast hne,
        ← hnewline.resolve_left hinner]
      rfl
    rw [Text.lastLine_eq_nil hend] at hc
    cases hc

/-- A comment on one line, with a space behind it. -/
def plainComment : String := "<?php\n/* one */ \n"

/-- A comment on two lines, with a space behind it. -/
def wrappedComment : String := "<?php\n/* one\n */ \n"

/-- The space behind the comment on one line is reported. -/
theorem checkTrailing_gap_plainComment :
    HoldsCode "<?php\n/* one */" ∧ checkTrailing (.ofText plainComment) 2 =
      .ok (trailingId.oneError (.ofText plainComment) 2
        "Trailing Whitespace at the end of line is not allowed") := by
  have hcode : HoldsCode "<?php\n/* one */" := ⟨'/', by decide +kernel, by decide⟩
  have hp : (TokenSeq.ofSource plainComment).get? 1 =
      some { line := 2, offset := 6, kind := .comment, text := "/* one */" } := by decide +kernel
  have ht : (TokenSeq.ofSource plainComment).get? 2 =
      some { line := 2, column := 10, offset := 15, kind := .whitespace, text := " \n" } := by
    decide +kernel
  obtain ⟨j, p, hj, hp', -, hreport, -⟩ :=
    checkTrailing_gap plainComment "Foo.php" (fun _ => .ok {}) 2 _ ht rfl
      ⟨[' '], by decide, by simp, by decide⟩ "<?php\n/* one */" "" (by decide) (by decide)
  obtain rfl : j = 1 := by omega
  obtain rfl := Option.some.inj (hp.symm.trans hp')
  exact ⟨hcode, hreport hcode (by decide)⟩

/-- **The space behind the comment on two lines is not reported**, although the line is not
blank. -/
theorem checkTrailing_wrappedComment :
    wrappedComment = "<?php\n/* one\n */" ++ " \n" ++ "" ∧ HoldsCode "<?php\n/* one\n */" ∧
      (TokenSeq.ofSource wrappedComment).get? 2 =
        some { line := 3, column := 4, offset := 16, kind := .whitespace, text := " \n" } ∧
      IsGap " \n" ∧ checkTrailing (.ofText wrappedComment) 2 = .ok {} := by
  refine ⟨by decide, ⟨'/', by decide +kernel, by decide⟩, by decide +kernel,
    ⟨[' '], by decide, by simp, by decide⟩, by decide +kernel⟩

end PhpStyle.Spacing
