import PhpStyle.Proofs.Lexing
import PhpStyle.Proofs.Text.Lines

/-!
# The documentation comments of a source text

A comment is one piece of the text, and one token for each of its lines. In the sequence of tokens
nothing says where a piece ends, but the tokens do: a comment goes on as long as its lines do not
end with the closing mark. `IsComment` picks out single comments in this way, also where two of them
follow each other without anything in between.

What is to be shown is that every line of a comment belongs to one, and that every comment is made
of all lines of a text, which ends with a closing mark or has none (`CommentsSpelled`,
`commentsSpelled_lexemes`). This goes along the recursion of the lexer, where a piece is put in
front of the lexemes of the rest, with one lemma for each sort of piece.

* A piece of another kind only moves the comments behind it (`CommentsSpelled.append_other`).
* A comment is put in front as the lines of its text (`CommentsSpelled.append_comment`). It does
  not run into what follows: it goes on at all of its lines but the last one, because these end with
  a newline, and at the last one it does not, or nothing follows
  (`IsComment.eq_commentLines`). A piece that is a documentation comment ends with the first
  closing mark, or with the whole text if it has none (`nextPiece_of_docComment`, `through_cases`).

So that the lexer is opened once, `remark_nextPiece` is about all pieces that are comments, also
those that are not documentation (`Piece.Remark`).
-/

namespace PhpStyle

variable {c : Char} {cs text : List Char} {pairs front rear : List (Kind × String)}
  {i start last : Nat}

/-! ### Comments in a sequence -/

/-- The mark that starts a comment. -/
def openingMark : List Char := ['/', '*', '*']

/-- The mark that ends a comment. -/
def closingMark : List Char := ['*', '/']

/-- The mark is not empty. -/
theorem closingMark_ne_nil : closingMark ≠ [] := by decide

/-- The mark is on one line. -/
theorem newline_notMem_closingMark : '\n' ∉ closingMark := by decide

/-- Whether there is a line of a comment at `i` that is not its last one, as far as one can see
there. -/
def goesOn (pairs : List (Kind × String)) (i : Nat) : Bool :=
  pairs[i]?.any fun (kind, text) => kind == .docComment && !closingMark.isSuffixOf text.toList

/-- The pairs from `start` to `last` are one comment: it goes on up to `last`, and not further. A
comment without a closing mark ends with the whole sequence. -/
structure IsComment (pairs : List (Kind × String)) (start last : Nat) : Prop where
  /-- The first line is not behind the last one. -/
  le : start ≤ last
  /-- The comment is not the rest of one that goes on. -/
  fresh : ∀ i, i + 1 = start → goesOn pairs i = false
  /-- The comment goes on up to its last line. -/
  inner : ∀ i, start ≤ i → i < last → goesOn pairs i = true
  /-- The last line is a line of a comment. -/
  kind : ∃ text, pairs[last]? = some (.docComment, text)
  /-- The comment does not go on behind its last line, unless there is nothing more. -/
  closed : goesOn pairs last = true → last + 1 = pairs.length

/-- When a comment goes on. -/
theorem goesOn_iff : goesOn pairs i = true ↔
    ∃ text, pairs[i]? = some (.docComment, text) ∧ ¬ closingMark <:+ text.toList := by
  unfold goesOn
  rcases pairs[i]? with _ | ⟨kind, text⟩ <;> simp [← List.isSuffixOf_iff_suffix]

/-- What stands in front does not matter. -/
theorem goesOn_append (front rear : List (Kind × String)) (i : Nat) :
    goesOn (front ++ rear) (front.length + i) = goesOn rear i := by
  unfold goesOn
  rw [List.getElem?_append_right (Nat.le_add_right _ _), Nat.add_sub_cancel_left]

/-- What stands behind does not matter. -/
theorem goesOn_append_left (hi : i < front.length) : goesOn (front ++ rear) i = goesOn front i := by
  unfold goesOn
  rw [List.getElem?_append_left hi]

namespace IsComment

/-- A comment starts with a line of a comment. -/
theorem kind_start (h : IsComment pairs start last) :
    ∃ text, pairs[start]? = some (.docComment, text) := by
  rcases Nat.eq_or_lt_of_le h.le with rfl | hlt
  · exact h.kind
  · obtain ⟨text, htext, -⟩ := goesOn_iff.mp (h.inner start le_rfl hlt)
    exact ⟨text, htext⟩

/-- A comment is one behind other pairs, if these do not end with a comment that goes on. -/
theorem append (h : IsComment rear start last)
    (hfront : ∀ i, i + 1 = front.length → goesOn front i = false) :
    IsComment (front ++ rear) (front.length + start) (front.length + last) where
  le := by
    have := h.le
    omega
  fresh i hi := by
    -- the pair before the comment is the last one in front, or one behind
    rcases Nat.lt_or_ge i front.length with hlt | hge
    · rw [goesOn_append_left hlt]
      exact hfront i (by omega)
    · obtain ⟨i, rfl⟩ := Nat.exists_eq_add_of_le hge
      rw [goesOn_append]
      exact h.fresh i (by omega)
  inner i hstart hlast := by
    obtain ⟨i, rfl⟩ := Nat.exists_eq_add_of_le ((Nat.le_add_right _ _).trans hstart)
    rw [goesOn_append]
    exact h.inner i (by omega) (by omega)
  kind := by
    obtain ⟨text, htext⟩ := h.kind
    rw [List.getElem?_append_right (Nat.le_add_right _ _), Nat.add_sub_cancel_left]
    exact ⟨text, htext⟩
  closed hgoes := by
    rw [goesOn_append] at hgoes
    have := h.closed hgoes
    rw [List.length_append]
    omega

/-- A comment behind some pairs is one without them. -/
theorem of_append (h : IsComment (front ++ rear) (front.length + start) (front.length + last)) :
    IsComment rear start last where
  le := by
    have := h.le
    omega
  fresh i hi := by
    rw [← goesOn_append front]
    exact h.fresh _ (by omega)
  inner i hstart hlast := by
    rw [← goesOn_append front]
    exact h.inner _ (by omega) (by omega)
  kind := by
    obtain ⟨text, htext⟩ := h.kind
    rw [List.getElem?_append_right (Nat.le_add_right _ _), Nat.add_sub_cancel_left] at htext
    exact ⟨text, htext⟩
  closed hgoes := by
    rw [← goesOn_append front] at hgoes
    have := h.closed hgoes
    rw [List.length_append] at this
    omega

end IsComment

/-! ### The piece of a comment -/

/-- A text without an occurrence. -/
theorem Text.not_infix_of_cutAt {needle : List Char} (h : Text.cutAt needle cs = none) :
    ¬ needle <:+: cs := by
  induction cs with
  | nil =>
      rw [Text.cutAt] at h
      split at h
      · cases h
      · next hne =>
          rw [List.infix_nil]
          simpa using hne
  | cons c cs ih =>
      rw [Text.cutAt] at h
      split at h
      · cases h
      · next hprefix =>
          rw [List.infix_cons_iff, not_or]
          refine ⟨fun hp => hprefix (List.isPrefixOf_iff_prefix.mpr hp), ih ?_⟩
          simpa using h

/-- A text in front of the end of its first occurrence of a mark does not hold the mark. -/
theorem Text.not_infix_dropLast_of_cutAt {needle before after : List Char} (hne : needle ≠ [])
    (h : Text.cutAt needle cs = some (before, after)) :
    ¬ needle <:+: (before ++ needle).dropLast := by
  induction cs generalizing before with
  | nil =>
      rw [Text.cutAt, if_neg (by simpa using hne)] at h
      cases h
  | cons c cs ih =>
      rw [Text.cutAt] at h
      split at h
      · cases h
        intro hinfix
        have hlength := hinfix.length_le
        have hpos := List.length_pos_iff.mpr hne
        rw [List.nil_append, List.length_dropLast] at hlength
        omega
      · next hprefix =>
          obtain ⟨⟨before', after'⟩, hcut, heq⟩ := Option.map_eq_some_iff.mp h
          cases heq
          have hrest : before' ++ needle ≠ [] := List.append_ne_nil_of_right_ne_nil before' hne
          rw [List.cons_append, List.dropLast_cons_of_ne_nil hrest, List.infix_cons_iff, not_or]
          refine ⟨fun hp => hprefix (List.isPrefixOf_iff_prefix.mpr (hp.trans ?_)), ih hcut⟩
          rw [List.prefix_cons_inj, Text.eq_append_of_cutAt hcut]
          exact (List.dropLast_prefix _).trans (List.prefix_append _ _)

/-- A piece that ends with the first occurrence of a mark, or with the text if there is none. -/
theorem through_cases {needle : List Char} (hne : needle ≠ []) (c : Char) (cs : List Char) :
    needle <:+ c :: cs.take (through needle c cs) ∨
      ¬ needle <:+: c :: cs.take (through needle c cs) ∧ cs.drop (through needle c cs) = [] := by
  rcases hcut : Text.cutAt needle (c :: cs) with _ | ⟨before, after⟩
  · right
    unfold through Text.indexOf?
    rw [hcut]
    simpa using Text.not_infix_of_cutAt hcut
  · left
    rw [take_through hne hcut]
    exact List.suffix_append before needle

/-- A piece that ends with the first occurrence of a mark holds none before. -/
theorem not_infix_dropLast_through {needle : List Char} (hne : needle ≠ []) (c : Char)
    (cs : List Char) : ¬ needle <:+: (c :: cs.take (through needle c cs)).dropLast := by
  rcases hcut : Text.cutAt needle (c :: cs) with _ | ⟨before, after⟩
  · -- the piece is a part of a text without the mark
    intro hinfix
    apply Text.not_infix_of_cutAt hcut
    have hpiece : c :: cs.take (through needle c cs) <+: c :: cs :=
      (List.prefix_cons_inj c).mpr (List.take_prefix _ _)
    exact hinfix.trans ((List.dropLast_prefix _).trans hpiece).isInfix
  · rw [take_through hne hcut]
    exact Text.not_infix_dropLast_of_cutAt hne hcut

/-- No word is whitespace or a comment. -/
theorem isTrivia_wordKind (word : List Char) : (wordKind word).isTrivia = false := by
  unfold wordKind
  split <;> rfl

/-- No bracket, separator or operator is. -/
theorem isTrivia_of_isPunctuation {k : Kind} (h : k.isPunctuation = true) : k.isTrivia = false := by
  cases k <;> first | rfl | cases h

/-- The pieces at the start of `c :: cs` that are comments. -/
inductive Piece.Remark (c : Char) (cs : List Char) (piece : Piece) : Prop where
  /-- A documentation comment, up to the closing mark and cut into lines. -/
  | doc (kind : piece.kind = .docComment) (perLine : piece.perLine = true)
      (start : openingMark <+: c :: cs) (more : piece.more = through closingMark c cs)
  /-- Another comment up to the closing mark. -/
  | block (kind : piece.kind = .comment) (perLine : piece.perLine = false)
      (start : ['/', '*'] <+: c :: cs) (more : piece.more = through closingMark c cs)
  /-- A comment up to the end of its line. -/
  | line (kind : piece.kind = .comment) (perLine : piece.perLine = false)
      (start : ['/', '/'] <+: c :: cs ∨ ['#'] <+: c :: cs) (more : piece.more = through ['\n'] c cs)

/-- **A piece that is a comment** is of one of these sorts. -/
theorem remark_nextPiece {region : Region} (h : (nextPiece region c cs).kind.isTrivia = true)
    (hspace : (nextPiece region c cs).kind ≠ .whitespace) :
    (nextPiece region c cs).Remark c cs := by
  cases region with
  | markup =>
      change (markupPiece c cs).kind.isTrivia = true at h
      unfold markupPiece at h
      split at h <;> cases h
  | code =>
      change (codePiece c cs).kind.isTrivia = true at h
      change (codePiece c cs).kind ≠ .whitespace at hspace
      change (codePiece c cs).Remark c cs
      generalize hpiece : codePiece c cs = piece at h hspace ⊢
      unfold codePiece at hpiece
      -- whitespace is excluded, three branches give comments, and the others another kind
      split at hpiece
      · subst hpiece; cases h
      split at hpiece
      · subst hpiece; exact absurd rfl hspace
      split at hpiece
      · next hprefix =>
          subst hpiece
          exact .doc rfl rfl (List.isPrefixOf_iff_prefix.mp hprefix) rfl
      split at hpiece
      · next hprefix =>
          subst hpiece
          exact .block rfl rfl (List.isPrefixOf_iff_prefix.mp hprefix) rfl
      split at hpiece
      · next hstart =>
          subst hpiece
          refine .line rfl rfl ?_ rfl
          rw [Bool.or_eq_true, List.isPrefixOf_iff_prefix, beq_iff_eq] at hstart
          rcases hstart with hslashes | rfl
          · exact Or.inl hslashes
          · exact Or.inr (List.prefix_append ['#'] cs)
      split at hpiece
      · subst hpiece; cases h
      split at hpiece
      · subst hpiece; rw [isTrivia_wordKind] at h; cases h
      split at hpiece
      · subst hpiece; cases h
      split at hpiece
      · subst hpiece; cases h
      split at hpiece
      · split at hpiece <;> subst hpiece <;> cases h
      · subst hpiece
        rw [isTrivia_of_isPunctuation (punctuationPiece_kind c cs).1] at h
        cases h

/-- **The piece of a comment** starts with the opening mark, reaches to the closing mark,
and is cut into lines. -/
theorem nextPiece_of_docComment {region : Region} (h : (nextPiece region c cs).kind = .docComment) :
    openingMark <+: c :: cs ∧ (nextPiece region c cs).perLine = true ∧
      (nextPiece region c cs).more = through closingMark c cs := by
  have hremark : (nextPiece region c cs).Remark c cs := by
    apply remark_nextPiece
    · rw [h]
      rfl
    · rw [h]
      exact Kind.noConfusion
  cases hremark with
  | doc _ hper hstart hmore => exact ⟨hstart, hper, hmore⟩
  | block hother | line hother =>
      rw [h] at hother
      cases hother

/-- The piece itself starts with the opening mark: a part of that mark does not end
with a closing mark. -/
theorem openingMark_prefix_nextPiece {region : Region}
    (h : (nextPiece region c cs).kind = .docComment) :
    openingMark <+: c :: cs.take (nextPiece region c cs).more := by
  obtain ⟨hopening, -, hmore⟩ := nextPiece_of_docComment h
  rw [hmore]
  rcases through_cases closingMark_ne_nil c cs with hclosing | ⟨-, hnil⟩
  · have hpiece : c :: cs.take (through closingMark c cs) <+: c :: cs :=
      (List.prefix_cons_inj c).mpr (List.take_prefix _ _)
    apply (List.prefix_or_prefix_of_prefix hopening hpiece).resolve_right
    intro hpart
    have hends : ∀ start ∈ openingMark.inits, ¬ closingMark <:+ start := by decide
    exact hends _ ((List.mem_inits _ _).mpr hpart) hclosing
  · rwa [List.take_of_length_le (List.drop_eq_nil_iff.mp hnil)]

/-! ### The lines of a comment -/

/-- The lines of a text, as pairs. -/
def commentLines (text : List Char) : List (Kind × String) :=
  (Text.keepLines text).map fun line => (.docComment, String.ofList line)

/-- The pairs of the lines. -/
theorem exists_line_commentLines (rear : List (Kind × String))
    (hi : i < (commentLines text).length) : ∃ line, (Text.keepLines text)[i]? = some line ∧
      (commentLines text ++ rear)[i]? = some (.docComment, String.ofList line) := by
  have hlt : i < (Text.keepLines text).length := by
    rwa [commentLines, List.length_map] at hi
  refine ⟨_, List.getElem?_eq_getElem hlt, ?_⟩
  rw [List.getElem?_append_left hi, commentLines, List.getElem?_map, List.getElem?_eq_getElem hlt]
  rfl

/-- A comment goes on at all lines of its text but the last one. -/
theorem goesOn_commentLines (hi : i + 1 < (commentLines text).length) :
    goesOn (commentLines text ++ rear) i = true := by
  obtain ⟨line, hline, hpair⟩ := exists_line_commentLines rear (Nat.lt_of_succ_lt hi)
  rw [commentLines, List.length_map] at hi
  obtain ⟨l, -, hl⟩ := Text.exists_of_succ_lt_keepLines hline hi
  refine goesOn_iff.mpr ⟨String.ofList line, hpair, ?_⟩
  rw [String.toList_ofList, hl]
  rintro ⟨front, hfront⟩
  have hlast := congrArg List.getLast? hfront
  simp [closingMark] at hlast

/-- It does not go on at the last line if the text ends with the closing mark. -/
theorem goesOn_last_commentLines (htext : closingMark <:+ text)
    (hi : i + 1 = (commentLines text).length) : goesOn (commentLines text ++ rear) i = false := by
  obtain ⟨line, hline, hpair⟩ := exists_line_commentLines rear (Nat.lt_of_succ_le hi.le)
  obtain ⟨front, rfl⟩ := htext
  obtain ⟨last, hlast, hsuffix⟩ :=
    Text.exists_getLast?_keepLines newline_notMem_closingMark closingMark_ne_nil front
  rw [commentLines, List.length_map] at hi
  rw [List.getLast?_eq_getElem?, ← hi, Nat.add_sub_cancel, hline, Option.some.injEq] at hlast
  subst hlast
  unfold goesOn
  rw [hpair]
  simpa using List.isSuffixOf_iff_suffix.mpr hsuffix

/-- A comment that starts in the lines of a text is all of these lines, if the text ends with the
closing mark or nothing follows. -/
theorem IsComment.eq_commentLines (h : IsComment (commentLines text ++ rear) start last)
    (hstart : start < (commentLines text).length) (hrear : closingMark <:+ text ∨ rear = []) :
    start = 0 ∧ last + 1 = (commentLines text).length := by
  refine ⟨?_, ?_⟩
  · by_contra hne
    have hfresh := h.fresh (start - 1) (by omega)
    rw [goesOn_commentLines (by omega)] at hfresh
    cases hfresh
  · have hlt : last < (commentLines text ++ rear).length := by
      obtain ⟨line, hline⟩ := h.kind
      exact (List.getElem?_eq_some_iff.mp hline).1
    rw [List.length_append] at hlt
    rcases lt_trichotomy (last + 1) (commentLines text).length with hless | heq | hmore
    · -- it would go on
      have hclosed := h.closed (goesOn_commentLines hless)
      rw [List.length_append] at hclosed
      omega
    · exact heq
    · -- it would not go on up to its last line
      rcases hrear with hclosing | rfl
      · have hinner := h.inner ((commentLines text).length - 1) (by omega) (by omega)
        rw [goesOn_last_commentLines hclosing (by omega)] at hinner
        cases hinner
      · simp at hlt
        omega

/-- The pairs from `start` to `last` are the lines of a text. -/
structure Spells (pairs : List (Kind × String)) (start last : Nat) (text : List Char) : Prop where
  /-- The pairs are the lines. -/
  lines : (pairs.take (last + 1)).drop start = commentLines text
  /-- There are as many lines as pairs. -/
  length : last + 1 = start + (commentLines text).length
  /-- The text ends with a closing mark, or has none. -/
  closing : closingMark <:+ text ∨ ¬ closingMark <:+: text

/-- The lines of a text are one comment, if the text ends with the closing mark or nothing
follows. -/
theorem isComment_commentLines (hlines : commentLines text ≠ [])
    (hrear : closingMark <:+ text ∨ rear = []) :
    IsComment (commentLines text ++ rear) 0 ((commentLines text).length - 1) := by
  have hpos := List.length_pos_iff.mpr hlines
  refine ⟨Nat.zero_le _, nofun, fun i _ hi => goesOn_commentLines (by omega), ?_, fun hgoes => ?_⟩
  · obtain ⟨line, -, hpair⟩ := exists_line_commentLines rear (Nat.sub_one_lt_of_lt hpos)
    exact ⟨String.ofList line, hpair⟩
  · rcases hrear with hclosing | rfl
    · rw [goesOn_last_commentLines hclosing (by omega)] at hgoes
      cases hgoes
    · rw [List.append_nil]
      omega

/-- The comments of a sequence. -/
structure CommentsSpelled (pairs : List (Kind × String)) : Prop where
  /-- Every comment is made of the lines of a text. -/
  spelled : ∀ start last, IsComment pairs start last → ∃ text, Spells pairs start last text
  /-- Every line of a comment belongs to one. -/
  covered : ∀ i word, pairs[i]? = some (.docComment, word) →
    ∃ start last, start ≤ i ∧ i ≤ last ∧ IsComment pairs start last

namespace CommentsSpelled

/-- There is no comment in an empty sequence. -/
theorem nil : CommentsSpelled [] where
  spelled start last h := by
    obtain ⟨text, htext⟩ := h.kind
    simp at htext
  covered i word h := by simp at h

/-- Comments behind some pairs are spelled. -/
theorem spelled_behind (h : CommentsSpelled rear) (hcomment : IsComment (front ++ rear) start last)
    (hstart : front.length ≤ start) : ∃ text, Spells (front ++ rear) start last text := by
  obtain ⟨start, rfl⟩ := Nat.exists_eq_add_of_le hstart
  obtain ⟨last, rfl⟩ := Nat.exists_eq_add_of_le (hstart.trans hcomment.le)
  obtain ⟨text, htext⟩ := h.spelled start last hcomment.of_append
  refine ⟨text, ?_, ?_, htext.closing⟩
  · rw [Nat.add_assoc, List.take_length_add_append, ← List.drop_drop, List.drop_left]
    exact htext.lines
  · have := htext.length
    omega

/-- Lines behind some pairs belong to comments. -/
theorem covered_behind (h : CommentsSpelled rear) {word : String}
    (hfront : ∀ i, i + 1 = front.length → goesOn front i = false) (hi : front.length ≤ i)
    (hword : (front ++ rear)[i]? = some (.docComment, word)) :
    ∃ start last, start ≤ i ∧ i ≤ last ∧ IsComment (front ++ rear) start last := by
  rw [List.getElem?_append_right hi] at hword
  obtain ⟨start, last, hstart, hlast, hcomment⟩ := h.covered _ word hword
  exact ⟨front.length + start, front.length + last, by omega, by omega, hcomment.append hfront⟩

/-- A piece that is no comment is put in front. -/
theorem append_other (h : CommentsSpelled rear) (hfront : ∀ pair ∈ front, pair.1 ≠ .docComment) :
    CommentsSpelled (front ++ rear) where
  spelled start last hcomment := by
    apply h.spelled_behind hcomment
    by_contra hstart
    obtain ⟨text, htext⟩ := hcomment.kind_start
    rw [List.getElem?_append_left (by omega)] at htext
    exact hfront _ (List.mem_of_getElem? htext) rfl
  covered i word hword := by
    refine h.covered_behind ?_ ?_ hword
    · intro j _
      rw [Bool.eq_false_iff]
      intro hgoes
      obtain ⟨text, htext, -⟩ := goesOn_iff.mp hgoes
      exact hfront _ (List.mem_of_getElem? htext) rfl
    · by_contra hi
      rw [List.getElem?_append_left (by omega)] at hword
      exact hfront _ (List.mem_of_getElem? hword) rfl

/-- A comment is put in front. -/
theorem append_comment (h : CommentsSpelled rear)
    (htext : closingMark <:+ text ∨ ¬ closingMark <:+: text ∧ rear = []) :
    CommentsSpelled (commentLines text ++ rear) where
  spelled start last hcomment := by
    by_cases hstart : (commentLines text).length ≤ start
    · exact h.spelled_behind hcomment hstart
    · obtain ⟨rfl, hlast⟩ := hcomment.eq_commentLines (by omega) (htext.imp_right And.right)
      refine ⟨text, ?_, by omega, htext.imp_right And.left⟩
      rw [hlast, List.take_left, List.drop_zero]
  covered i word hword := by
    by_cases hi : i < (commentLines text).length
    · refine ⟨0, (commentLines text).length - 1, Nat.zero_le i, by omega, ?_⟩
      exact isComment_commentLines (List.length_pos_iff.mp (by omega)) (htext.imp_right And.right)
    · refine h.covered_behind (fun j hj => ?_) (by omega) hword
      rcases htext with hclosing | ⟨-, rfl⟩
      · have hend : goesOn (commentLines text ++ rear) j = false :=
          goesOn_last_commentLines hclosing hj
        rwa [goesOn_append_left (by omega)] at hend
      · -- nothing follows
        rw [List.append_nil, List.getElem?_eq_none (by omega)] at hword
        cases hword

/-- A line of a comment in front of something else ends with the closing mark. -/
theorem closingMark_suffix (h : CommentsSpelled pairs) {word next : String} {kind : Kind}
    (hword : pairs[i]? = some (.docComment, word)) (hnext : pairs[i + 1]? = some (kind, next))
    (hkind : kind ≠ .docComment) : closingMark <:+ word.toList := by
  obtain ⟨start, last, hstart, hlast, hcomment⟩ := h.covered i word hword
  have hend : i = last := by
    by_contra hne
    -- the next line would be one of the comment
    have hline : ∃ text, pairs[i + 1]? = some (.docComment, text) := by
      rcases Nat.eq_or_lt_of_le (show i + 1 ≤ last by omega) with heq | hlt
      · rw [heq]
        exact hcomment.kind
      · obtain ⟨text, htext, -⟩ := goesOn_iff.mp (hcomment.inner (i + 1) (by omega) hlt)
        exact ⟨text, htext⟩
    obtain ⟨text, htext⟩ := hline
    rw [hnext, Option.some.injEq, Prod.mk.injEq] at htext
    exact hkind htext.1
  subst hend
  by_contra hopen
  have hlength := hcomment.closed (goesOn_iff.mpr ⟨word, hword, hopen⟩)
  have hlt := (List.getElem?_eq_some_iff.mp hnext).1
  omega

end CommentsSpelled

/-- **The comments of a source text** are made of the lines of texts. -/
theorem commentsSpelled_lexemes (source : String) : CommentsSpelled (lexemes source) := by
  rw [lexemes_eq_scan]
  fun_induction scan .markup source.toList with
  | case1 => exact CommentsSpelled.nil
  | case2 region c cs piece text lines ih =>
      rw [List.map_append, List.map_map]
      by_cases hdoc : piece.kind = .docComment
      · obtain ⟨-, hper, hmore⟩ := nextPiece_of_docComment hdoc
        have hlines : lines = Text.keepLines text := dif_pos hper
        rw [hlines, hdoc]
        have hcases := through_cases closingMark_ne_nil c cs
        rw [← hmore] at hcases
        apply ih.append_comment
        exact hcases.imp_right fun hnone => ⟨hnone.1, by simp [piece, hnone.2, scan]⟩
      · refine ih.append_other ?_
        simp [hdoc]

end PhpStyle
