import Mathlib.Data.List.Chain
import PhpStyle.Proofs.Lexing
import PhpStyle.Proofs.Text.Lines
import PhpStyle.SourceUnit

/-!
# What lexemes look like

The pieces of a text come in four shapes (`Piece.Shape`): runs of whitespace, text outside the tags,
documentation comments, and all others, which start with a character that is not blank. The lexer
is opened once, for `shape_nextPiece`, branch by branch. What is known of single lexemes and of two
neighbours follows from the shapes, and nothing else has to be changed if a branch is added.

That a piece is on one line has to be seen where its end is found. Words and variables end at the
first character of another class, casts hold the name of a type and spaces, operators are in a
list, and tags take one newline behind them at most. Comments, strings and text outside the tags may
go over several lines (`Kind.wraps`).

Lexemes are pieces or lines of pieces, so facts about single ones go by the recursion of the lexer
(`newline_notMem_dropLast_of_mem_scan`, `exists_not_blank_of_mem_scan`). Two neighbours are lines of
one piece, or the end of one piece and the start of the next (`Adjoins`, `isChain_scan`). In the
first case whitespace ends with a newline because it is cut there. The second case cannot be for
whitespace, since a run of it is taken as a whole; and behind text outside the tags, the next piece
starts with the mark that ended it.
-/

namespace PhpStyle

variable {region : Region} {c : Char} {cs : List Char}

/-! ### Kinds -/

namespace Kind

/-- The kinds whose lexemes may have a newline inside: comments, strings, and text outside the
tags. -/
def wraps : Kind → Bool
  | comment | literal | inlineHtml => true
  | _ => false

/-- The kinds whose lexemes start with a character that is not blank, also in the middle of a
piece. -/
def isSolid : Kind → Bool
  | whitespace | inlineHtml | docComment => false
  | _ => true

end Kind

/-- A word is solid, and on one line. -/
theorem isSolid_wordKind (word : List Char) : (wordKind word).isSolid = true := by
  unfold wordKind
  split <;> rfl

/-- A bracket, a separator or an operator is solid. -/
theorem isSolid_of_isPunctuation {k : Kind} (h : k.isPunctuation = true) : k.isSolid = true := by
  cases k <;> first | rfl | cases h

/-! ### Pieces on one line -/

/-- A class of characters that newlines are not in. -/
theorem newline_notMem_takeWhile {p : Char → Bool} (hp : p '\n' = false) :
    '\n' ∉ cs.takeWhile p := by
  intro hmem
  have := List.mem_takeWhile_imp hmem
  rw [hp] at this
  cases this

/-- A cast is on one line: the name of a type has no newline, and what stands around it
is spaces and tabs. -/
theorem newline_notMem_cast {more : Nat} (h : castRest? cs = some more) :
    '\n' ∉ ('(' :: cs.take more).dropLast := by
  obtain ⟨inner, hname, htake⟩ := exists_of_castRest? h
  rw [htake, ← List.cons_append, List.dropLast_concat]
  set isGap : Char → Bool := fun c => c == ' ' || c == '\t'
  -- a newline of the cast would be one of the name
  have hkeep : ∀ text : List Char, '\n' ∈ text → '\n' ∈ text.dropWhile isGap := by
    intro text hmem
    rw [← List.takeWhile_append_dropWhile (p := isGap) (l := text)] at hmem
    exact (List.mem_append.mp hmem).resolve_left (newline_notMem_takeWhile (by decide))
  have htypes : ∀ type ∈ castTypes, '\n' ∉ type.toList := by decide
  intro hmem
  have hinner : '\n' ∈ inner := by simpa using hmem
  have hend : '\n' ∈ Text.dropEndWhile isGap (inner.dropWhile isGap) := by
    unfold Text.dropEndWhile
    rw [List.mem_reverse]
    exact hkeep _ (List.mem_reverse.mpr (hkeep inner hinner))
  refine htypes _ (List.contains_iff_mem.mp hname) ?_
  rw [String.toList_ofList]
  exact List.mem_map.mpr ⟨'\n', hend, by decide⟩

/-- An operator is on one line. -/
theorem newline_notMem_operator : '\n' ∉ (c :: cs.take (operatorRest c cs)).dropLast := by
  rcases hfind : longOperators.find? fun op => op.toList.isPrefixOf (c :: cs) with _ | op
  · simp [operatorRest, hfind]
  · have hops : ∀ op ∈ longOperators, '\n' ∉ op.toList := by decide
    rw [take_operatorRest hfind]
    exact fun hmem => hops op (List.mem_of_find?_eq_some hfind) (List.mem_of_mem_dropLast hmem)

/-- A bracket, a separator or an operator is on one line. -/
theorem newline_notMem_punctuation (hc : c ≠ '\n') :
    '\n' ∉ (c :: cs.take (punctuationPiece c cs).more).dropLast := by
  rcases punctuationPiece_cases c cs with ⟨kind, more, -, hmore, heq⟩ | heq
  · -- all but the first character is one character at most, and is left out
    rw [heq]
    obtain rfl | rfl : more = 0 ∨ more = 1 := by omega
    · simp
    · cases cs with
      | nil => simp
      | cons d cs => simpa using Ne.symm hc
  · rw [heq]
    exact newline_notMem_operator

/-! ### The shapes of pieces -/

/-- The shapes of the piece at the start of `c :: cs`. -/
inductive Piece.Shape (region : Region) (c : Char) (cs : List Char) (piece : Piece) : Prop where
  /-- A run of whitespace in code: all of it, cut into lines. -/
  | whitespace (inside : region = .code) (kind : piece.kind = .whitespace)
      (perLine : piece.perLine = true)
      (behind : piece.region = .code) (start : Text.isBlank c = true)
      (more : piece.more = (cs.takeWhile Text.isBlank).length)
  /-- Text outside the tags, up to the next tag. -/
  | markup (kind : piece.kind = .inlineHtml) (perLine : piece.perLine = false)
      (behind : piece.region = .markup)
      (tag : cs.drop piece.more = [] ∨ openMark <+: cs.drop piece.more)
  /-- A documentation comment, cut into lines. -/
  | doc (kind : piece.kind = .docComment) (perLine : piece.perLine = true)
  /-- Any other piece: it starts with a character that is not blank, and is on one line unless its
  kind says otherwise. -/
  | solid (kind : piece.kind.isSolid = true) (perLine : piece.perLine = false)
      (start : Text.isBlank c = false)
      (line : piece.kind.wraps = false → '\n' ∉ (c :: cs.take piece.more).dropLast)

/-- The shape of a piece outside the tags. -/
theorem shape_markupPiece : (markupPiece c cs).Shape .markup c cs := by
  unfold markupPiece
  split
  · next rest hcut =>
      have hsplit : c :: cs = '<' :: '?' :: 'p' :: 'h' :: 'p' :: rest := by
        simpa [openMark] using Text.eq_append_of_cutAt hcut
      obtain ⟨rfl, rfl⟩ := List.cons.inj hsplit
      refine .solid rfl rfl (by decide) fun _ => ?_
      -- a newline behind the tag is the last character
      unfold gapSize
      split
      · next hend =>
          obtain ⟨behind, rfl⟩ := List.isPrefixOf_iff_prefix.mp hend
          simp
      · split
        · cases rest <;> simp
        · simp
  · next b before rest hcut =>
      have hsplit := Text.eq_append_of_cutAt hcut
      rw [List.append_assoc, List.cons_append, List.cons.injEq] at hsplit
      refine .markup rfl rfl rfl (Or.inr ?_)
      simp only [hsplit.2, List.drop_left]
      exact List.prefix_append openMark rest
  · exact .markup rfl rfl rfl (Or.inl List.drop_length)

/-- The shape of a piece inside the tags. -/
theorem shape_codePiece : (codePiece c cs).Shape .code c cs := by
  have hword : '\n' ∉ (cs.takeWhile isWordChar) := newline_notMem_takeWhile (by decide)
  unfold codePiece
  -- the branches are taken in order, and each knows that the ones before it did not apply
  split
  · next hprefix =>
      obtain ⟨rest, hrest⟩ := List.isPrefixOf_iff_prefix.mp hprefix
      obtain ⟨rfl, rfl⟩ := List.cons.inj (show '?' :: '>' :: rest = c :: cs from hrest)
      refine .solid rfl rfl (by decide) fun _ => ?_
      -- at most one character follows the mark
      rcases rest with _ | ⟨d, rest⟩ <;> simp only <;> split <;> simp
  split
  · next hblank => exact .whitespace rfl rfl rfl rfl hblank rfl
  next hblank =>
  rw [Bool.not_eq_true] at hblank
  have hc : c ≠ '\n' := by
    rintro rfl
    cases hblank
  split
  · exact .doc rfl rfl
  split
  · exact .solid rfl rfl hblank nofun
  split
  · exact .solid rfl rfl hblank nofun
  split
  · refine .solid rfl rfl hblank fun _ hmem => ?_
    rw [take_length_takeWhile] at hmem
    exact (List.mem_cons.mp (List.mem_of_mem_dropLast hmem)).elim (Ne.symm hc) hword
  split
  · refine .solid (isSolid_wordKind _) rfl hblank fun _ hmem => ?_
    rw [take_length_takeWhile] at hmem
    exact (List.mem_cons.mp (List.mem_of_mem_dropLast hmem)).elim (Ne.symm hc) hword
  split
  · exact .solid rfl rfl hblank nofun
  split
  · exact .solid rfl rfl hblank nofun
  split
  · next hparen =>
      obtain rfl := beq_iff_eq.mp hparen
      split
      · next more hcast => exact .solid rfl rfl hblank fun _ => newline_notMem_cast hcast
      · exact .solid rfl rfl hblank fun _ => by simp
  · obtain ⟨hkind, hline, -⟩ := punctuationPiece_kind c cs
    exact .solid (isSolid_of_isPunctuation hkind) hline hblank fun _ =>
      newline_notMem_punctuation hc

/-- **The shape of a piece.** -/
theorem shape_nextPiece (region : Region) (c : Char) (cs : List Char) :
    (nextPiece region c cs).Shape region c cs := by
  cases region with
  | markup => exact shape_markupPiece
  | code => exact shape_codePiece

/-! ### Single lexemes -/

/-- **A lexeme holds a newline at its end only**, unless its kind is one of those that go
over several lines. -/
theorem newline_notMem_dropLast_of_mem_scan {lexeme : Kind × List Char}
    (h : lexeme ∈ scan region cs) (hkind : lexeme.1.wraps = false) : '\n' ∉ lexeme.2.dropLast := by
  fun_induction scan region cs with
  | case1 => cases h
  | case2 region c cs piece text lines ih =>
      rcases List.mem_append.mp h with h | h
      · obtain ⟨line, hline, rfl⟩ := List.mem_map.mp h
        have hshape : piece.Shape region c cs := shape_nextPiece region c cs
        cases hshape with
        | whitespace _ _ hper | doc _ hper =>
            rw [show lines = Text.keepLines text from if_pos hper] at hline
            exact Text.newline_notMem_dropLast_of_mem_keepLines hline
        | markup hhtml =>
            rw [show (piece.kind, line).1 = .inlineHtml from hhtml] at hkind
            cases hkind
        | solid _ hper _ hone =>
            rw [show lines = [text] by simp [lines, hper], List.mem_singleton] at hline
            rw [hline]
            exact hone hkind
      · exact ih h

/-- **A lexeme is not blank**, unless it is whitespace, a line of a documentation comment or
text outside the tags. -/
theorem exists_not_blank_of_mem_scan {lexeme : Kind × List Char} (h : lexeme ∈ scan region cs)
    (hkind : lexeme.1.isSolid = true) : ∃ d ∈ lexeme.2, Text.isBlank d = false := by
  fun_induction scan region cs with
  | case1 => cases h
  | case2 region c cs piece text lines ih =>
      rcases List.mem_append.mp h with h | h
      · obtain ⟨line, hline, rfl⟩ := List.mem_map.mp h
        have hshape : piece.Shape region c cs := shape_nextPiece region c cs
        cases hshape with
        | whitespace _ hother | markup hother | doc hother =>
            rw [show (piece.kind, line).1 = _ from hother] at hkind
            cases hkind
        | solid _ hper hstart =>
            rw [show lines = [text] by simp [lines, hper], List.mem_singleton] at hline
            rw [hline]
            exact ⟨c, List.mem_cons_self, hstart⟩
      · exact ih h

/-! ### Neighbours -/

/-- What is known of a lexeme and the next one. -/
structure Adjoins (a b : Kind × List Char) : Prop where
  /-- Whitespace in front of whitespace ends with a newline. -/
  whitespace : a.1 = .whitespace → b.1 = .whitespace → a.2.getLast? = some '\n'
  /-- A tag follows text outside the tags. -/
  markup : a.1 = .inlineHtml → b.1 = .openTag

/-- The first lexeme of a text has the kind of the first piece. -/
theorem kind_of_mem_head?_scan {lexeme : Kind × List Char}
    (h : lexeme ∈ (scan region (c :: cs)).head?) : lexeme.1 = (nextPiece region c cs).kind := by
  rw [scan] at h
  set lines := if (nextPiece region c cs).perLine then _ else _ with hlines
  obtain ⟨line, rest, hcons⟩ : ∃ line rest, lines = line :: rest := by
    rw [← List.ne_nil_iff_exists_cons]
    intro hnil
    have hflat :=
      flatten_lines (nextPiece region c cs).perLine (c :: cs.take (nextPiece region c cs).more)
    rw [← hlines, hnil] at hflat
    cases hflat
  rw [hcons, List.map_cons, List.cons_append, List.head?_cons, Option.mem_some_iff] at h
  rw [← h]

/-- Whitespace is found in code, and starts with a blank. -/
theorem nextPiece_of_whitespace (h : (nextPiece region c cs).kind = .whitespace) :
    region = .code ∧ Text.isBlank c = true := by
  have hshape := shape_nextPiece region c cs
  cases hshape with
  | whitespace hregion _ _ _ hstart => exact ⟨hregion, hstart⟩
  | markup hother | doc hother =>
      rw [h] at hother
      cases hother
  | solid hsolid =>
      rw [h] at hsolid
      cases hsolid

/-- Behind a run of whitespace stands something else. -/
theorem not_blank_of_drop {d : Char} {ds : List Char}
    (h : cs.drop (cs.takeWhile Text.isBlank).length = d :: ds) : Text.isBlank d = false := by
  have hdrop := congrArg (List.drop (cs.takeWhile Text.isBlank).length)
    (List.takeWhile_append_dropWhile (p := Text.isBlank) (l := cs))
  rw [List.drop_left, h] at hdrop
  have hhead := List.head?_dropWhile_not Text.isBlank cs
  rw [hdrop] at hhead
  simpa using hhead

/-- A tag is taken for a tag. -/
theorem nextPiece_kind_of_openMark (h : openMark <+: c :: cs) :
    (nextPiece .markup c cs).kind = .openTag := by
  have hcut : Text.cutAt openMark (c :: cs) = some ([], (c :: cs).drop openMark.length) := by
    rw [Text.cutAt, if_pos (List.isPrefixOf_iff_prefix.mpr h)]
  change (markupPiece c cs).kind = .openTag
  unfold markupPiece
  rw [hcut]

/-- The lexemes of one piece. -/
theorem Piece.Shape.isChain {piece : Piece} (h : piece.Shape region c cs) (text : List Char) :
    List.IsChain Adjoins
      ((if piece.perLine then Text.keepLines text else [text]).map (piece.kind, ·)) := by
  cases h with
  | whitespace _ hkind hper | doc hkind hper =>
      rw [if_pos hper, List.isChain_map]
      refine (Text.isChain_keepLines text).imp fun line _ hline =>
        ⟨fun _ _ => hline, fun hhtml => ?_⟩
      rw [show (piece.kind, line).1 = _ from hkind] at hhtml
      cases hhtml
  | markup _ hper | solid _ hper =>
      rw [hper]
      exact List.isChain_singleton _

/-- The last lexeme of one piece and the first one of the next. -/
theorem Piece.Shape.adjoins {piece : Piece} (h : piece.Shape region c cs) {line : List Char}
    {b : Kind × List Char} (hb : b ∈ (scan piece.region (cs.drop piece.more)).head?) :
    Adjoins (piece.kind, line) b := by
  rcases hrest : cs.drop piece.more with _ | ⟨d, ds⟩
  · rw [hrest, scan] at hb
    cases hb
  rw [hrest] at hb
  have hkind := kind_of_mem_head?_scan hb
  refine ⟨fun hspace hb' => ?_, fun hhtml => ?_⟩
  · -- a run of whitespace is taken as a whole
    cases h with
    | whitespace _ _ _ _ _ hmore =>
        rw [hb'] at hkind
        rw [hmore] at hrest
        have hblank := (nextPiece_of_whitespace hkind.symm).2
        rw [not_blank_of_drop hrest] at hblank
        cases hblank
    | markup hother | doc hother =>
        rw [show (piece.kind, line).1 = _ from hother] at hspace
        cases hspace
    | solid hsolid =>
        rw [show piece.kind = .whitespace from hspace] at hsolid
        cases hsolid
  · cases h with
    | markup _ _ hregion htag =>
        rw [hkind, hregion]
        apply nextPiece_kind_of_openMark
        rw [← hrest]
        exact htag.resolve_left (by simp [hrest])
    | whitespace _ hother | doc hother =>
        rw [show (piece.kind, line).1 = _ from hother] at hhtml
        cases hhtml
    | solid hsolid =>
        rw [show piece.kind = .inlineHtml from hhtml] at hsolid
        cases hsolid

/-- **Neighbours among the lexemes of a text.** -/
theorem isChain_scan (region : Region) (cs : List Char) : (scan region cs).IsChain Adjoins := by
  fun_induction scan region cs with
  | case1 => exact List.isChain_nil
  | case2 region c cs piece text lines ih =>
      have hshape : piece.Shape region c cs := shape_nextPiece region c cs
      refine List.isChain_append.mpr ⟨hshape.isChain text, ih, fun a ha b hb => ?_⟩
      obtain ⟨line, -, rfl⟩ := List.mem_map.mp (List.mem_of_mem_getLast? ha)
      exact hshape.adjoins hb

/-! ### Tokens of a source text -/

namespace TokenSeq

variable {source : String} {i : Nat} {t u : Token}

/-- There are as many tokens as lexemes. -/
theorem size_ofSource (source : String) :
    (ofSource source).size = (scan .markup source.toList).length := by
  rw [ofSource, size_ofPairs, lexemes_eq_scan, List.length_map]

/-- The lexeme of a token. -/
theorem getElem?_scan_of_get? (ht : (ofSource source).get? i = some t) :
    (scan .markup source.toList)[i]? = some (t.kind, t.text.toList) := by
  have hpair := getElem?_of_get?_ofPairs ht
  rw [lexemes_eq_scan, List.getElem?_map] at hpair
  obtain ⟨⟨kind, text⟩, hlexeme, heq⟩ := Option.map_eq_some_iff.mp hpair
  rw [Prod.mk.injEq] at heq
  rw [hlexeme, ← heq.1, ← heq.2, String.toList_ofList]

/-- A token is one of the lexemes. -/
theorem mem_scan_of_get? (ht : (ofSource source).get? i = some t) :
    (t.kind, t.text.toList) ∈ scan .markup source.toList :=
  List.mem_of_getElem? (getElem?_scan_of_get? ht)

/-- **Two neighbours among the tokens of a source text.** -/
theorem adjoins_of_get? (ht : (ofSource source).get? i = some t)
    (hu : (ofSource source).get? (i + 1) = some u) :
    Adjoins (t.kind, t.text.toList) (u.kind, u.text.toList) := by
  obtain ⟨hi, ht⟩ := List.getElem?_eq_some_iff.mp (getElem?_scan_of_get? ht)
  obtain ⟨hi', hu⟩ := List.getElem?_eq_some_iff.mp (getElem?_scan_of_get? hu)
  rw [← ht, ← hu]
  exact List.isChain_iff_getElem.mp (isChain_scan .markup source.toList) i hi'

end TokenSeq

end PhpStyle
