import PhpStyle.Proofs.Text.Lines
import PhpStyle.Token.Lexer

/-!
# The lexer as a walk over pieces

The lexer counts bytes and may stop. Here is what it does if it never stops: a `Piece` says how many
characters the next piece has beyond its first one, what kind it has, whether it is cut again after
each newline, and whether code or markup follows it; `scan` takes piece after piece. That the two
agree on every text is `lex_eq_scan`, and everything that is said of lexemes elsewhere is said of
`scan`.

The proof goes size by size. A token of `len` bytes is cut off without a fault if `len` is the size
of a front of the text (`Lexer.emit_size`), and so for each sort of token its number of bytes is
shown to be the size of the characters of the piece: blanks and words by the search for the first
other character (`frontSize_eq`), comments by the mark that ends them (`throughSize_eq`), strings by
the quote, which is one byte wide (`stringSize_eq`), casts by their parentheses (`castSize?_eq`),
operators by their table (`operatorSize_eq`), and the lines of a piece by its newlines
(`lineSizes_eq`). Every piece has a first character, and so a turn of a loop always moves forward:
`Lexer.code_eq` and `Lexer.run_eq` are inductions on the number of characters that are left.
-/

namespace PhpStyle

/-! ### Pieces -/

/-- Text outside or inside the tags. -/
inductive Region where
  | markup
  | code
  deriving DecidableEq, Repr

/-- The shape of the next piece of a text. -/
structure Piece where
  /-- The kind of its tokens. -/
  kind : Kind
  /-- How many characters it has beyond its first one. -/
  more : Nat
  /-- Whether it is cut into one token per line. -/
  perLine : Bool := false
  /-- The region behind it. -/
  region : Region := .code

/-- Everything up to and including the first `needle` in `c :: cs`, or all of it; counted without
`c`. -/
def through (needle : List Char) (c : Char) (cs : List Char) : Nat :=
  match Text.indexOf? needle (c :: cs) with
  | some n => n + needle.length - 1
  | none => cs.length

/-- The rest of a string that `quote` opened and the next `quote` not behind a backslash closes. -/
def stringRest (quote : Char) : List Char → Nat
  | [] => 0
  | c :: cs =>
    if c = '\\' then
      match cs with
      | [] => 1
      | _ :: cs => 2 + stringRest quote cs
    else if c = quote then 1
    else 1 + stringRest quote cs

/-- The rest of a cast behind its opening parenthesis: a type name and the closing parenthesis. -/
def castRest? (cs : List Char) : Option Nat := do
  let (inner, _) ← Text.cutAt [')'] cs
  if isCastType inner then some (inner.length + 1) else none

/-- The rest of the operator at the start of `c :: cs`. -/
def operatorRest (c : Char) (cs : List Char) : Nat :=
  match longOperators.find? fun op => op.toList.isPrefixOf (c :: cs) with
  | some op => op.length - 1
  | none => 0

/-- The next piece outside the tags: the text up to the next opening tag, or that tag with the
line end or space behind it. -/
def markupPiece (c : Char) (cs : List Char) : Piece :=
  match Text.cutAt openMark (c :: cs) with
  | some ([], rest) => { kind := .openTag, more := 4 + gapSize rest }
  | some (_ :: before, _) => { kind := .inlineHtml, more := before.length, region := .markup }
  | none => { kind := .inlineHtml, more := cs.length, region := .markup }

/-- The next piece that starts with a character of its own: a bracket, a separator or an
operator. -/
def punctuationPiece (c : Char) (cs : List Char) : Piece :=
  match c with
  | ')' => { kind := .closeParen, more := 0 }
  | '\x7b' => { kind := .openBrace, more := 0 }
  | '\x7d' => { kind := .closeBrace, more := 0 }
  | '[' => { kind := .openBracket, more := 0 }
  | ']' => { kind := .closeBracket, more := 0 }
  | ';' => { kind := .semicolon, more := 0 }
  | ',' => { kind := .comma, more := 0 }
  | ':' =>
    if "::".toList.isPrefixOf (c :: cs) then { kind := .doubleColon, more := 1 }
    else { kind := .colon, more := 0 }
  | '-' =>
    if "->".toList.isPrefixOf (c :: cs) then { kind := .objectOperator, more := 1 }
    else { kind := .operator, more := operatorRest c cs }
  | _ => { kind := .operator, more := operatorRest c cs }

/-- The next piece inside the tags. -/
def codePiece (c : Char) (cs : List Char) : Piece :=
  if "?>".toList.isPrefixOf (c :: cs) then
    { kind := .closeTag, more := if cs.drop 1 |>.head? |> (· == some '\n') then 2 else 1,
      region := .markup }
  else if Text.isBlank c then
    { kind := .whitespace, more := (cs.takeWhile Text.isBlank).length, perLine := true }
  else if "/**".toList.isPrefixOf (c :: cs) then
    { kind := .docComment, more := through ['*', '/'] c cs, perLine := true }
  else if "/*".toList.isPrefixOf (c :: cs) then
    { kind := .comment, more := through ['*', '/'] c cs }
  else if "//".toList.isPrefixOf (c :: cs) || c == '#' then
    { kind := .comment, more := through ['\n'] c cs }
  else if c == '$' then
    { kind := .variableName, more := (cs.takeWhile isWordChar).length }
  else if isWordStart c then
    let rest := cs.takeWhile isWordChar
    { kind := wordKind (c :: rest), more := rest.length }
  else if c.isDigit then
    { kind := .literal, more := (cs.takeWhile fun d => d.isAlphanum || d == '.').length }
  else if c == '\'' || c == '"' then { kind := .literal, more := stringRest c cs }
  else if c == '(' then
    match castRest? cs with
    | some more => { kind := .cast, more }
    | none => { kind := .openParen, more := 0 }
  else punctuationPiece c cs

/-- The next piece of a text in the given region. -/
def nextPiece : Region → Char → List Char → Piece
  | .markup => markupPiece
  | .code => codePiece

/-- The lexemes of a text that starts in the given region. -/
def scan (region : Region) : List Char → List (Kind × List Char)
  | [] => []
  | c :: cs =>
    let piece := nextPiece region c cs
    let text := c :: cs.take piece.more
    let lexemes := if piece.perLine then Text.keepLines text else [text]
    lexemes.map (piece.kind, ·) ++ scan piece.region (cs.drop piece.more)
termination_by cs => cs.length
decreasing_by simp only [List.length_drop, List.length_cons]; omega

/-! ### The characters of a piece -/

variable {c : Char} {cs : List Char}

/-- The tokens that a piece is cut into. -/
def Piece.lexemes (piece : Piece) (c : Char) (cs : List Char) : List (Kind × List Char) :=
  let text := c :: cs.take piece.more
  (if piece.perLine then Text.keepLines text else [text]).map (piece.kind, ·)

/-- The lexemes of a text are those of its first piece, and those of the rest. -/
theorem scan_cons (region : Region) (c : Char) (cs : List Char) :
    scan region (c :: cs) = (nextPiece region c cs).lexemes c cs ++
      scan (nextPiece region c cs).region (cs.drop (nextPiece region c cs).more) := by
  rw [scan]
  rfl

/-- The front with a property, as a number of characters. -/
theorem take_length_takeWhile (p : Char → Bool) (cs : List Char) :
    cs.take (cs.takeWhile p).length = cs.takeWhile p :=
  (List.prefix_iff_eq_take.mp (List.takeWhile_prefix p)).symm

/-- The kinds of brackets, separators and operators. -/
def Kind.isPunctuation (k : Kind) : Bool :=
  [closeParen, openBrace, closeBrace, openBracket, closeBracket, semicolon, comma, colon,
    doubleColon, objectOperator, operator].contains k

/-- Brackets and separators have one or two characters; operators have those of their table. -/
theorem punctuationPiece_cases (c : Char) (cs : List Char) :
    (∃ kind more, kind.isPunctuation = true ∧ more ≤ 1 ∧ punctuationPiece c cs = { kind, more }) ∨
      punctuationPiece c cs = { kind := .operator, more := operatorRest c cs } := by
  unfold punctuationPiece
  split
  case h_8 =>
    split
    · exact Or.inl ⟨.doubleColon, 1, rfl, le_rfl, rfl⟩
    · exact Or.inl ⟨.colon, 0, rfl, Nat.zero_le 1, rfl⟩
  case h_9 =>
    split
    · exact Or.inl ⟨.objectOperator, 1, rfl, le_rfl, rfl⟩
    · exact Or.inr rfl
  case h_10 => exact Or.inr rfl
  all_goals exact Or.inl ⟨_, 0, rfl, Nat.zero_le 1, rfl⟩

/-- Such a piece is one token, and code follows it. -/
theorem punctuationPiece_kind (c : Char) (cs : List Char) :
    (punctuationPiece c cs).kind.isPunctuation = true ∧ (punctuationPiece c cs).perLine = false ∧
      (punctuationPiece c cs).region = .code := by
  rcases punctuationPiece_cases c cs with ⟨kind, more, hkind, -, heq⟩ | heq
  · rw [heq]
    exact ⟨hkind, rfl, rfl⟩
  · rw [heq]
    exact ⟨rfl, rfl, rfl⟩

/-- The piece that ends with the first occurrence of a mark. -/
theorem take_through {needle before after : List Char} (hne : needle ≠ [])
    (hcut : Text.cutAt needle (c :: cs) = some (before, after)) :
    c :: cs.take (through needle c cs) = before ++ needle := by
  have hpos : 0 < needle.length := List.length_pos_iff.mpr hne
  -- the piece has the length of what stands before the mark, and of the mark
  have htake : c :: cs.take (before.length + needle.length - 1) =
      (c :: cs).take (before.length + needle.length) := by
    rw [← List.take_succ_cons]
    congr 1
    omega
  unfold through Text.indexOf?
  rw [hcut]
  simp only [Option.map_some, htake]
  rw [Text.eq_append_of_cutAt hcut, ← List.length_append, List.take_left]

/-- The characters of an operator of the table are its text. -/
theorem take_operatorRest {op : String}
    (h : longOperators.find? (fun op => op.toList.isPrefixOf (c :: cs)) = some op) :
    c :: cs.take (operatorRest c cs) = op.toList := by
  have hops : ∀ op ∈ longOperators, op.toList ≠ [] := by decide
  have hpos := List.length_pos_iff.mpr (hops op (List.mem_of_find?_eq_some h))
  have hmatch := List.find?_some h
  obtain ⟨rest, hrest⟩ := List.isPrefixOf_iff_prefix.mp hmatch
  unfold operatorRest
  rw [h]
  simp only
  rw [← List.take_succ_cons, ← hrest, ← String.length_toList, Nat.sub_add_cancel hpos,
    List.take_left]

/-- The characters of a cast: a type name between parentheses. -/
theorem exists_of_castRest? {more : Nat} (h : castRest? cs = some more) :
    ∃ inner, isCastType inner = true ∧ cs.take more = inner ++ [')'] := by
  unfold castRest? at h
  rcases hcut : Text.cutAt [')'] cs with _ | ⟨inner, after⟩
  · rw [hcut] at h
    cases h
  rw [hcut] at h
  simp only [Option.bind_eq_bind, Option.bind_some, Option.ite_none_right_eq_some,
    Option.some.injEq] at h
  obtain ⟨htype, rfl⟩ := h
  refine ⟨inner, htype, ?_⟩
  rw [Text.eq_append_of_cutAt hcut, List.append_assoc, List.take_length_add_append]
  rfl

/-! ### The size of a piece -/

/-- The front of a text with a property is searched for its end. -/
theorem frontSize_eq (p : Char → Bool) (cs : List Char) :
    frontSize p cs = Text.size (cs.takeWhile p) := by
  rw [frontSize, Text.getD_find?]
  simp

/-- A front of characters with a property, behind a first one that has it. -/
theorem frontSize_cons (p : Char → Bool) (hc : p c = true) (cs : List Char) :
    frontSize p (c :: cs) = Text.size (c :: cs.take (cs.takeWhile p).length) := by
  rw [frontSize_eq, List.takeWhile_cons_of_pos hc, take_length_takeWhile]

/-- A text up to a mark. -/
theorem throughSize_eq {needle : List Char} (hne : needle ≠ []) (c : Char) (cs : List Char) :
    throughSize needle (c :: cs) = Text.size (c :: cs.take (through needle c cs)) := by
  unfold throughSize Text.findText?
  rcases hcut : Text.cutAt needle (c :: cs) with _ | ⟨before, after⟩
  · simp [through, Text.indexOf?, hcut]
  · rw [take_through hne hcut, Text.size_append]
    rfl

/-- The end of a string is looked for character by character. The quote is one byte wide, and so
the byte behind it is the start of a character. -/
theorem stringEnd_eq {quote : Char} (hquote : quote.utf8Size = 1) (byte : Nat) (cs : List Char) :
    stringEnd quote false byte cs = byte + Text.size (cs.take (stringRest quote cs)) := by
  fun_induction stringRest quote cs generalizing byte with
  | case1 => rfl
  | case2 => simp [stringEnd]
  | case3 d cs ih =>
      -- the character behind the backslash is passed over, whatever it is
      rw [stringEnd, if_neg (by decide), if_pos rfl, stringEnd, if_pos rfl, ih, Nat.add_comm 2,
        List.take_succ_cons, List.take_succ_cons, Text.size_cons, Text.size_cons]
      omega
  | case4 cs hslash =>
      rw [stringEnd, if_neg (by decide), if_neg hslash, if_pos rfl, List.take_succ_cons]
      simp [hquote]
  | case5 c cs hslash hne ih =>
      rw [stringEnd, if_neg (by decide), if_neg hslash, if_neg hne, ih, Nat.add_comm 1,
        List.take_succ_cons, Text.size_cons]
      omega

/-- A string. -/
theorem stringSize_eq {quote : Char} (hquote : quote.utf8Size = 1) (c : Char) (cs : List Char) :
    stringSize quote (c :: cs) = Text.size (c :: cs.take (stringRest quote cs)) := by
  rw [stringSize, stringEnd_eq hquote, Text.size_cons]

/-- A cast, if there is one. The two cuts at its parentheses succeed. -/
theorem castSize?_eq (cs : List Char) :
    castSize? ('(' :: cs) =
      .ok ((castRest? cs).map fun more => Text.size ('(' :: cs.take more)) := by
  have hopen : Text.cutAt [')'] ('(' :: cs) =
      (Text.cutAt [')'] cs).map fun (before, after) => ('(' :: before, after) := by
    rw [Text.cutAt, if_neg (by simp)]
  unfold castSize? castRest? Text.findText?
  rw [hopen]
  rcases hcut : Text.cutAt [')'] cs with _ | ⟨inner, after⟩
  · rfl
  have hcs := Text.eq_append_of_cutAt hcut
  -- the cut in front of the closing parenthesis, and the one behind the opening parenthesis
  have hfront : Text.cut (Text.size ('(' :: inner)) ('(' :: cs) =
      .ok ('(' :: inner, ')' :: after) := by
    rw [hcs, List.append_assoc, ← List.cons_append]
    exact Text.cut_size ('(' :: inner) (')' :: after)
  have hinner : Text.cut 1 ('(' :: inner) = .ok (['('], inner) := Text.cut_size ['('] inner
  have htake : cs.take (inner.length + 1) = inner ++ [')'] := by
    rw [hcs, List.append_assoc, List.take_length_add_append]
    rfl
  have hsize : Text.size ('(' :: inner) + 1 = Text.size ('(' :: (inner ++ [')'])) := by
    rw [← List.cons_append, Text.size_append]
    rfl
  simp only [Option.map_some, Option.bind_some, hfront, hinner, hsize, bind, Except.bind, pure,
    Except.pure]
  by_cases htype : isCastType inner
  · simp [htype, htake]
  · simp [htype]

/-- An operator, of the table or of one character. -/
theorem operatorSize_eq (c : Char) (cs : List Char) :
    operatorSize c (c :: cs) = Text.size (c :: cs.take (operatorRest c cs)) := by
  unfold operatorSize
  split
  · next op hfind => rw [take_operatorRest hfind, ← Text.utf8ByteSize_ofList, String.ofList_toList]
  · next hfind => simp [operatorRest, hfind]

/-- The sizes of the lines of a text. What `line` holds is the line that the text continues; a
newline is one byte wide, and so the next line starts at the next character. -/
theorem lineSizes_eq {start byte : Nat} {line : List Char} (hline : '\n' ∉ line)
    (hbyte : byte = start + Text.size line) (cs : List Char) :
    lineSizes (byte + Text.size cs) start byte cs =
      .ok ((Text.keepLines (line ++ cs)).map Text.size) := by
  induction cs generalizing start byte line with
  | nil =>
      rw [lineSizes, List.append_nil, Text.keepLines_of_notMem hline, hbyte, Text.size_nil]
      -- what is left without a newline is a line, unless nothing is left
      cases line with
      | nil => simp [pure, Except.pure]
      | cons c line =>
          have hpos : 0 < Text.size (c :: line) := Nat.add_pos_left c.utf8Size_pos _
          simp only [Nat.add_zero, Nat.lt_add_right_iff_pos, hpos, if_pos, Nat.add_sub_cancel_left]
          rfl
  | cons c cs ih =>
      rw [lineSizes]
      by_cases hc : c = '\n'
      · subst hc
        have hminus : minus (byte + 1) start = .ok (Text.size line + 1) :=
          minus_eq_ok_iff.mpr ⟨by omega, by omega⟩
        have hrest : lineSizes (byte + 1 + Text.size cs) (byte + 1) (byte + 1) cs =
            .ok ((Text.keepLines ([] ++ cs)).map Text.size) := ih (by simp) rfl
        have hwidth : ('\n').utf8Size = 1 := by decide
        rw [if_pos rfl, Text.keepLines_append_newline hline, Text.size_cons, hwidth,
          ← Nat.add_assoc, hminus, hrest]
        simp [hwidth, bind, Except.bind, pure, Except.pure]
      · have hrest : lineSizes (byte + c.utf8Size + Text.size cs) start (byte + c.utf8Size) cs =
            .ok ((Text.keepLines (line ++ [c] ++ cs)).map Text.size) :=
          ih (by simp [hline, Ne.symm hc]) (by simp [hbyte]; omega)
        rw [if_neg hc, Text.size_cons, ← Nat.add_assoc, hrest, List.append_assoc]
        rfl

/-! ### Tokens -/

namespace Lexer

variable {l : Lexer} {back : List Char}

/-- The lexer once it has cut the given lexemes off its text. -/
def behind (l : Lexer) (lexemes : List (Kind × List Char)) (back : List Char) : Lexer where
  rest := back
  out := l.out ++ (lexemes.map fun lexeme => (lexeme.1, String.ofList lexeme.2)).toArray

@[simp] theorem rest_behind (l : Lexer) (lexemes : List (Kind × List Char)) (back : List Char) :
    (l.behind lexemes back).rest = back := rfl

/-- Lexemes are cut off one after the other. -/
theorem behind_behind (l : Lexer) (front rear : List (Kind × List Char)) (middle back : List Char) :
    (l.behind front middle).behind rear back = l.behind (front ++ rear) back := by
  simp [behind]

/-- **A token is cut off if its number of bytes is the size of a front of the text.** -/
theorem emit_size {text : List Char} (kind : Kind) (h : l.rest = text ++ back) :
    l.emit kind (Text.size text) = .ok (l.behind [(kind, text)] back) := by
  rw [emit, h, Text.cut_size]
  simp [behind, bind, Except.bind, pure, Except.pure]

/-- Several tokens are cut off if their numbers of bytes are the sizes of texts that make a front of
the text. -/
theorem emitAll_sizes {texts : List (List Char)} (kind : Kind)
    (h : l.rest = texts.flatten ++ back) :
    l.emitAll kind (texts.map Text.size) = .ok (l.behind (texts.map (kind, ·)) back) := by
  induction texts generalizing l with
  | nil =>
      rw [List.flatten_nil, List.nil_append] at h
      rw [← h]
      simp [emitAll, behind, pure, Except.pure]
  | cons text texts ih =>
      rw [List.flatten_cons, List.append_assoc] at h
      have hrest := ih (l := l.behind [(kind, text)] (texts.flatten ++ back)) rfl
      rw [behind_behind] at hrest
      rw [emitAll, List.map_cons, List.foldlM_cons, emit_size kind h]
      exact hrest

/-- A piece that is one token is cut off if its number of bytes is the size of its characters. -/
theorem emit_piece {len : Nat} (kind : Kind) (more : Nat) (h : l.rest = c :: cs)
    (hlen : len = Text.size (c :: cs.take more)) :
    l.emit kind len = .ok (l.behind [(kind, c :: cs.take more)] (cs.drop more)) := by
  rw [hlen]
  apply emit_size kind
  rw [h, List.cons_append, List.take_append_drop]

/-- Blanks are cut off as lines. -/
theorem whitespace_eq (h : l.rest = c :: cs) (hc : Text.isBlank c = true) :
    l.whitespace = .ok (l.behind
      ((Text.keepLines (c :: cs.take (cs.takeWhile Text.isBlank).length)).map (.whitespace, ·))
      (cs.drop (cs.takeWhile Text.isBlank).length)) := by
  have hsize := frontSize_cons Text.isBlank hc cs
  set more := (cs.takeWhile Text.isBlank).length
  have hrest : l.rest = (c :: cs.take more) ++ cs.drop more := by
    rw [h, List.cons_append, List.take_append_drop]
  have hcut : Text.cut (Text.size (c :: cs.take more)) l.rest =
      .ok (c :: cs.take more, cs.drop more) := by
    rw [hrest]
    exact Text.cut_size _ _
  have hlines : lineSizes (0 + Text.size (c :: cs.take more)) 0 0 (c :: cs.take more) =
      .ok ((Text.keepLines ([] ++ (c :: cs.take more))).map Text.size) :=
    lineSizes_eq List.not_mem_nil rfl _
  rw [Nat.zero_add, List.nil_append] at hlines
  have htexts : l.rest = (Text.keepLines (c :: cs.take more)).flatten ++ cs.drop more := by
    rw [Text.flatten_keepLines, hrest]
  rw [← h] at hsize
  rw [whitespace, hsize]
  simp only [hcut, hlines, bind, Except.bind]
  exact emitAll_sizes .whitespace htexts

/-- A documentation comment is cut off as lines. -/
theorem docComment_eq (h : l.rest = c :: cs) :
    l.docComment = .ok (l.behind
      ((Text.keepLines (c :: cs.take (through ['*', '/'] c cs))).map (.docComment, ·))
      (cs.drop (through ['*', '/'] c cs))) := by
  set more := through ['*', '/'] c cs with hmore
  have hrest : l.rest = (c :: cs.take more) ++ cs.drop more := by
    rw [h, List.cons_append, List.take_append_drop]
  have hcut : Text.cut (throughSize ['*', '/'] l.rest) l.rest =
      .ok (c :: cs.take more, cs.drop more) := by
    rw [h, throughSize_eq (by decide), ← hmore, ← h, hrest]
    exact Text.cut_size _ _
  have htexts : l.rest = (Text.keepLines (c :: cs.take more)).flatten ++ cs.drop more := by
    rw [Text.flatten_keepLines, hrest]
  rw [docComment]
  simp only [hcut, bind, Except.bind]
  exact emitAll_sizes .docComment htexts

/-- A bracket, a separator or an operator is cut off. -/
theorem punctuation_eq (h : l.rest = c :: cs) :
    l.punctuation c = .ok (l.behind [((punctuationPiece c cs).kind,
      c :: cs.take (punctuationPiece c cs).more)] (cs.drop (punctuationPiece c cs).more)) := by
  have hoperator : l.operator c = .ok (l.behind [(.operator, c :: cs.take (operatorRest c cs))]
      (cs.drop (operatorRest c cs))) := by
    rw [operator, h]
    exact emit_piece .operator _ h (operatorSize_eq c cs)
  -- by the piece first: where it is decided by the character alone, the lexer decides in the same
  -- way, and the two sizes are the same number
  unfold punctuationPiece
  split
  case h_8 =>
    change (if "::".toList.isPrefixOf l.rest then l.emit .doubleColon 2 else l.emit .colon 1) = _
    rw [h]
    split
    · next hmark =>
        obtain ⟨ds, hds⟩ := List.isPrefixOf_iff_prefix.mp hmark
        refine emit_piece .doubleColon 1 h ?_
        cases hds
        rfl
    · exact emit_piece .colon 0 h rfl
  case h_9 =>
    change (if "->".toList.isPrefixOf l.rest then l.emit .objectOperator 2 else l.operator '-') = _
    rw [h]
    split
    · next hmark =>
        obtain ⟨ds, hds⟩ := List.isPrefixOf_iff_prefix.mp hmark
        refine emit_piece .objectOperator 1 h ?_
        cases hds
        rfl
    · exact hoperator
  case h_10 =>
    unfold punctuation
    split <;> first | contradiction | exact hoperator
  all_goals exact emit_piece _ 0 h rfl

/-- A word is cut off, and its kind is read off its characters. -/
theorem word_eq (h : l.rest = c :: cs) (hc : isWordStart c = true) :
    (do
      let (word, _) ← Text.cut (frontSize isWordChar l.rest) l.rest
      l.emit (wordKind word) (frontSize isWordChar l.rest)) =
    .ok (l.behind [(wordKind (c :: cs.takeWhile isWordChar),
      c :: cs.take (cs.takeWhile isWordChar).length)]
        (cs.drop (cs.takeWhile isWordChar).length)) := by
  have hword : isWordChar c = true := by
    simp only [isWordStart, Bool.or_eq_true] at hc
    simp only [isWordChar, Char.isAlphanum, Bool.or_eq_true]
    tauto
  have hsize := frontSize_cons isWordChar hword cs
  rw [← h] at hsize
  have hcut := Text.cut_size (c :: cs.take (cs.takeWhile isWordChar).length)
    (cs.drop (cs.takeWhile isWordChar).length)
  rw [List.cons_append, List.take_append_drop, ← h, ← hsize, take_length_takeWhile] at hcut
  rw [hcut]
  exact emit_piece _ _ h hsize

/-- **The tokens that code starts with are those of the next piece**, and code follows them. -/
theorem codeToken_eq (h : l.rest = c :: cs) (hclose : ¬ "?>".toList.isPrefixOf (c :: cs) = true) :
    l.codeToken c =
      .ok (l.behind ((codePiece c cs).lexemes c cs) (cs.drop (codePiece c cs).more)) ∧
    (codePiece c cs).region = .code := by
  -- both decide by the same conditions, in the same order
  rw [codePiece, if_neg hclose, codeToken, h]
  by_cases hblank : Text.isBlank c
  · rw [if_pos hblank, if_pos hblank]
    exact ⟨whitespace_eq h hblank, rfl⟩
  rw [if_neg hblank, if_neg hblank]
  by_cases hdoc : "/**".toList.isPrefixOf (c :: cs)
  · rw [if_pos hdoc, if_pos hdoc]
    exact ⟨docComment_eq h, rfl⟩
  rw [if_neg hdoc, if_neg hdoc]
  by_cases hcomment : "/*".toList.isPrefixOf (c :: cs)
  · rw [if_pos hcomment, if_pos hcomment]
    exact ⟨emit_piece _ _ h (throughSize_eq (by decide) c cs), rfl⟩
  rw [if_neg hcomment, if_neg hcomment]
  by_cases hline : ("//".toList.isPrefixOf (c :: cs) || c == '#') = true
  · rw [if_pos hline, if_pos hline]
    exact ⟨emit_piece _ _ h (throughSize_eq (by decide) c cs), rfl⟩
  rw [if_neg hline, if_neg hline]
  by_cases hdollar : (c == '$') = true
  · rw [if_pos hdollar, if_pos hdollar]
    obtain rfl := beq_iff_eq.mp hdollar
    have hcut : Text.cut 1 ('$' :: cs) = .ok (['$'], cs) := Text.cut_size ['$'] cs
    rw [hcut]
    refine ⟨emit_piece _ _ h ?_, rfl⟩
    change _ = Text.size ('$' :: cs.take (cs.takeWhile isWordChar).length)
    rw [take_length_takeWhile, frontSize_eq]
    rfl
  rw [if_neg hdollar, if_neg hdollar]
  by_cases hword : isWordStart c
  · rw [if_pos hword, if_pos hword]
    refine ⟨?_, rfl⟩
    have hcut := word_eq h hword
    rw [h] at hcut
    exact hcut
  rw [if_neg hword, if_neg hword]
  by_cases hdigit : c.isDigit
  · rw [if_pos hdigit, if_pos hdigit]
    have hfirst : (c.isAlphanum || c == '.') = true := by simp [Char.isAlphanum, hdigit]
    exact ⟨emit_piece _ _ h (frontSize_cons (fun d => d.isAlphanum || d == '.') hfirst cs), rfl⟩
  rw [if_neg hdigit, if_neg hdigit]
  by_cases hquote : (c == '\'' || c == '"') = true
  · rw [if_pos hquote, if_pos hquote]
    refine ⟨emit_piece _ _ h (stringSize_eq ?_ c cs), rfl⟩
    rcases (by simpa using hquote : c = '\'' ∨ c = '"') with rfl | rfl
    · rfl
    · rfl
  rw [if_neg hquote, if_neg hquote]
  by_cases hparen : (c == '(') = true
  · rw [if_pos hparen, if_pos hparen]
    obtain rfl := beq_iff_eq.mp hparen
    rw [castSize?_eq]
    rcases castRest? cs with _ | more
    · exact ⟨emit_piece _ 0 h rfl, rfl⟩
    · exact ⟨emit_piece _ more h rfl, rfl⟩
  rw [if_neg hparen, if_neg hparen]
  obtain ⟨-, hperLine, hregion⟩ := punctuationPiece_kind c cs
  refine ⟨?_, hregion⟩
  rw [punctuation_eq h, Piece.lexemes, hperLine]
  rfl

/-- The closing tag is cut off, with the newline behind it. -/
theorem closeTag_eq (h : l.rest = c :: cs) (hclose : "?>".toList.isPrefixOf (c :: cs) = true) :
    l.code = .ok (l.behind ((codePiece c cs).lexemes c cs) (cs.drop (codePiece c cs).more)) ∧
    (codePiece c cs).region = .markup := by
  obtain ⟨ds, hds⟩ := List.isPrefixOf_iff_prefix.mp hclose
  obtain ⟨rfl, rfl⟩ : '?' = c ∧ '>' :: ds = cs := List.cons.inj hds
  have hcut : Text.cut 2 ('?' :: '>' :: ds) = .ok (['?', '>'], ds) := Text.cut_size ['?', '>'] ds
  rw [code]
  simp only [h, hcut, codePiece, if_pos hclose, bind, Except.bind]
  refine ⟨emit_piece _ _ h ?_, trivial⟩
  rcases ds with _ | ⟨d, ds⟩
  · rfl
  · by_cases hd : d = '\n'
    · subst hd
      rfl
    · simp [hd]
      rfl

/-- **Inside the tags** the lexer cuts off the lexemes up to and including the next closing tag, and
is then at markup. It does not go back. -/
theorem code_eq (l : Lexer) :
    ∃ lexemes back, l.code = .ok (l.behind lexemes back) ∧
      scan .code l.rest = lexemes ++ scan .markup back ∧ back.length ≤ l.rest.length := by
  induction hn : l.rest.length using Nat.strong_induction_on generalizing l with
  | _ n ih =>
    rcases h : l.rest with _ | ⟨c, cs⟩
    · refine ⟨[], [], ?_, by simp [scan], by simp⟩
      rw [code, h]
      simp [behind, ← h]
    by_cases hclose : "?>".toList.isPrefixOf (c :: cs)
    · obtain ⟨htag, hregion⟩ := closeTag_eq h hclose
      refine ⟨_, _, htag, ?_, ?_⟩
      · rw [scan_cons]
        simp only [nextPiece, hregion]
      · rw [List.length_drop, ← hn, h, List.length_cons]
        omega
    · obtain ⟨htoken, hregion⟩ := codeToken_eq h hclose
      -- a piece has a first character, and so less is left behind it
      have hless : (cs.drop (codePiece c cs).more).length < l.rest.length := by
        rw [List.length_drop, h, List.length_cons]
        omega
      obtain ⟨lexemes, back, hcode, hscan, hle⟩ := ih _ (hn ▸ hless)
        (l.behind ((codePiece c cs).lexemes c cs) (cs.drop (codePiece c cs).more)) rfl
      refine ⟨(codePiece c cs).lexemes c cs ++ lexemes, back, ?_, ?_, ?_⟩
      · rw [code]
        simp only [h, if_neg hclose, htoken]
        rw [if_pos (h ▸ hless), hcode, behind_behind]
      · rw [scan_cons]
        simp only [nextPiece, hregion]
        rw [List.append_assoc, ← hscan]
        rfl
      · exact hn ▸ hle.trans hless.le

/-- An opening tag is cut off, with what belongs to it. -/
theorem openTag_eq (h : l.rest = c :: cs) (hmark : openMark.isPrefixOf (c :: cs) = true) :
    l.openTag = .ok (l.behind ((markupPiece c cs).lexemes c cs) (cs.drop (markupPiece c cs).more)) ∧
    (markupPiece c cs).region = .code := by
  obtain ⟨ds, hds⟩ := List.isPrefixOf_iff_prefix.mp hmark
  have hcutAt : Text.cutAt openMark (c :: cs) = some ([], ds) := by
    rw [Text.cutAt, if_pos hmark, ← hds, List.drop_left]
  have hcut : Text.cut (Text.size openMark) l.rest = .ok (openMark, ds) := by
    rw [h, ← hds]
    exact Text.cut_size openMark ds
  -- line ends and blanks are one byte wide, so the gap has as many bytes as characters
  have hgap : gapSize ds = Text.size (ds.take (gapSize ds)) := by
    unfold gapSize
    split
    · next hend =>
        obtain ⟨rest, rfl⟩ := List.isPrefixOf_iff_prefix.mp hend
        rfl
    · split
      · next hend =>
          rcases ds with _ | ⟨d, ds⟩
          · cases hend
          · rcases (by simpa using hend : d = '\n' ∨ d = ' ') with rfl | rfl
            · rfl
            · rfl
      · rfl
  -- behind the first character there are four more of the mark, and then the gap
  obtain ⟨rfl, hcs⟩ : '<' = c ∧ '?' :: 'p' :: 'h' :: 'p' :: ds = cs := List.cons.inj hds
  have htext : '<' :: cs.take (4 + gapSize ds) = openMark ++ ds.take (gapSize ds) := by
    rw [← hcs, Nat.add_comm]
    rfl
  simp only [openTag, markupPiece, hcutAt, hcut, bind, Except.bind]
  refine ⟨emit_piece _ _ h ?_, trivial⟩
  rw [htext, Text.size_append, ← hgap]

/-- An opening tag is the first lexeme of markup that starts with it, and code follows it. -/
theorem exists_openTag (h : openMark <+: l.rest) :
    ∃ lexemes back, l.openTag = .ok (l.behind lexemes back) ∧
      scan .markup l.rest = lexemes ++ scan .code back ∧ back.length < l.rest.length := by
  rcases hrest : l.rest with _ | ⟨c, cs⟩
  · rw [hrest, List.prefix_nil] at h
    exact absurd h (by decide)
  rw [hrest] at h
  obtain ⟨htag, hregion⟩ := openTag_eq hrest (List.isPrefixOf_iff_prefix.mpr h)
  refine ⟨_, _, htag, ?_, ?_⟩
  · rw [scan_cons]
    simp only [nextPiece, hregion]
  · rw [List.length_drop, List.length_cons]
    omega

/-- **Outside the tags** the lexer cuts off the lexemes up to and including the next opening tag,
and is then at code. It moves forward. -/
theorem inlineHtml_eq (h : l.rest = c :: cs) :
    ∃ lexemes back, l.inlineHtml = .ok (l.behind lexemes back) ∧
      scan .markup l.rest = lexemes ++ scan .code back ∧ back.length < l.rest.length := by
  rcases hcut : Text.cutAt openMark (c :: cs) with _ | ⟨before, after⟩
  · -- all that is left is text
    have hlen : (Text.findText? openMark l.rest).getD (Text.size l.rest) = Text.size (c :: cs) := by
      rw [h, Text.findText?, hcut]
      rfl
    have hpos : 0 < Text.size (c :: cs) := Nat.add_pos_left c.utf8Size_pos _
    refine ⟨[(.inlineHtml, c :: cs)], [], ?_, ?_, ?_⟩
    · rw [inlineHtml]
      simp only [hlen, hpos, if_true, emit_size .inlineHtml (h.trans (List.append_nil _).symm),
        bind, Except.bind]
      rfl
    · rw [h, scan_cons]
      simp [nextPiece, markupPiece, hcut, Piece.lexemes, scan]
    · simp [h]
  have hcs := Text.eq_append_of_cutAt hcut
  have hlen : (Text.findText? openMark l.rest).getD (Text.size l.rest) = Text.size before := by
    rw [h, Text.findText?, hcut]
    rfl
  cases before with
  | nil =>
      -- the tag stands at the front
      have hmark : openMark <+: l.rest := ⟨after, (h.trans hcs).symm⟩
      obtain ⟨lexemes, back, htag, hscan, hless⟩ := exists_openTag hmark
      refine ⟨lexemes, back, ?_, hscan, hless⟩
      rw [inlineHtml]
      simp only [hlen, Text.size_nil, Nat.lt_irrefl, if_false, bind, Except.bind, pure, Except.pure]
      rw [if_pos (List.isPrefixOf_iff_prefix.mpr hmark), htag]
  | cons b before =>
      -- text is cut off first, and the tag stands behind it
      rw [List.append_assoc] at hcs
      have hpos : 0 < Text.size (b :: before) := Nat.add_pos_left b.utf8Size_pos _
      have hmark : openMark <+: openMark ++ after := List.prefix_append openMark after
      obtain ⟨lexemes, back, htag, hscan, hless⟩ :=
        exists_openTag (l := l.behind [(.inlineHtml, b :: before)] (openMark ++ after)) hmark
      rw [rest_behind] at hscan hless
      refine ⟨(.inlineHtml, b :: before) :: lexemes, back, ?_, ?_, ?_⟩
      · rw [inlineHtml]
        simp only [hlen, hpos, if_true, emit_size .inlineHtml (h.trans hcs), bind, Except.bind]
        rw [rest_behind, if_pos (List.isPrefixOf_iff_prefix.mpr hmark), htag, behind_behind]
        rfl
      · have hpiece : markupPiece c cs =
            { kind := .inlineHtml, more := before.length, region := .markup } := by
          rw [markupPiece, hcut]
        obtain ⟨rfl, htail⟩ : c = b ∧ cs = before ++ (openMark ++ after) := List.cons.inj hcs
        rw [h, scan_cons]
        simp only [nextPiece, hpiece, Piece.lexemes]
        rw [htail, List.take_left, List.drop_left, hscan]
        rfl
      · have hlength := congrArg List.length hcs
        simp only [List.length_append, List.length_cons] at hlength
        rw [List.length_append] at hless
        rw [h, List.length_cons]
        omega

/-- **The lexer never stops before the end, and cuts off the lexemes of the text.** -/
theorem run_eq (l : Lexer) : l.run = .ok (l.behind (scan .markup l.rest) []) := by
  induction hn : l.rest.length using Nat.strong_induction_on generalizing l with
  | _ n ih =>
    rcases h : l.rest with _ | ⟨c, cs⟩
    · rw [run, h, scan]
      simp [behind, ← h]
    -- one turn: the text in front of a tag and the tag, then the code up to the closing tag
    obtain ⟨html, middle, hhtml, hscan, hless⟩ := inlineHtml_eq h
    obtain ⟨tokens, back, htokens, hscan', hle⟩ := code_eq (l.behind html middle)
    have hback : (l.behind (html ++ tokens) back).rest.length < l.rest.length := hle.trans_lt hless
    have hbind : l.inlineHtml.bind code = .ok (l.behind (html ++ tokens) back) := by
      rw [hhtml, ← behind_behind]
      exact htokens
    have hrest := ih back.length (hn ▸ hback) (l.behind (html ++ tokens) back) rfl
    rw [rest_behind] at hscan' hrest
    rw [run, if_neg (by simp [h]), hbind]
    simp only
    rw [if_pos hback, hrest, behind_behind, ← h, hscan, hscan', List.append_assoc]

end Lexer

/-- **The lexer gives the lexemes of a text**, whatever the text. -/
theorem lex_eq_scan (source : String) :
    lex source = .ok ((scan .markup source.toList).map fun lexeme =>
      (lexeme.1, String.ofList lexeme.2)) := by
  rw [lex, Lexer.run_eq]
  simp [Lexer.behind, bind, Except.bind, pure, Except.pure]

/-- The lexemes as pairs of kinds and strings. -/
theorem lexemes_eq_scan (source : String) :
    lexemes source = (scan .markup source.toList).map fun lexeme =>
      (lexeme.1, String.ofList lexeme.2) := by
  rw [lexemes, lex_eq_scan]

end PhpStyle
