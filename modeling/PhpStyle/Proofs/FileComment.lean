import PhpStyle.Proofs.Checked
import PhpStyle.Proofs.Lexemes
import PhpStyle.Proofs.Search
import PhpStyle.Rule.FileComment

/-!
# Whose comment a block is

A block behind the first opening tag is the comment of the file, or of the class or function below
it. The rule tells them apart by the line ends between the block and the declaration, and counts the
tokens that are nothing but a line end. Whitespace is cut into tokens behind each newline. So these
tokens are the lines of the text in between that are empty, and not all of its lines
(`FileComment.check_blockAbove`, `FileComment.check_spacedBlock`).

The rule is followed first, in any sequence with a block between the first tag and a declaration and
whitespace around it (`FileComment.BlockAbove`). Each of its searches finds what it should, and so
what is reported hangs on the number of line ends (`FileComment.BlockAbove.check_eq`).

Then the tokens behind the block are compared with the text that they make up. In a source text they
are its lines (`FileComment.BlockAbove.keepLines_between`): they are not empty, hold a newline at
their end only, and all but the last one have it there, which leaves one way to cut the text. A line
of the text is counted if nothing is on it (`FileComment.isBare`), and this is the test of the rule
with the newline taken off (`FileComment.BlockAbove.countP_isLineEnd`). Behind the last newline
there may be more whitespace, which is no line that ends (`FileComment.endedLines`) and passes
neither test.
-/

namespace PhpStyle

namespace TokenSeq

variable {s : TokenSeq} {stop : Nat}

/-- Reading the tokens at `n` indices, one after the other. -/
theorem exists_mapM_read (n start : Nat) (h : start + n ≤ s.size) :
    ∃ body, ((List.range' start n).mapM fun i => do return (← s.read i, i)) = .ok body ∧
      body.map (·.1) = (s.tokens.toList.drop start).take n := by
  induction n generalizing start with
  | zero => exact ⟨[], rfl, by simp⟩
  | succ n ih =>
      obtain ⟨t, ht⟩ := exists_get? (s := s) (i := start) (by omega)
      obtain ⟨body, hbody, hmap⟩ := ih (start + 1) (by omega)
      have hread : (do return (← s.read start, start) : Checked (Token × Nat)) =
          .ok (t, start) := by
        rw [read_eq_ok_iff.mpr ht]
        rfl
      have hget : s.tokens.toList[start]? = some t := by
        rw [Array.getElem?_toList]
        exact ht
      obtain ⟨hlt, rfl⟩ := List.getElem?_eq_some_iff.mp hget
      refine ⟨_, Checked.mapM_cons_eq_ok_iff.mpr ⟨_, body, hread, hbody, rfl⟩, ?_⟩
      rw [List.map_cons, hmap, List.drop_eq_getElem_cons hlt, List.take_succ_cons]

/-- The tokens of a range are those of the sequence. -/
theorem exists_readRange (start : Nat) (hstop : stop ≤ s.size) (h : start ≤ stop) :
    ∃ body, s.readRange start stop = .ok body ∧
      body.map (·.1) = (s.tokens.toList.take stop).drop start := by
  rw [List.drop_take]
  exact exists_mapM_read (stop - start) start (by omega)

end TokenSeq

namespace FileComment

variable {s : TokenSeq} {i start last j : Nat} {source : String}

/-! ### Blocks -/

/-- A block from `start` to `last`, behind the first opening tag `i` and above the declaration `j`,
with nothing but whitespace around it. -/
@[mk_iff] structure BlockAbove (s : TokenSeq) (i start last j : Nat) : Prop where
  /-- There is an opening tag. -/
  tag : s.kindAt (· == .openTag) i = true
  /-- It is the first one. -/
  first : ∀ k < i, s.kindAt (· == .openTag) k = false
  /-- The block is behind it. -/
  lt_start : i < start
  /-- Whitespace stands in front of the block. -/
  lead : ∀ k < start, i < k → s.kindAt (· == .whitespace) k = true
  /-- The block has a token. -/
  start_le : start ≤ last
  /-- It is a documentation comment. -/
  block : ∀ k ≤ last, start ≤ k → s.kindAt (· == .docComment) k = true
  /-- The declaration is behind it. -/
  last_lt : last < j
  /-- Whitespace stands behind the block. -/
  gap : ∀ k < j, last < k → s.kindAt (· == .whitespace) k = true
  /-- The declaration starts so. -/
  declares : s.kindAt [.kwAbstract, .kwClass, .kwFunction].contains j = true

instance : Decidable (BlockAbove s i start last j) :=
  decidable_of_iff _ (blockAbove_iff s i start last j).symm

/-- The lines of a text that end with a newline, without it. -/
def endedLines (text : String) : List (List Char) := (Text.splitLines text.toList).dropLast

/-- A line with nothing on it. It may end with a carriage return. -/
def isBare (line : List Char) : Bool := line == [] || line == ['\r']

namespace BlockAbove

variable (h : BlockAbove s i start last j)
include h

/-- No opening tag comes before. -/
theorem hasEarlierTag_eq : hasEarlierTag s i = .ok false := by
  unfold hasEarlierTag
  split
  · rfl
  · next hpos =>
      have hnone : s.prevOf [.openTag] (i - 1) 0 = none := by
        rcases hprev : s.prevOf [.openTag] (i - 1) 0 with _ | k
        · rfl
        · obtain ⟨-, hk, -, hkind⟩ := TokenSeq.prev_eq_some hprev
          have hnot := h.first k (by omega)
          simp only [List.contains_cons, List.contains_nil, Bool.or_false] at hkind
          rw [hkind] at hnot
          cases hnot
      have hminus : minus i 1 = .ok (i - 1) := minus_eq_ok_iff.mpr ⟨rfl, by omega⟩
      simp only [hminus, bind, Except.bind, hnone]
      rfl

/-- The kind of a token behind the block. -/
theorem kind_of_gap {k : Nat} {t : Token} (ht : s.get? k = some t) (hlast : last < k) (hj : k < j) :
    t.kind = .whitespace := by
  have hkind := h.gap k hj hlast
  rwa [TokenSeq.kindAt_of_get? ht, beq_iff_eq] at hkind

/-- The declaration exists. -/
theorem lt_size : j < s.size := TokenSeq.lt_size_of_kindAt h.declares

/-- The first token of the block. -/
theorem exists_first : ∃ t, s.get? start = some t ∧ t.kind = .docComment := by
  have hkind := h.block start h.start_le le_rfl
  obtain ⟨t, ht⟩ := TokenSeq.exists_get? (TokenSeq.lt_size_of_kindAt hkind)
  rw [TokenSeq.kindAt_of_get? ht, beq_iff_eq] at hkind
  exact ⟨t, ht, hkind⟩

/-- What holds of all kinds that start a declaration holds of its token. -/
theorem kindAt_declaration {p : Kind → Bool}
    (hp : ∀ kind ∈ [Kind.kwAbstract, .kwClass, .kwFunction], p kind = true) :
    s.kindAt p j = true := by
  obtain ⟨t, ht⟩ := TokenSeq.exists_get? h.lt_size
  have hkind := h.declares
  rw [TokenSeq.kindAt_of_get? ht, List.contains_iff_mem] at hkind
  rw [TokenSeq.kindAt_of_get? ht]
  exact hp t.kind hkind

/-- What the rule looks at behind the tag is the block. -/
theorem candidate?_eq : candidate? s i = .ok (some start) := by
  obtain ⟨t, ht, hkind⟩ := h.exists_first
  have hnext : s.nextNot [.whitespace] (i + 1) none = some start := by
    rw [TokenSeq.nextNot_whitespace]
    refine TokenSeq.next_none_eq_some_iff.mpr ⟨h.lt_start, TokenSeq.lt_size_of_get? ht, ?_,
      fun k hk hks => ?_⟩
    · rw [TokenSeq.kindAt_of_get? ht, hkind]
      rfl
    · rw [TokenSeq.kindAt_of_beq (h.lead k hks hk)]
      rfl
  have hmode : isModeline t = false := by
    rw [isModeline, hkind]
    rfl
  simp only [candidate?, hnext, TokenSeq.read_eq_ok_iff.mpr ht, bind, Except.bind, hmode]
  rfl

/-- The block ends where it should. -/
theorem blockEnd_eq : blockEnd s start = .ok last := by
  have hsize := h.lt_size
  have hlast := h.last_lt
  have hnext : s.nextNot [.docComment] start none = some (last + 1) := by
    refine TokenSeq.next_none_eq_some_iff.mpr
      ⟨h.start_le.trans (Nat.le_succ last), by omega, ?_, fun k hk hks => ?_⟩
    · -- whitespace, or the declaration at once
      obtain rfl | hlt := Nat.eq_or_lt_of_le (Nat.succ_le_of_lt hlast)
      · exact h.kindAt_declaration (by decide)
      · rw [TokenSeq.kindAt_of_beq (h.gap _ hlt (Nat.lt_succ_self last))]
        rfl
    · rw [TokenSeq.kindAt_of_beq (h.block k (Nat.lt_succ_iff.mp hks) hk)]
      rfl
  rw [blockEnd, hnext]
  exact minus_eq_ok_iff.mpr ⟨rfl, by omega⟩

/-- The tokens between the block and the declaration decide whom the block belongs to. -/
theorem belongsToDeclaration_eq :
    belongsToDeclaration s last =
      .ok (((s.tokens.toList.take j).drop (last + 1)).countP isLineEnd == 1) := by
  have hsize := h.lt_size
  obtain ⟨t, ht⟩ := TokenSeq.exists_get? hsize
  have hnext : s.nextOf [.kwAbstract, .kwClass, .kwFunction, .docComment] (last + 1) none =
      some j := by
    refine TokenSeq.next_none_eq_some_iff.mpr ⟨h.last_lt, hsize, ?_, fun k hk hkj => ?_⟩
    · exact h.kindAt_declaration (by decide)
    · rw [TokenSeq.kindAt_of_beq (h.gap k hkj hk)]
      rfl
  have hdoc : (t.kind == .docComment) = false := by
    have hkind := h.kindAt_declaration (p := (· != .docComment)) (by decide)
    rwa [TokenSeq.kindAt_of_get? ht, bne, Bool.not_eq_true'] at hkind
  obtain ⟨body, hbody, hmap⟩ := TokenSeq.exists_readRange (last + 1) hsize.le h.last_lt
  simp only [belongsToDeclaration, hnext, TokenSeq.read_eq_ok_iff.mpr ht, bind,
    Except.bind, hdoc, hbody]
  rw [← hmap, List.countP_map]
  rfl

/-- **What is reported hangs on the line ends behind the block.** -/
theorem check_eq (schema : DocSchema) {u : SourceUnit} (hu : u.tokens = s) :
    check schema u i =
      if ((s.tokens.toList.take j).drop (last + 1)).countP isLineEnd = 1 then .ok (missing u i)
      else schema.inspect id u start last := by
  subst hu
  obtain ⟨t, ht, hkind⟩ := h.exists_first
  simp only [check, h.hasEarlierTag_eq, h.candidate?_eq, TokenSeq.read_eq_ok_iff.mpr ht, hkind,
    h.blockEnd_eq, h.belongsToDeclaration_eq, bind, Except.bind, beq_iff_eq]
  rfl

end BlockAbove

/-! ### Lines -/

/-- The tokens between a block and a declaration are whitespace. -/
theorem BlockAbove.get?_of_between (h : BlockAbove s i start last j) {n : Nat} {t : Token}
    (ht : ((s.tokens.toList.take j).drop (last + 1))[n]? = some t) :
    s.get? (last + 1 + n) = some t ∧ t.kind = .whitespace := by
  rw [List.getElem?_drop, List.getElem?_take] at ht
  split at ht
  · next hlt =>
      rw [Array.getElem?_toList] at ht
      exact ⟨ht, h.kind_of_gap ht (by omega) hlt⟩
  · cases ht

/-- **These tokens are the lines of the text between the two.** -/
theorem BlockAbove.keepLines_between (h : BlockAbove (.ofSource source) i start last j) :
    Text.keepLines ((TokenSeq.ofSource source).textOf (last + 1) (j - 1)).toList =
      (((TokenSeq.ofSource source).tokens.toList.take j).drop (last + 1)).map (·.text.toList) := by
  have htext : ((TokenSeq.ofSource source).textOf (last + 1) (j - 1)).toList =
      ((((TokenSeq.ofSource source).tokens.toList.take j).drop (last + 1)).map
        (·.text.toList)).flatten := by
    have hj : j - 1 + 1 = j := Nat.sub_add_cancel (Nat.zero_lt_of_lt h.last_lt)
    rw [TokenSeq.textOf, hj, String.toList_join, List.flatMap_map, List.flatMap_def]
  have hmem : ∀ line ∈
      (((TokenSeq.ofSource source).tokens.toList.take j).drop (last + 1)).map (·.text.toList),
      (.whitespace, line) ∈ scan .markup source.toList := by
    intro line hline
    obtain ⟨t, ht, rfl⟩ := List.mem_map.mp hline
    obtain ⟨n, hn⟩ := List.mem_iff_getElem?.mp ht
    obtain ⟨hget, hkind⟩ := h.get?_of_between hn
    exact hkind ▸ TokenSeq.mem_scan_of_get? hget
  rw [htext]
  refine Text.keepLines_flatten (fun line hline => ne_nil_of_mem_scan (hmem line hline))
    (fun line hline => newline_notMem_dropLast_of_mem_scan (hmem line hline) rfl) ?_
  -- whitespace that more of it follows ends with a newline
  rw [List.isChain_map, List.isChain_iff_getElem]
  intro n hn
  obtain ⟨hget, hkind⟩ := h.get?_of_between (List.getElem?_eq_getElem (Nat.lt_of_succ_lt hn))
  obtain ⟨hget', hkind'⟩ := h.get?_of_between (List.getElem?_eq_getElem hn)
  exact (TokenSeq.adjoins_of_get? hget hget').whitespace hkind hkind'

/-- **The tokens that are line ends are the empty lines** of the text between a block and a
declaration. -/
theorem BlockAbove.countP_isLineEnd (h : BlockAbove (.ofSource source) i start last j) :
    (((TokenSeq.ofSource source).tokens.toList.take j).drop (last + 1)).countP isLineEnd =
      (endedLines ((TokenSeq.ofSource source).textOf (last + 1) (j - 1))).countP isBare := by
  set ends : List Char → Bool := fun line => line == ['\n'] || line == ['\r', '\n'] with hends
  -- only lines with a newline count, and they count as what is in front of it
  have hnot : ∀ line, '\n' ∉ line → ends line = false := by
    intro line hline
    rw [hends, Bool.or_eq_false_iff, beq_eq_false_iff_ne, beq_eq_false_iff_ne]
    constructor
    · rintro rfl
      exact hline (by decide)
    · rintro rfl
      exact hline (by decide)
  have hbare : ∀ line, ends (line ++ ['\n']) = isBare line := by
    intro line
    have hreturn : line ++ ['\n'] = ['\r', '\n'] ↔ line = ['\r'] :=
      show _ = ['\r'] ++ ['\n'] ↔ _ from List.append_left_inj _
    rw [Bool.eq_iff_iff, hends, isBare]
    simp [hreturn]
  calc
    _ = ((((TokenSeq.ofSource source).tokens.toList.take j).drop (last + 1)).map
        (·.text.toList)).countP ends := by
      rw [List.countP_map]
      refine List.countP_congr fun t ht => ?_
      obtain ⟨n, hn⟩ := List.mem_iff_getElem?.mp ht
      have hkind := (h.get?_of_between hn).2
      simp [isLineEnd, hkind, hends, ← String.toList_inj]
    _ = _ := by
      rw [← h.keepLines_between, Text.countP_keepLines hnot, endedLines]
      simp only [hbare]

/-- **Whose comment a block is**, in any source text. A block between the first opening tag and a
declaration, with whitespace around it, belongs to the declaration exactly if one line of the text
between them is empty. The file has no comment then, and this is the only error; otherwise the block
is checked as the comment of the file. If every line of that text is empty, the empty lines are as
many as its newlines. -/
theorem check_blockAbove (schema : DocSchema) (path source : String) (comments : CommentReader)
    (i start last j : Nat) (h : BlockAbove (.ofSource source) i start last j) :
    let u : SourceUnit := { path, tokens := .ofSource source, comments }
    let gap := u.tokens.textOf (last + 1) (j - 1)
    (check schema u i = if (endedLines gap).countP isBare = 1 then .ok (missing u i)
      else schema.inspect id u start last) ∧
    ((∀ line ∈ endedLines gap, isBare line = true) →
      check schema u i = if Text.newlines gap = 1 then .ok (missing u i)
        else schema.inspect id u start last) := by
  intro u gap
  have hcheck := h.check_eq schema (u := u) rfl
  rw [h.countP_isLineEnd] at hcheck
  refine ⟨hcheck, fun hbare => ?_⟩
  have hall : (endedLines gap).countP isBare = Text.newlines gap := by
    rw [List.countP_eq_length.mpr hbare, endedLines, Text.length_dropLast_splitLines, Text.newlines]
  rw [← hall]
  exact hcheck

/-- A block and a class on the next line. -/
def adjacentBlock : String := "<?php\n/** A. */\r\n    class A"

/-- A block, a line with a space on it, and a class. -/
def spacedBlock : String := "<?php\n/** A. */\n \nclass A"

/-- A block with a space behind it, and a class on the next line. -/
def trailedBlock : String := "<?php\n/** A. */ \nclass A"

/-- The block in front of the class belongs to it, and the file has no comment. -/
theorem check_blockAbove_adjacentBlock :
    BlockAbove (.ofSource adjacentBlock) 0 1 1 4 ∧
      Text.newlines ((TokenSeq.ofSource adjacentBlock).textOf 2 3) = 1 ∧
      check .file (.ofText adjacentBlock) 0 = .ok (missing (.ofText adjacentBlock) 0) := by
  have habove : BlockAbove (.ofSource adjacentBlock) 0 1 1 4 := by decide +kernel
  have hgap : (TokenSeq.ofSource adjacentBlock).textOf 2 3 = "\r\n    " := by decide +kernel
  have hcheck := (check_blockAbove .file "Foo.php" adjacentBlock (fun _ => .ok {}) 0 1 1 4 habove).2
  rw [hgap] at hcheck
  refine ⟨habove, by rw [hgap]; decide, (hcheck (by decide)).trans (if_pos (by decide))⟩

/-- **Newlines are not what is counted.** There are two of them behind the block with the line that
is not empty, and it belongs to the class; there is one behind the block with the space, and it is
checked as the comment of the file. -/
theorem check_spacedBlock :
    (BlockAbove (.ofSource spacedBlock) 0 1 1 4 ∧
      Text.newlines ((TokenSeq.ofSource spacedBlock).textOf 2 3) = 2 ∧
      check .file (.ofText spacedBlock) 0 = .ok (missing (.ofText spacedBlock) 0)) ∧
    BlockAbove (.ofSource trailedBlock) 0 1 1 3 ∧
      Text.newlines ((TokenSeq.ofSource trailedBlock).textOf 2 2) = 1 ∧
      check .file (.ofText trailedBlock) 0 ≠ .ok (missing (.ofText trailedBlock) 0) := by
  decide +kernel

end FileComment

end PhpStyle
