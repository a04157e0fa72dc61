import Mathlib.Data.List.Chain
import Mathlib.Data.List.DropRight
import Mathlib.Data.List.Infix
import PhpStyle.Text.Blank

/-!
# Texts line by line

A text is a last line without a newline, or a line, a newline and a text (`Text.lineInduction`).
Both ways of cutting a text into lines follow this: `splitLines` drops the newlines, and `keepLines`
keeps them and leaves out an empty last line. So each of them has one equation for a last line and
one for a line with a newline, and what they have to do with each other is proved along the lines,
with these four equations and without looking at characters.

What is needed of the two cuts elsewhere is of three kinds.

* A line of a part of a text is found in the lines of the text (`Text.infix_splitLines`), and under
  the same number in both cuts (`Text.exists_keepLines`). The last line is the exception to watch:
  it is kept only if something is on it.
* Newlines and lines count each other: all kept lines but the last one hold one newline
  (`Text.count_take_keepLines`), and there are as many lines that a newline ends as newlines.
* Texts that end with their only newline, the last one apart, are the kept lines of the text that
  they make (`Text.keepLines_flatten`), so there is no other way to cut it so.

What stands behind the last newline is `Text.lastLine`. At the end of the module are texts that
differ at an end, by which messages are told apart.
-/

namespace PhpStyle.Text

variable {cs l lead tail line : List Char} {n : Nat}

/-- The cut at the end of a text is that of lists. -/
theorem dropEndWhile_eq_rdropWhile (p : Char → Bool) (cs : List Char) :
    dropEndWhile p cs = cs.rdropWhile p :=
  rfl

/-- Cutting at the end leaves a start. -/
theorem isPrefix_dropEndWhile (p : Char → Bool) (cs : List Char) : dropEndWhile p cs <+: cs := by
  rw [dropEndWhile_eq_rdropWhile]
  exact List.rdropWhile_prefix p cs

/-- A trimmed text is a part of the text. -/
theorem isInfix_trim (cs : List Char) : trim cs <:+: cs :=
  (isPrefix_dropEndWhile isBlank (trimStart cs)).isInfix.trans (List.dropWhile_suffix _).isInfix

/-- **Induction along the lines of a text.** -/
@[elab_as_elim] theorem lineInduction {motive : List Char → Prop} (last : ∀ l, '\n' ∉ l → motive l)
    (cons : ∀ l cs, '\n' ∉ l → motive cs → motive (l ++ '\n' :: cs)) (cs : List Char) :
    motive cs := by
  -- the start of the current line is carried along
  have hlead : ∀ lead, '\n' ∉ lead → motive (lead ++ cs) := by
    induction cs with
    | nil =>
        intro lead hlead
        simpa using last lead hlead
    | cons c cs ih =>
        intro lead hlead
        by_cases hc : c = '\n'
        · subst hc
          exact cons lead cs hlead (by simpa using ih [] (by simp))
        · rw [← List.singleton_append, ← List.append_assoc]
          apply ih
          simp [hlead, Ne.symm hc]
  simpa using hlead [] (by simp)

/-! ### The two cuts -/

/-- A last line is cut into itself. -/
theorem splitLines_of_notMem (h : '\n' ∉ l) : splitLines l = [l] := by
  unfold splitLines
  induction l with
  | nil => rfl
  | cons c l ih =>
      simp only [List.mem_cons, not_or] at h
      rw [pieces, if_neg (Ne.symm h.1), ih h.2]

/-- A line and its newline are cut off. -/
theorem splitLines_append_newline (h : '\n' ∉ l) (cs : List Char) :
    splitLines (l ++ '\n' :: cs) = l :: splitLines cs := by
  unfold splitLines
  induction l with
  | nil => simp [pieces]
  | cons c l ih =>
      simp only [List.mem_cons, not_or] at h
      rw [List.cons_append, pieces, if_neg (Ne.symm h.1), ih h.2]

/-- An empty last line is not kept. -/
theorem keepLines_of_notMem (h : '\n' ∉ l) : keepLines l = if l = [] then [] else [l] := by
  induction l with
  | nil => rfl
  | cons c l ih =>
      simp only [List.mem_cons, not_or] at h
      rw [keepLines, if_neg (Ne.symm h.1), ih h.2]
      by_cases hl : l = []
      · simp [hl]
      · simp [hl]

/-- A line is cut off with its newline. -/
theorem keepLines_append_newline (h : '\n' ∉ l) (cs : List Char) :
    keepLines (l ++ '\n' :: cs) = (l ++ ['\n']) :: keepLines cs := by
  induction l with
  | nil => simp [keepLines]
  | cons c l ih =>
      simp only [List.mem_cons, not_or] at h
      rw [List.cons_append, keepLines, if_neg (Ne.symm h.1), ih h.2]
      rfl

/-- What a text starts with, its first line starts with. -/
theorem exists_keepLines_eq_cons (hlead : '\n' ∉ lead) (hne : lead ≠ []) (h : lead <+: cs) :
    ∃ l ls, keepLines cs = l :: ls ∧ lead <+: l := by
  obtain ⟨rest, rfl⟩ := h
  induction rest using lineInduction with
  | last l hl =>
      refine ⟨lead ++ l, [], ?_, List.prefix_append lead l⟩
      rw [keepLines_of_notMem (by simp [hlead, hl]), if_neg (by simp [hne])]
  | cons l rest hl _ =>
      refine ⟨lead ++ l ++ ['\n'], keepLines rest, ?_, ?_⟩
      · rw [← List.append_assoc]
        exact keepLines_append_newline (by simp [hlead, hl]) rest
      · rw [List.append_assoc]
        exact List.prefix_append lead _

/-- There is always a line. -/
theorem exists_splitLines_eq_cons (cs : List Char) : ∃ l ls, splitLines cs = l :: ls := by
  induction cs using lineInduction with
  | last l hl => exact ⟨l, [], splitLines_of_notMem hl⟩
  | cons l cs hl _ => exact ⟨l, splitLines cs, splitLines_append_newline hl cs⟩

/-- The newlines are not part of the lines. -/
theorem newline_notMem_of_mem_splitLines (h : l ∈ splitLines cs) : '\n' ∉ l := by
  induction cs using lineInduction with
  | last l₀ hl₀ =>
      rw [splitLines_of_notMem hl₀, List.mem_singleton] at h
      rwa [h]
  | cons l₀ cs hl₀ ih =>
      rw [splitLines_append_newline hl₀, List.mem_cons] at h
      rcases h with rfl | h
      · exact hl₀
      · exact ih h

/-- Lines that are put together with newlines are cut apart again. -/
theorem splitLines_intercalate {ls : List (List Char)} (hne : ls ≠ []) (h : ∀ l ∈ ls, '\n' ∉ l) :
    splitLines (['\n'].intercalate ls) = ls := by
  induction ls with
  | nil => exact absurd rfl hne
  | cons l ls ih =>
      rw [List.forall_mem_cons] at h
      rcases ls with _ | ⟨l', ls⟩
      · rw [List.intercalate_singleton, splitLines_of_notMem h.1]
      · rw [List.intercalate_cons_cons, List.append_assoc, List.singleton_append,
          splitLines_append_newline h.1, ih (List.cons_ne_nil l' ls) h.2]

/-- What is put in front of a text belongs to its first line. -/
theorem splitLines_append {ls : List (List Char)} (hlead : '\n' ∉ lead)
    (h : splitLines cs = l :: ls) : splitLines (lead ++ cs) = (lead ++ l) :: ls := by
  induction cs using lineInduction with
  | last l₀ hl₀ =>
      rw [splitLines_of_notMem hl₀, List.cons.injEq] at h
      obtain ⟨rfl, rfl⟩ := h
      exact splitLines_of_notMem (by simp [hlead, hl₀])
  | cons l₀ cs hl₀ _ =>
      rw [splitLines_append_newline hl₀, List.cons.injEq] at h
      obtain ⟨rfl, rfl⟩ := h
      rw [← List.append_assoc]
      exact splitLines_append_newline (by simp [hlead, hl₀]) cs

/-- The lines of a text go on in a longer text. -/
theorem prefix_splitLines (h : (splitLines cs)[n]? = some l) (tail : List Char) :
    ∃ l', (splitLines (cs ++ tail))[n]? = some l' ∧ l <+: l' := by
  induction cs using lineInduction generalizing n with
  | last l₀ hl₀ =>
      rw [splitLines_of_notMem hl₀, List.getElem?_singleton] at h
      -- the last line goes on in what follows, the ones before it do not change
      split at h
      · next hn =>
          obtain ⟨l₁, ls, hlines⟩ := exists_splitLines_eq_cons tail
          refine ⟨l₀ ++ l₁, by rw [splitLines_append hl₀ hlines, hn]; rfl, ?_⟩
          rw [← Option.some.inj h]
          exact List.prefix_append l₀ l₁
      · cases h
  | cons l₀ cs hl₀ ih =>
      rw [splitLines_append_newline hl₀] at h
      rw [List.append_assoc, List.cons_append, splitLines_append_newline hl₀]
      cases n with
      | zero => exact ⟨l₀, rfl, by rw [← Option.some.inj h]⟩
      | succ n => exact ih h

/-- **The lines of a part of a text** are parts of the lines of the text, if the part
starts on its first line. -/
theorem infix_splitLines (hlead : '\n' ∉ lead) (h : (splitLines cs)[n]? = some l)
    (tail : List Char) : ∃ l', (splitLines (lead ++ cs ++ tail))[n]? = some l' ∧ l <:+: l' := by
  obtain ⟨l', hl', hprefix⟩ := prefix_splitLines h tail
  obtain ⟨l₀, ls, hlines⟩ := exists_splitLines_eq_cons (cs ++ tail)
  rw [List.append_assoc, splitLines_append hlead hlines]
  rw [hlines] at hl'
  cases n with
  | zero =>
      rw [← Option.some.inj hl'] at hprefix
      exact ⟨lead ++ l₀, rfl, hprefix.isInfix.trans (List.suffix_append lead l₀).isInfix⟩
  | succ n => exact ⟨l', hl', hprefix.isInfix⟩

/-! ### Kept lines -/

/-- **A line that says something** is kept under its number. -/
theorem exists_keepLines (h : (splitLines cs)[n]? = some l) (hl : l ≠ []) :
    ∃ line, (keepLines cs)[n]? = some line ∧ l <+: line := by
  induction cs using lineInduction generalizing n with
  | last l₀ hl₀ =>
      rw [splitLines_of_notMem hl₀, List.getElem?_singleton] at h
      split at h
      · next hn =>
          cases h
          exact ⟨l, by rw [keepLines_of_notMem hl₀, if_neg hl, hn]; rfl, List.prefix_rfl⟩
      · cases h
  | cons l₀ cs hl₀ ih =>
      rw [splitLines_append_newline hl₀] at h
      rw [keepLines_append_newline hl₀]
      cases n with
      | zero =>
          cases h
          exact ⟨l ++ ['\n'], rfl, List.prefix_append l _⟩
      | succ n => exact ih h

/-- A kept line that is not the last one ends with its only newline. -/
theorem exists_of_succ_lt_keepLines (h : (keepLines cs)[n]? = some line)
    (hn : n + 1 < (keepLines cs).length) : ∃ l, '\n' ∉ l ∧ line = l ++ ['\n'] := by
  induction cs using lineInduction generalizing n with
  | last l₀ hl₀ =>
      rw [keepLines_of_notMem hl₀] at hn
      split at hn <;> simp at hn
  | cons l₀ cs hl₀ ih =>
      rw [keepLines_append_newline hl₀] at h hn
      cases n with
      | zero => exact ⟨l₀, hl₀, (Option.some.inj h).symm⟩
      | succ n => exact ih h (by simpa using hn)

/-- **The kept lines before a kept line** hold as many newlines as there are of them. -/
theorem count_take_keepLines (hn : n < (keepLines cs).length) :
    ((keepLines cs).take n).flatten.count '\n' = n := by
  induction cs using lineInduction generalizing n with
  | last l₀ hl₀ =>
      rw [keepLines_of_notMem hl₀] at hn
      have hzero : n = 0 := by split at hn <;> simp at hn; assumption
      simp [hzero]
  | cons l₀ cs hl₀ ih =>
      rw [keepLines_append_newline hl₀] at hn ⊢
      cases n with
      | zero => simp
      | succ n =>
          have hrest := ih (by simpa using hn)
          simp [List.count_eq_zero_of_not_mem hl₀, hrest]

/-- Both cuts have the same number of lines if the last line is not empty. -/
theorem length_keepLines_append (htail : '\n' ∉ tail) (hne : tail ≠ []) (cs : List Char) :
    (keepLines (cs ++ tail)).length = (splitLines (cs ++ tail)).length := by
  induction cs using lineInduction with
  | last l₀ hl₀ =>
      have hnot : '\n' ∉ l₀ ++ tail := by simp [hl₀, htail]
      rw [keepLines_of_notMem hnot, splitLines_of_notMem hnot, if_neg (by simp [hne])]
  | cons l₀ cs hl₀ ih =>
      rw [List.append_assoc, List.cons_append, keepLines_append_newline hl₀,
        splitLines_append_newline hl₀, List.length_cons, List.length_cons, ih]

/-- The last kept line ends as the text does. -/
theorem exists_getLast?_keepLines (htail : '\n' ∉ tail) (hne : tail ≠ []) (cs : List Char) :
    ∃ line, (keepLines (cs ++ tail)).getLast? = some line ∧ tail <:+ line := by
  induction cs using lineInduction with
  | last l₀ hl₀ =>
      have hnot : '\n' ∉ l₀ ++ tail := by simp [hl₀, htail]
      rw [keepLines_of_notMem hnot, if_neg (by simp [hne])]
      exact ⟨l₀ ++ tail, rfl, List.suffix_append l₀ tail⟩
  | cons l₀ cs hl₀ ih =>
      obtain ⟨line, hline, hsuffix⟩ := ih
      rw [List.append_assoc, List.cons_append, keepLines_append_newline hl₀]
      refine ⟨line, ?_, hsuffix⟩
      rw [List.getLast?_cons, hline]
      rfl

/-- A kept line holds a newline at its end only. -/
theorem newline_notMem_dropLast_of_mem_keepLines (h : line ∈ keepLines cs) :
    '\n' ∉ line.dropLast := by
  induction cs using lineInduction with
  | last l₀ hl₀ =>
      rw [keepLines_of_notMem hl₀] at h
      split at h
      · cases h
      · rw [List.mem_singleton.mp h]
        exact fun hmem => hl₀ (List.mem_of_mem_dropLast hmem)
  | cons l₀ cs hl₀ ih =>
      rw [keepLines_append_newline hl₀] at h
      rcases List.mem_cons.mp h with rfl | h
      · rwa [List.dropLast_concat]
      · exact ih h

/-- A kept line in front of another one ends with a newline. -/
theorem isChain_keepLines (cs : List Char) :
    (keepLines cs).IsChain fun l _ => l.getLast? = some '\n' := by
  rw [List.isChain_iff_getElem]
  intro n hn
  obtain ⟨l, -, hl⟩ :=
    exists_of_succ_lt_keepLines (List.getElem?_eq_getElem (Nat.lt_of_succ_lt hn)) hn
  rw [hl, List.getLast?_concat]

/-- **Lines that are put together are kept apart**, if each of them holds a newline at its end only,
and does so unless it is the last one. -/
theorem keepLines_flatten {ls : List (List Char)} (hne : ∀ l ∈ ls, l ≠ [])
    (hline : ∀ l ∈ ls, '\n' ∉ l.dropLast) (hchain : ls.IsChain fun l _ => l.getLast? = some '\n') :
    keepLines ls.flatten = ls := by
  induction ls with
  | nil => rfl
  | cons l ls ih =>
      rw [List.forall_mem_cons] at hne hline
      rw [List.isChain_cons] at hchain
      have hrest := ih hne.2 hline.2 hchain.2
      by_cases hlast : l.getLast? = some '\n'
      · obtain ⟨lead, rfl⟩ := List.getLast?_eq_some_iff.mp hlast
        rw [List.dropLast_concat] at hline
        rw [List.flatten_cons, List.append_assoc, List.singleton_append,
          keepLines_append_newline hline.1, hrest]
      · -- nothing follows a line without a newline
        have hnil : ls = [] := by
          rcases ls with _ | ⟨l', ls⟩
          · rfl
          · exact absurd (hchain.1 l' rfl) hlast
        have hnot : '\n' ∉ l := by
          intro hmem
          rw [← List.dropLast_append_getLast hne.1] at hmem
          rcases List.mem_append.mp hmem with hmem | hmem
          · exact hline.1 hmem
          · rw [List.getLast?_eq_some_getLast hne.1, ← List.mem_singleton.mp hmem] at hlast
            exact hlast rfl
        rw [hnil, List.flatten_singleton, keepLines_of_notMem hnot, if_neg hne.1]

/-! ### Lines that a newline ends -/

/-- The last line is the only one that no newline ends. -/
theorem dropLast_splitLines_append_newline (h : '\n' ∉ l) (cs : List Char) :
    (splitLines (l ++ '\n' :: cs)).dropLast = l :: (splitLines cs).dropLast := by
  obtain ⟨l', ls, hlines⟩ := exists_splitLines_eq_cons cs
  rw [splitLines_append_newline h, hlines, List.dropLast_cons_of_ne_nil (List.cons_ne_nil l' ls)]

/-- There are as many of these lines as newlines. -/
theorem length_dropLast_splitLines (cs : List Char) :
    (splitLines cs).dropLast.length = cs.count '\n' := by
  induction cs using lineInduction with
  | last l hl => simp [splitLines_of_notMem hl, List.count_eq_zero_of_not_mem hl]
  | cons l cs hl ih =>
      rw [dropLast_splitLines_append_newline hl, List.length_cons, ih, List.count_append,
        List.count_cons_self, List.count_eq_zero_of_not_mem hl, Nat.zero_add]

/-- These lines with their newlines are the kept lines that end with one. So is counted what holds
of no line without a newline. -/
theorem countP_keepLines {p : List Char → Bool} (hp : ∀ l, '\n' ∉ l → p l = false)
    (cs : List Char) :
    (keepLines cs).countP p = (splitLines cs).dropLast.countP fun l => p (l ++ ['\n']) := by
  induction cs using lineInduction with
  | last l hl =>
      rw [splitLines_of_notMem hl, keepLines_of_notMem hl]
      by_cases hnil : l = []
      · simp [hnil]
      · simp [hnil, hp l hl]
  | cons l cs hl ih =>
      rw [dropLast_splitLines_append_newline hl, keepLines_append_newline hl, List.countP_cons,
        List.countP_cons, ih]

/-! ### The last line -/

/-- What stands behind the last newline of a text. -/
def lastLine (cs : List Char) : List Char := cs.rtakeWhile (· != '\n')

/-- There is nothing behind a newline at the end. -/
theorem lastLine_eq_nil (h : cs.getLast? = some '\n') : lastLine cs = [] := by
  obtain ⟨lead, rfl⟩ := List.getLast?_eq_some_iff.mp h
  exact List.rtakeWhile_concat_neg _ _ _ (by decide)

/-- A text without a newline belongs to the last line. -/
theorem lastLine_append (h : '\n' ∉ tail) (cs : List Char) :
    lastLine (cs ++ tail) = lastLine cs ++ tail := by
  induction tail using List.reverseRecOn with
  | nil => simp
  | append_singleton tail c ih =>
      rw [List.mem_append, not_or, List.mem_singleton] at h
      unfold lastLine at ih ⊢
      rw [← List.append_assoc, List.rtakeWhile_concat_pos _ _ _ (by simpa using Ne.symm h.2),
        ih h.1, List.append_assoc]

end PhpStyle.Text

namespace PhpStyle

/-! ### Beginnings and ends -/

/-- A text with an ending differs from one with another last letter. -/
theorem append_ne_of_getLast? {s t u : String} {c : Char} (ht : t.toList.getLast? = some c)
    (hu : u.toList.getLast? ≠ some c) : s ++ t ≠ u := by
  rintro rfl
  apply hu
  rw [String.toList_append, List.getLast?_append, ht, Option.some_or]

/-- A text with a beginning differs from one with another first letter. -/
theorem append_ne_of_head? {s t u : String} {c : Char} (hs : s.toList.head? = some c)
    (hu : u.toList.head? ≠ some c) : s ++ t ≠ u := by
  rintro rfl
  apply hu
  rw [String.toList_append, List.head?_append, hs, Option.some_or]

/-- Texts differ if neither of their beginnings goes on with the other. -/
theorem append_ne_of_beginnings {s t u v : String} (h : ¬ s.toList <+: u.toList)
    (h' : ¬ u.toList <+: s.toList) : s ++ t ≠ u ++ v := by
  intro heq
  have hs : s.toList <+: (u ++ v).toList := by simp [← heq]
  have hu : u.toList <+: (u ++ v).toList := by simp
  exact (List.prefix_or_prefix_of_prefix hs hu).elim h h'

end PhpStyle
