import Mathlib.Data.List.Basic
import PhpStyle.Doc.Reader

/-!
# The paragraphs of a description

Description lines that are not all blank have a short description between them, and perhaps a long
one. `Paragraphs` says which lines belong to which of them, and how many blank lines stand around
them; that two paragraphs do not touch, and start and end with lines that say something, is part of
the type.

Such lines are taken apart by cutting off one run of blank or filled lines after the other, and a
run ends where the next line is of the other sort (`takeWhile_append_stop`,
`dropWhile_append_stop`). In the lines of `Paragraphs` every run is followed by one of the other
sort, which is what `head_short` and `head_between` say, so each cut gives the part that was put in
(`Paragraphs.describe_lines`). The last cut is made from the end, for blank lines in the long
description belong to it and those behind it do not.

The other way round, `exists_paragraphs` takes any lines that are not all blank apart into four runs
(`exists_run`, the last one again from the end) and shows that the runs have the properties that the
type asks for. There is a short description, or else all lines would be blank. There are blank lines
in front of a long one, for a filled line right behind the short description would belong to it.
-/

namespace PhpStyle

/-! ### Runs at the start of a list -/

section Runs

variable {α : Type} {p : α → Bool} {xs ys : List α}

/-- A run ends where the next element does not belong to it. -/
theorem takeWhile_append_stop (hxs : ∀ a ∈ xs, p a = true) (hys : ∀ a ∈ ys.head?, p a = false) :
    (xs ++ ys).takeWhile p = xs := by
  rw [List.takeWhile_append_of_pos hxs]
  rcases ys with _ | ⟨y, ys⟩
  · simp
  · simp [hys y rfl]

/-- What is behind a run. -/
theorem dropWhile_append_stop (hxs : ∀ a ∈ xs, p a = true) (hys : ∀ a ∈ ys.head?, p a = false) :
    (xs ++ ys).dropWhile p = ys := by
  rw [List.dropWhile_append_of_pos hxs]
  rcases ys with _ | ⟨y, ys⟩
  · rfl
  · simp [hys y rfl]

/-- A list that can start neither way is empty. -/
theorem eq_nil_of_head (hout : ∀ a ∈ ys.head?, p a = false) (hin : ∀ a ∈ ys.head?, p a = true) :
    ys = [] := by
  rcases ys with _ | ⟨y, ys⟩
  · rfl
  · have hy := hout y rfl
    rw [hin y rfl] at hy
    cases hy

/-- Every list starts with a run. -/
theorem exists_run (p : α → Bool) (l : List α) :
    ∃ xs ys, l = xs ++ ys ∧ (∀ a ∈ xs, p a = true) ∧ ∀ a ∈ ys.head?, p a = false := by
  induction l with
  | nil => exact ⟨[], [], rfl, by simp, by simp⟩
  | cons a l ih =>
      cases ha : p a with
      | false => exact ⟨[], a :: l, rfl, by simp, by simp [ha]⟩
      | true =>
          obtain ⟨xs, ys, rfl, hxs, hys⟩ := ih
          exact ⟨a :: xs, ys, rfl, by simpa [ha] using hxs, hys⟩

end Runs

/-- Blank lines are blank. -/
theorem isEmpty_of_mem_replicate (n : Nat) :
    ∀ l ∈ List.replicate n ([] : List Char), l.isEmpty = true := by
  simp

/-- Lines that are all blank are known by their number. -/
theorem eq_replicate_of_isEmpty {lines : List (List Char)} (h : ∀ l ∈ lines, l.isEmpty = true) :
    lines = List.replicate lines.length [] := by
  apply List.eq_replicate_of_mem
  intro l hl
  exact List.isEmpty_iff.mp (h l hl)

/-! ### Paragraphs -/

/-- What the lines of a description say. -/
structure Paragraphs where
  /-- The blank lines in front of the short description. -/
  leading : Nat
  /-- The lines of the short description. -/
  short : List (List Char)
  /-- The blank lines in front of the long description. -/
  between : Nat
  /-- The lines of the long description. -/
  long : List (List Char)
  /-- The blank lines at the end. -/
  trailing : Nat
  /-- There is a short description. -/
  short_ne_nil : short ≠ []
  /-- No line of the short description is blank. -/
  short_filled : ∀ l ∈ short, l.isEmpty = false
  /-- The long description starts with a line that says something. -/
  long_first : ∀ l ∈ long.head?, l.isEmpty = false
  /-- It ends with one, too. -/
  long_last : ∀ l ∈ long.getLast?, l.isEmpty = false
  /-- Blank lines stand between two descriptions, and only there. -/
  between_eq_zero_iff : between = 0 ↔ long = []

namespace Paragraphs

/-- All lines, in order. -/
def lines (p : Paragraphs) : List (List Char) :=
  List.replicate p.leading [] ++
    (p.short ++ (List.replicate p.between [] ++ (p.long ++ List.replicate p.trailing [])))

/-- The number of lines up to the last one that says something. -/
def extent (p : Paragraphs) : Nat := p.leading + p.short.length + p.between + p.long.length

/-- The block that they spell. -/
def block (p : Paragraphs) : DocBlock where
  short := String.ofList (List.replicate p.leading '\n') ++ joinLines p.short
  long := joinLines p.long
  newlinesBetween := if p.long.isEmpty then 0 else p.between + 1
  newlinesBeforeTags := p.trailing + 1

variable (p : Paragraphs)

/-- The short description is found behind the leading blank lines. -/
theorem head_short (rest : List (List Char)) :
    ∀ l ∈ (p.short ++ rest).head?, l.isEmpty = false := by
  intro l hl
  rw [List.head?_append_of_ne_nil _ p.short_ne_nil] at hl
  exact p.short_filled l (List.mem_of_mem_head? hl)

/-- It ends at a blank line. -/
theorem head_between :
    ∀ l ∈ (List.replicate p.between [] ++ (p.long ++ List.replicate p.trailing [])).head?,
      (!l.isEmpty) = false := by
  by_cases hlong : p.long = []
  · simp [p.between_eq_zero_iff.mpr hlong, hlong, List.head?_replicate]
  · have hbetween := mt p.between_eq_zero_iff.mp hlong
    simp [List.head?_append, List.head?_replicate, hbetween]

/-- The blank lines behind the long description are cut. -/
theorem reverse_dropWhile_long :
    ((p.long ++ List.replicate p.trailing []).reverse.dropWhile fun l : List Char =>
      l.isEmpty).reverse = p.long := by
  have hlast : ∀ l ∈ p.long.reverse.head?, l.isEmpty = false := by
    rw [List.head?_reverse]
    exact p.long_last
  rw [List.reverse_append, List.reverse_replicate,
    dropWhile_append_stop (isEmpty_of_mem_replicate _) hlast, List.reverse_reverse]

/-- **The lines give the descriptions**, and the numbers of newlines around them. -/
theorem describe_lines : describe p.lines = p.block := by
  have hshort : ∀ l ∈ p.short, (!l.isEmpty) = true := by simpa using p.short_filled
  unfold describe lines
  -- the leading blank lines and the short description end where a line of the other sort follows
  simp only [takeWhile_append_stop (isEmpty_of_mem_replicate _) (p.head_short _),
    dropWhile_append_stop (isEmpty_of_mem_replicate _) (p.head_short _),
    takeWhile_append_stop hshort p.head_between, dropWhile_append_stop hshort p.head_between]
  by_cases hlong : p.long = []
  · simp [hlong, p.between_eq_zero_iff.mpr hlong, p.short_ne_nil, block, joinLines]
  · have hhead : ∀ l ∈ (p.long ++ List.replicate p.trailing []).head?, l.isEmpty = false := by
      rw [List.head?_append_of_ne_nil _ hlong]
      exact p.long_first
    simp only [takeWhile_append_stop (isEmpty_of_mem_replicate _) hhead,
      dropWhile_append_stop (isEmpty_of_mem_replicate _) hhead, p.reverse_dropWhile_long]
    simp [hlong, block]

/-- **The last line that says something** stands in front of the trailing blank lines. -/
theorem exists_last : ∃ front l, p.lines = front ++ l :: List.replicate p.trailing [] ∧ l ≠ [] ∧
    front.length + 1 = p.extent := by
  by_cases hlong : p.long = []
  · -- without a long description it is the last line of the short one
    obtain ⟨front, l, hshort⟩ := (List.eq_nil_or_concat' p.short).resolve_left p.short_ne_nil
    have hl : l.isEmpty = false := p.short_filled l (by simp [hshort])
    refine ⟨List.replicate p.leading [] ++ front, l, ?_, by simpa using hl, ?_⟩
    · simp [lines, hshort, hlong, p.between_eq_zero_iff.mpr hlong]
    · simp [extent, hshort, hlong, p.between_eq_zero_iff.mpr hlong]
      omega
  · obtain ⟨front, l, hfront⟩ := (List.eq_nil_or_concat' p.long).resolve_left hlong
    have hl : l.isEmpty = false := p.long_last l (by simp [hfront])
    refine ⟨List.replicate p.leading [] ++ (p.short ++ (List.replicate p.between [] ++ front)), l,
      ?_, by simpa using hl, ?_⟩
    · simp [lines, hfront]
    · simp [extent, hfront]
      omega

end Paragraphs

/-- **Lines that are not all blank are paragraphs.** -/
theorem exists_paragraphs {lines : List (List Char)} (h : ∃ l ∈ lines, l ≠ []) :
    ∃ p : Paragraphs, lines = p.lines := by
  -- four runs, of which the last one is cut off from the end
  obtain ⟨leading, text, rfl, hleading, htext⟩ := exists_run (·.isEmpty) lines
  obtain ⟨short, rest, rfl, hshort, hrest⟩ := exists_run (!·.isEmpty) text
  obtain ⟨between, rest, rfl, hbetween, hlong⟩ := exists_run (·.isEmpty) rest
  obtain ⟨trailing, long, hreverse, htrailing, hlast⟩ := exists_run (·.isEmpty) rest.reverse
  obtain rfl : rest = long.reverse ++ trailing.reverse := by
    rw [← List.reverse_append, ← hreverse, List.reverse_reverse]
  -- otherwise all lines would be blank
  have hshort_ne : short ≠ [] := by
    rintro rfl
    have hnil := eq_nil_of_head htext (by simpa using hrest)
    obtain ⟨l, hl, hne⟩ := h
    rw [hnil, List.append_nil] at hl
    exact hne (List.isEmpty_iff.mp (hleading l hl))
  by_cases hlong_nil : long = []
  · -- what follows the short description is blank
    subst hlong_nil
    have hnil : trailing.reverse = [] := by
      apply eq_nil_of_head (p := (·.isEmpty)) (by simpa using hlong)
      intro l hl
      exact htrailing l (List.mem_reverse.mp (List.mem_of_mem_head? hl))
    refine ⟨⟨leading.length, short, 0, [], between.length, hshort_ne, by simpa using hshort, by
      simp, by simp, by simp⟩, ?_⟩
    simp only [Paragraphs.lines]
    rw [hnil, ← eq_replicate_of_isEmpty hleading, ← eq_replicate_of_isEmpty hbetween]
    simp
  · have hfirst : ∀ l ∈ long.reverse.head?, l.isEmpty = false := by
      rwa [List.head?_append_of_ne_nil _ (by simpa using hlong_nil)] at hlong
    -- otherwise the short description would go on
    have hbetween_ne : between ≠ [] := by
      rintro rfl
      rw [List.nil_append, List.head?_append_of_ne_nil _ (by simpa using hlong_nil)] at hrest
      exact hlong_nil (List.reverse_eq_nil_iff.mp (eq_nil_of_head hfirst (by simpa using hrest)))
    have hblank : trailing.reverse = List.replicate trailing.length [] := by
      conv_lhs => rw [eq_replicate_of_isEmpty htrailing, List.reverse_replicate]
    refine ⟨⟨leading.length, short, between.length, long.reverse, trailing.length, hshort_ne,
      by simpa using hshort, hfirst, by simpa using hlast, by simp [hbetween_ne, hlong_nil]⟩, ?_⟩
    simp only [Paragraphs.lines]
    rw [← eq_replicate_of_isEmpty hleading, ← eq_replicate_of_isEmpty hbetween, hblank]

end PhpStyle
