import PhpStyle.Proofs.Lexing
import PhpStyle.Proofs.Text.Lines

/-!
# Places and the texts in front of them

A builder moves its place character by character, over one text after the other. What comes out
depends on the characters in front of a token alone: the line counts the newlines among them, the
column the characters behind the last newline, and the offset the bytes. Where one text ends and the
next begins leaves no trace (`Builder.positions_pushAll`).

That a token stands where reading the text in front of it ends is known of every builder
(`Builder.toPosition_eq`). So what is to be shown is about one text (`textBefore`). Lines and bytes
are sums over its characters. A column is none, since a newline sets it back: it is found by
induction from the end of the text, where one more character starts a line or belongs to the last
one (`Position.column_next`, `Position.column_after`).

Finishing adds links, and whatever does not depend on links is kept by it (`Builder.map_finish`).
-/

namespace PhpStyle

variable {pairs : List (Kind × String)} {i : Nat} {t : Token}

/-! ### Texts in front of a token -/

/-- The texts of the first `i` pairs, put together. -/
def textBefore (pairs : List (Kind × String)) (i : Nat) : String :=
  String.join ((pairs.take i).map (·.2))

/-- The bytes of texts that are put together are the bytes of all of them. -/
theorem utf8ByteSize_join (texts : List String) :
    (String.join texts).utf8ByteSize = (texts.map String.utf8ByteSize).sum := by
  induction texts with
  | nil => rfl
  | cons text texts ih => rw [String.join_cons, String.utf8ByteSize_append, ih, List.map_cons,
      List.sum_cons]

/-- The bytes in front of a token. -/
theorem utf8ByteSize_textBefore (pairs : List (Kind × String)) (i : Nat) :
    (textBefore pairs i).utf8ByteSize =
      ((pairs.take i).map fun pair => pair.2.utf8ByteSize).sum := by
  rw [textBefore, utf8ByteSize_join, List.map_map]
  rfl

/-! ### Columns -/

namespace Position

/-- One character more: a newline starts a line, and any other character belongs to the last one. -/
theorem column_next (p : Position) (cs : List Char) (c : Char)
    (h : p.column = 1 + (Text.lastLine cs).length) :
    (p.next c).column = 1 + (Text.lastLine (cs ++ [c])).length := by
  by_cases hc : c = '\n'
  · have hlast : (cs ++ [c]).getLast? = some '\n' := by rw [List.getLast?_concat, hc]
    rw [Text.lastLine_eq_nil hlast, next, if_pos hc]
    rfl
  · have hnot : '\n' ∉ [c] := by simpa using Ne.symm hc
    rw [Text.lastLine_append hnot, List.length_append, ← Nat.add_assoc, ← h, next, if_neg hc]
    rfl

/-- **Columns count from the last newline.** -/
theorem column_after (p : Position) (h : p.column = 1) (text : String) :
    (p.after text).column = 1 + (Text.lastLine text.toList).length := by
  unfold after
  induction text.toList using List.reverseRecOn with
  | nil => exact h
  | append_singleton cs c ih =>
      rw [List.foldl_concat]
      exact column_next _ cs c ih

end Position

/-! ### Builders -/

namespace Builder

/-- The kinds and texts of the tokens are those that were pushed. -/
theorem map_pair_pushAll (pairs : List (Kind × String)) :
    (pushAll {} pairs).tokens.toList.map (fun t => (t.kind, t.text)) = pairs := by
  have hbuilt :=
    map_tokens_pushAll (g := fun t => (t.kind, t.text)) (f := id) (fun _ _ _ => rfl) pairs {}
  rw [hbuilt, List.map_id]
  rfl

/-- The texts in front of a token are those of the pairs in front of it. -/
theorem textOfTokens_take_pushAll (pairs : List (Kind × String)) (i : Nat) :
    textOfTokens ((pushAll {} pairs).tokens.toList.take i) = textBefore pairs i := by
  have htexts : (pushAll {} pairs).tokens.toList.map (·.text) = pairs.map (·.2) := by
    conv_rhs => rw [← map_pair_pushAll pairs, List.map_map]
    rfl
  rw [textOfTokens, textBefore, List.map_take, List.map_take, htexts]

/-- A token stands where reading the text in front of it ends. -/
theorem toPosition_eq (h : (pushAll {} pairs).tokens[i]? = some t) :
    t.toPosition = Position.after {} (textBefore pairs i) := by
  rw [← Array.getElem?_toList] at h
  rw [(placed_pushAll pairs).token i t h, textOfTokens_take_pushAll]

/-- **Line, column and offset of a token**, from the text in front of it. -/
theorem place_eq (h : (pushAll {} pairs).tokens[i]? = some t) :
    t.offset = ((pairs.take i).map fun pair => pair.2.utf8ByteSize).sum ∧
      t.line = 1 + Text.newlines (textBefore pairs i) ∧
      t.column = 1 + (Text.lastLine (textBefore pairs i).toList).length := by
  rw [toPosition_eq h]
  refine ⟨?_, ?_, ?_⟩
  · rw [Position.offset_after, ← utf8ByteSize_textBefore]
    exact Nat.zero_add _
  · exact Position.line_after {} _
  · exact Position.column_after {} rfl _

/-- Finishing adds links, and changes nothing else. -/
theorem map_finish (b : Builder) {α : Type} (f : Token → α) (hf : ∀ t, f t.bare = f t) :
    b.finish.tokens.toList.map f = b.tokens.toList.map f := by
  have hmap : ∀ s : TokenSeq, s.bare.map f = s.tokens.toList.map f := by
    intro s
    rw [TokenSeq.bare, List.map_map]
    exact List.map_congr_left fun t _ => hf t
  have hrun := congrArg (List.map f) (Linker.bare_run b.tokens)
  rw [hmap, hmap] at hrun
  exact hrun

/-- **Places of tokens, in closed form.** Whatever texts are pushed, empty ones and such with
newlines among them, the tokens have the kinds and texts that were pushed. The offset of a token is
the number of bytes of the texts in front of it; its line is one more than the number of newlines in
these texts, put together, and its column one more than the number of characters behind the last of
those newlines. So two tokens with the same text in front of them stand at the same place, however
that text was cut. Finishing keeps kinds, texts and places. -/
theorem positions_pushAll (pairs : List (Kind × String)) :
    let b := pushAll {} pairs
    b.tokens.toList.map (fun t => (t.kind, t.text)) = pairs ∧
    (∀ i t, b.tokens[i]? = some t →
      t.offset = ((pairs.take i).map fun pair => pair.2.utf8ByteSize).sum ∧
      t.line = 1 + Text.newlines (textBefore pairs i) ∧
      t.column = 1 + (Text.lastLine (textBefore pairs i).toList).length) ∧
    (∀ pairs' i j t u, b.tokens[i]? = some t → (pushAll {} pairs').tokens[j]? = some u →
      textBefore pairs i = textBefore pairs' j → t.toPosition = u.toPosition) ∧
    b.finish.tokens.toList.map (fun t => (t.kind, t.text, t.toPosition)) =
      b.tokens.toList.map fun t => (t.kind, t.text, t.toPosition) := by
  intro b
  refine ⟨map_pair_pushAll pairs, fun i t ht => place_eq ht, ?_, ?_⟩
  · intro pairs' i j t u ht hu hbefore
    rw [toPosition_eq ht, toPosition_eq hu, hbefore]
  · apply map_finish
    intro t
    rfl

end Builder

end PhpStyle
