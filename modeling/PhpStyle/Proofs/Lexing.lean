import PhpStyle.Proofs.Pieces
import PhpStyle.Proofs.Scope.Linking

/-!
# Cutting a text loses nothing

The lexer gives a result for every text, and the tokens of the result are the text again
(`TokenSeq.ofSource_tiles`).

That there is a result is the hard part, and it is done elsewhere: `lex_eq_scan` shows that every
size that the lexer computes is the size of a front of the text, so that all cuts fall between two
characters, and that no turn of its loops stands still. What is left is about the lexemes, which are
taken piece after piece. Put together they are the text, and none of them is empty (`flatten_scan`,
`ne_nil_of_mem_scan`), by induction on the pieces.

Lexemes become tokens by being pushed one after the other. `Builder.Placed` says that each token
stands where the texts before it end; pushing one more keeps this, and the linking afterwards does
not touch texts and places (`TokenSeq.position_ofPairs`). So the texts of the tokens are those of
the lexemes, and the offset of a token is the number of bytes in front of it.
-/

namespace PhpStyle

variable {c : Char} {cs : List Char}

/-! ### Lexemes -/

/-- The lines of a piece, or the piece, put together are the piece. -/
theorem flatten_lines (perLine : Bool) (text : List Char) :
    (if perLine then Text.keepLines text else [text]).flatten = text := by
  split
  · exact Text.flatten_keepLines text
  · simp

/-- No line of a piece is empty. -/
theorem ne_nil_of_mem_lines {perLine : Bool} {line : List Char}
    (h : line ∈ if perLine then Text.keepLines (c :: cs) else [c :: cs]) : line ≠ [] := by
  split at h
  · exact Text.ne_nil_of_mem_keepLines h
  · rw [List.mem_singleton.mp h]
    exact List.cons_ne_nil c cs

/-- **The lexemes put together are the text.** -/
theorem flatten_scan (region : Region) (cs : List Char) :
    ((scan region cs).map (·.2)).flatten = cs := by
  fun_induction scan region cs with
  | case1 => rfl
  | case2 region c cs piece text lexemes ih =>
      rw [List.map_append, List.flatten_append, ih, List.map_map]
      have hlines : ((lexemes.map ((·.2) ∘ (piece.kind, ·))).flatten) = text := by
        simp only [Function.comp_def, List.map_id']
        exact flatten_lines piece.perLine text
      rw [hlines, List.cons_append, List.take_append_drop]

/-- **No lexeme is empty.** -/
theorem ne_nil_of_mem_scan {region : Region} {lexeme : Kind × List Char}
    (h : lexeme ∈ scan region cs) : lexeme.2 ≠ [] := by
  fun_induction scan region cs with
  | case1 => cases h
  | case2 region c cs piece text lexemes ih =>
      rcases List.mem_append.mp h with h | h
      · obtain ⟨line, hline, rfl⟩ := List.mem_map.mp h
        exact ne_nil_of_mem_lines hline
      · exact ih h

/-- The texts of the lexemes put together are the source text. -/
theorem join_lexemes (source : String) : String.join ((lexemes source).map (·.2)) = source := by
  rw [← String.toList_inj, String.toList_join, lexemes_eq_scan, List.map_map, List.flatMap_map]
  simp only [Function.comp_apply, String.toList_ofList]
  rw [List.flatMap_def]
  exact flatten_scan .markup source.toList

/-- The text of no lexeme is empty. -/
theorem ne_empty_of_mem_lexemes {source : String} {pair : Kind × String}
    (h : pair ∈ lexemes source) : pair.2 ≠ "" := by
  rw [lexemes_eq_scan] at h
  obtain ⟨lexeme, hlexeme, rfl⟩ := List.mem_map.mp h
  rw [Ne, String.ofList_eq_empty_iff]
  exact ne_nil_of_mem_scan hlexeme

/-! ### Where tokens start -/

/-- Reading two texts after each other. -/
theorem Position.after_append (p : Position) (s t : String) :
    p.after (s ++ t) = (p.after s).after t := by
  simp [Position.after, List.foldl_append]

/-- Reading a text moves a place by the bytes of the text. -/
theorem Position.offset_after (p : Position) (text : String) :
    (p.after text).offset = p.offset + text.utf8ByteSize := by
  have hfold : ∀ (cs : List Char) (p : Position),
      (cs.foldl Position.next p).offset = p.offset + (String.ofList cs).utf8ByteSize := by
    intro cs
    induction cs with
    | nil => simp
    | cons c cs ih =>
        intro p
        have hnext : (p.next c).offset = p.offset + c.utf8Size := by
          unfold Position.next
          split <;> rfl
        rw [List.foldl_cons, ih, hnext, ← List.singleton_append, String.ofList_append,
          String.utf8ByteSize_append, ← String.singleton_eq_ofList, String.utf8ByteSize_singleton]
        omega
  rw [Position.after, hfold, String.ofList_toList]

/-- Reading a text moves a place by the newlines of the text. -/
theorem Position.line_after (p : Position) (text : String) :
    (p.after text).line = p.line + Text.newlines text := by
  unfold Position.after Text.newlines
  induction text.toList generalizing p with
  | nil => rfl
  | cons c cs ih =>
      rw [List.foldl_cons, ih]
      by_cases hc : c = '\n'
      · simp [Position.next, hc, Nat.add_comm, Nat.add_left_comm]
      · simp [Position.next, hc]

/-- The texts of tokens, put together. -/
def textOfTokens (tokens : List Token) : String := String.join (tokens.map (·.text))

/-- The texts of tokens after each other. -/
theorem textOfTokens_append (before after : List Token) :
    textOfTokens (before ++ after) = textOfTokens before ++ textOfTokens after := by
  rw [textOfTokens, List.map_append, String.join_append]
  rfl

/-- The text of a token, and the texts behind it. -/
theorem textOfTokens_cons (t : Token) (after : List Token) :
    textOfTokens (t :: after) = t.text ++ textOfTokens after := by
  rw [textOfTokens, List.map_cons, String.join_cons]
  rfl

namespace Builder

/-- Each token stands where the texts before it end, and the next one will. -/
structure Placed (b : Builder) : Prop where
  /-- Where the tokens stand. -/
  token : ∀ i t, b.tokens.toList[i]? = some t →
    t.toPosition = Position.after {} (textOfTokens (b.tokens.toList.take i))
  /-- Where the next token will stand. -/
  place : b.place = Position.after {} (textOfTokens b.tokens.toList)

/-- A token is added behind the others. -/
theorem Placed.push {b : Builder} (h : b.Placed) (kind : Kind) (text : String) :
    (b.push kind text).Placed := by
  have htokens : (b.push kind text).tokens.toList =
      b.tokens.toList ++ [{ b.place with kind, text }] := Array.toList_push
  refine ⟨?_, ?_⟩
  · intro i t ht
    rw [htokens] at ht ⊢
    rw [List.getElem?_append] at ht
    split at ht
    · next hi =>
        rw [List.take_append_of_le_length hi.le]
        exact h.token i t ht
    · next hi =>
        rw [List.getElem?_singleton] at ht
        split at ht
        · next hzero =>
            cases ht
            have heq : i = b.tokens.toList.length := by omega
            rw [heq, List.take_left]
            exact h.place
        · cases ht
  · have hplace : (b.push kind text).place = b.place.after text := rfl
    rw [hplace, h.place, htokens, textOfTokens_append, Position.after_append]
    simp [textOfTokens, String.join_cons, String.join_nil]

/-- Tokens that are added one after the other are placed one after the other. -/
theorem Placed.pushAll {b : Builder} (h : b.Placed) (pairs : List (Kind × String)) :
    (b.pushAll pairs).Placed := by
  induction pairs generalizing b with
  | nil => exact h
  | cons pair pairs ih => exact ih (h.push pair.1 pair.2)

/-- Tokens that are built from nothing stand where the texts before them end. -/
theorem placed_pushAll (pairs : List (Kind × String)) : (pushAll {} pairs).Placed :=
  Placed.pushAll ⟨fun i t h => by simp at h, rfl⟩ pairs

end Builder

namespace TokenSeq

/-- The texts of a finished sequence are those that were given. -/
theorem map_text_ofPairs (pairs : List (Kind × String)) :
    (ofPairs pairs).tokens.toList.map (·.text) = pairs.map (·.2) := by
  have hbuilt := Builder.map_tokens_pushAll (g := fun t => t.text) (f := fun pair => pair.2)
    (fun _ _ _ => rfl) pairs {}
  have hbare : (ofPairs pairs).tokens.toList.map (·.text) =
      (ofPairs pairs).bare.map (·.text) := by
    rw [bare, List.map_map]
    rfl
  rw [hbare, bare_ofPairs, hbuilt]
  rfl

/-- The pair of a token. -/
theorem getElem?_of_get?_ofPairs {pairs : List (Kind × String)} {n : Nat} {t : Token}
    (ht : (ofPairs pairs).get? n = some t) :
    pairs[n]? = some (t.kind, t.text) := by
  have hget : (ofPairs pairs).tokens.toList[n]? = some t := by
    rw [Array.getElem?_toList]
    exact ht
  have hkind := (ofPairs pairs).kinds_getElem? n
  have htext := congrArg (·[n]?) (map_text_ofPairs pairs)
  rw [kinds_ofPairs, ht] at hkind
  simp only [List.getElem?_map, hget, Option.map_some] at hkind htext
  rcases hpair : pairs[n]? with _ | ⟨kind, word⟩
  · simp [hpair] at hkind
  · simp_all

/-- The token of a pair. -/
theorem exists_get?_ofPairs {pairs : List (Kind × String)} {n : Nat} {kind : Kind} {word : String}
    (h : pairs[n]? = some (kind, word)) :
    ∃ t, (ofPairs pairs).get? n = some t ∧ t.kind = kind ∧ t.text = word := by
  have hlt : n < (ofPairs pairs).size := by
    rw [size_ofPairs]
    exact (List.getElem?_eq_some_iff.mp h).1
  obtain ⟨t, ht⟩ := exists_get? hlt
  have hpair := getElem?_of_get?_ofPairs ht
  rw [h, Option.some.injEq, Prod.mk.injEq] at hpair
  exact ⟨t, ht, hpair.1.symm, hpair.2.symm⟩

/-- **A token of a finished sequence stands where the texts before it end.** -/
theorem position_ofPairs {pairs : List (Kind × String)} {i : Nat} {t : Token}
    (ht : (ofPairs pairs).get? i = some t) :
    t.toPosition = Position.after {} (textOfTokens ((ofPairs pairs).tokens.toList.take i)) := by
  have hbare : (Builder.pushAll {} pairs).tokens.toList[i]? = some t.bare := by
    rw [← bare_ofPairs, bare, List.getElem?_map, Array.getElem?_toList]
    exact congrArg (Option.map Token.bare) ht
  have hposition := (Builder.placed_pushAll pairs).token i t.bare hbare
  rw [← bare_ofPairs, bare, textOfTokens, ← List.map_take, List.map_map] at hposition
  exact hposition

/-- The texts in front of a token are those in front of the token before it, and its text. -/
theorem textOfTokens_take_succ {s : TokenSeq} {i : Nat} {t : Token} (ht : s.get? i = some t) :
    textOfTokens (s.tokens.toList.take (i + 1)) =
      textOfTokens (s.tokens.toList.take i) ++ t.text := by
  have hget : s.tokens.toList[i]? = some t := by
    rw [Array.getElem?_toList]
    exact ht
  obtain ⟨hi, rfl⟩ := List.getElem?_eq_some_iff.mp hget
  rw [← List.take_concat_get' _ _ hi, textOfTokens_append, textOfTokens_cons]
  simp [textOfTokens, String.join_nil]

/-- The text of a token, between the texts in front of it and behind it. -/
theorem textOfTokens_around {s : TokenSeq} {i : Nat} {t : Token} (ht : s.get? i = some t) :
    textOfTokens s.tokens.toList =
      textOfTokens (s.tokens.toList.take i) ++ t.text ++
        textOfTokens (s.tokens.toList.drop (i + 1)) := by
  rw [← textOfTokens_take_succ ht, ← textOfTokens_append, List.take_append_drop]

/-- The texts of the tokens of a source text make the source text. -/
theorem textOfTokens_ofSource (source : String) :
    textOfTokens (ofSource source).tokens.toList = source := by
  rw [textOfTokens, ofSource, map_text_ofPairs, join_lexemes]

/-- A token stands below the one in front of it by the newlines of that one. -/
theorem line_succ_ofPairs {pairs : List (Kind × String)} {i : Nat} {t u : Token}
    (ht : (ofPairs pairs).get? i = some t) (hu : (ofPairs pairs).get? (i + 1) = some u) :
    u.line = t.line + Text.newlines t.text := by
  have hplace := position_ofPairs hu
  rw [textOfTokens_take_succ ht, Position.after_append, ← position_ofPairs ht] at hplace
  rw [hplace, Position.line_after]

/-- The offset of a token is the number of bytes before it. -/
theorem offset_ofPairs {pairs : List (Kind × String)} {i : Nat} {t : Token}
    (ht : (ofPairs pairs).get? i = some t) :
    t.offset = (textOfTokens ((ofPairs pairs).tokens.toList.take i)).utf8ByteSize := by
  have hoffset := congrArg Position.offset (position_ofPairs ht)
  rw [Position.offset_after] at hoffset
  simpa using hoffset

/-- **Every source text is cut into tokens, and the tokens are the source text.** The lexer gives a
result: it never cuts inside a character or behind the end of the text, and no turn of its loops
leaves the text as it was. Put together, the texts of the tokens are the source, byte for byte. No
token is empty, and each starts at the byte where the tokens before it end. -/
theorem ofSource_tiles (source : String) :
    (∃ pairs, lex source = .ok pairs ∧ ofSource source = ofPairs pairs) ∧
    (ofSource source).textOf 0 ((ofSource source).size - 1) = source ∧
    ∀ i t, (ofSource source).get? i = some t → t.text ≠ "" ∧ ∃ before after : String,
      source = before ++ t.text ++ after ∧ t.offset = before.utf8ByteSize := by
  have hall := textOfTokens_ofSource source
  refine ⟨⟨_, lex_eq_scan source, by rw [ofSource, lexemes_eq_scan]⟩, ?_, ?_⟩
  · have hlast : (ofSource source).tokens.toList.take ((ofSource source).size - 1 + 1) =
        (ofSource source).tokens.toList := by
      refine List.take_of_length_le ?_
      rw [Array.length_toList, size]
      omega
    rw [textOf, hlast, List.drop_zero]
    exact hall
  · intro i t ht
    refine ⟨?_, textOfTokens ((ofSource source).tokens.toList.take i),
      textOfTokens ((ofSource source).tokens.toList.drop (i + 1)), ?_, offset_ofPairs ht⟩
    · have hpair := getElem?_of_get?_ofPairs ht
      exact ne_empty_of_mem_lexemes (List.mem_of_getElem? hpair)
    · rw [← textOfTokens_around ht, hall]

end TokenSeq

end PhpStyle
