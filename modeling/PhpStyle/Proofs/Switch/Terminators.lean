import Mathlib.Data.List.Find
import Mathlib.Data.List.TakeWhile
import PhpStyle.Proofs.Switch.Checks
import PhpStyle.Proofs.Switch.Colons

/-!
# What ends a branch

A body is searched forwards for a break of the switch, and then backwards for anything else that can
end it. What the two searches find is said here of the tokens themselves, without the order in which
they are looked at (`TokenSeq.EndsBody`), and from this which branches of a switch are stacked and
what ends the others (`Switch.terminators_ofKeyword`).

A break is known by the scope around it and a comment by its text, so tests of kinds alone
(`TokenSeq.FirstOf`, `TokenSeq.LastOf`) do not do. The first part is about searches for tokens that
pass any test: `TokenSeq.first?` and `TokenSeq.last?` run over indices, and find the first and the
last token of a range that passes (`TokenSeq.FirstWith`, `TokenSeq.LastWith`), or say that there is
none (`TokenSeq.NoneWith`). What the source searches is a list of tokens that has been read; its
indices are those of the range (`TokenSeq.map_index_readRange`), so both searches are the same.

The second part says which tokens end a body (`Token.breaks`, `Token.canEnd`). One of three things
is the case: there is a first break, or none but a last token that can end the body, or neither. In
each case `Switch.terminatorOf` is computed, and since the cases exclude one another,
`Switch.terminatorOf_eq_iff` holds in both directions. That the search backwards stops at the latest
of three searches is `TokenSeq.last?_or`, used twice.

The last part goes from bodies to branches. A break in a brace of the body does not end it: the
innermost scope around such a break is not that of the switch
(`Switch.not_openAt_of_breakAt`).
-/

namespace PhpStyle

/-! ### Ranges of tokens -/

namespace TokenSeq

/-- Whether there is a token `i` that passes the test. -/
def test (s : TokenSeq) (p : Token → Bool) (i : Nat) : Bool := (s.get? i).any p

/-- The token `i` is the first one in `[start, stop)` that passes the test. -/
structure FirstWith (s : TokenSeq) (p : Token → Bool) (start stop i : Nat) : Prop where
  /-- It is not before the range. -/
  start_le : start ≤ i
  /-- It is not behind the range. -/
  lt_stop : i < stop
  /-- It passes the test. -/
  holds : s.test p i = true
  /-- No token of the range before it does. -/
  before : ∀ j, start ≤ j → j < i → s.test p j = false

/-- The token `i` is the last one in `[start, stop)` that passes the test. -/
structure LastWith (s : TokenSeq) (p : Token → Bool) (start stop i : Nat) : Prop where
  /-- It is not before the range. -/
  start_le : start ≤ i
  /-- It is not behind the range. -/
  lt_stop : i < stop
  /-- It passes the test. -/
  holds : s.test p i = true
  /-- No token of the range behind it does. -/
  behind : ∀ j, i < j → j < stop → s.test p j = false

/-- No token in `[start, stop)` passes the test. -/
def NoneWith (s : TokenSeq) (p : Token → Bool) (start stop : Nat) : Prop :=
  ∀ i, start ≤ i → i < stop → s.test p i = false

/-- A search forwards in `[start, stop)`. -/
def first? (s : TokenSeq) (p : Token → Bool) (start stop : Nat) : Option Nat :=
  (List.range' start (stop - start)).find? (s.test p)

/-- A search backwards in `[start, stop)`. -/
def last? (s : TokenSeq) (p : Token → Bool) (start stop : Nat) : Option Nat :=
  (List.range' start (stop - start)).reverse.find? (s.test p)

variable {s : TokenSeq} {p q : Token → Bool} {start stop i j : Nat} {t : Token}

/-- The test of a token that is there. -/
theorem test_of_get? (ht : s.get? i = some t) : s.test p i = p t := by
  rw [test, ht, Option.any_some]

/-- A search forwards finds the first token. -/
theorem first?_eq_some_iff : s.first? p start stop = some i ↔ s.FirstWith p start stop i := by
  unfold first?
  rw [List.find?_range'_eq_some, List.mem_range'_1]
  constructor
  · rintro ⟨hp, ⟨hstart, hstop⟩, hbefore⟩
    exact ⟨hstart, by omega, hp, fun j hj hji => by simpa using hbefore j hj hji⟩
  · intro h
    have hstart := h.start_le
    have hstop := h.lt_stop
    exact ⟨h.holds, ⟨hstart, by omega⟩, fun j hj hji => by simpa using h.before j hj hji⟩

/-- It finds nothing exactly if there is none. -/
theorem first?_eq_none_iff : s.first? p start stop = none ↔ s.NoneWith p start stop := by
  unfold first? NoneWith
  rw [List.find?_range'_eq_none]
  constructor
  · intro h i hstart hstop
    simpa using h i hstart (by omega)
  · intro h i hstart hstop
    simpa using h i hstart (by omega)

/-- A search backwards looks at the end of the range first. -/
theorem last?_succ (h : start ≤ stop) :
    s.last? p start (stop + 1) = if s.test p stop then some stop else s.last? p start stop := by
  have hlength : stop + 1 - start = stop - start + 1 := by omega
  have hlast : start + 1 * (stop - start) = stop := by omega
  unfold last?
  rw [hlength, List.range'_concat, hlast, List.reverse_append, List.reverse_singleton,
    List.singleton_append, List.find?_cons]
  cases s.test p stop <;> rfl

/-- There is nothing to find in an empty range. -/
theorem last?_of_le (h : stop ≤ start) : s.last? p start stop = none := by
  simp [last?, Nat.sub_eq_zero_of_le h]

/-- A search backwards finds the last token. -/
theorem last?_eq_some_iff : s.last? p start stop = some i ↔ s.LastWith p start stop i := by
  induction stop with
  | zero =>
      rw [last?_of_le (Nat.zero_le start)]
      exact ⟨nofun, fun h => absurd h.lt_stop (Nat.not_lt_zero i)⟩
  | succ stop ih =>
      -- the range has grown by one token, which is looked at first
      by_cases hle : start ≤ stop
      · rw [last?_succ hle]
        by_cases hp : s.test p stop = true
        · -- it passes the test, and none is behind it
          rw [if_pos hp, Option.some.injEq]
          constructor
          · rintro rfl
            exact ⟨hle, Nat.lt_succ_self stop, hp, fun j hj hjs => by omega⟩
          · intro h
            by_contra hne
            have hlt := h.lt_stop
            rw [h.behind stop (by omega) (Nat.lt_succ_self stop)] at hp
            cases hp
        · -- it does not, so the others count, and it is no obstacle behind them
          rw [if_neg hp, ih]
          rw [Bool.not_eq_true] at hp
          constructor
          · intro h
            refine ⟨h.start_le, Nat.lt_succ_of_lt h.lt_stop, h.holds, fun j hij hjs => ?_⟩
            rcases Nat.eq_or_lt_of_le (Nat.lt_succ_iff.mp hjs) with rfl | hlt
            · exact hp
            · exact h.behind j hij hlt
          · intro h
            have hne : i ≠ stop := by
              rintro rfl
              rw [h.holds] at hp
              cases hp
            have hlt := h.lt_stop
            exact ⟨h.start_le, by omega, h.holds, fun j hij hjs =>
              h.behind j hij (Nat.lt_succ_of_lt hjs)⟩
      · rw [last?_of_le (by omega)]
        refine ⟨nofun, fun h => ?_⟩
        have hstart := h.start_le
        have hstop := h.lt_stop
        omega

/-- It finds nothing exactly if there is none. -/
theorem last?_eq_none_iff : s.last? p start stop = none ↔ s.NoneWith p start stop := by
  unfold last? NoneWith
  rw [List.find?_eq_none]
  simp only [List.mem_reverse, List.mem_range'_1, Bool.not_eq_true]
  constructor
  · intro h i hstart hstop
    exact h i ⟨hstart, by omega⟩
  · rintro h i ⟨hstart, hstop⟩
    exact h i hstart (by omega)

/-- **The last token with one of two properties** is the later one of the last tokens with each of
them. -/
theorem last?_or (s : TokenSeq) (p q : Token → Bool) (start stop : Nat) :
    s.last? (fun t => p t || q t) start stop =
      max (s.last? p start stop) (s.last? q start stop) := by
  have htest : ∀ i, s.test (fun t => p t || q t) i = (s.test p i || s.test q i) := by
    intro i
    unfold test
    cases s.get? i <;> rfl
  -- what is found lies in front of the end of the range
  have hleft : ∀ {r : Token → Bool} {stop : Nat}, max (some stop) (s.last? r start stop) =
      some stop := by
    intro r stop
    rcases hlast : s.last? r start stop with _ | i
    · rfl
    · rw [Option.max_some_some, Nat.max_eq_left (last?_eq_some_iff.mp hlast).lt_stop.le]
  have hright : ∀ {r : Token → Bool} {stop : Nat}, max (s.last? r start stop) (some stop) =
      some stop := by
    intro r stop
    rcases hlast : s.last? r start stop with _ | i
    · rfl
    · rw [Option.max_some_some, Nat.max_eq_right (last?_eq_some_iff.mp hlast).lt_stop.le]
  induction stop with
  | zero => simp only [last?_of_le (Nat.zero_le start)]; rfl
  | succ stop ih =>
      by_cases hle : start ≤ stop
      · rw [last?_succ hle, last?_succ hle, last?_succ hle, htest, ih]
        cases s.test p stop <;> cases s.test q stop <;> simp [hleft, hright]
      · simp only [last?_of_le (Nat.succ_le_of_lt (Nat.lt_of_not_le hle))]
        rfl

/-- The indices of what is read in a range. -/
theorem map_index_readRange {body : List (Token × Nat)} (h : s.readRange start stop = .ok body) :
    body.map (·.2) = List.range' start (stop - start) := by
  unfold readRange at h
  generalize List.range' start (stop - start) = indices at h ⊢
  induction indices generalizing body with
  | nil =>
      cases h
      rfl
  | cons i indices ih =>
      obtain ⟨entry, rest, hentry, hrest, rfl⟩ := Checked.mapM_cons_eq_ok_iff.mp h
      obtain ⟨t, -, hentry⟩ := Checked.bind_eq_ok_iff.mp hentry
      cases hentry
      rw [List.map_cons, ih hrest]

/-- A token that is read is tested where it stands. -/
theorem test_of_mem_readRange {body : List (Token × Nat)} (h : s.readRange start stop = .ok body)
    {entry : Token × Nat} (hentry : entry ∈ body) : s.test p entry.2 = p entry.1 :=
  test_of_get? ((mem_readRange h).mp hentry).2.2

/-- A search forwards in what is read. -/
theorem map_find?_readRange {body : List (Token × Nat)} (h : s.readRange start stop = .ok body)
    (p : Token → Bool) : (body.find? (p ·.1)).map (·.2) = s.first? p start stop := by
  rw [first?, ← map_index_readRange h, List.find?_map]
  exact congrArg _ (List.find?_congr fun entry hentry => (test_of_mem_readRange h hentry).symm)

/-- A search backwards in what is read. -/
theorem map_find?_reverse_readRange {body : List (Token × Nat)}
    (h : s.readRange start stop = .ok body) (p : Token → Bool) :
    (body.reverse.find? (p ·.1)).map (·.2) = s.last? p start stop := by
  rw [last?, ← map_index_readRange h, ← List.map_reverse, List.find?_map]
  exact congrArg _ (List.find?_congr fun entry hentry =>
    (test_of_mem_readRange h (List.mem_reverse.mp hentry)).symm)

end TokenSeq

/-! ### What can end a body -/

/-- A break whose innermost scope belongs to the keyword. -/
def Token.breaks (keyword : Nat) (t : Token) : Bool :=
  t.kind == .kwBreak && t.enclosing? == some keyword

/-- A return, a throw, or a comment that starts with the marker. -/
def Token.canEnd (marker : String) (t : Token) : Bool :=
  t.kind == .kwReturn || t.kind == .kwThrow ||
    t.kind == .comment && Switch.marksFallthrough marker t

/-- **A comment marks a fallthrough** if it starts with the marker, apart from blanks in front. A
marker that starts with a blank itself is never found. -/
theorem Switch.marksFallthrough_iff {marker : String} {t : Token} :
    marksFallthrough marker t = true ↔
    ∃ blanks rest : List Char, t.text.toList = blanks ++ (marker.toList ++ rest) ∧
      (∀ c ∈ blanks, Text.isBlank c = true) ∧
      ∀ c, (marker.toList ++ rest).head? = some c → Text.isBlank c = false := by
  unfold marksFallthrough Text.trimStart
  rw [List.isPrefixOf_iff_prefix]
  constructor
  · rintro ⟨rest, hrest⟩
    refine ⟨t.text.toList.takeWhile Text.isBlank, rest, ?_, fun c => List.mem_takeWhile_imp, ?_⟩
    · rw [hrest, List.takeWhile_append_dropWhile]
    · intro c hc
      have hnot := List.head?_dropWhile_not Text.isBlank t.text.toList
      rw [← hrest, hc] at hnot
      simpa using hnot
  · rintro ⟨blanks, rest, htext, hblanks, hhead⟩
    refine ⟨rest, ?_⟩
    rw [htext, List.dropWhile_append_of_pos hblanks]
    rcases hlist : marker.toList ++ rest with _ | ⟨c, cs⟩
    · rfl
    · rw [hlist] at hhead
      rw [List.dropWhile_cons_of_neg (by simp [hhead c rfl])]

/-- No break of the keyword is among the tokens in `[start, stop)`, and the last one of them that
can end a body otherwise is `i`, of the given kind. -/
structure TokenSeq.EndsBy (s : TokenSeq) (keyword : Nat) (marker : String) (start stop : Nat)
    (kind : Kind) (i : Nat) : Prop where
  /-- There is no break. -/
  unbroken : s.NoneWith (Token.breaks keyword) start stop
  /-- It is the last one. -/
  last : s.LastWith (Token.canEnd marker) start stop i
  /-- It is of the kind. -/
  kind_eq : s.kindAt (· == kind) i = true

/-- What ends the tokens in `[start, stop)`: the first break of the keyword, or else the last
token that can end them. -/
def TokenSeq.EndsBody (s : TokenSeq) (keyword : Nat) (marker : String) (start stop : Nat) :
    Terminator → Prop
  | .breakAt i => s.FirstWith (Token.breaks keyword) start stop i
  | .returnAt i => s.EndsBy keyword marker start stop .kwReturn i
  | .throwAt i => s.EndsBy keyword marker start stop .kwThrow i
  | .fallthroughAt i => s.EndsBy keyword marker start stop .comment i
  | .absent =>
    s.NoneWith (Token.breaks keyword) start stop ∧ s.NoneWith (Token.canEnd marker) start stop

namespace Switch

variable {s : TokenSeq} {keyword closer start stop i : Nat} {marker : String} {t : Token}
  {terminator : Terminator} {body : List (Token × Nat)} {labels : List Nat} {b : Branch}
  {switch : Switch}

/-- Which tokens have an ending. -/
theorem isSome_ending? (marker : String) (t : Token) (i : Nat) :
    (ending? marker t i).isSome = t.canEnd marker := by
  unfold ending? Token.canEnd
  cases t.kind <;> simp
  cases marksFallthrough marker t <;> rfl

/-- The first ending in a list is that of the first token that has one. -/
theorem findSome?_ending? (marker : String) (entries : List (Token × Nat)) :
    (entries.findSome? fun (t, i) => ending? marker t i) =
      (entries.find? (Token.canEnd marker ·.1)).bind fun entry =>
        ending? marker entry.1 entry.2 := by
  induction entries with
  | nil => rfl
  | cons entry entries ih =>
      obtain ⟨t, i⟩ := entry
      rw [List.findSome?_cons, List.find?_cons, ih, ← isSome_ending? marker t i]
      rcases h : ending? marker t i with _ | terminator
      · simp only [h, Option.isSome_none]
      · simp only [h, Option.isSome_some, Option.bind_some]

/-- What ends a body, by a search forwards and a search backwards. -/
theorem terminatorOf_eq (keyword : Nat) (marker : String) (body : List (Token × Nat)) :
    terminatorOf keyword marker body =
      ((body.find? (Token.breaks keyword ·.1)).map fun entry => Terminator.breakAt entry.2).getD
        (((body.reverse.find? (Token.canEnd marker ·.1)).bind fun entry =>
          ending? marker entry.1 entry.2).getD .absent) := by
  unfold terminatorOf
  rw [findSome?_ending?]
  split
  · next t i hfind =>
      rw [show body.find? (Token.breaks keyword ·.1) = some (t, i) from hfind]
      rfl
  · next hfind =>
      rw [show body.find? (Token.breaks keyword ·.1) = none from hfind]
      rfl

/-- A break of the keyword ends a body. -/
theorem terminatorOf_of_firstWith (hbody : s.readRange start stop = .ok body)
    (h : s.FirstWith (Token.breaks keyword) start stop i) :
    terminatorOf keyword marker body = .breakAt i := by
  have hfirst := TokenSeq.map_find?_readRange hbody (Token.breaks keyword)
  rw [TokenSeq.first?_eq_some_iff.mpr h] at hfirst
  obtain ⟨entry, hfind, rfl⟩ := Option.map_eq_some_iff.mp hfirst
  rw [terminatorOf_eq, hfind, Option.map_some, Option.getD_some]

/-- Without a break of the keyword it is the search backwards that counts. -/
theorem terminatorOf_of_noneWith (hbody : s.readRange start stop = .ok body)
    (h : s.NoneWith (Token.breaks keyword) start stop) :
    terminatorOf keyword marker body =
      ((body.reverse.find? (Token.canEnd marker ·.1)).bind fun entry =>
        ending? marker entry.1 entry.2).getD .absent := by
  have hfirst := TokenSeq.map_find?_readRange hbody (Token.breaks keyword)
  rw [TokenSeq.first?_eq_none_iff.mpr h, Option.map_eq_none_iff] at hfirst
  rw [terminatorOf_eq, hfirst, Option.map_none, Option.getD_none]

/-- Without a break of the keyword the last token that can end a body ends it. -/
theorem terminatorOf_of_lastWith (hbody : s.readRange start stop = .ok body)
    (hnone : s.NoneWith (Token.breaks keyword) start stop)
    (h : s.LastWith (Token.canEnd marker) start stop i) (ht : s.get? i = some t) :
    some (terminatorOf keyword marker body) = ending? marker t i := by
  have hlast := TokenSeq.map_find?_reverse_readRange hbody (Token.canEnd marker)
  rw [TokenSeq.last?_eq_some_iff.mpr h] at hlast
  obtain ⟨⟨u, j⟩, hfind, rfl⟩ := Option.map_eq_some_iff.mp hlast
  have hu :=
    ((TokenSeq.mem_readRange hbody).mp (List.mem_reverse.mp (List.mem_of_find?_eq_some hfind))).2.2
  cases ht.symm.trans hu
  have hcan := List.find?_some hfind
  have hsome : (ending? marker t j).isSome = true := (isSome_ending? marker t j).trans hcan
  rw [terminatorOf_of_noneWith hbody hnone, hfind, Option.bind_some]
  obtain ⟨terminator, hending⟩ := Option.isSome_iff_exists.mp hsome
  rw [hending, Option.getD_some]

/-- Without a token that can end a body nothing does. -/
theorem terminatorOf_of_noneWith_of_noneWith (hbody : s.readRange start stop = .ok body)
    (hnone : s.NoneWith (Token.breaks keyword) start stop)
    (h : s.NoneWith (Token.canEnd marker) start stop) :
    terminatorOf keyword marker body = .absent := by
  have hlast := TokenSeq.map_find?_reverse_readRange hbody (Token.canEnd marker)
  rw [TokenSeq.last?_eq_none_iff.mpr h, Option.map_eq_none_iff] at hlast
  rw [terminatorOf_of_noneWith hbody hnone, hlast, Option.bind_none, Option.getD_none]

/-- The token at which a body ends, if it is no break, says by its kind in which way the body
ends. -/
theorem endsBody_of_ending? (hnone : s.NoneWith (Token.breaks keyword) start stop)
    (h : s.LastWith (Token.canEnd marker) start stop i) (ht : s.get? i = some t)
    (hending : ending? marker t i = some terminator) :
    s.EndsBody keyword marker start stop terminator := by
  have hkind : ∀ kind, t.kind = kind → s.EndsBy keyword marker start stop kind i := by
    intro kind hkind
    refine ⟨hnone, h, ?_⟩
    rw [TokenSeq.kindAt_of_get? ht, hkind, beq_self_eq_true]
  unfold ending? at hending
  split at hending
  · next heq =>
      cases hending
      exact hkind _ heq
  · next heq =>
      cases hending
      exact hkind _ heq
  · next heq =>
      split at hending
      · cases hending
        exact hkind _ heq
      · cases hending
  · cases hending

/-- A body ends in some way, and it is the one that is found. -/
theorem endsBody_terminatorOf (hbody : s.readRange start stop = .ok body) :
    s.EndsBody keyword marker start stop (terminatorOf keyword marker body) := by
  rcases hfirst : s.first? (Token.breaks keyword) start stop with _ | i
  · have hnone := TokenSeq.first?_eq_none_iff.mp hfirst
    rcases hlast : s.last? (Token.canEnd marker) start stop with _ | i
    · have hnone' := TokenSeq.last?_eq_none_iff.mp hlast
      rw [terminatorOf_of_noneWith_of_noneWith hbody hnone hnone']
      exact ⟨hnone, hnone'⟩
    · have h := TokenSeq.last?_eq_some_iff.mp hlast
      obtain ⟨t, ht, -⟩ := (Option.any_eq_true _ _).mp h.holds
      exact endsBody_of_ending? hnone h ht (terminatorOf_of_lastWith hbody hnone h ht).symm
  · have h := TokenSeq.first?_eq_some_iff.mp hfirst
    rw [terminatorOf_of_firstWith hbody h]
    exact h

/-- The ending of a token of the given kind that can end a body. -/
theorem terminatorOf_of_endsBy {kind : Kind} (hbody : s.readRange start stop = .ok body)
    (h : s.EndsBy keyword marker start stop kind i) :
    ∃ t : Token, t.kind = kind ∧ t.canEnd marker = true ∧
      some (terminatorOf keyword marker body) = ending? marker t i := by
  obtain ⟨t, ht, hend⟩ := (Option.any_eq_true _ _).mp h.last.holds
  have hkind := h.kind_eq
  rw [TokenSeq.kindAt_of_get? ht, beq_iff_eq] at hkind
  exact ⟨t, hkind, hend, terminatorOf_of_lastWith hbody h.unbroken h.last ht⟩

/-- **What ends a body**: the two searches find it. -/
theorem terminatorOf_eq_iff (hbody : s.readRange start stop = .ok body) (terminator : Terminator) :
    terminatorOf keyword marker body = terminator ↔
      s.EndsBody keyword marker start stop terminator := by
  constructor
  · rintro rfl
    exact endsBody_terminatorOf hbody
  · intro h
    cases terminator with
    | breakAt i => exact terminatorOf_of_firstWith hbody h
    | returnAt i =>
        obtain ⟨t, hkind, -, hterminator⟩ := terminatorOf_of_endsBy hbody h
        rw [ending?, hkind] at hterminator
        exact Option.some.inj hterminator
    | throwAt i =>
        obtain ⟨t, hkind, -, hterminator⟩ := terminatorOf_of_endsBy hbody h
        rw [ending?, hkind] at hterminator
        exact Option.some.inj hterminator
    | fallthroughAt i =>
        obtain ⟨t, hkind, hend, hterminator⟩ := terminatorOf_of_endsBy hbody h
        -- a comment can end a body only if it is marked
        have hmarks : marksFallthrough marker t = true := by simpa [Token.canEnd, hkind] using hend
        simp only [ending?, hkind, hmarks, if_true] at hterminator
        exact Option.some.inj hterminator
    | absent => exact terminatorOf_of_noneWith_of_noneWith hbody h.1 h.2

/-- **The latest of three searches.** Without a break of the keyword a body ends at the last return,
the last throw or the last marked comment, whichever comes last. -/
theorem index_terminatorOf (hbody : s.readRange start stop = .ok body)
    (hnone : s.NoneWith (Token.breaks keyword) start stop) :
    (terminatorOf keyword marker body).index? =
      max (max (s.last? (·.kind == .kwReturn) start stop) (s.last? (·.kind == .kwThrow) start stop))
        (s.last? (fun t => t.kind == .comment && marksFallthrough marker t) start stop) := by
  rw [← TokenSeq.last?_or, ← TokenSeq.last?_or]
  have hcan : s.last? (Token.canEnd marker) start stop =
      (terminatorOf keyword marker body).index? := by
    rcases hlast : s.last? (Token.canEnd marker) start stop with _ | i
    · rw [terminatorOf_of_noneWith_of_noneWith hbody hnone (TokenSeq.last?_eq_none_iff.mp hlast)]
      rfl
    · have h := TokenSeq.last?_eq_some_iff.mp hlast
      obtain ⟨t, ht, -⟩ := (Option.any_eq_true _ _).mp h.holds
      exact (index_of_ending? (terminatorOf_of_lastWith hbody hnone h ht).symm).symm
  exact hcan.symm

/-! ### The branches of a switch -/

/-- The body of a branch, and what is found in it. -/
structure Searched (s : TokenSeq) (keyword closer : Nat) (marker : String) (b : Branch)
    (body : List (Token × Nat)) : Prop where
  /-- The body is read. -/
  body_eq : s.readRange b.bodyStart b.bodyEnd = .ok body
  /-- A branch is stacked if a next label ends it and nothing but whitespace is in between. -/
  stacked_eq : b.stacked = (b.bodyEnd != closer && body.all (·.1.kind == .whitespace))
  /-- What ends a branch is searched for unless it is stacked. -/
  terminator_eq : b.terminator = if b.stacked then .absent else terminatorOf keyword marker body

/-- The body of the branch of a label is searched. -/
theorem searched_of_branchOf {label bodyEnd : Nat}
    (h : branchOf s keyword closer marker label bodyEnd = .ok (.ok b)) :
    ∃ body, Searched s keyword closer marker b body := by
  rw [branchOf] at h
  obtain ⟨t, -, h⟩ := Checked.bind_eq_ok_iff.mp h
  split at h
  · cases h
  · obtain ⟨body, hbody, h⟩ := Checked.bind_eq_ok_iff.mp h
    cases h
    exact ⟨body, hbody, rfl, rfl⟩

/-- So are those of all labels. -/
theorem searched_of_branchesOf {branches : List Branch}
    (h : branchesOf s keyword closer marker labels = .ok (.ok branches)) :
    ∀ b ∈ branches, ∃ body, Searched s keyword closer marker b body := by
  induction labels generalizing branches with
  | nil =>
      cases h
      simp
  | cons label labels ih =>
      rw [branchesOf] at h
      obtain ⟨found, hfound, h⟩ := Checked.bind_eq_ok_iff.mp h
      cases found with
      | error e => cases h
      | ok b =>
          obtain ⟨rest, hrest, h⟩ := Checked.bind_eq_ok_iff.mp h
          cases rest with
          | error e => cases h
          | ok bs =>
              cases h
              exact List.forall_mem_cons.mpr ⟨searched_of_branchOf hfound, ih hrest⟩

/-- The bodies of a switch are searched. -/
theorem searched_of_ofKeyword (h : ofKeyword s keyword marker = .ok (.ok switch)) :
    ∀ b ∈ switch.branches, ∃ body, Searched s keyword switch.closer marker b body := by
  obtain ⟨-, -, -, labels, -, hbranches⟩ := ofKeyword_eq_ok h
  exact searched_of_branchesOf hbranches

/-- A branch is stacked exactly if a next label follows it and only whitespace is in between. -/
theorem Searched.stacked_iff (h : Searched s keyword switch.closer marker b body)
    (hparts : Parts s keyword switch) {n : Nat} (hb : switch.branches[n]? = some b) :
    b.stacked = true ↔ ∃ next, switch.branches[n + 1]? = some next ∧
      ∀ i, b.colon < i → i < next.label → s.kindAt (· == .whitespace) i = true := by
  have hend := hparts.parted.bodyEnd_eq n b hb
  rw [List.getElem?_map] at hend
  rw [h.stacked_eq, Bool.and_eq_true, bne_iff_ne]
  -- the body ends at a label or at the closing brace, and a label is not the brace
  rcases hnext : switch.branches[n + 1]? with _ | next
  · rw [hnext] at hend
    simp [hend]
  · rw [hnext, Option.map_some, Option.getD_some] at hend
    have hlt := (hparts.isLabelOf (List.mem_of_getElem? hnext)).2.1
    have hall : body.all (·.1.kind == .whitespace) = true ↔
        ∀ i, b.colon < i → i < next.label → s.kindAt (· == .whitespace) i = true := by
      rw [List.all_eq_true, ← hend]
      constructor
      · intro hall i hcolon hi
        have hmem : i ∈ body.map (·.2) := by
          rw [TokenSeq.map_index_readRange h.body_eq]
          exact List.mem_range'_1.mpr ⟨hcolon, by rw [Branch.bodyStart]; omega⟩
        obtain ⟨entry, hentry, rfl⟩ := List.mem_map.mp hmem
        rw [TokenSeq.kindAt_of_get? ((TokenSeq.mem_readRange h.body_eq).mp hentry).2.2]
        exact hall entry hentry
      · intro hall entry hentry
        obtain ⟨hcolon, hi, ht⟩ := (TokenSeq.mem_readRange h.body_eq).mp hentry
        have hkind := hall entry.2 hcolon hi
        rwa [TokenSeq.kindAt_of_get? ht] at hkind
    rw [hall]
    constructor
    · rintro ⟨-, hwhite⟩
      exact ⟨next, rfl, hwhite⟩
    · rintro ⟨next', hnext', hwhite⟩
      cases hnext'
      exact ⟨by omega, hwhite⟩

/-- **Where the content of a branch ends**: at the first break in its body whose innermost scope is
that of the switch, or else with the body. -/
theorem bound_ofKeyword (h : ofKeyword s keyword marker = .ok (.ok switch))
    (hb : b ∈ switch.branches) : s.FirstWith (Token.breaks keyword) b.bodyStart b.bodyEnd b.bound ∨
      s.NoneWith (Token.breaks keyword) b.bodyStart b.bodyEnd ∧ b.bound = b.bodyEnd := by
  obtain ⟨body, hbody⟩ := searched_of_ofKeyword h b hb
  -- no break is found in a body without one; in one with a break it is, since the branch is not
  -- stacked
  rcases hfirst : s.first? (Token.breaks keyword) b.bodyStart b.bodyEnd with _ | i
  · refine Or.inr ⟨TokenSeq.first?_eq_none_iff.mp hfirst,
      Branch.bound_eq_iff.mpr (Or.inr ⟨?_, rfl⟩)⟩
    intro i hbreak
    rw [hbody.terminator_eq] at hbreak
    split at hbreak
    · cases hbreak
    · have hwith := (terminatorOf_eq_iff hbody.body_eq _).mp hbreak
      rw [TokenSeq.first?_eq_some_iff.mpr hwith] at hfirst
      cases hfirst
  · have hwith := TokenSeq.first?_eq_some_iff.mp hfirst
    have hstacked : b.stacked = false := by
      -- a break is no whitespace
      obtain ⟨t, ht, hbreaks⟩ := (Option.any_eq_true _ _).mp hwith.holds
      have hmem : (t, i) ∈ body :=
        (TokenSeq.mem_readRange hbody.body_eq).mpr ⟨hwith.start_le, hwith.lt_stop, ht⟩
      rw [hbody.stacked_eq, Bool.and_eq_false_iff]
      refine Or.inr (List.all_eq_false.mpr ⟨(t, i), hmem, ?_⟩)
      rw [Token.breaks, Bool.and_eq_true, beq_iff_eq] at hbreaks
      rw [hbreaks.1]
      decide
    have hbreak : b.terminator = .breakAt i := by
      rw [hbody.terminator_eq, hstacked, if_neg Bool.false_ne_true]
      exact (terminatorOf_eq_iff hbody.body_eq _).mpr hwith
    rw [Branch.bound_eq_iff.mpr (Or.inl hbreak)]
    exact Or.inl hwith

/-- A break that ends a branch stands in no scope that is opened in its body. The innermost scope
around it is that of the switch, which is opened in front of the label. -/
theorem not_openAt_of_breakAt {pairs : List (Kind × String)} {o : Nat}
    (hparts : Parts (TokenSeq.ofPairs pairs) keyword switch) (hb : b ∈ switch.branches)
    (hcolon : b.colon < o) (hi : (TokenSeq.ofPairs pairs).test (Token.breaks keyword) i = true)
    (hoi : o < i) :
    ¬ Braces.OpenAt (pairs.map (·.1)) (i + 1) o := by
  intro hopen
  obtain ⟨t, ht, hbreaks⟩ := (Option.any_eq_true _ _).mp hi
  rw [Token.breaks, Bool.and_eq_true, beq_iff_eq, beq_iff_eq] at hbreaks
  have howner : (TokenSeq.ofPairs pairs).owner i = some keyword := by
    rw [TokenSeq.owner, ht, Option.bind_some, hbreaks.2]
  have hle := (TokenSeq.innermost_ofPairs howner hparts.opener_eq).2 o hoi hopen
  have hopener := (hparts.isLabelOf hb).1
  have hlabel := (hparts.endsLabel hb).lt
  omega

/-- **How the branches of a switch end.** A body reaches to the next label or to the closing brace.
A branch is stacked exactly if another label follows and only whitespace stands between its colon
and that label; then nothing ends it. What ends any other branch is the first break in its body
whose innermost scope is that of the switch. If there is none, it is the last return, throw or
comment that starts with the marker, and the index is the greatest of what three searches find; if
there is none of these, nothing ends it. A break inside a brace of the body never does. -/
theorem terminators_ofKeyword (pairs : List (Kind × String)) (keyword : Nat) (marker : String)
    (switch : Switch) (h : ofKeyword (TokenSeq.ofPairs pairs) keyword marker = .ok (.ok switch))
    (n : Nat) (b : Branch) (hb : switch.branches[n]? = some b) :
    let s := TokenSeq.ofPairs pairs
    b.bodyEnd = ((switch.branches[n + 1]?).map (·.label)).getD switch.closer ∧
    (b.stacked = true ↔ ∃ next, switch.branches[n + 1]? = some next ∧
      ∀ i, b.colon < i → i < next.label → s.kindAt (· == .whitespace) i = true) ∧
    (b.stacked = true → b.terminator = .absent) ∧
    (b.stacked = false → ∀ terminator,
      b.terminator = terminator ↔ s.EndsBody keyword marker (b.colon + 1) b.bodyEnd terminator) ∧
    (b.stacked = false → s.NoneWith (Token.breaks keyword) (b.colon + 1) b.bodyEnd →
      b.terminator.index? =
        max (max (s.last? (·.kind == .kwReturn) (b.colon + 1) b.bodyEnd)
            (s.last? (·.kind == .kwThrow) (b.colon + 1) b.bodyEnd))
          (s.last? (fun t => t.kind == .comment && marksFallthrough marker t)
            (b.colon + 1) b.bodyEnd)) ∧
    ∀ o i, b.colon < o → o < i → Braces.OpenAt (pairs.map (·.1)) (i + 1) o →
      b.terminator ≠ .breakAt i := by
  intro s
  have hparts := parts_of_ofKeyword h
  have hmem := List.mem_of_getElem? hb
  obtain ⟨body, hsearched⟩ := searched_of_ofKeyword h b hmem
  have hterminator := hsearched.terminator_eq
  refine ⟨?_, hsearched.stacked_iff hparts hb, ?_, ?_, ?_, ?_⟩
  · rw [hparts.parted.bodyEnd_eq n b hb, List.getElem?_map]
  · intro hstacked
    rw [hterminator, if_pos hstacked]
  · intro hstacked terminator
    rw [hterminator, if_neg (by simp [hstacked])]
    exact terminatorOf_eq_iff hsearched.body_eq terminator
  · intro hstacked hnone
    rw [hterminator, if_neg (by simp [hstacked])]
    exact index_terminatorOf hsearched.body_eq hnone
  · intro o i hcolon hoi hopen hbreak
    rw [hterminator] at hbreak
    -- nothing ends a stacked branch, and what ends another one is no break in a brace
    split at hbreak
    · cases hbreak
    · have hfirst := (terminatorOf_eq_iff hsearched.body_eq _).mp hbreak
      exact not_openAt_of_breakAt hparts hmem hcolon hfirst.holds hoi hopen

/-- A switch with a stacked case, a case that ends in a comment behind a return and a throw, and a
default branch that ends in the second of three breaks. -/
def mixedSwitch : List (Kind × String) :=
  [(.kwSwitch, "switch"), (.openBrace, "\x7b"), (.kwCase, "case"), (.colon, ":"),
    (.whitespace, " "), (.kwCase, "case"), (.colon, ":"), (.kwReturn, "return"),
    (.kwThrow, "throw"), (.comment, "  // on purpose"), (.comment, "// end"),
    (.kwDefault, "default"), (.colon, ":"), (.controlKeyword, "if"), (.openBrace, "\x7b"),
    (.kwBreak, "break"), (.closeBrace, "\x7d"), (.kwBreak, "break"), (.kwBreak, "break"),
    (.closeBrace, "\x7d")]

/-- The comment is the last token that can end its case, and the break in the block does not end the
default branch. -/
theorem terminators_ofKeyword_mixedSwitch :
    ofKeyword (TokenSeq.ofPairs mixedSwitch) 0 "// on" =
      .ok (.ok ⟨0, 1, 19,
        [⟨2, false, 3, 5, true, .absent⟩, ⟨5, false, 6, 11, false, .fallthroughAt 9⟩,
          ⟨11, true, 12, 19, false, .breakAt 17⟩]⟩) ∧
    (TokenSeq.ofPairs mixedSwitch).EndsBody 0 "// on" 7 11 (.fallthroughAt 9) ∧
    (TokenSeq.ofPairs mixedSwitch).EndsBody 0 "// on" 13 19 (.breakAt 17) ∧
    ∀ o i, 12 < o → o < i → Braces.OpenAt (mixedSwitch.map (·.1)) (i + 1) o →
      Terminator.breakAt 17 ≠ .breakAt i := by
  have h : ofKeyword (TokenSeq.ofPairs mixedSwitch) 0 "// on" =
      .ok (.ok ⟨0, 1, 19,
        [⟨2, false, 3, 5, true, .absent⟩, ⟨5, false, 6, 11, false, .fallthroughAt 9⟩,
          ⟨11, true, 12, 19, false, .breakAt 17⟩]⟩) := by
    decide +kernel
  obtain ⟨-, -, -, hcase, -, -⟩ := terminators_ofKeyword mixedSwitch 0 "// on" _ h 1 _ rfl
  obtain ⟨-, -, -, hdefault, -, hnested⟩ := terminators_ofKeyword mixedSwitch 0 "// on" _ h 2 _ rfl
  exact ⟨h, (hcase rfl _).mp rfl, (hdefault rfl _).mp rfl, hnested⟩

end Switch

end PhpStyle
