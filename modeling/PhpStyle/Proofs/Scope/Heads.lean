import PhpStyle.Proofs.Scope.Enclosing

/-!
# Keywords and the heads of their scopes

Which brace a keyword owns, said of a list of kinds alone. `Awaits kinds n k` says that the keyword
`k` still waits for its brace at `n`. The waiting ends at the next keyword, semicolon or opening
brace, whatever parentheses stand around it.

The linker keeps the waiting keyword. `Linker.Keyed` says that it is the one that waits at `n`, and
that keywords so far are linked to the braces that they waited for; each step keeps it
(`Linker.Keyed.step`), and behind the pass a keyword is linked to a brace exactly if it waits for it
there (`TokenSeq.opener_keyword_ofPairs`). Inside the scope of a brace, a keyword is the innermost
owner exactly if it is linked to that brace (`TokenSeq.owner_iff_opener`), since the owners noted at
a token are known from the links.

A `Head` is what usually stands between a keyword and its brace: a group in parentheses, with trivia
around it. The parentheses do not shield what is inside. So behind a head a keyword owns the brace
exactly if the group has no keyword and no semicolon (`TokenSeq.opener_head`), and a loop that
counts, which has two semicolons there, never owns its body (`TokenSeq.opener_countingLoop`).
-/

namespace PhpStyle

open Braces

variable {kinds : List Kind} {n k o b j : Nat} {kind : Kind} {l : Linker}

/-! ### Keywords that wait -/

/-- Behind a token of this kind no keyword waits that stands in front of it. -/
def Kind.endsWaiting (kind : Kind) : Bool :=
  kind.ownsScope || kind == .semicolon || kind == .openBrace

/-- The keyword `k` stands before `n`, and no token between the two ends its waiting. -/
def Awaits (kinds : List Kind) (n k : Nat) : Prop :=
  KeywordAt kinds k ∧ k < n ∧
    ∀ j, k < j → j < n → ∀ kind, kinds[j]? = some kind → kind.endsWaiting = false

/-- The keyword that waits behind `n` is `n` itself, or the one that waited at `n` and goes on
waiting. -/
theorem awaits_succ_iff (hk : kinds[n]? = some kind) :
    Awaits kinds (n + 1) k ↔
      k = n ∧ kind.ownsScope = true ∨ Awaits kinds n k ∧ kind.endsWaiting = false := by
  constructor
  · rintro ⟨hkey, hkn, hbetween⟩
    rcases Nat.lt_succ_iff_lt_or_eq.mp hkn with hkn | rfl
    · exact Or.inr ⟨⟨hkey, hkn, fun j hkj hjn => hbetween j hkj (by omega)⟩,
        hbetween n hkn (by omega) kind hk⟩
    · obtain ⟨kind', hk', hown⟩ := hkey
      rw [hk, Option.some.injEq] at hk'
      exact Or.inl ⟨rfl, hk' ▸ hown⟩
  · rintro (⟨rfl, hown⟩ | ⟨⟨hkey, hkn, hbetween⟩, hends⟩)
    · exact ⟨⟨kind, hk, hown⟩, by omega, fun j hkj hjn => by omega⟩
    · refine ⟨hkey, by omega, fun j hkj hjn kind' hj => ?_⟩
      rcases Nat.lt_succ_iff_lt_or_eq.mp hjn with hjn | rfl
      · exact hbetween j hkj hjn kind' hj
      · rw [hk, Option.some.injEq] at hj
        exact hj ▸ hends

/-! ### The linker -/

namespace Linker

/-- What holds of keywords when the tokens before `n` have been taken in. -/
structure Keyed (kinds : List Kind) (n : Nat) (l : Linker) : Prop where
  /-- The waiting keyword is noted. -/
  waits : ∀ k, l.waiting = some k ↔ Awaits kinds n k
  /-- A keyword is linked to the brace for which it waited. -/
  opened : ∀ k, KeywordAt kinds k → ∀ o, l.seq.opener k = some o ↔
    o < n ∧ Awaits kinds o k ∧ kinds[o]? = some .openBrace

namespace Keyed

/-- The waiting keyword after a step. -/
theorem waits_after (h : Keyed kinds n l) (hk : kinds[n]? = some kind) (k : Nat) :
    (l.step kind n).waiting = some k ↔ Awaits kinds (n + 1) k := by
  rw [awaits_succ_iff hk, waiting_step, ← h.waits, Kind.endsWaiting]
  by_cases hown : kind.ownsScope = true
  · simp [hown, eq_comm]
  by_cases hends : kind = .semicolon ∨ kind = .openBrace
  · rcases hends with rfl | rfl
    · simp [hown]
    · simp [hown]
  · simp [hown, not_or.mp hends]

/-- The brace at `n` is linked to the keyword that waits for it. -/
theorem opener_last (h : Keyed kinds n l) (hpending : Pending kinds n l)
    (hk : kinds[n]? = some kind) (hkey : KeywordAt kinds k) :
    (l.step kind n).seq.opener k = some n ↔ Awaits kinds n k ∧ kinds[n]? = some .openBrace := by
  constructor
  · intro ho
    obtain ⟨hkn, -, hopen, -⟩ := (hpending.links_after hk).keyword_lt hkey ho
    rw [hk, Option.some.injEq] at hopen
    subst hopen
    refine ⟨?_, hk⟩
    rw [opener_step_openBrace (hpending.lt_size hk) fun k' hk' => ?_] at ho
    · -- an old link would go to an earlier brace
      by_contra hwaits
      rw [← h.waits] at hwaits
      rw [if_neg (not_or.mpr ⟨by omega, hwaits⟩)] at ho
      have := (hpending.links.keyword_lt hkey ho).2.1
      omega
    · have hsize := hpending.lt_size hk
      have := (hpending.waiting k' hk').1
      omega
  · rintro ⟨hwaits, hopen⟩
    rw [hk, Option.some.injEq] at hopen
    subst hopen
    have hsize := hpending.lt_size hk
    rw [opener_step_openBrace hsize fun k' hk' => ?_, if_pos (Or.inr ((h.waits k).mpr hwaits))]
    have := (hpending.waiting k' hk').1
    omega

/-- The links of keywords after a step. -/
theorem opened_after (h : Keyed kinds n l) (hpending : Pending kinds n l)
    (hk : kinds[n]? = some kind) (hkey : KeywordAt kinds k) (o : Nat) :
    (l.step kind n).seq.opener k = some o ↔
      o < n + 1 ∧ Awaits kinds o k ∧ kinds[o]? = some .openBrace := by
  -- links to earlier braces stay, one to `n` is new, and none goes further
  rcases Nat.lt_trichotomy o n with hon | rfl | hno
  · rw [hpending.opener_after hk hkey hon, h.opened k hkey]
    simp only [hon, Nat.lt_succ_of_lt hon]
  · rw [h.opener_last hpending hk hkey]
    simp only [Nat.lt_succ_self, true_and]
  · constructor
    · intro ho
      have := ((hpending.links_after hk).keyword_lt hkey ho).2.1
      omega
    · rintro ⟨hlt, -⟩
      omega

/-- **Each step keeps the keywords right.** -/
theorem step (h : Keyed kinds n l) (hpending : Pending kinds n l) (hk : kinds[n]? = some kind) :
    Keyed kinds (n + 1) (l.step kind n) where
  waits := h.waits_after hk
  opened _ hkey o := h.opened_after hpending hk hkey o

/-- At the start no keyword waits. -/
theorem start {tokens : Array Token} (hpending : Pending kinds 0 { tokens }) :
    Keyed kinds 0 { tokens } where
  waits k := by
    constructor
    · rintro ⟨⟩
    · rintro ⟨-, hk, -⟩
      omega
  opened k _ o := by
    rw [(hpending.links.fresh k (Nat.zero_le k)).1]
    constructor
    · rintro ⟨⟩
    · rintro ⟨ho, -⟩
      omega

end Keyed

end Linker

/-! ### Finished sequences -/

namespace TokenSeq

variable {pairs : List (Kind × String)}

/-- **A keyword is linked to the brace for which it waits.** -/
theorem opener_keyword_ofPairs (hkey : KeywordAt (pairs.map (·.1)) k) :
    (ofPairs pairs).opener k = some o ↔
      Awaits (pairs.map (·.1)) o k ∧ (pairs.map (·.1))[o]? = some .openBrace := by
  have hrun := ofPairs_induction pairs (P := Linker.Keyed (pairs.map (·.1)))
    (fun _ hpending => Linker.Keyed.start hpending) fun _ _ _ hk hpending h => h.step hpending hk
  refine (hrun.opened k hkey o).trans ⟨And.right, fun h => ⟨?_, h⟩⟩
  exact (List.getElem?_eq_some_iff.mp h.2).1

/-- Inside the scope of a brace, and in no scope inside it, a keyword is the innermost owner exactly
if it is linked to the brace. -/
theorem owner_iff_opener (hkey : KeywordAt (pairs.map (·.1)) k) (hj : j < (ofPairs pairs).size)
    (hb : ((ofPairs pairs).bracesAround j).head? = some b) :
    (ofPairs pairs).owner j = some k ↔ (ofPairs pairs).opener k = some b := by
  have hlinks := links_ofPairs pairs
  obtain ⟨scopes, henclosing, hchain, hsorted, hmem⟩ := around_ofPairs hj
  have hbraces : scopes.map (·.brace) = (ofPairs pairs).bracesAround j :=
    eq_of_sorted_of_mem_iff hsorted (bracesAround_sorted _ j) fun o =>
      (hmem o).trans hlinks.mem_bracesAround_iff_openAt.symm
  rw [owner_eq_head?, henclosing]
  rw [← hbraces] at hb
  cases scopes with
  | nil => cases hb
  | cons scope outer =>
      have hbrace : scope.brace = b := Option.some.inj hb
      have howned := hchain.owned scope List.mem_cons_self
      rw [List.map_cons, List.head?_cons, Option.some.injEq, ← hbrace]
      constructor
      · rintro rfl
        rcases howned with ⟨-, ho⟩ | ⟨hself, -⟩
        · exact ho
        · -- the brace is no keyword
          have hmem' : scope.brace ∈ (ofPairs pairs).bracesAround j := by
            rw [← hbraces]
            exact List.mem_cons_self
          exact absurd (hlinks.mem_bracesAround.mp hmem').2.1 (hself ▸ hkey.ne rfl)
      · intro ho
        exact (howned.eq_of_keyword hlinks hkey ho).symm

end TokenSeq

/-! ### Heads -/

/-- Parentheses in pairs: no more are closed than were opened, up to any place, and as many in
all. -/
def Balanced (kinds : List Kind) : Prop :=
  kinds.count .openParen = kinds.count .closeParen ∧
    ∀ n ≤ kinds.length, (kinds.take n).count .closeParen ≤ (kinds.take n).count .openParen

instance (kinds : List Kind) : Decidable (Balanced kinds) :=
  inferInstanceAs (Decidable (_ ∧ ∀ n ≤ kinds.length, _))

/-- What stands between a keyword and a brace: a group in parentheses without braces,
and trivia around it. -/
structure Head where
  /-- The trivia in front of the group. -/
  lead : List Kind := []
  /-- What stands in the parentheses. -/
  inner : List Kind
  /-- The trivia behind the group. -/
  trail : List Kind := []
  /-- Nothing but trivia stands in front of the group. -/
  lead_trivia : ∀ kind ∈ lead, kind.isTrivia = true
  /-- The parentheses in the group come in pairs. -/
  balanced : Balanced inner
  /-- There are no braces in the group. -/
  braceless : ∀ kind ∈ inner, kind ≠ .openBrace ∧ kind ≠ .closeBrace
  /-- Nothing but trivia stands behind the group. -/
  trail_trivia : ∀ kind ∈ trail, kind.isTrivia = true

namespace Head

/-- All kinds of a head, in order. -/
def toList (head : Head) : List Kind :=
  head.lead ++ .openParen :: (head.inner ++ .closeParen :: head.trail)

/-- There is no further keyword in the group, and no semicolon. -/
def Quiet (head : Head) : Prop :=
  ∀ kind ∈ head.inner, kind.ownsScope = false ∧ kind ≠ .semicolon

/-- Trivia let a keyword wait. -/
theorem endsWaiting_of_isTrivia (h : kind.isTrivia = true) : kind.endsWaiting = false := by
  revert h
  cases kind <;> decide

/-- A keyword waits behind a quiet head, and behind no other. -/
theorem quiet_iff (head : Head) :
    head.Quiet ↔ ∀ kind ∈ head.toList, kind.endsWaiting = false := by
  have hinner : ∀ kind ∈ head.inner,
      (kind.ownsScope = false ∧ kind ≠ .semicolon ↔ kind.endsWaiting = false) := by
    intro kind hmem
    simp [Kind.endsWaiting, (head.braceless kind hmem).1]
  have hparens : Kind.endsWaiting .openParen = false ∧ Kind.endsWaiting .closeParen = false := by
    decide
  unfold Quiet toList
  simp only [List.forall_mem_append, List.forall_mem_cons]
  constructor
  · intro h
    exact ⟨fun kind hmem => endsWaiting_of_isTrivia (head.lead_trivia kind hmem), hparens.1,
      fun kind hmem => (hinner kind hmem).mp (h kind hmem), hparens.2,
      fun kind hmem => endsWaiting_of_isTrivia (head.trail_trivia kind hmem)⟩
  · rintro ⟨-, -, h, -⟩ kind hmem
    exact (hinner kind hmem).mpr (h kind hmem)

end Head

/-- A keyword waits behind what follows it exactly if nothing there ends its waiting. -/
theorem awaits_append_iff {before between after : List Kind} {word : Kind}
    (hword : word.ownsScope = true) :
    Awaits (before ++ word :: (between ++ after)) (before.length + 1 + between.length)
      before.length ↔ ∀ kind ∈ between, kind.endsWaiting = false := by
  have hat : ∀ i, (before ++ word :: (between ++ after))[before.length + 1 + i]? =
      (between ++ after)[i]? := by
    intro i
    rw [List.getElem?_append_right (by omega), show before.length + 1 + i - before.length =
      i + 1 by omega, List.getElem?_cons_succ]
  constructor
  · rintro ⟨-, -, hbetween⟩ kind hmem
    obtain ⟨i, hi, rfl⟩ := List.mem_iff_getElem.mp hmem
    refine hbetween (before.length + 1 + i) (by omega) (by omega) _ ?_
    rw [hat, List.getElem?_append_left hi, List.getElem?_eq_getElem hi]
  · intro h
    refine ⟨⟨word, by simp, hword⟩, by omega, fun j hkj hjn kind hj => ?_⟩
    obtain ⟨i, rfl⟩ := Nat.exists_eq_add_of_le (show before.length + 1 ≤ j by omega)
    rw [hat, List.getElem?_append_left (by omega)] at hj
    exact h kind (List.mem_of_getElem? hj)

namespace TokenSeq

/-- **A keyword and the brace behind its head.** Let a keyword be followed by trivia, a group in
parentheses without braces, trivia and an opening brace. It is linked to the brace exactly if there
is no keyword and no semicolon in the group; and exactly then it is the innermost owner at the
tokens of the scope that stand in no scope inside it. -/
theorem opener_head (pairs : List (Kind × String)) (before after : List Kind)
    (word : Kind) (head : Head)
    (hkinds : pairs.map (·.1) = before ++ word :: (head.toList ++ .openBrace :: after))
    (hword : word.ownsScope = true) :
    let s := ofPairs pairs
    let k := before.length
    let b := k + 1 + head.toList.length
    (s.opener k = some b ↔ head.Quiet) ∧
      ∀ j, j < s.size → (s.bracesAround j).head? = some b → (s.owner j = some k ↔ head.Quiet) := by
  intro s k b
  have hkey : KeywordAt (pairs.map (·.1)) k := ⟨word, by simp [hkinds, k], hword⟩
  have hopen : (pairs.map (·.1))[b]? = some .openBrace := by
    rw [hkinds, List.getElem?_append_right (by omega), show b - before.length =
      head.toList.length + 1 by omega, List.getElem?_cons_succ, List.getElem?_append_right le_rfl]
    simp
  have hopener : s.opener k = some b ↔ head.Quiet := by
    rw [opener_keyword_ofPairs hkey, and_iff_left hopen, hkinds, awaits_append_iff hword,
      head.quiet_iff]
  refine ⟨hopener, fun j hj hb => ?_⟩
  rw [owner_iff_opener hkey hj hb, hopener]

/-- A loop over a condition with a call in it: `while (f ()) { g; }`. -/
def plainLoop : List (Kind × String) :=
  [(.controlKeyword, "while"), (.whitespace, " "), (.openParen, "("), (.identifier, "f"),
    (.whitespace, " "), (.openParen, "("), (.closeParen, ")"), (.closeParen, ")"),
    (.whitespace, " "), (.openBrace, "\x7b"), (.whitespace, " "), (.identifier, "g"),
    (.semicolon, ";"), (.whitespace, " "), (.closeBrace, "\x7d")]

/-- The head of this loop. -/
def plainHead : Head where
  lead := [.whitespace]
  inner := [.identifier, .whitespace, .openParen, .closeParen]
  trail := [.whitespace]
  lead_trivia := by decide
  balanced := by decide
  braceless := by decide
  trail_trivia := by decide

/-- The loop owns its body. -/
theorem opener_head_plainLoop :
    plainLoop.map (·.1) = [] ++ .controlKeyword :: (plainHead.toList ++ .openBrace ::
      [.whitespace, .identifier, .semicolon, .whitespace, .closeBrace]) ∧
    (ofPairs plainLoop).opener 0 = some 9 ∧ (ofPairs plainLoop).owner 11 = some 0 := by
  have hkinds : plainLoop.map (·.1) = [] ++ .controlKeyword :: (plainHead.toList ++ .openBrace ::
      [.whitespace, .identifier, .semicolon, .whitespace, .closeBrace]) := by decide
  have hquiet : plainHead.Quiet := by unfold Head.Quiet; decide
  obtain ⟨hopener, howner⟩ := opener_head plainLoop [] _ .controlKeyword plainHead hkinds rfl
  exact ⟨hkinds, hopener.mpr hquiet, (howner 11 (by decide +kernel) (by decide +kernel)).mpr hquiet⟩

/-- A loop that counts, `for (;;) { f; }`, and a switch over the name of a class,
`switch (A::class) { default: }`. -/
def countingLoop : List (Kind × String) :=
  [(.controlKeyword, "for"), (.openParen, "("), (.semicolon, ";"), (.semicolon, ";"),
    (.closeParen, ")"), (.openBrace, "\x7b"), (.identifier, "f"), (.semicolon, ";"),
    (.closeBrace, "\x7d"), (.kwSwitch, "switch"), (.openParen, "("), (.identifier, "A"),
    (.doubleColon, "::"), (.kwClass, "class"), (.closeParen, ")"), (.openBrace, "\x7b"),
    (.kwDefault, "default"), (.colon, ":"), (.closeBrace, "\x7d")]

/-- The head of the loop. -/
def countingHead : Head where
  inner := [.semicolon, .semicolon]
  lead_trivia := by decide
  balanced := by decide
  braceless := by decide
  trail_trivia := by decide

/-- The head of the switch. -/
def classHead : Head where
  inner := [.identifier, .doubleColon, .kwClass]
  lead_trivia := by decide
  balanced := by decide
  braceless := by decide
  trail_trivia := by decide

/-- **Not every keyword owns the brace behind its head.** The semicolons in the head of the
loop leave its brace to itself, and the word `class` in the head of the switch takes the
brace of the switch. -/
theorem opener_countingLoop :
    (countingLoop.map (·.1) = [] ++ .controlKeyword :: (countingHead.toList ++ .openBrace ::
      (countingLoop.map (·.1)).drop 6)) ∧
    (ofPairs countingLoop).opener 0 = none ∧ (ofPairs countingLoop).owner 6 = some 5 ∧
    (countingLoop.map (·.1) = (countingLoop.map (·.1)).take 9 ++ .kwSwitch :: (classHead.toList ++
      .openBrace :: [.kwDefault, .colon, .closeBrace])) ∧
    (ofPairs countingLoop).opener 9 = none ∧ (ofPairs countingLoop).owner 16 = some 13 := by
  decide +kernel

end TokenSeq

end PhpStyle
