import PhpStyle.Proofs.Scope.Links

/-!
# What the linker keeps true

The linker goes through the tokens once, with a stack of open scopes, a keyword that waits for its
brace and a label that waits for its colon. `Linker.Pending kinds n l` says what holds of it when it
has taken in the tokens before `n`: the links are as `Links` describes them, the open scopes are
those of the braces open at `n`, and a keyword that waits for a brace stands behind every brace
opened so far.

The proof is one step (`Linker.Pending.step`) and an induction over the pass
(`TokenSeq.ofPairs_induction`). The step is put together from one lemma for each part of the state,
and each of these asks which of four things the token is: an opening brace, a closing brace, a colon
at the depth of the waiting label, or none of them, in which case nothing is written. The one part
that needs the others is the chain of open scopes (`chain_after`): the owner of a scope is found
from the links, and a later step could give a keyword another brace. It does not, because a keyword
that has a brace waits no more, and so its link to an earlier brace stays (`opener_after`).

Behind the pass this gives `TokenSeq.links_ofPairs`: every finished sequence is linked as `Links`
says. Nothing is said here of which brace a keyword waits for, and which colon a label gets; a
further property of that sort is carried along by the same induction, with a step lemma of its own.
-/

namespace PhpStyle

open Braces

variable {kinds : List Kind} {n k j : Nat} {kind : Kind} {l : Linker} {scope : Scope}

/-! ### The state of the pass -/

namespace Linker

/-- What holds when the tokens before `n` have been taken in. -/
structure Pending (kinds : List Kind) (n : Nat) (l : Linker) : Prop where
  /-- The links written so far. -/
  links : Links kinds n l.seq
  /-- The open scopes are those of the braces open at `n`. -/
  stack : IsStack kinds n (l.scopes.map (·.brace))
  /-- They lie in each other. -/
  chain : Chain kinds l.seq l.scopes
  /-- A waiting keyword has no brace yet, and stands behind every brace opened so far. -/
  waiting : ∀ k, l.waiting = some k → k < n ∧ KeywordAt kinds k ∧ l.seq.opener k = none ∧
    ∀ o, o < n → kinds[o]? = some .openBrace → o < k
  /-- A waiting label is one. -/
  label : ∀ k depth, l.label = some (k, depth) → k < n ∧ LabelAt kinds k
  /-- The owners noted at a token are those of the scopes around it. -/
  around : ∀ j, j < n → ∃ scopes, l.seq.enclosing j = scopes.map (·.owner) ∧
    Chain kinds l.seq scopes ∧ (scopes.map (·.brace)).Pairwise (· > ·) ∧
    ∀ o, o ∈ scopes.map (·.brace) ↔ o < j ∧ OpenAt kinds (j + 1) o
  /-- The unmatched closing braces are noted, the last one first. -/
  unmatched_sorted : l.unmatched.Pairwise (· > ·)
  /-- They are those that close nothing. -/
  mem_unmatched : ∀ c, c ∈ l.unmatched ↔
    c < n ∧ kinds[c]? = some .closeBrace ∧ ∀ o, ¬ Closes kinds c o

namespace Pending

/-- The braces of the open scopes stand before `n`. -/
theorem brace_lt (h : Pending kinds n l) (hmem : scope ∈ l.scopes) : scope.brace < n :=
  ((h.stack.mem_iff _).mp (List.mem_map_of_mem hmem)).2.1

/-- An index that is being taken in is one of a token. -/
theorem lt_size (h : Pending kinds n l) (hk : kinds[n]? = some kind) : n < l.seq.size := by
  rw [← TokenSeq.length_kinds, h.links.kinds_eq]
  exact (List.getElem?_eq_some_iff.mp hk).1

/-- At a closing brace the innermost scope is the one that it closes. -/
theorem closes_innermost (h : Pending kinds n l) (hk : kinds[n]? = some .closeBrace)
    {outer : List Scope} (hl : l.scopes = scope :: outer) : Closes kinds n scope.brace := by
  have hstack := h.stack
  rw [hl, List.map_cons] at hstack
  exact hstack.closes_top hk

/-- A token of another kind is another token than the one that is being taken in. -/
theorem index_ne {other : Kind} (hk : kinds[n]? = some kind) (hj : kinds[j]? = some other)
    (hne : kind ≠ other) : j ≠ n := by
  rintro rfl
  exact hne (Option.some.inj (hk.symm.trans hj))

/-- Without an open scope nothing is closed. -/
theorem not_closes (h : Pending kinds n l) (hl : l.scopes = []) (o : Nat) :
    ¬ Closes kinds n o := by
  have hstack := h.stack
  rw [hl, List.map_nil] at hstack
  exact hstack.not_closes_of_nil o

/-- The links after a step. -/
theorem links_after (h : Pending kinds n l) (hk : kinds[n]? = some kind) :
    Links kinds (n + 1) (l.step kind n).seq := by
  have hn := h.lt_size hk
  -- an opening brace is linked to the keyword that waits, if there is one
  by_cases hopen : kind = .openBrace
  · subst hopen
    have hopens : OpensScope kinds n l.seq l.waiting (l.step .openBrace n).seq := by
      refine ⟨kinds_step, hk, ?_, ?_, fun j => closer_step_of_ne (by simp)⟩
      · intro k hwk
        obtain ⟨hkn, hkey, hnone, -⟩ := h.waiting k hwk
        exact ⟨hkn, hkey, hnone⟩
      · intro j
        refine opener_step_openBrace hn fun k hwk => ?_
        have := (h.waiting k hwk).1
        omega
    exact h.links.opened hopens
  -- a closing brace ends the innermost scope, if there is one
  by_cases hclose : kind = .closeBrace
  · subst hclose
    rcases hl : l.scopes with _ | ⟨scope, outer⟩
    · exact h.links.quiet kinds_step (fun j => opener_step_closeBrace_nil hl)
        (fun j => closer_step_closeBrace_nil hl) (by simp [hk]) (h.not_closes hl)
    · have hmem : scope ∈ l.scopes := by rw [hl]; exact List.mem_cons_self
      have howned := h.chain.owned scope hmem
      have hbn := h.brace_lt hmem
      have hwb := howned.owner_le h.links
      exact h.links.closed ⟨kinds_step, h.closes_innermost hk hl, howned,
        fun j => opener_step_closeBrace hn hl,
        fun j => closer_step_closeBrace hn (by omega) (by omega) hl⟩
  have hquiet : ∀ o, ¬ Closes kinds n o := not_closes_of_kind (by simpa [hk] using hclose)
  have hne : kinds[n]? ≠ some .openBrace := by simpa [hk] using hopen
  -- a colon ends the label that waits, if it stands as deep; no brace is closed here
  by_cases hcolon : kind = .colon
  · subst hcolon
    by_cases hl : ∃ label, l.label = some (label, l.depth)
    · obtain ⟨label, hl⟩ := hl
      obtain ⟨hlt, hlabel⟩ := h.label label l.depth hl
      have hskip : Links kinds (n + 1) l.seq :=
        h.links.quiet rfl (fun _ => rfl) (fun _ => rfl) hne hquiet
      exact hskip.linkLabel kinds_step hlt hlabel hk
        (fun j => opener_step_colon (by omega) hl) (fun j => closer_step_of_ne (by simp))
    · exact h.links.quiet kinds_step (fun j => opener_step_colon_of_ne (not_exists.mp hl))
        (fun j => closer_step_of_ne (by simp)) hne hquiet
  · exact h.links.quiet kinds_step (fun j => opener_step_of_ne hopen hclose hcolon)
      (fun j => closer_step_of_ne hclose) hne hquiet

/-- The open scopes after a step. -/
theorem stack_after (h : Pending kinds n l) (hk : kinds[n]? = some kind) :
    IsStack kinds (n + 1) ((l.step kind n).scopes.map (·.brace)) := by
  by_cases hopen : kind = .openBrace
  · subst hopen
    exact h.stack.push hk
  by_cases hclose : kind = .closeBrace
  · subst hclose
    have hstack := h.stack
    rw [scopes_step_closeBrace]
    rcases hl : l.scopes with _ | ⟨scope, outer⟩
    · rw [hl] at hstack
      exact hstack.keep (by simp [hk]) (h.not_closes hl)
    · rw [hl] at hstack
      exact hstack.pop hk
  · rw [scopes_step_of_ne hopen hclose]
    exact h.stack.keep (by simpa [hk] using hopen)
      (not_closes_of_kind (by simpa [hk] using hclose))

/-- A step changes no link of a keyword to a brace before `n`. -/
theorem opener_after (h : Pending kinds n l) (hk : kinds[n]? = some kind)
    (hkey : KeywordAt kinds k) {b : Nat} (hb : b < n) :
    (l.step kind n).seq.opener k = some b ↔ l.seq.opener k = some b := by
  have hn := h.lt_size hk
  by_cases hopen : kind = .openBrace
  · subst hopen
    have hsize : ∀ k, l.waiting = some k → k < l.seq.size := by
      intro k hwk
      have := (h.waiting k hwk).1
      omega
    rw [opener_step_openBrace hn hsize]
    split
    · next hor =>
      -- the keyword was waiting, so it had no link; the new one is to `n`
      have hkn : k ≠ n := by
        rintro rfl
        exact hkey.ne rfl hk
      rw [(h.waiting k (hor.resolve_left hkn)).2.2.1]
      simp only [Option.some.injEq, reduceCtorEq, iff_false]
      omega
    · rfl
  by_cases hclose : kind = .closeBrace
  · subst hclose
    have hkn : k ≠ n := by
      rintro rfl
      exact hkey.ne rfl hk
    rcases hl : l.scopes with _ | ⟨scope, outer⟩
    · rw [opener_step_closeBrace_nil hl]
    · rw [opener_step_closeBrace hn hl, if_neg hkn]
  by_cases hcolon : kind = .colon
  · subst hcolon
    by_cases hl : ∃ label, l.label = some (label, l.depth)
    · obtain ⟨label, hl⟩ := hl
      obtain ⟨hlt, hlabel⟩ := h.label label l.depth hl
      have hkl : k ≠ label := by
        rintro rfl
        exact hkey.not_labelAt hlabel
      rw [opener_step_colon (by omega) hl, if_neg hkl]
    · rw [opener_step_colon_of_ne (not_exists.mp hl)]
  · rw [opener_step_of_ne hopen hclose hcolon]

/-- The chain of open scopes after a step. A keyword that waited for the brace stands behind the
braces of the scopes around it. -/
theorem chain_after (h : Pending kinds n l) (hk : kinds[n]? = some kind) :
    Chain kinds (l.step kind n).seq (l.step kind n).scopes := by
  have hold : Chain kinds (l.step kind n).seq l.scopes :=
    h.chain.congr fun scope hmem k hkey => h.opener_after hk hkey (h.brace_lt hmem)
  by_cases hopen : kind = .openBrace
  · subst hopen
    have hn := h.lt_size hk
    have hsize : ∀ k, l.waiting = some k → k < l.seq.size := by
      intro k hwk
      have := (h.waiting k hwk).1
      omega
    have hbehind : ∀ scope ∈ l.scopes, scope.brace < l.waiting.getD n := by
      intro scope hmem
      have hbn := h.brace_lt hmem
      rcases hw : l.waiting with _ | k
      · exact hbn
      · have hkind := ((h.stack.mem_iff _).mp (List.mem_map_of_mem hmem)).1
        exact (h.waiting k hw).2.2.2 _ hbn hkind
    rw [scopes_step_openBrace]
    refine ⟨List.pairwise_cons.mpr ⟨hbehind, h.chain.nested⟩, fun scope hmem => ?_⟩
    rcases List.mem_cons.mp hmem with rfl | hmem
    · rcases hw : l.waiting with _ | k
      · -- no keyword waits, and no old link goes to `n`
        refine Or.inr ⟨rfl, fun k hkey ho => ?_⟩
        have hkn : k ≠ n := by
          rintro rfl
          exact hkey.ne rfl hk
        rw [opener_step_openBrace hn hsize, if_neg (by simp [hkn, hw])] at ho
        have hlt : n < n := (h.links.keyword_lt hkey ho).2.1
        exact lt_irrefl n hlt
      · refine Or.inl ⟨(h.waiting k hw).2.1, ?_⟩
        rw [opener_step_openBrace hn hsize]
        exact if_pos (Or.inr hw)
    · exact hold.owned scope hmem
  by_cases hclose : kind = .closeBrace
  · subst hclose
    rw [scopes_step_closeBrace]
    exact hold.tail
  · rw [scopes_step_of_ne hopen hclose]
    exact hold

/-- The waiting keyword after a step. -/
theorem waiting_after (h : Pending kinds n l) (hk : kinds[n]? = some kind) {k : Nat}
    (hw : (l.step kind n).waiting = some k) :
    k < n + 1 ∧ KeywordAt kinds k ∧ (l.step kind n).seq.opener k = none ∧
      ∀ o, o < n + 1 → kinds[o]? = some .openBrace → o < k := by
  rw [waiting_step] at hw
  -- the token is a keyword: it starts to wait, and nothing is linked to it yet
  split at hw
  · next hown =>
    cases hw
    refine ⟨by omega, ⟨kind, hk, hown⟩, ?_, fun o ho hko => ?_⟩
    · have hne : kind ≠ .openBrace ∧ kind ≠ .closeBrace ∧ kind ≠ .colon := by
        refine ⟨?_, ?_, ?_⟩ <;> rintro rfl <;> cases hown
      rw [opener_step_of_ne hne.1 hne.2.1 hne.2.2]
      exact (h.links.fresh n le_rfl).1
    · have hon : o ≠ n := index_ne hk hko (by rintro rfl; cases hown)
      omega
  · split at hw
    · cases hw
    · next hne =>
      -- the keyword waited before, and the token is no brace, so it still has no link
      obtain ⟨hkn, hkey, hnone, hbehind⟩ := h.waiting k hw
      have hopen : kind ≠ .openBrace := fun heq => hne (Or.inr heq)
      refine ⟨by omega, hkey, ?_, fun o ho hko => ?_⟩
      · rw [Option.eq_none_iff_forall_ne_some]
        intro b hb
        have hlinks := h.links_after hk
        have hbn : b < n := by
          obtain ⟨-, hlt, hkb, -⟩ := hlinks.keyword_lt hkey hb
          have hbn : b ≠ n := index_ne hk hkb hopen
          omega
        rw [h.opener_after hk hkey hbn, hnone] at hb
        cases hb
      · have hon : o ≠ n := index_ne hk hko hopen
        exact hbehind o (by omega) hko

/-- The waiting label after a step. -/
theorem label_after (h : Pending kinds n l) (hk : kinds[n]? = some kind) {k depth : Nat}
    (hl : (l.step kind n).label = some (k, depth)) : k < n + 1 ∧ LabelAt kinds k := by
  have hold : l.label = some (k, depth) → k < n + 1 ∧ LabelAt kinds k := by
    intro hl
    obtain ⟨hkn, hlabel⟩ := h.label k depth hl
    exact ⟨by omega, hlabel⟩
  by_cases hcolon : kind = .colon
  · subst hcolon
    by_cases hex : ∃ label, l.label = some (label, l.depth)
    · obtain ⟨label, hex⟩ := hex
      rw [label_step_colon hex] at hl
      cases hl
    · rw [label_step_colon_of_ne (not_exists.mp hex)] at hl
      exact hold hl
  · rw [label_step_of_ne hcolon] at hl
    split at hl
    · next hlabel =>
      cases hl
      exact ⟨by omega, kind, hk, hlabel⟩
    · exact hold hl

/-- The owners noted at a token are not changed by later steps, and those noted at `n` are of the
scopes around it. -/
theorem around_after (h : Pending kinds n l) (hk : kinds[n]? = some kind) (hj : j < n + 1) :
    ∃ scopes, (l.step kind n).seq.enclosing j = scopes.map (·.owner) ∧
      Chain kinds (l.step kind n).seq scopes ∧ (scopes.map (·.brace)).Pairwise (· > ·) ∧
      ∀ o, o ∈ scopes.map (·.brace) ↔ o < j ∧ OpenAt kinds (j + 1) o := by
  have hn := h.lt_size hk
  rw [enclosing_step hn]
  rcases Nat.lt_succ_iff_lt_or_eq.mp hj with hj | rfl
  · obtain ⟨scopes, henc, hchain, hsorted, hmem⟩ := h.around j hj
    refine ⟨scopes, by rw [if_neg (by omega), henc], hchain.congr ?_, hsorted, hmem⟩
    intro scope hscope k hkey
    have hlt := ((hmem _).mp (List.mem_map_of_mem hscope)).1
    exact h.opener_after hk hkey (by omega)
  rw [if_pos rfl]
  have hstack := h.stack_after hk
  have hchain := h.chain_after hk
  by_cases hopen : kind = .openBrace
  · -- the scope that the brace opens is not around the brace
    subst hopen
    rw [scopes_step_openBrace] at hstack hchain
    refine ⟨l.scopes, by simp, hchain.tail, h.stack.sorted, fun o => ?_⟩
    rw [h.stack.mem_iff, openAt_succ_iff]
    have hclose : ∀ o, ¬ Closes kinds j o := not_closes_of_kind (by simp [hk])
    constructor
    · intro ho
      exact ⟨ho.2.1, Or.inr ⟨ho, hclose o⟩⟩
    · rintro ⟨hoj, ⟨rfl, -⟩ | ⟨ho, -⟩⟩
      · omega
      · exact ho
  · have hscopes : (if kind = .closeBrace then l.scopes.tail else l.scopes) =
        (l.step kind j).scopes := by
      split
      · next hclose => rw [hclose, scopes_step_closeBrace]
      · next hclose => rw [scopes_step_of_ne hopen hclose]
    rw [hscopes]
    refine ⟨_, rfl, hchain, hstack.sorted, fun o => ?_⟩
    rw [hstack.mem_iff]
    refine ⟨fun ho => ⟨?_, ho⟩, fun ho => ho.2⟩
    have hoj : o ≠ j := index_ne hk ho.1 hopen
    have := ho.2.1
    omega

/-- The unmatched closing braces after a step. -/
theorem unmatched_after (h : Pending kinds n l) (hk : kinds[n]? = some kind) :
    (l.step kind n).unmatched.Pairwise (· > ·) ∧
      ∀ c, c ∈ (l.step kind n).unmatched ↔
        c < n + 1 ∧ kinds[c]? = some .closeBrace ∧ ∀ o, ¬ Closes kinds c o := by
  rw [unmatched_step]
  -- one more unmatched brace if a closing brace meets no open scope
  split
  · next hnil =>
    obtain ⟨rfl, hl⟩ := hnil
    refine ⟨List.pairwise_cons.mpr ⟨fun c hc => ((h.mem_unmatched c).mp hc).1,
      h.unmatched_sorted⟩, fun c => ?_⟩
    rw [List.mem_cons, h.mem_unmatched]
    constructor
    · rintro (rfl | ⟨hc, hrest⟩)
      · exact ⟨by omega, hk, h.not_closes hl⟩
      · exact ⟨by omega, hrest⟩
    · rintro ⟨hc, hrest⟩
      rcases Nat.lt_succ_iff_lt_or_eq.mp hc with hc | rfl
      · exact Or.inr ⟨hc, hrest⟩
      · exact Or.inl rfl
  · next hne =>
    refine ⟨h.unmatched_sorted, fun c => ?_⟩
    rw [h.mem_unmatched]
    constructor
    · rintro ⟨hc, hrest⟩
      exact ⟨by omega, hrest⟩
    · rintro ⟨hc, hkc, hnone⟩
      have hcn : c ≠ n := by
        rintro rfl
        rw [hk, Option.some.injEq] at hkc
        rcases hl : l.scopes with _ | ⟨scope, outer⟩
        · exact hne ⟨hkc, hl⟩
        · exact hnone _ (h.closes_innermost (hkc ▸ hk) hl)
      exact ⟨by omega, hkc, hnone⟩

/-- **Each step keeps the state sound.** -/
theorem step (h : Pending kinds n l) (hk : kinds[n]? = some kind) :
    Pending kinds (n + 1) (l.step kind n) where
  links := h.links_after hk
  stack := h.stack_after hk
  chain := h.chain_after hk
  waiting _ hw := h.waiting_after hk hw
  label _ _ hl := h.label_after hk hl
  around _ hj := h.around_after hk hj
  unmatched_sorted := (h.unmatched_after hk).1
  mem_unmatched := (h.unmatched_after hk).2

/-- At the start nothing is linked and nothing waits. -/
theorem start {tokens : Array Token} (hopener : ∀ t ∈ tokens, t.opener = none)
    (hcloser : ∀ t ∈ tokens, t.closer = none) :
    Pending (TokenSeq.mk tokens).kinds 0 { tokens } where
  links := by
    have hfree : ∀ {g : Token → Option Nat}, (∀ t ∈ tokens, g t = none) → ∀ j,
        ((TokenSeq.mk tokens).get? j).bind g = none := by
      intro g hg j
      rcases ht : (TokenSeq.mk tokens).get? j with _ | t
      · rfl
      · exact hg t (Array.mem_of_getElem? ht)
    have ho : ∀ j, (TokenSeq.mk tokens).opener j = none := hfree hopener
    have hc : ∀ j, (TokenSeq.mk tokens).closer j = none := hfree hcloser
    -- no token has been taken in, and so all statements about earlier ones are empty
    refine ⟨rfl, fun j _ => ⟨ho j, hc j⟩, ?opening, ?closing, ?keyword, ?unique, ?label, ?plain⟩
    case opening =>
      exact fun o h0 => absurd h0 (Nat.not_lt_zero o)
    case closing =>
      exact fun c h0 => absurd h0 (Nat.not_lt_zero c)
    case keyword =>
      exact fun k h0 => absurd h0 (Nat.not_lt_zero k)
    case unique =>
      intro k k' o _ _ hk
      change (TokenSeq.mk tokens).opener k = some o at hk
      rw [ho] at hk
      cases hk
    case label =>
      exact fun k h0 => absurd h0 (Nat.not_lt_zero k)
    case plain =>
      exact fun k kind h0 => absurd h0 (Nat.not_lt_zero k)
  stack := IsStack.nil
  chain := ⟨List.Pairwise.nil, fun _ hmem => absurd hmem List.not_mem_nil⟩
  waiting _ hw := by cases hw
  label _ _ hl := by cases hl
  around j h0 := absurd h0 (Nat.not_lt_zero j)
  unmatched_sorted := List.Pairwise.nil
  mem_unmatched c := by simp

end Pending

end Linker

/-! ### Finished sequences -/

namespace Builder

/-- What does not depend on the place of a token is seen in the pairs. -/
theorem map_tokens_pushAll {α : Type} {g : Token → α} {f : Kind × String → α}
    (hg : ∀ (p : Position) kind text, g { p with kind, text } = f (kind, text))
    (pairs : List (Kind × String)) (b : Builder) :
    (b.pushAll pairs).tokens.toList.map g = b.tokens.toList.map g ++ pairs.map f := by
  induction pairs generalizing b with
  | nil => simp [pushAll]
  | cons pair pairs ih =>
      have hpush : b.pushAll (pair :: pairs) = (b.push pair.1 pair.2).pushAll pairs := rfl
      rw [hpush, ih]
      simp [push, hg]

/-- A builder links nothing. -/
theorem bare_of_mem_pushAll (pairs : List (Kind × String)) (b : Builder)
    (hb : ∀ t ∈ b.tokens, t.bare = t) : ∀ t ∈ (b.pushAll pairs).tokens, t.bare = t := by
  induction pairs generalizing b with
  | nil => exact hb
  | cons pair pairs ih =>
      refine ih (b.push pair.1 pair.2) fun t ht => ?_
      rcases Array.mem_push.mp ht with ht | rfl
      · exact hb t ht
      · rfl

/-- The kinds of the tokens built are those that were given. -/
theorem kinds_pushAll (pairs : List (Kind × String)) :
    (TokenSeq.mk (pushAll {} pairs).tokens).kinds = pairs.map (·.1) := by
  have h := map_tokens_pushAll (g := fun t => t.kind) (f := fun pair => pair.1)
    (fun _ _ _ => rfl) pairs {}
  simpa [TokenSeq.kinds] using h

end Builder

namespace TokenSeq

variable (pairs : List (Kind × String))

/-- Apart from its links, a finished sequence is what was built. -/
theorem bare_ofPairs : (ofPairs pairs).bare = (Builder.pushAll {} pairs).tokens.toList := by
  have hbare := Builder.bare_of_mem_pushAll pairs {} (by simp)
  refine (Linker.bare_run (Builder.pushAll {} pairs).tokens).trans ?_
  rw [bare, List.map_congr_left fun t ht => hbare t (Array.mem_toList_iff.mp ht), List.map_id']

/-- **Induction over the pass that finishes a sequence.** What holds of tokens without links, and is
kept by each step of the pass, holds behind it. -/
theorem ofPairs_induction {P : Nat → Linker → Prop}
    (hstart : ∀ tokens : Array Token, Linker.Pending (pairs.map (·.1)) 0 { tokens } →
      P 0 { tokens })
    (hstep : ∀ n l kind, (pairs.map (·.1))[n]? = some kind → Linker.Pending (pairs.map (·.1)) n l →
      P n l → P (n + 1) (l.step kind n)) :
    P (pairs.map (·.1)).length (Linker.run (Builder.pushAll {} pairs).tokens) := by
  have hbare := Builder.bare_of_mem_pushAll pairs {} (by simp)
  have hpending := Linker.Pending.start (fun t ht => by rw [← hbare t ht]; rfl)
    (fun t ht => by rw [← hbare t ht]; rfl)
  rw [Builder.kinds_pushAll] at hpending
  have hrun := Linker.run_induction (P := fun n l => Linker.Pending (pairs.map (·.1)) n l ∧ P n l)
    ⟨hpending, hstart _ hpending⟩ fun n l kind hk h => by
      rw [Builder.kinds_pushAll] at hk
      exact ⟨h.1.step hk, hstep n l kind hk h.1 h.2⟩
  rw [← Builder.kinds_pushAll, length_kinds]
  exact hrun.2

/-- The state behind the pass that finishes a sequence. -/
theorem pending_ofPairs :
    Linker.Pending (pairs.map (·.1)) (pairs.map (·.1)).length
      (Linker.run (Builder.pushAll {} pairs).tokens) :=
  ofPairs_induction pairs (fun _ h => h) fun _ _ _ hk h _ => h.step hk

/-- **Every finished sequence is linked as `Links` says.** -/
theorem links_ofPairs :
    Links (pairs.map (·.1)) (pairs.map (·.1)).length (ofPairs pairs) :=
  (pending_ofPairs pairs).links

/-- The kinds of a finished sequence are those that were given. -/
@[simp] theorem kinds_ofPairs : (ofPairs pairs).kinds = pairs.map (·.1) :=
  (links_ofPairs pairs).kinds_eq

/-- A finished sequence has one token for each pair. -/
@[simp] theorem size_ofPairs : (ofPairs pairs).size = pairs.length := by
  rw [← length_kinds, kinds_ofPairs, List.length_map]

end TokenSeq

end PhpStyle
