import PhpStyle.Proofs.Scope.Linking

/-!
# The scopes around a token

A finished sequence notes at each token the owners of the scopes around it. The same list can be
read off the links alone, after the pass:

* `TokenSeq.owns`, `TokenSeq.ownerOf` — the keyword that is linked to a brace, or else the brace;
* `TokenSeq.bracesAround` — the braces opened before a token and not closed up to it.

`TokenSeq.enclosing_ofPairs` says that the two lists agree. The pass writes a token's list before it
has seen the braces that close the scopes around it, so this is not a matter of reading it back.
`TokenSeq.innermost_ofPairs` says which brace the first of the owners is linked to.
-/

namespace PhpStyle

open Braces

namespace TokenSeq

/-! ### Scopes by their links -/

/-- The keyword at `k` is linked to the brace `o`. -/
def owns (s : TokenSeq) (k o : Nat) : Bool := s.kindAt Kind.ownsScope k && s.opener k == some o

/-- The keyword that is linked to the brace `o`, or the brace if no keyword is. -/
def ownerOf (s : TokenSeq) (o : Nat) : Nat := ((List.range s.size).find? (s.owns · o)).getD o

/-- The opening braces before `j` that no brace up to `j` closes, the last one first. -/
def bracesAround (s : TokenSeq) (j : Nat) : List Nat :=
  ((List.range j).filter fun o =>
    s.kindAt (· == .openBrace) o && (s.closer o).all (j < ·)).reverse

variable {kinds : List Kind} {n i j k o : Nat} {s : TokenSeq} {scope : Scope}

/-- A test of a token's kind is a test of the kind at its index. -/
theorem kindAt_iff {p : Kind → Bool} :
    s.kindAt p i = true ↔ ∃ kind, s.kinds[i]? = some kind ∧ p kind = true := by
  rw [kindAt, kinds_getElem?]
  cases s.get? i <;> simp

/-- A keyword owns the brace that it is linked to. -/
theorem owns_iff : s.owns k o = true ↔ KeywordAt s.kinds k ∧ s.opener k = some o := by
  rw [owns, Bool.and_eq_true, kindAt_iff, beq_iff_eq, KeywordAt]

/-- What is linked to a brace is a token. -/
theorem lt_size_of_owns (h : s.owns k o = true) : k < s.size := by
  obtain ⟨⟨kind, hk, -⟩, -⟩ := owns_iff.mp h
  rw [← length_kinds]
  exact (List.getElem?_eq_some_iff.mp hk).1

/-- The braces around a token are listed downwards. -/
theorem bracesAround_sorted (s : TokenSeq) (j : Nat) : (s.bracesAround j).Pairwise (· > ·) := by
  rw [bracesAround, List.pairwise_reverse]
  exact List.pairwise_lt_range.filter _

end TokenSeq

namespace Owned

variable {kinds : List Kind} {n : Nat} {s : TokenSeq} {scope : Scope}

/-- The owner of a scope is the one that is found by the links. -/
theorem owner_eq (h : Owned kinds s scope) (hlinks : Links kinds n s) :
    scope.owner = s.ownerOf scope.brace := by
  rw [TokenSeq.ownerOf]
  rcases hfind : (List.range s.size).find? (s.owns · scope.brace) with _ | k
  · -- no keyword is linked to the brace
    rcases h with ⟨hkey, ho⟩ | ⟨heq, -⟩
    · have howns : s.owns scope.owner scope.brace = true :=
        TokenSeq.owns_iff.mpr ⟨hlinks.kinds_eq.symm ▸ hkey, ho⟩
      have hmem := List.mem_range.mpr (TokenSeq.lt_size_of_owns howns)
      exact absurd howns (by simpa using List.find?_eq_none.mp hfind _ hmem)
    · exact heq
  · have howns := List.find?_some hfind
    obtain ⟨hkey, ho⟩ := TokenSeq.owns_iff.mp howns
    rw [hlinks.kinds_eq] at hkey
    exact (h.eq_of_keyword hlinks hkey ho).symm

end Owned

namespace Links

variable {kinds : List Kind} {j o : Nat} {s : TokenSeq}

/-- A brace is around a token when it is opened before the token and not closed up to it. -/
theorem mem_bracesAround (h : Links kinds kinds.length s) :
    o ∈ s.bracesAround j ↔ o < j ∧ kinds[o]? = some .openBrace ∧
      ∀ c, s.closer o = some c → j < c := by
  rw [TokenSeq.bracesAround, List.mem_reverse, List.mem_filter, List.mem_range, Bool.and_eq_true,
    TokenSeq.kindAt_iff, h.kinds_eq]
  simp [Option.all_eq_true]

/-- A brace is around a token exactly if it stands before the token and is open behind it. -/
theorem mem_bracesAround_iff_openAt (h : Links kinds kinds.length s) :
    o ∈ s.bracesAround j ↔ o < j ∧ OpenAt kinds (j + 1) o := by
  rw [h.mem_bracesAround, OpenAt]
  constructor
  · rintro ⟨hoj, hk, hcloser⟩
    refine ⟨hoj, hk, by omega, fun d hd hclose => ?_⟩
    -- a brace up to `j` that closes `o` would be linked to it
    obtain ⟨-, hiff⟩ := h.opening o (List.getElem?_eq_some_iff.mp hk).1 hk
    have := hcloser d ((hiff d).mpr ⟨hclose.lt_length, hclose⟩)
    omega
  · rintro ⟨hoj, hk, -, hopen⟩
    refine ⟨hoj, hk, fun c hc => ?_⟩
    obtain ⟨-, hiff⟩ := h.opening o (List.getElem?_eq_some_iff.mp hk).1 hk
    by_contra hjc
    exact hopen c (by omega) ((hiff c).mp hc).2

end Links

/-! ### Finished sequences -/

namespace TokenSeq

/-- The innermost owner is the first one noted. -/
theorem owner_eq_head? {s : TokenSeq} {i : Nat} : s.owner i = (s.enclosing i).head? := by
  rw [owner, enclosing]
  cases s.get? i <;> rfl

variable {pairs : List (Kind × String)} {j k : Nat}

/-- The owners noted at a token are those of a chain of scopes that are open around it. -/
theorem around_ofPairs (hj : j < (ofPairs pairs).size) :
    ∃ scopes, (ofPairs pairs).enclosing j = scopes.map (·.owner) ∧
      Chain (pairs.map (·.1)) (ofPairs pairs) scopes ∧ (scopes.map (·.brace)).Pairwise (· > ·) ∧
      ∀ o, o ∈ scopes.map (·.brace) ↔ o < j ∧ OpenAt (pairs.map (·.1)) (j + 1) o :=
  (pending_ofPairs pairs).around j ((links_ofPairs pairs).size_eq ▸ hj)

/-- The owners noted at a token stand before it. -/
theorem lt_of_mem_enclosing (hj : j < (ofPairs pairs).size)
    (hk : k ∈ (ofPairs pairs).enclosing j) : k < j := by
  obtain ⟨scopes, henclosing, hchain, -, hmem⟩ := around_ofPairs hj
  rw [henclosing] at hk
  obtain ⟨scope, hscope, rfl⟩ := List.mem_map.mp hk
  have hbj := ((hmem scope.brace).mp (List.mem_map_of_mem hscope)).1
  have hwb := (hchain.owned scope hscope).owner_le (links_ofPairs pairs)
  omega

/-- The owner of the innermost scope around a token is a token. -/
theorem owner_lt_size (hj : j < (ofPairs pairs).size) (hk : (ofPairs pairs).owner j = some k) :
    k < (ofPairs pairs).size := by
  rw [owner_eq_head?] at hk
  exact (lt_of_mem_enclosing hj (List.mem_of_head? hk)).trans hj

/-- The owner of the innermost scope around a token is linked to the last brace that is open around
it. -/
theorem innermost_ofPairs {o : Nat} (hk : (ofPairs pairs).owner j = some k)
    (ho : (ofPairs pairs).opener k = some o) :
    (o < j ∧ OpenAt (pairs.map (·.1)) (j + 1) o) ∧
      ∀ p, p < j → OpenAt (pairs.map (·.1)) (j + 1) p → p ≤ o := by
  have hj : j < (ofPairs pairs).size := by
    obtain ⟨t, ht, -⟩ := Option.bind_eq_some_iff.mp hk
    exact lt_size_of_get? ht
  have hlinks := links_ofPairs pairs
  obtain ⟨scopes, henclosing, hchain, hsorted, hmem⟩ := around_ofPairs hj
  rw [owner_eq_head?, henclosing] at hk
  cases scopes with
  | nil => cases hk
  | cons scope outer =>
      have hkey : scope.owner = k := Option.some.inj hk
      have hscope := (hmem scope.brace).mp List.mem_cons_self
      have hbrace : o = scope.brace := by
        rcases hchain.owned scope List.mem_cons_self with ⟨-, hopener⟩ | ⟨hself, -⟩
        · rw [hkey, ho] at hopener
          exact Option.some.inj hopener
        · -- the brace owns the scope itself, and is linked to itself
          have hkind := hscope.2.1
          have hopener := (hlinks.opening _ (List.getElem?_eq_some_iff.mp hkind).1 hkind).1
          rw [← hself, hkey, ho] at hopener
          rw [← hself, hkey]
          exact Option.some.inj hopener
      subst hbrace
      refine ⟨hscope, fun p hpj hp => ?_⟩
      rcases List.mem_cons.mp ((hmem p).mpr ⟨hpj, hp⟩) with rfl | hmem'
      · exact le_rfl
      · exact le_of_lt ((List.pairwise_cons.mp hsorted).1 p hmem')

/-- **The scopes noted at a token are those around it.** They are the owners of the braces opened
before the token and not closed up to it, innermost first; a brace has at most one keyword as its
owner, which stands before it and is closed with it; and the owners stand before the token, each
outer one before the inner ones. -/
theorem enclosing_ofPairs (pairs : List (Kind × String)) :
    let s := ofPairs pairs
    (∀ j, j < s.size → s.enclosing j = (s.bracesAround j).map s.ownerOf) ∧
    (∀ k k' o, s.owns k o = true → s.owns k' o = true → k = k') ∧
    (∀ k o, s.owns k o = true →
      k < o ∧ s.kindAt (· == .openBrace) o = true ∧ s.closer k = s.closer o) ∧
    ∀ j, j < s.size → (s.enclosing j).Pairwise (· > ·) ∧ ∀ k ∈ s.enclosing j, k < j := by
  intro s
  have hlinks : Links (pairs.map (·.1)) (pairs.map (·.1)).length s := links_ofPairs pairs
  refine ⟨?_, ?_, ?_, ?_⟩
  · -- the noted owners are those of a list of scopes; its braces are known by their order
    intro j hj
    obtain ⟨scopes, henclosing, hchain, hsorted, hmem⟩ := around_ofPairs hj
    have hbraces : scopes.map (·.brace) = s.bracesAround j :=
      eq_of_sorted_of_mem_iff hsorted (s.bracesAround_sorted j) fun o =>
        (hmem o).trans hlinks.mem_bracesAround_iff_openAt.symm
    rw [henclosing, ← hbraces, List.map_map]
    exact List.map_congr_left fun scope hscope => (hchain.owned scope hscope).owner_eq hlinks
  · intro k k' o hk hk'
    obtain ⟨hkey, ho⟩ := owns_iff.mp hk
    obtain ⟨hkey', ho'⟩ := owns_iff.mp hk'
    rw [hlinks.kinds_eq] at hkey hkey'
    exact hlinks.keyword_unique k k' o hkey hkey' ho ho'
  · intro k o hk
    obtain ⟨hkey, ho⟩ := owns_iff.mp hk
    rw [hlinks.kinds_eq] at hkey
    obtain ⟨hko, -, hopen, hcloser⟩ := hlinks.keyword_lt hkey ho
    exact ⟨hko, kindAt_iff.mpr ⟨_, hlinks.kinds_eq ▸ hopen, rfl⟩, hcloser⟩
  · intro j hj
    obtain ⟨scopes, henclosing, hchain, -⟩ := around_ofPairs hj
    refine ⟨?_, fun k hk => lt_of_mem_enclosing hj hk⟩
    rw [henclosing]
    exact hchain.owners_sorted hlinks

end TokenSeq

end PhpStyle
