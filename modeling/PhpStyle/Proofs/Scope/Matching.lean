import PhpStyle.Proofs.Scope.Linking

/-!
# The brace links are bracket matching

The links between braces depend on the braces alone: keywords, labels, parentheses and semicolons
do not disturb them, and a brace without a partner does not either.

`TokenSeq.braces_ofPairs` says this in terms of the kinds: a closing brace is linked to the last
opening brace that is open at it. The links of a finished sequence are known
(`TokenSeq.links_ofPairs`), and for braces they are the pairing `Braces.Closes`, so that the first
four parts are read off. Two parts need more. Any token can have both links, not only a brace, and
two tokens with both span scopes that are nested or disjoint: the links of any such token are those
of a pair of braces (`Links.closes_of_links`). And warnings are counted: the pass notes the closing
braces without a partner and keeps the scopes that are left open, each brace is in one of the two
lists and only once (`Linker.Pending.nodup_reported`), and none of them is dropped when the text of
a warning is made (`Linker.Pending.length_warnings`).
-/

namespace PhpStyle

open Braces

variable {kinds : List Kind} {n i o c : Nat} {s : TokenSeq} {l : Linker}

namespace Links

/-- A token that is linked to an opening and a closing brace is linked to a pair. -/
theorem closes_of_links (h : Links kinds n s) (ho : s.opener i = some o)
    (hc : s.closer i = some c) : Closes kinds c o := by
  have hin : i < n := by
    by_contra hin
    rw [(h.fresh i (by omega)).1] at ho
    cases ho
  rcases hk : kinds[i]? with _ | kind
  · -- past the end there are no links
    have hnone : s.get? i = none := by
      have hkind := s.kinds_getElem? i
      rw [h.kinds_eq, hk] at hkind
      exact Option.map_eq_none_iff.mp hkind.symm
    rw [TokenSeq.opener, hnone] at ho
    cases ho
  by_cases hopen : kind = .openBrace
  · subst hopen
    obtain ⟨hself, hiff⟩ := h.opening i hin hk
    rw [hself, Option.some.injEq] at ho
    subst ho
    exact ((hiff c).mp hc).2
  by_cases hclose : kind = .closeBrace
  · subst hclose
    obtain ⟨hopener, hcloser⟩ := h.closing i hin hk
    obtain ⟨rfl, -⟩ := (hcloser c).mp hc
    exact (hopener o).mp ho
  by_cases hown : kind.ownsScope = true
  · obtain ⟨-, hon, hko, heq⟩ := h.keyword_lt ⟨kind, hk, hown⟩ ho
    rw [heq] at hc
    exact (((h.opening o hon hko).2 c).mp hc).2
  by_cases hlabel : kind.isLabel = true
  · rw [(h.label i hin ⟨kind, hk, hlabel⟩).1] at hc
    cases hc
  · rw [(h.plain i kind hin hk hopen hclose hown hlabel).1] at ho
    cases ho

/-- A keyword that has an end stands in front of its opening brace, which stands in front of the
end. -/
theorem opener_between (h : Links kinds n s) (hkey : KeywordAt kinds i) (hc : s.closer i = some c) :
    ∃ o, s.opener i = some o ∧ i < o ∧ o < c := by
  have hin : i < n := by
    by_contra hin
    rw [(h.fresh i (by omega)).2] at hc
    cases hc
  rcases h.keyword i hin hkey with ⟨-, hnone⟩ | ⟨o, hio, -, -, ho, -⟩
  · rw [hnone] at hc
    cases hc
  · exact ⟨o, ho, hio, (h.closes_of_links ho hc).lt⟩

end Links

namespace Linker

/-- The braces that a pass reports are those without a partner, each once. -/
theorem Pending.mem_reported (h : Pending kinds kinds.length l) (i : Nat) :
    i ∈ l.unmatched ++ l.scopes.map (·.brace) ↔ Unmatched kinds i := by
  rw [List.mem_append, h.mem_unmatched, h.stack.mem_iff, openAt_length_iff, Unmatched]
  constructor
  · rintro (⟨-, hclose⟩ | hopen)
    · exact Or.inl hclose
    · exact Or.inr hopen
  · rintro (hclose | hopen)
    · exact Or.inl ⟨(List.getElem?_eq_some_iff.mp hclose.1).1, hclose⟩
    · exact Or.inr hopen

/-- No brace is reported twice. -/
theorem Pending.nodup_reported (h : Pending kinds kinds.length l) :
    (l.unmatched ++ l.scopes.map (·.brace)).Nodup := by
  refine List.nodup_append.mpr ⟨h.unmatched_sorted.imp fun hab => ne_of_gt hab,
    h.stack.sorted.imp fun hab => ne_of_gt hab, ?_⟩
  rintro a ha b hb rfl
  have hclose := ((h.mem_unmatched a).mp ha).2.1
  have hopen := ((h.stack.mem_iff a).mp hb).1
  rw [hclose] at hopen
  cases hopen

/-- There is one warning for each reported brace. -/
theorem Pending.length_warnings (h : Pending kinds kinds.length l) :
    l.warnings.length = (l.unmatched ++ l.scopes.map (·.brace)).length := by
  have hsome : ∀ i, i < kinds.length → ∃ t, l.tokens[i]? = some t := by
    intro i hi
    rw [← h.links.size_eq] at hi
    exact TokenSeq.exists_get? hi
  rw [warnings, List.length_append, List.length_append, List.length_map]
  congr 1
  · rw [List.filterMap_length_eq_length.mpr, List.length_reverse]
    intro i hi
    obtain ⟨t, ht⟩ := hsome i ((h.mem_unmatched i).mp (List.mem_reverse.mp hi)).1
    simp [ht]
  · rw [List.filterMap_length_eq_length.mpr, List.length_reverse]
    intro scope hscope
    have hmem := List.mem_reverse.mp hscope
    have hbn := h.brace_lt hmem
    have hwb := (h.chain.owned scope hmem).owner_le h.links
    obtain ⟨t, ht⟩ := hsome scope.owner (by omega)
    simp [ht]

end Linker

namespace TokenSeq

/-- **Brace links are bracket matching.** Whatever kinds stand between them, a closing brace is
linked to the last opening brace that is open at it, which is then linked back; braces without a
partner have no link to one. The scopes so linked are nested or disjoint, and each brace without a
partner is warned about once. -/
theorem braces_ofPairs (pairs : List (Kind × String)) :
    let s := ofPairs pairs
    let kinds := pairs.map (·.1)
    (∀ c, kinds[c]? = some .closeBrace → ∀ o,
      s.opener c = some o ↔ OpenAt kinds c o ∧ ∀ p, OpenAt kinds c p → p ≤ o) ∧
    (∀ c, kinds[c]? = some .closeBrace → ∀ o, s.opener c = some o →
      s.closer o = some c ∧ s.closer c = some c) ∧
    (∀ c, kinds[c]? = some .closeBrace → (∀ o, ¬ OpenAt kinds c o) →
      s.opener c = none ∧ s.closer c = none) ∧
    (∀ o, kinds[o]? = some .openBrace → (∀ c, ¬ Closes kinds c o) →
      s.opener o = some o ∧ s.closer o = none) ∧
    (∀ i j o c p d, s.opener i = some o → s.closer i = some c → s.opener j = some p →
      s.closer j = some d →
      o = p ∧ c = d ∨ c < p ∨ d < o ∨ o < p ∧ d < c ∨ p < o ∧ c < d) ∧
    (warningsOf pairs).length = {i | Unmatched kinds i}.ncard := by
  intro s kinds
  have hlinks : Links kinds kinds.length s := links_ofPairs pairs
  have hlt : ∀ {i : Nat} {kind : Kind}, kinds[i]? = some kind → i < kinds.length :=
    fun h => (List.getElem?_eq_some_iff.mp h).1
  refine ⟨?_, ?_, ?_, ?_, ?_, ?_⟩
  · -- the pairing is that with the last open brace
    intro c hk o
    rw [(hlinks.closing c (hlt hk) hk).1, closes_iff]
    simp only [hk, true_and]
  · -- both links of a pair say the same
    intro c hk o ho
    obtain ⟨hopener, hcloser⟩ := hlinks.closing c (hlt hk) hk
    have hclose := (hopener o).mp ho
    obtain ⟨-, hiff⟩ := hlinks.opening o (hlt hclose.kind_opening) hclose.kind_opening
    exact ⟨(hiff c).mpr ⟨hlt hk, hclose⟩, (hcloser c).mpr ⟨rfl, o, hclose⟩⟩
  · -- braces without a partner
    intro c hk hnone
    obtain ⟨hopener, hcloser⟩ := hlinks.closing c (hlt hk) hk
    have hno : ∀ o, ¬ Closes kinds c o := fun o ho => hnone o ho.openAt
    refine ⟨Option.eq_none_iff_forall_ne_some.mpr fun o ho => hno o ((hopener o).mp ho),
      Option.eq_none_iff_forall_ne_some.mpr fun d hd => ?_⟩
    obtain ⟨-, o, ho⟩ := (hcloser d).mp hd
    exact hno o ho
  · intro o hk hnone
    obtain ⟨hself, hiff⟩ := hlinks.opening o (hlt hk) hk
    exact ⟨hself,
      Option.eq_none_iff_forall_ne_some.mpr fun c hc => hnone c ((hiff c).mp hc).2⟩
  · -- two tokens with both links span pairs of braces
    intro i j o c p d ho hc hp hd
    exact (hlinks.closes_of_links ho hc).nested_or_disjoint (hlinks.closes_of_links hp hd)
  · -- the warnings are one for each brace that the pass reports
    have hpending := pending_ofPairs pairs
    rw [ncard_unmatched hpending.nodup_reported hpending.mem_reported]
    exact hpending.length_warnings

end TokenSeq

end PhpStyle
