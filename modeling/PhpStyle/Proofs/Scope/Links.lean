import PhpStyle.Proofs.Scope.Braces
import PhpStyle.Proofs.Scope.Step

/-!
# What the links of a sequence can be

`Links kinds n s` says of every token of a sequence what it can be linked to once the tokens before
`n` have been taken in: braces as `Braces.Closes` pairs them, a keyword to a later brace and to what
closes it, a label to a later colon, and nothing else to anything. It is a statement about one
moment of a pass; at the end of the pass, `n` is the number of all tokens.

A pass can write links in four ways, and for each of them there is one lemma that takes `Links` from
`n` to `n + 1`:

* `Links.quiet` — it writes none;
* `Links.linkLabel` — it ends a label at a colon;
* `Links.opened` — it opens a scope at a brace, as `OpensScope` says;
* `Links.closed` — it closes one, as `ClosesScope` says.

The first two are read off the fields one by one. The other two write several links at once, to the
brace and to the keyword that owns it, and so what such a step does to one link is said first
(`OpensScope`, `ClosesScope`, with a lemma for each sort of token), and only then put together. The
case to see to is a keyword. When its brace is opened, it must not have been linked already; when
its brace is closed, its end must be that of the brace, and no other keyword may have the same
brace.

`Owned` says that the owner of a scope is the one that the links give, and `Chain` that a list of
scopes, each inside the next, has such owners.
-/

namespace PhpStyle

open Braces

/-! ### Kinds at an index -/

/-- There is a keyword that owns a scope at `k`. -/
def KeywordAt (kinds : List Kind) (k : Nat) : Prop :=
  ∃ kind, kinds[k]? = some kind ∧ kind.ownsScope = true

/-- There is a branch label at `k`. -/
def LabelAt (kinds : List Kind) (k : Nat) : Prop :=
  ∃ kind, kinds[k]? = some kind ∧ kind.isLabel = true

variable {kinds : List Kind} {n k o c j : Nat} {kind : Kind} {s s' : TokenSeq} {l : Linker}
  {scope : Scope}

/-- A keyword is of no kind that owns nothing. -/
theorem KeywordAt.ne (h : KeywordAt kinds k) (hkind : kind.ownsScope = false) :
    kinds[k]? ≠ some kind := by
  obtain ⟨kind', hk, hown⟩ := h
  rw [hk]
  rintro ⟨⟩
  rw [hkind] at hown
  cases hown

/-- A label is of no kind that is no label. -/
theorem LabelAt.ne (h : LabelAt kinds k) (hkind : kind.isLabel = false) :
    kinds[k]? ≠ some kind := by
  obtain ⟨kind', hk, hlabel⟩ := h
  rw [hk]
  rintro ⟨⟩
  rw [hkind] at hlabel
  cases hlabel

/-- A keyword is no label. -/
theorem KeywordAt.not_labelAt (h : KeywordAt kinds k) : ¬ LabelAt kinds k := by
  rintro ⟨kind, hk, hlabel⟩
  refine h.ne ?_ hk
  revert hlabel
  cases kind <;> decide

/-! ### Links -/

/-- What is linked when the tokens before `n` have been taken in. -/
structure Links (kinds : List Kind) (n : Nat) (s : TokenSeq) : Prop where
  /-- The kinds are those that were given. -/
  kinds_eq : s.kinds = kinds
  /-- Nothing from `n` on is linked. -/
  fresh : ∀ j, n ≤ j → s.opener j = none ∧ s.closer j = none
  /-- An opening brace is linked to itself and to the brace that closes it. -/
  opening : ∀ o, o < n → kinds[o]? = some .openBrace →
    s.opener o = some o ∧ ∀ c, s.closer o = some c ↔ c < n ∧ Closes kinds c o
  /-- A closing brace is linked to the brace that it closes, and then to itself. -/
  closing : ∀ c, c < n → kinds[c]? = some .closeBrace →
    (∀ o, s.opener c = some o ↔ Closes kinds c o) ∧
      ∀ d, s.closer c = some d ↔ d = c ∧ ∃ o, Closes kinds c o
  /-- A keyword is not linked, or linked to a later brace and to what closes that brace. -/
  keyword : ∀ k, k < n → KeywordAt kinds k →
    s.opener k = none ∧ s.closer k = none ∨
      ∃ o, k < o ∧ o < n ∧ kinds[o]? = some .openBrace ∧ s.opener k = some o ∧
        s.closer k = s.closer o
  /-- No two keywords are linked to one brace. -/
  keyword_unique : ∀ k k' o, KeywordAt kinds k → KeywordAt kinds k' → s.opener k = some o →
    s.opener k' = some o → k = k'
  /-- A label is linked to a later colon at most. -/
  label : ∀ k, k < n → LabelAt kinds k →
    s.closer k = none ∧ ∀ c, s.opener k = some c → k < c ∧ c < n ∧ kinds[c]? = some .colon
  /-- Nothing else is linked. -/
  plain : ∀ k kind, k < n → kinds[k]? = some kind → kind ≠ .openBrace → kind ≠ .closeBrace →
    ¬ kind.ownsScope → ¬ kind.isLabel → s.opener k = none ∧ s.closer k = none

namespace Links

/-- The kind of a token is the one given for its index. -/
theorem kind_of_get? {t : Token} (h : Links kinds n s) (ht : s.get? k = some t) :
    kinds[k]? = some t.kind := by
  rw [← h.kinds_eq, TokenSeq.kinds_getElem?, ht]
  rfl

/-- There are as many tokens as kinds. -/
theorem size_eq (h : Links kinds n s) : s.size = kinds.length := by
  rw [← TokenSeq.length_kinds, h.kinds_eq]

/-- A linked keyword stands before the brace that it is linked to. -/
theorem keyword_lt (h : Links kinds n s) (hk : KeywordAt kinds k) (ho : s.opener k = some o) :
    k < o ∧ o < n ∧ kinds[o]? = some .openBrace ∧ s.closer k = s.closer o := by
  have hkn : k < n := by
    by_contra hkn
    rw [(h.fresh k (by omega)).1] at ho
    cases ho
  rcases h.keyword k hkn hk with ⟨hnone, -⟩ | ⟨o', hko, hon, hkind, ho', hc⟩
  · rw [hnone] at ho
    cases ho
  · rw [ho', Option.some.injEq] at ho
    subst ho
    exact ⟨hko, hon, hkind, hc⟩

/-- An opening brace that is not closed at `n` is linked as before. -/
theorem opening_succ (h : Links kinds n s) (hon : o < n) (hk : kinds[o]? = some .openBrace)
    (hclose : ¬ Closes kinds n o) :
    s.opener o = some o ∧ ∀ c, s.closer o = some c ↔ c < n + 1 ∧ Closes kinds c o := by
  obtain ⟨hself, hiff⟩ := h.opening o hon hk
  exact ⟨hself, fun c => (hiff c).trans (closes_succ_iff hclose).symm⟩

/-- A keyword is linked as before. -/
theorem keyword_succ (h : Links kinds n s) (hkn : k < n) (hkey : KeywordAt kinds k) :
    s.opener k = none ∧ s.closer k = none ∨
      ∃ o, k < o ∧ o < n + 1 ∧ kinds[o]? = some .openBrace ∧ s.opener k = some o ∧
        s.closer k = s.closer o := by
  rcases h.keyword k hkn hkey with hnone | ⟨o, hko, hon, hrest⟩
  · exact Or.inl hnone
  · exact Or.inr ⟨o, hko, by omega, hrest⟩

/-- A label is linked as before. -/
theorem label_succ (h : Links kinds n s) (hkn : k < n) (hlabel : LabelAt kinds k) :
    s.closer k = none ∧
      ∀ c, s.opener k = some c → k < c ∧ c < n + 1 ∧ kinds[c]? = some .colon := by
  obtain ⟨hnone, hlater⟩ := h.label k hkn hlabel
  refine ⟨hnone, fun c hc => ?_⟩
  obtain ⟨hkc, hcn, hkind⟩ := hlater c hc
  exact ⟨hkc, by omega, hkind⟩

/-- A step that writes no link and meets neither an opening brace nor one that closes something. -/
theorem quiet (h : Links kinds n s) (hkinds : s'.kinds = s.kinds)
    (hopener : ∀ j, s'.opener j = s.opener j) (hcloser : ∀ j, s'.closer j = s.closer j)
    (hopen : kinds[n]? ≠ some .openBrace) (hclose : ∀ o, ¬ Closes kinds n o) :
    Links kinds (n + 1) s' := by
  have hn := h.fresh n le_rfl
  refine ⟨hkinds.trans h.kinds_eq, ?fresh, ?opening, ?closing, ?keyword, ?unique, ?label, ?plain⟩
  case fresh =>
    intro j hj
    rw [hopener, hcloser]
    exact h.fresh j (by omega)
  case opening =>
    intro o ho hk
    have hon : o ≠ n := fun heq => hopen (heq ▸ hk)
    rw [hopener, hcloser]
    exact h.opening_succ (by omega) hk (hclose o)
  case closing =>
    intro c hc hk
    simp only [hopener, hcloser]
    rcases Nat.lt_succ_iff_lt_or_eq.mp hc with hc | rfl
    · exact h.closing c hc hk
    · simp [hn.1, hn.2, hclose]
  case keyword =>
    intro k hk hkey
    simp only [hopener, hcloser]
    rcases Nat.lt_succ_iff_lt_or_eq.mp hk with hk | rfl
    · exact h.keyword_succ hk hkey
    · exact Or.inl hn
  case unique =>
    intro k k' o hk hk'
    rw [hopener, hopener]
    exact h.keyword_unique k k' o hk hk'
  case label =>
    intro k hk hlabel
    simp only [hopener, hcloser]
    rcases Nat.lt_succ_iff_lt_or_eq.mp hk with hk | rfl
    · exact h.label_succ hk hlabel
    · exact ⟨hn.2, fun c hc => by simp [hn.1] at hc⟩
  case plain =>
    intro k kind hk
    simp only [hopener, hcloser]
    rcases Nat.lt_succ_iff_lt_or_eq.mp hk with hk | rfl
    · exact h.plain k kind hk
    · exact fun _ _ _ _ _ => hn

/-- Linking a label to the colon just met changes nothing else. -/
theorem linkLabel (h : Links kinds (n + 1) s) (hkinds : s'.kinds = s.kinds) (hkn : k < n)
    (hlabel : LabelAt kinds k) (hcolon : kinds[n]? = some .colon)
    (hopener : ∀ j, s'.opener j = if j = k then some n else s.opener j)
    (hcloser : ∀ j, s'.closer j = s.closer j) : Links kinds (n + 1) s' := by
  have hother : ∀ j, ¬ LabelAt kinds j → s'.opener j = s.opener j := by
    intro j hj
    rw [hopener, if_neg]
    rintro rfl
    exact hj hlabel
  have hkind : ∀ {kind : Kind}, kind.isLabel = false → ∀ {j}, kinds[j]? = some kind →
      s'.opener j = s.opener j :=
    fun hf j hj => hother j fun hl => hl.ne hf hj
  refine ⟨hkinds.trans h.kinds_eq, ?fresh, ?opening, ?closing, ?keyword, ?unique, ?label, ?plain⟩
  case fresh =>
    intro j hj
    rw [hopener, if_neg (by omega), hcloser]
    exact h.fresh j hj
  case opening =>
    intro o ho hk
    rw [hkind rfl hk]
    simp only [hcloser]
    exact h.opening o ho hk
  case closing =>
    intro c hc hk
    rw [hkind rfl hk]
    simp only [hcloser]
    exact h.closing c hc hk
  case keyword =>
    intro k' hk' hkey
    rw [hother k' hkey.not_labelAt]
    simp only [hcloser]
    exact h.keyword k' hk' hkey
  case unique =>
    intro k₁ k₂ o h₁ h₂
    rw [hother k₁ h₁.not_labelAt, hother k₂ h₂.not_labelAt]
    exact h.keyword_unique k₁ k₂ o h₁ h₂
  case label =>
    intro k' hk' hlabel'
    obtain ⟨hnone, hlater⟩ := h.label k' hk' hlabel'
    rw [hopener, hcloser]
    refine ⟨hnone, fun c hc => ?_⟩
    split at hc
    · next heq =>
      cases hc
      exact ⟨by omega, by omega, hcolon⟩
    · exact hlater c hc
  case plain =>
    intro k' kind hk' hkind' hopen hclose hown hlab
    rw [hkind (by simpa using hlab) hkind', hcloser]
    exact h.plain k' kind hk' hkind' hopen hclose hown hlab

end Links

/-! ### Opening a scope -/

/-- The brace at `n` opens a scope: it is linked to itself, and the keyword that waits for it is
linked to it. -/
structure OpensScope (kinds : List Kind) (n : Nat) (s : TokenSeq) (waiting : Option Nat)
    (s' : TokenSeq) : Prop where
  /-- The kinds stay. -/
  kinds_eq : s'.kinds = s.kinds
  /-- There is an opening brace. -/
  kind : kinds[n]? = some .openBrace
  /-- What waits is a keyword without a brace. -/
  waits : ∀ k, waiting = some k → k < n ∧ KeywordAt kinds k ∧ s.opener k = none
  /-- The new links. -/
  opener : ∀ j, s'.opener j = if j = n ∨ waiting = some j then some n else s.opener j
  /-- Nothing is closed. -/
  closer : ∀ j, s'.closer j = s.closer j

namespace OpensScope

variable {waiting : Option Nat}

/-- No keyword stands at the brace. -/
theorem keyword_ne (hs : OpensScope kinds n s waiting s') (hkey : KeywordAt kinds k) : k ≠ n := by
  rintro rfl
  exact hkey.ne rfl hs.kind

/-- Only the brace and keywords are linked anew. -/
theorem opener_of_ne (hs : OpensScope kinds n s waiting s') (hj : j ≠ n)
    (hkey : ¬ KeywordAt kinds j) : s'.opener j = s.opener j := by
  rw [hs.opener, if_neg]
  rintro (rfl | hwj)
  · exact hj rfl
  · exact hkey (hs.waits j hwj).2.1

/-- A keyword is linked to the brace because it waited, or to an earlier brace as before. -/
theorem opener_keyword (hs : OpensScope kinds n s waiting s') (h : Links kinds n s)
    (hkey : KeywordAt kinds k) (ho : s'.opener k = some o) :
    waiting = some k ∧ o = n ∨ s.opener k = some o ∧ o < n := by
  rw [hs.opener] at ho
  split at ho
  · next hor =>
      cases ho
      exact Or.inl ⟨hor.resolve_left (hs.keyword_ne hkey), rfl⟩
  · exact Or.inr ⟨ho, (h.keyword_lt hkey ho).2.1⟩

/-- The opening braces. -/
theorem opening (hs : OpensScope kinds n s waiting s') (h : Links kinds n s) (hon : o < n + 1)
    (hko : kinds[o]? = some .openBrace) :
    s'.opener o = some o ∧ ∀ c, s'.closer o = some c ↔ c < n + 1 ∧ Closes kinds c o := by
  rw [hs.closer]
  rcases Nat.lt_succ_iff_lt_or_eq.mp hon with hon | rfl
  · rw [hs.opener_of_ne (by omega) fun hkey => hkey.ne rfl hko]
    exact h.opening_succ hon hko (not_closes_of_kind (by simp [hs.kind]) o)
  · refine ⟨by rw [hs.opener, if_pos (Or.inl rfl)], fun c => ?_⟩
    rw [(h.fresh o le_rfl).2]
    constructor
    · rintro ⟨⟩
    · rintro ⟨hc, hco⟩
      have := hco.lt
      omega

/-- The keywords. -/
theorem keyword (hs : OpensScope kinds n s waiting s') (h : Links kinds n s) (hkn : k < n)
    (hkey : KeywordAt kinds k) :
    s'.opener k = none ∧ s'.closer k = none ∨
      ∃ o, k < o ∧ o < n + 1 ∧ kinds[o]? = some .openBrace ∧ s'.opener k = some o ∧
        s'.closer k = s'.closer o := by
  simp only [hs.closer]
  rw [hs.opener]
  split
  · next hor =>
      -- the keyword waited, so that it was not linked before
      obtain ⟨-, -, hnone⟩ := hs.waits k (hor.resolve_left (hs.keyword_ne hkey))
      have hcnone : s.closer k = none := by
        rcases h.keyword k hkn hkey with hboth | ⟨o, -, -, -, ho, -⟩
        · exact hboth.2
        · rw [hnone] at ho
          cases ho
      exact Or.inr ⟨n, hkn, by omega, hs.kind, rfl, by rw [hcnone, (h.fresh n le_rfl).2]⟩
  · exact h.keyword_succ hkn hkey

/-- No two keywords are linked to one brace. -/
theorem keyword_unique (hs : OpensScope kinds n s waiting s') (h : Links kinds n s) {k' : Nat}
    (hkey : KeywordAt kinds k) (hkey' : KeywordAt kinds k') (ho : s'.opener k = some o)
    (ho' : s'.opener k' = some o) : k = k' := by
  rcases hs.opener_keyword h hkey ho with ⟨hw, hon⟩ | ⟨hold, hon⟩
  · rcases hs.opener_keyword h hkey' ho' with ⟨hw', -⟩ | ⟨-, hon'⟩
    · rw [hw] at hw'
      exact Option.some.inj hw'
    · omega
  · rcases hs.opener_keyword h hkey' ho' with ⟨-, hon'⟩ | ⟨hold', -⟩
    · omega
    · exact h.keyword_unique k k' o hkey hkey' hold hold'

end OpensScope

/-- Opening a scope keeps the links. -/
theorem Links.opened {waiting : Option Nat} (h : Links kinds n s)
    (hs : OpensScope kinds n s waiting s') : Links kinds (n + 1) s' := by
  have hne : ∀ {kind : Kind} {j : Nat}, kinds[j]? = some kind → kind ≠ .openBrace → j ≠ n := by
    rintro kind j hj hkind rfl
    rw [hs.kind] at hj
    exact hkind (Option.some.inj hj).symm
  refine ⟨hs.kinds_eq.trans h.kinds_eq, ?fresh, fun o ho hko => hs.opening h ho hko, ?closing,
    ?keyword, fun k k' o hk hk' ho ho' => hs.keyword_unique h hk hk' ho ho', ?label, ?plain⟩
  case fresh =>
    intro j hj
    rw [hs.opener, hs.closer, if_neg]
    · exact h.fresh j (by omega)
    · rintro (rfl | hwj)
      · omega
      · have := (hs.waits j hwj).1
        omega
  case closing =>
    intro c hc hkc
    have hcn := hne hkc (by simp)
    rw [hs.opener_of_ne hcn fun hkey => hkey.ne rfl hkc, hs.closer]
    exact h.closing c (by omega) hkc
  case keyword =>
    intro k hkn hkey
    have hkne := hs.keyword_ne hkey
    exact hs.keyword h (by omega) hkey
  case label =>
    intro k hkn hlabel
    have hkne : k ≠ n := by
      rintro rfl
      exact hlabel.ne rfl hs.kind
    rw [hs.opener_of_ne hkne fun hkey => hkey.not_labelAt hlabel, hs.closer]
    exact h.label_succ (by omega) hlabel
  case plain =>
    intro k kind hkn hkind hopen hclose hown hlabel
    have hkne := hne hkind hopen
    rw [hs.opener_of_ne hkne fun hkey => hkey.ne (by simpa using hown) hkind, hs.closer]
    exact h.plain k kind (by omega) hkind hopen hclose hown hlabel

/-! ### Closing a scope -/

/-- A scope has the owner that the links give: the keyword that is linked to its brace, or the brace
itself if no keyword is. -/
def Owned (kinds : List Kind) (s : TokenSeq) (scope : Scope) : Prop :=
  KeywordAt kinds scope.owner ∧ s.opener scope.owner = some scope.brace ∨
    scope.owner = scope.brace ∧ ∀ k, KeywordAt kinds k → s.opener k ≠ some scope.brace

namespace Owned

/-- Ownership depends only on which keywords are linked to the brace. -/
theorem congr (h : Owned kinds s scope)
    (hiff : ∀ k, KeywordAt kinds k →
      (s'.opener k = some scope.brace ↔ s.opener k = some scope.brace)) :
    Owned kinds s' scope := by
  rcases h with ⟨hkey, ho⟩ | ⟨heq, hnone⟩
  · exact Or.inl ⟨hkey, (hiff _ hkey).mpr ho⟩
  · exact Or.inr ⟨heq, fun k hk ho => hnone k hk ((hiff k hk).mp ho)⟩

/-- The owner of a scope is its brace or stands before it. -/
theorem owner_le (h : Owned kinds s scope) (hlinks : Links kinds n s) :
    scope.owner ≤ scope.brace := by
  rcases h with ⟨hkey, ho⟩ | ⟨heq, -⟩
  · exact le_of_lt (hlinks.keyword_lt hkey ho).1
  · exact le_of_eq heq

/-- A keyword that is linked to the brace of a scope owns it. -/
theorem eq_of_keyword (h : Owned kinds s scope) (hlinks : Links kinds n s)
    (hk : KeywordAt kinds k) (ho : s.opener k = some scope.brace) : k = scope.owner := by
  rcases h with ⟨hkey, ho'⟩ | ⟨-, hnone⟩
  · exact hlinks.keyword_unique _ _ _ hk hkey ho ho'
  · exact absurd ho (hnone k hk)

end Owned

/-- The brace at `n` closes a scope: it is linked to the brace of the scope; that brace, the owner
of the scope and the closing brace itself are linked to the closing brace. -/
structure ClosesScope (kinds : List Kind) (n : Nat) (s : TokenSeq) (scope : Scope)
    (s' : TokenSeq) : Prop where
  /-- The kinds stay. -/
  kinds_eq : s'.kinds = s.kinds
  /-- The scope is the one to be closed. -/
  closes : Closes kinds n scope.brace
  /-- Its owner is the one that the links give. -/
  owned : Owned kinds s scope
  /-- The new link to the opening brace. -/
  opener : ∀ j, s'.opener j = if j = n then some scope.brace else s.opener j
  /-- The new links to the closing brace. -/
  closer : ∀ j, s'.closer j =
    if j = n ∨ j = scope.brace ∨ j = scope.owner then some n else s.closer j

namespace ClosesScope

/-- Only the closing brace is linked to the opening one anew. -/
theorem opener_of_ne (hs : ClosesScope kinds n s scope s') (hj : j ≠ n) :
    s'.opener j = s.opener j := by
  rw [hs.opener, if_neg hj]

/-- What is no brace and no keyword is not closed. -/
theorem closer_of_ne (hs : ClosesScope kinds n s scope s') (hj : j ≠ n)
    (hopen : kinds[j]? ≠ some .openBrace) (hkey : ¬ KeywordAt kinds j) :
    s'.closer j = s.closer j := by
  rw [hs.closer, if_neg]
  rintro (rfl | rfl | rfl)
  · exact hj rfl
  · exact hopen hs.closes.kind_opening
  · rcases hs.owned with ⟨hown, -⟩ | ⟨heq, -⟩
    · exact hkey hown
    · exact hopen (heq ▸ hs.closes.kind_opening)

/-- The brace of the scope is closed. -/
theorem closer_brace (hs : ClosesScope kinds n s scope s') : s'.closer scope.brace = some n := by
  rw [hs.closer, if_pos (Or.inr (Or.inl rfl))]

/-- No other opening brace is. -/
theorem closer_opening (hs : ClosesScope kinds n s scope s') (hon : o < n)
    (hko : kinds[o]? = some .openBrace) (hne : o ≠ scope.brace) :
    s'.closer o = s.closer o := by
  rw [hs.closer, if_neg]
  rintro (rfl | rfl | rfl)
  · omega
  · exact hne rfl
  · rcases hs.owned with ⟨hown, -⟩ | ⟨heq, -⟩
    · exact hown.ne rfl hko
    · exact hne heq

/-- The opening braces. -/
theorem opening (hs : ClosesScope kinds n s scope s') (h : Links kinds n s) (hon : o < n)
    (hko : kinds[o]? = some .openBrace) :
    s'.opener o = some o ∧ ∀ c, s'.closer o = some c ↔ c < n + 1 ∧ Closes kinds c o := by
  rw [hs.opener_of_ne (by omega)]
  by_cases hob : o = scope.brace
  · refine ⟨(h.opening o hon hko).1, fun c => ?_⟩
    rw [hob, hs.closer_brace, Option.some.injEq]
    constructor
    · rintro rfl
      exact ⟨by omega, hs.closes⟩
    · rintro ⟨-, hc⟩
      exact hs.closes.closing_unique hc
  · rw [hs.closer_opening hon hko hob]
    exact h.opening_succ hon hko fun hc => hob (hc.opening_unique hs.closes)

/-- The closing braces. -/
theorem closing (hs : ClosesScope kinds n s scope s') (h : Links kinds n s) (hcn : c < n + 1)
    (hkc : kinds[c]? = some .closeBrace) :
    (∀ o, s'.opener c = some o ↔ Closes kinds c o) ∧
      ∀ d, s'.closer c = some d ↔ d = c ∧ ∃ o, Closes kinds c o := by
  rcases Nat.lt_succ_iff_lt_or_eq.mp hcn with hcn | rfl
  · have hkey : ¬ KeywordAt kinds c := fun hkey => hkey.ne rfl hkc
    rw [hs.opener_of_ne (by omega), hs.closer_of_ne (by omega) (by simp [hkc]) hkey]
    exact h.closing c hcn hkc
  · rw [hs.opener, if_pos rfl, hs.closer, if_pos (Or.inl rfl)]
    refine ⟨fun o => ?_, fun d => ?_⟩
    · rw [Option.some.injEq]
      exact ⟨fun heq => heq ▸ hs.closes, fun ho => hs.closes.opening_unique ho⟩
    · rw [Option.some.injEq]
      exact ⟨fun heq => ⟨heq.symm, _, hs.closes⟩, fun hd => hd.1.symm⟩

/-- The keywords. -/
theorem keyword (hs : ClosesScope kinds n s scope s') (h : Links kinds n s) (hkn : k < n)
    (hkey : KeywordAt kinds k) :
    s'.opener k = none ∧ s'.closer k = none ∨
      ∃ o, k < o ∧ o < n + 1 ∧ kinds[o]? = some .openBrace ∧ s'.opener k = some o ∧
        s'.closer k = s'.closer o := by
  have hkb : k ≠ scope.brace := by
    rintro rfl
    exact hkey.ne rfl hs.closes.kind_opening
  rw [hs.opener_of_ne (by omega), hs.closer]
  by_cases hkw : k = scope.owner
  · -- the owner is a keyword, and its brace is the one closed here
    rw [if_pos (Or.inr (Or.inr hkw))]
    rcases hs.owned with ⟨-, ho⟩ | ⟨heq, -⟩
    · rw [← hkw] at ho
      obtain ⟨hlt, hon, hko, -⟩ := h.keyword_lt hkey ho
      exact Or.inr ⟨_, hlt, by omega, hko, ho, hs.closer_brace.symm⟩
    · exact absurd (hkw.trans heq) hkb
  · rw [if_neg (by omega)]
    rcases h.keyword k hkn hkey with hnone | ⟨o, hko, hon, hkind, ho, hc⟩
    · exact Or.inl hnone
    · have hob : o ≠ scope.brace := by
        rintro rfl
        exact hkw (hs.owned.eq_of_keyword h hkey ho)
      exact Or.inr ⟨o, hko, by omega, hkind, ho, by rw [hs.closer_opening hon hkind hob, hc]⟩

end ClosesScope

/-- Closing a scope keeps the links. -/
theorem Links.closed (h : Links kinds n s) (hs : ClosesScope kinds n s scope s') :
    Links kinds (n + 1) s' := by
  have hbn := hs.closes.lt
  have hwb := hs.owned.owner_le h
  have hne : ∀ {kind : Kind} {j : Nat}, kinds[j]? = some kind → kind ≠ .closeBrace → j ≠ n := by
    rintro kind j hj hkind rfl
    rw [hs.closes.kind_closing] at hj
    exact hkind (Option.some.inj hj).symm
  have hkey_ne : ∀ {k : Nat}, KeywordAt kinds k → k ≠ n := by
    rintro k hkey rfl
    exact hkey.ne rfl hs.closes.kind_closing
  refine ⟨hs.kinds_eq.trans h.kinds_eq, ?fresh, ?opening, fun c hc hkc => hs.closing h hc hkc,
    ?keyword, ?unique, ?label, ?plain⟩
  case fresh =>
    intro j hj
    rw [hs.opener, hs.closer, if_neg (by omega), if_neg (by omega)]
    exact h.fresh j (by omega)
  case opening =>
    intro o ho hko
    have hon := hne hko (by simp)
    exact hs.opening h (by omega) hko
  case keyword =>
    intro k hkn hkey
    have hkne := hkey_ne hkey
    exact hs.keyword h (by omega) hkey
  case unique =>
    intro k k' o hk hk'
    rw [hs.opener_of_ne (hkey_ne hk), hs.opener_of_ne (hkey_ne hk')]
    exact h.keyword_unique k k' o hk hk'
  case label =>
    intro k hkn hlabel
    have hkne : k ≠ n := by
      rintro rfl
      exact hlabel.ne rfl hs.closes.kind_closing
    rw [hs.opener_of_ne hkne, hs.closer_of_ne hkne (hlabel.ne rfl) fun hkey =>
      hkey.not_labelAt hlabel]
    exact h.label_succ (by omega) hlabel
  case plain =>
    intro k kind hkn hkind hopen hclose hown hlabel
    have hkne := hne hkind hclose
    rw [hs.opener_of_ne hkne, hs.closer_of_ne hkne (by simp [hkind, hopen])
      fun hkey => hkey.ne (by simpa using hown) hkind]
    exact h.plain k kind (by omega) hkind hopen hclose hown hlabel

/-! ### Chains of scopes -/

/-- Scopes that lie in each other, innermost first, with their owners. -/
structure Chain (kinds : List Kind) (s : TokenSeq) (scopes : List Scope) : Prop where
  /-- The brace of an outer scope stands before the owner of an inner one. -/
  nested : scopes.Pairwise fun inner outer => outer.brace < inner.owner
  /-- The owners are those that the links give. -/
  owned : ∀ scope ∈ scopes, Owned kinds s scope

namespace Chain

variable {scopes : List Scope}

/-- A part of a chain is a chain. -/
theorem tail (h : Chain kinds s scopes) : Chain kinds s scopes.tail :=
  ⟨h.nested.tail, fun scope hmem => h.owned scope (List.mem_of_mem_tail hmem)⟩

/-- A chain stays one while no keyword is linked to its braces or loses its link to them. -/
theorem congr (h : Chain kinds s scopes)
    (hiff : ∀ scope ∈ scopes, ∀ k, KeywordAt kinds k →
      (s'.opener k = some scope.brace ↔ s.opener k = some scope.brace)) :
    Chain kinds s' scopes :=
  ⟨h.nested, fun scope hmem => (h.owned scope hmem).congr (hiff scope hmem)⟩

/-- The owners of a chain are sorted downwards. -/
theorem owners_sorted (h : Chain kinds s scopes) (hlinks : Links kinds n s) :
    (scopes.map (·.owner)).Pairwise (· > ·) := by
  rw [List.pairwise_map]
  refine h.nested.imp_of_mem ?_
  intro inner outer _ houter hlt
  have := (h.owned outer houter).owner_le hlinks
  omega

end Chain

end PhpStyle
