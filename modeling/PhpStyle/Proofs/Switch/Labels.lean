import PhpStyle.Proofs.Checked
import PhpStyle.Proofs.Scope.Enclosing
import PhpStyle.Proofs.Scope.Matching
import PhpStyle.Proofs.Search
import PhpStyle.Switch.Basic

/-!
# The labels of a switch

Taking a switch apart collects its labels in one search that jumps over every switch inside it. What
the search gives is described without it: a label belongs to a keyword if the innermost scope around
it does (`TokenSeq.IsLabelOf`). The result is `Switch.labels_ofKeyword`: the labels of a switch are
all those that belong to its keyword, those in heads apart, in order; they give its branches, and
belong to no other switch.

The search is followed backwards, from its end. `Switch.Collected` says what has been collected
between an index and the closing brace, there is one lemma for each thing that the search can do
with a token (`Collected.nil`, `pass`, `cons`, `jump`), and `Switch.collected_labelsFrom` puts them
together along the recursion. A jump cannot say that nothing is left out: this depends on how scopes
are nested, which the search does not look at. So `Collected` only promises the labels that stand
behind the ends of all switches before them.

That these are all is a fact about links (`Switch.closer_lt_of_isLabelOf`). If a switch inside has
not ended at a label, and the label does not stand in its head, then its brace is open there and
opens later than that of the outer switch, so the outer keyword does not own the innermost scope.
Labels in the head of a switch, in front of its brace, are jumped over although they belong to the
outer switch, and nothing is said about them here.

The branches follow by induction on the list of labels (`Switch.Parted`), and the parts of a switch
are what is known of both (`Switch.Parts`, `Switch.parts_of_ofKeyword`). All that is said of
switches in other modules starts from these.
-/

namespace PhpStyle

open Braces

variable {s tokens : TokenSeq} {keyword closer stop i l : Nat} {labels : List Nat} {marker : String}
  {switch : Switch} {t : Token}

namespace TokenSeq

/-- The token `l` is a label, and the innermost scope around it belongs to `keyword`. -/
def IsLabelOf (s : TokenSeq) (keyword l : Nat) : Prop :=
  s.kindAt Kind.isLabel l = true ∧ s.owner l = some keyword

/-- The token `l` stands between the keyword of some switch and its opening brace. -/
def InSwitchHead (s : TokenSeq) (l : Nat) : Prop :=
  ∃ k o, s.kindAt (· == .kwSwitch) k = true ∧ s.opener k = some o ∧ k < l ∧ l < o

/-- The token `l` stands in the head of a switch that begins behind the token `i`. -/
def InHeadBehind (s : TokenSeq) (i l : Nat) : Prop :=
  ∃ k o, i < k ∧ s.kindAt (· == .kwSwitch) k = true ∧ s.opener k = some o ∧ k < l ∧ l < o

/-- Whether a token that is there is a label of the keyword. -/
theorem isLabelOf_iff (ht : s.get? i = some t) :
    s.IsLabelOf keyword i ↔ (t.kind.isLabel && t.enclosing? == some keyword) = true := by
  rw [IsLabelOf, kindAt_of_get? ht, owner, ht, Option.bind_some, Bool.and_eq_true, beq_iff_eq]

/-- A label of a keyword is a label. -/
theorem IsLabelOf.labelAt {pairs : List (Kind × String)} (h : (ofPairs pairs).IsLabelOf keyword l) :
    LabelAt (pairs.map (·.1)) l := by
  obtain ⟨kind, hkind, hlabel⟩ := kindAt_iff.mp h.1
  rw [kinds_ofPairs] at hkind
  exact ⟨kind, hkind, hlabel⟩

end TokenSeq

namespace Switch

/-! ### Collecting labels -/

/-- The labels of `keyword` in `[i, stop)` have been collected. What lies between a switch and its
closing brace may be left out. -/
structure Collected (tokens : TokenSeq) (keyword stop i : Nat) (labels : List Nat) : Prop where
  /-- They are in order. -/
  sorted : labels.Pairwise (· < ·)
  /-- They are labels of the keyword. -/
  sound : ∀ l ∈ labels, i ≤ l ∧ l < stop ∧ tokens.IsLabelOf keyword l
  /-- None is missing that stands behind the ends of all switches before it. -/
  complete : ∀ l, i ≤ l → l < stop → tokens.IsLabelOf keyword l →
    (∀ k c, i ≤ k → k < l → tokens.kindAt (· == .kwSwitch) k = true → tokens.closer k = some c →
      c < l) → l ∈ labels

namespace Collected

/-- There is no label in an empty range. -/
theorem nil (h : ¬ i < stop) : Collected tokens keyword stop i [] where
  sorted := List.Pairwise.nil
  sound l hl := by cases hl
  complete l hil hls := by omega

/-- A token that is no label of the keyword is passed over. -/
theorem pass (h : Collected tokens keyword stop (i + 1) labels)
    (hnot : ¬ tokens.IsLabelOf keyword i) : Collected tokens keyword stop i labels where
  sorted := h.sorted
  sound l hl := by
    obtain ⟨hil, hrest⟩ := h.sound l hl
    exact ⟨by omega, hrest⟩
  complete l hil hls hlabel hswitch := by
    have hne : l ≠ i := fun heq => hnot (heq ▸ hlabel)
    exact h.complete l (by omega) hls hlabel fun k c hik => hswitch k c (by omega)

/-- A label of the keyword is collected. -/
theorem cons (h : Collected tokens keyword stop (i + 1) labels) (hi : i < stop)
    (hlabel : tokens.IsLabelOf keyword i) : Collected tokens keyword stop i (i :: labels) where
  sorted := List.pairwise_cons.mpr ⟨fun l hl => (h.sound l hl).1, h.sorted⟩
  sound l hl := by
    rcases List.mem_cons.mp hl with rfl | hl
    · exact ⟨le_rfl, hi, hlabel⟩
    · obtain ⟨hil, hrest⟩ := h.sound l hl
      exact ⟨by omega, hrest⟩
  complete l hil hls hlabel' hswitch := by
    rcases Nat.eq_or_lt_of_le hil with rfl | hil
    · exact List.mem_cons_self
    · exact List.mem_cons_of_mem i
        (h.complete l hil hls hlabel' fun k c hik => hswitch k c (by omega))

/-- A switch is jumped over. Every label behind its keyword that is asked for stands behind its
end. -/
theorem jump {c : Nat} (h : Collected tokens keyword stop (c + 1) labels) (hic : i ≤ c)
    (hkind : tokens.kindAt (· == .kwSwitch) i = true) (hcloser : tokens.closer i = some c)
    (hnot : ¬ tokens.IsLabelOf keyword i) : Collected tokens keyword stop i labels where
  sorted := h.sorted
  sound l hl := by
    obtain ⟨hcl, hrest⟩ := h.sound l hl
    exact ⟨by omega, hrest⟩
  complete l hil hls hlabel hswitch := by
    have hne : l ≠ i := fun heq => hnot (heq ▸ hlabel)
    -- the switch at `i` is itself one of those that have to end in front of `l`
    have hcl := hswitch i c le_rfl (by omega) hkind hcloser
    exact h.complete l hcl hls hlabel fun k c' hck => hswitch k c' (by omega)

end Collected

/-- **The search for labels collects them.** -/
theorem collected_labelsFrom (h : labelsFrom tokens keyword stop i = .ok (.ok labels)) :
    Collected tokens keyword stop i labels := by
  -- the cases in which the search gives nothing contradict `h`; what is left is a jump, a label,
  -- another token, and the end of the range
  fun_induction labelsFrom tokens keyword stop i generalizing labels with
  | case1 | case2 | case4 => cases h
  | case3 i hi t ht hswitch c hc hic ih =>
      have hkind : tokens.kindAt (· == .kwSwitch) i = true := by
        rw [TokenSeq.kindAt_of_get? ht, hswitch]
        rfl
      have hcloser : tokens.closer i = some c := by rw [TokenSeq.closer, ht, Option.bind_some, hc]
      refine (ih h).jump hic hkind hcloser ?_
      rw [TokenSeq.isLabelOf_iff ht, hswitch]
      simp [Kind.isLabel]
  | case5 i hi t ht hswitch hlabel ih =>
      rcases hrest : labelsFrom tokens keyword stop (i + 1) with e | e | rest
      · rw [hrest] at h
        cases h
      · rw [hrest] at h
        cases h
      · rw [hrest] at h
        cases h
        exact (ih hrest).cons hi ((TokenSeq.isLabelOf_iff ht).mpr hlabel)
  | case6 i hi t ht hswitch hlabel ih =>
      exact (ih h).pass fun hlab => hlabel ((TokenSeq.isLabelOf_iff ht).mp hlab)
  | case7 i hi =>
      cases h
      exact Collected.nil hi

/-! ### What is jumped over -/

/-- A switch owns a scope. -/
theorem keywordAt_of_switch {kinds : List Kind} (hlinks : Links kinds kinds.length tokens)
    (hkind : tokens.kindAt (· == .kwSwitch) i = true) : KeywordAt kinds i := by
  obtain ⟨kind, hk, hswitch⟩ := TokenSeq.kindAt_iff.mp hkind
  rw [hlinks.kinds_eq] at hk
  exact ⟨kind, hk, by rw [beq_iff_eq.mp hswitch]; rfl⟩

/-- A switch inside the scope of `keyword` ends before every label of `keyword` behind it, unless
the label stands in the head of that switch. The two scopes cannot cross, and if the inner one were
still open at the label, it would be the innermost one there. -/
theorem closer_lt_of_isLabelOf {pairs : List (Kind × String)} {o k c : Nat}
    (ho : (TokenSeq.ofPairs pairs).opener keyword = some o)
    (hlabel : (TokenSeq.ofPairs pairs).IsLabelOf keyword l)
    (hhead : ¬ (TokenSeq.ofPairs pairs).InHeadBehind o l) (hok : o < k) (hkl : k < l)
    (hkind : (TokenSeq.ofPairs pairs).kindAt (· == .kwSwitch) k = true)
    (hc : (TokenSeq.ofPairs pairs).closer k = some c) : c < l := by
  have hlinks := TokenSeq.links_ofPairs pairs
  have hat := hlabel.labelAt
  have hkey := keywordAt_of_switch hlinks hkind
  -- the switch has a brace, and the closing brace closes it
  obtain ⟨b, hkopener, hkb, -⟩ := hlinks.opener_between hkey hc
  have hcloses := hlinks.closes_of_links hkopener hc
  have hb := hcloses.kind_opening
  have hbl : b ≠ l := by
    rintro rfl
    exact hat.ne rfl hb
  have hcl : c ≠ l := by
    rintro rfl
    exact hat.ne rfl hcloses.kind_closing
  have hlb : b < l := by
    by_contra hlb
    exact hhead ⟨k, b, hok, hkind, hkopener, hkl, by omega⟩
  by_contra hlc
  -- otherwise its brace is still open at the label
  have hopen : OpenAt (pairs.map (·.1)) (l + 1) b := by
    refine ⟨hb, by omega, fun d hd hdb => ?_⟩
    have := hdb.closing_unique hcloses
    omega
  -- and so it opens in front of that of the keyword, which it does not
  have hle := (TokenSeq.innermost_ofPairs hlabel.2 ho).2 b hlb hopen
  omega

/-! ### Branches -/

/-- A break that ends a body is one of its tokens. -/
theorem mem_of_terminatorOf_eq_breakAt {body : List (Token × Nat)}
    (h : terminatorOf keyword marker body = .breakAt i) :
    ∃ t, (t, i) ∈ body ∧ t.kind = .kwBreak := by
  unfold terminatorOf at h
  split at h
  · next t j hfind =>
      cases h
      have hkind := List.find?_some hfind
      rw [Bool.and_eq_true, beq_iff_eq] at hkind
      exact ⟨t, List.mem_of_find?_eq_some hfind, hkind.1⟩
  · -- no other token ends a body in a break
    unfold Option.getD at h
    split at h
    · next terminator hfind =>
        obtain ⟨⟨t, j⟩, -, hending⟩ := List.exists_of_findSome?_eq_some hfind
        simp only [h, ending?] at hending
        split at hending <;> simp at hending
    · cases h

/-- The branch of a label. -/
theorem branchOf_eq_ok {label bodyEnd : Nat} {b : Branch}
    (h : branchOf tokens keyword closer marker label bodyEnd = .ok (.ok b)) :
    b.label = label ∧ b.bodyEnd = bodyEnd ∧ tokens.opener label = some b.colon ∧
      b.isDefault = tokens.kindAt (· == .kwDefault) label ∧
      ∀ i, b.terminator = .breakAt i → tokens.kindAt (· == .kwBreak) i = true := by
  rw [branchOf] at h
  obtain ⟨t, ht, h⟩ := Checked.bind_eq_ok_iff.mp h
  split at h
  · cases h
  · next colon hcolon =>
      obtain ⟨body, hbody, h⟩ := Checked.bind_eq_ok_iff.mp h
      cases h
      refine ⟨rfl, rfl, hcolon, ?_, fun i hi => ?_⟩
      · rw [TokenSeq.kindAt_of_get? (TokenSeq.read_eq_ok_iff.mp ht)]
      · simp only at hi
        split at hi
        · cases hi
        · obtain ⟨u, hmem, hkind⟩ := mem_of_terminatorOf_eq_breakAt hi
          have hu := ((TokenSeq.mem_readRange hbody).mp hmem).2.2
          rw [TokenSeq.kindAt_of_get? hu, hkind]
          rfl

/-- What the branches of labels are. -/
structure Parted (tokens : TokenSeq) (closer : Nat) (labels : List Nat) (branches : List Branch) :
    Prop where
  /-- There is one for each label, in order. -/
  labels_eq : branches.map (·.label) = labels
  /-- A body ends at the next label, or at the closing brace. -/
  bodyEnd_eq : ∀ (n : Nat) (b : Branch), branches[n]? = some b →
    b.bodyEnd = (labels[n + 1]?).getD closer
  /-- The colon is the one that the label is linked to. -/
  opener_eq : ∀ b ∈ branches, tokens.opener b.label = some b.colon
  /-- The branches of default labels are marked. -/
  isDefault_eq : ∀ b ∈ branches, b.isDefault = tokens.kindAt (· == .kwDefault) b.label
  /-- A break that ends a body is one. -/
  break_kind : ∀ b ∈ branches, ∀ i, b.terminator = .breakAt i →
    tokens.kindAt (· == .kwBreak) i = true

/-- The labels become branches. -/
theorem parted_of_branchesOf {branches : List Branch}
    (h : branchesOf tokens keyword closer marker labels = .ok (.ok branches)) :
    Parted tokens closer labels branches := by
  induction labels generalizing branches with
  | nil =>
      cases h
      exact ⟨rfl, by simp, by simp, by simp, by simp⟩
  | cons label labels ih =>
      rw [branchesOf] at h
      obtain ⟨found, hfound, h⟩ := Checked.bind_eq_ok_iff.mp h
      cases found with
      | error e => cases h
      | ok b =>
          obtain ⟨rest, hrest, h⟩ := Checked.bind_eq_ok_iff.mp h
          cases rest with
          | error e => cases h
          | ok bs =>
              cases h
              obtain ⟨hlabel, hend, hopener, hdefault, hbreak⟩ := branchOf_eq_ok hfound
              have hbs := ih hrest
              refine ⟨by rw [List.map_cons, hlabel, hbs.labels_eq], fun n b' hb' => ?_,
                List.forall_mem_cons.mpr ⟨by rw [hlabel, hopener], hbs.opener_eq⟩,
                List.forall_mem_cons.mpr ⟨by rw [hlabel, hdefault], hbs.isDefault_eq⟩,
                List.forall_mem_cons.mpr ⟨hbreak, hbs.break_kind⟩⟩
              -- a body ends at the label of the next branch: for the first one this is the first
              -- of the other labels, for later ones it is known by induction
              cases n with
              | zero =>
                  cases hb'
                  rw [hend, List.getElem?_cons_succ, List.head?_eq_getElem?]
              | succ n => exact hbs.bodyEnd_eq n b' hb'

/-! ### The parts of a switch -/

/-- What a switch that could be taken apart consists of. -/
structure Parts (tokens : TokenSeq) (keyword : Nat) (switch : Switch) : Prop where
  /-- It is the switch of the keyword. -/
  keyword_eq : switch.keyword = keyword
  /-- Its opening brace. -/
  opener_eq : tokens.opener keyword = some switch.opener
  /-- Its closing brace. -/
  closer_eq : tokens.closer keyword = some switch.closer
  /-- Its labels are those collected between the braces. -/
  collected : Collected tokens keyword switch.closer (switch.opener + 1)
    (switch.branches.map (·.label))
  /-- Its branches are those of the labels. -/
  parted : Parted tokens switch.closer (switch.branches.map (·.label)) switch.branches

/-- A switch that could be taken apart has two braces, and its branches are those of the
labels between them. -/
theorem ofKeyword_eq_ok (h : ofKeyword tokens keyword marker = .ok (.ok switch)) :
    switch.keyword = keyword ∧ tokens.opener keyword = some switch.opener ∧
      tokens.closer keyword = some switch.closer ∧
      ∃ labels, labelsFrom tokens keyword switch.closer (switch.opener + 1) = .ok (.ok labels) ∧
        branchesOf tokens keyword switch.closer marker labels = .ok (.ok switch.branches) := by
  rw [ofKeyword] at h
  split at h
  · cases h
  · cases h
  · next opener closer hopener hcloser =>
      obtain ⟨found, hfound, h⟩ := Checked.bind_eq_ok_iff.mp h
      cases found with
      | error e => cases h
      | ok labels =>
          obtain ⟨rest, hrest, h⟩ := Checked.bind_eq_ok_iff.mp h
          cases rest with
          | error e => cases h
          | ok branches =>
              cases h
              exact ⟨rfl, hopener, hcloser, labels, hfound, hrest⟩

/-- The parts of a switch. -/
theorem parts_of_ofKeyword (h : ofKeyword tokens keyword marker = .ok (.ok switch)) :
    Parts tokens keyword switch := by
  obtain ⟨hkeyword, hopener, hcloser, labels, hlabels, hbranches⟩ := ofKeyword_eq_ok h
  have hparted := parted_of_branchesOf hbranches
  obtain rfl := hparted.labels_eq
  exact ⟨hkeyword, hopener, hcloser, collected_labelsFrom hlabels, hparted⟩

namespace Parts

/-- The labels of a switch are labels of its keyword, between its braces. -/
theorem isLabelOf (h : Parts tokens keyword switch) {b : Branch} (hb : b ∈ switch.branches) :
    switch.opener < b.label ∧ b.label < switch.closer ∧ tokens.IsLabelOf keyword b.label :=
  h.collected.sound b.label (List.mem_map_of_mem hb)

/-- The labels of its keyword between its braces are labels of the switch, those in the heads of
switches inside apart. -/
theorem mem_labels_of_not_inHeadBehind {pairs : List (Kind × String)}
    (h : Parts (TokenSeq.ofPairs pairs) keyword switch) (hol : switch.opener < l)
    (hlc : l < switch.closer) (hlabel : (TokenSeq.ofPairs pairs).IsLabelOf keyword l)
    (hhead : ¬ (TokenSeq.ofPairs pairs).InHeadBehind switch.opener l) :
    l ∈ switch.branches.map (·.label) := by
  refine h.collected.complete l hol hlc hlabel fun k c hok hkl hswitch hc => ?_
  exact closer_lt_of_isLabelOf h.opener_eq hlabel hhead hok hkl hswitch hc

/-- The labels of its keyword between its braces are labels of the switch, those in heads apart. -/
theorem mem_labels {pairs : List (Kind × String)}
    (h : Parts (TokenSeq.ofPairs pairs) keyword switch) (hol : switch.opener < l)
    (hlc : l < switch.closer) (hlabel : (TokenSeq.ofPairs pairs).IsLabelOf keyword l)
    (hhead : ¬ (TokenSeq.ofPairs pairs).InSwitchHead l) : l ∈ switch.branches.map (·.label) := by
  refine h.mem_labels_of_not_inHeadBehind hol hlc hlabel ?_
  rintro ⟨k, o, -, hswitch, ho, hkl, hlo⟩
  exact hhead ⟨k, o, hswitch, ho, hkl, hlo⟩

/-- A branch that is not a default one is a case. -/
theorem not_isDefault (h : Parts tokens keyword switch) {b : Branch} (hb : b ∈ switch.branches) :
    (!b.isDefault) = tokens.kindAt (· == .kwCase) b.label := by
  rw [h.parted.isDefault_eq b hb]
  obtain ⟨kind, hkind, hlabel⟩ := TokenSeq.kindAt_iff.mp (h.isLabelOf hb).2.2.1
  -- its kind is that of a label, and there are two of these
  have hget : ∀ p : Kind → Bool, tokens.kindAt p b.label = p kind := by
    intro p
    rw [TokenSeq.kinds_getElem?] at hkind
    obtain ⟨t, ht, rfl⟩ := Option.map_eq_some_iff.mp hkind
    exact TokenSeq.kindAt_of_get? ht
  rw [hget, hget]
  revert hlabel
  cases kind <;> decide

/-- The labels of the cases. -/
theorem map_label_cases (h : Parts tokens keyword switch) :
    switch.cases.map (·.label) =
      (switch.branches.map (·.label)).filter (tokens.kindAt (· == .kwCase)) := by
  rw [cases, List.filter_map]
  exact congrArg _ (List.filter_congr fun b hb => h.not_isDefault hb)

/-- The label of the default branch. -/
theorem map_label_default? (h : Parts tokens keyword switch) :
    switch.default?.map (·.label) =
      ((switch.branches.map (·.label)).filter (tokens.kindAt (· == .kwDefault))).getLast? := by
  rw [default?, List.filter_map, List.getLast?_map]
  exact congrArg _ (congrArg _ (List.filter_congr fun b hb => h.parted.isDefault_eq b hb))

end Parts

/-- **The labels of a switch are those that belong to it.** Each is a case or default label between
the braces whose innermost scope is that of the keyword. Every such label is among them, those in
the head of a switch apart, however the scopes between the braces are nested and whatever is missing
elsewhere. They are in order; the cases are the branches of the case labels, the default branch is
that of the last default label, and a body reaches to the next label or to the closing brace. No
label belongs to the switches of two keywords. -/
theorem labels_ofKeyword (pairs : List (Kind × String)) (keyword : Nat) (marker : String)
    (switch : Switch)
    (h : ofKeyword (TokenSeq.ofPairs pairs) keyword marker = .ok (.ok switch)) :
    let s := TokenSeq.ofPairs pairs
    let labels := switch.branches.map (·.label)
    (switch.keyword = keyword ∧ s.opener keyword = some switch.opener ∧
      s.closer keyword = some switch.closer) ∧
    (∀ l ∈ labels, switch.opener < l ∧ l < switch.closer ∧ s.kindAt Kind.isLabel l = true ∧
      s.owner l = some keyword) ∧
    (∀ l, switch.opener < l → l < switch.closer → s.kindAt Kind.isLabel l = true →
      s.owner l = some keyword → ¬ s.InSwitchHead l → l ∈ labels) ∧
    labels.Pairwise (· < ·) ∧
    switch.cases.map (·.label) = labels.filter (s.kindAt (· == .kwCase)) ∧
    switch.default?.map (·.label) = (labels.filter (s.kindAt (· == .kwDefault))).getLast? ∧
    (∀ (n : Nat) (b : Branch), switch.branches[n]? = some b →
      b.bodyEnd = (labels[n + 1]?).getD switch.closer) ∧
    ∀ (keyword' : Nat) (marker' : String) (switch' : Switch),
      ofKeyword s keyword' marker' = .ok (.ok switch') → keyword' ≠ keyword →
      ∀ b ∈ switch.branches, ∀ b' ∈ switch'.branches, b.label ≠ b'.label := by
  intro s labels
  have hparts := parts_of_ofKeyword h
  refine ⟨⟨hparts.keyword_eq, hparts.opener_eq, hparts.closer_eq⟩,
    fun l hl => hparts.collected.sound l hl, ?_, hparts.collected.sorted,
    hparts.map_label_cases, hparts.map_label_default?, hparts.parted.bodyEnd_eq, ?_⟩
  · intro l hol hlc hkind howner hhead
    exact hparts.mem_labels hol hlc ⟨hkind, howner⟩ hhead
  · intro keyword' marker' switch' h' hne b hb b' hb' heq
    -- the innermost scope around the label would belong to both keywords
    have howner := (hparts.isLabelOf hb).2.2.2
    have howner' := ((parts_of_ofKeyword h').isLabelOf hb').2.2.2
    rw [← heq, howner, Option.some.injEq] at howner'
    exact hne howner'.symm

/-- A switch with a block and a switch inside, both of which have labels. -/
def nestedSwitch : List (Kind × String) :=
  [(.kwSwitch, "switch"), (.openBrace, "\x7b"), (.kwCase, "case"), (.colon, ":"),
    (.controlKeyword, "if"), (.openBrace, "\x7b"), (.kwDefault, "default"), (.colon, ":"),
    (.closeBrace, "\x7d"), (.kwSwitch, "switch"), (.openBrace, "\x7b"), (.kwCase, "case"),
    (.colon, ":"), (.closeBrace, "\x7d"), (.kwDefault, "default"), (.colon, ":"),
    (.closeBrace, "\x7d")]

/-- The outer switch has one case and one default. -/
theorem labels_ofKeyword_nestedSwitch :
    ofKeyword (TokenSeq.ofPairs nestedSwitch) 0 "" =
      .ok (.ok ⟨0, 1, 16,
        [⟨2, false, 3, 14, false, .absent⟩, ⟨14, true, 15, 16, false, .absent⟩]⟩) ∧
    ∀ l, 1 < l → l < 16 → (TokenSeq.ofPairs nestedSwitch).kindAt Kind.isLabel l = true →
      (TokenSeq.ofPairs nestedSwitch).owner l = some 0 →
      ¬ (TokenSeq.ofPairs nestedSwitch).InSwitchHead l → l ∈ [2, 14] := by
  have h : ofKeyword (TokenSeq.ofPairs nestedSwitch) 0 "" =
      .ok (.ok ⟨0, 1, 16, [⟨2, false, 3, 14, false, .absent⟩,
        ⟨14, true, 15, 16, false, .absent⟩]⟩) := by
    decide +kernel
  exact ⟨h, (labels_ofKeyword nestedSwitch 0 "" _ h).2.2.1⟩

end Switch

end PhpStyle
