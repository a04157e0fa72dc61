import PhpStyle.Proofs.Safety.Basic
import PhpStyle.Switch.Basic

/-!
# Taking a switch apart meets no fault

In a linked sequence the closing brace of a switch is a token behind everything that is read of it,
a nested switch ends behind its keyword, and a label has its colon behind it. So the search for
labels moves forward and stays in the sequence (`Switch.ends_labelsFrom`, by the recursion of the
search: the jump over a nested switch goes forward because its closing brace stands behind it), each
body is read up to a token that exists (`Switch.ends_branchOf`), and what is taken apart lies in the
sequence (`Switch.ends_ofKeyword`, with `Switch.Within` for where the parts lie).

Whether a switch can be taken apart at all is another matter: a missing brace or colon is no fault
but an answer, and nothing is said of it here.
-/

namespace PhpStyle

variable {fits : Prop} {tokens : TokenSeq} {keyword closer stop i label bodyEnd : Nat}
  {marker : String} {kinds : List Kind} {b : Branch} {switch : Switch}

/-! ### Parts that lie in the sequence -/

/-- A branch lies in front of the token `closer`. -/
structure Branch.Within (tokens : TokenSeq) (closer : Nat) (b : Branch) : Prop where
  /-- The colon stands behind the label. -/
  label_lt : b.label < b.colon
  /-- The colon exists. -/
  colon_lt : b.colon < tokens.size
  /-- The body ends with the switch at the latest. -/
  bodyEnd_le : b.bodyEnd ≤ closer
  /-- What ends the body stands in it. -/
  terminator_mem : ∀ i, b.terminator.index? = some i → b.colon < i ∧ i < b.bodyEnd

/-- A switch lies in the sequence. -/
structure Switch.Within (tokens : TokenSeq) (switch : Switch) : Prop where
  /-- The keyword exists. -/
  keyword_lt : switch.keyword < tokens.size
  /-- The closing brace exists. -/
  closer_lt : switch.closer < tokens.size
  /-- The branches lie in front of it. -/
  branches : ∀ b ∈ switch.branches, b.Within tokens switch.closer

namespace Switch

/-! ### Labels -/

/-- The token that a keyword is closed by stands behind the keyword. -/
theorem lt_closer_of_switch {t : Token} {c : Nat}
    (hlinks : Links kinds kinds.length tokens) (ht : tokens.get? i = some t)
    (hswitch : t.kind = .kwSwitch) (hc : t.closer = some c) : i < c := by
  have hkey : KeywordAt kinds i := ⟨t.kind, hlinks.kind_of_get? ht, by rw [hswitch]; rfl⟩
  have hcloser : tokens.closer i = some c := by
    rw [TokenSeq.closer, ht]
    exact hc
  obtain ⟨o, -, hio, hoc⟩ := hlinks.opener_between hkey hcloser
  exact hio.trans hoc

/-- The search for labels ends. What it gives are labels in front of `stop`. -/
theorem ends_labelsFrom (hlinks : Links kinds kinds.length tokens) (hstop : stop ≤ tokens.size) :
    Ends fits (labelsFrom tokens keyword stop i) fun found =>
      ∀ labels, found = .ok labels → ∀ label ∈ labels, label < stop ∧ LabelAt kinds label := by
  fun_induction labelsFrom tokens keyword stop i with
  | case1 i hi hnone =>
      -- there is no token although `i` is below the size
      obtain ⟨t, ht⟩ := TokenSeq.exists_get? (Nat.lt_of_lt_of_le hi hstop)
      rw [hnone] at ht
      cases ht
  | case2 => exact Ends.ok fun labels h => by cases h
  | case3 i hi t ht hswitch c hc hic ih => exact ih
  | case4 i hi t ht hswitch c hc hic =>
      exact absurd (Nat.le_of_lt (lt_closer_of_switch hlinks ht hswitch hc)) hic
  | case5 i hi t ht hswitch hlabel ih =>
      refine ih.map fun found hfound labels hlabels => ?_
      cases found with
      | error e => cases hlabels
      | ok rest =>
          cases hlabels
          have hkind := hlinks.kind_of_get? ht
          rw [Bool.and_eq_true] at hlabel
          exact List.forall_mem_cons.mpr ⟨⟨hi, t.kind, hkind, hlabel.1⟩, hfound rest rfl⟩
  | case6 i hi t ht hswitch hlabel ih => exact ih
  | case7 => exact Ends.ok fun labels h => by cases h; simp

/-! ### Branches -/

/-- A token that can end a body does so at its own index. -/
theorem index_of_ending? {t : Token} {terminator : Terminator}
    (h : ending? marker t i = some terminator) : terminator.index? = some i := by
  unfold ending? at h
  split at h
  · cases h
    rfl
  · cases h
    rfl
  · split at h
    · cases h
      rfl
    · cases h
  · cases h

/-- What ends a body is one of its tokens. -/
theorem mem_of_index_terminatorOf {body : List (Token × Nat)}
    (h : (terminatorOf keyword marker body).index? = some i) : ∃ t, (t, i) ∈ body := by
  unfold terminatorOf at h
  split at h
  · next t b hfind =>
      cases h
      exact ⟨t, List.mem_of_find?_eq_some hfind⟩
  · unfold Option.getD at h
    split at h
    · next terminator hfind =>
        obtain ⟨⟨t, j⟩, hmem, hending⟩ := List.exists_of_findSome?_eq_some hfind
        have hindex := (index_of_ending? hending).symm.trans h
        cases hindex
        exact ⟨t, List.mem_reverse.mp hmem⟩
    · cases h

/-- The branch of a label lies in front of the closing brace. -/
theorem ends_branchOf (hlinks : Links kinds kinds.length tokens) (hcloser : closer < tokens.size)
    (hlabel : LabelAt kinds label) (hend : bodyEnd ≤ closer) :
    Ends fits (branchOf tokens keyword closer marker label bodyEnd) fun found =>
      ∀ b, found = .ok b → b.Within tokens closer := by
  have hsize := hlinks.size_eq
  have hlt : label < kinds.length := by
    obtain ⟨kind, hkind, -⟩ := hlabel
    exact (List.getElem?_eq_some_iff.mp hkind).1
  rw [branchOf]
  refine (TokenSeq.ends_read (by omega)).bind fun t _ => ?_
  split
  · exact Ends.pure fun b h => by cases h
  · next colon hcolon =>
      obtain ⟨hlc, hcn, -⟩ := (hlinks.label label hlt hlabel).2 colon hcolon
      refine (TokenSeq.ends_readRange (by omega)).bind fun body hbody => ?_
      have hcs : colon < tokens.size := by omega
      refine Ends.pure fun b h => ?_
      cases h
      refine ⟨hlc, hcs, hend, fun i hi => ?_⟩
      simp only at hi
      split at hi
      · cases hi
      · obtain ⟨t, ht⟩ := mem_of_index_terminatorOf hi
        obtain ⟨hstart, hstop, -⟩ := hbody _ ht
        exact ⟨hstart, hstop⟩

/-- The branches of labels lie in front of the closing brace. -/
theorem ends_branchesOf (hlinks : Links kinds kinds.length tokens)
    (hcloser : closer < tokens.size) {labels : List Nat}
    (hlabels : ∀ label ∈ labels, label < closer ∧ LabelAt kinds label) :
    Ends fits (branchesOf tokens keyword closer marker labels) fun found =>
      ∀ branches, found = .ok branches → ∀ b ∈ branches, b.Within tokens closer := by
  induction labels with
  | nil => exact Ends.ok fun branches h => by cases h; simp
  | cons label labels ih =>
      have hend : labels.head?.getD closer ≤ closer := by
        rcases hhead : labels.head? with _ | next
        · exact le_rfl
        · have hmem := List.mem_of_head? hhead
          exact le_of_lt (hlabels next (List.mem_cons_of_mem label hmem)).1
      rw [branchesOf]
      refine (ends_branchOf hlinks hcloser (hlabels label List.mem_cons_self).2 hend).bind
        fun found hfound => ?_
      cases found with
      | error e => exact Ends.pure fun branches h => by cases h
      | ok b =>
          refine (ih fun l hl => hlabels l (List.mem_cons_of_mem label hl)).bind
            fun rest hrest => ?_
          refine Ends.pure fun branches h => ?_
          cases rest with
          | error e => cases h
          | ok bs =>
              cases h
              exact List.forall_mem_cons.mpr ⟨hfound b rfl, hrest bs rfl⟩

/-- **A switch is taken apart without a fault**, and its parts lie in the sequence. -/
theorem ends_ofKeyword (hlinks : Links kinds kinds.length tokens)
    (hkeyword : keyword < tokens.size) :
    Ends fits (ofKeyword tokens keyword marker) fun found =>
      ∀ switch, found = .ok switch → switch.Within tokens := by
  rw [ofKeyword]
  split
  · exact Ends.pure fun switch h => by cases h
  · exact Ends.pure fun switch h => by cases h
  · next opener closer hopener hcloser =>
      have hlt : closer < tokens.size := by
        rw [hlinks.size_eq]
        exact (hlinks.closes_of_links hopener hcloser).lt_length
      refine (ends_labelsFrom hlinks hlt.le).bind fun found hfound => ?_
      cases found with
      | error e => exact Ends.pure fun switch h => by cases h
      | ok labels =>
          refine (ends_branchesOf hlinks hlt (hfound labels rfl)).bind fun rest hrest => ?_
          refine Ends.pure fun switch h => ?_
          cases rest with
          | error e => cases h
          | ok branches =>
              cases h
              exact ⟨hkeyword, hlt, hrest branches rfl⟩

end Switch

/-! ### Parts that exist -/

namespace Branch.Within

/-- The label exists. -/
theorem label_lt_size (h : b.Within tokens closer) : b.label < tokens.size :=
  h.label_lt.trans h.colon_lt

/-- What ends the body exists, and has a token in front of it. -/
theorem terminator_lt (h : b.Within tokens closer) (hcloser : closer < tokens.size)
    (hi : b.terminator.index? = some i) : 0 < i ∧ i < tokens.size := by
  have := h.terminator_mem i hi
  have := h.bodyEnd_le
  omega

end Branch.Within

namespace Switch

/-- The cases are branches. -/
theorem mem_branches_of_mem_cases (h : b ∈ switch.cases) : b ∈ switch.branches :=
  (List.mem_filter.mp h).1

/-- So is the default branch. -/
theorem mem_branches_of_default? (h : switch.default? = some b) : b ∈ switch.branches :=
  (List.mem_filter.mp (List.mem_of_getLast? h)).1

end Switch

end PhpStyle
