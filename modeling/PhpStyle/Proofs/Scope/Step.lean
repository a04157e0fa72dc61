import Mathlib.Data.List.Basic
import PhpStyle.Token.Builder

/-!
# What one step of the linker writes

The links of a token are looked at through the sequence that a linker holds (`Linker.seq`). A step
rewrites single tokens of it (`TokenSeq.edit`): `seq_step_openBrace`, `seq_step_closeBrace`,
`seq_step_colon` and `seq_step_of_ne` give the sequence behind a step of each sort. What an edit
does to a link is said once (`bind_get?_edit`, `bind_get?_edit_of_eq`), and from both follows what
a step does to it:

* the opening link changes at an opening brace (`opener_step_openBrace`), at a closing brace that
  closes a scope (`opener_step_closeBrace`) and at a colon that ends a label
  (`opener_step_colon`), and nowhere else (`opener_step_of_ne`);
* the closing link changes at a closing brace that closes a scope (`closer_step_closeBrace`), and
  nowhere else (`closer_step_of_ne`);
* the owners around a token are noted when the step comes to it (`enclosing_step`).

`Linker.run_induction` carries a property from step to step to the end of the pass.
-/

namespace PhpStyle

/-! ### Edits of a sequence -/

/-- A token without its links. -/
def Token.bare (t : Token) : Token := { t with opener := none, closer := none, enclosing := [] }

namespace TokenSeq

/-- The kinds of the tokens, in order. -/
def kinds (s : TokenSeq) : List Kind := s.tokens.toList.map (·.kind)

/-- The tokens without their links, in order. -/
def bare (s : TokenSeq) : List Token := s.tokens.toList.map Token.bare

/-- The owners of the scopes around the token at `i`, innermost first. -/
def enclosing (s : TokenSeq) (i : Nat) : List Nat := ((s.get? i).map (·.enclosing)).getD []

/-- The sequence with the token at `i` changed. -/
def edit (s : TokenSeq) (i : Nat) (f : Token → Token) : TokenSeq := ⟨s.tokens.modify i f⟩

variable {s : TokenSeq} {i j : Nat} {t : Token} {f : Token → Token}

/-- There are as many kinds as tokens. -/
@[simp] theorem length_kinds (s : TokenSeq) : s.kinds.length = s.size := by
  simp [kinds, size]

/-- The kind at an index is the kind of the token there. -/
theorem kinds_getElem? (s : TokenSeq) (i : Nat) : s.kinds[i]? = (s.get? i).map (·.kind) := by
  simp [kinds, get?]

/-- The links do not matter to the kinds. -/
theorem kinds_eq_bare (s : TokenSeq) : s.kinds = s.bare.map (·.kind) := by
  simp [kinds, bare, Function.comp_def, Token.bare]

/-- There is a token at every index below the size. -/
theorem exists_get? (h : i < s.size) : ∃ t, s.get? i = some t :=
  ⟨_, Array.getElem?_eq_getElem h⟩

/-- There is no token past the end. -/
theorem lt_size_of_get? (h : s.get? i = some t) : i < s.size :=
  (Array.getElem?_eq_some_iff.mp h).1

/-- An edit changes one token. -/
theorem get?_edit :
    (s.edit i f).get? j = if j = i then (s.get? j).map f else s.get? j := by
  simp only [edit, get?, Array.getElem?_modify, eq_comm]

/-- An edit adds and removes no token. -/
@[simp] theorem size_edit : (s.edit i f).size = s.size := by
  simp [edit, size]

/-- An edit of links changes nothing else. -/
theorem bare_edit (hf : ∀ t, (f t).bare = t.bare) : (s.edit i f).bare = s.bare := by
  apply List.ext_getElem?
  intro k
  have hbare : ∀ s : TokenSeq, s.bare[k]? = (s.get? k).map Token.bare := by
    intro s
    simp [bare, get?]
  rw [hbare, hbare, get?_edit]
  split
  · simp [Function.comp_def, hf]
  · rfl

/-- What an edit does to a link that it sets to `v`. -/
theorem bind_get?_edit {α : Type} {g : Token → Option α} {v : Option α} (hi : i < s.size)
    (hf : ∀ t, g (f t) = v) :
    ((s.edit i f).get? j).bind g = if j = i then v else (s.get? j).bind g := by
  rw [get?_edit]
  split
  · next h =>
    subst h
    obtain ⟨t, ht⟩ := exists_get? hi
    simp [ht, hf]
  · rfl

/-- What an edit does to a link that it keeps. -/
theorem bind_get?_edit_of_eq {α : Type} {g : Token → Option α} (hf : ∀ t, g (f t) = g t) :
    ((s.edit i f).get? j).bind g = (s.get? j).bind g := by
  rw [get?_edit]
  split
  · cases s.get? j <;> simp [hf]
  · rfl

/-- An edit that sets the owners around a token. -/
theorem enclosing_edit {v : List Nat} (hi : i < s.size) (hf : ∀ t, (f t).enclosing = v) :
    (s.edit i f).enclosing j = if j = i then v else s.enclosing j := by
  simp only [enclosing, get?_edit]
  split
  · next h =>
    subst h
    obtain ⟨t, ht⟩ := exists_get? hi
    simp [ht, hf]
  · rfl

/-- An edit that keeps the owners around a token. -/
theorem enclosing_edit_of_eq (hf : ∀ t, (f t).enclosing = t.enclosing) :
    (s.edit i f).enclosing j = s.enclosing j := by
  simp only [enclosing, get?_edit]
  split
  · simp [Function.comp_def, hf]
  · rfl

/-- The sequence with the token at `i` linked to the opening brace or colon `v`. -/
def setOpener (s : TokenSeq) (i v : Nat) : TokenSeq := s.edit i fun t => { t with opener := some v }

/-- The sequence with the token at `i` linked to the closing brace `v`. -/
def setCloser (s : TokenSeq) (i v : Nat) : TokenSeq := s.edit i fun t => { t with closer := some v }

/-- The sequence with the token at `i` linked to both braces of a scope. -/
def setBoth (s : TokenSeq) (i o c : Nat) : TokenSeq :=
  s.edit i fun t => { t with opener := some o, closer := some c }

/-- The sequence with the owners around the token at `i` noted. -/
def setEnclosing (s : TokenSeq) (i : Nat) (owners : List Nat) : TokenSeq :=
  s.edit i fun t => { t with enclosing := owners }

section links

variable {v o c : Nat} {owners : List Nat}

@[simp] theorem size_setOpener : (s.setOpener i v).size = s.size := size_edit
@[simp] theorem size_setCloser : (s.setCloser i v).size = s.size := size_edit
@[simp] theorem size_setBoth : (s.setBoth i o c).size = s.size := size_edit
@[simp] theorem size_setEnclosing : (s.setEnclosing i owners).size = s.size := size_edit

@[simp] theorem bare_setOpener : (s.setOpener i v).bare = s.bare := bare_edit fun _ => rfl
@[simp] theorem bare_setCloser : (s.setCloser i v).bare = s.bare := bare_edit fun _ => rfl
@[simp] theorem bare_setBoth : (s.setBoth i o c).bare = s.bare := bare_edit fun _ => rfl
@[simp] theorem bare_setEnclosing : (s.setEnclosing i owners).bare = s.bare :=
  bare_edit fun _ => rfl

theorem opener_setOpener (hi : i < s.size) :
    (s.setOpener i v).opener j = if j = i then some v else s.opener j :=
  bind_get?_edit hi fun _ => rfl

theorem opener_setBoth (hi : i < s.size) :
    (s.setBoth i o c).opener j = if j = i then some o else s.opener j :=
  bind_get?_edit hi fun _ => rfl

@[simp] theorem opener_setCloser : (s.setCloser i v).opener j = s.opener j :=
  bind_get?_edit_of_eq fun _ => rfl

@[simp] theorem opener_setEnclosing : (s.setEnclosing i owners).opener j = s.opener j :=
  bind_get?_edit_of_eq fun _ => rfl

theorem closer_setCloser (hi : i < s.size) :
    (s.setCloser i v).closer j = if j = i then some v else s.closer j :=
  bind_get?_edit hi fun _ => rfl

theorem closer_setBoth (hi : i < s.size) :
    (s.setBoth i o c).closer j = if j = i then some c else s.closer j :=
  bind_get?_edit hi fun _ => rfl

@[simp] theorem closer_setOpener : (s.setOpener i v).closer j = s.closer j :=
  bind_get?_edit_of_eq fun _ => rfl

@[simp] theorem closer_setEnclosing : (s.setEnclosing i owners).closer j = s.closer j :=
  bind_get?_edit_of_eq fun _ => rfl

theorem enclosing_setEnclosing (hi : i < s.size) :
    (s.setEnclosing i owners).enclosing j = if j = i then owners else s.enclosing j :=
  enclosing_edit hi fun _ => rfl

@[simp] theorem enclosing_setOpener : (s.setOpener i v).enclosing j = s.enclosing j :=
  enclosing_edit_of_eq fun _ => rfl

@[simp] theorem enclosing_setCloser : (s.setCloser i v).enclosing j = s.enclosing j :=
  enclosing_edit_of_eq fun _ => rfl

@[simp] theorem enclosing_setBoth : (s.setBoth i o c).enclosing j = s.enclosing j :=
  enclosing_edit_of_eq fun _ => rfl

end links

end TokenSeq

/-! ### The sequence behind a step -/

namespace Linker

/-- The tokens of a linker as a sequence. -/
def seq (l : Linker) : TokenSeq := ⟨l.tokens⟩

variable {l : Linker} {i j : Nat} {kind : Kind} {scope : Scope} {outer : List Scope}

/-- At most kinds a step writes no link. -/
theorem seq_step_of_ne (hopen : kind ≠ .openBrace) (hclose : kind ≠ .closeBrace)
    (hcolon : kind ≠ .colon) :
    (l.step kind i).seq = l.seq.setEnclosing i (l.scopes.map (·.owner)) := by
  cases kind <;> first | rfl | contradiction

/-- An opening brace links the waiting keyword and itself. -/
theorem seq_step_openBrace :
    (l.step .openBrace i).seq =
      ((l.seq.setEnclosing i (l.scopes.map (·.owner))).setOpener (l.waiting.getD i) i).setOpener
        i i :=
  rfl

/-- A closing brace links the owner and the brace of the innermost scope, and itself; the scope is
not around it. -/
theorem seq_step_closeBrace (h : l.scopes = scope :: outer) :
    (l.step .closeBrace i).seq =
      ((((l.seq.setEnclosing i (l.scopes.map (·.owner))).setCloser scope.owner i).setCloser
        scope.brace i).setBoth i scope.brace i).setEnclosing i (outer.map (·.owner)) := by
  -- a step notes the owners first, and then does what the kind asks for
  change ((l.enclose i).closeScope i).seq = _
  rw [closeScope, show (l.enclose i).scopes = scope :: outer from h]
  simp only [seq, enclose, edit, TokenSeq.setEnclosing, TokenSeq.setCloser, TokenSeq.setBoth,
    TokenSeq.edit]

/-- Without an open scope a closing brace writes no link. -/
theorem seq_step_closeBrace_nil (h : l.scopes = []) :
    (l.step .closeBrace i).seq = l.seq.setEnclosing i (l.scopes.map (·.owner)) := by
  change ((l.enclose i).closeScope i).seq = _
  rw [closeScope, show (l.enclose i).scopes = [] from h]
  rfl

/-- A colon links the waiting label that stands as deep. -/
theorem seq_step_colon {label : Nat} (h : l.label = some (label, l.depth)) :
    (l.step .colon i).seq =
      (l.seq.setEnclosing i (l.scopes.map (·.owner))).setOpener label i := by
  change ((l.enclose i).endLabel i).seq = _
  rw [endLabel, show (l.enclose i).label = some (label, l.depth) from h]
  exact congrArg Linker.seq (if_pos rfl)

/-- Without a waiting label as deep a colon writes no link. -/
theorem seq_step_colon_of_ne (h : ∀ label, l.label ≠ some (label, l.depth)) :
    (l.step .colon i).seq = l.seq.setEnclosing i (l.scopes.map (·.owner)) := by
  change ((l.enclose i).endLabel i).seq = _
  rcases hl : l.label with _ | ⟨label, depth⟩
  · rw [endLabel, show (l.enclose i).label = none from hl]
    rfl
  · have hd : depth ≠ l.depth := fun hd => h label (hd ▸ hl)
    rw [endLabel, show (l.enclose i).label = some (label, depth) from hl]
    exact congrArg Linker.seq (if_neg hd)

/-- A step changes nothing but links. -/
@[simp] theorem bare_step : (l.step kind i).seq.bare = l.seq.bare := by
  by_cases hopen : kind = .openBrace
  · subst hopen
    simp [seq_step_openBrace]
  by_cases hclose : kind = .closeBrace
  · subst hclose
    rcases h : l.scopes with _ | ⟨scope, outer⟩
    · simp [seq_step_closeBrace_nil h]
    · simp [seq_step_closeBrace h]
  by_cases hcolon : kind = .colon
  · subst hcolon
    by_cases h : ∃ label, l.label = some (label, l.depth)
    · obtain ⟨label, h⟩ := h
      simp [seq_step_colon h]
    · simp [seq_step_colon_of_ne (not_exists.mp h)]
  · simp [seq_step_of_ne hopen hclose hcolon]

/-- A step changes no kind. -/
@[simp] theorem kinds_step : (l.step kind i).seq.kinds = l.seq.kinds := by
  rw [TokenSeq.kinds_eq_bare, TokenSeq.kinds_eq_bare, bare_step]

/-! ### The links behind a step -/

/-- Opening links change at braces and colons only. -/
theorem opener_step_of_ne (hopen : kind ≠ .openBrace) (hclose : kind ≠ .closeBrace)
    (hcolon : kind ≠ .colon) : (l.step kind i).seq.opener j = l.seq.opener j := by
  rw [seq_step_of_ne hopen hclose hcolon, TokenSeq.opener_setEnclosing]

/-- An opening brace is linked to itself, and so is the keyword that waits for it. -/
theorem opener_step_openBrace (hi : i < l.seq.size)
    (hw : ∀ k, l.waiting = some k → k < l.seq.size) :
    (l.step .openBrace i).seq.opener j =
      if j = i ∨ l.waiting = some j then some i else l.seq.opener j := by
  have howner : l.waiting.getD i < l.seq.size := by
    rcases hk : l.waiting with _ | k
    · exact hi
    · exact hw k hk
  rw [seq_step_openBrace, TokenSeq.opener_setOpener (by simpa using hi),
    TokenSeq.opener_setOpener (by simpa using howner), TokenSeq.opener_setEnclosing]
  by_cases hji : j = i
  · simp [hji]
  · rcases l.waiting with _ | k
    · simp [hji]
    · simp [hji, eq_comm]

/-- A closing brace is linked to the brace of the innermost scope. -/
theorem opener_step_closeBrace (hi : i < l.seq.size) (h : l.scopes = scope :: outer) :
    (l.step .closeBrace i).seq.opener j =
      if j = i then some scope.brace else l.seq.opener j := by
  rw [seq_step_closeBrace h, TokenSeq.opener_setEnclosing,
    TokenSeq.opener_setBoth (by simpa using hi), TokenSeq.opener_setCloser,
    TokenSeq.opener_setCloser, TokenSeq.opener_setEnclosing]

/-- A closing brace that closes nothing writes no opening link. -/
theorem opener_step_closeBrace_nil (h : l.scopes = []) :
    (l.step .closeBrace i).seq.opener j = l.seq.opener j := by
  rw [seq_step_closeBrace_nil h, TokenSeq.opener_setEnclosing]

/-- A label is linked to the colon that ends it. -/
theorem opener_step_colon {label : Nat} (hlabel : label < l.seq.size)
    (h : l.label = some (label, l.depth)) :
    (l.step .colon i).seq.opener j = if j = label then some i else l.seq.opener j := by
  rw [seq_step_colon h, TokenSeq.opener_setOpener (by simpa using hlabel),
    TokenSeq.opener_setEnclosing]

/-- A colon that ends no label writes no opening link. -/
theorem opener_step_colon_of_ne (h : ∀ label, l.label ≠ some (label, l.depth)) :
    (l.step .colon i).seq.opener j = l.seq.opener j := by
  rw [seq_step_colon_of_ne h, TokenSeq.opener_setEnclosing]

/-- Closing links change at closing braces only. -/
theorem closer_step_of_ne (hclose : kind ≠ .closeBrace) :
    (l.step kind i).seq.closer j = l.seq.closer j := by
  by_cases hopen : kind = .openBrace
  · subst hopen
    simp [seq_step_openBrace]
  by_cases hcolon : kind = .colon
  · subst hcolon
    by_cases h : ∃ label, l.label = some (label, l.depth)
    · obtain ⟨label, h⟩ := h
      simp [seq_step_colon h]
    · simp [seq_step_colon_of_ne (not_exists.mp h)]
  · simp [seq_step_of_ne hopen hclose hcolon]

/-- The owner and both braces of the innermost scope are linked to the brace that closes it. -/
theorem closer_step_closeBrace (hi : i < l.seq.size) (howner : scope.owner < l.seq.size)
    (hbrace : scope.brace < l.seq.size) (h : l.scopes = scope :: outer) :
    (l.step .closeBrace i).seq.closer j =
      if j = i ∨ j = scope.brace ∨ j = scope.owner then some i else l.seq.closer j := by
  rw [seq_step_closeBrace h, TokenSeq.closer_setEnclosing,
    TokenSeq.closer_setBoth (by simpa using hi), TokenSeq.closer_setCloser (by simpa using hbrace),
    TokenSeq.closer_setCloser (by simpa using howner), TokenSeq.closer_setEnclosing]
  by_cases hji : j = i <;> by_cases hjb : j = scope.brace <;> simp [hji, hjb]

/-- A closing brace that closes nothing writes no closing link. -/
theorem closer_step_closeBrace_nil (h : l.scopes = []) :
    (l.step .closeBrace i).seq.closer j = l.seq.closer j := by
  rw [seq_step_closeBrace_nil h, TokenSeq.closer_setEnclosing]

/-- The owners around a token are those of the scopes that are open when the step comes to it. A
closing brace is outside the scope that it closes. -/
theorem enclosing_step (hi : i < l.seq.size) :
    (l.step kind i).seq.enclosing j =
      if j = i then
        (if kind = .closeBrace then l.scopes.tail else l.scopes).map (·.owner)
      else l.seq.enclosing j := by
  by_cases hopen : kind = .openBrace
  · subst hopen
    simp [seq_step_openBrace, TokenSeq.enclosing_setEnclosing hi]
  by_cases hclose : kind = .closeBrace
  · subst hclose
    rcases h : l.scopes with _ | ⟨scope, outer⟩
    · simp [seq_step_closeBrace_nil h, h, TokenSeq.enclosing_setEnclosing hi]
    · -- the owners are noted twice, and the second time without the scope that was closed
      rw [seq_step_closeBrace h, TokenSeq.enclosing_setEnclosing (by simpa using hi)]
      by_cases hji : j = i
      · simp [hji]
      · simp [hji, TokenSeq.enclosing_setEnclosing hi]
  by_cases hcolon : kind = .colon
  · subst hcolon
    by_cases h : ∃ label, l.label = some (label, l.depth)
    · obtain ⟨label, h⟩ := h
      simp [seq_step_colon h, TokenSeq.enclosing_setEnclosing hi]
    · simp [seq_step_colon_of_ne (not_exists.mp h), TokenSeq.enclosing_setEnclosing hi]
  · simp [seq_step_of_ne hopen hclose hcolon, hclose, TokenSeq.enclosing_setEnclosing hi]

/-! ### The state behind a step -/

/-- Closing a scope takes it off the open ones. -/
theorem scopes_closeScope (l : Linker) : (l.closeScope i).scopes = l.scopes.tail := by
  rw [closeScope]
  split
  · next h => simp only [h, List.tail_nil]
  · next h => simp only [h, enclose, edit, List.tail_cons]

/-- Closing a scope lets a keyword wait. -/
theorem waiting_closeScope (l : Linker) : (l.closeScope i).waiting = l.waiting := by
  rw [closeScope]
  split
  · rfl
  · simp only [enclose, edit]

/-- Closing a scope lets a label wait. -/
theorem label_closeScope (l : Linker) : (l.closeScope i).label = l.label := by
  rw [closeScope]
  split
  · rfl
  · simp only [enclose, edit]

/-- Closing a scope where none is open is noted. -/
theorem unmatched_closeScope (l : Linker) :
    (l.closeScope i).unmatched = if l.scopes = [] then i :: l.unmatched else l.unmatched := by
  rw [closeScope]
  split
  · next h => rw [if_pos h]
  · next h =>
      rw [if_neg (by rw [h]; exact List.cons_ne_nil _ _)]
      simp only [enclose, edit]

/-- Ending a label changes nothing but the label and its link. -/
theorem endLabel_fields (l : Linker) :
    (l.endLabel i).scopes = l.scopes ∧ (l.endLabel i).waiting = l.waiting ∧
      (l.endLabel i).unmatched = l.unmatched := by
  rw [endLabel]
  split
  · split
    · exact ⟨rfl, rfl, rfl⟩
    · exact ⟨rfl, rfl, rfl⟩
  · exact ⟨rfl, rfl, rfl⟩

/-- Only braces open and close scopes. -/
theorem scopes_step_of_ne (hopen : kind ≠ .openBrace) (hclose : kind ≠ .closeBrace) :
    (l.step kind i).scopes = l.scopes := by
  by_cases hcolon : kind = .colon
  · subst hcolon
    exact (l.enclose i).endLabel_fields.1
  · cases kind <;> first | rfl | contradiction

/-- An opening brace opens a scope of the waiting keyword, or else of its own. -/
theorem scopes_step_openBrace :
    (l.step .openBrace i).scopes = ⟨l.waiting.getD i, i⟩ :: l.scopes :=
  rfl

/-- A closing brace closes the innermost scope. -/
theorem scopes_step_closeBrace : (l.step .closeBrace i).scopes = l.scopes.tail :=
  (l.enclose i).scopes_closeScope

/-- A keyword that owns a scope waits for its brace; a brace or a semicolon ends the waiting. -/
theorem waiting_step :
    (l.step kind i).waiting =
      if kind.ownsScope then some i
      else if kind = .semicolon ∨ kind = .openBrace then none else l.waiting := by
  by_cases hclose : kind = .closeBrace
  · subst hclose
    exact (l.enclose i).waiting_closeScope
  by_cases hcolon : kind = .colon
  · subst hcolon
    exact (l.enclose i).endLabel_fields.2.1
  · cases kind <;> first | rfl | contradiction

/-- A label waits for its colon; nothing but a colon ends the waiting. -/
theorem label_step_of_ne (hcolon : kind ≠ .colon) :
    (l.step kind i).label = if kind.isLabel then some (i, l.depth) else l.label := by
  by_cases hclose : kind = .closeBrace
  · subst hclose
    exact (l.enclose i).label_closeScope
  · cases kind <;> first | rfl | contradiction

/-- A colon that ends a label leaves none waiting. -/
theorem label_step_colon {label : Nat} (h : l.label = some (label, l.depth)) :
    (l.step .colon i).label = none := by
  change ((l.enclose i).endLabel i).label = _
  rw [endLabel, show (l.enclose i).label = some (label, l.depth) from h]
  exact congrArg Linker.label (if_pos rfl)

/-- A colon that ends no label changes none. -/
theorem label_step_colon_of_ne (h : ∀ label, l.label ≠ some (label, l.depth)) :
    (l.step .colon i).label = l.label := by
  change ((l.enclose i).endLabel i).label = _
  rcases hl : l.label with _ | ⟨label, depth⟩
  · rw [endLabel, show (l.enclose i).label = none from hl]
    exact hl
  · have hd : depth ≠ l.depth := fun hd => h label (hd ▸ hl)
    rw [endLabel, show (l.enclose i).label = some (label, depth) from hl]
    exact (congrArg Linker.label (if_neg hd)).trans hl

/-- A closing brace is noted as unmatched when no scope is open. -/
theorem unmatched_step :
    (l.step kind i).unmatched =
      if kind = .closeBrace ∧ l.scopes = [] then i :: l.unmatched else l.unmatched := by
  by_cases hclose : kind = .closeBrace
  · subst hclose
    simp only [true_and]
    exact (l.enclose i).unmatched_closeScope
  rw [if_neg fun h => hclose h.1]
  by_cases hcolon : kind = .colon
  · subst hcolon
    exact (l.enclose i).endLabel_fields.2.2
  · cases kind <;> first | rfl | contradiction

/-! ### The whole pass -/

/-- A property that holds at the start of a list of kinds and is kept by each step holds behind
it. -/
theorem foldl_induction {P : Nat → Linker → Prop} :
    ∀ (kinds : List Kind) (n : Nat) (l : Linker), P n l →
      (∀ m l kind, kinds[m]? = some kind → P (n + m) l → P (n + m + 1) (l.step kind (n + m))) →
      P (n + kinds.length) ((kinds.zipIdx n).foldl (fun l (kind, i) => l.step kind i) l)
  | [], _, _, h, _ => h
  | kind :: kinds, n, l, h, hstep => by
      have hnext : P (n + 1) (l.step kind n) := hstep 0 l kind rfl h
      -- the index `m` behind the first kind is `m + 1` from the start
      have hrest := foldl_induction kinds (n + 1) (l.step kind n) hnext fun m l kind hk hm => by
        have hadd : n + 1 + m = n + (m + 1) := by omega
        rw [hadd] at hm ⊢
        exact hstep (m + 1) l kind hk hm
      rw [List.length_cons, List.zipIdx_cons, List.foldl_cons]
      rwa [show n + (kinds.length + 1) = n + 1 + kinds.length by omega]

/-- **Induction over the pass.** A property that holds of the tokens as they are given and is kept
by each step holds of the linked tokens. -/
theorem run_induction {tokens : Array Token} {P : Nat → Linker → Prop} (hstart : P 0 { tokens })
    (hstep : ∀ n l kind, (TokenSeq.mk tokens).kinds[n]? = some kind → P n l →
      P (n + 1) (l.step kind n)) :
    P tokens.size (run tokens) := by
  have h := foldl_induction (TokenSeq.mk tokens).kinds 0 { tokens } hstart fun n l kind hk hn => by
    rw [Nat.zero_add] at hn ⊢
    exact hstep n l kind hk hn
  rwa [Nat.zero_add, TokenSeq.length_kinds] at h

/-- The pass changes nothing but links. -/
theorem bare_run (tokens : Array Token) : (run tokens).seq.bare = (TokenSeq.mk tokens).bare :=
  run_induction (P := fun _ l => l.seq.bare = (TokenSeq.mk tokens).bare) rfl
    fun _ _ _ _ h => bare_step.trans h

end Linker

end PhpStyle
