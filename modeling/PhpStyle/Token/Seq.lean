import PhpStyle.Fault
import PhpStyle.Token.Basic

/-!
# Token sequences

`TokenSeq` is the list of tokens of one source text, with the searches that the analyses make in
it.

* `read`, `readRange` — the token at an index, or the tokens in a range, that must exist; an index
  past the end is a fault.
* `ahead`, `behind` — the indices that a search forwards or backwards looks at, in their order.
* `nextOf`, `nextNot` — the first token in a half-open range whose kind is, or is not, among the
  given ones.
* `prevOf`, `prevNot` — the last such token in a closed range, searching downwards.
* `opener`, `closer`, `owner` — the scope links of a token, absent past the end.
* `textOf` — the text of a range of tokens.
-/

namespace PhpStyle

/-- The tokens of a source text, in order. -/
structure TokenSeq where
  /-- The tokens. -/
  tokens : Array Token := #[]
  deriving DecidableEq, Repr

namespace TokenSeq

/-- The number of tokens. -/
def size (s : TokenSeq) : Nat := s.tokens.size

/-- Whether there is no token. -/
def isEmpty (s : TokenSeq) : Bool := s.tokens.isEmpty

/-- The token at an index, if there is one. -/
def get? (s : TokenSeq) (i : Nat) : Option Token := s.tokens[i]?

/-- The token at an index that is expected to exist. -/
def read (s : TokenSeq) (i : Nat) : Checked Token :=
  match s.get? i with
  | some t => .ok t
  | none => .error (.noToken i)

/-- The tokens in `[start, stop)`, all of which are expected to exist, with their indices. -/
def readRange (s : TokenSeq) (start stop : Nat) : Checked (List (Token × Nat)) :=
  (List.range' start (stop - start)).mapM fun i => do return (← s.read i, i)

/-- Whether there is a token at `i` whose kind satisfies `p`. -/
def kindAt (s : TokenSeq) (p : Kind → Bool) (i : Nat) : Bool := (s.get? i).any (p ·.kind)

/-! ## Searches -/

/-- The indices in `[start, stop)`, upwards. Without `stop` the range ends with the sequence. -/
def ahead (s : TokenSeq) (start : Nat) (stop : Option Nat) : List Nat :=
  List.range' start (min (stop.getD s.size) s.size - start)

/-- The indices in `[floor, start]`, downwards. A start past the end counts as the last token. -/
def behind (s : TokenSeq) (start floor : Nat) : List Nat :=
  if s.isEmpty then [] else (List.range' floor (min start (s.size - 1) + 1 - floor)).reverse

/-- The first index in `[start, stop)` whose kind satisfies `p`. -/
def next (s : TokenSeq) (p : Kind → Bool) (start : Nat) (stop : Option Nat) : Option Nat :=
  (s.ahead start stop).find? (s.kindAt p)

/-- The last index in `[floor, start]` whose kind satisfies `p`. -/
def prev (s : TokenSeq) (p : Kind → Bool) (start floor : Nat) : Option Nat :=
  (s.behind start floor).find? (s.kindAt p)

/-- The first index in `[start, stop)` whose kind is one of `kinds`. -/
def nextOf (s : TokenSeq) (kinds : List Kind) (start : Nat) (stop : Option Nat) : Option Nat :=
  s.next (kinds.contains ·) start stop

/-- The first index in `[start, stop)` whose kind is none of `kinds`. -/
def nextNot (s : TokenSeq) (kinds : List Kind) (start : Nat) (stop : Option Nat) : Option Nat :=
  s.next (!kinds.contains ·) start stop

/-- The last index in `[floor, start]` whose kind is one of `kinds`. -/
def prevOf (s : TokenSeq) (kinds : List Kind) (start floor : Nat) : Option Nat :=
  s.prev (kinds.contains ·) start floor

/-- The last index in `[floor, start]` whose kind is none of `kinds`. -/
def prevNot (s : TokenSeq) (kinds : List Kind) (start floor : Nat) : Option Nat :=
  s.prev (!kinds.contains ·) start floor

/-! ## Links -/

/-- The opening brace, or the colon, that the token at `i` is linked to. -/
def opener (s : TokenSeq) (i : Nat) : Option Nat := (s.get? i).bind (·.opener)

/-- The closing brace that the token at `i` is linked to. -/
def closer (s : TokenSeq) (i : Nat) : Option Nat := (s.get? i).bind (·.closer)

/-- The owner of the innermost scope around the token at `i`. -/
def owner (s : TokenSeq) (i : Nat) : Option Nat := (s.get? i).bind (·.enclosing?)

/-! ## Text -/

/-- The concatenated text of the tokens `start` to `last`, both included, as far as they exist. -/
def textOf (s : TokenSeq) (start last : Nat) : String :=
  String.join (((s.tokens.toList.take (last + 1)).drop start).map (·.text))

end TokenSeq

end PhpStyle
