import Exemplar.Json.Document
import Exemplar.Json.OctetReader
import Exemplar.Proofs.PathText
import Exemplar.Proofs.Utf8

/-! Where a document is said to stop being JSON. The index of the first error lies in the text, so its
line and column do, lines being separated by newline characters. Where no error is found, the end of
the text is reported in lines of another kind, and these are the same lines only if nothing but
newlines, with or without a carriage return before them, ends a line. -/
namespace Exemplar.Text

end Exemplar.Text

namespace Exemplar.Json

variable {s : List Char} {line column index i : Nat}

end Exemplar.Json
