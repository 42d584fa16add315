import CircuitNetlist.Fault
import CircuitNetlist.Json.Circuit
import CircuitNetlist.Format
import CircuitNetlist.Options

/-!
# The interchange format of options

Options and format names. A missing option has its default.
-/
namespace CircuitNetlist

namespace Format

def toJson (f : Format) : Json :=
  .ofString f.name

def decode : Decoder Format :=
  .choice (namedBy name all)

end Format

namespace Options

def toJson (o : Options) : Json :=
  .ofFields [("indent", .ofString o.indent), ("header", .ofList Json.ofString o.header)]

def decode : Decoder Options :=
  .record ["indent", "header"] fun
    | depth, [indent, header] => do
      let indent ← Decoder.orElse "  " .text depth indent
      let header ← Decoder.orElse [] (.list .text) depth header
      return { indent, header }
    | _, _ => none

/-- The options of a JSON text. A text that has none is at fault, with what is reported of it. -/
def ofJsonText (report : String → String) (text : String) : Except Fault Options :=
  match (Json.parse? text).bind (decode jsonDepthLimit) with
  | some options => .ok options
  | none => .error (.plain (.json (report text)))

end Options

end CircuitNetlist
