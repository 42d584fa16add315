/-!
# Output options

Options that all dialects share: the indentation of module bodies and extra header lines.
-/
namespace CircuitNetlist

structure Options where
  /-- What each level of nesting is indented by. -/
  indent : String := "  "
  /-- Comment lines at the end of the package header. -/
  header : List String := []
deriving DecidableEq, Repr, Inhabited

namespace Options

def withIndent (o : Options) (indent : String) : Options :=
  { o with indent }

def withHeaderLine (o : Options) (line : String) : Options :=
  { o with header := o.header ++ [line] }

end Options

end CircuitNetlist
