import Stencil.Template.CompileError
import Stencil.Bytecode.Codec

/-!
# Why a template cannot be loaded

* `LoadError`: the errors, with `message` and the error of compilation behind one, if any.
-/

namespace Stencil

/-- Why there is no program of a given name. -/
inductive LoadError
  | notFound (name : String) (searched : List String)
  /-- The file is there, but it holds no text. -/
  | notText (path : String)
  | parse (name message : String)
  | compile (name : String) (error : CompileError)
  | decode (error : DecodeError)
  deriving DecidableEq

namespace LoadError

/-- The text of the error. -/
def message : LoadError → String
  | notFound name [] => s!"template '{name}' not found"
  | notFound name searched =>
    s!"template '{name}' not found (searched: " ++ ", ".intercalate searched ++ ")"
  | notText path => s!"cannot read '{path}': stream did not contain valid UTF-8"
  | parse name message => s!"cannot parse '{name}': {message}"
  | compile name error => s!"cannot compile '{name}': {error.message}"
  | decode error => s!"cannot decode program: {error.message}"

/-- The error of compilation behind the error. -/
def cause? : LoadError → Option CompileError
  | compile _ error => some error
  | _ => none

end LoadError

end Stencil
