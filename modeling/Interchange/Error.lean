import Interchange.Diagnostic.Basic
import Interchange.Kind

/-! Failures of locking and naming. -/

namespace Interchange

inductive Error where
  | invalidName (ty name : String)
  | unsupportedShape (ty : String) (kind : Kind)
  | notInSubset (ty : String)
  | foreignSubset
  | registrationFailed (diagnostics : Diagnostics)
deriving DecidableEq, Repr

def Error.message : Error → String
  | invalidName ty name => "invalid name `" ++ name ++ "` for `" ++ ty ++ "`"
  | unsupportedShape ty kind => "naming does not support `" ++ ty ++ "` (" ++ kind.name ++ ")"
  | notInSubset ty => "`" ++ ty ++ "` is not in the exchangeable set"
  | foreignSubset => "exchangeable set belongs to another type system"
  | registrationFailed diagnostics => s!"registration failed with {diagnostics.errors.length} errors"

end Interchange
