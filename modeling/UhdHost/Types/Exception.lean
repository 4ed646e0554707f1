/-!
# Exceptions

The exceptions of `uhd/exception.hpp` that the modelled code throws, with their texts, and
`std::out_of_range`, whose text is up to the standard library, `std::invalid_argument` and
`std::runtime_error`.
-/

namespace UhdHost

/-- An exception. -/
inductive UhdError where
  | assertionError (what : String)
  | valueError (what : String)
  | typeError (what : String)
  | lookupError (what : String)
  | keyError (what : String)
  | runtimeError (what : String)
  /-- Without the place in the code that the text ends with. -/
  | systemError (what : String)
  | accessError (what : String)
  | rfnocError (what : String)
  | outOfRange
  | resolveError (what : String)
  | invalidArgument (what : String)
  | ioError (what : String)
  | opFailed (what : String)
  /-- `std::runtime_error`, and not `uhd::runtime_error` -/
  | stdRuntimeError (what : String)
  deriving DecidableEq, Repr

end UhdHost
