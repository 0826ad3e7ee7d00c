import LanguageHost.Path
import LanguageHost.Table

/-!
How a language server is launched: the program, its arguments, and what its environment adds.
-/
namespace LanguageHost

structure ServerBinary where
  path : Path
  args : List String
  env : Table String
deriving DecidableEq, Repr

/-- The program at a path, which is cleaned, with no arguments and nothing added to its environment. -/
def ServerBinary.ofPath (path : Path) : ServerBinary := ⟨path.clean, [], []⟩

end LanguageHost
