import Seam.Binary64

set_option autoImplicit false

namespace Seam

structure Settings where
  number : Nat
  verbosity : Int
  fraction : Binary64
deriving DecidableEq, Repr

def Settings.standard : Settings := ⟨1, 0, .ofFloat 0.15⟩

end Seam
