import Mathlib.Algebra.Ring.Nat

set_option autoImplicit false

namespace Pocx.PlotFile

def scoopSize : Nat := 64

def numScoops : Nat := 4096

def nonceSize : Nat := numScoops * scoopSize

def warpSize : Nat := numScoops * nonceSize

end Pocx.PlotFile
