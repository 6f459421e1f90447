import LocalPlay.Net.Ip
import LocalPlay.Net.IoError

/-!
# The address others on the local network can use

Of the addresses of this machine's interfaces, loopback addresses are of no use to anyone else. Of
the rest the first IPv4 address is offered, or the first of all if none is IPv4.
-/

namespace LocalPlay.Net

/-- The addresses of the local interfaces, or why they could not be read. -/
abbrev Interfaces := Except IoError (List Ip)

def pickLanAddress (addresses : List Ip) : Option Ip :=
  let usable := addresses.filter (!·.isLoopback)
  match usable.find? (·.isV4) with
  | some ip => some ip
  | none => usable.head?

def Interfaces.lanAddress (interfaces : Interfaces) : Except IoError (Option Ip) :=
  interfaces.map pickLanAddress

end LocalPlay.Net
