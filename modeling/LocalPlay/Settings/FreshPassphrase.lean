import LocalPlay.Text.Hex

/-!
# Fresh passphrases

Players that want a network of their own are offered a passphrase with a random number in it.
-/

namespace LocalPlay

def freshPassphrase (random : UInt32) : String :=
  "Ryujinx-" ++ Text.hexDigits 8 random.toNat

end LocalPlay
