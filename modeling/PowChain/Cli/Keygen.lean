import PowChain.Cli.Grammar
import PowChain.Account.KeyPair

/-!
# The key program

The key program prints a fresh key pair: its address, its compressed public
key and its secret key in hex, and a reminder that the secret is kept
nowhere.  It reads no arguments.  Its randomness is the secret it is given.
-/

namespace PowChain
namespace Cli

/-- The key program run with the secret `secret`. -/
def runKeygen (secret : ByteArray) : Outcome :=
  match KeyPair.ofSecretBytes secret with
  | .ok k =>
    { code := 0
      stdout := "Address:     " ++ k.address.encode ++ "\nPublic key:  " ++ Hex.encode k.publicKeyBytes ++
        "\nSecret key:  " ++ k.secretHex ++ "\n\nKeep the secret key private; it is not stored anywhere.\n" }
  | .error e => { code := 1, stderr := "Error: " ++ e.debug ++ "\n" }

end Cli
end PowChain
