import BrivoUsbs.Contracts.AccessControl

/-!
# Signatures

What the contracts use of the vendored `ECDSA` and `Strings` libraries.  The hash function of the
chain and the precompile that recovers a signer are parameters: nothing is assumed of them.
-/

namespace BrivoUsbs

/-- A string of the source, by its bytes. -/
abbrev Bytes := List (BitVec 8)

/-- The bytes of an ASCII text. -/
def ascii (text : List Char) : Bytes := text.map fun c => BitVec.ofNat 8 c.toNat

/-- What the chain computes for the contracts. -/
structure Cryptography where
  keccak256 : Bytes → Bytes32
  /-- The precompile answers the zero address where there is no signer. -/
  ecrecover : (hash : Bytes32) → (v : BitVec 8) → (r s : Bytes32) → Address

namespace Strings

/-- In decimal. -/
def toString (value : ℕ) : Bytes := ascii (Nat.toDigits 10 value)

end Strings

namespace ECDSA

inductive RecoverError
  | noError
  | invalidSignature
  | invalidSignatureLength
  | invalidSignatureS
  | invalidSignatureV

/-- `_throwError` -/
def internalThrowError : RecoverError → Tx Error Unit
  | .noError => .ok ()
  | .invalidSignature => .error (.message "ECDSA: invalid signature")
  | .invalidSignatureLength => .error (.message "ECDSA: invalid signature length")
  | .invalidSignatureS => .error (.message "ECDSA: invalid signature 's' value")
  -- The deprecated error has no branch of its own.
  | .invalidSignatureV => .ok ()

/-- Half the order of the curve, rounded down. -/
def maxS : Bytes32 := 0x7FFFFFFFFFFFFFFFFFFFFFFFFFFFFFFF5D576E7357A4501DDFE92F46681B20A0

def tryRecover (crypto : Cryptography) (hash : Bytes32) (v : BitVec 8) (r s : Bytes32) :
    Address × RecoverError :=
  if maxS < s then (0, .invalidSignatureS)
  else
    let signer := crypto.ecrecover hash v r s
    if signer = 0 then (0, .invalidSignature) else (signer, .noError)

def recover (crypto : Cryptography) (hash : Bytes32) (v : BitVec 8) (r s : Bytes32) :
    Tx Error Address := do
  let (recovered, error) := tryRecover crypto hash v r s
  internalThrowError error
  return recovered

/-- `toEthSignedMessageHash(bytes)` -/
def toEthSignedMessageHash (crypto : Cryptography) (message : Bytes) : Bytes32 :=
  crypto.keccak256 (ascii "\x19Ethereum Signed Message:\n".toList ++
    Strings.toString message.length ++ message)

end ECDSA

end BrivoUsbs
