import BrivoUsbs.Contracts.ECDSA

/-!
# Strings

The vendored `Strings` library as it computes: a loop counts the digits of a number, and another one
writes them into a buffer of that length, from the last one.  `Strings.toString` in the module on
signatures says what comes of it.

`toStringUint256` and `toHexStringUint256` are the overloads that are given the number alone, and
`toHexString` is given the length too.  `checkRoleMessage` is the text `_checkRole` of
`AccessControl` puts together of them, which `Error.missingRole` stands for.
-/

namespace BrivoUsbs

namespace Strings

/-- `_HEX_SYMBOLS` -/
def hexSymbols : Bytes := ascii "0123456789abcdef".toList

/-- `new bytes(size)` -/
def newBytes (size : Uint256) : Tx Error Bytes :=
  if size.toNat < 2 ^ 64 then .ok (List.replicate size.toNat 0) else .error (.panic .arrayTooLarge)

/-- The loop of `toString` that counts the digits. -/
def countDigits (temp digits : Uint256) : Tx Error Uint256 :=
  if h : temp = 0 then .ok digits
  else do
    let digits ← checkedAdd digits 1
    countDigits (temp / 10) digits
termination_by temp.toNat
decreasing_by
  have hpos := toNat_pos h
  rw [BitVec.toNat_udiv]
  exact Nat.div_lt_self hpos (by decide)

/-- The loop of `toString` that writes the digits. -/
def writeDigits (buffer : Bytes) (digits value : Uint256) : Tx Error Bytes :=
  if h : value = 0 then .ok buffer
  else do
    let digits ← checkedSub digits 1
    let symbol ← checkedAdd 48 (value % 10)
    let buffer ← arraySet buffer digits (symbol.setWidth 8)
    writeDigits buffer digits (value / 10)
termination_by value.toNat
decreasing_by
  have hpos := toNat_pos h
  rw [BitVec.toNat_udiv]
  exact Nat.div_lt_self hpos (by decide)

/-- `toString(uint256)` -/
def toStringUint256 (value : Uint256) : Tx Error Bytes :=
  if value = 0 then .ok (ascii ['0'])
  else do
    let digits ← countDigits value 0
    let buffer ← newBytes digits
    writeDigits buffer digits value

/-- The loop of `toHexString` that writes the digits at the indices from `i` down to 2.  It leaves
what of the number has not been written. -/
def writeHex (buffer : Bytes) (value : Uint256) : (i : ℕ) → Tx Error (Bytes × Uint256)
  | 0 | 1 => .ok (buffer, value)
  | i + 2 => do
      let symbol ← arrayGet hexSymbols (value &&& 0xf)
      let buffer ← arraySet buffer (BitVec.ofNat 256 (i + 2)) symbol
      writeHex buffer (value >>> 4) (i + 1)

/-- `toHexString(uint256, uint256)` -/
def toHexString (value length : Uint256) : Tx Error Bytes := do
  let size ← checkedAdd (← checkedMul 2 length) 2
  let buffer ← newBytes size
  let buffer ← arraySet buffer 0 (BitVec.ofNat 8 '0'.toNat)
  let buffer ← arraySet buffer 1 (BitVec.ofNat 8 'x'.toNat)
  let i ← checkedAdd (← checkedMul 2 length) 1
  let (buffer, value) ← writeHex buffer value i.toNat
  require (value = 0) "Strings: hex length insufficient"
  return buffer

/-- The loop of `toHexString` that counts the bytes. -/
def countBytes (temp length : Uint256) : Tx Error Uint256 :=
  if _ : temp = 0 then .ok length
  else do
    let length ← checkedAdd length 1
    countBytes (temp >>> 8) length
termination_by temp.toNat
decreasing_by
  rw [BitVec.toNat_ushiftRight, Nat.shiftRight_eq_div_pow]
  exact Nat.div_lt_self (toNat_pos ‹_›) (by decide)

/-- `toHexString(uint256)` -/
def toHexStringUint256 (value : Uint256) : Tx Error Bytes :=
  if value = 0 then .ok (ascii "0x00".toList)
  else do
    let length ← countBytes value 0
    toHexString value length

end Strings

namespace AccessControl

/-- The message of `_checkRole`, by the word of the role. -/
def checkRoleMessage (role : Bytes32) (account : Address) : Tx Error Bytes := do
  let account ← Strings.toHexString (account.setWidth 256) 20
  let role ← Strings.toHexString role 32
  return ascii "AccessControl: account ".toList ++ account ++
    ascii " is missing role ".toList ++ role

end AccessControl

end BrivoUsbs
