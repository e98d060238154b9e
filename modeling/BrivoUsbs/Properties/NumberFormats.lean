import BrivoUsbs.Contracts.Strings
import BrivoUsbs.Framework.Digits

/-!
# The formats of numbers

The loops of `Strings` write the digits of a number, no more and no fewer, and reading them gives
the number back: in decimal for every number (`toString_exact`), and in hexadecimal for every number
that fits in the given length (`toHexString_exact`), where the loops never leave the buffer.  So
the message of access control names the account and the role that it is about
(`checkRoleMessage_exact`).
-/

namespace BrivoUsbs

namespace Strings

open Digits

variable {value length : Uint256} {buffer text : Bytes} {d n : ℕ}

/-- The symbol of a digit. -/
def symbol (d : ℕ) : BitVec 8 := hexSymbols.getD d 0

/-- The number a text of digits denotes. -/
def valueOf (base : ℕ) (text : Bytes) : ℕ := ofDigits base (text.map (hexSymbols.idxOf ·))

lemma symbol_spec (hd : d < 16) : hexSymbols[d]? = some (symbol d) ∧
    hexSymbols.idxOf (symbol d) = d := by
  have hall : ∀ d < 16, hexSymbols[d]? = some (symbol d) ∧ hexSymbols.idxOf (symbol d) = d := by
    decide
  exact hall d hd

/-- The decimal digits are in the order of their codes. -/
lemma symbol_decimal (hd : d < 10) : BitVec.ofNat 8 (48 + d) = symbol d ∧
    BitVec.ofNat 8 d.digitChar.toNat = symbol d := by
  have hall : ∀ d < 10, BitVec.ofNat 8 (48 + d) = symbol d ∧
      BitVec.ofNat 8 d.digitChar.toNat = symbol d := by decide
  exact hall d hd

lemma valueOf_symbols {base : ℕ} {ds : List ℕ} (hds : ∀ d ∈ ds, d < 16) :
    valueOf base (ds.map symbol) = ofDigits base ds := by
  have hread : (ds.map symbol).map (hexSymbols.idxOf ·) = ds.map id := by
    rw [List.map_map]
    exact List.map_congr_left fun d hd => (symbol_spec (hds d hd)).2
  rw [valueOf, hread, List.map_id]

lemma toNat_zero : (0 : Uint256).toNat = 0 := rfl

/-- A loop that divides a number by the base until nothing is left counts its digits. -/
lemma count_eq {base : ℕ} {loop : Uint256 → Uint256 → Tx Error Uint256} {next : Uint256 → Uint256}
    (hbase : 1 < base) (hnext : ∀ temp, (next temp).toNat = temp.toNat / base)
    (hdone : ∀ count, loop 0 count = .ok count)
    (hloop : ∀ temp count, temp ≠ 0 →
      loop temp count = checkedAdd count 1 >>= fun count => loop (next temp) count)
    {temp count : Uint256} (h : count.toNat + numDigits base temp.toNat < 2 ^ 256) :
    ∃ total, loop temp count = .ok total ∧
      total.toNat = count.toNat + numDigits base temp.toNat := by
  induction hn : temp.toNat using Nat.strong_induction_on generalizing temp count with
  | _ n ih =>
      subst hn
      by_cases hzero : temp = 0
      · subst hzero
        exact ⟨count, hdone count, by rw [toNat_zero, numDigits_zero, add_zero]⟩
      · have hpos := toNat_pos hzero
        have hmore := numDigits_of_pos hbase hpos
        obtain ⟨count', hcount⟩ : ∃ count' : Uint256, count'.toNat = count.toNat + 1 :=
          exists_toNat_eq (by omega)
        obtain ⟨total, htotal, heq⟩ := ih (next temp).toNat
          (by rw [hnext]; exact Nat.div_lt_self hpos hbase)
          (by rw [hcount, hnext]; omega : count'.toNat + numDigits base (next temp).toNat < 2 ^ 256)
          rfl
        refine ⟨total, ?_, by rw [heq, hcount, hnext, hmore]; omega⟩
        rw [hloop temp count hzero, checkedAdd_eq_ok.mpr hcount, ok_bind, htotal]

/-! ## Decimal -/

lemma numDigits_le_78 (value : Uint256) : numDigits 10 value.toNat ≤ 78 :=
  numDigits_le (by decide) (value.isLt.trans (by norm_num))

lemma countDigits_eq (value : Uint256) :
    ∃ digits, countDigits value 0 = .ok digits ∧ digits.toNat = numDigits 10 value.toNat := by
  have hfew := numDigits_le_78 value
  have hdiv : ∀ temp : Uint256, (temp / 10).toNat = temp.toNat / 10 := fun _ => BitVec.toNat_udiv
  have hdone : ∀ digits, countDigits 0 digits = .ok digits := fun digits => by
    rw [countDigits, dif_pos rfl]
  have hloop : ∀ temp digits, temp ≠ 0 → countDigits temp digits =
      checkedAdd digits 1 >>= fun digits => countDigits (temp / 10) digits :=
    fun temp digits h => by rw [countDigits, dif_neg h]
  obtain ⟨digits, hcount, heq⟩ := count_eq (by decide) hdiv hdone hloop
    (by rw [toNat_zero]; omega : (0 : Uint256).toNat + numDigits 10 value.toNat < 2 ^ 256)
  exact ⟨digits, hcount, by rw [heq, toNat_zero, zero_add]⟩

lemma arraySet_of_lt {buffer : Bytes} {index : Uint256} (h : index.toNat < buffer.length)
    (a : BitVec 8) : (arraySet buffer index a : Tx Error Bytes) = .ok (buffer.set index.toNat a) :=
  if_pos h

lemma writeDigits_eq {value digits : Uint256} {buffer : Bytes}
    (hdigits : digits.toNat = numDigits 10 value.toNat) (hle : digits.toNat ≤ buffer.length) :
    writeDigits buffer digits value = .ok
      ((Digits.digits 10 digits.toNat value.toNat).map symbol ++ buffer.drop digits.toNat) := by
  induction hn : value.toNat using Nat.strong_induction_on generalizing value digits buffer with
  | _ n ih =>
      subst hn
      rw [writeDigits]
      by_cases hzero : value = 0
      · subst hzero
        rw [dif_pos rfl, hdigits, toNat_zero, numDigits_zero]
        rfl
      · have hpos := toNat_pos hzero
        have hmore := numDigits_of_pos (by decide : 1 < 10) hpos
        have hrest : (value / 10).toNat = value.toNat / 10 := BitVec.toNat_udiv
        have hlast : (value % 10).toNat = value.toNat % 10 := BitVec.toNat_umod
        obtain ⟨digits', hdigits'⟩ : ∃ digits' : Uint256,
            digits'.toNat = numDigits 10 (value / 10).toNat :=
          exists_toNat_eq (by rw [hrest]; have := digits.isLt; omega)
        have hsucc : digits.toNat = digits'.toNat + 1 := by rw [hdigits', hrest, hdigits, hmore]
        obtain ⟨code, hcode⟩ : ∃ code : Uint256, code.toNat = 48 + value.toNat % 10 :=
          exists_toNat_eq (by omega)
        have hsymbol : code.setWidth 8 = symbol (value.toNat % 10) := by
          rw [← (symbol_decimal (Nat.mod_lt _ (by decide))).1, ← hcode]
          exact BitVec.eq_of_toNat_eq (by simp)
        rw [dif_neg hzero, checkedSub_eq_ok.mpr hsucc.symm, ok_bind,
          checkedAdd_eq_ok.mpr (by rw [hcode, hlast]; rfl : code.toNat = _), ok_bind,
          arraySet_of_lt (by omega), ok_bind,
          ih (value / 10).toNat (by rw [hrest]; omega) hdigits'
            (by rw [List.length_set]; omega) rfl,
          hsymbol, drop_set_self (by omega), hsucc, Digits.digits, hrest, List.map_append,
          List.append_assoc]
        rfl

/-- The digits of a positive number, by its text. -/
lemma toString_eq_digits (hn : 0 < n) :
    toString n = (Digits.digits 10 (numDigits 10 n) n).map symbol := by
  induction n using Nat.strong_induction_on with
  | _ n ih =>
      rw [numDigits_of_pos (by decide) hn, Digits.digits, List.map_append, List.map_singleton,
        ← (symbol_decimal (Nat.mod_lt n (by decide))).2]
      rcases Nat.lt_or_ge n 10 with hlt | hge
      · rw [Nat.div_eq_of_lt hlt, numDigits_zero, Nat.mod_eq_of_lt hlt, toString,
          Nat.toDigits_of_lt_base hlt]
        rfl
      · rw [toString, Nat.toDigits_of_base_le (by decide) hge, ascii, List.map_append, ← ascii,
          ← toString, ih (n / 10) (by omega) (by omega)]
        rfl

lemma newBytes_eq {size : Uint256} (h : size.toNat < 2 ^ 64) :
    newBytes size = .ok (List.replicate size.toNat 0) := if_pos h

/-- **The decimal text of every number is the one without leading zeros**, and it reads back. -/
theorem toString_exact (value : Uint256) :
    toStringUint256 value = .ok (toString value.toNat) ∧
      valueOf 10 (toString value.toNat) = value.toNat := by
  by_cases hzero : value = 0
  · subst hzero
    exact ⟨rfl, by decide⟩
  · have hpos := toNat_pos hzero
    have hsmall := numDigits_le_78 value
    obtain ⟨digits, hcount, heq⟩ := countDigits_eq value
    refine ⟨?_, ?_⟩
    · rw [toStringUint256, if_neg hzero, hcount, ok_bind, newBytes_eq (by omega), ok_bind,
        writeDigits_eq heq (by rw [List.length_replicate]), toString_eq_digits hpos, heq,
        List.drop_replicate, Nat.sub_self, List.replicate_zero, List.append_nil]
    · rw [toString_eq_digits hpos, valueOf_symbols fun d hd =>
        (lt_of_mem_digits (by decide) hd).trans (by decide)]
      exact ofDigits_digits_of_lt (lt_pow_numDigits (by decide))

/-! ## Hexadecimal -/

lemma writeHex_eq {k : ℕ} {value : Uint256} {buffer : Bytes} (hfit : k + 2 ≤ buffer.length)
    (hlen : buffer.length < 2 ^ 256) :
    writeHex buffer value (k + 1) = .ok
      (buffer.take 2 ++ (Digits.digits 16 k value.toNat).map symbol ++ buffer.drop (k + 2),
        value >>> (4 * k)) := by
  induction k generalizing value buffer with
  | zero =>
      rw [writeHex, Digits.digits, List.map_nil, List.append_nil, zero_add,
        List.take_append_drop]
      rfl
  | succ k ih =>
      have hlast : (value &&& 0xf).toNat = value.toNat % 16 :=
        (BitVec.toNat_and ..).trans (Nat.and_two_pow_sub_one_eq_mod value.toNat 4)
      have hrest : (value >>> 4).toNat = value.toNat / 16 := by
        rw [BitVec.toNat_ushiftRight, Nat.shiftRight_eq_div_pow]
      have hindex : (BitVec.ofNat 256 (k + 2)).toNat = k + 2 := by
        rw [BitVec.toNat_ofNat, Nat.mod_eq_of_lt (by omega)]
      have hsymbol : arrayGet hexSymbols (value &&& 0xf) =
          (.ok (symbol (value.toNat % 16)) : Tx Error (BitVec 8)) := by
        rw [arrayGet_eq_ok, hlast]
        exact (symbol_spec (Nat.mod_lt _ (by decide))).1
      have hshift : 4 + 4 * k = 4 * (k + 1) := by omega
      rw [writeHex, hsymbol, ok_bind, arraySet_of_lt (by omega), ok_bind, hindex,
        ih (by rw [List.length_set]; omega) (by rw [List.length_set]; omega),
        List.take_set_of_le (by omega), drop_set_self (by omega), Digits.digits, List.map_append,
        hrest, ← BitVec.shiftRight_add, hshift, List.append_assoc, List.append_assoc,
        List.append_assoc]
      rfl

/-- The text `0x[0-9a-f]{width}` that denotes a number. -/
structure IsHex (width value : ℕ) (text : Bytes) : Prop where
  marked : text.take 2 = ascii "0x".toList
  length_eq : (text.drop 2).length = width
  digits : ∀ c ∈ text.drop 2, c ∈ hexSymbols
  denotes : valueOf 16 (text.drop 2) = value

/-- The text the loops write. -/
def hexText (width value : ℕ) : Bytes :=
  ascii "0x".toList ++ (Digits.digits 16 width value).map symbol

lemma idxOf_hexSymbols {c : BitVec 8} (hc : c ∈ hexSymbols) :
    hexSymbols.idxOf c < 16 ∧ symbol (hexSymbols.idxOf c) = c := by
  have hlt : hexSymbols.idxOf c < 16 := List.idxOf_lt_length_of_mem hc
  refine ⟨hlt, Option.some.inj ?_⟩
  rw [← (symbol_spec hlt).1, List.getElem?_idxOf hc]

/-- There is one text of a width that denotes a number, if the number fits. -/
lemma isHex_iff {width n : ℕ} :
    IsHex width n text ↔ n < 16 ^ width ∧ text = hexText width n := by
  constructor
  · intro h
    have hlt : ∀ d ∈ (text.drop 2).map (hexSymbols.idxOf ·), d < 16 := by
      intro d hd
      obtain ⟨c, hc, rfl⟩ := List.mem_map.mp hd
      exact (idxOf_hexSymbols (h.digits c hc)).1
    have hback : ((text.drop 2).map (hexSymbols.idxOf ·)).map symbol = (text.drop 2).map id := by
      rw [List.map_map]
      exact List.map_congr_left fun c hc => (idxOf_hexSymbols (h.digits c hc)).2
    have hdigits := digits_ofDigits hlt
    rw [← valueOf, h.denotes, List.length_map, h.length_eq] at hdigits
    refine ⟨?_, ?_⟩
    · have hread : ofDigits 16 (Digits.digits 16 width n) = n := by
        rw [hdigits, ← valueOf, h.denotes]
      rw [← hread, ofDigits_digits]
      exact Nat.mod_lt _ (by positivity)
    · rw [hexText, hdigits, hback, List.map_id, ← h.marked, List.take_append_drop]
  · rintro ⟨hn, rfl⟩
    have hdrop : (hexText width n).drop 2 = (Digits.digits 16 width n).map symbol := rfl
    refine ⟨rfl, ?_, ?_, ?_⟩
    · rw [hdrop, List.length_map, length_digits]
    · intro c hc
      obtain ⟨d, hd, rfl⟩ := List.mem_map.mp (hdrop ▸ hc)
      exact List.mem_of_getElem? (symbol_spec (lt_of_mem_digits (by decide) hd)).1
    · rw [hdrop, valueOf_symbols fun d hd => lt_of_mem_digits (by decide) hd]
      exact ofDigits_digits_of_lt hn

lemma toHexString_eq (h : 2 * length.toNat + 2 < 2 ^ 64) :
    toHexString value length =
      if value.toNat < 16 ^ (2 * length.toNat) then
        .ok (hexText (2 * length.toNat) value.toNat)
      else .error (.message "Strings: hex length insufficient") := by
  obtain ⟨double, hdouble⟩ : ∃ double : Uint256, double.toNat = 2 * length.toNat :=
    exists_toNat_eq (by omega)
  obtain ⟨size, hsize⟩ : ∃ size : Uint256, size.toNat = double.toNat + 2 :=
    exists_toNat_eq (by omega)
  obtain ⟨last, hlast⟩ : ∃ last : Uint256, last.toNat = double.toNat + 1 :=
    exists_toNat_eq (by omega)
  have hmul : (checkedMul 2 length : Tx Error Uint256) = .ok double := checkedMul_eq_ok.mpr hdouble
  have hadd : (checkedAdd double 2 : Tx Error Uint256) = .ok size := checkedAdd_eq_ok.mpr hsize
  have hadd1 : (checkedAdd double 1 : Tx Error Uint256) = .ok last := checkedAdd_eq_ok.mpr hlast
  have hrest : value >>> (4 * double.toNat) = 0 ↔ value.toNat < 16 ^ double.toNat := by
    rw [← BitVec.toNat_inj, BitVec.toNat_ushiftRight, Nat.shiftRight_eq_div_pow, pow_mul]
    exact Nat.div_eq_zero_iff_lt (by positivity)
  have hmarked : ((List.replicate size.toNat 0).set (0 : Uint256).toNat
      (BitVec.ofNat 8 '0'.toNat)).set (1 : Uint256).toNat (BitVec.ofNat 8 'x'.toNat) =
        ascii "0x".toList ++ List.replicate double.toNat 0 := by
    rw [hsize]
    rfl
  have hlength : (ascii "0x".toList ++ List.replicate double.toNat 0).length =
      double.toNat + 2 := by
    rw [List.length_append, List.length_replicate, add_comm]
    rfl
  rw [toHexString, hmul, ok_bind, hadd, ok_bind, newBytes_eq (by omega), ok_bind,
    arraySet_of_lt (by rw [List.length_replicate, hsize, toNat_zero]; omega), ok_bind,
    arraySet_of_lt
      (by rw [List.length_set, List.length_replicate, hsize]; exact Nat.le_add_left ..),
    ok_bind, ok_bind, hadd1, ok_bind, hlast, hmarked,
    writeHex_eq (by rw [hlength]) (by rw [hlength]; omega), ok_bind, ← hdouble]
  have htext : (ascii "0x".toList ++ List.replicate double.toNat 0).take 2 ++
      (Digits.digits 16 double.toNat value.toNat).map symbol ++
        (ascii "0x".toList ++ List.replicate double.toNat 0).drop (double.toNat + 2) =
      hexText double.toNat value.toNat := by
    rw [List.drop_of_length_le hlength.le, List.append_nil]
    rfl
  rw [htext]
  simp only [require, hrest]
  split <;> rfl

/-- A length that memory cannot hold is an error of the compiler's checks. -/
lemma toHexString_of_long (value : Uint256) (h : 2 ^ 64 ≤ 2 * length.toNat + 2) :
    ∃ code, toHexString value length = .error (.panic code) := by
  unfold toHexString checkedMul checkedAdd
  by_cases hmul : (2 : Uint256).toNat * length.toNat < 2 ^ 256
  · have hdouble : (BitVec.ofNat 256 ((2 : Uint256).toNat * length.toNat)).toNat =
        2 * length.toNat := by
      rw [BitVec.toNat_ofNat, Nat.mod_eq_of_lt hmul]
      rfl
    rw [toUint256, if_pos hmul, ok_bind, hdouble]
    by_cases hadd : 2 * length.toNat + (2 : Uint256).toNat < 2 ^ 256
    · have hsize :
          ¬ (BitVec.ofNat 256 (2 * length.toNat + (2 : Uint256).toNat)).toNat < 2 ^ 64 := by
        rw [BitVec.toNat_ofNat, Nat.mod_eq_of_lt hadd]
        exact not_lt.mpr h
      rw [toUint256, if_pos hadd, ok_bind, newBytes, if_neg hsize]
      exact ⟨_, rfl⟩
    · rw [toUint256, if_neg hadd]
      exact ⟨_, rfl⟩
  · rw [toUint256, if_neg hmul]
    exact ⟨_, rfl⟩

/-- **The hexadecimal text of a length is the one that denotes the number**, and there is a text
exactly where the number fits; where it does not, that is the error, as long as memory can hold the
text. -/
theorem toHexString_exact (value length : Uint256) (text : Bytes) :
    (toHexString value length = .ok text ↔
      2 * length.toNat + 2 < 2 ^ 64 ∧ IsHex (2 * length.toNat) value.toNat text) ∧
    (toHexString value length = .error (.message "Strings: hex length insufficient") ↔
      2 * length.toNat + 2 < 2 ^ 64 ∧ 16 ^ (2 * length.toNat) ≤ value.toNat) := by
  rcases Nat.lt_or_ge (2 * length.toNat + 2) (2 ^ 64) with hlen | hlen
  · rw [toHexString_eq hlen, isHex_iff]
    by_cases hfits : value.toNat < 16 ^ (2 * length.toNat)
    · rw [if_pos hfits]
      refine ⟨⟨fun h => ⟨hlen, hfits, (Except.ok.inj h).symm⟩, fun h => by rw [h.2.2]⟩, ?_⟩
      exact ⟨nofun, fun h => absurd hfits (not_lt.mpr h.2)⟩
    · rw [if_neg hfits]
      refine ⟨⟨nofun, fun h => absurd h.2.1 hfits⟩, ?_⟩
      exact ⟨fun _ => ⟨hlen, not_lt.mp hfits⟩, fun _ => rfl⟩
  · obtain ⟨code, hcode⟩ := toHexString_of_long value hlen
    rw [hcode]
    refine ⟨⟨nofun, fun h => absurd h.1 (not_lt.mpr hlen)⟩, ?_⟩
    exact ⟨nofun, fun h => absurd h.1 (not_lt.mpr hlen)⟩

lemma countBytes_eq (value : Uint256) :
    ∃ length, countBytes value 0 = .ok length ∧ length.toNat = numDigits 256 value.toNat ∧
      length.toNat ≤ 32 := by
  have hfew : numDigits 256 value.toNat ≤ 32 :=
    numDigits_le (by decide) (value.isLt.trans_le (by norm_num))
  have hdiv : ∀ temp : Uint256, (temp >>> 8).toNat = temp.toNat / 256 := fun temp => by
    rw [BitVec.toNat_ushiftRight, Nat.shiftRight_eq_div_pow]
  have hdone : ∀ length, countBytes 0 length = .ok length := fun length => by
    rw [countBytes, dif_pos rfl]
  have hloop : ∀ temp length, temp ≠ 0 → countBytes temp length =
      checkedAdd length 1 >>= fun length => countBytes (temp >>> 8) length :=
    fun temp length h => by rw [countBytes, dif_neg h]
  obtain ⟨length, hcount, heq⟩ := count_eq (by decide) hdiv hdone hloop
    (by rw [toNat_zero]; omega : (0 : Uint256).toNat + numDigits 256 value.toNat < 2 ^ 256)
  rw [toNat_zero, zero_add] at heq
  exact ⟨length, hcount, heq, heq ▸ hfew⟩

/-- Without a length, it is the least number of bytes that the number fits in, but one for zero. -/
theorem toHexStringUint256_exact (value : Uint256) :
    ∃ text, toHexStringUint256 value = .ok text ∧
      IsHex (2 * max 1 (numDigits 256 value.toNat)) value.toNat text := by
  by_cases hzero : value = 0
  · subst hzero
    refine ⟨ascii "0x00".toList, rfl, ?_⟩
    rw [toNat_zero, numDigits_zero]
    exact ⟨by decide, by decide, by decide, by decide⟩
  · obtain ⟨length, hcount, heq, hle⟩ := countBytes_eq value
    have hsome := numDigits_of_pos (by decide : 1 < 256) (toNat_pos hzero)
    have hfits : value.toNat < 16 ^ (2 * length.toNat) := by
      rw [pow_mul, heq]
      exact lt_pow_numDigits (by decide)
    refine ⟨hexText (2 * length.toNat) value.toNat, ?_, ?_⟩
    · rw [toHexStringUint256, if_neg hzero, hcount, ok_bind, toHexString_eq (by omega),
        if_pos hfits]
    · rw [max_eq_right (by omega), ← heq, isHex_iff]
      exact ⟨hfits, rfl⟩

end Strings

namespace AccessControl

open Strings

variable {role role' : Bytes32} {account account' : Address} {message : Bytes}

/-- `/^AccessControl: account (0x[0-9a-f]{40}) is missing role (0x[0-9a-f]{64})$/`, by
what the two groups denote. -/
def MissingRole (role : Bytes32) (account : Address) (message : Bytes) : Prop :=
  ∃ accountText roleText, IsHex 40 account.toNat accountText ∧ IsHex 64 role.toNat roleText ∧
    message = ascii "AccessControl: account ".toList ++ accountText ++
      ascii " is missing role ".toList ++ roleText

lemma length_hexText {width n : ℕ} : (hexText width n).length = 2 + width := by
  rw [hexText, List.length_append, List.length_map, Digits.length_digits]
  rfl

/-- The groups are at fixed places. -/
lemma MissingRole.unique (h : MissingRole role account message)
    (h' : MissingRole role' account' message) : role' = role ∧ account' = account := by
  obtain ⟨a, r, ha, hr, rfl⟩ := h
  obtain ⟨a', r', ha', hr', heq⟩ := h'
  have hlen : a.length = a'.length := by
    rw [(isHex_iff.mp ha).2, (isHex_iff.mp ha').2, length_hexText, length_hexText]
  simp only [List.append_assoc, List.append_cancel_left_eq] at heq
  obtain ⟨rfl, hrest⟩ := List.append_inj heq hlen
  obtain rfl := List.append_cancel_left hrest
  exact ⟨BitVec.eq_of_toNat_eq (hr'.denotes.symm.trans hr.denotes),
    BitVec.eq_of_toNat_eq (ha'.denotes.symm.trans ha.denotes)⟩

/-- **The message of a missing role** is in the documented format, and says which account is missing
which role. -/
theorem checkRoleMessage_exact (role : Bytes32) (account : Address) :
    ∃ message, checkRoleMessage role account = .ok message ∧ MissingRole role account message ∧
      ∀ role' account', MissingRole role' account' message → role' = role ∧ account' = account := by
  have haccount : (account.setWidth 256).toNat = account.toNat :=
    BitVec.toNat_setWidth_of_le (by decide)
  have hfits : account.toNat < 16 ^ (2 * (20 : Uint256).toNat) := account.isLt
  have hfits' : role.toNat < 16 ^ (2 * (32 : Uint256).toNat) := role.isLt
  have hmessage : MissingRole role account (ascii "AccessControl: account ".toList ++
      hexText 40 account.toNat ++ ascii " is missing role ".toList ++ hexText 64 role.toNat) :=
    ⟨_, _, isHex_iff.mpr ⟨hfits, rfl⟩, isHex_iff.mpr ⟨hfits', rfl⟩, rfl⟩
  refine ⟨_, ?_, hmessage, fun role' account' h' => hmessage.unique h'⟩
  rw [checkRoleMessage, toHexString_eq (by decide), haccount, if_pos hfits, ok_bind,
    toHexString_eq (by decide), if_pos hfits', ok_bind]
  rfl

end AccessControl

end BrivoUsbs
