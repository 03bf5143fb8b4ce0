import Ethersex.OnesComplement
import Mathlib.Data.List.GetD

/-!
# Forwarding of packets by the router

The part of `router_input` in `protocols/uip/uip_router.c` that forwards a packet, for IPv4 on a
little-endian target without packet filters, and the header checksum of `protocols/uip/uip.c`.
-/

namespace Ethersex.Router

open OnesComplement

/-- `chksum`. -/
def chksum (sum : UInt16) : List UInt8 → UInt16
  | high :: low :: data => chksum (addWord sum (high.toUInt16 <<< 8 + low.toUInt16)) data
  | [last] => addWord sum (last.toUInt16 <<< 8 + 0)
  | [] => sum

def htons (value : UInt16) : UInt16 :=
  value <<< 8 ||| value >>> 8

/-- `uip_ipchksum`. -/
def uipIpchksum (header : List UInt8) : UInt16 :=
  let sum := chksum 0 (header.take 20)
  if sum = 0 then 0xffff else htons sum

/-- The field `ipchksum` is read and written as a number of the processor. -/
def ipchksum (header : List UInt8) : UInt16 :=
  (header.getD 11 0).toUInt16 <<< 8 + (header.getD 10 0).toUInt16

def setIpchksum (header : List UInt8) (value : UInt16) : List UInt8 :=
  (header.set 10 value.toUInt8).set 11 (value >>> 8).toUInt8

def adjustIpchksum (header : List UInt8) : List UInt8 :=
  if htons ((0xffff : UInt16) - (1 : UInt16) <<< 8) ≤ ipchksum header then
    setIpchksum header (ipchksum header + (htons ((1 : UInt16) <<< 8) + 1))
  else setIpchksum header (ipchksum header + htons ((1 : UInt16) <<< 8))

inductive Forwarding
  | dropped
  | timeExceeded
  | forwarded (dest : UInt8) (header : List UInt8)
  deriving DecidableEq

/-- What `router_input` does with a packet that is not for one of the stacks: `dest` is the stack
that `router_find_stack` gives for its destination. -/
def forward (origin dest : UInt8) (header : List UInt8) : Forwarding :=
  if dest = 255 then .dropped
  else if origin = dest then .dropped
  else if header.getD 8 0 ≤ 1 then .timeExceeded
  else .forwarded dest (adjustIpchksum (header.set 8 (header.getD 8 0 - 1)))

def headerWords : List UInt8 → List UInt16
  | high :: low :: data => (high.toUInt16 <<< 8 + low.toUInt16) :: headerWords data
  | [last] => [last.toUInt16 <<< 8 + 0]
  | [] => []

theorem chksum_eq (sum : UInt16) (data : List UInt8) :
    chksum sum data = addWords sum (headerWords data) := by
  fun_induction chksum sum data with
  | case1 sum high low data ih =>
      rw [ih]
      rfl
  | case2 sum last => rfl
  | case3 sum => rfl

theorem toNat_word (high low : UInt8) :
    (high.toUInt16 <<< 8 + low.toUInt16).toNat = high.toNat * 256 + low.toNat := by
  have smallHigh := high.toNat_lt
  have smallLow := low.toNat_lt
  rw [UInt16.toNat_add, UInt16.toNat_shiftLeft, UInt8.toNat_toUInt16, UInt8.toNat_toUInt16]
  simp only [UInt16.reduceToNat, Nat.reduceMod, Nat.shiftLeft_eq]
  omega

theorem total_headerWords_append {before behind : List UInt8} (even : before.length % 2 = 0) :
    total (headerWords (before ++ behind)) =
      total (headerWords before) + total (headerWords behind) := by
  fun_induction headerWords before with
  | case1 high low data ih =>
      simp only [List.length_cons] at even
      simp only [List.cons_append, headerWords, total_cons]
      rw [ih (by omega), Nat.add_assoc]
  | case2 last => simp at even
  | case3 => simp

/-- A header around the four bytes that are looked at. -/
theorem header_parts {header : List UInt8} (length : header.length = 20) :
    ∃ before ttl proto low high behind,
      header = before ++ ttl :: proto :: low :: high :: behind ∧ before.length = 8 := by
  have split := List.take_append_drop 8 header
  have beforeLength : (header.take 8).length = 8 := by
    rw [List.length_take]
    omega
  have behindLength : (header.drop 8).length = 12 := by
    rw [List.length_drop]
    omega
  match rest : header.drop 8, behindLength with
  | ttl :: proto :: low :: high :: behind, _ =>
      exact ⟨header.take 8, ttl, proto, low, high, behind, by rw [← rest, split], beforeLength⟩

/-- The two bytes of a checksum field. -/
theorem toNat_bytes (value : UInt16) :
    (value >>> 8).toUInt8.toNat * 256 + value.toUInt8.toNat = value.toNat := by
  have small := value.toNat_lt
  rw [UInt16.toNat_toUInt8, UInt16.toNat_toUInt8, UInt16.toNat_shiftRight]
  simp only [UInt16.reduceToNat, Nat.reduceMod, Nat.shiftRight_eq_div_pow]
  omega

/-- The adjusted checksum, as a number. -/
def adjusted (value : Nat) : Nat :=
  if 65534 ≤ value then (value + 2) % 65536 else value + 1

section Parts

variable {before behind : List UInt8} (beforeLength : before.length = 8)
  (ttl proto low high : UInt8)
include beforeLength

theorem getD_ttl : (before ++ ttl :: proto :: low :: high :: behind).getD 8 0 = ttl := by
  rw [List.getD_append_right _ _ _ _ (by omega), beforeLength]
  rfl

theorem set_ttl (value : UInt8) :
    (before ++ ttl :: proto :: low :: high :: behind).set 8 value =
      before ++ value :: proto :: low :: high :: behind := by
  rw [List.set_append_right _ _ (by omega), beforeLength]
  rfl

theorem ipchksum_parts :
    ipchksum (before ++ ttl :: proto :: low :: high :: behind) =
      high.toUInt16 <<< 8 + low.toUInt16 := by
  rw [ipchksum, List.getD_append_right _ _ _ _ (by omega),
    List.getD_append_right _ _ _ _ (by omega), beforeLength]
  rfl

theorem setIpchksum_parts (value : UInt16) :
    setIpchksum (before ++ ttl :: proto :: low :: high :: behind) value =
      before ++ ttl :: proto :: value.toUInt8 :: (value >>> 8).toUInt8 :: behind := by
  rw [setIpchksum, List.set_append_right _ _ (by omega), List.set_append_right _ _ (by omega),
    beforeLength]
  rfl

/-- The adjustment makes the checksum one larger, in one of its representations. -/
theorem adjustIpchksum_parts :
    ∃ newLow newHigh : UInt8,
      adjustIpchksum (before ++ ttl :: proto :: low :: high :: behind) =
        before ++ ttl :: proto :: newLow :: newHigh :: behind ∧
      newHigh.toNat * 256 + newLow.toNat = adjusted (high.toNat * 256 + low.toNat) := by
  have field := @ipchksum_parts before behind beforeLength ttl proto low high
  have value := toNat_word high low
  have small := (high.toUInt16 <<< 8 + low.toUInt16).toNat_lt
  have limit : htons ((0xffff : UInt16) - (1 : UInt16) <<< 8) = 0xfffe := by decide
  have step : htons ((1 : UInt16) <<< 8) = 1 := by decide
  rw [adjustIpchksum, limit, step, field]
  generalize high.toUInt16 <<< 8 + low.toUInt16 = chksum at value small ⊢
  split_ifs with last
  · rw [UInt16.le_iff_toNat_le] at last
    change 65534 ≤ _ at last
    refine ⟨_, _, setIpchksum_parts beforeLength ttl proto low high _, ?_⟩
    rw [toNat_bytes, adjusted, ← value, if_pos last, UInt16.toNat_add]
    rfl
  · rw [UInt16.le_iff_toNat_le] at last
    change ¬65534 ≤ _ at last
    refine ⟨_, _, setIpchksum_parts beforeLength ttl proto low high _, ?_⟩
    rw [toNat_bytes, adjusted, ← value, if_neg last, UInt16.toNat_add, UInt16.toNat_one]
    omega

end Parts

/-- The sum around the bytes that are looked at. -/
theorem total_parts {before behind : List UInt8} (beforeLength : before.length = 8)
    (ttl proto low high : UInt8) :
    total (headerWords (before ++ ttl :: proto :: low :: high :: behind)) =
      total (headerWords before) + (ttl.toNat * 256 + proto.toNat) +
        (low.toNat * 256 + high.toNat) + total (headerWords behind) := by
  rw [total_headerWords_append (by omega)]
  simp only [headerWords, total_cons, toNat_word]
  omega

/-- The first word of a header of version 4 is not zero. -/
theorem total_pos_of_version {before : List UInt8} (beforeLength : before.length = 8)
    (version : before.getD 0 0 >>> 4 = 4) : 0 < total (headerWords before) := by
  match before, beforeLength with
  | vhl :: tos :: rest, _ =>
      have nibble : (vhl >>> 4).toNat = 4 := by
        rw [show vhl >>> 4 = 4 from version]
        rfl
      rw [UInt8.toNat_shiftRight] at nibble
      simp only [UInt8.reduceToNat, Nat.reduceMod, Nat.shiftRight_eq_div_pow] at nibble
      rw [headerWords, total_cons, toNat_word]
      omega

theorem toNat_htons (value : UInt16) :
    (htons value).toNat = value.toNat % 256 * 256 + value.toNat / 256 := by
  have small := value.toNat_lt
  have high : value.toNat <<< 8 % 65536 = (value.toNat % 256) <<< 8 := by
    rw [Nat.shiftLeft_eq, Nat.shiftLeft_eq]
    omega
  have low : value.toNat >>> 8 < 2 ^ 8 := by
    rw [Nat.shiftRight_eq_div_pow]
    omega
  rw [htons, UInt16.toNat_or, UInt16.toNat_shiftLeft, UInt16.toNat_shiftRight]
  simp only [UInt16.reduceToNat, Nat.reduceMod, Nat.reducePow]
  rw [high, ← Nat.shiftLeft_add_eq_or_of_lt low, Nat.shiftLeft_eq, Nat.shiftRight_eq_div_pow]

/-- A header that is not zero verifies when its sum is a multiple of 65535. -/
theorem uipIpchksum_eq_ones {header : List UInt8} (length : header.length = 20)
    (positive : 0 < total (headerWords header)) :
    uipIpchksum header = 0xffff ↔ total (headerWords header) % 65535 = 0 := by
  have whole : header.take 20 = header := List.take_of_length_le (Nat.le_of_eq length)
  have spec := addWords_spec 0 (headerWords header)
  have small := (addWords 0 (headerWords header)).toNat_lt
  have swapped := toNat_htons (addWords 0 (headerWords header))
  rw [UInt16.toNat_zero, Nat.zero_add] at spec
  simp only [uipIpchksum, whole, chksum_eq]
  generalize addWords 0 (headerWords header) = sum at *
  have notZero : sum ≠ 0 := by
    rintro rfl
    exact absurd (spec.2.mp rfl) (Nat.ne_of_gt positive)
  rw [if_neg notZero, ← UInt16.toNat_inj, swapped]
  change _ = 65535 ↔ _
  omega

/-- The word of the adjusted checksum, with the high byte first. -/
theorem adjusted_word {low high newLow newHigh : Nat} (smallLow : low < 256)
    (smallHigh : high < 256) (smallNewLow : newLow < 256)
    (checksum : newHigh * 256 + newLow = adjusted (high * 256 + low)) :
    newLow * 256 + newHigh = low * 256 + high + 256 ∨
      newLow * 256 + newHigh + 65535 = low * 256 + high + 256 := by
  unfold adjusted at checksum
  split_ifs at checksum with last
  · have full : high = 255 := by omega
    rcases Nat.lt_or_ge low 255 with before | after
    · omega
    · omega
  · rcases Nat.lt_or_ge low 255 with before | after
    · omega
    · omega

/-- One hop less and the adjusted checksum leave the residue of the sum. -/
theorem adjusted_residue {before hops proto word newWord behind : Nat} (more : 1 ≤ hops)
    (adjustment : newWord = word + 256 ∨ newWord + 65535 = word + 256)
    (residue : (before + (hops * 256 + proto) + word + behind) % 65535 = 0) :
    (before + ((hops - 1) * 256 + proto) + newWord + behind) % 65535 = 0 := by
  obtain ⟨fewer, rfl⟩ := Nat.exists_eq_add_of_le more
  rcases adjustment with same | less
  · have total : before + ((1 + fewer - 1) * 256 + proto) + newWord + behind =
        before + ((1 + fewer) * 256 + proto) + word + behind := by omega
    rw [total, residue]
  · have total : before + ((1 + fewer) * 256 + proto) + word + behind =
        before + ((1 + fewer - 1) * 256 + proto) + newWord + behind + 65535 := by omega
    rwa [total, Nat.add_mod_right] at residue

/-- The checksum of a header that is forwarded verifies again, and nothing else than the TTL and
the checksum has changed. -/
theorem forward_verifies (header : List UInt8) (length : header.length = 20)
    (version : header.getD 0 0 >>> 4 = 4) (verified : uipIpchksum header = 0xffff)
    (ttl : 1 < header.getD 8 0) (origin dest : UInt8) (routed : dest ≠ 255)
    (elsewhere : origin ≠ dest) :
    ∃ header', forward origin dest header = .forwarded dest header' ∧ header'.length = 20 ∧
      chksum 0 header' = 0xffff ∧ uipIpchksum header' = 0xffff ∧
      header'.getD 8 0 = header.getD 8 0 - 1 ∧
      ∀ index, index ≠ 8 → index ≠ 10 → index ≠ 11 →
        header'.getD index 0 = header.getD index 0 := by
  obtain ⟨before, hops, proto, low, high, behind, rfl, beforeLength⟩ := header_parts length
  have firstByte : before.getD 0 0 >>> 4 = 4 := by
    rwa [List.getD_append _ _ _ _ (by omega)] at version
  have positive := total_pos_of_version beforeLength firstByte
  have ttlByte := @getD_ttl before behind beforeLength hops proto low high
  rw [ttlByte] at ttl ⊢
  have moreHops : 1 < hops.toNat := UInt8.lt_iff_toNat_lt.mp ttl
  have lessHops : (hops - 1).toNat = hops.toNat - 1 := by
    have below : 1 ≤ hops := by
      rw [UInt8.le_iff_toNat_le]
      exact Nat.le_of_lt moreHops
    exact UInt8.toNat_sub_of_le _ _ below
  have old := @total_parts before behind beforeLength hops proto low high
  obtain ⟨newLow, newHigh, adjustedTo, checksum⟩ :=
    @adjustIpchksum_parts before behind beforeLength (hops - 1) proto low high
  have new := @total_parts before behind beforeLength (hops - 1) proto newLow newHigh
  have newLength : (before ++ (hops - 1) :: proto :: newLow :: newHigh :: behind).length = 20 := by
    simpa using length
  have oldChecked := (uipIpchksum_eq_ones length (by omega)).mp verified
  have newChecked : total (headerWords
      (before ++ (hops - 1) :: proto :: newLow :: newHigh :: behind)) % 65535 = 0 := by
    have smallLow := low.toNat_lt
    have smallHigh := high.toNat_lt
    have smallNewLow := newLow.toNat_lt
    rw [old] at oldChecked
    rw [new, lessHops]
    exact adjusted_residue (Nat.le_of_lt moreHops)
      (adjusted_word smallLow smallHigh smallNewLow checksum) oldChecked
  refine ⟨_, ?_, newLength, ?_, ?_, ?_, ?_⟩
  · rw [forward, if_neg routed, if_neg elsewhere, ttlByte, if_neg (UInt8.not_le.mpr ttl),
      set_ttl beforeLength, adjustedTo]
  · rw [chksum_eq]
    exact (addWords_eq_ones_iff _).mpr ⟨newChecked, by omega⟩
  · exact (uipIpchksum_eq_ones newLength (by omega)).mpr newChecked
  · exact getD_ttl beforeLength (hops - 1) proto newLow newHigh
  · intro index notTtl notLow notHigh
    rcases Nat.lt_or_ge index 8 with early | late
    · rw [List.getD_append _ _ _ _ (by omega), List.getD_append _ _ _ _ (by omega)]
    · rw [List.getD_append_right _ _ _ _ (by omega), List.getD_append_right _ _ _ _ (by omega),
        beforeLength]
      obtain ⟨offset, rfl⟩ := Nat.exists_eq_add_of_le late
      rw [Nat.add_sub_cancel_left]
      match offset with
      | 0 => exact absurd rfl notTtl
      | 1 => rfl
      | 2 => exact absurd rfl notLow
      | 3 => exact absurd rfl notHigh
      | offset + 4 => rfl

/-- A header whose checksum goes from one zero to the other. -/
theorem forward_verifies_zero :
    ∃ header', forward 0 1
        [0x45, 0, 0, 20, 0, 0, 0, 0, 2, 17, 0xfe, 0xff, 0xb9, 0xda, 0, 0, 0, 0, 0, 0] =
        .forwarded 1 header' ∧ header'.length = 20 ∧
      chksum 0 header' = 0xffff ∧ uipIpchksum header' = 0xffff ∧ header'.getD 8 0 = 2 - 1 ∧
      ∀ index, index ≠ 8 → index ≠ 10 → index ≠ 11 → header'.getD index 0 =
        [0x45, 0, 0, 20, 0, 0, 0, 0, 2, 17, 0xfe, 0xff, 0xb9, 0xda, 0, 0, 0, 0, 0,
          0].getD index 0 :=
  forward_verifies
    [0x45, 0, 0, 20, 0, 0, 0, 0, 2, 17, 0xfe, 0xff, 0xb9, 0xda, 0, 0, 0, 0, 0, 0] rfl (by decide)
    (by decide) (by decide) 0 1 (by decide) (by decide)

end Ethersex.Router
