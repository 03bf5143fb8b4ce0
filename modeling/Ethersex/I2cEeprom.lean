import Ethersex.PagedWrites

/-!
# Blocks in an I2C EEPROM

`i2c_24CXX_write_block` of `hardware/i2c/master/i2c_24CXX.c` splits a block at the borders of the
pages.  What the bus answers to each page write is given.
-/

namespace Ethersex.I2cEeprom

open ByteMemory PagedWrites

/-- `CONF_I2C_24CXX_PAGESIZE`. -/
structure Config where
  pageSize : UInt16
  positive : 0 < pageSize.toNat

/-- The answers of the bus in a page write: to the selection of the chip, to the two bytes of the
address and to the bytes of data. -/
structure Transfer where
  selected : Bool
  highAcked : Bool
  lowAcked : Bool
  acked : Nat → Bool

/-- `i2c_24CXX_set_addr`. -/
def i2c24CXXSetAddr (transfer : Transfer) : Bool :=
  if !transfer.selected then false
  else if !transfer.highAcked then false
  else if !transfer.lowAcked then false
  else true

/-- `i2c_24CXX_write_block_int`. -/
def i2c24CXXWriteBlockInt (transfer : Transfer) (len : UInt8) : UInt8 :=
  if !i2c24CXXSetAddr transfer then 0
  else if (List.range len.toNat).all transfer.acked then len
  else 0

/-- The length of the next page write. -/
def chunkLength (config : Config) (addr : UInt16) (len writelen : UInt8) : UInt8 :=
  let pageRest := config.pageSize - (addr + writelen.toUInt16) % config.pageSize
  if pageRest < (len - writelen).toUInt16 then pageRest.toUInt8 else len - writelen

/-- The loop of `i2c_24CXX_write_block`, with the page writes that have been issued. -/
def writeBlockLoop (config : Config) (transfers : Nat → Transfer) (addr : UInt16) (ptr : Memory)
    (len : UInt8) : Nat → UInt8 → UInt8 → List PageWrite → Option (List PageWrite × UInt8)
  | 0, _, _, _ => none
  | fuel + 1, writelen, ret, issued =>
      let templen := chunkLength config addr len writelen
      let ret := ret + i2c24CXXWriteBlockInt (transfers issued.length) templen
      let issued := issued ++ [⟨(addr + writelen.toUInt16).toNat,
        readBlock ptr writelen.toNat templen.toNat⟩]
      let writelen := writelen + templen
      if writelen < len ∧ ret = writelen then
        writeBlockLoop config transfers addr ptr len fuel writelen ret issued
      else
        some (issued, ret)

/-- `i2c_24CXX_write_block`: the page writes, and the value returned.  No block has more than 255
pages. -/
def i2c24CXXWriteBlock (config : Config) (transfers : Nat → Transfer) (addr : UInt16)
    (ptr : Memory) (len : UInt8) : Option (List PageWrite × UInt8) :=
  writeBlockLoop config transfers addr ptr len 256 0 0 []

/-- The chip takes the address and every byte. -/
def Succeeds (transfer : Transfer) (length : Nat) : Prop :=
  i2c24CXXSetAddr transfer = true ∧ ∀ i < length, transfer.acked i = true

instance (transfer : Transfer) (length : Nat) : Decidable (Succeeds transfer length) :=
  inferInstanceAs (Decidable (_ ∧ _))

section Chunks

variable {config : Config} {transfers : Nat → Transfer} {addr : UInt16} {ptr : Memory}
  {len writelen : UInt8}

theorem i2c24CXXWriteBlockInt_eq (transfer : Transfer) (len : UInt8) :
    i2c24CXXWriteBlockInt transfer len = if Succeeds transfer len.toNat then len else 0 := by
  have all : (List.range len.toNat).all transfer.acked = true ↔
      ∀ i < len.toNat, transfer.acked i = true := by
    simp only [List.all_eq_true, List.mem_range]
  rw [i2c24CXXWriteBlockInt]
  by_cases addressed : i2c24CXXSetAddr transfer = true
  · simp only [Succeeds, addressed, Bool.not_true, Bool.false_eq_true, if_false, true_and, all]
  · rw [Bool.not_eq_true] at addressed
    simp only [Succeeds, addressed, Bool.not_false, if_true, Bool.false_eq_true, false_and,
      if_false]

variable (config) in
/-- A chunk reaches to the end of its page or of the block. -/
theorem toNat_chunkLength (fits : addr.toNat + len.toNat ≤ 65536) (more : writelen < len) :
    (addr + writelen.toUInt16).toNat = addr.toNat + writelen.toNat ∧
    (chunkLength config addr len writelen).toNat =
      min (config.pageSize.toNat - (addr.toNat + writelen.toNat) % config.pageSize.toNat)
        (len.toNat - writelen.toNat) := by
  have before := UInt8.lt_iff_toNat_lt.mp more
  have small := len.toNat_lt
  have positive := config.positive
  have address : (addr + writelen.toUInt16).toNat = addr.toNat + writelen.toNat := by
    rw [UInt16.toNat_add, UInt8.toNat_toUInt16]
    omega
  have inPage : (addr.toNat + writelen.toNat) % config.pageSize.toNat < config.pageSize.toNat :=
    Nat.mod_lt _ positive
  have left : (len - writelen).toNat = len.toNat - writelen.toNat :=
    UInt8.toNat_sub_of_le _ _ (UInt8.le_of_lt more)
  have pageRest :
      (config.pageSize - (addr + writelen.toUInt16) % config.pageSize).toNat =
        config.pageSize.toNat - (addr.toNat + writelen.toNat) % config.pageSize.toNat := by
    rw [UInt16.toNat_sub_of_le, UInt16.toNat_mod, address]
    rw [UInt16.le_iff_toNat_le, UInt16.toNat_mod, address]
    exact Nat.le_of_lt inPage
  refine ⟨address, ?_⟩
  rw [chunkLength]
  simp only [UInt16.lt_iff_toNat_lt, pageRest, UInt8.toNat_toUInt16, left]
  split_ifs with cut
  · rw [UInt16.toNat_toUInt8, pageRest]
    omega
  · rw [left]
    omega

/-- The page write with this number succeeds, if there is one. -/
def SucceedsAt (transfers : Nat → Transfer) (writes : List PageWrite) (i : Nat) : Prop :=
  ∀ write, writes[i]? = some write → Succeeds (transfers i) write.bytes.length

theorem succeedsAt_zero {write : PageWrite} {writes : List PageWrite} :
    SucceedsAt transfers (write :: writes) 0 ↔ Succeeds (transfers 0) write.bytes.length := by
  constructor
  · exact fun succeeds => succeeds write rfl
  · intro succeeds other same
    rw [List.getElem?_cons_zero, Option.some.injEq] at same
    rw [← same]
    exact succeeds

theorem succeedsAt_succ {write : PageWrite} {writes : List PageWrite} {i : Nat} :
    SucceedsAt transfers (write :: writes) (i + 1) ↔
      SucceedsAt (fun k => transfers (k + 1)) writes i := by
  rw [SucceedsAt, List.getElem?_cons_succ]
  exact Iff.rfl

/-- All writes are issued when each of them succeeds, and otherwise those up to the first that does
not.  The value returned is the number of bytes that have been written. -/
structure StopsAtFailure (transfers : Nat → Transfer) (writes : List PageWrite)
    (issued : List PageWrite) (written : Nat) : Prop where
  all : (∀ i, SucceedsAt transfers writes i) → issued = writes ∧ written = totalLength writes
  first : ∀ i, (∀ j < i, SucceedsAt transfers writes j) → ¬SucceedsAt transfers writes i →
    issued = writes.take (i + 1) ∧ written = totalLength (writes.take i)

theorem StopsAtFailure.nil (transfers : Nat → Transfer) : StopsAtFailure transfers [] [] 0 where
  all _ := ⟨rfl, rfl⟩
  first _ _ fails := absurd (fun _ none => nomatch none) fails

theorem StopsAtFailure.fails {write : PageWrite}
    (fails : ¬Succeeds (transfers 0) write.bytes.length) (writes : List PageWrite) :
    StopsAtFailure transfers (write :: writes) [write] 0 where
  all all := absurd (succeedsAt_zero.mp (all 0)) fails
  first i before _ := by
    cases i with
    | zero => exact ⟨rfl, rfl⟩
    | succ i => exact absurd (succeedsAt_zero.mp (before 0 (Nat.succ_pos i))) fails

theorem StopsAtFailure.succeeds {write : PageWrite} {writes issued : List PageWrite}
    {written : Nat} (succeeds : Succeeds (transfers 0) write.bytes.length)
    (rest : StopsAtFailure (fun k => transfers (k + 1)) writes issued written) :
    StopsAtFailure transfers (write :: writes) (write :: issued)
      (write.bytes.length + written) where
  all all := by
    obtain ⟨rfl, rfl⟩ := rest.all fun i => succeedsAt_succ.mp (all (i + 1))
    exact ⟨rfl, rfl⟩
  first i before fails := by
    cases i with
    | zero => exact absurd (succeedsAt_zero.mpr succeeds) fails
    | succ i =>
        obtain ⟨rfl, rfl⟩ := rest.first i
          (fun j below => succeedsAt_succ.mp (before (j + 1) (Nat.succ_lt_succ below)))
          (mt succeedsAt_succ.mpr fails)
        exact ⟨rfl, rfl⟩

variable (config transfers ptr) in
theorem writeBlockLoop_spec (fuel : Nat) (before : List PageWrite)
    (fits : addr.toNat + len.toNat ≤ 65536) (more : writelen < len)
    (enough : len.toNat - writelen.toNat ≤ fuel) :
    ∃ writes issued written,
      Covers config.pageSize.toNat (addr.toNat + writelen.toNat) writes
        (readBlock ptr writelen.toNat (len.toNat - writelen.toNat)) ∧
      StopsAtFailure (fun k => transfers (before.length + k)) writes issued written ∧
      writeBlockLoop config transfers addr ptr len fuel writelen writelen before =
        some (before ++ issued, UInt8.ofNat (writelen.toNat + written)) := by
  induction fuel generalizing writelen before with
  | zero =>
      have := UInt8.lt_iff_toNat_lt.mp more
      omega
  | succ fuel ih =>
      have below := UInt8.lt_iff_toNat_lt.mp more
      have small := len.toNat_lt
      have positive := config.positive
      obtain ⟨address, chunk⟩ := toNat_chunkLength config fits more
      have inPage : (addr.toNat + writelen.toNat) % config.pageSize.toNat <
          config.pageSize.toNat := Nat.mod_lt _ positive
      set templen := chunkLength config addr len writelen with templen_eq
      have next : (writelen + templen).toNat = writelen.toNat + templen.toNat := by
        rw [UInt8.toNat_add]
        omega
      set write : PageWrite := ⟨(addr + writelen.toUInt16).toNat,
        readBlock ptr writelen.toNat templen.toNat⟩ with write_eq
      have length : write.bytes.length = templen.toNat := length_readBlock ..
      have nonempty : 0 < templen.toNat := by omega
      have bytes : readBlock ptr writelen.toNat (len.toNat - writelen.toNat) = write.bytes ++
          readBlock ptr (writelen + templen).toNat (len.toNat - (writelen + templen).toNat) := by
        rw [next, ← readBlock_append]
        congr 1
        omega
      have covers {writes : List PageWrite}
          (rest : Covers config.pageSize.toNat (addr.toNat + (writelen + templen).toNat) writes
            (readBlock ptr (writelen + templen).toNat (len.toNat - (writelen + templen).toNat))) :
          Covers config.pageSize.toNat (addr.toNat + writelen.toNat) (write :: writes)
            (readBlock ptr writelen.toNat (len.toNat - writelen.toNat)) := by
        refine ⟨address, ?_, _, bytes, ?_⟩
        · rw [length]
          omega
        · rw [length, Nat.add_assoc, ← next]
          exact rest
      rw [writeBlockLoop, ← templen_eq, i2c24CXXWriteBlockInt_eq]
      rw [← write_eq]
      -- the writes behind this one
      obtain ⟨writes, issued, written, rest, stops, loops⟩ : ∃ writes issued written,
          Covers config.pageSize.toNat (addr.toNat + (writelen + templen).toNat) writes
            (readBlock ptr (writelen + templen).toNat (len.toNat - (writelen + templen).toNat)) ∧
          StopsAtFailure (fun k => transfers ((before ++ [write]).length + k)) writes issued
            written ∧
          (if writelen + templen < len then
            writeBlockLoop config transfers addr ptr len fuel (writelen + templen)
              (writelen + templen) (before ++ [write])
          else some (before ++ [write], writelen + templen)) =
            some (before ++ [write] ++ issued,
              UInt8.ofNat ((writelen + templen).toNat + written)) := by
        by_cases goesOn : writelen + templen < len
        · rw [if_pos goesOn]
          exact ih _ goesOn (by omega)
        · have ended : len.toNat - (writelen + templen).toNat = 0 :=
            Nat.sub_eq_zero_of_le (Nat.not_lt.mp (mt UInt8.lt_iff_toNat_lt.mpr goesOn))
          refine ⟨[], [], 0, ?_, StopsAtFailure.nil _, ?_⟩
          · rw [ended]
            exact rfl
          · rw [if_neg goesOn, List.append_nil, Nat.add_zero, UInt8.ofNat_toNat]
      by_cases succeeds : Succeeds (transfers before.length) templen.toNat
      · refine ⟨write :: writes, write :: issued, templen.toNat + written, covers rest, ?_, ?_⟩
        · rw [← length]
          apply StopsAtFailure.succeeds
          · rw [length]
            exact succeeds
          · rw [List.length_append, List.length_singleton] at stops
            simpa only [Nat.add_assoc, Nat.add_comm 1] using stops
        · rw [if_pos succeeds]
          simp only [and_true]
          rw [loops, List.append_assoc, next, Nat.add_assoc]
          rfl
      · have differs : writelen + 0 ≠ writelen + templen := by
          intro same
          have values := congrArg UInt8.toNat same
          rw [UInt8.add_zero, next] at values
          omega
        refine ⟨write :: writes, [write], 0, covers rest, ?_, ?_⟩
        · apply StopsAtFailure.fails
          rw [length]
          exact succeeds
        · rw [if_neg succeeds, if_neg (fun both => differs both.2), UInt8.add_zero, Nat.add_zero,
            UInt8.ofNat_toNat]

/-- An empty block is written by an empty page write. -/
theorem i2c24CXXWriteBlock_empty (config : Config) (transfers : Nat → Transfer) (addr : UInt16)
    (ptr : Memory) :
    i2c24CXXWriteBlock config transfers addr ptr 0 = some ([⟨addr.toNat, []⟩], 0) := by
  have chunk : chunkLength config addr 0 0 = 0 := by
    rw [chunkLength]
    exact if_neg (fun below => Nat.not_lt_zero _ (UInt16.lt_iff_toNat_lt.mp below))
  have nothing (transfer : Transfer) : i2c24CXXWriteBlockInt transfer 0 = 0 := by
    rw [i2c24CXXWriteBlockInt_eq, ite_self]
  rw [i2c24CXXWriteBlock, writeBlockLoop, chunk, nothing]
  have address : addr + UInt8.toUInt16 0 = addr := UInt16.add_zero addr
  rw [address]
  exact if_neg fun both => absurd both.1 (by decide)

theorem i2c24CXXWriteBlock_spec (config : Config) (transfers : Nat → Transfer) {addr : UInt16}
    (ptr : Memory) {len : UInt8} (fits : addr.toNat + len.toNat ≤ 65536) :
    ∃ writes issued written,
      Covers config.pageSize.toNat addr.toNat writes (readBlock ptr 0 len.toNat) ∧
      StopsAtFailure transfers writes issued written ∧
      i2c24CXXWriteBlock config transfers addr ptr len = some (issued, UInt8.ofNat written) := by
  have zero : (0 : UInt8).toNat = 0 := rfl
  have small := len.toNat_lt
  by_cases more : 0 < len
  · have all := writeBlockLoop_spec config transfers ptr 256 [] fits more (by rw [zero]; omega)
    simp only [List.length_nil, Nat.zero_add, List.nil_append, zero, Nat.add_zero,
      Nat.sub_zero] at all
    exact all
  · obtain rfl : len = 0 := by
      apply UInt8.toNat_inj.mp
      rw [UInt8.lt_iff_toNat_lt, zero] at more
      exact Nat.eq_zero_of_not_pos more
    refine ⟨[⟨addr.toNat, []⟩], [⟨addr.toNat, []⟩], 0, ?_, ?_,
      i2c24CXXWriteBlock_empty config transfers addr ptr⟩
    · exact ⟨rfl, Nat.le_of_lt (Nat.mod_lt _ config.positive), [], rfl, rfl⟩
    · by_cases succeeds : Succeeds (transfers 0) 0
      · exact StopsAtFailure.succeeds succeeds (StopsAtFailure.nil _)
      · exact StopsAtFailure.fails succeeds []

/-- The page writes cover the block and none of them crosses the border of a page; the first one
that fails is the last one issued. -/
theorem i2c24CXXWriteBlock_covers (config : Config) (transfers : Nat → Transfer) (addr : UInt16)
    (ptr : Memory) (len : UInt8) (fits : addr.toNat + len.toNat ≤ 65536) :
    ∃ writes issued ret,
      i2c24CXXWriteBlock config transfers addr ptr len = some (issued, ret) ∧
      Covers config.pageSize.toNat addr.toNat writes (readBlock ptr 0 len.toNat) ∧
      ((∀ i, SucceedsAt transfers writes i) → issued = writes ∧ ret = len) ∧
      ∀ i, (∀ j < i, SucceedsAt transfers writes j) → ¬SucceedsAt transfers writes i →
        issued = writes.take (i + 1) ∧ ret.toNat = totalLength (writes.take i) := by
  obtain ⟨writes, issued, written, covers, stops, written_eq⟩ :=
    i2c24CXXWriteBlock_spec config transfers ptr fits
  have total : totalLength writes = len.toNat := by
    rw [covers.totalLength_eq, length_readBlock]
  refine ⟨writes, issued, _, written_eq, covers, ?_, ?_⟩
  · intro all
    obtain ⟨same, count⟩ := stops.all all
    rw [count, total, UInt8.ofNat_toNat]
    exact ⟨same, rfl⟩
  · intro i before fails
    obtain ⟨same, count⟩ := stops.first i before fails
    have inside := totalLength_take_le writes i
    have small := len.toNat_lt
    rw [count, UInt8.toNat_ofNat', Nat.mod_eq_of_lt (by omega)]
    exact ⟨same, rfl⟩

/-- A bus that answers everything. -/
def willing : Transfer := ⟨true, true, true, fun _ => true⟩

theorem i2c24CXXWriteBlock_covers_100 :
    ∃ writes issued ret,
      i2c24CXXWriteBlock ⟨128, by decide⟩ (fun _ => willing) 100 (fun _ => 7) 200 =
        some (issued, ret) ∧
      Covers 128 100 writes (readBlock (fun _ => 7) 0 200) ∧
      ((∀ i, SucceedsAt (fun _ => willing) writes i) → issued = writes ∧ ret = 200) ∧
      ∀ i, (∀ j < i, SucceedsAt (fun _ => willing) writes j) →
        ¬SucceedsAt (fun _ => willing) writes i →
          issued = writes.take (i + 1) ∧ ret.toNat = totalLength (writes.take i) :=
  i2c24CXXWriteBlock_covers ⟨128, by decide⟩ (fun _ => willing) 100 (fun _ => 7) 200 (by decide)

/-- When every page write succeeds the chip holds the block. -/
theorem storePages_i2c24CXXWriteBlock (config : Config) (transfers : Nat → Transfer)
    (addr : UInt16) (ptr : Memory) (len : UInt8) (fits : addr.toNat + len.toNat ≤ 65536)
    (succeed : ∀ i length, Succeeds (transfers i) length) (memory : Memory) :
    ∃ issued, i2c24CXXWriteBlock config transfers addr ptr len = some (issued, len) ∧
      storePages config.pageSize.toNat memory issued =
        writeBlock memory addr.toNat (readBlock ptr 0 len.toNat) := by
  obtain ⟨writes, issued, written, covers, stops, written_eq⟩ :=
    i2c24CXXWriteBlock_spec config transfers ptr fits
  obtain ⟨rfl, rfl⟩ := stops.all fun i write _ => succeed i _
  have total : totalLength issued = len.toNat := by
    rw [covers.totalLength_eq, length_readBlock]
  rw [total, UInt8.ofNat_toNat] at written_eq
  exact ⟨issued, written_eq, covers.storePages_eq⟩

end Chunks

end Ethersex.I2cEeprom
