import AipuDriver.Kmd.Interface
import AipuDriver.Lib.Word
import Mathlib.Algebra.Group.Nat.Defs
import Mathlib.Data.Nat.Log

/-!
# Triggering a job on Zhouyi v2 (`zhouyi/z2/z2.c`)

The device translates its 32-bit addresses with the base registers of its address space extensions
(ASE), of which the trigger of a job programs three.  The trigger is the list of its register writes
here.  An ASE maps a window, whose size is a power of two (`aseWindowSize`), at its base
(`Ase.Covers`).
-/

namespace Aipu

open Word

/-! ## Registers -/

/-- `ZHOUYI_START_PC_REG_OFFSET` -/
def zhouyiStartPcRegOffset : ℕ := 0x8
/-- `ZHOUYI_INTR_PC_REG_OFFSET` -/
def zhouyiIntrPcRegOffset : ℕ := 0xC
/-- `ZHOUYI_DATA_ADDR_0_REG_OFFSET` -/
def zhouyiDataAddr0RegOffset : ℕ := 0x14
/-- `ZHOUYI_DATA_ADDR_1_REG_OFFSET` -/
def zhouyiDataAddr1RegOffset : ℕ := 0x18

/-- The three registers of an ASE. -/
inductive Ase
  | ase0
  | ase1
  | ase2
deriving DecidableEq, Repr

/-- `AIPU_ADDR_EXT0_CTRL_REG_OFFSET` and the registers like it. -/
def Ase.ctrlRegOffset : Ase → ℕ
  | .ase0 => 0xC0
  | .ase1 => 0xCC
  | .ase2 => 0xD8

/-- `AIPU_ADDR_EXT0_HIGH_BASE_REG_OFFSET` and the registers like it. -/
def Ase.highBaseRegOffset : Ase → ℕ
  | .ase0 => 0xC4
  | .ase1 => 0xD0
  | .ase2 => 0xDC

/-- `AIPU_ADDR_EXT0_LOW_BASE_REG_OFFSET` and the registers like it. -/
def Ase.lowBaseRegOffset : Ase → ℕ
  | .ase0 => 0xC8
  | .ase1 => 0xD4
  | .ase2 => 0xE0

/-- `ZHOUYI_V2_ASE_READ_ENABLE` -/
def zhouyiV2AseReadEnable : ℕ := 2 ^ 31

/-- `ZHOUYI_V2_ASE_RW_ENABLE` -/
def zhouyiV2AseRwEnable : ℕ := 3 * 2 ^ 30

/-- `aipu_write32` -/
structure RegWrite where
  offset : ℕ
  value : ℕ
deriving DecidableEq, Repr

/-! ## The trigger -/

section Trigger

variable (roundupPowOfTwo : ℕ → ℕ)

/-- `ZHOUYI_V2_ASE_CTRL_SIZE`, with the `roundup_pow_of_two` of the kernel. -/
def zhouyiV2AseCtrlSize (value : ℕ) : ℕ := Nat.log2 (max 4096 (roundupPowOfTwo value) / 2 ^ 12) + 1

/-- The writes of the registers of an ASE. -/
def Ase.program (ase : Ase) (ctrl base : ℕ) : List RegWrite :=
  [⟨ase.ctrlRegOffset, ctrl⟩, ⟨ase.highBaseRegOffset, wrap 32 (base / 2 ^ 32)⟩,
    ⟨ase.lowBaseRegOffset, wrap 32 base⟩]

/-- `ase0_start` -/
def UserJobDesc.ase0Start (udesc : UserJobDesc) : ℕ :=
  min udesc.startPcAddr (min udesc.data0Addr udesc.data1Addr)

/-- `ase0_end` -/
def UserJobDesc.ase0End (udesc : UserJobDesc) : ℕ :=
  max (wrap 64 (udesc.startPcAddr + udesc.codeSize))
    (max (wrap 64 (udesc.data0Addr + udesc.rodataSize))
      (wrap 64 (udesc.data1Addr + udesc.stackSize)))

/-- A 32-bit address of the job: relative to ASE 0 when ASID is enabled. -/
def UserJobDesc.ase0Addr (udesc : UserJobDesc) (addr : ℕ) : ℕ :=
  if udesc.enableAsid ≠ 0 then wrap 32 (wrapSub 64 addr udesc.ase0Start) else wrap 32 addr

/-- `zhouyi_v2_trigger` -/
def zhouyiV2Trigger (udesc : UserJobDesc) : List RegWrite :=
  [⟨zhouyiDataAddr0RegOffset, udesc.ase0Addr udesc.data0Addr⟩,
    ⟨zhouyiDataAddr1RegOffset, udesc.ase0Addr udesc.data1Addr⟩,
    ⟨zhouyiIntrPcRegOffset, udesc.ase0Addr udesc.intrHandlerAddr⟩] ++
  (if udesc.enableAsid ≠ 0 then
    let ase0Size := wrapSub 64 udesc.ase0End udesc.ase0Start
    -- the low base of ASE 0 is always zero
    Ase.ase0.program (zhouyiV2AseRwEnable ||| zhouyiV2AseCtrlSize roundupPowOfTwo ase0Size)
        (udesc.ase0Start / 2 ^ 32 * 2 ^ 32) ++
      Ase.ase1.program
        (zhouyiV2AseReadEnable ||| zhouyiV2AseCtrlSize roundupPowOfTwo udesc.staticSize)
        udesc.staticAddr ++
      Ase.ase2.program (zhouyiV2AseRwEnable ||| zhouyiV2AseCtrlSize roundupPowOfTwo udesc.reuseSize)
        udesc.reuseAddr
  else
    let base := udesc.startPcAddr / 2 ^ 32 * 2 ^ 32
    Ase.ase0.program zhouyiV2AseRwEnable base ++ Ase.ase1.program zhouyiV2AseRwEnable base ++
      Ase.ase2.program zhouyiV2AseRwEnable base) ++
  [⟨zhouyiStartPcRegOffset, udesc.ase0Addr udesc.startPcAddr ||| 0xD⟩]

end Trigger

/-! ## What the device sees -/

/-- The value that was written last to a register. -/
def lastWrite (writes : List RegWrite) (offset : ℕ) : Option ℕ :=
  (writes.reverse.find? fun write => write.offset = offset).map RegWrite.value

/-- The base address in the registers of an ASE. -/
def Ase.base (ase : Ase) (writes : List RegWrite) : Option ℕ := do
  let high ← lastWrite writes ase.highBaseRegOffset
  let low ← lastWrite writes ase.lowBaseRegOffset
  some (high * 2 ^ 32 + low)

section Base

variable {roundupPowOfTwo : ℕ → ℕ} {udesc : UserJobDesc}

/-- A 64-bit address from its two words. -/
theorem words_of_lt {addr : ℕ} (h : addr < 2 ^ 64) :
    wrap 32 (addr / 2 ^ 32) * 2 ^ 32 + wrap 32 addr = addr := by
  rw [wrap_of_lt (by omega), wrap]
  exact Nat.div_add_mod' addr (2 ^ 32)

/-- With ASID, ASE 1 is based at the static data. -/
theorem ase1_base (hasid : udesc.enableAsid ≠ 0) (h : udesc.staticAddr < 2 ^ 64) :
    Ase.ase1.base (zhouyiV2Trigger roundupPowOfTwo udesc) = some udesc.staticAddr := by
  have hbase : Ase.ase1.base (zhouyiV2Trigger roundupPowOfTwo udesc) =
      some (wrap 32 (udesc.staticAddr / 2 ^ 32) * 2 ^ 32 + wrap 32 udesc.staticAddr) := by
    rw [zhouyiV2Trigger, if_pos hasid]
    rfl
  rw [hbase, words_of_lt h]

/-- With ASID, ASE 2 is based at the reused data. -/
theorem ase2_base (hasid : udesc.enableAsid ≠ 0) (h : udesc.reuseAddr < 2 ^ 64) :
    Ase.ase2.base (zhouyiV2Trigger roundupPowOfTwo udesc) = some udesc.reuseAddr := by
  have hbase : Ase.ase2.base (zhouyiV2Trigger roundupPowOfTwo udesc) =
      some (wrap 32 (udesc.reuseAddr / 2 ^ 32) * 2 ^ 32 + wrap 32 udesc.reuseAddr) := by
    rw [zhouyiV2Trigger, if_pos hasid]
    rfl
  rw [hbase, words_of_lt h]

/-- With ASID, ASE 0 is based at the greatest multiple of `2 ^ 32` that is not above the lowest
address. -/
theorem ase0_base (hasid : udesc.enableAsid ≠ 0) (h : udesc.ase0Start < 2 ^ 64) :
    Ase.ase0.base (zhouyiV2Trigger roundupPowOfTwo udesc) =
      some (udesc.ase0Start / 2 ^ 32 * 2 ^ 32) := by
  have hbase : Ase.ase0.base (zhouyiV2Trigger roundupPowOfTwo udesc) =
      some (wrap 32 (udesc.ase0Start / 2 ^ 32 * 2 ^ 32 / 2 ^ 32) * 2 ^ 32 +
        wrap 32 (udesc.ase0Start / 2 ^ 32 * 2 ^ 32)) := by
    rw [zhouyiV2Trigger, if_pos hasid]
    rfl
  rw [hbase, words_of_lt (by omega)]

/-- The registers that a job with ASID leaves behind, the bases apart. -/
structure UserJobDesc.AseWrites (udesc : UserJobDesc) (roundupPowOfTwo : ℕ → ℕ)
    (writes : List RegWrite) : Prop where
  startPc : lastWrite writes zhouyiStartPcRegOffset =
    some (udesc.ase0Addr udesc.startPcAddr ||| 0xD)
  intrHandler : lastWrite writes zhouyiIntrPcRegOffset = some (udesc.ase0Addr udesc.intrHandlerAddr)
  data0 : lastWrite writes zhouyiDataAddr0RegOffset = some (udesc.ase0Addr udesc.data0Addr)
  data1 : lastWrite writes zhouyiDataAddr1RegOffset = some (udesc.ase0Addr udesc.data1Addr)
  ctrl0 : lastWrite writes Ase.ase0.ctrlRegOffset =
    some (3 * 2 ^ 30 ||| zhouyiV2AseCtrlSize roundupPowOfTwo
      (wrapSub 64 udesc.ase0End udesc.ase0Start))
  ctrl1 : lastWrite writes Ase.ase1.ctrlRegOffset =
    some (2 * 2 ^ 30 ||| zhouyiV2AseCtrlSize roundupPowOfTwo udesc.staticSize)
  ctrl2 : lastWrite writes Ase.ase2.ctrlRegOffset =
    some (3 * 2 ^ 30 ||| zhouyiV2AseCtrlSize roundupPowOfTwo udesc.reuseSize)

/-- A trigger with ASID writes each of them once. -/
theorem UserJobDesc.aseWrites (hasid : udesc.enableAsid ≠ 0) :
    udesc.AseWrites roundupPowOfTwo (zhouyiV2Trigger roundupPowOfTwo udesc) := by
  rw [zhouyiV2Trigger, if_pos hasid]
  exact ⟨rfl, rfl, rfl, rfl, rfl, rfl, rfl⟩

end Base

/-! ## Windows -/

/-- `roundup_pow_of_two` of the kernel, as it is documented: what it makes of zero is undefined. -/
def RoundsUpToPower (roundupPowOfTwo : ℕ → ℕ) : Prop :=
  ∀ n, n ≠ 0 → n ≤ 2 ^ 63 → roundupPowOfTwo n = 2 ^ Nat.clog 2 n

/-- The number of bytes that the control register of an ASE encodes below its two enable bits. -/
def aseWindowSize (ctrl : ℕ) : ℕ := 2 ^ 12 * 2 ^ (ctrl % 2 ^ 30 - 1)

/-- The bytes lie in the window of an ASE. -/
def Ase.Covers (ase : Ase) (writes : List RegWrite) (lo bytes : ℕ) : Prop :=
  ∃ base ctrl, ase.base writes = some base ∧ lastWrite writes ase.ctrlRegOffset = some ctrl ∧
    base ≤ lo ∧ lo + bytes ≤ base + aseWindowSize ctrl

/-- The value of a register is the address relative to the base of an ASE. -/
def Ase.Reaches (ase : Ase) (writes : List RegWrite) (offset addr : ℕ) : Prop :=
  ∃ base value, ase.base writes = some base ∧ lastWrite writes offset = some value ∧
    base + value = addr

section Windows

variable {roundupPowOfTwo : ℕ → ℕ} {writes : List RegWrite} {ase : Ase}
    {base ctrl value lo bytes : ℕ}

/-- The bytes that an ASE covers, from its registers. -/
theorem Ase.covers_iff (hbase : ase.base writes = some base)
    (hctrl : lastWrite writes ase.ctrlRegOffset = some ctrl) :
    ase.Covers writes lo bytes ↔ base ≤ lo ∧ lo + bytes ≤ base + aseWindowSize ctrl := by
  constructor
  · rintro ⟨base', ctrl', hbase', hctrl', hcovers⟩
    obtain rfl := Option.some.inj (hbase.symm.trans hbase')
    obtain rfl := Option.some.inj (hctrl.symm.trans hctrl')
    exact hcovers
  · exact fun hcovers => ⟨base, ctrl, hbase, hctrl, hcovers⟩

/-- The address that a register reaches, from the registers. -/
theorem Ase.reaches_iff {offset addr : ℕ} (hbase : ase.base writes = some base)
    (hvalue : lastWrite writes offset = some value) :
    ase.Reaches writes offset addr ↔ base + value = addr := by
  constructor
  · rintro ⟨base', value', hbase', hvalue', hsum⟩
    obtain rfl := Option.some.inj (hbase.symm.trans hbase')
    obtain rfl := Option.some.inj (hvalue.symm.trans hvalue')
    exact hsum
  · exact fun hsum => ⟨base, value, hbase, hvalue, hsum⟩

/-- The size of the window for some bytes: a power of two of at least a page. -/
theorem aseWindowSize_ctrlSize (hround : RoundsUpToPower roundupPowOfTwo) (hpos : value ≠ 0)
    (hle : value ≤ 2 ^ 63) (enable : ℕ) :
    aseWindowSize (enable * 2 ^ 30 ||| zhouyiV2AseCtrlSize roundupPowOfTwo value) =
      2 ^ max 12 (Nat.clog 2 value) := by
  have hclog : Nat.clog 2 value ≤ 63 := Nat.clog_le_of_le_pow hle
  have hmax : max 4096 (2 ^ Nat.clog 2 value) = 2 ^ max 12 (Nat.clog 2 value) := by
    rcases Nat.le_total 12 (Nat.clog 2 value) with h | h
    · rw [max_eq_right h]
      exact max_eq_right (Nat.pow_le_pow_right (by decide) h : 2 ^ 12 ≤ 2 ^ Nat.clog 2 value)
    · rw [max_eq_left h]
      exact max_eq_left (Nat.pow_le_pow_right (by decide) h : 2 ^ Nat.clog 2 value ≤ 2 ^ 12)
  have hsize : zhouyiV2AseCtrlSize roundupPowOfTwo value = max 12 (Nat.clog 2 value) - 12 + 1 := by
    rw [zhouyiV2AseCtrlSize, hround value hpos hle, hmax, Nat.pow_div (le_max_left _ _) (by decide),
      Nat.log2_two_pow]
  have hctrl : (enable * 2 ^ 30 ||| (max 12 (Nat.clog 2 value) - 12 + 1)) % 2 ^ 30 =
      max 12 (Nat.clog 2 value) - 12 + 1 := by
    rw [Nat.or_mod_two_pow, Nat.mul_mod_left, Nat.zero_or, Nat.mod_eq_of_lt (by omega)]
  rw [hsize, aseWindowSize, hctrl, Nat.add_sub_cancel, ← Nat.pow_add,
    Nat.add_sub_cancel' (le_max_left _ _)]

/-- The window is large enough. -/
theorem le_aseWindowSize (hround : RoundsUpToPower roundupPowOfTwo) (hpos : value ≠ 0)
    (hle : value ≤ 2 ^ 63)
    (enable : ℕ) :
    value ≤ aseWindowSize (enable * 2 ^ 30 ||| zhouyiV2AseCtrlSize roundupPowOfTwo value) := by
  rw [aseWindowSize_ctrlSize hround hpos hle]
  exact (Nat.le_pow_clog (by decide) value).trans
    (Nat.pow_le_pow_right (by decide) (le_max_right _ _))

/-- The window for a word has at most as many bytes as there are words. -/
theorem aseWindowSize_le (hround : RoundsUpToPower roundupPowOfTwo) (hpos : value ≠ 0)
    (hlt : value < 2 ^ 32)
    (enable : ℕ) :
    aseWindowSize (enable * 2 ^ 30 ||| zhouyiV2AseCtrlSize roundupPowOfTwo value) ≤ 2 ^ 32 := by
  have hclog : Nat.clog 2 value ≤ 32 := Nat.clog_le_of_le_pow hlt.le
  rw [aseWindowSize_ctrlSize hround hpos (by omega)]
  exact Nat.pow_le_pow_right (by decide) (by omega)

/-- The base of an ASE is its lowest address and a register is the distance from it iff the lowest
address is a multiple of `2 ^ 32` and the distance is a word. -/
theorem base_add_distance_iff {addr : ℕ} (hle : lo ≤ addr) (hlt : addr < 2 ^ 64) :
    lo / 2 ^ 32 * 2 ^ 32 + wrap 32 (wrapSub 64 addr lo) = addr ↔
      lo % 2 ^ 32 = 0 ∧ addr < lo + 2 ^ 32 := by
  rw [wrapSub_of_le hlt hle, wrap]
  omega

end Windows

end Aipu
