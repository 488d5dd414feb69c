import ArmSimulator.Util
import ArmSimulator.MemoryAccess
import ArmSimulator.Library.Machine
import ArmSimulator.Library.Shifter

/-!
# Assembly: instructions and their meaning

The part of ARMv5 that the simulator carries out, as a language of its own: data processing with the
nine operations without carry and three of the comparisons, the single transfers that are not
post-indexed, the multiple transfers without `R15`, and the branches, on the conditions that test N
or Z.

The state is that of one mode: sixteen registers by their numbers, the flags N and Z, and the
memory.  `exec` gives an instruction its meaning there.  It leaves open (`none`) what ends in an
exception, what depends on anything that is not in the state (a carry, a status register), and a
base that is written back and is also loaded or stored.

The language is what a programmer reasons with, and is much smaller than the processor: there are no
modes and no banks, no exceptions, and an instruction that fails its condition has no meaning, since
in the simulator it ends in an interrupt.  C and V are not in the state because no condition of the
language tests them; the simulator computes some of them in its own way, which so makes no
difference here.

On aligned addresses the meaning is that of the architecture.  In some places it is the meaning of
the simulator, where the architecture has another one or says that the result is unpredictable:

* a word or a half-word at an address that is no multiple of its size is the bytes that are there:
  nothing is rotated, and no low bit of the address is dropped;
* the target of BX and BLX has its lowest bit cleared, and there is no Thumb state;
* what is loaded into `R15`, or computed into it, is the next address as it is, with its two low
  bits; the instruction there has a meaning only where they are 0;
* a byte or a half-word may be loaded into `R15`, and `R15` may be an offset or a shift.

A program that keeps to the rules of the architecture does not meet them.
-/

namespace ArmSimulator.Assembly

/-! ## Syntax

The instructions as an inductive type, each with its operands as fields of their own widths.  What
cannot be encoded cannot be written. -/

/-- The number of a register. -/
abbrev Register := BitVec 4

/-- The conditions on the flags N and Z. -/
inductive Condition
  | eq | ne | mi | pl | al
  deriving DecidableEq, Repr

/-- The operations of data processing; `tst`, `cmp` and `cmn` have no destination. -/
inductive Opcode
  | and | eor | sub | rsb | add | tst | cmp | cmn | orr | mov | bic | mvn
  deriving DecidableEq, Repr

/-- The second operand of data processing. -/
inductive Operand
  /-- A byte, rotated to the right by twice a number. -/
  | immediate (rotation : BitVec 4) (value : BitVec 8)
  /-- A register, shifted by a constant. -/
  | shifted (kind : Shifter.Kind) (amount : BitVec 5) (rm : Register)
  /-- A register, shifted by a register. -/
  | shiftedBy (kind : Shifter.Kind) (rs rm : Register)
  deriving DecidableEq, Repr

/-- The offset of a single transfer. -/
inductive Offset
  | immediate (value : BitVec 12)
  | shifted (kind : Shifter.Kind) (amount : BitVec 5) (rm : Register)
  deriving DecidableEq, Repr

/-- An instruction without its condition. -/
inductive Instruction
  /-- Data processing; `setFlags` is the S bit. -/
  | dataProcessing (opcode : Opcode) (setFlags : Bool) (rn rd : Register) (operand : Operand)
  /-- LDR, STR, LDRB and STRB. -/
  | transfer (load byte up writeBack : Bool) (rn rd : Register) (offset : Offset)
  /-- LDRH and STRH. -/
  | transferHalf (load up writeBack : Bool) (rn rd : Register) (offset : BitVec 8)
  /-- LDM and STM; `before` is the P bit. -/
  | multiple (load before up writeBack : Bool) (rn : Register) (regList : BitVec 15)
  /-- B and BL. -/
  | branch (link : Bool) (offset : BitVec 24)
  /-- BX and BLX. -/
  | exchange (link : Bool) (rm : Register)
  deriving DecidableEq, Repr

/-! ## States

A state and its few changes.  `R15` is among the registers and is the address of the instruction,
not the one 8 ahead that a program reads. -/

/-- A state: the registers of one mode, the flags N and Z, and the memory.  `R15` is the address of
the instruction to be carried out. -/
@[ext] structure State where
  reg : Register → Word
  n : Bool
  z : Bool
  mem : Memory

namespace State

variable (s : State)

/-- A register as an instruction reads it: `R15` is 8 ahead. -/
def read (r : Register) : Word := if r = 15 then s.reg 15 + 8 else s.reg r

/-- A register is written. -/
def write (r : Register) (value : Word) : State :=
  { s with reg := Function.update s.reg r value }

@[simp] theorem reg_write_self (r : Register) (value : Word) : (s.write r value).reg r = value :=
  Function.update_self ..

theorem reg_write_of_ne {r r' : Register} (h : r' ≠ r) (value : Word) :
    (s.write r value).reg r' = s.reg r' := Function.update_of_ne h ..

/-- The instruction is left behind: `R15` goes on by 4.  Every instruction begins with this, and a
branch changes `R15` once more. -/
def next : State := s.write 15 (s.reg 15 + 4)

/-- The flags of a result. -/
def setFlags (result : Word) : State := { s with n := result.msb, z := decide (result = 0) }

/-- The low bytes of a word are stored, the highest first. -/
def store (address : Word) (width : ℕ) (value : Word) : State :=
  { s with mem := s.mem.storeBytes address (ByteOrder.encode .big width value.toNat) }

/-- The bytes at an address as a number, the highest first. -/
def load (address : Word) (width : ℕ) : Word :=
  BitVec.ofNat 32 (ByteOrder.decode .big (s.mem.bytesAt address width))

/-- Registers are stored in consecutive words, in the order of the list. -/
def storeWords : List Register → Word → State → State
  | [], _, s => s
  | r :: rs, address, s => storeWords rs (address + 4) (s.store address 4 (s.reg r))

/-- Registers are loaded from consecutive words, in the order of the list. -/
def loadWords : List Register → Word → State → State
  | [], _, s => s
  | r :: rs, address, s => loadWords rs (address + 4) (s.write r (s.load address 4))

end State

/-! ## Operands

The arithmetic, on values, with `none` where a value depends on the carry. -/

/-- Whether a condition holds.  There is none on C and V. -/
def Condition.holds (s : State) : Condition → Bool
  | eq => s.z
  | ne => !s.z
  | mi => s.n
  | pl => !s.n
  | al => true

/-- The result of an operation.  The comparisons have one as well, for their flags. -/
def Opcode.apply (rn operand : Word) : Opcode → Word
  | and | tst => rn &&& operand
  | eor => rn ^^^ operand
  | sub | cmp => rn - operand
  | rsb => operand - rn
  | add | cmn => rn + operand
  | orr => rn ||| operand
  | mov => operand
  | bic => rn &&& ~~~operand
  | mvn => ~~~operand

/-- The operations without a destination. -/
def Opcode.compares : Opcode → Bool
  | tst | cmp | cmn => true
  | _ => false

/-- A word shifted by a constant.  A rotation by 0 brings in the carry, which is left open. -/
def shiftConstant (kind : Shifter.Kind) (amount : BitVec 5) (value : Word) : Option Word :=
  if kind = .ror ∧ amount = 0 then none
  else some (Shifter.immediate kind value amount.toNat false).2

/-- The second operand.  The simulator does not carry out a rotation by a register. -/
def Operand.value (s : State) : Operand → Option Word
  | immediate rotation value => some ((value.setWidth 32).rotateRight (2 * rotation.toNat))
  | shifted kind amount rm => shiftConstant kind amount (s.read rm)
  | shiftedBy kind rs rm =>
      if kind = .ror then none
      else some (Shifter.register kind (s.read rm) ((s.read rs).toNat % 256) false).2

/-- The offset of a transfer. -/
def Offset.value (s : State) : Offset → Option Word
  | immediate value => some (value.setWidth 32)
  | shifted kind amount rm => shiftConstant kind amount (s.read rm)

/-! ## Instructions

The meaning of each kind of instruction from the state in which it has been fetched. -/

namespace State

variable (s : State)

/-- The result of data processing is written, or its flags are set, or both.  With the S bit a
result that is what `R15` reads as is for the simulator a return from an exception. -/
def dataProcess (opcode : Opcode) (setFlags : Bool) (rd : Register) (result : Word) :
    Option State :=
  if opcode.compares then
    if setFlags then some (s.next.setFlags result) else none
  else if setFlags then
    if rd = 15 ∨ result = s.reg 15 + 8 then none
    else some ((s.next.write rd result).setFlags result)
  else some (s.next.write rd result)

/-- A single transfer.  The base that is written back is neither `R15` nor `Rd`, and the access
lies in memory.  The address need not be a multiple of the width: it is used as it is. -/
def transfer (width : ℕ) (load up writeBack : Bool) (rn rd : Register) (offset : Word) :
    Option State :=
  let address := if up then s.read rn + offset else s.read rn - offset
  if writeBack ∧ (rn = 15 ∨ rn = rd) then none
  else if s.mem.capacity.toNat < address.toNat + width then none
  else
    let t := if writeBack then s.next.write rn address else s.next
    some (if load then t.write rd (s.load address width) else t.store address width (s.read rd))

/-- A multiple transfer.  The base is not `R15`, nor in the list if it is written back, and the
block lies in memory; the simulator does not write back the base of the mode "increment after".  The
words lie at the address as it is, aligned or not. -/
def multiple (load before up writeBack : Bool) (rn : Register) (regs : List Register) :
    Option State :=
  let size := 4 * regs.length
  let last := if up then s.read rn + BitVec.ofNat 32 size else s.read rn - BitVec.ofNat 32 size
  let bottom := if up then s.read rn else last
  let start := if before = up then bottom + 4 else bottom
  if rn = 15 ∨ (writeBack ∧ (rn ∈ regs ∨ (up ∧ !before))) then none
  else if s.mem.capacity.toNat < start.toNat + size ∨ 2 ^ 32 < start.toNat + size then none
  else
    let t := if writeBack then s.next.write rn last else s.next
    some (if load then loadWords regs start t else storeWords regs start t)

/-- A branch, with the address of the next instruction in `R14` if there is a link. -/
def branch (link : Bool) (target : Word) : State :=
  (if link then s.next.write 14 (s.reg 15 + 4) else s.next).write 15 target

end State

/-- The registers of a list, in the order of their numbers. -/
def listed (regList : BitVec 15) : List Register :=
  ((List.range 15).filter fun i => regList.getLsbD i).map (BitVec.ofNat 4)

/-- The meaning of an instruction.  BX and BLX clear the lowest bit of their target; the other ways
into `R15` do not. -/
def exec (s : State) : Instruction → Option State
  | .dataProcessing opcode setFlags rn rd operand =>
      (operand.value s).bind fun operand =>
        s.dataProcess opcode setFlags rd (opcode.apply (s.read rn) operand)
  | .transfer load byte up writeBack rn rd offset =>
      (offset.value s).bind fun offset =>
        s.transfer (if byte then 1 else 4) load up writeBack rn rd offset
  | .transferHalf load up writeBack rn rd offset =>
      s.transfer 2 load up writeBack rn rd (offset.setWidth 32)
  | .multiple load before up writeBack rn regList =>
      s.multiple load before up writeBack rn (listed regList)
  | .branch link offset => some (s.branch link (s.reg 15 + 8 + 4 * offset.signExtend 32))
  | .exchange link rm => some (s.branch link (s.read rm &&& 0xFFFFFFFE))

end ArmSimulator.Assembly
