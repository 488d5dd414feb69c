import ArmSimulator.SingleTransfer

/-!
# The addresses of half-words and of post-indexed transfers

A single transfer is right if its address is (`SingleTransfer`), and in two families it need not be.
The half-word transfers take their addressing mode from the function of LDR and STR, which looks at
bit 25: there it is always clear, and a register offset is read as an immediate.  The post-indexed
transfers write the base back first and access memory at the new value.  Both mistakes are harmless
for some operands; `halfTransfer_indexed_iff` and `postIndexed_iff` say for which.

Both results have the same form.  The address of the code is computed (`accessAddress_half`,
`PostIndexed.accessAddress_eq`); it is the address of the instruction set exactly when the two
offsets are equal, since adding or subtracting is injective (`indexedAddress_inj`); and where they
are equal the transfer is right by `transferred_of_access`.

A half-word transfer is also asked to read back: the register that is loaded and the base that is
written back are registers of the mode.  A half-word is never what a missing register reads as, so a
load into one is always seen (`half_ne_missing`); a missing base is seen unless the offset is 0.
-/

namespace ArmSimulator

open ByteOrder

/-- The offset of a half-word in the instruction set: bit 22 selects the immediate. -/
def halfOffset (p : ArmCore) (ins : Word) : Word :=
  if getBit ins 22 = 1 then halfImmediate ins else rmValue p ins

/-- The offset of a single transfer in the instruction set. -/
def transferOffset (p : ArmCore) (ins : Word) : Word :=
  if IsHalfTransfer ins then halfOffset p ins else wordOffset p ins

section Addresses

variable {p : ArmCore} {ins : Word}

/-- Two offsets give the same address only if they are the same. -/
theorem indexedAddress_inj {offset offset' : Word} :
    indexedAddress p ins offset = indexedAddress p ins offset' ↔ offset = offset' := by
  rw [indexedAddress, indexedAddress]
  split_ifs
  · exact BitVec.add_right_inj _
  · constructor
    · intro h
      bv_omega
    · rintro rfl
      rfl

/-- The offset 0 is the base itself. -/
theorem indexedAddress_zero :
    indexedAddress p ins 0 = armReadRegister p (u8 (getBits ins 19 16)) := by
  rw [indexedAddress]
  split_ifs
  · exact BitVec.add_zero _
  · exact BitVec.sub_zero _

/-- **The address of a half-word** in the code: the base and the immediate. -/
theorem accessAddress_half (p : ArmCore) (hins : IsHalfTransfer ins)
    (hindexing : getBit ins 24 = 1 ∨ getBit ins 21 = 0) :
    accessAddress p ins = if getBits ins 27 20 = 18 then none
      else some (indexedAddress p ins (halfImmediate ins)) := by
  have hbit25 := bit25_of_category_zero hins.1
  have hmode : determineAddressingModeLdrStr ins ≠ .undefined := by
    refine determineAddressingModeLdrStr_ne_undefined hindexing fun hi => ?_
    rw [hbit25] at hi
    exact absurd hi (by decide)
  have hnot : ¬ IsSingleTransfer ins := fun hsingle => hsingle.not_half hins
  rw [accessAddress, codeOffset, if_pos hins]
  split_ifs with hcond hbranch hbranch
  · exact absurd hbranch (hcond.1.resolve_left hnot).2
  · rfl
  · rfl
  · exact absurd ⟨Or.inr ⟨hins, hbranch⟩, hmode⟩ hcond

end Addresses

/-! ## Half-words

Offset and pre-indexed LDRH and STRH, in every state. -/

/-- An offset or pre-indexed half-word transfer that is executed: `Rd` is not `R15`, a base that is
written back is neither `R15` nor `Rd`, and the bytes at the address of the instruction set are in
memory. -/
structure HalfIndexed (p : ArmCore) (ins : Word) : Prop where
  executes : Executes p ins
  half : IsHalfTransfer ins
  bit24 : getBit ins 24 = 1
  rd : getBits ins 15 12 ≠ 15
  base : getBit ins 21 = 1 → getBits ins 19 16 ≠ 15 ∧ getBits ins 19 16 ≠ getBits ins 15 12
  inside : (indexedAddress p.fetched ins (halfOffset p.fetched ins)).toNat + 2 ≤
    p.mem.capacity.toNat

/-- What is read back after a transfer at an address: a register that is loaded reads as the bytes
that were there, and a base that is written back reads as the address. -/
structure ReadsBack (p : ArmCore) (ins address : Word) (q : ArmCore) : Prop where
  loaded : getBit ins 20 = 1 → armReadRegister q (u8 (getBits ins 15 12)) =
    BitVec.ofNat 32 (decode .big (p.mem.bytesAt address (accessWidth ins)))
  base : getBit ins 21 = 1 → armReadRegister q (u8 (getBits ins 19 16)) = address

/-- The access of the code is at an address, and the step is the transfer there: it returns 0,
leaves the state of the transfer, and what it writes is read back. -/
def TransfersAt (p : ArmCore) (ins junk address : Word) : Prop :=
  accessAddress p.fetched ins = some address ∧
    ∃ q, armStep p junk = some (0, q) ∧ Transferred p.fetched ins address q ∧
      ReadsBack p.fetched ins address q

/-- The registers that a half-word transfer writes are registers of the mode, unless the base would
be written back as it is. -/
structure WritesRegisters (p : ArmCore) (ins offset : Word) : Prop where
  loaded : getBit ins 20 = 1 → HasRegister p (u8 (getBits ins 15 12))
  base : getBit ins 21 = 1 → HasRegister p (u8 (getBits ins 19 16)) ∨ offset = 0

section HalfWords

variable {p q : ArmCore} {ins offset : Word}

/-- A half-word is not what a missing register reads as. -/
theorem half_ne_missing (hhalf : IsHalfTransfer ins) (mem : Memory) (address : Word) :
    BitVec.ofNat 32 (decode .big (mem.bytesAt address (accessWidth ins))) ≠ UINT32_MAX := by
  have hlt := decode_lt .big (mem.bytesAt address (accessWidth ins))
  rw [Memory.length_bytesAt, accessWidth, if_pos hhalf] at hlt
  intro heq
  have hnat := congrArg BitVec.toNat heq
  rw [BitVec.toNat_ofNat, accessWidth, if_pos hhalf] at hnat
  have hmax : UINT32_MAX.toNat = 2 ^ 32 - 1 := rfl
  omega

/-- **When a transfer is read back**: the registers that it writes are there, and a base that is
missing reads as the address only if the offset is 0. -/
theorem readsBack_iff (hhalf : IsHalfTransfer ins) (hrd : getBits ins 15 12 ≠ 15)
    (hrn : getBit ins 21 = 1 → getBits ins 19 16 ≠ 15)
    (hq : Transferred p ins (indexedAddress p ins offset) q) :
    ReadsBack p ins (indexedAddress p ins offset) q ↔ WritesRegisters p ins offset := by
  have hrd15 := registerField_ne_pc ins 12 hrd
  have hrn15 := fun hw => registerField_ne_pc ins 16 (hrn hw)
  have hmissing : ∀ {reg : Byte}, reg ≠ 15 → ¬ HasRegister p reg →
      armReadRegister q reg = UINT32_MAX := by
    intro reg hreg hnot
    exact armReadRegister_of_missing hreg (by rwa [HasRegister, hq.mode])
  -- a base that is missing reads as before, and the address is then the base
  have hbase : getBit ins 21 = 1 → ¬ HasRegister p (u8 (getBits ins 19 16)) →
      (armReadRegister q (u8 (getBits ins 19 16)) = indexedAddress p ins offset ↔
        offset = 0) := by
    intro hw hnot
    rw [hmissing (hrn15 hw) hnot, ← armReadRegister_of_missing (hrn15 hw) hnot,
      ← indexedAddress_zero, indexedAddress_inj]
    exact eq_comm
  constructor
  · rintro ⟨hloaded, haddress⟩
    refine ⟨fun hl => ?_, fun hw => or_iff_not_imp_left.mpr fun hnot =>
      (hbase hw hnot).mp (haddress hw)⟩
    by_contra hnot
    exact half_ne_missing hhalf p.mem _ ((hloaded hl).symm.trans (hmissing hrd15 hnot))
  · rintro ⟨hloaded, haddress⟩
    refine ⟨fun hl => ?_, fun hw => ?_⟩
    · obtain ⟨t, hslot⟩ := Option.isSome_iff_exists.mp (hloaded hl)
      rw [armReadRegister_of_slot hrd15 (hq.mode ▸ hslot), hq.loaded hl t hslot]
    · by_cases hhas : HasRegister p (u8 (getBits ins 19 16))
      · obtain ⟨t, hslot⟩ := Option.isSome_iff_exists.mp hhas
        rw [armReadRegister_of_slot (hrn15 hw) (hq.mode ▸ hslot), hq.base hw t hslot]
      · exact (hbase hw hhas).mpr ((haddress hw).resolve_left hhas)

/-- **Which half-word transfers are right**: for every state, its mode valid or not, and every LDRH
and STRH with bit 24 set, the step is the transfer at `Rn` plus or minus the offset exactly when the
word is not taken for a branch, the offset is the immediate, or a register whose value is that of
the immediate, and the registers that are to be written are registers of the mode. -/
theorem halfTransfer_indexed_iff (junk : Word) (h : HalfIndexed p ins) :
    TransfersAt p ins junk (indexedAddress p.fetched ins (halfOffset p.fetched ins)) ↔
      getBits ins 27 20 ≠ 18 ∧
        (getBit ins 22 = 1 ∨ halfImmediate ins = rmValue p.fetched ins) ∧
        WritesRegisters p.fetched ins (halfOffset p.fetched ins) := by
  have haccess := accessAddress_half p.fetched h.half (Or.inl h.bit24)
  have hoffset : halfImmediate ins = halfOffset p.fetched ins ↔
      getBit ins 22 = 1 ∨ halfImmediate ins = rmValue p.fetched ins := by
    rw [halfOffset]
    split_ifs with himmediate
    · exact iff_of_true rfl (Or.inl himmediate)
    · exact (or_iff_right himmediate).symm
  have hreads : ∀ {q : ArmCore}, Transferred p.fetched ins
      (indexedAddress p.fetched ins (halfOffset p.fetched ins)) q →
        (ReadsBack p.fetched ins (indexedAddress p.fetched ins (halfOffset p.fetched ins)) q ↔
          WritesRegisters p.fetched ins (halfOffset p.fetched ins)) :=
    readsBack_iff h.half h.rd fun hw => (h.base hw).1
  rw [← hoffset]
  constructor
  · rintro ⟨haddress, q, -, hq, hback⟩
    rw [haccess] at haddress
    split_ifs at haddress with hbranch
    exact ⟨hbranch, indexedAddress_inj.mp (Option.some.inj haddress), (hreads hq).mp hback⟩
  · rintro ⟨hbranch, hsame, hregisters⟩
    rw [if_neg hbranch, hsame] at haccess
    have hinside : (indexedAddress p.fetched ins (halfOffset p.fetched ins)).toNat +
        accessWidth ins ≤ p.mem.capacity.toNat := by
      rw [accessWidth, if_pos h.half]
      exact h.inside
    obtain ⟨q, hstep, hq⟩ := transferred_of_access junk h.executes haccess h.bit24
      (fun hw => (h.base hw).2) hinside
    exact ⟨haccess, q, hstep, hq, (hreads hq).mpr hregisters⟩

/-- `LDRH r0, [r1, #2]!` at address 0. -/
theorem halfTransfer_indexed_iff_ldrh :
    TransfersAt (ArmCore.load 0x1d3 [0xE1F100B2]) 0xE1F100B2 0 2 ↔
      getBits 0xE1F100B2 27 20 ≠ 18 ∧ (getBit 0xE1F100B2 22 = 1 ∨
        halfImmediate 0xE1F100B2 =
          rmValue (ArmCore.load 0x1d3 [0xE1F100B2]).fetched 0xE1F100B2) ∧
        WritesRegisters (ArmCore.load 0x1d3 [0xE1F100B2]).fetched 0xE1F100B2 2 :=
  halfTransfer_indexed_iff 0 ⟨⟨by decide, by decide⟩, by decide, by decide, by decide, by decide,
    by decide⟩

/-- `STRH r0, [r1, r2]` at address 0, all registers zero: the code stores at address 2. -/
theorem halfTransfer_indexed_counterexample :
    ¬ ∀ (p : ArmCore) (ins junk : Word), HalfIndexed p ins →
      TransfersAt p ins junk (indexedAddress p.fetched ins (halfOffset p.fetched ins)) := by
  intro h
  have hsample : HalfIndexed (ArmCore.load 0x1d3 [0xE18100B2]) 0xE18100B2 :=
    ⟨⟨by decide, by decide⟩, by decide, by decide, by decide, by decide, by decide⟩
  have haddress := (h _ _ 0 hsample).1
  exact absurd haddress (by decide)

end HalfWords

/-! ## Post-indexed transfers

Words, bytes and half-words with bit 24 clear.  The base is read back through `arm_read_register`,
which shows a base that the mode does not have. -/

/-- A post-indexed transfer that is executed: the base is neither `R15` nor `Rd`, and the bytes at
the base are in memory. -/
structure PostIndexed (p : ArmCore) (ins : Word) : Prop where
  executes : Executes p ins
  kind : IsSingleTransfer ins ∨ IsHalfTransfer ins
  bit24 : getBit ins 24 = 0
  bit21 : getBit ins 21 = 0
  base : getBits ins 19 16 ≠ 15 ∧ getBits ins 19 16 ≠ getBits ins 15 12
  inside : (armReadRegister p.fetched (u8 (getBits ins 19 16))).toNat + accessWidth ins ≤
    p.mem.capacity.toNat

/-- The access is at the value the base had, and the base is moved by the offset.  The offset is the
one of the instruction set. -/
def UsesOldBase (p : ArmCore) (ins junk : Word) : Prop :=
  accessAddress p.fetched ins = some (armReadRegister p.fetched (u8 (getBits ins 19 16))) ∧
    ∃ r, armStep p junk = some r ∧ armReadRegister r.2 (u8 (getBits ins 19 16)) =
      indexedAddress p.fetched ins (transferOffset p.fetched ins)

section PostIndexing

variable {p : ArmCore} {ins : Word}

/-- **The address of a post-indexed transfer** in the code. -/
theorem PostIndexed.accessAddress_eq (h : PostIndexed p ins) :
    accessAddress p.fetched ins = some (indexedAddress p.fetched ins
      (if IsHalfTransfer ins then halfImmediate ins else wordOffset p.fetched ins)) := by
  split_ifs with hhalf
  · have hbranch : getBits ins 27 20 ≠ 18 := by
      have hp := h.bit24
      rw [getBit_eq_iff] at hp
      rw [Ne, getBits_eq_iff]
      simp only [BitVec.ofNat_eq_ofNat, BitVec.toNat_ofNat] at hp ⊢
      omega
    rw [accessAddress_half _ hhalf (Or.inr h.bit21), if_neg hbranch]
  · have hsingle := h.kind.resolve_right hhalf
    refine accessAddress_single _ hsingle
      (determineAddressingModeLdrStr_ne_undefined (Or.inr h.bit21) hsingle.bit4)

/-- When the access is at the base, writing the base back changes nothing. -/
theorem PostIndexed.step_of_access (h : PostIndexed p ins) (junk : Word)
    (haccess : accessAddress p.fetched ins =
      some (armReadRegister p.fetched (u8 (getBits ins 19 16)))) :
    armStep p junk = some (0, transfer p.fetched ins
      (armReadRegister p.fetched (u8 (getBits ins 19 16)))) := by
  have hpc : u8 (getBits ins 19 16) ≠ 15 := registerField_ne_pc ins 16 h.base.1
  have hflag : (determineAddressingModeLdrStr ins).writesBack = true := by
    rw [writesBack_eq (mode_of_access haccess), h.bit24]
    rfl
  have hsame : accessState p.fetched ins (armReadRegister p.fetched (u8 (getBits ins 19 16))) =
      p.fetched := by
    rw [accessState, hflag]
    exact armWriteRegister_self p.fetched hpc
  have hexec : armExecuteInstruction p junk = dispatch p.fetched ins junk := h.executes.dispatched
  rw [dispatch_of_access haccess, hsame, @processAccess_inside p.fetched ins _ h.inside] at hexec
  rw [armStep_of_execute hexec]
  rfl

/-- The transfer itself leaves the base as it is. -/
theorem PostIndexed.read_base (h : PostIndexed p ins) (address : Word) :
    armReadRegister (transfer p.fetched ins address) (u8 (getBits ins 19 16)) =
      armReadRegister p.fetched (u8 (getBits ins 19 16)) := by
  rcases getBit_cases ins 20 with hl | hl
  · rw [transfer_store hl]
    rfl
  · have hne : u8 (getBits ins 19 16) ≠ u8 (getBits ins 15 12) := fun heq =>
      h.base.2 (registerField_inj ins 16 12 heq)
    rw [transfer_load hl]
    exact armReadRegister_write_of_ne p.fetched _ hne

/-- **Which post-indexed transfers use the old base**: for every state and every such transfer, the
access is at the old value of the base and the base is moved by the offset exactly when the offset
is 0 and, for half-words, the immediate that the code takes for the offset is 0 too. -/
theorem postIndexed_iff (junk : Word) (h : PostIndexed p ins) :
    UsesOldBase p ins junk ↔ transferOffset p.fetched ins = 0 ∧
      (IsHalfTransfer ins → halfImmediate ins = 0) := by
  have haddress := h.accessAddress_eq
  rw [UsesOldBase, transferOffset]
  constructor
  · rintro ⟨haccess, r, hstep, hread⟩
    have hcode := haccess
    rw [haddress, ← indexedAddress_zero] at hcode
    have hzero := indexedAddress_inj.mp (Option.some.inj hcode)
    rw [h.step_of_access junk haccess] at hstep
    cases hstep
    rw [h.read_base, ← indexedAddress_zero] at hread
    refine ⟨(indexedAddress_inj.mp hread).symm, fun hhalf => ?_⟩
    rwa [if_pos hhalf] at hzero
  · rintro ⟨hoffset, himmediate⟩
    have hzero : (if IsHalfTransfer ins then halfImmediate ins else wordOffset p.fetched ins) =
        0 := by
      split_ifs at hoffset ⊢ with hhalf
      · exact himmediate hhalf
      · exact hoffset
    have haccess : accessAddress p.fetched ins =
        some (armReadRegister p.fetched (u8 (getBits ins 19 16))) := by
      rw [haddress, hzero, indexedAddress_zero]
    refine ⟨haccess, _, h.step_of_access junk haccess, ?_⟩
    rw [h.read_base, hoffset, indexedAddress_zero]

/-- `LDR r0, [r1], #0` at address 0. -/
theorem postIndexed_iff_ldr :
    UsesOldBase (ArmCore.load 0x1d3 [0xE4910000]) 0xE4910000 0 ↔
      transferOffset (ArmCore.load 0x1d3 [0xE4910000]).fetched 0xE4910000 = 0 ∧
        (IsHalfTransfer 0xE4910000 → halfImmediate 0xE4910000 = 0) :=
  postIndexed_iff 0 ⟨⟨by decide, by decide⟩, Or.inl (by decide), by decide, by decide, by decide,
    by decide⟩

/-- `LDR r0, [r1], #4` at address 0, all registers zero: the code loads from address 4. -/
theorem postIndexed_counterexample :
    ¬ ∀ (p : ArmCore) (ins junk : Word), PostIndexed p ins → UsesOldBase p ins junk := by
  intro h
  have hsample : PostIndexed (ArmCore.load 0x1d3 [0xE4910004]) 0xE4910004 :=
    ⟨⟨by decide, by decide⟩, Or.inl (by decide), by decide, by decide, by decide, by decide⟩
  exact absurd (h _ _ 0 hsample).1 (by decide)

end PostIndexing

end ArmSimulator
