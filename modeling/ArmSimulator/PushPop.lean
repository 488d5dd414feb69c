import ArmSimulator.MultipleTransfers

/-!
# Push and pop

`STMDB Rn!, list` and `LDMIA Rn!, list` should cancel.  The push lowers `Rn` by four bytes a
register, but `start_end_adresse` adds the size of the block to the *number* of the base register
when it prepares the pop: the value goes back to `Rn`'s number plus `4 * n`, which is at best no
register at all, and `Rn` is left at the bottom of the block.

`pushPop_base` follows the base through both instructions, and `pushPop_never_inverse` is what comes
of it: the base that is left differs from the old one by the size of the block, which is not 0 and
less than the address space.  That holds for every base and every list, so there is no state in
which a push and a pop are inverse.

The pair of modes that the code does carry out, without write-back, is the subject of
`BlockRoundTrip`; a calling convention that works on this simulator uses STMIB and LDMDA instead and
is in `Assembly.Procedures`.
-/

namespace ArmSimulator

/-- A push and a pop of the same list in a valid mode, with the block below the base in memory.  The
list is not empty, and neither `R15` nor the base is in it. -/
structure PushPop (p : ArmCore) (m : Mode) (rn : Fin 16) (regList push pop : Word) : Prop where
  mode : p.reg.currentMode = m.number
  base : rn ≠ 15
  nonempty : regList ≠ 0
  listed : ∀ i, getBit regList i = 1 → i ≤ 14 ∧ i ≠ rn.val
  push : IsBlockTransfer push 1 0 1 0 rn regList
  pop : IsBlockTransfer pop 0 1 1 1 rn regList
  noWrap : 4 * countSetBits regList ≤ (armReadRegister p (BitVec.ofNat 8 rn.val)).toNat
  inMemory : (armReadRegister p (BitVec.ofNat 8 rn.val)).toNat ≤ p.mem.capacity.toNat

/-- The registers are as before the push, and memory outside the block is.  Nothing is asked of the
block itself, which the push has written. -/
structure Restored (regList : Word) (rn : Fin 16) (p q : ArmCore) : Prop where
  listed : ∀ i ≤ 14, getBit regList i = 1 →
    armReadRegister q (BitVec.ofNat 8 i) = armReadRegister p (BitVec.ofNat 8 i)
  base : armReadRegister q (BitVec.ofNat 8 rn.val) = armReadRegister p (BitVec.ofNat 8 rn.val)
  unlisted : ∀ s, Unlisted p regList s → slot (BitVec.ofNat 8 rn.val) p.reg.currentMode ≠ some s →
    q.reg.get s = p.reg.get s
  memory : ∀ a, ¬ InWindow (armReadRegister p (BitVec.ofNat 8 rn.val) -
      BitVec.ofNat 32 (4 * countSetBits regList)) (4 * countSetBits regList) a →
    q.mem.data a = p.mem.data a

/-! ## The base register -/

section Base

variable {p : ArmCore} {m : Mode} {rn : Fin 16} {regList push pop : Word}

/-- A push lowers its base by the size of the block. -/
theorem push_base (h : PushPop p m rn regList push pop) (junk : Word) :
    ∃ q, armLoadStoreMultiple p push junk = some (0, q) ∧ q.reg.currentMode = m.number ∧
      armReadRegister q (BitVec.ofNat 8 rn.val) = armReadRegister p (BitVec.ofNat 8 rn.val) -
        BitVec.ofNat 32 (4 * countSetBits regList) := by
  obtain ⟨t, hslot⟩ := slot_register_isSome rn m
  rw [← h.mode] at hslot
  have hkeeps : ¬ RaisesNumber push := by
    rw [RaisesNumber, h.push.p]
    exact fun hraises => absurd hraises.1 (by decide)
  have hnumber : u8 (getBits push 19 16) = BitVec.ofNat 8 rn.val := by rw [h.push.rn, u8_ofNat]
  have hafter : baseAfter p push = armReadRegister p (BitVec.ofNat 8 rn.val) -
      BitVec.ofNat 32 (4 * countSetBits regList) := by
    rw [baseAfter, h.push.w, h.push.u, baseValue, hnumber, blockSize, blockWords, h.push.regList]
    rfl
  have hmode : (stmLoop (getBits push 15 0) (List.range 15) (blockAddresses p push).core
      (firstWord p push)).reg.currentMode = p.reg.currentMode := by
    rw [stmLoop_reg, core_currentMode]
  refine ⟨_, armLoadStoreMultiple_store h.push.l, hmode.trans h.mode, ?_⟩
  rw [armReadRegister_of_slot (register_ne_pc h.base) (by rwa [hmode]), stmLoop_reg,
    core_get hkeeps, hnumber, if_pos hslot, hafter]

/-- A pop leaves its base alone: it writes a register of a higher number, and then the
listed ones. -/
theorem pop_base (hmode : p.reg.currentMode = m.number) (hrn : rn ≠ 15) (hnonempty : regList ≠ 0)
    (hlisted : ∀ i, getBit regList i = 1 → i ≤ 14 ∧ i ≠ rn.val)
    (hpop : IsBlockTransfer pop 0 1 1 1 rn regList) (junk : Word) :
    ∃ q, armLoadStoreMultiple p pop junk = some (0, q) ∧
      armReadRegister q (BitVec.ofNat 8 rn.val) = armReadRegister p (BitVec.ofNat 8 rn.val) := by
  obtain ⟨t, hslot⟩ := slot_register_isSome rn m
  rw [← hmode] at hslot
  have hlist : ∀ i, Listed pop i → i ≤ 14 ∧ i ≠ rn.val := by
    intro i hi
    rw [Listed, hpop.regList] at hi
    exact hlisted i hi
  have hpc : ¬ Listed pop 15 := fun hi => absurd (hlist 15 hi).1 (by decide)
  have hnumber : u8 (getBits pop 19 16) = BitVec.ofNat 8 rn.val := by rw [hpop.rn, u8_ofNat]
  have hother : ∀ i < 15, Listed pop i → slot (BitVec.ofNat 8 i) p.reg.currentMode ≠ some t := by
    intro i _ hi
    refine slot_ne_of_ne (fun heq => (hlist i hi).2 ?_) hslot
    rw [← toNat_listed hi, heq, toNat_register]
  have hkept : (loadedBlock p pop junk).core.reg.get t = p.reg.get t := by
    rw [loadedBlock_kept hother, raisesNumber_core_get ⟨hpop.p, hpop.u, hpop.w⟩]
    · rw [hnumber, hslot]
    · rwa [hpop.regList]
  have hcurrent : (loadedBlock p pop junk).core.reg.currentMode = p.reg.currentMode :=
    (ldmLoop_status ..).2.2.trans (core_currentMode p pop)
  refine ⟨_, armLoadStoreMultiple_load hpop.l hpc, ?_⟩
  rw [armReadRegister_of_slot (register_ne_pc hrn) (by rwa [hcurrent]),
    armReadRegister_of_slot (register_ne_pc hrn) hslot, hkept]

end Base

/-! ## Push and pop -/

/-- The base after a push, any change of the listed registers, and a pop: the bottom of
the block. -/
theorem pushPop_base {p : ArmCore} {m : Mode} {rn : Fin 16} {regList push pop : Word}
    (h : PushPop p m rn regList push pop) (junk junk' : Word) :
    ∃ q, armLoadStoreMultiple p push junk = some (0, q) ∧
      ∀ q', Overwritten regList q q' → ∃ s, armLoadStoreMultiple q' pop junk' = some (0, s) ∧
        armReadRegister s (BitVec.ofNat 8 rn.val) =
          armReadRegister p (BitVec.ofNat 8 rn.val) -
            BitVec.ofNat 32 (4 * countSetBits regList) := by
  obtain ⟨t, hslot⟩ := slot_register_isSome rn m
  obtain ⟨q, hpush, hmode, hbase⟩ := push_base h junk
  refine ⟨q, hpush, fun q' hq => ?_⟩
  have hmode' : q'.reg.currentMode = m.number := hq.mode.trans hmode
  obtain ⟨s, hpop, hread⟩ := pop_base hmode' h.base h.nonempty h.listed h.pop junk'
  have hunlisted : Unlisted q regList t := by
    intro i hi hbit hsame
    have hval := (toNat_of_slot hsame).trans (toNat_of_slot hslot).symm
    rw [toNat_register, BitVec.toNat_ofNat, Nat.mod_eq_of_lt (by omega)] at hval
    exact (h.listed i hbit).2 hval
  refine ⟨s, hpop, ?_⟩
  have hslot' : slot (BitVec.ofNat 8 rn.val) q.reg.currentMode = some t := by rw [hmode, hslot]
  rw [hread, armReadRegister_of_slot (register_ne_pc h.base) (by rw [hmode', hslot]),
    hq.slots t hunlisted, ← armReadRegister_of_slot (register_ne_pc h.base) hslot', hbase]

/-- **Push and pop are never inverse**: for every mode, base and list, and whatever the
listed registers are overwritten with, the pop does not give the base its value back. -/
theorem pushPop_never_inverse {p : ArmCore} {m : Mode} {rn : Fin 16}
    {regList push pop junk junk' : Word} (h : PushPop p m rn regList push pop) :
    ∃ q, armLoadStoreMultiple p push junk = some (0, q) ∧
      ∀ q', Overwritten regList q q' → ∃ s, armLoadStoreMultiple q' pop junk' = some (0, s) ∧
        ¬ Restored regList rn p s := by
  obtain ⟨q, hpush, hrest⟩ := pushPop_base h junk junk'
  refine ⟨q, hpush, fun q' hq => ?_⟩
  obtain ⟨s, hpop, hbase⟩ := hrest q' hq
  refine ⟨s, hpop, fun hrestored => ?_⟩
  rw [hrestored.base] at hbase
  have hpos := countSetBits_pos h.nonempty
  have hle := countSetBits_le regList
  -- the block is not empty and does not fill the address space
  have hsize : (BitVec.ofNat 32 (4 * countSetBits regList)).toNat = 4 * countSetBits regList := by
    rw [BitVec.toNat_ofNat]
    omega
  bv_omega

/-- The stack pointer at `0x100`, in mode SVC. -/
def pushPopSample : ArmCore := armWriteRegister (ArmCore.load 0x1d3 []) 13 0x100

/-- `STMDB sp!, {r0, r2, lr}` and `LDMIA sp!, {r0, r2, lr}`. -/
theorem pushPopSample_pushPop : PushPop pushPopSample .svc 13 0x4005 0xE92D4005 0xE8BD4005 where
  mode := by decide
  base := by decide
  nonempty := by decide
  listed := forall_getBit (by decide)
  push := by constructor <;> decide
  pop := by constructor <;> decide
  noWrap := by decide
  inMemory := by decide

theorem pushPop_never_inverse_sample :
    ∃ q, armLoadStoreMultiple pushPopSample 0xE92D4005 0 = some (0, q) ∧
      ∀ q', Overwritten 0x4005 q q' → ∃ s, armLoadStoreMultiple q' 0xE8BD4005 0 = some (0, s) ∧
        ¬ Restored 0x4005 13 pushPopSample s :=
  pushPop_never_inverse pushPopSample_pushPop

/-- The stack pointer is left at `0xF4`. -/
theorem pushPop_inverse_counterexample :
    ¬ ∀ (p : ArmCore) (m : Mode) (rn : Fin 16) (regList push pop junk junk' : Word),
      PushPop p m rn regList push pop → ∃ q, armLoadStoreMultiple p push junk = some (0, q) ∧
        ∀ q', Overwritten regList q q' → ∃ s, armLoadStoreMultiple q' pop junk' = some (0, s) ∧
          Restored regList rn p s := by
  intro h
  obtain ⟨q, hpush, hall⟩ := h _ _ _ _ _ _ 0 0 pushPopSample_pushPop
  obtain ⟨s, hpop, hrestored⟩ := hall q ⟨rfl, rfl, rfl, rfl, fun _ _ => rfl⟩
  have hresult : ((armLoadStoreMultiple pushPopSample 0xE92D4005 0).bind fun r =>
      armLoadStoreMultiple r.2 0xE8BD4005 0).map (fun r => armReadRegister r.2 13) =
        some 0xF4 := by decide
  rw [hpush, Option.bind_some, hpop, Option.map_some] at hresult
  have hbase : armReadRegister s 13 = armReadRegister pushPopSample 13 := hrestored.base
  rw [hbase] at hresult
  exact absurd hresult (by decide)

end ArmSimulator
