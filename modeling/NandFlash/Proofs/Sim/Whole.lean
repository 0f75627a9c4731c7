import NandFlash.Proofs.Sim.Addressing
import NandFlash.Proofs.Sim.Reachable

/-!
# Whole pages

Every page of a reachable device has its full length, whatever has been done to the device, and so
has a page that is being collected for a program. A program therefore changes all of a page or
none of it.
-/

namespace NandFlash

/-- What has been filled exactly has the length that was asked for. -/
theorem Source.size_of_fillExact {source rest : Source} {want : Nat} {content : Bytes}
    (h : source.fillExact want = (.ok content, rest)) : content.size = want := by
  simp only [fillExact] at h
  split at h
  · split at h
    · cases h
      assumption
    · cases h
  · next hfailed => exact absurd h (hfailed _ _)

namespace Sim

/-! ## The flash -/

namespace Flash

variable {flash : Flash} {rawLen : Nat}

/-- Every page has `rawLen` bytes. -/
def IsWhole (flash : Flash) (rawLen : Nat) : Prop := ∀ page, (flash.content page).size = rawLen

theorem IsWhole.of_eq {other : Flash} (h : flash.IsWhole rawLen) (heq : other = flash) :
    other.IsWhole rawLen := heq ▸ h

/-- A program collects a whole page. -/
theorem IsWhole.program (h : flash.IsWhole rawLen) (row : Nat) {buffer : Bytes}
    (hbuffer : buffer.size = rawLen) (ecc : Bool) :
    (flash.program row buffer ecc).IsWhole rawLen := by
  intro page
  simp only [Flash.program, Function.update_apply]
  split
  · rw [FlashArray.size_merge, h row, hbuffer, Nat.min_self]
  · exact h page

/-- Erased pages are whole ones. -/
theorem IsWhole.erase (h : flash.IsWhole rawLen) (first count : Nat) :
    (flash.erase rawLen first count).IsWhole rawLen := by
  intro page
  simp only [Flash.erase]
  split
  · exact Bytes.size_erased rawLen
  · exact h page

/-- A flip does not change how long a page is. -/
theorem IsWhole.inject (h : flash.IsWhole rawLen) (row offset : Nat) (mask : UInt8) :
    (flash.inject row offset mask).IsWhole rawLen := by
  intro page
  simp only [Flash.inject, Function.update_apply]
  split
  · rw [Array.size_modify, h row]
  · exact h page

theorem IsWhole.wearOut (h : flash.IsWhole rawLen) (block : Nat) :
    (flash.wearOut block).IsWhole rawLen := h

end Flash

/-! ## The latches -/

namespace Latches

variable {latches next : Latches} {rawLen : Nat}

/-- A page that is being collected has `rawLen` bytes. -/
def IsWhole (latches : Latches) (rawLen : Nat) : Prop :=
  ∀ pending, latches.pending = some pending → pending.buffer.size = rawLen

theorem isWhole_of_none (h : latches.pending = none) : latches.IsWhole rawLen :=
  fun _ hpending => nomatch h.symm.trans hpending

/-- A page that is collected is filled up to its length. -/
theorem isWhole_collect (latches : Latches) (rawLen : Nat) :
    (latches.collect rawLen).IsWhole rawLen := by
  rintro pending ⟨⟩
  exact Bytes.size_erased rawLen

/-- A byte that is written goes into the page being collected, and does not make it longer. -/
theorem IsWhole.writeByte (h : latches.IsWhole rawLen) (byte : UInt8) :
    (latches.writeByte byte).IsWhole rawLen := by
  unfold Latches.writeByte
  split
  · next pending hpending =>
    rintro _ ⟨⟩
    rw [Array.size_setIfInBounds, h pending hpending]
  · exact h

/-- Reading bytes collects nothing. -/
theorem IsWhole.readByte (h : latches.IsWhole rawLen) (id : IdBytes) :
    (latches.readByte id).2.IsWhole rawLen := by
  unfold Latches.readByte
  split <;> exact h

/-- What comes in from a transfer does not make the page longer either. -/
theorem IsWhole.receive (h : latches.IsWhole rawLen) (data : Bytes) (spareStart : Nat)
    (spare : Bytes) (ecc : Bool) : (latches.receive data spareStart spare ecc).IsWhole rawLen := by
  unfold Latches.receive
  split
  · next pending hpending =>
    rintro _ ⟨⟩
    rw [Bytes.size_overlay, Bytes.size_overlay, h pending hpending]
  · exact h

/-- Pointing a program at another place keeps the bytes that have been collected. -/
theorem IsWhole.retarget (h : latches.IsWhole rawLen) (phase : AddressPhase) :
    (latches.retarget phase).IsWhole rawLen := by
  unfold Latches.retarget
  split
  · next pending hpending =>
    rintro _ ⟨⟩
    exact h pending hpending
  · next pending hpending =>
    rintro _ ⟨⟩
    exact h pending hpending
  · exact h

/-- An address phase moves the page that is being collected, and leaves its bytes alone. -/
theorem IsWhole.endAddress (h : latches.IsWhole rawLen) {rowCycles : Nat}
    (hend : latches.endAddress rowCycles = .ok next) : next.IsWhole rawLen := by
  obtain ⟨phase, -, column, row, rfl⟩ := Latches.exists_of_endAddress hend
  split
  · exact h
  · have hlatched : ({ latches with address := [], column, row } : Latches).IsWhole rawLen := h
    exact hlatched.retarget phase

end Latches

/-! ## The device -/

namespace Device

variable {device next : Device}

/-- Whole pages, in the array and on their way into it. -/
structure IsWhole (device : Device) : Prop where
  flash : device.flash.IsWhole device.chip.rawLen
  latches : device.latches.IsWhole device.chip.rawLen

/-- A program command keeps the device whole. -/
theorem IsWhole.program (h : device.IsWhole) (hrun : device.program = .ok next) :
    next.IsWhole := by
  unfold Device.program at hrun
  cases hpending : device.latches.pending with
  | none =>
    simp only [hpending] at hrun
    cases hrun
    exact ⟨h.flash, h.latches⟩
  | some pending =>
    simp only [hpending] at hrun
    obtain ⟨block, -, hrun⟩ := exists_of_bind_eq_ok hrun
    obtain ⟨pages, -, hrun⟩ := exists_of_bind_eq_ok hrun
    have hnone : Latches.IsWhole { device.latches with pending := none } device.chip.rawLen :=
      Latches.isWhole_of_none rfl
    split at hrun
    · cases hrun
      exact ⟨h.flash, hnone⟩
    · cases hrun
      exact ⟨(h.flash.program _ (h.latches pending hpending) _).of_eq
        (FlashArray.flash_program _ _ _ _ _), hnone⟩

/-- An erase keeps the device whole. -/
theorem IsWhole.erase (h : device.IsWhole) (hrun : device.erase = .ok next) : next.IsWhole := by
  unfold Device.erase at hrun
  obtain ⟨block, -, hrun⟩ := exists_of_bind_eq_ok hrun
  split at hrun
  · cases hrun
    exact ⟨h.flash, h.latches⟩
  · obtain ⟨first, -, hrun⟩ := exists_of_bind_eq_ok hrun
    obtain ⟨_, -, hrun⟩ := exists_of_bind_eq_ok hrun
    cases hrun
    exact ⟨(h.flash.erase _ _).of_eq (FlashArray.flash_erase _ _ _ _), h.latches⟩

/-- Every command keeps the device whole. -/
theorem IsWhole.execute (h : device.IsWhole) {command : Command}
    (hrun : device.execute command = .ok next) : next.IsWhole := by
  cases command with
  | read | readConfirm | columnRead | columnReadConfirm | columnWrite | eraseSetup | readId
  | status =>
    cases hrun
    exact ⟨h.flash, h.latches⟩
  | programSetup =>
    cases hrun
    exact ⟨h.flash, Latches.isWhole_collect _ _⟩
  | reset =>
    cases hrun
    exact ⟨h.flash, Latches.isWhole_of_none rfl⟩
  | readSpare => cases hrun
  | program | programCached => exact h.program hrun
  | erase => exact h.erase hrun

/-- An opcode is that of a command, or it is ignored. -/
theorem IsWhole.writeCommand (h : device.IsWhole) {opcode : UInt8}
    (hrun : device.writeCommand opcode = .ok next) : next.IsWhole := by
  simp only [Device.writeCommand] at hrun
  have hlogged : ∀ log, IsWhole { device with log } := fun _ => ⟨h.flash, h.latches⟩
  split at hrun
  · exact (hlogged _).execute hrun
  · cases hrun
    exact hlogged _

/-- An address cycle ends an address phase at the most. -/
theorem IsWhole.writeAddress (h : device.IsWhole) {value : UInt32}
    (hrun : device.writeAddress value = .ok next) : next.IsWhole := by
  simp only [Device.writeAddress] at hrun
  split at hrun
  · obtain ⟨rowCycles, -, hrun⟩ := exists_of_bind_eq_ok hrun
    obtain ⟨latches, hend, hrun⟩ := exists_of_bind_eq_ok hrun
    cases hrun
    have hpushed : (device.latches.pushAddress value.toUInt8).IsWhole device.chip.rawLen :=
      h.latches
    exact ⟨h.flash, hpushed.endAddress hend⟩
  · cases hrun
    exact ⟨h.flash, h.latches⟩

/-- Reads keep the device whole. -/
theorem AfterRead.isWhole (hafter : device.AfterRead next) (h : device.IsWhole) :
    next.IsWhole := by
  cases hafter with
  | same => exact h
  | shown => exact ⟨h.flash, h.latches.readByte device.chip.id⟩

/-- Writes keep the device whole. -/
theorem AfterWrite.isWhole {offset : Nat} (hafter : device.AfterWrite offset next)
    (h : device.IsWhole) : next.IsWhole := by
  cases hafter with
  | dmaControl | control | status | window | plain => exact ⟨h.flash, h.latches⟩
  | command hwritten => exact h.writeCommand hwritten
  | address hwritten => exact h.writeAddress hwritten
  | data byte => exact ⟨h.flash, h.latches.writeByte _⟩

/-- So does offering a buffer to be programmed. -/
theorem AfterDmaToDevice.isWhole {data : Bytes} (hafter : device.AfterDmaToDevice data next)
    (h : device.IsWhole) : next.IsWhole := by
  cases hafter with
  | same => exact h
  | dropped => exact ⟨h.flash, h.latches⟩
  | received => exact ⟨h.flash, h.latches.receive _ _ _ _⟩

/-- So does offering a buffer to be filled. -/
theorem AfterDmaFromDevice.isWhole {data : Bytes} (hafter : device.AfterDmaFromDevice data next)
    (h : device.IsWhole) : next.IsWhole := by
  cases hafter with
  | same => exact h
  | dropped | delivered => exact ⟨h.flash, h.latches⟩

/-- Marking a block at the factory changes a byte of its first page. -/
theorem IsWhole.markFactoryBad (h : device.IsWhole) {block : Nat}
    (hrun : device.markFactoryBad block = .ok next) : next.IsWhole := by
  obtain ⟨page, -, hrun⟩ := exists_of_bind_eq_ok hrun
  cases hrun
  exact ⟨(h.flash.inject _ _ _).of_eq (FlashArray.flash_inject _ _ _ _ _), h.latches⟩

/-- A page is loaded only if the source has all of it. -/
theorem isWhole_loadPages {rawLen count page : Nat} {array : FlashArray} {source : Source}
    (h : (array.flash rawLen).IsWhole rawLen) :
    ((loadPages rawLen count page array source).2.1.flash rawLen).IsWhole rawLen := by
  induction count generalizing page array source with
  | zero => exact h
  | succ count ih =>
    unfold loadPages
    split
    · exact h
    · next content rest hfill =>
      refine ih fun row => ?_
      split
      · exact h row
      · -- Only a page that has been filled to its end is stored.
        have hsize : content.size = rawLen := Source.size_of_fillExact hfill
        simp only [FlashArray.flash, FlashArray.content, Std.ExtTreeMap.getElem?_insert]
        split
        · exact hsize
        · exact h row

/-- Loading an image stores whole pages only. -/
theorem IsWhole.load (h : device.IsWhole) {source rest : Source} {outcome : Except StreamError Unit}
    (hrun : device.load source = .ok (outcome, next, rest)) : next.IsWhole := by
  obtain ⟨pages, -, hrun⟩ := exists_of_bind_eq_ok hrun
  cases hrun
  refine ⟨isWhole_loadPages fun page => ?_, h.latches⟩
  simp [FlashArray.flash, FlashArray.content]

/-- Every step of a device keeps it whole. -/
theorem Step.isWhole (hstep : device.Step next) (h : device.IsWhole) : next.IsWhole := by
  cases hstep with
  | read32 hrun => exact (AfterRead.of_read32 hrun).isWhole h
  | write32 hrun => exact (AfterWrite.of_write32 hrun).isWhole h
  | read8 hrun => exact (AfterRead.of_read8 hrun).isWhole h
  | write8 hrun => exact (AfterWrite.of_write8 hrun).isWhole h
  | dmaToDevice hrun => exact (AfterDmaToDevice.of_run hrun).isWhole h
  | dmaFromDevice hrun => exact (AfterDmaFromDevice.of_run hrun).isWhole h
  | setPowerOn | setHang | clearLog | present | setFieldStatus | setWindow =>
    exact ⟨h.flash, h.latches⟩
  | wearOut block =>
    exact ⟨(h.flash.wearOut block).of_eq (FlashArray.flash_wearOut _ _ _), h.latches⟩
  | inject page offset mask =>
    exact ⟨(h.flash.inject page offset mask).of_eq (FlashArray.flash_inject _ _ _ _ _), h.latches⟩
  | markFactoryBad hrun => exact h.markFactoryBad hrun
  | load hrun => exact h.load hrun

/-- Every page of a reachable device is whole, by induction from one step. -/
theorem Reachable.isWhole (h : device.Reachable) : device.IsWhole := by
  induction h with
  | @new chip device h =>
    obtain ⟨rawLen, hraw, hrun⟩ := exists_of_bind_eq_ok h
    cases hrun
    refine ⟨fun page => ?_, Latches.isWhole_of_none rfl⟩
    simp [Device.flash, FlashArray.flash]
  | step _ hstep ih => exact hstep.isWhole ih

end Device

end Sim

end NandFlash
