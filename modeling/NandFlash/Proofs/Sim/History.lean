import NandFlash.Proofs.Sim.Cycles

/-!
# Histories

A device that can be reached has a history: everything that has been done to it since it was
powered, with the device before and after each deed. Two devices in the same state may have come to
it in different ways; what is said of a device by its history holds of each of its histories.
-/

namespace NandFlash.Sim

/-! ## Incidents and episodes -/

/-- What can happen to a device: an access, or a change from outside. -/
inductive Incident where
  | onBus (access : Access)
  | inject (page offset : Nat) (mask : UInt8)
  | wearOut (block : Nat)
  | markFactoryBad (block : Nat)
  | setHang (hang : Bool)
  | load (source : Source)
  | setPowerOn (words : PowerOnWords)
  | clearLog
  | present (field : Nat) (status : FieldStatus) (errors : List (UInt16 × UInt8))
  | setFieldStatus (field : Nat) (status : FieldStatus)
  | setWindow (window : Window)

/-- The device after an incident. -/
def Incident.run (device : Device) : Incident → Except Crash Device
  | .onBus access => access.run device
  | .inject page offset mask => .ok (device.inject page offset mask)
  | .wearOut block => .ok (device.wearOut block)
  | .markFactoryBad block => device.markFactoryBad block
  | .setHang hang => .ok (device.setHang hang)
  | .load source => (device.load source).map (·.2.1)
  | .setPowerOn words => .ok (device.setPowerOn words)
  | .clearLog => .ok device.clearLog
  | .present field status errors =>
    .ok (device.modifyEngine (·.present field status errors))
  | .setFieldStatus field status => .ok (device.modifyEngine (·.setFieldStatus field status))
  | .setWindow window => .ok (device.modifyEngine fun engine => { engine with window })

theorem Incident.chip_eq {device next : Device} {incident : Incident}
    (h : incident.run device = .ok next) : next.chip = device.chip := by
  cases incident with
  | onBus access => exact (Device.AfterAccess.of_run h).chip_eq
  | load source =>
    obtain ⟨⟨outcome, last, rest⟩, hload, rfl⟩ := exists_of_map_eq_ok h
    obtain ⟨pages, -, hload⟩ := exists_of_bind_eq_ok hload
    cases hload
    rfl
  | markFactoryBad block =>
    obtain ⟨page, -, h⟩ := exists_of_bind_eq_ok h
    cases h
    rfl
  | inject | wearOut | setHang | setPowerOn | clearLog | present | setFieldStatus | setWindow =>
    cases h
    rfl

theorem Incident.latches_eq {device next : Device} {incident : Incident}
    (h : incident.run device = .ok next) (hother : ∀ access, incident ≠ .onBus access) :
    next.latches = device.latches := by
  cases incident with
  | onBus access => exact absurd rfl (hother access)
  | load source =>
    obtain ⟨⟨outcome, last, rest⟩, hload, rfl⟩ := exists_of_map_eq_ok h
    obtain ⟨pages, -, hload⟩ := exists_of_bind_eq_ok hload
    cases hload
    rfl
  | markFactoryBad block =>
    obtain ⟨page, -, h⟩ := exists_of_bind_eq_ok h
    cases h
    rfl
  | inject | wearOut | setHang | setPowerOn | clearLog | present | setFieldStatus | setWindow =>
    cases h
    rfl

/-- Something that has happened to a device, with the device before and after it. -/
structure Episode where
  device : Device
  incident : Incident
  next : Device

namespace Episode

variable (episode : Episode)

/-- It was an access over the bus, and no change from outside. -/
def IsAccess : Prop := ∃ access, episode.incident = .onBus access

/-- The command that the chip was given, if it was an access that gave one. -/
def command? : Option Command :=
  match episode.incident with
  | .onBus access => access.command? episode.device
  | _ => none

/-- Was an address phase ended? -/
def endsAddress : Bool :=
  match episode.incident with
  | .onBus access => access.endsAddress episode.device
  | _ => false

/-- Was the block of a page erased? An erase of a block that does not exist or that is worn does
nothing. -/
def erases (page : Nat) : Bool :=
  let block := episode.device.latches.row / episode.device.chip.pagesPerBlock
  episode.command? = some .erase ∧ block < episode.device.chip.blocks ∧
    episode.device.array.failing.contains block = false ∧
    page / episode.device.chip.pagesPerBlock = block

end Episode

/-- What happens to a device from `start` on, the latest episode first. -/
inductive Run (start : Device) : List Episode → Device → Prop where
  | nil : Run start [] start
  | next {past device next} (h : Run start past device) (incident : Incident)
    (hrun : incident.run device = .ok next) : Run start (⟨device, incident, next⟩ :: past) next

theorem Run.chip_eq {start device : Device} {run : List Episode} (h : Run start run device) :
    device.chip = start.chip := by
  induction h with
  | nil => rfl
  | next _ incident hrun ih => exact (Incident.chip_eq hrun).trans ih

/-- Accesses made one after the other go on with a run, by induction on the accesses. -/
theorem Run.exists_of_foldlM {run : List Episode} {start device last : Device}
    (hrun : Run start run device) (hbus : ∀ episode ∈ run, episode.IsAccess)
    {accesses : List Access} (h : accesses.foldlM Access.run device = .ok last) :
    ∃ longer, Run start longer last ∧ ∀ episode ∈ longer, episode.IsAccess := by
  induction accesses generalizing run device with
  | nil =>
    cases h
    exact ⟨run, hrun, hbus⟩
  | cons access accesses ih =>
    obtain ⟨next, hnext, h⟩ := exists_of_bind_eq_ok h
    exact ih (hrun.next (.onBus access) hnext) (List.forall_mem_cons.2 ⟨⟨access, rfl⟩, hbus⟩) h

/-! ## Histories -/

/-- Everything that has happened to a device since it was powered, the latest episode first. -/
inductive History : List Episode → Device → Prop where
  | new {chip device} (h : Device.new chip = .ok device) : History [] device
  | next {past device next} (h : History past device) (incident : Incident)
    (hrun : incident.run device = .ok next) : History (⟨device, incident, next⟩ :: past) next

theorem History.append {past run : List Episode} {device last : Device} (h : History past device)
    (hrun : Run device run last) : History (run ++ past) last := by
  induction hrun with
  | nil => exact h
  | next _ incident hnext ih => exact ih.next incident hnext

/-- Bus accesses are steps. -/
theorem Access.reachable_of_run {device next : Device} {access : Access} (h : device.Reachable)
    (haccess : access.run device = .ok next) : next.Reachable := by
  cases access with
  | read32 offset =>
    obtain ⟨⟨value, last⟩, hrun, rfl⟩ := exists_of_map_eq_ok haccess
    exact h.step (.read32 hrun)
  | write32 offset value =>
    obtain ⟨⟨_, last⟩, hrun, rfl⟩ := exists_of_map_eq_ok haccess
    exact h.step (.write32 hrun)
  | read8 offset =>
    obtain ⟨⟨value, last⟩, hrun, rfl⟩ := exists_of_map_eq_ok haccess
    exact h.step (.read8 hrun)
  | write8 offset value =>
    obtain ⟨⟨_, last⟩, hrun, rfl⟩ := exists_of_map_eq_ok haccess
    exact h.step (.write8 hrun)
  | modify32 offset change =>
    obtain ⟨⟨_, last⟩, hrun, rfl⟩ := exists_of_map_eq_ok haccess
    -- A modification is a read and a write.
    obtain ⟨value, mid, hread, hwrite⟩ := exists_of_run_bind hrun
    exact (h.step (.read32 hread)).step (.write32 hwrite)
  | dmaToDevice data =>
    obtain ⟨⟨_, last⟩, hrun, rfl⟩ := exists_of_map_eq_ok haccess
    exact h.step (.dmaToDevice hrun)
  | dmaFromDevice data =>
    obtain ⟨⟨filled, last⟩, hrun, rfl⟩ := exists_of_map_eq_ok haccess
    exact h.step (.dmaFromDevice hrun)

theorem History.reachable {past : List Episode} {device : Device} (h : History past device) :
    device.Reachable := by
  induction h with
  | new h => exact .new h
  | @next past device next h incident hrun ih =>
    cases incident with
    | onBus access => exact Access.reachable_of_run ih hrun
    | load source =>
      obtain ⟨⟨outcome, last, rest⟩, hload, rfl⟩ := exists_of_map_eq_ok hrun
      exact ih.step (.load hload)
    | markFactoryBad block => exact ih.step (.markFactoryBad hrun)
    | inject page offset mask =>
      cases hrun
      exact ih.step (.inject page offset mask)
    | wearOut block =>
      cases hrun
      exact ih.step (.wearOut block)
    | setHang hang =>
      cases hrun
      exact ih.step (.setHang hang)
    | setPowerOn words =>
      cases hrun
      exact ih.step (.setPowerOn words)
    | clearLog =>
      cases hrun
      exact ih.step .clearLog
    | present field status errors =>
      cases hrun
      exact ih.step (.present field status errors)
    | setFieldStatus field status =>
      cases hrun
      exact ih.step (.setFieldStatus field status)
    | setWindow window =>
      cases hrun
      exact ih.step (.setWindow window)

/-- Whatever can become of a device has a history. -/
theorem Device.Reachable.exists_history {device : Device} (h : device.Reachable) :
    ∃ past, History past device := by
  induction h with
  | new h => exact ⟨[], .new h⟩
  | @step device next h hstep ih =>
    obtain ⟨past, hpast⟩ := ih
    cases hstep with
    | @read32 offset value next hrun =>
      exact ⟨_, hpast.next (.onBus (.read32 offset)) (by
        simp only [Incident.run, Access.run, hrun]; rfl)⟩
    | @write32 offset value next hrun =>
      exact ⟨_, hpast.next (.onBus (.write32 offset value)) (by
        simp only [Incident.run, Access.run, hrun]; rfl)⟩
    | @read8 offset value next hrun =>
      exact ⟨_, hpast.next (.onBus (.read8 offset)) (by
        simp only [Incident.run, Access.run, hrun]; rfl)⟩
    | @write8 offset value next hrun =>
      exact ⟨_, hpast.next (.onBus (.write8 offset value)) (by
        simp only [Incident.run, Access.run, hrun]; rfl)⟩
    | @dmaToDevice data next hrun =>
      exact ⟨_, hpast.next (.onBus (.dmaToDevice data)) (by
        simp only [Incident.run, Access.run, hrun]; rfl)⟩
    | @dmaFromDevice data filled next hrun =>
      exact ⟨_, hpast.next (.onBus (.dmaFromDevice data)) (by
        simp only [Incident.run, Access.run, hrun]; rfl)⟩
    | setPowerOn words => exact ⟨_, hpast.next (.setPowerOn words) rfl⟩
    | inject page offset mask => exact ⟨_, hpast.next (.inject page offset mask) rfl⟩
    | wearOut block => exact ⟨_, hpast.next (.wearOut block) rfl⟩
    | @markFactoryBad block next hmark =>
      exact ⟨_, hpast.next (.markFactoryBad block) hmark⟩
    | setHang hang => exact ⟨_, hpast.next (.setHang hang) rfl⟩
    | clearLog => exact ⟨_, hpast.next .clearLog rfl⟩
    | @load source outcome next rest hload =>
      exact ⟨_, hpast.next (.load source) (by simp only [Incident.run, hload]; rfl)⟩
    | present field status errors =>
      exact ⟨_, hpast.next (.present field status errors) rfl⟩
    | setFieldStatus field status =>
      exact ⟨_, hpast.next (.setFieldStatus field status) rfl⟩
    | setWindow window => exact ⟨_, hpast.next (.setWindow window) rfl⟩

end NandFlash.Sim
