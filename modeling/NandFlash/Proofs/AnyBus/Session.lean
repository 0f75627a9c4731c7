import NandFlash.Proofs.AnyBus.Operations

/-!
# Sessions on any bus

Probing and then any sequence of requests, on a device that answers whatever it likes.
-/

namespace NandFlash

variable {β : Type} [Bus β] {clock : β → Nat}

namespace Controller

/-- Accesses of one request, or of probing, when every wait is given up after `limit` turns. -/
def accessBudget (limit : Nat) : Nat := 2600 * (limit + 1)

/-- The buffers of a reply are as long as those of its request. -/
def KeepsLengths (request : Request) (reply : Reply) : Prop :=
  reply.data.size = request.data.size ∧ reply.spare.size = request.spare.size

section

variable (h : Bus.Answers clock) {limit : Nat} {profile : Profile}
  (hpoll : profile.poll.Reaches limit) (hsettled : profile.Settled)

include h hpoll hsettled

theorem keeps_dispatch (request : Request) :
    Keeps (ticks clock) (accessBudget limit) (Ready profile) (dispatch (β := β) request)
      fun result => result.2.1.size = request.data.size ∧
        result.2.2.size = request.spare.size := by
  have hwindow : windowLen = 472 := rfl
  unfold accessBudget
  -- Each operation comes with a bound of its own, and the budget covers the largest of them.
  cases request with
  | readPage page data spare =>
    exact (Keeps.bind (n := 0) (keeps_readPage h hpoll hsettled page data spare)
      fun result hresult => .pure hresult).le (by omega)
  | writePage page data spare =>
    exact (Keeps.bind (n := 0) (keeps_writePage h hpoll hsettled page data spare)
      fun result hresult => .pure ⟨rfl, hresult⟩).le (by omega)
  | readSpare page spare =>
    refine (Keeps.bind (n := 0) (ends_readSpare h hpoll hsettled page spare.size)
      fun result hresult => ?_).le (by omega)
    cases result with
    | ok filled => exact .pure ⟨rfl, hresult.2⟩
    | error e => exact .pure ⟨rfl, rfl⟩
  | eraseBlock block =>
    exact (Keeps.bind (n := 0) (ends_eraseBlock h hpoll hsettled block)
      fun _ _ => .pure ⟨rfl, rfl⟩).le (by omega)
  | isBad block =>
    exact (Keeps.bind (n := 0) (ends_isBad h hpoll hsettled block)
      fun _ _ => .pure ⟨rfl, rfl⟩).le (by omega)
  | markBad block =>
    exact (Keeps.bind (n := 0) (ends_markBad h hpoll hsettled block)
      fun _ _ => .pure ⟨rfl, rfl⟩).le (by omega)
  | readId =>
    exact (Keeps.bind (n := 0) (ends_readId h hpoll) fun _ _ => .pure ⟨rfl, rfl⟩).le (by omega)
  | reset =>
    exact (Keeps.bind (n := 0) (ends_reset h hpoll) fun _ _ => .pure ⟨rfl, rfl⟩).le (by omega)

/-- One request: a reply with buffers as long as before, and a controller ready for the next. -/
theorem keeps_serve (request : Request) :
    Keeps (ticks clock) (accessBudget limit) (Ready profile) (serve (β := β) request)
      (KeepsLengths request) :=
  (keeps_dispatch h hpoll hsettled request).bind (n := 0) fun _ hresult =>
    Keeps.get_bind fun _ _ => .pure hresult

/-- A sequence of requests, by induction from one. -/
theorem keeps_serveAll (requests : List Request) :
    Keeps (ticks clock) (accessBudget limit * requests.length) (Ready profile)
      (requests.mapM (serve (β := β))) (List.Forall₂ KeepsLengths requests) := by
  induction requests with
  | nil => exact .pure .nil
  | cons request requests ih =>
    rw [List.mapM_cons, List.length_cons, Nat.mul_succ, Nat.add_comm]
    exact (keeps_serve h hpoll hsettled request).bind fun reply hreply =>
      ih.bind (n := 0) fun replies hreplies => .pure (.cons hreply hreplies)

end

end Controller

/-! ## An erratic device -/

/-- A device whose answers depend on nothing but the turn and the register. -/
structure Erratic where
  /-- Accesses so far. -/
  turn : Nat
  answer : Nat → Nat → UInt32

namespace Erratic

/-- One access. -/
def access (offset : Nat) : Action Erratic UInt32 := fun device =>
  .ok (device.answer device.turn offset, { device with turn := device.turn + 1 })

instance : Bus Erratic where
  read32 := access
  write32 offset _ := discard (access offset)
  read8 offset := return (← access offset).toUInt8
  write8 offset _ := discard (access offset)
  dmaAddress _ := access Register.dmaAddress
  dmaToDevice _ := discard (access Register.data)
  dmaFromDevice data := return data.map (· ^^^ (← access Register.data).toUInt8)
  delay _ := discard (access Register.status)

theorem answers : Bus.Answers turn where
  read32 _ := fun _ _ => ⟨_, _, rfl, Nat.le_refl _, trivial, trivial⟩
  write32 _ _ := fun _ _ => ⟨_, _, rfl, Nat.le_refl _, trivial, trivial⟩
  read8 _ := fun _ _ => ⟨_, _, rfl, Nat.le_refl _, trivial, trivial⟩
  write8 _ _ := fun _ _ => ⟨_, _, rfl, Nat.le_refl _, trivial, trivial⟩
  dmaAddress _ := fun _ _ => ⟨_, _, rfl, Nat.le_refl _, trivial, trivial⟩
  dmaToDevice _ := fun _ _ => ⟨_, _, rfl, Nat.le_refl _, trivial, trivial⟩
  dmaFromDevice _ := fun _ _ => ⟨_, _, rfl, Nat.le_refl _, trivial, Array.size_map⟩
  delay _ := fun _ _ => ⟨_, _, rfl, Nat.le_refl _, trivial, trivial⟩

/-- Poses as a chip of 128 MiB until it has been probed, and answers noise from then on. -/
def impostor : Erratic where
  turn := 0
  answer turn offset :=
    if turn < 100 then
      if offset = Register.data then 0xA1 else if offset = Register.status then Bits.ready else 0
    else UInt32.ofNat (0x9E3779B1 * turn + offset)

end Erratic

namespace Controller

/-! ## No device is too hostile -/

/-- No device, whatever it answers, makes the driver crash or hang. Probing returns, and on a
controller that came up every sequence of requests does, within a fixed number of accesses for
each. Staging area, spare buffers and parity fit each other, so that no slice is out of range; the
caller's buffers keep their lengths; and the transfer engine is idle after every request. -/
theorem withstands_any_device (answers : Bus.Answers clock) {limit : Nat}
    (hlimit : limit < UInt32.size - 1) (timing : UInt32) (setting : PowerOn) (bus : β) :
    ∃ outcome probed,
      (bringUp setting ⟨timing, ⟨some limit⟩⟩).run.run bus = .ok (outcome, probed) ∧
      probe setting ⟨timing, ⟨some limit⟩⟩ bus = .ok (outcome.map fun profile =>
        start profile probed) ∧
      clock probed ≤ clock bus + accessBudget limit ∧
      ∀ profile, outcome = .ok profile →
        profile.layout.parityStart ≤ profile.geometry.spareSize ∧
        profile.geometry.spareSize ≤ windowLen ∧
        ∀ requests : List Request, ∃ replies controller,
          (requests.mapM serve).run (start profile probed) = .ok (replies, controller) ∧
          clock controller.channel.bus ≤ clock probed + accessBudget limit * requests.length ∧
          List.Forall₂ KeepsLengths requests replies ∧
          controller.staging.bytes.size = profile.geometry.spareSize ∧
          controller.channel.state = .idle := by
  have hreaches : (⟨some limit⟩ : Poll).Reaches limit := ⟨rfl, hlimit⟩
  -- Probing ends in any case; what it leaves behind when it goes well is all that serving needs.
  obtain ⟨outcome, probed, hrun, hclock, -, hend⟩ :=
    ends_bringUp answers setting ⟨timing, ⟨some limit⟩⟩ hreaches bus trivial
  refine ⟨outcome, probed, hrun, probe_of_run_bringUp hrun, ?_, fun profile hprofile => ?_⟩
  · unfold accessBudget
    omega
  · subst hprofile
    obtain ⟨hsettled, hpoll⟩ := hend
    have hpoll : profile.poll.Reaches limit := by rwa [hpoll]
    refine ⟨hsettled.fits.parityStart_le, hsettled.fits.spareSize_le, fun requests => ?_⟩
    obtain ⟨replies, controller, hrun, hclock, hready, hreplies⟩ :=
      keeps_serveAll answers hpoll hsettled requests (start profile probed)
        (ready_start profile probed)
    exact ⟨replies, controller, hrun, hclock, hreplies, hready.size_eq, hready.isIdle⟩

/-- The impostor comes up, and nothing that it answers afterwards does any harm. -/
theorem withstands_impostor :
    Bus.Answers Erratic.turn ∧ ∃ profile probed,
      (bringUp ⟨0xC000⟩ ⟨Bits.defaultTiming, ⟨some 5⟩⟩).run.run Erratic.impostor =
        .ok (.ok profile, probed) ∧
      ∀ requests : List Request, ∃ replies controller,
        (requests.mapM serve).run (start profile probed) = .ok (replies, controller) ∧
        controller.channel.bus.turn ≤ probed.turn + accessBudget 5 * requests.length ∧
        List.Forall₂ KeepsLengths requests replies ∧
        controller.channel.state = .idle := by
  obtain ⟨outcome, probed, hrun, -, -, hserves⟩ := withstands_any_device Erratic.answers
    (show 5 < UInt32.size - 1 by decide) Bits.defaultTiming ⟨0xC000⟩ Erratic.impostor
  have hup : ((bringUp ⟨0xC000⟩ ⟨Bits.defaultTiming, ⟨some 5⟩⟩).run.run Erratic.impostor).map
      (fun ending => ending.1.isOk) = .ok true := by decide +kernel
  rw [hrun] at hup
  cases outcome with
  | error e => cases hup
  | ok profile =>
    refine ⟨Erratic.answers, profile, probed, hrun, fun requests => ?_⟩
    obtain ⟨-, -, hserves⟩ := hserves profile rfl
    obtain ⟨replies, controller, hserved, hclock, hlengths, -, hidle⟩ := hserves requests
    exact ⟨replies, controller, hserved, hclock, hlengths, hidle⟩

end Controller

end NandFlash
