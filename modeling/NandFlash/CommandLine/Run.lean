import NandFlash.CommandLine.Arguments
import NandFlash.CommandLine.Files
import NandFlash.Image
import NandFlash.Sim.Device
import NandFlash.Text

/-!
# Carrying out a request

A request simulates a device, does one task with it and reports in lines of text. Files are a
value, so that the whole run is a function; the outer layer reads the files a request names and
writes the changed ones back.
-/

namespace NandFlash.CommandLine

/-! ## Complaints -/

/-- Why a request was not carried out. -/
inductive Complaint where
  | device (error : Error)
  | blocks (failure : Failure)
  | file (error : FileError)
  /-- There is an image file, but not to be read. -/
  | unreadableImage (path : String) (error : FileError)
  /-- The image file was of no use. -/
  | uselessImage (path : String) (error : StreamError)
  | inputTooLarge (path : String) (pageBytes : Nat)
  | countOverflow

/-- The complaint, and what caused it if that is told apart. -/
def Complaint.messages : Complaint → String × Option String
  | device error => (error.message, none)
  | blocks failure =>
    match failure.context? with
    | some context => (context, some failure.cause)
    | none => (failure.cause, none)
  | file error => (error.message, none)
  | unreadableImage path error => ("loading " ++ path, some error.message)
  | uselessImage path error => ("loading " ++ path, some error.message)
  | inputTooLarge path pageBytes =>
    (path ++ s!" is larger than a {pageBytes}-byte page", none)
  | countOverflow => ("block count overflows", none)

/-- The complaint as lines of text. A path in it may hold line breaks of its own. -/
def Complaint.lines (complaint : Complaint) : List String :=
  let (message, cause?) := complaint.messages
  let cause := cause?.elim "" fun cause => "\n\nCaused by:\n    " ++ cause
  ("Error: " ++ message ++ cause).splitOn "\n"

/-! ## Tasks -/

/-- What a task works on besides the device: files, and the lines written so far. -/
structure Desk where
  files : Files
  output : List String

/-- A step of a task. -/
abbrev Step := Attempt Complaint (Controller Sim.Device × Desk)

/-- Write a line of output. -/
def say (line : String) : Step Unit :=
  modify fun (device, desk) => (device, { desk with output := desk.output ++ [line] })

/-- A controller operation. -/
def ask {α : Type} (attempt : Attempt Error (Controller Sim.Device) α) : Step α :=
  Image.tryOnFirst (attempt.adapt .device)

/-- A block operation. -/
def askBlocks {α : Type} (attempt : Attempt Failure (Controller Sim.Device) α) : Step α :=
  Image.tryOnFirst (attempt.adapt .blocks)

/-- An action on the controller. -/
def act {α : Type} (action : Action (Controller Sim.Device) α) : Step α :=
  perform (Image.onFirst action)

/-- What probing has found out. -/
def getProfile : Step Profile := return (← get).1.profile

/-- Read a file. -/
def readFile (path : String) : Step Bytes := do
  match (← get).2.files.read path with
  | .ok content => return content
  | .error error => throw (.file error)

/-- Create or replace a file. -/
def writeFile (path : String) (content : Bytes) : Step Unit := do
  match (← get).2.files.write path content with
  | .ok files => modify fun (device, desk) => (device, { desk with files })
  | .error error => throw (.file error)

/-- Print the probed chip, its geometry and its spare layout. -/
def info : Step Unit := do
  let profile ← getProfile
  let chip := profile.chip
  let layout ← act Controller.blockLayout
  say ("chip: maker 0x" ++ hexPadded 2 chip.maker.toNat ++ " device 0x" ++
    hexPadded 2 chip.device.toNat ++ s!", {chip.chipSize >>> 20} MiB")
  say s!"blocks: {layout.blocks} x {layout.pagesPerBlock} pages"
  let g := profile.geometry
  say (s!"page: {g.pageBytes} + {g.spareSize} OOB, " ++
    s!"ECC {g.strength.name} ({g.parityBytes} parity bytes)")
  let spare := profile.layout
  say s!"OOB: free {spare.freeStart}..{spare.parityStart}, parity at {spare.parityStart}"
  for warning in profile.warnings do
    say ("warning: " ++ warning.message)

/-- Program one page from a file; short input is filled up with erased bytes. -/
def writePage (page : Nat) (input : String) : Step Unit := do
  let content ← readFile input
  let g := (← getProfile).geometry
  if content.size > g.pageBytes then
    throw (.inputTooLarge input g.pageBytes)
  let data := content ++ Bytes.erased (g.pageBytes - content.size)
  let (outcome, _) ← act (Controller.writePage page data (Bytes.erased g.spareSize))
  ExceptT.mk (pure (outcome.mapError .device))

/-- Read one page, report the repairs and how full its block is. -/
def readPage (page : Nat) (output : Option String) : Step Unit := do
  let g := (← getProfile).geometry
  let result ← act (Controller.readPage page (Bytes.filled g.pageBytes 0)
    (Bytes.filled g.spareSize 0))
  let reports ← ExceptT.mk (pure (result.outcome.mapError Complaint.device))
  for report in reports do
    say s!"field {report.field}: {report.errorCount} errors corrected"
  let layout ← act Controller.blockLayout
  let index ← quotient page layout.pagesPerBlock
  if let some block ← askBlocks (Controller.block? index) then
    let used ← askBlocks block.usedPages
    say s!"block holds {used} programmed pages"
  if let some path := output then
    writeFile path result.data

/-- Write an image across good blocks. -/
def flash (input : String) (firstBlock : Nat) : Step Unit := do
  let image ← readFile input
  let outcome ← act fun controller => do
    let (outcome, (controller, _)) ← (Image.write firstBlock).run (controller, .ofBytes image)
    return (outcome, controller)
  let summary ← ExceptT.mk (pure (outcome.mapError Complaint.blocks))
  let text (blocks : Array Nat) : String := listText blocks.toList
  say (s!"written: {text summary.written}, " ++
    s!"unchanged: {text summary.unchanged}, bad: {text summary.bad}")

/-- Dump a range of blocks into a file. The file holds what was read even if the dump fails. -/
def dump (output : String) (firstBlock : Nat) (count : Option Nat) : Step Unit := do
  let stop ← match count with
    | some count =>
      if firstBlock + count < UInt32.size then pure (firstBlock + count)
      else throw .countOverflow
    | none => do pure (← act Controller.blockLayout).blocks
  writeFile output #[]
  let size := (← act Controller.blockLayout).rangeBytes firstBlock stop
  let (outcome, written) ← act fun controller => do
    let (outcome, (controller, sink)) ←
      (Image.dump firstBlock stop).run (controller, Sink.unlimited size)
    return ((outcome, sink.written), controller)
  writeFile output written
  let checksum ← ExceptT.mk (pure (outcome.mapError Complaint.blocks))
  say ("CRC-32: " ++ hexPadded 8 checksum.toNat)

/-- Carry out a task, and close with what error correction has come to. -/
def execute (task : Task) : Step Unit := do
  match task with
  | .info => info
  | .eraseBlock block => ask (Controller.eraseBlock block)
  | .markBad block => ask (Controller.markBad block)
  | .scan => do
    let bad ← askBlocks Image.badBlocks
    say ("Bad blocks: " ++ listText bad)
  | .writePage page input => writePage page input
  | .readPage page output => readPage page output
  | .flash input firstBlock => flash input firstBlock
  | .dump output firstBlock count => dump output firstBlock count
  let stats := (← get).1.stats
  if stats.corrected ≠ 0 ∨ stats.failed ≠ 0 then
    say s!"ECC: {stats.corrected} bytes corrected, {stats.failed} pages failed"

/-! ## The whole run -/

/-- Load the array of an image file. A path that leads nowhere is no image. -/
def loadImage (files : Files) (device : Sim.Device) (path : String) :
    Except Crash (Except Complaint Sim.Device) := do
  match files.find path with
  | .error _ => return .ok device
  | .ok .directory => return .error (.unreadableImage path .isDirectory)
  | .ok (.file image) =>
    let (outcome, device, _) ← device.load (.ofBytes image)
    return (outcome.mapError (Complaint.uselessImage path)).map fun _ => device

/-- Power a device, with the array of the image file if there is one. -/
def openDevice (options : DeviceOptions) (files : Files) :
    Except Crash (Except Complaint (Controller Sim.Device)) := do
  let device := (← Sim.Device.new options.chip).setPowerOn options.powerOn
  let loaded ← match options.image with
    | none => pure (Except.ok device)
    | some path => loadImage files device path
  match loaded with
  | .error complaint => return .error complaint
  | .ok device =>
    let (setting, device) ← PowerOn.read device
    let config := { Config.standard with poll := ⟨options.pollLimit⟩ }
    return (← Controller.probe setting config device).mapError .device

/-- Save the array into the image file. -/
def saveImage (path : String) : Step Unit := do
  writeFile path #[]
  let (outcome, written) ← act fun controller => do
    let chip := controller.channel.bus.chip
    let size := (← chip.pages) * chip.rawLen
    let (outcome, sink) ← controller.channel.bus.save (Sink.unlimited size)
    return ((outcome, sink.written), controller)
  ExceptT.mk (pure (outcome.mapError fun error => Complaint.blocks (.stream error)))
  writeFile path written

/-- What a run leaves behind. -/
structure Outcome where
  exitCode : Nat
  output : List String
  complaint : List String
  files : Files

/-- Exit code after a complaint. -/
def exitComplaint : Nat := 1

/-- Exit code after a usage error. -/
def exitUsage : Nat := 2

/-- Exit code after a crash. -/
def exitCrash : Nat := 101

/-- Carry out a request. -/
def carryOut (request : Request) (files : Files) : Except Crash Outcome := do
  match ← openDevice request.device files with
  | .error complaint => return ⟨exitComplaint, [], complaint.lines, files⟩
  | .ok controller =>
    let steps : Step Unit := do
      execute request.task
      if request.device.writeBack then
        if let some path := request.device.image then
          saveImage path
    match ← steps.run (controller, ⟨files, []⟩) with
    | (.ok (), (_, desk)) => return ⟨0, desk.output, [], desk.files⟩
    | (.error complaint, (_, desk)) =>
      return ⟨exitComplaint, desk.output, complaint.lines, desk.files⟩

/-- Name and version of the program. -/
def versionText : String := "nfi-nand 0.1.0"

/-- What the program says about itself. -/
def helpText : List String :=
  ["Drive a simulated NAND flash device.",
    "",
    "Options: --chip NAME, --image FILE, --write-back, --otp HEX, --pins HEX, --poll-limit N",
    "",
    "Commands:",
    "  info",
    "  erase-block BLOCK",
    "  mark-bad BLOCK",
    "  scan",
    "  write-page PAGE INPUT",
    "  read-page PAGE [--output FILE]",
    "  flash INPUT [--start-block N]",
    "  dump OUTPUT [--first-block N] [--count N]"]

/-- Run a command line on some files. -/
def run (arguments : List String) (files : Files) : Outcome :=
  match parse arguments with
  | .error .help => ⟨0, helpText, [], files⟩
  | .error .version => ⟨0, [versionText], [], files⟩
  | .error .usage => ⟨exitUsage, [], ["Error: invalid arguments"] ++ helpText, files⟩
  | .ok request =>
    match carryOut request files with
    | .ok outcome => outcome
    | .error crash => ⟨exitCrash, [], crash.message?.toList, files⟩

end NandFlash.CommandLine
