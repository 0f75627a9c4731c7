import NandFlash.CommandLine.Run

/-!
# The program

Surveys the files on the paths a command line names, runs it on them, and writes the changed ones
back.
-/

open NandFlash NandFlash.CommandLine

namespace NandFlash.CommandLine.Request

/-- Paths a request reads. -/
def inputs (request : Request) : List String :=
  request.device.image.toList ++
    match request.task with
    | .writePage _ input | .flash input _ => [input]
    | .info | .eraseBlock _ | .markBad _ | .scan | .readPage .. | .dump .. => []

/-- Paths a request may write. -/
def outputs (request : Request) : List String :=
  request.device.image.toList ++
    match request.task with
    | .readPage _ output => output.toList
    | .dump output _ _ => [output]
    | .info | .eraseBlock _ | .markBad _ | .scan | .writePage .. | .flash .. => []

end NandFlash.CommandLine.Request

/-- The absolute path of a place. -/
def spell (trail : Trail) : String := "/" ++ "/".intercalate trail

/-- Add what stands at a place, if anything. Content is read where a run may need it: a terminal,
say, is only noted. -/
def look (isInput : Bool) (files : Files) (trail : Trail) : IO Files := do
  try
    let place ← IO.FS.realPath (spell trail)
    if ← place.isDir then
      return { files with directories := trail :: files.directories }
    let isPlain := (← place.metadata).type == .file
    let content ← if isPlain || isInput then IO.FS.readBinFile place else pure ByteArray.empty
    return files.insert trail content.data
  catch _ => return files

/-- Add everything that a path passes. -/
def survey (isInput : Bool) (files : Files) (text : String) : IO Files :=
  let path := Path.parse text
  ((files.origin path).along path.names).foldlM (look isInput) files

/-- Everything on the paths of a request. -/
def gather (request : CommandLine.Request) (home : Files) : IO Files := do
  let files ← request.outputs.foldlM (survey false) home
  request.inputs.foldlM (survey true) files

/-- Run a command line. -/
def main (arguments : List String) : IO UInt32 := do
  let here ← IO.FS.realPath "."
  let home : Files := ⟨(Path.parse here.toString).names, [], []⟩
  let files ← match parse arguments with
    | .ok request => gather request home
    | .error _ => pure home
  let outcome := run arguments files
  for (trail, content) in outcome.files.entries do
    if files.entries.lookup trail != some content then
      IO.FS.writeBinFile (spell trail) ⟨content⟩
  for line in outcome.output do
    IO.println line
  for line in outcome.complaint do
    IO.eprintln line
  return UInt32.ofNat outcome.exitCode
