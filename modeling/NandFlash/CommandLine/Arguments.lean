import NandFlash.Sim.Chip
import NandFlash.Geometry.PowerOn

/-!
# Command-line arguments

Options of the simulated device come before the subcommand, options of the subcommand behind it.
An option's value follows it or is attached with `=`; an argument that begins with a dash is
never taken for a value, except a lone dash. Behind `--` everything is positional.
-/

namespace NandFlash.CommandLine

/-- Why no request comes of the arguments. -/
inductive Stop where
  /-- The help text was asked for. -/
  | help
  /-- The version was asked for. -/
  | version
  /-- The arguments make no sense. -/
  | usage
deriving DecidableEq, Repr

/-- The device to simulate. -/
structure DeviceOptions where
  chip : Sim.Chip
  image : Option String
  writeBack : Bool
  powerOn : PowerOnWords
  pollLimit : Option Nat

/-- What to do with the device. -/
inductive Task where
  | info
  | eraseBlock (block : Nat)
  | markBad (block : Nat)
  | scan
  | writePage (page : Nat) (input : String)
  | readPage (page : Nat) (output : Option String)
  | flash (input : String) (firstBlock : Nat)
  | dump (output : String) (firstBlock : Nat) (count : Option Nat)
deriving DecidableEq, Repr

/-- A complete request. -/
structure Request where
  device : DeviceOptions
  task : Task

/-! ## Values -/

/-- The number spelled by digits of a base; there has to be at least one. -/
def digits? (base : Nat) (digit? : Char → Option Nat) : List Char → Option Nat
  | [] => none
  | digits => digits.foldlM (fun n c => (digit? c).map (base * n + ·)) 0

/-- A decimal digit. -/
def decimalDigit? (c : Char) : Option Nat :=
  if '0' ≤ c ∧ c ≤ '9' then some (c.toNat - '0'.toNat) else none

/-- A hexadecimal digit of either case. -/
def hexDigit? (c : Char) : Option Nat :=
  if '0' ≤ c ∧ c ≤ '9' then some (c.toNat - '0'.toNat)
  else if 'a' ≤ c ∧ c ≤ 'f' then some (c.toNat - 'a'.toNat + 10)
  else if 'A' ≤ c ∧ c ≤ 'F' then some (c.toNat - 'A'.toNat + 10)
  else none

/-- A number that fits 32 bits. -/
def fit32? (n : Nat) : Option Nat :=
  if n < UInt32.size then some n else none

/-- A signed decimal number that turns out to be a 32-bit word. -/
def decimal? (text : String) : Option Nat :=
  match text.toList with
  | '+' :: digits => digits? 10 decimalDigit? digits >>= fit32?
  | '-' :: digits => (digits? 10 decimalDigit? digits).filter (· == 0)
  | digits => digits? 10 decimalDigit? digits >>= fit32?

/-- A 32-bit word in hexadecimal, perhaps behind `0x`, perhaps with a plus sign. -/
def hex? (text : String) : Option UInt32 :=
  let unprefixed := match text.toList with
    | '0' :: 'x' :: rest => rest
    | '0' :: 'X' :: rest => rest
    | all => all
  let unsigned := match unprefixed with
    | '+' :: rest => rest
    | all => all
  (digits? 16 hexDigit? unsigned >>= fit32?).map UInt32.ofNat

/-- A path; an empty one is refused. -/
def path? (text : String) : Option String :=
  if text.isEmpty then none else some text

/-- A value that has been read, or a usage error. -/
def accept {α : Type} : Option α → Except Stop α
  | some value => .ok value
  | none => .error .usage

/-! ## Splitting arguments -/

/-- Does a text spell a value? -/
def spells {α : Type} (parse : String → Option α) (text : String) : Bool :=
  (parse text).isSome

/-- The arguments a command understands. -/
structure Grammar where
  /-- Options with a value, and which texts spell one. -/
  valued : List (String × (String → Bool))
  /-- Options without a value. -/
  flags : List String
  /-- Positional arguments in order, by the texts that spell them. -/
  positionals : List (String → Bool)
  /-- Does the command answer to a request for its version? -/
  hasVersion : Bool
  /-- Does the first positional argument name a subcommand, which takes the rest? -/
  hasSubcommand : Bool

/-- Arguments taken apart. -/
structure Split where
  /-- Options in order, with their values. -/
  options : List (String × Option String)
  positionals : List String
  /-- A subcommand and its arguments. -/
  subcommand : Option (String × List String)

/-- Nothing yet. -/
def Split.empty : Split := ⟨[], [], none⟩

/-- Is this an argument that cannot be a value? -/
def isOptionLike (argument : String) : Bool :=
  argument.startsWith "-" && argument != "-"

/-- Enter an option, which may be given once only. -/
def Split.addOption (split : Split) (name : String) (value : Option String) :
    Except Stop Split :=
  if (split.options.lookup name).isSome then
    .error .usage
  else
    .ok { split with options := split.options ++ [(name, value)] }

/-- Enter an option with its value, which has to spell one. -/
def Split.addValued (split : Split) (grammar : Grammar) (name value : String) :
    Except Stop Split :=
  match grammar.valued.lookup name with
  | some isValue => if isValue value then split.addOption name (some value) else .error .usage
  | none => .error .usage

/-- Enter a positional argument, if one more is expected and the text spells it. -/
def Split.addPositional (split : Split) (grammar : Grammar) (argument : String) :
    Except Stop Split :=
  match grammar.positionals[split.positionals.length]? with
  | some isValue =>
    if isValue argument then
      .ok { split with positionals := split.positionals ++ [argument] }
    else
      .error .usage
  | none => .error .usage

/-- A long option at its equals sign: the name, and what is attached. -/
def attachedValue (body : List Char) : String × Option String :=
  match body.dropWhile (· != '=') with
  | [] => (String.ofList body, none)
  | _ :: value => (String.ofList (body.takeWhile (· != '=')), some (String.ofList value))

/-- What an argument is, as far as its own text tells. -/
inductive Shape where
  | positional
  /-- Everything behind is positional. -/
  | escape
  /-- An option without a value. -/
  | flag (name : String)
  /-- An option with its value attached. -/
  | attached (name value : String)
  /-- An option whose value is the next argument. -/
  | awaiting (name : String)
  | stop (reason : Stop)

/-- What a long option is. -/
def shapeOfLong (grammar : Grammar) (name : String) (value : Option String) : Shape :=
  match value with
  | some value =>
    if (grammar.valued.lookup name).isSome then .attached name value else .stop .usage
  | none =>
    if (grammar.valued.lookup name).isSome then .awaiting name
    else if grammar.flags.contains name then .flag name
    else if name = "help" then .stop .help
    else if name = "version" ∧ grammar.hasVersion then .stop .version
    else .stop .usage

/-- What an argument is. -/
def shape (grammar : Grammar) (argument : String) : Shape :=
  match argument.toList with
  | ['-', '-'] => .escape
  | '-' :: '-' :: body =>
    let (name, value) := attachedValue body
    shapeOfLong grammar name value
  | '-' :: 'h' :: _ => .stop .help
  | '-' :: 'V' :: _ => .stop (if grammar.hasVersion then .version else .usage)
  | '-' :: _ :: _ => .stop .usage
  | _ => .positional

/-- Take arguments apart from left to right, so that the first problem or request decides. An
option may still wait for its value. -/
def split (grammar : Grammar) : Option String → List String → Split → Except Stop Split
  | none, [], found => .ok found
  | some _, [], _ => .error .usage
  | some name, value :: rest, found => do
    if isOptionLike value then
      .error .usage
    let found ← found.addValued grammar name value
    split grammar none rest found
  | none, argument :: rest, found =>
    match shape grammar argument with
    | .stop reason => .error reason
    | .escape => rest.foldlM (fun found argument => found.addPositional grammar argument) found
    | .flag name => do
      let found ← found.addOption name none
      split grammar none rest found
    | .attached name value => do
      let found ← found.addValued grammar name value
      split grammar none rest found
    | .awaiting name => split grammar (some name) rest found
    | .positional =>
      if grammar.hasSubcommand then
        .ok { found with subcommand := some (argument, rest) }
      else do
        let found ← found.addPositional grammar argument
        split grammar none rest found

/-- The value of an option, if it is given. -/
def Split.value? {α : Type} (split : Split) (name : String) (parse : String → Option α) :
    Option α :=
  (split.options.lookup name).join >>= parse

/-! ## Requests -/

/-- The arguments of the simulated device. -/
def deviceGrammar : Grammar where
  valued := [("chip", spells Sim.Chip.ofName?), ("image", spells path?), ("otp", spells hex?),
    ("pins", spells hex?), ("poll-limit", spells decimal?)]
  flags := ["write-back"]
  positionals := []
  hasVersion := true
  hasSubcommand := true

/-- Read the options of the simulated device. -/
def deviceOptions (split : Split) : DeviceOptions where
  chip := (split.value? "chip" Sim.Chip.ofName?).getD .k9f1g08
  image := split.value? "image" path?
  writeBack := (split.options.lookup "write-back").isSome
  powerOn := ⟨(split.value? "otp" hex?).getD 0, (split.value? "pins" hex?).getD 0xF0⟩
  pollLimit := split.value? "poll-limit" decimal?

/-- Take the arguments of a subcommand apart. -/
def splitTask (valued : List (String × (String → Bool))) (positionals : List (String → Bool))
    (arguments : List String) : Except Stop Split :=
  split ⟨valued, [], positionals, false, false⟩ none arguments .empty

/-- The only argument of a subcommand, a number. -/
def onlyNumber (arguments : List String) : Except Stop Nat := do
  let split ← splitTask [] [spells decimal?] arguments
  accept (split.positionals[0]? >>= decimal?)

/-- Names of the subcommands. -/
def taskNames : List String :=
  ["info", "erase-block", "mark-bad", "scan", "write-page", "read-page", "flash", "dump", "help"]

/-- Read a subcommand. -/
def task (name : String) (arguments : List String) : Except Stop Task := do
  match name with
  | "info" => do
    discard (splitTask [] [] arguments)
    return .info
  | "scan" => do
    discard (splitTask [] [] arguments)
    return .scan
  | "erase-block" => return .eraseBlock (← onlyNumber arguments)
  | "mark-bad" => return .markBad (← onlyNumber arguments)
  | "write-page" => do
    let split ← splitTask [] [spells decimal?, spells path?] arguments
    let page ← accept (split.positionals[0]? >>= decimal?)
    let input ← accept (split.positionals[1]? >>= path?)
    return .writePage page input
  | "read-page" => do
    let split ← splitTask [("output", spells path?)] [spells decimal?] arguments
    let page ← accept (split.positionals[0]? >>= decimal?)
    return .readPage page (split.value? "output" path?)
  | "flash" => do
    let split ← splitTask [("start-block", spells decimal?)] [spells path?] arguments
    let input ← accept (split.positionals[0]? >>= path?)
    return .flash input ((split.value? "start-block" decimal?).getD 0)
  | "dump" => do
    let split ← splitTask [("first-block", spells decimal?), ("count", spells decimal?)]
      [spells path?] arguments
    let output ← accept (split.positionals[0]? >>= path?)
    return .dump output ((split.value? "first-block" decimal?).getD 0)
      (split.value? "count" decimal?)
  | "help" =>
    match arguments with
    | [] => .error .help
    | [topic] => if taskNames.contains topic then .error .help else .error .usage
    | _ => .error .usage
  | _ => .error .usage

/-- Read a whole command line. -/
def parse (arguments : List String) : Except Stop Request := do
  let split ← split deviceGrammar none arguments .empty
  let device := deviceOptions split
  let (name, rest) ← accept split.subcommand
  let task ← task name rest
  -- Writing an image back needs an image.
  if device.writeBack ∧ device.image = none then
    .error .usage
  return ⟨device, task⟩

end NandFlash.CommandLine
