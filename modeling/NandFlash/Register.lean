/-!
# Register map

Offsets and bits of the flash interface, fixed by the silicon. Data-sheet mnemonics are given
with each register.
-/

namespace NandFlash.Register

/-- PWRONOTP, the non-volatile power-on setting. -/
def powerOnWord : Nat := 0x004
/-- PWRONPIN, the strap pins. -/
def powerOnPins : Nat := 0x008

/-- DMACCSR, control of the transfer engine. -/
def dmaControl : Nat := 0x400
/-- DMACSAR, the address a transfer starts at. -/
def dmaAddress : Nat := 0x408
/-- DMACIER, interrupts of the transfer engine. -/
def dmaInterrupts : Nat := 0x410

/-- FMICSR, global control. -/
def globalControl : Nat := 0x800

/-- SMCSR, control of the NAND side. -/
def control : Nat := 0x8A0
/-- SMTCR, bus timing. -/
def timing : Nat := 0x8A4
/-- SMIER, interrupts of the NAND side. -/
def interrupts : Nat := 0x8A8
/-- SMISR, status flags; written ones clear. -/
def status : Nat := 0x8AC
/-- SMCMD, the command register. -/
def command : Nat := 0x8B0
/-- SMADDR, the address register. -/
def address : Nat := 0x8B4
/-- SMDATA, the data register. -/
def data : Nat := 0x8B8
/-- SMREACTL, how many spare bytes take part in a transfer. -/
def spareSize : Nat := 0x8BC
/-- NFECR, write protection. -/
def writeProtect : Nat := 0x8C0

/-- SMECC_ST, four words with a status byte for each field. -/
def fieldStatus : Nat := 0x8D0
/-- Number of field status words. -/
def fieldStatusWords : Nat := 4
/-- BCH_ECC_ADDR, the latched error addresses, two to a word. -/
def errorAddress : Nat := 0x900
/-- Number of error address words. -/
def errorAddressWords : Nat := 12
/-- BCH_ECC_DATA, the latched error values, four to a word. -/
def errorValue : Nat := 0x960
/-- Number of error value words. -/
def errorValueWords : Nat := 6

/-- SMRA, the window on the spare area. -/
def window : Nat := 0xA00

end NandFlash.Register

namespace NandFlash.Bits

/-! ## Transfer engine control -/

/-- The engine is on. -/
def dmaEnable : UInt32 := 0x1
/-- Reset the engine; clears itself. -/
def dmaReset : UInt32 := 0x2
/-- The engine is busy. -/
def dmaBusy : UInt32 := 0x200
/-- Report an aborted transfer. -/
def targetAbort : UInt32 := 0x1

/-! ## Global control -/

/-- The NAND side is on. -/
def nandEnable : UInt32 := 0x8

/-! ## NAND control -/

/-- Reset the NAND side; clears itself. -/
def reset : UInt32 := 0x1
/-- Start a transfer from flash; clears itself. -/
def startRead : UInt32 := 0x2
/-- Start a transfer to flash; clears itself. -/
def startWrite : UInt32 := 0x4
/-- Write the window along with the data. -/
def spareAutoWrite : UInt32 := 0x10
/-- Check parity while reading. -/
def eccCheck : UInt32 := 0x80
/-- Protect three metadata bytes per field. -/
def protectMetadata : UInt32 := 0x100
/-- Page size select. -/
def pageSizeMask : UInt32 := 0x30000
/-- Strength select. -/
def strengthMask : UInt32 := 0x7C0000
/-- ECC is on. -/
def eccEnable : UInt32 := 0x800000
/-- Chip selects. -/
def chipSelectMask : UInt32 := 0x6000000
/-- Only the first chip is selected. -/
def chipSelect0 : UInt32 := 0x4000000

/-! ## NAND interrupts -/

/-- Interrupt at the end of a transfer. -/
def doneInterrupt : UInt32 := 0x1
/-- Interrupt on a damaged field. -/
def eccInterrupt : UInt32 := 0x4

/-! ## NAND status -/

/-- A transfer is over. -/
def transferDone : UInt32 := 0x1
/-- A field failed its check. -/
def eccEvent : UInt32 := 0x4
/-- The ready line has risen. -/
def readyEdge : UInt32 := 0x400
/-- The chip is ready. -/
def ready : UInt32 := 0x40000

/-! ## Other registers -/

/-- Marks the last byte of an address phase. -/
def lastAddress : UInt32 := 0x80000000
/-- The size field of the spare size register. -/
def spareSizeMask : UInt32 := 0x1FF
/-- Lifts write protection. -/
def writeUnlock : UInt32 := 0x1
/-- Eleven bits of error address in each half-word. -/
def errorAddressMask : UInt32 := 0x7FF

/-- The timing programmed unless another is asked for. -/
def defaultTiming : UInt32 := 0x00020305

end NandFlash.Bits
