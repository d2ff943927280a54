import HardwareIntel.Library.Driven
import Mathlib.Data.List.Basic

/-!
# The firmware patch download of the Bluetooth controller

`hw_config_start` sends a reset to the controller and gives `hw_config_cback` for its event. From
then on each event is answered with the next command, which names the same callback again: the
version of the firmware is read, the patch file for this version is opened, manufacture mode is
switched on, the command lines of the file are sent one by one, and manufacture mode is switched off.
The result is reported through `fwcfg_cb`.

What the transport, the memory pool and the file system answer is an input of a callback. A file is
the bytes still to be read and the end-of-file indicator; the line buffer is a function, as bytes of
earlier lines stay in it behind the end of a shorter one. Reading from a file that is not open ends
the callback with `none`.
-/

namespace HardwareIntel.Bluetooth

def hciCmdMaxLen : ℕ := 258
def lineLenMax : ℕ := 1024

def hciReset : UInt16 := 0x0C03
def hciIntelManufacture : UInt16 := 0xFC11
def hciIntelRdswVersion : UInt16 := 0xFC05
def hciEvtCmdStatEvtCode : UInt8 := 0x0F
def hciEvtCmdCmplEvtCode : UInt8 := 0x0E

/-! ### Files -/

structure File where
  rest : List UInt8
  eof : Bool
  deriving DecidableEq

/-- The bytes up to a line feed, at most `n`, and the file behind them. The end of the file is seen
when there is no byte left to look at. -/
def readLine : ℕ → List UInt8 → List UInt8 × File
  | 0, rest => ([], ⟨rest, false⟩)
  | _ + 1, [] => ([], ⟨[], true⟩)
  | n + 1, c :: rest =>
    if c = 0x0A then ([c], ⟨rest, false⟩)
    else
      let (chunk, fp) := readLine n rest
      (c :: chunk, fp)

/-- The line buffer, of which only the first `lineLenMax` bytes are looked at. -/
abbrev Line := ℕ → UInt8

def emptyLine : Line := fun _ => 0

/-- The buffer after `fgets` has put these bytes and a null byte there. -/
def Line.store (line : Line) (chunk : List UInt8) : Line := fun i =>
  if i < chunk.length then chunk.getD i 0 else if i = chunk.length then 0 else line i

/-- At the end of the file the buffer stays as it is. -/
def fgets (line : Line) (fp : File) : Line × File :=
  let (chunk, next) := readLine (lineLenMax - 1) fp.rest
  (if chunk = [] then line else line.store chunk, { next with eof := fp.eof || next.eof })

def strlenFrom (line : Line) : ℕ → ℕ → ℕ
  | 0, i => i
  | n + 1, i => if line i = 0 then i else strlenFrom line n (i + 1)

def strlen (line : Line) : ℕ := strlenFrom line lineLenMax 0

/-! ### Hexadecimal digits -/

/-- The value that `strtol` gives for a single character. -/
def charToHex (c : UInt8) : UInt8 :=
  if 0x30 ≤ c ∧ c ≤ 0x39 then c - 0x30
  else if 0x41 ≤ c ∧ c ≤ 0x46 then c - 0x41 + 10
  else if 0x61 ≤ c ∧ c ≤ 0x66 then c - 0x61 + 10
  else 0

def formByte (msb lsb : UInt8) : UInt8 := (charToHex msb <<< 4) ||| charToHex lsb

def formWord (msb lsb : UInt8) : UInt16 := (msb.toUInt16 <<< 8) ||| lsb.toUInt16

/-- `UINT16_TO_STREAM` -/
def uint16ToStream (u16 : UInt16) : List UInt8 := [u16.toUInt8, (u16 >>> 8).toUInt8]

/-! ### Commands -/

/-- A command as it is given to `xmit_cb`: all bytes that have been written into its buffer, and the
length of the command. -/
structure Command where
  opcode : UInt16
  bytes : List UInt8
  len : ℕ
  deriving DecidableEq

/-- The lines that are left out: comments, blank lines, and events. -/
def Line.skipped (line : Line) : Bool :=
  line 0 == 0x2A || line 0 == 0x0D || line 0 == 0x46 || line 1 == 0x32

def Line.isCommand (line : Line) : Bool := line 0 == 0x30 && line 1 == 0x31

/-- The command of a line. The loop over the digits goes on to the end of the line. -/
def Line.command (line : Line) : Command :=
  let opcode := formWord (formByte (line 5) (line 6)) (formByte (line 3) (line 4))
  let parameterLength := formByte (line 8) (line 9)
  let params := (List.range ((strlen line - 10 + 1) / 2)).map fun k =>
    formByte (line (10 + 2 * k)) (line (11 + 2 * k))
  ⟨opcode, uint16ToStream opcode ++ parameterLength :: params, 3 + parameterLength.toNat⟩

def hciResetCommand : Command := ⟨hciReset, uint16ToStream hciReset ++ [0], 3⟩

def rdswVersionCommand : Command := ⟨hciIntelRdswVersion, uint16ToStream hciIntelRdswVersion ++ [0], 3⟩

def manufactureCommand (on patchEnabled : UInt8) : Command :=
  ⟨hciIntelManufacture, uint16ToStream hciIntelManufacture ++ [2, on, patchEnabled], 5⟩

/-! ### The configuration -/

/-- The states of a configuration; `idle` is the state 0. -/
inductive HwCfgState
  | idle
  | intelRdswVersion
  | intelOpenPatchfile
  | intelManufactureOn
  | intelMemwrite
  | intelRdswVersionRecheck
  | success
  | fail
  deriving DecidableEq

/-- The static variables, and what has been done: all commands that were built, the results that were
reported, and whether a command that was accepted is still to be answered by an event. -/
structure HwCfg where
  state : HwCfgState
  isPatchEnabled : UInt8
  nextState : HwCfgState
  fp : Option File
  fwPatchfileEmpty : Bool
  outstanding : Bool
  built : List Command
  reports : List Bool

/-- What a callback is given: the bytes of the event, the result of `alloc`, the content of the patch
file, and the result of `xmit_cb`. Of a patch file there is none for this version, or it cannot be
opened. -/
structure Input where
  evtBuf : ℕ → UInt8
  alloc : Bool
  patchfile : Option (Option (List UInt8))
  xmit : Bool

/-- The status of a command; `none` for other events. -/
def Input.status (i : Input) : Option UInt8 :=
  if i.evtBuf 0 = hciEvtCmdStatEvtCode then some (i.evtBuf 2)
  else if i.evtBuf 0 = hciEvtCmdCmplEvtCode then some (i.evtBuf 5)
  else none

namespace HwCfg

/-- A call of `xmit_cb`. -/
def transmit (s : HwCfg) (c : Command) (accepted : Bool) : HwCfg × Bool :=
  ({ s with built := s.built ++ [c], outstanding := accepted }, accepted)

def report (s : HwCfg) (result : Bool) : HwCfg := { s with reports := s.reports ++ [result] }

def hwConfigManufactureModeOff (s : HwCfg) (xmit : Bool) : HwCfg × Bool :=
  { s with state := s.nextState }.transmit (manufactureCommand 0 s.isPatchEnabled) xmit

/-- What the loop over the lines ends with. -/
inductive Found
  | line (line : Line) (fp : File)
  | endOfFile

/-- The loop over the lines that are left out. Each iteration reads a byte or sees the end of the
file. -/
def skipLines : ℕ → Line → File → Option Found
  | 0, _, _ => none
  | fuel + 1, line, fp =>
    if line.skipped then
      if fp.eof then some .endOfFile
      else
        let (line, fp) := fgets line fp
        skipLines fuel line fp
    else some (.line line fp)

/-- The next line that is not left out. -/
def nextLine (fp : File) : Option Found :=
  let (line, fp) := fgets emptyLine fp
  skipLines (fp.rest.length + 2) line fp

def memwrite (s : HwCfg) (xmit : Bool) : Option (HwCfg × Bool) := do
  let fp ← s.fp
  if fp.eof then return s.hwConfigManufactureModeOff xmit
  match ← nextLine fp with
  | .endOfFile =>
    let s := { s with fp := none }
    if s.fwPatchfileEmpty then
      let s := { s with isPatchEnabled := 2, nextState := .intelRdswVersionRecheck }
      return s.hwConfigManufactureModeOff xmit
    return s.hwConfigManufactureModeOff xmit
  | .line line fp =>
    let s := { s with fp := some fp }
    if line.isCommand then
      return { s with fwPatchfileEmpty := true, state := .intelMemwrite }.transmit line.command xmit
    return (s, false)

def manufactureOn (s : HwCfg) (xmit : Bool) : HwCfg × Bool :=
  { s with state := .intelMemwrite }.transmit (manufactureCommand 1 0) xmit

def openPatchfile (s : HwCfg) (i : Input) : HwCfg × Bool :=
  match i.patchfile with
  | none => (s.report true, true)
  | some none => ({ s with fp := none }, false)
  | some (some content) => { s with fp := some ⟨content, false⟩ }.manufactureOn i.xmit

/-- The part of `hw_config_cback` for each state, with `is_proceeding`. Without USB the version is not
read, and the file is looked for at once. -/
def proceed (usb : Bool) (s : HwCfg) (i : Input) : Option (HwCfg × Bool) :=
  match s.state with
  | .intelRdswVersion =>
    if usb then some ({ s with state := .intelOpenPatchfile }.transmit rdswVersionCommand i.xmit)
    else some (s.openPatchfile i)
  | .intelOpenPatchfile => some (s.openPatchfile i)
  | .intelManufactureOn => some (s.manufactureOn i.xmit)
  | .intelMemwrite => s.memwrite i.xmit
  | .intelRdswVersionRecheck => some ({ s with state := .success }.transmit rdswVersionCommand i.xmit)
  | .success => some (s.report true, true)
  | .fail => some (s.report false, true)
  | .idle => some (s, false)

/-- What is done when the configuration does not proceed. -/
def abort (s : HwCfg) : HwCfg := { s.report false with fp := none, state := .idle }

def hwConfigCback (usb : Bool) (s : HwCfg) (i : Input) : Option HwCfg :=
  let s := { s with outstanding := false }
  if i.status = some 0 ∧ i.alloc then
    (s.proceed usb i).map fun (s, isProceeding) => if isProceeding then s else s.abort
  else some s.abort

/-- `hw_config_start`; whatever `xmit_cb` returns is ignored. -/
def hwConfigStart (s : HwCfg) (alloc xmit : Bool) : HwCfg :=
  let s := { s with
    state := .idle
    isPatchEnabled := 0
    nextState := .success
    outstanding := false
    built := []
    reports := [] }
  if alloc then ({ s with state := .intelRdswVersion }.transmit hciResetCommand xmit).1
  else s.report false

/-- The configuration after `k` events. -/
def configuration (usb : Bool) (s : HwCfg) (alloc xmit : Bool) (inputs : ℕ → Input) (k : ℕ) :
    Option HwCfg :=
  driven (hwConfigCback usb) outstanding inputs (s.hwConfigStart alloc xmit) k

end HwCfg

end HardwareIntel.Bluetooth
