import Stage90.Console.RingLog

/-!
# The enumeration

`entry_usb_enum.c`: the control endpoint, the bus reset and the poll.  A poll is given its
readings; its writes to the core are a list of actions, and its live records a list of
records.  `qhBase` is the address of `g_usb_qh`.
-/

set_option autoImplicit false

namespace Stage90.Usb

open Stage90.Console

/-- `STAGE90_XNU_USB_STREAM`, `STAGE90_XNU_USB_DEV_FORCE` and where the linker put `g_usb_qh`. -/
structure Build where
  stream : Bool
  force : Bool
  qhBase : UInt32

/-! ## Constants of `entry_usb_enum.h` -/

def enumIntrValue : UInt32 := 0x00000147
def stsUi : UInt32 := 0x00000001
def stsUri : UInt32 := 0x00000040
def endptCtrl0Value : UInt32 := 0x00c000c0
/-- `TXE | TXR | TXT_BULK`. -/
def endptCtrl1Value : UInt32 := 0x00c80000
def deviceAddrUsbadra : UInt32 := 0x01000000

/-- `EPBIT(num, dir)`. -/
def epBit (num : UInt32) (in_ : Bool) : UInt32 := 1 <<< (num + if in_ then 16 else 0)

def descDevice : UInt32 := 1
def descConfig : UInt32 := 2
def descString : UInt32 := 3

def reqGetStatus : UInt32 := 0
def reqSetAddress : UInt32 := 5
def reqGetDescriptor : UInt32 := 6
def reqSetConfiguration : UInt32 := 9

def dirIn : UInt32 := 0x80
def typeMask : UInt32 := 0x60
def typeStandard : UInt32 := 0x00

def strManufacturer : UInt32 := 1
def strProduct : UInt32 := 2
def strSerial : UInt32 := 3

/-- The bytes of `STAGE90_USB_ENUM_IN_MAGIC`, low byte first. -/
def inMagic : List UInt8 := [0x10, 0x09, 0x0b, 0x91]

/-! ## The core -/

inductive Reg where
  | endptCtrl0
  | endptCtrl1
  | endpointListAddr
  | endptFlush
  | endptComplete
  | endptSetupStat
  | usbIntr
  | usbSts
  | deviceAddr
  deriving DecidableEq

/-- `QH_OUT0`, `QH_IN0` and `QH_IN1`. -/
inductive Qh where
  | out0
  | in0
  | in1
  deriving DecidableEq

inductive Action where
  | write (reg : Reg) (value : UInt32)
  | nuke (qh : Qh)
  | prime (qh : Qh) (payload : List UInt8)
  deriving DecidableEq

/-- What a poll reads.  `ENDPTCOMPLETE` is read up to three times. -/
structure Reading where
  usbMode : UInt32
  endptCtrl0 : UInt32
  usbSts : UInt32
  usbIntr : UInt32
  endptSetupStat : UInt32
  setup : Fin 8 → UInt8
  complete : Fin 3 → UInt32

/-- `USB_ENUM_ST_IDLE` to `USB_ENUM_ST_CONFIG`. -/
inductive EnumState where
  | idle
  | armed
  | setup
  | data
  | status
  | address
  | config
  deriving DecidableEq

def EnumState.word : EnumState → UInt32
  | .idle => 0
  | .armed => 1
  | .setup => 2
  | .data => 3
  | .status => 4
  | .address => 5
  | .config => 6

/-- The statics of `entry_usb_enum.c`. -/
structure Enum where
  state : EnumState
  done : Bool
  addr : UInt32
  configured : UInt32
  requests : UInt32
  resets : UInt32
  inReads : UInt32
  inBuf : List UInt8

def Enum.boot : Enum := ⟨.idle, false, 0, 0, 0, 0, 0, List.replicate 64 0⟩

/-- A write to the head of `g_usb_in_buf`. -/
def Enum.fill (e : Enum) (bytes : List UInt8) : Enum :=
  { e with inBuf := bytes ++ e.inBuf.drop bytes.length }

/-! ## Descriptors -/

def devDesc : List UInt8 :=
  [18, 1, 0x00, 0x02, 0, 0, 0, 64, 0xd1, 0x18, 0x10, 0x09, 0x10, 0x09, 1, 2, 3, 1]

def cfgDesc : List UInt8 :=
  [9, 2, 25, 0, 1, 1, 0, 0x80, 50,
    9, 4, 0, 0, 1, 0xff, 0x42, 1, 0,
    7, 5, 0x81, 0x02, 64, 0, 0]

/-- A string descriptor, in UTF-16LE. -/
def buildString (s : String) : List UInt8 :=
  let text := (ascii s).take 31
  [UInt8.ofNat (2 + 2 * text.length), 3] ++ text.flatMap fun c => [c, 0]

/-- `0x0409`, US English. -/
def buildLangid : List UInt8 := [4, 3, 0x09, 0x04]

def stringDescriptor (index : UInt32) : Option (List UInt8) :=
  if index = 0 then some buildLangid
  else if index = strManufacturer then some (buildString "mi4-xnu")
  else if index = strProduct then some (buildString "xnu-arm-entry")
  else if index = strSerial then some (buildString "4a2fe00b")
  else none

def wValue (setup : Fin 8 → UInt8) : UInt32 := (setup 2).toUInt32 ||| ((setup 3).toUInt32 <<< 8)

def wLength (setup : Fin 8 → UInt8) : UInt32 := (setup 6).toUInt32 ||| ((setup 7).toUInt32 <<< 8)

def namedDescriptor (setup : Fin 8 → UInt8) : Option (List UInt8 × Bool) :=
  let type := (wValue setup >>> 8) &&& 0xff
  let index := wValue setup &&& 0xff
  if type = descDevice then some (devDesc, false)
  else if type = descConfig then some (cfgDesc, false)
  else if type = descString then (stringDescriptor index).map fun desc => (desc, true)
  else none

/-- The count that is primed comes with the actions. -/
def usbEnumGetDescriptor (e : Enum) (setup : Fin 8 → UInt8) : Nat × Enum × List Action :=
  match namedDescriptor setup with
  | none => (0, e, [])
  | some (desc, built) =>
      let len := if (wLength setup).toNat < desc.length then (wLength setup).toNat else desc.length
      (len, if built then e.fill desc else e, [.prime .in0 (desc.take len)])

/-! ## The handlers -/

def usbEnumArmEp0 (b : Build) : List Action :=
  [.write .endptCtrl0 endptCtrl0Value, .write .endpointListAddr b.qhBase,
    .write .endptFlush 0xffffffff, .write .endptComplete 0xffffffff,
    .write .endptSetupStat 0xffffffff, .nuke .out0, .nuke .in0, .write .usbIntr enumIntrValue]

/-- With the stream arm on, EP1-IN is enabled and handed over. -/
def usbEnumArmEpIn (b : Build) (e : Enum) : Enum × List Action :=
  let arm : List Action := [.write .endptCtrl1 endptCtrl1Value, .nuke .in1]
  if b.stream then (e, arm) else (e.fill inMagic, arm ++ [.prime .in1 inMagic])

def usbEnumBusReset (e : Enum) : Enum × List Action :=
  ({ e with addr := 0, configured := 0, resets := e.resets + 1, state := .armed },
    [.write .deviceAddr 0, .write .endptFlush 0xffffffff, .write .endptSetupStat 0xffffffff,
      .write .endptComplete 0xffffffff])

/-- The status phase of a request without data. -/
def usbEnumStatus (e : Enum) (actions : List Action) : Enum × List Action :=
  ({ e with state := .status }, actions ++ [.prime .in0 []])

def usbEnumSetup (b : Build) (e : Enum) (setup : Fin 8 → UInt8) : Enum × List Action :=
  let read : List Action := [.write .endptSetupStat 1, .nuke .out0, .nuke .in0]
  let e := { e with requests := e.requests + 1, state := .setup }
  let type := (setup 0).toUInt32
  let request := (setup 1).toUInt32
  if type &&& typeMask = typeStandard then
    if request = reqGetDescriptor ∧ type &&& dirIn ≠ 0 then
      let (count, e, prime) := usbEnumGetDescriptor e setup
      if count ≠ 0 then ({ e with state := .data }, read ++ prime)
      else usbEnumStatus e (read ++ prime)
    else if request = reqSetAddress then
      let addr := wValue setup &&& 0x7f
      usbEnumStatus { e with addr := addr, state := .address }
        (read ++ [.write .deviceAddr ((addr <<< 25) ||| deviceAddrUsbadra)])
    else if request = reqGetStatus ∧ type &&& dirIn ≠ 0 then
      let len := if (wLength setup).toNat < 2 then (wLength setup).toNat else 2
      ({ e.fill [0, 0] with state := .data },
        read ++ [.prime .in0 (([0, 0] : List UInt8).take len)])
    else if request = reqSetConfiguration then
      let e := { e with configured := if wValue setup ≠ 0 then 1 else 0 }
      let (e, arm) := if e.configured ≠ 0 then usbEnumArmEpIn b e else (e, [])
      usbEnumStatus { e with state := .config } (read ++ arm)
    else usbEnumStatus e read
  else usbEnumStatus e read

/-- The completions of EP0-IN, EP0-OUT and, without the stream arm, EP1-IN. -/
def usbEnumComplete (b : Build) (e : Enum) (complete : Fin 3 → UInt32) : Enum × List Action :=
  let (e, in0) : Enum × List Action :=
    if complete 0 &&& epBit 0 true ≠ 0 then
      if e.state = .data then
        ({ e with state := .status }, [.write .endptComplete (epBit 0 true), .prime .out0 []])
      else ({ e with state := .armed }, [.write .endptComplete (epBit 0 true)])
    else (e, [])
  let (e, out0) : Enum × List Action :=
    if complete 1 &&& epBit 0 false ≠ 0 then
      ({ e with state := .armed }, [.write .endptComplete (epBit 0 false)])
    else (e, [])
  let (e, in1) : Enum × List Action :=
    if !b.stream ∧ complete 2 &&& epBit 1 true ≠ 0 then
      ({ e with inReads := e.inReads + 1 },
        [.write .endptComplete (epBit 1 true), .prime .in1 (e.inBuf.take 4)])
    else (e, [])
  (e, in0 ++ out0 ++ in1)

def Reading.hasSetup (r : Reading) : Bool := r.endptSetupStat &&& 0x1 ≠ 0

def usbEnumUi (b : Build) (e : Enum) (r : Reading) : Enum × List Action :=
  if r.hasSetup then usbEnumSetup b e r.setup else usbEnumComplete b e r.complete

/-! ## The poll -/

def Build.open_ (b : Build) (r : Reading) : Bool := r.usbMode &&& 0x00000003 = 0x00000002 || b.force

def Reading.intr (r : Reading) : UInt32 := r.usbSts &&& r.usbIntr

def Reading.uri (r : Reading) : Bool := r.intr &&& stsUri ≠ 0

def Reading.ui (r : Reading) : Bool := r.intr &&& stsUi ≠ 0

/-- The first open poll arms EP0. -/
def usbEnumArm (b : Build) (e : Enum) (r : Reading) : Enum × List Action × List Record :=
  if e.done then (e, [], [])
  else
    ({ e with done := true, state := .armed }, usbEnumArmEp0 b,
      [⟨ascii "xnu_live_usb_enum_armed", 1⟩,
        ⟨ascii "xnu_live_usb_enum_intr_wrote", enumIntrValue⟩,
        ⟨ascii "xnu_live_usb_enum_eplist", b.qhBase⟩,
        ⟨ascii "xnu_live_usb_enum_ep0_ctrl", r.endptCtrl0⟩])

/-- URI before UI, then the bits that were read are cleared. -/
def usbEnumService (b : Build) (e : Enum) (r : Reading) : Enum × List Action :=
  let (e, reset) := if r.uri then usbEnumBusReset e else (e, [])
  let (e, ui) := if r.ui then usbEnumUi b e r else (e, [])
  (e, reset ++ ui ++ [.write .usbSts r.intr])

def usbEnumRecords (e : Enum) : List Record :=
  [⟨ascii "xnu_live_usb_enum_state", e.state.word⟩,
    ⟨ascii "xnu_live_usb_enum_requests", e.requests⟩,
    ⟨ascii "xnu_live_usb_enum_resets", e.resets⟩,
    ⟨ascii "xnu_live_usb_enum_addr", e.addr⟩,
    ⟨ascii "xnu_live_usb_enum_configured", e.configured⟩,
    ⟨ascii "xnu_live_usb_enum_in_reads", e.inReads⟩]

def entryUsbEnumPoll (b : Build) (e : Enum) (r : Reading) : Enum × List Action × List Record :=
  if b.open_ r then
    let (e, arm, first) := usbEnumArm b e r
    let (e, actions) := usbEnumService b e r
    (e, arm ++ actions, first ++ usbEnumRecords e)
  else
    (e, [], if e.done then [] else [⟨ascii "xnu_live_usb_enum_gated", 1⟩])

end Stage90.Usb
