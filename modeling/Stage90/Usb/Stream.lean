import Stage90.Console.RingLog
import Stage90.Lib.Words

/-!
# The bulk stream

`entry_usb_stream.c`: the one IN endpoint's payload is a cursor over the ring of the RAM
console.  The endpoint is what the core holds of EP1-IN: the link in its queue head, the
prime, the transfer descriptor's token and the bit of `ENDPTCOMPLETE`.  What the log puts in
the ring for a record is a parameter.
-/

set_option autoImplicit false

namespace Stage90.Usb

open Stage90.Lib Stage90.Console

def usbModeCm : UInt32 := 0x00000003
def usbModeCmDevice : UInt32 := 0x00000002
def endptCtrlTxe : UInt32 := 0x00800000

/-- `0x00200000u - STAGE90_USB_STREAM_OFF_DATA`. -/
def usbStreamSizeMax : Nat := 0x00200000 - 12
def usbStreamChunk : Nat := 4096

/-- The fields `TOTAL` and `ACTIVE` of a descriptor's token. -/
structure Token where
  total : Nat
  active : Bool
  deriving DecidableEq

/-- EP1-IN at the core. -/
structure Endpoint where
  /-- The queue head links to the stream's descriptor. -/
  linked : Bool
  primed : Bool
  token : Token
  /-- Bit 17 of `ENDPTCOMPLETE`. -/
  complete : Bool
  deriving DecidableEq

/-- `USB_STREAM_ST_IDLE` to `USB_STREAM_ST_DRAINED`. -/
inductive StreamState where
  | idle
  | waiting
  | stream
  | drained
  deriving DecidableEq

def StreamState.word : StreamState → UInt32
  | .idle => 0
  | .waiting => 1
  | .stream => 2
  | .drained => 3

/-- The statics of `entry_usb_stream.c`. -/
structure Stream where
  buf : Nat → UInt8
  cursor : Nat
  last : Nat
  active : Bool
  chunks : UInt32
  actual : Nat
  state : StreamState

structure Feed where
  ring : Ring
  stream : Stream
  ep : Endpoint

def appendText (r : Ring) (text : List UInt8) : Ring :=
  ⟨r.sig, r.size + text.length, overlay r.data r.size text⟩

variable (log : Ring → Record → List UInt8)

def Feed.live (f : Feed) (key : String) (value : UInt32) : Feed :=
  { f with ring := appendText f.ring (log f.ring ⟨ascii key, value⟩) }

def usbStreamSize (r : Ring) : Nat := if usbStreamSizeMax < r.size then usbStreamSizeMax else r.size

def Feed.available (f : Feed) : Nat :=
  let size := usbStreamSize f.ring
  if f.stream.cursor < size then size - f.stream.cursor else 0

/-- The `len` bytes of the ring from `cursor` on. -/
def ringBytes (r : Ring) (cursor len : Nat) : List UInt8 :=
  (List.range len).map fun i => r.data (cursor + i)

def usbStreamPrime (f : Feed) (len : Nat) : Feed :=
  let len := if usbStreamChunk < len then usbStreamChunk else len
  { f with
    stream := { f.stream with
      buf := overlay f.stream.buf 0 (ringBytes f.ring f.stream.cursor len)
      last := len
      active := true
      state := .stream }
    ep := { f.ep with
      linked := true
      primed := true
      token := ⟨len % 2 ^ 15, true⟩ } }

def usbStreamComplete (f : Feed) : Feed :=
  -- a descriptor that is still active is not done
  if f.ep.token.active then f
  else
    let remaining := f.ep.token.total
    let actual := if remaining < f.stream.last then f.stream.last - remaining else 0
    let f := { f with
      stream := { f.stream with
        actual := actual
        cursor := u32 (f.stream.cursor + actual)
        chunks := f.stream.chunks + 1
        active := false }
      ep := { f.ep with complete := false } }
    if f.available = 0 then { f with stream := { f.stream with state := .drained } }
    else usbStreamPrime f f.available

structure Gate where
  usbMode : UInt32
  endptCtrl1 : UInt32
  deriving DecidableEq

def Gate.device (g : Gate) : Bool := g.usbMode &&& usbModeCm = usbModeCmDevice

def Gate.enabled (g : Gate) : Bool := g.endptCtrl1 &&& endptCtrlTxe ≠ 0

/-- The poll behind its gates. -/
def usbStreamAdvance (f : Feed) : Feed :=
  if f.stream.active then
    if f.ep.complete then usbStreamComplete f else f
  else if f.stream.state ≠ .drained then
    let avail := f.available
    if avail = 0 then { f with stream := { f.stream with state := .drained } }
    else
      let f := if f.stream.chunks = 0 then f.live log "xnu_live_usb_stream_armed" 1 else f
      usbStreamPrime f avail
  else f

def usbStreamPublish (f : Feed) : Feed :=
  let f := f.live log "xnu_live_usb_stream_state" f.stream.state.word
  let f := f.live log "xnu_live_usb_stream_cursor" (UInt32.ofNat f.stream.cursor)
  let f := f.live log "xnu_live_usb_stream_chunks" f.stream.chunks
  let f := f.live log "xnu_live_usb_stream_actual" (UInt32.ofNat f.stream.actual)
  f.live log "xnu_live_usb_stream_avail" (UInt32.ofNat f.available)

def entryUsbStreamPoll (f : Feed) (g : Gate) : Feed :=
  if !g.device then { f with stream := { f.stream with state := .idle } }
  else if !g.enabled then
    if f.stream.state ≠ .waiting then
      ({ f with stream := { f.stream with state := .waiting } } : Feed).live log
        "xnu_live_usb_stream_waiting" 1
    else f
  else usbStreamPublish log (usbStreamAdvance log f)

/-! ## What a poll does -/

/-- The stream moves on over a ring that only grows. -/
structure Feed.Appends (f f' : Feed) : Prop where
  size : f.ring.size ≤ f'.ring.size
  data : ∀ p < f.ring.size, f'.ring.data p = f.ring.data p
  stream : f'.stream = f.stream
  ep : f'.ep = f.ep

theorem Feed.Appends.refl (f : Feed) : f.Appends f := ⟨Nat.le_refl _, fun _ _ => rfl, rfl, rfl⟩

theorem Feed.Appends.trans {f f' f'' : Feed} (first : f.Appends f') (second : f'.Appends f'') :
    f.Appends f'' where
  size := Nat.le_trans first.size second.size
  data := fun p below =>
    (second.data p (Nat.lt_of_lt_of_le below first.size)).trans (first.data p below)
  stream := second.stream.trans first.stream
  ep := second.ep.trans first.ep

theorem append_appends (f : Feed) (text : List UInt8) :
    f.Appends { f with ring := appendText f.ring text } :=
  ⟨Nat.le_add_right _ _, fun _ below => overlay_of_lt _ _ below, rfl, rfl⟩

theorem live_appends (f : Feed) (key : String) (value : UInt32) : f.Appends (f.live log key value) :=
  append_appends f _

theorem publish_appends (f : Feed) : f.Appends (usbStreamPublish log f) := by
  rw [usbStreamPublish]
  refine ((((live_appends log f _ _).trans (live_appends log _ _ _)).trans
    (live_appends log _ _ _)).trans (live_appends log _ _ _)).trans (live_appends log _ _ _)

theorem usbStreamSize_le (r : Ring) : usbStreamSize r ≤ r.size ∧ usbStreamSize r ≤ usbStreamSizeMax := by
  rw [usbStreamSize]
  split <;> omega

theorem usbStreamSize_mono {r r' : Ring} (grown : r.size ≤ r'.size) :
    usbStreamSize r ≤ usbStreamSize r' := by
  rw [usbStreamSize, usbStreamSize]
  split <;> split <;> omega

theorem Feed.available_eq (f : Feed) : f.available = usbStreamSize f.ring - f.stream.cursor := by
  rw [Feed.available]
  split <;> omega

end Stage90.Usb
