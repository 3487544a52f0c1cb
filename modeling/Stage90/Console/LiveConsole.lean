import Stage90.Console.RingLog
import Stage90.Lib.Execute
import Stage90.Lib.Words

/-!
# The live channel and the OS console

The three writers of the RAM console: `entry_write_kv`, `entry_live_write` with the bring-up
of the channel, and `entry_os_console_char` with its block.  What the bring-up reads from the
machine is a parameter of the call, and so are the words of the console's own state.
-/

set_option autoImplicit false

namespace Stage90.Console

open Stage90.Lib

def ramConsoleBase : Nat := 0xde500000
def entryLiveCap : UInt32 := 24576
def entryOsBlock : Nat := 0x00020000
def entryOsTank : Nat := 8192
def entryOsHeal : Nat := 1024

def osMarker : List UInt8 := ascii "\n[os-console-459]\n"

/-- `g_live_state`: not tried, live, refused. -/
inductive LiveState where
  | untried
  | live
  | refused
  deriving DecidableEq

/-- The readings of `entry_live_init`: the registers, the live table, and what became of the
three descriptors. -/
structure Machine where
  ttbr0 : UInt32
  ttbr1 : UInt32
  ttbcr : UInt32
  dacr : UInt32
  sctlr : UInt32
  prrr : UInt32
  l1 : UInt32
  installed : UInt32
  slotBefore : UInt32
  desc : UInt32
  desc2 : UInt32
  aliasRead : UInt32

/-- The words of `entry_os_state_record`; the last is not there on D13. -/
structure OsState where
  consOpsIndex : UInt32
  peKputc : UInt32
  disableSerialOutput : UInt32
  disableConsoleOutput : UInt32
  kernelDebuggerEntryCount : Option UInt32

/-- The statics of `entry_os_console_char`.  `g_os_tank_n` is the length of the tank. -/
structure Os where
  calls : UInt32
  vcCalls : UInt32
  serCalls : UInt32
  chars : UInt32
  lines : UInt32
  total : UInt32
  chunks : UInt32
  tankDropped : UInt32
  limited : UInt32
  first : Bool
  tank : List UInt8
  at_ : Nat
  end_ : Nat
  atBase : Nat

structure State where
  log : Log
  liveState : LiveState
  attempts : UInt32
  records : UInt32
  refusals : UInt32
  refuse : UInt32
  os : Os

variable (max : Nat)

def State.write (c : State) (records : List Record) : State :=
  { c with log := logRun max c.log records }

/-! ## The live channel -/

def entryLiveRefuse (c : State) (why : UInt32) : State :=
  { c with
    refuse := if c.refuse = 0 then why else c.refuse
    liveState := .refused }

/-- The memory type.  Where `SCTLR.TRE` is set it is the first encoding that PRRR has as
Strongly-ordered. -/
def liveAttr (m : Machine) : Option UInt32 :=
  if m.sctlr &&& 0x10000000 ≠ 0 then
    ((List.range 8).find? fun i => (m.prrr >>> UInt32.ofNat (2 * i)) &&& 3 = 0).map fun i =>
      let i := UInt32.ofNat i
      (((i >>> 1) &&& 1) <<< 3) ||| ((i &&& 1) <<< 2) ||| (((i >>> 2) &&& 1) <<< 12)
  else some 0

def liveHeader (m : Machine) (attempts attr : UInt32) : List Record :=
  [⟨ascii "xnu_live_console", 1⟩,
    ⟨ascii "xnu_live_attempts", attempts⟩,
    ⟨ascii "xnu_live_cap", entryLiveCap⟩,
    ⟨ascii "xnu_live_ttbr0", m.ttbr0⟩,
    ⟨ascii "xnu_live_ttbr1", m.ttbr1⟩,
    ⟨ascii "xnu_live_ttbcr", m.ttbcr⟩,
    ⟨ascii "xnu_live_dacr", m.dacr⟩,
    ⟨ascii "xnu_live_l1", m.l1⟩,
    ⟨ascii "xnu_live_installed", m.installed⟩,
    ⟨ascii "xnu_live_slot_before", m.slotBefore⟩,
    ⟨ascii "xnu_live_desc", m.desc⟩,
    ⟨ascii "xnu_live_desc2", m.desc2⟩,
    ⟨ascii "xnu_live_alias_read", m.aliasRead⟩,
    ⟨ascii "xnu_live_sctlr", m.sctlr⟩,
    ⟨ascii "xnu_live_prrr", m.prrr⟩,
    ⟨ascii "xnu_live_attr", attr⟩]

def entryLiveInit (c : State) (m : Machine) : State :=
  let c := { c with attempts := c.attempts + 1 }
  if m.l1 < 0x80000000 ∨ m.l1 &&& 0x3fff ≠ 0 then
    if c.attempts < 8 then c else entryLiveRefuse c 1
  else
    match liveAttr m with
    | none => entryLiveRefuse c 5
    | some attr =>
        if m.dacr &&& 3 = 0 then entryLiveRefuse c 3
        else if m.installed &&& 1 = 0 then entryLiveRefuse c 2
        else if c.log.ring.sig ≠ ramConsoleSig then entryLiveRefuse c 4
        else
          ({ c with liveState := .live, records := 0 } : State).write max
            (liveHeader m c.attempts attr)

def entryLiveWrite (c : State) (r : Record) (m : Machine) : State :=
  let c := if c.liveState = .untried then entryLiveInit max c m else c
  if c.liveState ≠ .live then { c with refusals := c.refusals + 1 }
  else if entryLiveCap ≤ c.records then
    let c :=
      if c.records = entryLiveCap then c.write max [⟨ascii "xnu_live_capped", c.records⟩] else c
    { c with records := c.records + 1 }
  else ({ c with records := c.records + 1 } : State).write max [r]

/-! ## The OS console -/

def osStateRecords (s : OsState) : List Record :=
  [⟨ascii "xnu_live_console_opsidx", s.consOpsIndex⟩,
    ⟨ascii "xnu_live_console_kputc", s.peKputc⟩,
    ⟨ascii "xnu_live_console_noserial", s.disableSerialOutput⟩,
    ⟨ascii "xnu_live_console_noconout", s.disableConsoleOutput⟩] ++
  (s.kernelDebuggerEntryCount.map fun n => ⟨ascii "xnu_live_console_dbgcnt", n⟩).toList

/-- The indices of the header's words, which stand before the data. -/
def sigIndex : Nat := 2 ^ 32 - 12
def sizeIndex : Nat := 2 ^ 32 - 4

/-- `data[i] = ch`, at a 32-bit index.  The last twelve indices are those of the header; nobody
reads its second word, which is kept with the data. -/
def Ring.put (r : Ring) (i : Nat) (ch : UInt8) : Ring :=
  if sizeIndex ≤ i then { r with size := setByte r.size (i - sizeIndex) ch }
  else if sigIndex ≤ i ∧ i < sigIndex + 4 then
    { r with sig := UInt32.ofNat (setByte r.sig.toNat (i - sigIndex) ch) }
  else { r with data := overlay r.data i [ch] }

/-- `data[i]`. -/
def Ring.get (r : Ring) (i : Nat) : UInt8 :=
  if sizeIndex ≤ i then byteAt r.size (i - sizeIndex)
  else if sigIndex ≤ i ∧ i < sigIndex + 4 then byteAt r.sig.toNat (i - sigIndex)
  else r.data i

/-- `data[g_os_at++] = ch`. -/
def State.store (c : State) (ch : UInt8) : State :=
  { c with
    log := { c.log with ring := c.log.ring.put c.os.at_ ch }
    os := { c.os with at_ := u32 (c.os.at_ + 1) } }

/-- The `n` turns of the loop that blanks the block. -/
def spaceFill (ring : Ring) (base : Nat) : Nat → Ring
  | 0 => ring
  | n + 1 => (spaceFill ring base n).put (u32 (base + n)) 32

/-- The size is published before the block is blanked. -/
def State.reserve (c : State) (block : Nat) : State :=
  let base := c.log.ring.size
  let ring := spaceFill { c.log.ring with size := u32 (base + block) } base block
  { c with
    log := { c.log with ring := ring }
    os := { c.os with at_ := base, end_ := u32 (base + block), atBase := base } }

def entryOsReserve (c : State) : Bool × State :=
  if c.log.ring.sig ≠ ramConsoleSig ∨ max < u32 (c.log.ring.size + entryOsBlock) then
    (false, ({ c with os := { c.os with limited := 2 } } : State).write max
      [⟨ascii "xnu_live_ostext_limited", 2⟩, ⟨ascii "xnu_live_ostext_chars", c.os.chars⟩])
  else
    let c := (c.reserve entryOsBlock).write max
      [⟨ascii "xnu_live_ostext_at", UInt32.ofNat c.log.ring.size⟩,
        ⟨ascii "xnu_live_ostext_block", UInt32.ofNat entryOsBlock⟩]
    (true, osMarker.foldl State.store c)

def State.take (c : State) (ch : UInt8) : State :=
  { c.store ch with os := { (c.store ch).os with total := c.os.total + 1 } }

/-- The loop that empties the tank; `false` when the block is full before its end. -/
def emptyTank (c : State) : List UInt8 → Bool × State
  | [] => (true, c)
  | ch :: tank =>
      if c.os.end_ ≤ c.os.at_ then
        (false, { c with os := { c.os with
          tankDropped := c.os.tankDropped + UInt32.ofNat (tank.length + 1) } })
      else emptyTank (c.take ch) tank

def osHeal (c : State) : State :=
  if entryOsHeal ≤ sub32 c.os.at_ c.os.atBase then
    let os := { c.os with atBase := c.os.at_, chunks := c.os.chunks + 1 }
    let size := if c.log.ring.size < c.os.end_ then c.os.end_ else c.log.ring.size
    let ring := { c.log.ring with size := size }
    ({ c with log := { c.log with ring := ring }, os := os } : State).write max
      [⟨ascii "xnu_live_ostext_heals", os.chunks⟩, ⟨ascii "xnu_live_ostext_chars", os.chars⟩,
        ⟨ascii "xnu_live_ostext_total", os.total⟩]
  else c

def osText (c : State) (ch : UInt8) : State :=
  if c.os.end_ ≤ c.os.at_ then
    if c.os.limited = 0 then
      ({ c with os := { c.os with limited := 1 } } : State).write max
        [⟨ascii "xnu_live_ostext_limited", 1⟩, ⟨ascii "xnu_live_ostext_chars", c.os.chars⟩,
          ⟨ascii "xnu_live_ostext_lines", c.os.lines⟩]
    else c
  else osHeal max (c.take ch)

def osCount (os : Os) (ch : UInt8) (which : UInt32) : Os :=
  { os with
    calls := os.calls + 1
    vcCalls := if which = 1 then os.vcCalls + 1 else os.vcCalls
    serCalls := if which = 1 then os.serCalls else os.serCalls + 1
    chars := os.chars + 1
    lines := if ch = 10 then os.lines + 1 else os.lines }

/-- What a refused reservation does with the tank. -/
def State.dropTank (c : State) : State :=
  { c with os := { c.os with
    tankDropped := c.os.tankDropped + UInt32.ofNat c.os.tank.length
    tank := [] } }

def osLive (c : State) (ch : UInt8) (s : OsState) : State :=
  let c :=
    if c.os.first then c
    else ({ c with os := { c.os with first := true } } : State).write max
      (osStateRecords s ++ [⟨ascii "xnu_live_ostext_tank", UInt32.ofNat c.os.tank.length⟩])
  let (reserved, c) := if c.os.at_ = 0 then entryOsReserve max c else (true, c)
  if reserved then
    let (emptied, c) := emptyTank { c with os := { c.os with tank := [] } } c.os.tank
    if emptied then osText max c ch else c
  else c.dropTank

def entryOsConsoleChar (c : State) (ch : UInt8) (which : UInt32) (s : OsState) : State :=
  let c := { c with os := osCount c.os ch which }
  if c.liveState ≠ .live then
    if c.os.tank.length < entryOsTank then
      { c with os := { c.os with tank := c.os.tank ++ [ch] } }
    else { c with os := { c.os with tankDropped := c.os.tankDropped + 1 } }
  else osLive max c ch s

/-! ## Runs -/

inductive Call where
  | kv (r : Record)
  | live (r : Record) (m : Machine)
  | os (ch : UInt8) (which : UInt32) (s : OsState)

def State.call (c : State) : Call → State
  | .kv r => c.write max [r]
  | .live r m => entryLiveWrite max c r m
  | .os ch which s => entryOsConsoleChar max c ch which s

/-- A call is answered by whether the channel was live when it came. -/
def answer (c : State) (call : Call) : Bool × State :=
  (c.liveState = .live, c.call max call)

def boot (ring : Ring) (pending : Option Probe) : State where
  log := ⟨ring, pending, []⟩
  liveState := .untried
  attempts := 0
  records := 0
  refusals := 0
  refuse := 0
  os :=
    { calls := 0, vcCalls := 0, serCalls := 0, chars := 0, lines := 0, total := 0, chunks := 0
      tankDropped := 0, limited := 0, first := false, tank := [], at_ := 0, end_ := 0, atBase := 0 }

end Stage90.Console
