import Mathlib.Data.List.Induction
import Stage90.Usb.Enum
import Stage90.Usb.Stream

/-!
# The stream, the enumeration and the host

The events that share EP1-IN: the log grows, either module polls, the core ends a transfer.
`ENDPTFLUSH` cancels what is primed and sets no completion bit, and a queue head that was
re-initialised no longer links to the stream's descriptor.  The host keeps what it accepted.
-/

set_option autoImplicit false

namespace Stage90.Usb

open Stage90.Lib Stage90.Console

structure Sys where
  feed : Feed
  enum : Enum
  /-- The bytes that the host has accepted. -/
  host : List UInt8

def Endpoint.act (ep : Endpoint) : Action → Endpoint
  | .write .endptFlush bits =>
      if bits &&& epBit 1 true ≠ 0 then { ep with primed := false } else ep
  | .write .endptComplete bits =>
      if bits &&& epBit 1 true ≠ 0 then { ep with complete := false } else ep
  | .nuke .in1 => { ep with linked := false }
  -- the enumeration's own descriptor
  | .prime .in1 _ => { ep with linked := false, primed := true }
  | _ => ep

def Endpoint.canComplete (ep : Endpoint) : Bool := ep.linked && ep.primed && ep.token.active

inductive Event where
  | append (text : List UInt8)
  | streamPoll (gate : Gate)
  | enumPoll (reading : Reading)
  /-- The core reports what remains of the offered length. -/
  | transfer (remaining : Nat)

variable (log : Ring → Record → List UInt8) (b : Build)

def Feed.publish (f : Feed) (records : List Record) : Feed :=
  { f with ring := records.foldl (fun r record => appendText r (log r record)) f.ring }

def Sys.transfer (s : Sys) (remaining : Nat) : Sys :=
  if s.feed.ep.canComplete ∧ remaining ≤ s.feed.ep.token.total then
    { s with
      feed := { s.feed with ep := { s.feed.ep with
        primed := false
        token := ⟨remaining, false⟩
        complete := true } }
      host := s.host ++
        (List.range (s.feed.ep.token.total - remaining)).map s.feed.stream.buf }
  else s

def Sys.enumPoll (s : Sys) (r : Reading) : Sys :=
  let (e, actions, records) := entryUsbEnumPoll b s.enum r
  { s with
    feed := ({ s.feed with ep := actions.foldl Endpoint.act s.feed.ep } : Feed).publish log records
    enum := e }

def Sys.step (s : Sys) : Event → Sys
  | .append text => { s with feed := { s.feed with ring := appendText s.feed.ring text } }
  | .streamPoll gate => { s with feed := entryUsbStreamPoll log s.feed gate }
  | .enumPoll reading => s.enumPoll log b reading
  | .transfer remaining => s.transfer remaining

def Sys.run (s : Sys) (events : List Event) : Sys := events.foldl (Sys.step log b) s

def Sys.boot (ring : Ring) : Sys where
  feed :=
    { ring := ring
      stream := ⟨fun _ => 0, 0, 0, false, 0, 0, .idle⟩
      ep := ⟨false, false, ⟨0, false⟩, false⟩ }
  enum := .boot
  host := []

theorem publishAll_appends (f : Feed) (records : List Record) : f.Appends (f.publish log records) := by
  rw [Feed.publish]
  induction records using List.reverseRecOn with
  | nil => exact .refl f
  | append_singleton records r ih =>
      rw [List.foldl_append, List.foldl_cons, List.foldl_nil]
      exact ih.trans (append_appends { f with ring := _ } _)

end Stage90.Usb
