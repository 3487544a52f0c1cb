import Mathlib.Data.UInt

/-!
# The ladder's single-block read

`st_read_single_block` of `entry_storage.c`, at the rungs from 60 on, and the door over
it.  The card is what the ladder reads through the controller's registers: which words
a sector holds, and what becomes of each call.

`calls`, `origin` and `decoded` are not in the source.  They number the calls, record
which sector each word of the buffer was moved from, and list the words a decode has
read with the sector it reads them for.
-/

set_option autoImplicit false

namespace Stage90.Storage

/-- The 128 words of `st_read_block`. -/
abbrev Words := Fin 128 → UInt32

/-- What a call of `st_read_single_block` meets: the precondition refusing, the data loop
running out of ticks after some words, or all of them. -/
inductive Outcome where
  | gated
  | timesOut (words : Fin 128)
  | delivers
  deriving DecidableEq

def Outcome.words : Outcome → Nat
  | .gated => 0
  | .timesOut words => words
  | .delivers => 128

/-- `beyond i` is what a read of word `i` past the buffer finds. -/
structure Card where
  sector : UInt32 → Words
  outcome : Nat → Outcome
  beyond : Nat → UInt32

structure Decode where
  word : Nat
  wanted : UInt32
  found : Option UInt32
  deriving DecidableEq

structure Gpt where
  entryLba : UInt32
  nentries : UInt32
  entrySize : UInt32
  arrayNsec : UInt32
  partSector : UInt32
  bestExtent : UInt32
  dataSector : UInt32
  scanSector : UInt32
  dataType : Fin 4 → UInt32
  dataName : Fin 4 → UInt32

structure Ladder where
  readBlock : Words
  readLba : UInt32
  readCount : UInt32
  driverLba : UInt32
  driverLbaSet : UInt32
  driverGet : UInt32
  extSecCount : UInt32
  gpt : Gpt
  calls : Nat
  origin : Fin 128 → Option UInt32
  decoded : List Decode

def stGptHeaderSector : UInt32 := 1
def stFsSbSectorOff : UInt32 := 2

def stSectorForRead (gpt : Gpt) (ordinal : UInt32) : UInt32 :=
  if ordinal ≥ 1 then
    if ordinal ≤ gpt.arrayNsec then gpt.entryLba + (ordinal - 1)
    else gpt.dataSector + stFsSbSectorOff
  else stGptHeaderSector

def nextLba (s : Ladder) : UInt32 :=
  if s.driverLbaSet ≠ 0 then s.driverLba else stSectorForRead s.gpt s.readCount

/-- The data loop moves `words` words of `lba` and leaves the rest of the buffer. -/
def moveWords (card : Card) (lba : UInt32) (words : Nat) (s : Ladder) : Ladder :=
  { s with
    readBlock := fun i => if i < words then card.sector lba i else s.readBlock i
    origin := fun i => if i < words then some lba else s.origin i }

def stReadSingleBlock (card : Card) (s : Ladder) : Ladder :=
  let outcome := card.outcome s.calls
  if outcome = .gated then { s with calls := s.calls + 1 }
  else
    let lba := nextLba s
    moveWords card lba outcome.words
      { s with
        calls := s.calls + 1
        driverGet := s.driverLbaSet
        readLba := lba
        driverLbaSet := 0
        readCount := s.readCount + 1 }

def entryStorageDriverRead (card : Card) (s : Ladder) (lba : UInt32) : Ladder :=
  let s := stReadSingleBlock card { s with driverLba := lba, driverLbaSet := 1 }
  { s with driverLbaSet := 0 }

section Read
variable (card : Card) (s : Ladder)

theorem stReadSingleBlock_gated (gated : card.outcome s.calls = .gated) :
    stReadSingleBlock card s = { s with calls := s.calls + 1 } :=
  if_pos gated

/-- A call past the gate addresses `nextLba`, advances the ordinal, and moves the words its
outcome allows. -/
theorem stReadSingleBlock_sent (sent : card.outcome s.calls ≠ .gated) :
    stReadSingleBlock card s =
      moveWords card (nextLba s) (card.outcome s.calls).words
        { s with
          calls := s.calls + 1
          driverGet := s.driverLbaSet
          readLba := nextLba s
          driverLbaSet := 0
          readCount := s.readCount + 1 } :=
  if_neg sent

@[simp] theorem stReadSingleBlock_calls : (stReadSingleBlock card s).calls = s.calls + 1 := by
  by_cases gated : card.outcome s.calls = .gated
  · rw [stReadSingleBlock_gated card s gated]
  · rw [stReadSingleBlock_sent card s gated]
    rfl

@[simp] theorem stReadSingleBlock_gpt : (stReadSingleBlock card s).gpt = s.gpt := by
  by_cases gated : card.outcome s.calls = .gated
  · rw [stReadSingleBlock_gated card s gated]
  · rw [stReadSingleBlock_sent card s gated]
    rfl

@[simp] theorem stReadSingleBlock_extSecCount :
    (stReadSingleBlock card s).extSecCount = s.extSecCount := by
  by_cases gated : card.outcome s.calls = .gated
  · rw [stReadSingleBlock_gated card s gated]
  · rw [stReadSingleBlock_sent card s gated]
    rfl

theorem moveWords_all (lba : UInt32) :
    moveWords card lba 128 s = { s with readBlock := card.sector lba, origin := fun _ => some lba } := by
  simp only [moveWords, Fin.is_lt, if_true]

theorem stReadSingleBlock_delivers (delivers : card.outcome s.calls = .delivers) :
    (stReadSingleBlock card s).readBlock = card.sector (nextLba s) := by
  rw [stReadSingleBlock_sent card s (by rw [delivers]; exact Outcome.noConfusion), delivers]
  simp only [Outcome.words, moveWords_all]

@[simp] theorem entryStorageDriverRead_calls (lba : UInt32) :
    (entryStorageDriverRead card s lba).calls = s.calls + 1 :=
  stReadSingleBlock_calls card _

theorem entryStorageDriverRead_delivers (lba : UInt32)
    (delivers : card.outcome s.calls = .delivers) :
    (entryStorageDriverRead card s lba).readBlock = card.sector lba := by
  refine (stReadSingleBlock_delivers card { s with driverLba := lba, driverLbaSet := 1 }
    delivers).trans ?_
  congr 1

end Read

end Stage90.Storage
