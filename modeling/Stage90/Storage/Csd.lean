import Stage90.Lib.Masks

/-!
# The CSD and the data timeout

`st_send_csd` of `entry_storage.c`, what it carries and publishes, and the bodies of
`st_send_ext_csd`, `st_read_single_block` and `st_write_single_block` that compute a data timeout, or
a capacity, from the carried words.
-/

set_option autoImplicit false

namespace Stage90.Storage

/-- Four words: those of `RESPONSE`, lowest address first, or those of a response, highest first. -/
abbrev Quad := Fin 4 → UInt32

/-- A byte of `RESPONSE`. -/
def stRead8 (r : Quad) (off : Nat) : UInt32 :=
  (r (Fin.ofNat 4 (off / 4)) >>> UInt32.ofNat (8 * (off % 4))) &&& 0xff

/-- `UNSTUFF_BITS` of the vendor's driver. -/
def unstuffBits (resp : Quad) (start size : Nat) : UInt32 :=
  let mask := (if size < 32 then (1 : UInt32) <<< UInt32.ofNat size else 0) - 1
  let off := 3 - start / 32
  let shft := start % 32
  let res := resp (Fin.ofNat 4 off) >>> UInt32.ofNat shft
  let res :=
    if 32 < size + shft then res ||| resp (Fin.ofNat 4 (off - 1)) <<< UInt32.ofNat ((32 - shft) % 32)
    else res
  res &&& mask

/-! ## The CSD -/

/-- `st_csd_words`: each word with the byte below it. -/
def csdWords (r : Quad) : Quad
  | 0 => (r 3 <<< 8) ||| stRead8 r 11
  | 1 => (r 2 <<< 8) ||| stRead8 r 7
  | 2 => (r 1 <<< 8) ||| stRead8 r 3
  | 3 => r 0 <<< 8

/-- The fields that `st_send_csd` publishes. -/
structure CsdFields where
  structure_ : UInt32
  mmcaVsn : UInt32
  cmdclass : UInt32
  readBlkbits : UInt32
  cSizeMult : UInt32
  cSize : UInt32
  capacityBlocks : UInt32

def csdFields (a : Quad) : CsdFields :=
  let cSize := ((a 2 >>> 30) ||| (a 1 <<< 2)) &&& 0xfff
  { structure_ := (a 0 >>> 30) &&& 0x3
    mmcaVsn := (a 0 >>> 26) &&& 0xf
    cmdclass := (a 1 >>> 20) &&& 0xfff
    readBlkbits := (a 1 >>> 16) &&& 0xf
    cSizeMult := (a 2 >>> 15) &&& 0x7
    cSize
    capacityBlocks := (1 + cSize) <<< (((a 2 >>> 15) &&& 0x7) + 2) }

/-- The capacity of `st_read_single_block`'s cross-check. -/
structure CsdCapacity where
  cz : UInt32
  cm : UInt32
  csdCap : UInt32

/-- Taken for a CSD of version 0 only. -/
def capacityCheck (words : Quad) (valid : Bool) : Option CsdCapacity :=
  if valid ∧ (words 0 >>> 30) &&& 0x3 = 0 then
    let cz := ((words 2 &&& 0x3ff) <<< 2) ||| ((words 1 >>> 30) &&& 0x3)
    let cm := (words 1 >>> 15) &&& 0x7
    some ⟨cz, cm, (cz + 1) <<< (cm + 2)⟩
  else none

/-! ## The timeout -/

def stTaccExp : List UInt32 := [1, 10, 100, 1000, 10000, 100000, 1000000, 10000000]

def stTaccMant : List UInt32 := [0, 10, 12, 13, 15, 20, 25, 30, 35, 40, 45, 50, 55, 60, 70, 80]

def stExtMmcMult : UInt32 := 10
def stSetInitClock : UInt32 := 400000
def stSdhciToutBaseDivisor : UInt32 := 4000
def stSdhciToutStep0Numer : UInt32 := ((1 : UInt32) <<< (13 : UInt32)) * 1000

/-- `tacc_ns` from a mantissa and an exponent. -/
def taccNs (m e : UInt32) : UInt32 :=
  (stTaccExp.getD e.toNat 0 * stTaccMant.getD m.toNat 0 + 9) / 10

/-- The loop that doubles the bound, at most fifteen times. -/
def countUp : Nat → UInt32 → UInt32 → Nat → Nat
  | 0, _, _, count => count
  | fuel + 1, targetUs, step0, count =>
      if step0 < targetUs then
        if count + 1 ≥ 0xf then count + 1 else countUp fuel targetUs (step0 <<< 1) (count + 1)
      else count

structure DataTimeout where
  m : UInt32
  e : UInt32
  nsac : UInt32
  targetUs : UInt32
  count : Nat

/-- The computation of the count.  Without a CSD all terms are zero. -/
def dataTimeout (words : Quad) (valid : Bool) (countMax : Nat) : DataTimeout :=
  let m := if valid then (words 0 >>> 16) &&& 0xf else 0
  let e := if valid then (words 0 >>> 8) &&& 0x7 else 0
  let nsac := if valid then (words 0 >>> 8) &&& 0xff else 0
  let tacc := if valid then taccNs m e else 0
  let clks := nsac * 100
  let targetUs := (tacc * stExtMmcMult + clks + 999) / 1000
  let step0 := stSdhciToutStep0Numer / (stSetInitClock / stSdhciToutBaseDivisor)
  let count := countUp 15 targetUs step0 0
  { m, e, nsac, targetUs, count := if count ≥ 0xf then countMax else count }

/-- `host_use_reserved_max` is one on this host. -/
def stSendExtCsdTimeout (words : Quad) (valid : Bool) : DataTimeout :=
  let hostUseReservedMax : UInt32 := 1
  dataTimeout words valid (if hostUseReservedMax ≠ 0 then 0xf else 0xe)

def stReadSingleBlockTimeout (words : Quad) (valid : Bool) : DataTimeout := dataTimeout words valid 0xf

def stWriteSingleBlockTimeout (words : Quad) (valid : Bool) : DataTimeout := dataTimeout words valid 0xf

end Stage90.Storage
