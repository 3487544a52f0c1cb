import Stage90.MachO.LoaderRun

/-!
# What the loader reads and writes

The accesses of the command loop, in the order in which the source makes them, and when all of
them stay in the image and in the window.
-/

set_option autoImplicit false

namespace Stage90.MachO

open Stage90.Lib

inductive AccessKind where
  | read
  | write
  deriving DecidableEq

/-- `size` bytes from `start` on. -/
structure Access where
  kind : AccessKind
  start : UInt32
  size : Nat

def Access.Covers (x : Access) (a : UInt32) : Prop := (a - x.start).toNat < x.size

/-- Commands and contents are read in the image, segments are written in the window. -/
def Access.Contained (x : Access) (env : Env) : Prop :=
  ∀ a, x.Covers a →
    match x.kind with
    | .read => a - env.machoBase < env.machoSize
    | .write => loadWindowBase ≤ a ∧ a < loadWindowEnd

/-! ## The accesses of a turn -/

/-- A word of the command at `p`. -/
def field (p offset : UInt32) : Access := ⟨.read, p + offset, 4⟩

/-- The bytes that `log_puts` reads: up to a zero, or until the console has no room left. -/
def putsReads (mem : Mem) (p : UInt32) : Nat → Nat
  | 0 => 1
  | room + 1 => if mem p = 0 then 1 else putsReads mem (p + 1) room + 1

def printName (mem : Mem) (p : UInt32) (room : Nat) : Access :=
  ⟨.read, p + 8, putsReads mem (p + 8) room⟩

/-- The bytes that `seg_name_eq` reads. -/
def nameReads (mem : Mem) (p : UInt32) (target : List UInt8) : Nat :=
  go 0 16
where
  go (i : Nat) : Nat → Nat
    | 0 => 0
    | left + 1 =>
        let c := mem (p + 8 + UInt32.ofNat i)
        if c ≠ target.getD i 0 then 1
        else if c = 0 then 1
        else go (i + 1) left + 1

def compareName (mem : Mem) (p : UInt32) (target : List UInt8) : Access :=
  ⟨.read, p + 8, nameReads mem p target⟩

def copyAccesses (env : Env) (seg : Segment) : List Access :=
  let copySize := seg.filesize
  let zeroSize := seg.vmsize - seg.filesize
  (if 0 < copySize then
    [⟨.read, env.machoBase + seg.fileoff, copySize.toNat⟩, ⟨.write, seg.vmaddr, copySize.toNat⟩]
  else []) ++
    (if 0 < zeroSize then [⟨.write, seg.vmaddr + copySize, zeroSize.toNat⟩] else [])

def loadSegmentAccesses (env : Env) (room : Nat) (mem : Mem) (p : UInt32) (r : Result) :
    List Access :=
  let seg := segmentAt mem p
  field p 28 ::
    if seg.vmsize = 0 then []
    else
      field p 24 ::
        if !env.live then [printName mem p room]
        else if seg.vmaddr < loadWindowBase ∨ loadWindowEnd ≤ seg.vmaddr then
          [printName mem p room]
        else if loadWindowEnd < seg.vmaddr + seg.vmsize then [printName mem p room]
        else
          field p 32 :: field p 36 ::
            (copyAccesses env seg ++ [printName (loadSegment env mem seg r).1 p room])

def recordSegmentAccesses (mem : Mem) (p : UInt32) : List Access :=
  compareName mem p textName ::
    if segNameEq mem p textName then [field p 24, field p 28]
    else
      compareName mem p dataName ::
        if segNameEq mem p dataName then [field p 24, field p 28]
        else
          compareName mem p linkeditName ::
            if segNameEq mem p linkeditName then [field p 24] else []

/-- `room` is what the console still takes when the turn prints the name. -/
def turnAccesses (env : Env) (room : Nat) (s : LoadState) : List Access :=
  let lc := s.lc env
  field lc 0 ::
    ((if read32 s.mem lc = lcSegment then
        loadSegmentAccesses env room s.mem lc s.r ++
          recordSegmentAccesses (loadSegment env s.mem (segmentAt s.mem lc) s.r).1 lc
      else if read32 s.mem lc = lcUnixThread then
        field lc 8 :: if read32 s.mem (lc + 8) = armThreadState then [field lc 76] else []
      else []) ++
      [field lc 4])

def commandLoopAccesses (env : Env) (room : UInt32 → Nat) : Nat → LoadState → List Access
  | 0, _ => []
  | turns + 1, s =>
      if s.more env then
        turnAccesses env (room s.i) s ++ commandLoopAccesses env room turns (loadCommand env s)
      else []

def runAccesses (env : Env) (room : UInt32 → Nat) (mem : Mem) : List Access :=
  if read32 mem env.machoBase ≠ mhMagic then []
  else commandLoopAccesses env room (2 ^ 32) (.init env mem)

/-! ## Contained accesses -/

section Contained
variable {env : Env} {start offset : UInt32} {n : Nat}

theorem read_contained_iff (some_ : 0 < n) :
    (Access.mk .read (env.machoBase + offset) n).Contained env ↔
      offset.toNat + n ≤ env.machoSize.toNat :=
  range_within_iff some_

def loadWindowSize : UInt32 := 0x100000

theorem window_iff (a : UInt32) :
    (loadWindowBase ≤ a ∧ a < loadWindowEnd) ↔ a - loadWindowBase < loadWindowSize := by
  have below := a.toNat_lt
  have base : loadWindowBase.toNat = 2147483648 := rfl
  have size : loadWindowSize.toNat = 1048576 := rfl
  have end_ : loadWindowEnd.toNat = 2148532224 := rfl
  rw [UInt32.le_iff_toNat_le, UInt32.lt_iff_toNat_lt, UInt32.lt_iff_toNat_lt, UInt32.toNat_sub]
  omega

theorem write_contained_iff (some_ : 0 < n) :
    (Access.mk .write start n).Contained env ↔
      (start - loadWindowBase).toNat + n ≤ loadWindowSize.toNat := by
  have split : loadWindowBase + (start - loadWindowBase) = start := by
    rw [UInt32.add_comm, UInt32.sub_add_cancel]
  have range := @range_within_iff loadWindowBase (start - loadWindowBase) loadWindowSize n some_
  rw [split] at range
  rw [← range]
  constructor
  · intro contained a inside
    exact (window_iff a).mp (contained a inside)
  · intro contained a inside
    exact (window_iff a).mpr (contained a inside)

/-- Bytes `k` to `k + n` of the command that lies `lcOffset` behind the header. -/
theorem command_contained {lcOffset : UInt32} (small : env.machoSize.toNat ≤ 2 ^ 31)
    (starts : lcOffset.toNat < env.machoSize.toNat) (k : UInt32) (near : k.toNat ≤ 76)
    (some_ : 0 < n) :
    (Access.mk .read (env.machoBase + lcOffset + k) n).Contained env ↔
      lcOffset.toNat + k.toNat + n ≤ env.machoSize.toNat := by
  have sum : (lcOffset + k).toNat = lcOffset.toNat + k.toNat := by
    rw [UInt32.toNat_add]
    omega
  rw [UInt32.add_assoc, read_contained_iff some_, sum]

end Contained

theorem putsReads_pos (mem : Mem) (p : UInt32) (room : Nat) : 0 < putsReads mem p room := by
  cases room with
  | zero => exact Nat.one_pos
  | succ room =>
      rw [putsReads]
      split
      · exact Nat.one_pos
      · exact Nat.succ_pos _

theorem nameReads_bounds (mem : Mem) (p : UInt32) (target : List UInt8) :
    0 < nameReads mem p target ∧ nameReads mem p target ≤ 16 := by
  have upper : ∀ left i, nameReads.go mem p target i left ≤ left := by
    intro left
    induction left with
    | zero => intro i; exact Nat.le_refl 0
    | succ left ih =>
        intro i
        rw [nameReads.go]
        split
        · omega
        · split
          · omega
          · exact Nat.succ_le_succ (ih (i + 1))
  refine ⟨?_, upper 16 0⟩
  rw [nameReads, nameReads.go]
  split
  · exact Nat.one_pos
  · split
    · exact Nat.one_pos
    · exact Nat.succ_pos _

/-! ## When a turn stays inside -/

/-- The segment gets past the checks of `load_segment`. -/
structure Passes (env : Env) (seg : Segment) : Prop where
  some_ : seg.vmsize ≠ 0
  live : env.live = true
  base : loadWindowBase ≤ seg.vmaddr
  start : seg.vmaddr < loadWindowEnd
  end_ : seg.vmaddr + seg.vmsize ≤ loadWindowEnd

/-- The sizes that the checks leave open: content no longer than the segment, which ends before
the last address. -/
structure Sizes (seg : Segment) : Prop where
  content : seg.filesize ≤ seg.vmsize
  ends : seg.vmaddr.toNat + seg.vmsize.toNat < 2 ^ 32

section Segment
variable {env : Env} {seg : Segment}

theorem loadSegment_placed (passes : Passes env seg) (mem : Mem) (r : Result) :
    (loadSegment env mem seg r).1 = placed env mem seg := by
  have lower : ¬ (seg.vmaddr < loadWindowBase ∨ loadWindowEnd ≤ seg.vmaddr) := by
    rw [not_or, UInt32.not_lt, UInt32.not_le]
    exact ⟨passes.base, passes.start⟩
  rw [loadSegment, if_neg passes.some_]
  dsimp only
  rw [passes.live, Bool.not_true, if_neg Bool.false_ne_true, if_neg lower,
    if_neg (UInt32.not_lt.mpr passes.end_), memcpy_guard, memset_guard]
  rfl

/-- The copy and the fill stay in the window only if the sizes make sense: otherwise they go round
the last address. -/
theorem copyAccesses_contained_iff (passes : Passes env seg) :
    (∀ x ∈ copyAccesses env seg, x.Contained env) ↔
      Sizes seg ∧ (0 < seg.filesize →
        seg.fileoff.toNat + seg.filesize.toNat ≤ env.machoSize.toNat) := by
  obtain ⟨some_, -, base, start, end_⟩ := passes
  have size : 0 < seg.vmsize.toNat := by
    apply Nat.pos_of_ne_zero
    intro none_
    exact some_ (UInt32.toNat_inj.mp none_)
  have base_eq : loadWindowBase.toNat = 2147483648 := rfl
  have size_eq : loadWindowSize.toNat = 1048576 := rfl
  have end_eq : loadWindowEnd.toNat = 2148532224 := rfl
  have vmaddr := seg.vmaddr.toNat_lt
  have vmsize := seg.vmsize.toNat_lt
  have filesize := seg.filesize.toNat_lt
  rw [UInt32.le_iff_toNat_le] at base
  rw [UInt32.lt_iff_toNat_lt] at start
  rw [UInt32.le_iff_toNat_le, UInt32.toNat_add] at end_
  rw [copyAccesses]
  rw [List.forall_mem_append]
  by_cases copies : 0 < seg.filesize
  · have copied := copies
    rw [UInt32.lt_iff_toNat_lt, UInt32.toNat_zero] at copied
    rw [if_pos copies, List.forall_mem_cons, List.forall_mem_singleton, read_contained_iff copied,
      write_contained_iff copied, UInt32.toNat_sub]
    by_cases fills : 0 < seg.vmsize - seg.filesize
    · have filled := fills
      rw [UInt32.lt_iff_toNat_lt, UInt32.toNat_zero] at filled
      rw [if_pos fills, List.forall_mem_singleton, write_contained_iff filled]
      rw [UInt32.toNat_sub] at filled ⊢
      rw [UInt32.toNat_sub, UInt32.toNat_add]
      constructor
      · intro ⟨⟨reads, copy⟩, fill⟩
        refine ⟨⟨?_, ?_⟩, fun _ => reads⟩
        · rw [UInt32.le_iff_toNat_le]
          omega
        · omega
      · intro ⟨⟨content, ends⟩, reads⟩
        rw [UInt32.le_iff_toNat_le] at content
        refine ⟨⟨reads copies, ?_⟩, ?_⟩
        · omega
        · omega
    · have same := eq_zero_of_not_pos fills
      have equal : seg.vmsize.toNat = seg.filesize.toNat := by
        have zero := congrArg UInt32.toNat same
        rw [UInt32.toNat_sub, UInt32.toNat_zero] at zero
        omega
      rw [if_neg fills]
      constructor
      · intro ⟨⟨reads, copy⟩, _⟩
        refine ⟨⟨?_, ?_⟩, fun _ => reads⟩
        · rw [UInt32.le_iff_toNat_le]
          omega
        · omega
      · intro ⟨⟨_, ends⟩, reads⟩
        refine ⟨⟨reads copies, ?_⟩, fun x none_ => absurd none_ List.not_mem_nil⟩
        omega
  · have zero : seg.filesize = 0 := eq_zero_of_not_pos copies
    have fills : 0 < seg.vmsize - 0 := by
      rw [UInt32.sub_zero, UInt32.lt_iff_toNat_lt]
      exact size
    rw [if_neg copies, zero, if_pos fills, List.forall_mem_singleton,
      write_contained_iff (UInt32.lt_iff_toNat_lt.mp fills), UInt32.sub_zero, UInt32.add_zero,
      UInt32.toNat_sub]
    constructor
    · intro ⟨_, fill⟩
      refine ⟨⟨?_, ?_⟩, fun some_ => absurd some_ (by decide)⟩
      · rw [zero]
        exact UInt32.zero_le
      · omega
    · intro ⟨⟨_, ends⟩, _⟩
      refine ⟨fun x none_ => absurd none_ List.not_mem_nil, ?_⟩
      omega

end Segment

/-- What a segment command must be like, `lcOffset` behind the header. -/
structure SoundSegment (env : Env) (room : Nat) (mem : Mem) (lcOffset : UInt32) (seg : Segment) :
    Prop where
  fields : lcOffset.toNat + 32 ≤ env.machoSize.toNat
  skipped : seg.vmsize ≠ 0 → ¬ Passes env seg →
    lcOffset.toNat + 8 + putsReads mem (env.machoBase + lcOffset + 8) room ≤ env.machoSize.toNat
  loaded : Passes env seg →
    lcOffset.toNat + 40 ≤ env.machoSize.toNat ∧
      (Sizes seg ∧
        (0 < seg.filesize → seg.fileoff.toNat + seg.filesize.toNat ≤ env.machoSize.toNat)) ∧
      lcOffset.toNat + 8 +
        putsReads (placed env mem seg) (env.machoBase + lcOffset + 8) room ≤ env.machoSize.toNat

structure Sound (env : Env) (room : Nat) (s : LoadState) : Prop where
  command : s.lcOffset.toNat + 8 ≤ env.machoSize.toNat
  segment : read32 s.mem (s.lc env) = lcSegment →
    SoundSegment env room s.mem s.lcOffset (segmentAt s.mem (s.lc env))
  thread : read32 s.mem (s.lc env) = lcUnixThread →
    s.lcOffset.toNat + 12 ≤ env.machoSize.toNat ∧
      (read32 s.mem (s.lc env + 8) = armThreadState →
        s.lcOffset.toNat + 80 ≤ env.machoSize.toNat)

section Turn
variable {env : Env} {room : Nat} {lcOffset : UInt32} (small : env.machoSize.toNat ≤ 2 ^ 31)
  (starts : lcOffset.toNat < env.machoSize.toNat)
include small starts

theorem field_contained_iff (k : UInt32) (near : k.toNat ≤ 76) :
    (field (env.machoBase + lcOffset) k).Contained env ↔
      lcOffset.toNat + k.toNat + 4 ≤ env.machoSize.toNat :=
  command_contained small starts k near (by decide)

theorem printName_contained_iff (mem : Mem) :
    (printName mem (env.machoBase + lcOffset) room).Contained env ↔
      lcOffset.toNat + 8 + putsReads mem (env.machoBase + lcOffset + 8) room ≤
        env.machoSize.toNat :=
  command_contained small starts 8 (by decide) (putsReads_pos _ _ _)

theorem recordSegmentAccesses_contained (inside : lcOffset.toNat + 32 ≤ env.machoSize.toNat)
    (mem : Mem) :
    ∀ x ∈ recordSegmentAccesses mem (env.machoBase + lcOffset), x.Contained env := by
  have compare (target : List UInt8) :
      (compareName mem (env.machoBase + lcOffset) target).Contained env := by
    have bounds := nameReads_bounds mem (env.machoBase + lcOffset) target
    apply (command_contained small starts 8 (by decide) bounds.1).mpr
    have eight : (8 : UInt32).toNat = 8 := rfl
    omega
  have vmaddr : (field (env.machoBase + lcOffset) 24).Contained env :=
    (field_contained_iff small starts 24 (by decide)).mpr (Nat.le_trans (Nat.le_add_right _ 4) inside)
  have vmsize : (field (env.machoBase + lcOffset) 28).Contained env :=
    (field_contained_iff small starts 28 (by decide)).mpr inside
  have none_ : ∀ x ∈ ([] : List Access), x.Contained env :=
    fun x there => absurd there List.not_mem_nil
  have both : ∀ x ∈ [field (env.machoBase + lcOffset) 24, field (env.machoBase + lcOffset) 28],
      x.Contained env :=
    List.forall_mem_cons.mpr ⟨vmaddr, List.forall_mem_cons.mpr ⟨vmsize, none_⟩⟩
  rw [recordSegmentAccesses, List.forall_mem_cons]
  refine ⟨compare textName, ?_⟩
  split
  · exact both
  · rw [List.forall_mem_cons]
    refine ⟨compare dataName, ?_⟩
    split
    · exact both
    · rw [List.forall_mem_cons]
      refine ⟨compare linkeditName, ?_⟩
      split
      · exact List.forall_mem_cons.mpr ⟨vmaddr, none_⟩
      · exact none_

theorem loadSegmentAccesses_contained_iff (mem : Mem) (r : Result) :
    (∀ x ∈ loadSegmentAccesses env room mem (env.machoBase + lcOffset) r, x.Contained env) ↔
      SoundSegment env room mem lcOffset (segmentAt mem (env.machoBase + lcOffset)) := by
  generalize reads : segmentAt mem (env.machoBase + lcOffset) = seg
  have vmsize := field_contained_iff small starts 28 (by decide)
  have vmaddr := field_contained_iff small starts 24 (by decide)
  have fileoff := field_contained_iff small starts 32 (by decide)
  have filesize := field_contained_iff small starts 36 (by decide)
  have print (mem : Mem) := @printName_contained_iff env room lcOffset small starts mem
  -- In the three branches that skip the segment its name is printed.
  have skips (refused : ¬ Passes env seg) (some_ : seg.vmsize ≠ 0) :
      ((field (env.machoBase + lcOffset) 28).Contained env ∧
        (field (env.machoBase + lcOffset) 24).Contained env ∧
          ∀ x ∈ [printName mem (env.machoBase + lcOffset) room], x.Contained env) ↔
        SoundSegment env room mem lcOffset seg := by
    rw [vmsize, vmaddr, List.forall_mem_singleton, print]
    constructor
    · intro ⟨fields, _, name⟩
      exact ⟨fields, fun _ _ => name, fun passes => absurd passes refused⟩
    · intro sound
      exact ⟨sound.fields, Nat.le_trans (Nat.le_add_right _ 4) sound.fields,
        sound.skipped some_ refused⟩
  rw [loadSegmentAccesses, List.forall_mem_cons, reads]
  by_cases none_ : seg.vmsize = 0
  · rw [if_pos none_, vmsize]
    constructor
    · intro ⟨fields, _⟩
      exact ⟨fields, fun some_ => absurd none_ some_, fun passes => absurd none_ passes.some_⟩
    · intro sound
      exact ⟨sound.fields, fun x there => absurd there List.not_mem_nil⟩
  · rw [if_neg none_, List.forall_mem_cons]
    by_cases live : env.live = true
    · rw [live, Bool.not_true, if_neg Bool.false_ne_true]
      by_cases outside : seg.vmaddr < loadWindowBase ∨ loadWindowEnd ≤ seg.vmaddr
      · rw [if_pos outside]
        refine skips (fun passes => ?_) none_
        rcases outside with below | above
        · exact absurd passes.base (UInt32.not_le.mpr below)
        · exact absurd passes.start (UInt32.not_lt.mpr above)
      · rw [if_neg outside]
        by_cases beyond : loadWindowEnd < seg.vmaddr + seg.vmsize
        · rw [if_pos beyond]
          exact skips (fun passes => absurd passes.end_ (UInt32.not_le.mpr beyond)) none_
        · rw [not_or, UInt32.not_lt, UInt32.not_le] at outside
          have passes : Passes env seg :=
            ⟨none_, live, outside.1, outside.2, UInt32.not_lt.mp beyond⟩
          rw [if_neg beyond, List.forall_mem_cons, List.forall_mem_cons, List.forall_mem_append,
            copyAccesses_contained_iff passes, List.forall_mem_singleton, vmsize, vmaddr, fileoff,
            filesize, print]
          constructor
          · intro ⟨fields, _, _, last, sizes, name⟩
            rw [loadSegment_placed passes] at name
            exact ⟨fields, fun _ refused => absurd passes refused, fun _ => ⟨last, sizes, name⟩⟩
          · intro sound
            obtain ⟨last, sizes, name⟩ := sound.loaded passes
            rw [loadSegment_placed passes]
            exact ⟨sound.fields, Nat.le_trans (Nat.le_add_right _ 4) sound.fields,
              Nat.le_trans (Nat.le_add_right _ 4) last, last, sizes, name⟩
    · rw [Bool.eq_false_iff.mpr live, Bool.not_false, if_pos rfl]
      exact skips (fun passes => live passes.live) none_

end Turn

theorem turnAccesses_contained_iff {env : Env} (small : env.machoSize.toNat ≤ 2 ^ 31) (room : Nat)
    (s : LoadState) :
    (∀ x ∈ turnAccesses env room s, x.Contained env) ↔ Sound env room s := by
  have cmd : (field (s.lc env) 0).Contained env ↔
      s.lcOffset.toNat + 4 ≤ env.machoSize.toNat := by
    rw [field, UInt32.add_zero]
    exact read_contained_iff (by decide)
  rw [turnAccesses, List.forall_mem_cons, List.forall_mem_append, List.forall_mem_singleton, cmd]
  by_cases starts : s.lcOffset.toNat < env.machoSize.toNat
  · have cmdsize : (field (s.lc env) 4).Contained env ↔
        s.lcOffset.toNat + 8 ≤ env.machoSize.toNat :=
      field_contained_iff small starts 4 (by decide)
    rw [cmdsize]
    by_cases command : read32 s.mem (s.lc env) = lcSegment
    · have other : read32 s.mem (s.lc env) ≠ lcUnixThread := by
        rw [command]
        decide
      have loads : (∀ x ∈ loadSegmentAccesses env room s.mem (s.lc env) s.r, x.Contained env) ↔
          SoundSegment env room s.mem s.lcOffset (segmentAt s.mem (s.lc env)) :=
        loadSegmentAccesses_contained_iff small starts s.mem s.r
      rw [if_pos command, List.forall_mem_append, loads]
      constructor
      · intro ⟨_, ⟨segment, _⟩, whole⟩
        exact ⟨whole, fun _ => segment, fun thread => absurd thread other⟩
      · intro sound
        have segment := sound.segment command
        exact ⟨Nat.le_trans (Nat.le_add_right _ 4) sound.command,
          ⟨segment, recordSegmentAccesses_contained small starts segment.fields _⟩, sound.command⟩
    · rw [if_neg command]
      by_cases thread : read32 s.mem (s.lc env) = lcUnixThread
      · have flavor : (field (s.lc env) 8).Contained env ↔
            s.lcOffset.toNat + 12 ≤ env.machoSize.toNat :=
          field_contained_iff small starts 8 (by decide)
        rw [if_pos thread, List.forall_mem_cons, flavor]
        by_cases state : read32 s.mem (s.lc env + 8) = armThreadState
        · have pc : (field (s.lc env) 76).Contained env ↔
              s.lcOffset.toNat + 80 ≤ env.machoSize.toNat :=
            field_contained_iff small starts 76 (by decide)
          rw [if_pos state, List.forall_mem_singleton, pc]
          constructor
          · intro ⟨_, ⟨near, far⟩, whole⟩
            exact ⟨whole, fun segment => absurd segment command, fun _ => ⟨near, fun _ => far⟩⟩
          · intro sound
            obtain ⟨near, far⟩ := sound.thread thread
            exact ⟨Nat.le_trans (Nat.le_add_right _ 4) sound.command, ⟨near, far state⟩,
              sound.command⟩
        · rw [if_neg state]
          constructor
          · intro ⟨_, ⟨near, _⟩, whole⟩
            exact ⟨whole, fun segment => absurd segment command,
              fun _ => ⟨near, fun state' => absurd state' state⟩⟩
          · intro sound
            exact ⟨Nat.le_trans (Nat.le_add_right _ 4) sound.command,
              ⟨(sound.thread thread).1, fun x there => absurd there List.not_mem_nil⟩,
              sound.command⟩
      · rw [if_neg thread]
        constructor
        · intro ⟨_, _, whole⟩
          exact ⟨whole, fun segment => absurd segment command, fun thread' => absurd thread' thread⟩
        · intro sound
          exact ⟨Nat.le_trans (Nat.le_add_right _ 4) sound.command,
            fun x there => absurd there List.not_mem_nil, sound.command⟩
  · constructor
    · intro ⟨first, _⟩
      omega
    · intro sound
      have whole := sound.command
      omega

end Stage90.MachO
