import Stage90.Smem.ProbeReads

/-!
# The banks and their total

The table that the scan should find, the partitions of it that are banks, and when a call reports
exactly these.
-/

set_option autoImplicit false

namespace Stage90.Smem

open Stage90.Lib

structure Partition where
  start : UInt32
  size : UInt32
  type : UInt32
  deriving DecidableEq

def partitionAt (mem : Mem) (base ptableOff : UInt32) (i : Nat) : Partition where
  start := smemWord mem base (partEntry ptableOff i + partStartOff)
  size := smemWord mem base (partEntry ptableOff i + partSizeOff)
  type := smemWord mem base (partEntry ptableOff i + partTypeOff)

def Partition.isBank (p : Partition) : Bool := p.type = sysMemory && minBankSize ≤ p.size

/-- The banks among the first `n` partitions, in table order. -/
def banksOf (mem : Mem) (base ptableOff : UInt32) (n : Nat) : List Partition :=
  ((List.range n).map (partitionAt mem base ptableOff)).filter Partition.isBank

def totalOf (banks : List Partition) : Nat := (banks.map fun p => p.size.toNat).sum

/-- Entry `k` is the first one that leads to a table. -/
structure FirstTable (mem : Mem) (base : UInt32) (k : Nat) : Prop where
  entry : k < heapTocN
  candidate : Candidate mem base k
  table : TableAt mem base (offsetOf mem base k)
  first : ∀ j < k, ¬ (Candidate mem base j ∧ TableAt mem base (offsetOf mem base j))

/-! ## The walk -/

/-- Up to four banks in the cells, and zeros behind them. -/
structure InCells (bankStart bankSize : Vector UInt32 4) (banks : List Partition) : Prop where
  start : ∀ i (inside : i < 4), bankStart[i] = (banks[i]?.map Partition.start).getD 0
  size : ∀ i (inside : i < 4), bankSize[i] = (banks[i]?.map Partition.size).getD 0

structure Walked (banks : List Partition) (s : Walk) : Prop where
  count : s.banks = UInt32.ofNat banks.length
  total : s.total = UInt32.ofNat (totalOf banks)
  cells : InCells s.bankStart s.bankSize banks

theorem cell_push {cells : Vector UInt32 4} {banks : List Partition} {p : Partition}
    (word : Partition → UInt32)
    (before : ∀ i (inside : i < 4), cells[i] = (banks[i]?.map word).getD 0) :
    ∀ i (inside : i < 4),
      (cells.setIfInBounds banks.length (word p))[i] = ((banks ++ [p])[i]?.map word).getD 0 := by
  intro i inside
  rw [Vector.getElem_setIfInBounds inside]
  by_cases last : banks.length = i
  · rw [if_pos last, ← last, List.getElem?_append_right (Nat.le_refl _), Nat.sub_self]
    rfl
  · rw [if_neg last, before i inside]
    by_cases early : i < banks.length
    · rw [List.getElem?_append_left early]
    · rw [List.getElem?_eq_none (by omega), List.getElem?_eq_none]
      rw [List.length_append, List.length_singleton]
      omega

theorem cell_full {cells : Vector UInt32 4} {banks : List Partition} {p : Partition}
    (word : Partition → UInt32) (full : 4 ≤ banks.length)
    (before : ∀ i (inside : i < 4), cells[i] = (banks[i]?.map word).getD 0) :
    ∀ i (inside : i < 4), cells[i] = ((banks ++ [p])[i]?.map word).getD 0 := by
  intro i inside
  rw [List.getElem?_append_left (Nat.lt_of_lt_of_le inside full)]
  exact before i inside

section Walk
variable {mem : Mem} {base ptableOff : UInt32} {s : Walk} {banks : List Partition} {i : Nat}

theorem walkPart_other (other : (partitionAt mem base ptableOff i).isBank = false)
    (before : Walked banks s) : Walked banks (walkPart mem base ptableOff s i) := by
  rw [Partition.isBank, Bool.and_eq_false_imp, decide_eq_true_iff] at other
  rw [walkPart]
  dsimp only
  rw [if_neg]
  · exact ⟨before.count, before.total, before.cells⟩
  · intro ⟨type, size⟩
    exact absurd size (of_decide_eq_false (other type))

theorem walkPart_bank (bank : (partitionAt mem base ptableOff i).isBank = true)
    (few : banks.length < 32) (before : Walked banks s) :
    Walked (banks ++ [partitionAt mem base ptableOff i]) (walkPart mem base ptableOff s i) := by
  rw [Partition.isBank, Bool.and_eq_true, decide_eq_true_iff, decide_eq_true_iff] at bank
  have count : s.banks.toNat = banks.length := by
    rw [before.count]
    exact UInt32.toNat_ofNat_of_lt' (Nat.lt_trans few (by decide))
  have count' : s.banks + 1 =
      UInt32.ofNat (banks ++ [partitionAt mem base ptableOff i]).length := by
    rw [before.count, List.length_append, List.length_singleton, UInt32.ofNat_add, UInt32.ofNat_one]
  have total' : s.total + (partitionAt mem base ptableOff i).size =
      UInt32.ofNat (totalOf (banks ++ [partitionAt mem base ptableOff i])) := by
    rw [before.total, totalOf, totalOf, List.map_append, List.sum_append, List.map_singleton,
      List.sum_singleton, UInt32.ofNat_add, UInt32.ofNat_toNat]
  have taken : smemWord mem base (partEntry ptableOff i + partTypeOff) = sysMemory ∧
      minBankSize ≤ smemWord mem base (partEntry ptableOff i + partSizeOff) := bank
  rw [walkPart]
  dsimp only
  rw [if_pos taken]
  by_cases room : s.banks < maxBanks
  · rw [if_pos room]
    refine ⟨count', total', ?_, ?_⟩
    · dsimp only
      rw [count]
      exact cell_push (p := partitionAt mem base ptableOff i) Partition.start before.cells.start
    · dsimp only
      rw [count]
      exact cell_push (p := partitionAt mem base ptableOff i) Partition.size before.cells.size
  · have full : 4 ≤ banks.length := by
      rw [UInt32.lt_iff_toNat_lt, count] at room
      exact Nat.not_lt.mp room
    rw [if_neg room]
    exact ⟨count', total', cell_full Partition.start full before.cells.start,
      cell_full Partition.size full before.cells.size⟩

theorem banksOf_succ (n : Nat) :
    banksOf mem base ptableOff (n + 1) =
      banksOf mem base ptableOff n ++
        if (partitionAt mem base ptableOff n).isBank then [partitionAt mem base ptableOff n]
        else [] := by
  rw [banksOf, List.range_succ, List.map_append, List.filter_append, List.map_singleton,
    List.filter_cons, List.filter_nil]
  rfl

theorem banksOf_length (n : Nat) : (banksOf mem base ptableOff n).length ≤ n := by
  have all := List.length_filter_le Partition.isBank
    ((List.range n).map (partitionAt mem base ptableOff))
  rwa [List.length_map, List.length_range] at all

theorem walked_parts (start : Walked [] s) {n : Nat} (few : n ≤ 32) :
    Walked (banksOf mem base ptableOff n)
      ((List.range n).foldl (walkPart mem base ptableOff) s) := by
  induction n with
  | zero => exact start
  | succ n ih =>
      have before := ih (Nat.le_of_succ_le few)
      have length := @banksOf_length mem base ptableOff n
      rw [List.range_succ, List.foldl_append, banksOf_succ]
      cases bank : (partitionAt mem base ptableOff n).isBank with
      | true =>
          rw [if_pos rfl]
          exact walkPart_bank bank (by omega) before
      | false =>
          rw [if_neg Bool.false_ne_true, List.append_nil]
          exact walkPart_other bank before

end Walk

/-! ## A call -/

/-- A call reports the table at `off` with its banks, up to four of them in the cells. -/
structure Listed (call : Globals × Option Report) (off : UInt32) (banks : List Partition) : Prop where
  found : call.1.ptableFound = 1
  report : ∃ report, call.2 = some report ∧ report.ptableOff = off ∧
    report.banks = call.1.banks ∧ report.totalBytes = call.1.totalBytes
  count : call.1.banks.toNat = banks.length
  cells : InCells call.1.bankStart call.1.bankSize banks

section Call
variable {env : Env} {mem : Mem} {base : UInt32} {k : Nat}

theorem init_walked (reads : List UInt32) :
    Walked [] ⟨0, 0, 0, Globals.init.bankStart, Globals.init.bankSize, reads⟩ := by
  have zeros (word : Partition → UInt32) : ∀ i (inside : i < 4),
      (Vector.replicate 4 (0 : UInt32))[i] = (([] : List Partition)[i]?.map word).getD 0 := by
    intro i inside
    rw [Vector.getElem_replicate]
    rfl
  exact ⟨rfl, rfl, zeros Partition.start, zeros Partition.size⟩

theorem publishBanks_off (s : Scan) (g : Globals) :
    (publishBanks mem base s g).2.ptableOff = s.ptableOff := rfl

theorem probe_found (mapped : env.readBase = some base)
    (found : (scanTable mem base ⟨0, 0, 0, heapInfoReads base⟩).ptableOff ≠ 0) :
    entrySmemProbe env mem .init =
      ((publishBanks mem base (scanTable mem base ⟨0, 0, 0, heapInfoReads base⟩)
          { Globals.init with probed := 1 }).1,
        some (publishBanks mem base (scanTable mem base ⟨0, 0, 0, heapInfoReads base⟩)
          { Globals.init with probed := 1 }).2) := by
  have fresh : ¬ Globals.init.probed ≠ 0 := not_not_intro rfl
  rw [entrySmemProbe, if_neg fresh]
  dsimp only
  rw [mapped]
  dsimp only
  rw [if_neg found]

theorem probe_lost (mapped : env.readBase = some base)
    (lost : (scanTable mem base ⟨0, 0, 0, heapInfoReads base⟩).ptableOff = 0) :
    (entrySmemProbe env mem .init).1.ptableFound = 0 := by
  have fresh : ¬ Globals.init.probed ≠ 0 := not_not_intro rfl
  rw [entrySmemProbe, if_neg fresh]
  dsimp only
  rw [mapped]
  dsimp only
  rw [if_pos lost]

theorem FirstTable.settles (table : FirstTable mem base k) (some_ : offsetOf mem base k ≠ 0) :
    Settles mem base k ∧ ∀ j < k, ¬ Settles mem base j :=
  ⟨⟨table.candidate, table.table, some_⟩, fun j early settles =>
    table.first j early ⟨settles.1, settles.2.1⟩⟩

theorem probe_listed (mapped : env.readBase = some base) (table : FirstTable mem base k)
    (some_ : offsetOf mem base k ≠ 0) :
    let off := offsetOf mem base k
    let banks := banksOf mem base off (lenOf mem base off).toNat
    Listed (entrySmemProbe env mem .init) off banks ∧
      (entrySmemProbe env mem .init).1.totalBytes = UInt32.ofNat (totalOf banks) := by
  intro off banks
  have aligned := readBase_aligned mapped
  have scanned := @scanned_table mem base aligned
  obtain ⟨settles, first⟩ := table.settles some_
  obtain ⟨off_eq, len_eq⟩ := scanned.first k table.entry settles first
  have most : (lenOf mem base off).toNat ≤ 32 := UInt32.le_iff_toNat_le.mp table.table.2.2.2
  have found : (scanTable mem base ⟨0, 0, 0, heapInfoReads base⟩).ptableOff ≠ 0 := by
    rw [off_eq]
    exact some_
  rw [probe_found mapped found]
  generalize scanTable mem base ⟨0, 0, 0, heapInfoReads base⟩ = s at off_eq len_eq
  have count : min s.ptableLen.toNat ptablePartN.toNat = (lenOf mem base off).toNat := by
    rw [len_eq]
    exact Nat.min_eq_left most
  have walked : Walked banks (walkParts mem base s.ptableOff s.ptableLen
      ⟨0, 0, 0, Globals.init.bankStart, Globals.init.bankSize,
        s.reads ++ [base + (s.ptableOff + 4)]⟩) := by
    rw [walkParts, count, off_eq]
    exact walked_parts (init_walked _) most
  have length : banks.length ≤ 32 := Nat.le_trans (banksOf_length _) most
  refine ⟨⟨rfl, ⟨_, rfl, off_eq, rfl, rfl⟩, ?_, walked.cells⟩, walked.total⟩
  exact (congrArg UInt32.toNat walked.count).trans
    (UInt32.toNat_ofNat_of_lt' (Nat.lt_of_le_of_lt length (by decide)))

end Call

/-- A call in a mapped section whose table of contents leads to a table: the table is reported with
exactly its banks unless its offset is 0, and with their exact total when that is below `2 ^ 32`. -/
theorem totals_exact_iff {env : Env} {mem : Mem} {base : UInt32} {k : Nat}
    (mapped : env.readBase = some base) (table : FirstTable mem base k) :
    let off := offsetOf mem base k
    let banks := banksOf mem base off (lenOf mem base off).toNat
    let call := entrySmemProbe env mem .init
    (Listed call off banks ↔ off ≠ 0) ∧
      (Listed call off banks ∧ call.1.totalBytes.toNat = totalOf banks ↔
        off ≠ 0 ∧ totalOf banks < 2 ^ 32) := by
  intro off banks call
  have nonzero : Listed call off banks → off ≠ 0 := by
    intro listed zero
    obtain ⟨report, same, place, -⟩ := listed.report
    by_cases lost : (scanTable mem base ⟨0, 0, 0, heapInfoReads base⟩).ptableOff = 0
    · have absent := probe_lost mapped lost
      rw [listed.found] at absent
      exact absurd absent (by decide)
    · have there := congrArg Prod.snd (probe_found mapped lost)
      rw [same] at there
      rw [Option.some_inj.mp there, publishBanks_off] at place
      exact lost (place.trans zero)
  have listed (some_ : off ≠ 0) := probe_listed mapped table some_
  refine ⟨⟨nonzero, fun some_ => (listed some_).1⟩, ?_⟩
  constructor
  · intro ⟨there, total⟩
    refine ⟨nonzero there, ?_⟩
    generalize call.1.totalBytes = word at total
    rw [← total]
    exact word.toNat_lt
  · intro ⟨some_, small⟩
    obtain ⟨there, total⟩ := listed some_
    refine ⟨there, ?_⟩
    rw [total]
    exact UInt32.toNat_ofNat_of_lt' small

/-- A section with one entry, which leads to a table behind the table of contents. -/
def ramTable (parts : List UInt32) : Mem := fun a =>
  if a - smemAliasBase < 0x20e0 then ofWords (smemAliasBase + heapTocOff) [1, 0x20e0, 0x720, 0] a
  else ofWords (smemAliasBase + 0x20e0) ([ptableMagic0, ptableMagic1, 0, 2] ++ parts) a

def systemPart (start size : UInt32) : List UInt32 :=
  [0, 0, 0, 0, start, size, 0, 0, 0, sysMemory, 0, 0, 0, 0]

/-- Two banks of 1 GB. -/
def smallRam : Mem := ramTable (systemPart 0 0x40000000 ++ systemPart 0x80000000 0x40000000)

theorem smallRam_exact :
    Listed (entrySmemProbe ⟨1, 1⟩ smallRam .init) 0x20e0
        [⟨0, 0x40000000, 1⟩, ⟨0x80000000, 0x40000000, 1⟩] ∧
      (entrySmemProbe ⟨1, 1⟩ smallRam .init).1.totalBytes.toNat = 0x80000000 := by
  have table : FirstTable smallRam smemAliasBase 0 :=
    ⟨by decide, by decide +kernel, by decide +kernel, fun j none_ => absurd none_ (Nat.not_lt_zero j)⟩
  have off : offsetOf smallRam smemAliasBase 0 = 0x20e0 := by decide +kernel
  have banks : banksOf smallRam smemAliasBase 0x20e0 (lenOf smallRam smemAliasBase 0x20e0).toNat =
      [⟨0, 0x40000000, 1⟩, ⟨0x80000000, 0x40000000, 1⟩] := by decide +kernel
  have exact_ := (@totals_exact_iff ⟨1, 1⟩ _ _ _ rfl table).2
  rw [off, banks] at exact_
  exact exact_.mpr ⟨by decide, by decide⟩

/-- Two banks of 2 GB: their total is reported as 0. -/
theorem largeRam_wraps :
    let mem := ramTable (systemPart 0 0x80000000 ++ systemPart 0x80000000 0x80000000)
    Candidate mem smemAliasBase 0 ∧ TableAt mem smemAliasBase (offsetOf mem smemAliasBase 0) ∧
      totalOf (banksOf mem smemAliasBase 0x20e0 2) = 2 ^ 32 ∧
      (entrySmemProbe ⟨1, 1⟩ mem .init).1.totalBytes = 0 := by
  decide +kernel

end Stage90.Smem
