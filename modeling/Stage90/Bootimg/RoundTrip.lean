import Stage90.Bootimg.Readers
import Mathlib.Data.Bool.AllAny

/-!
# Packing, parsing and patching

`Laid` says where everything stands in an image.  The packer lays an image out, the patcher
keeps it laid out with other command line fields, and the parser reads back what is laid out.
-/

set_option autoImplicit false

namespace Stage90.Bootimg

open Lib

/-! ## Strings -/

section Strings
variable {s : Str} {raw : Bytes}

theorem beforeNul_zeros (full : 0 ∉ raw) (n : Nat) : beforeNul (raw ++ zeros n) = raw := by
  rw [beforeNul_append_of_not_mem full]
  cases n with
  | zero => exact List.append_nil raw
  | succ n =>
      have none : beforeNul (zeros (n + 1)) = [] := (beforeNul_eq_nil_iff (by simp [zeros])).mpr rfl
      rw [none, List.append_nil]

theorem encodeAscii_eq_some : encodeAscii s = some raw ↔
    (∀ c ∈ s, c.toNat < 128) ∧ raw = s.map fun c => UInt8.ofNat c.toNat := by
  rw [encodeAscii]
  split
  · rename_i ascii
    simp only [List.all_eq_true, decide_eq_true_iff] at ascii
    rw [Option.some_inj]
    exact ⟨fun same => ⟨ascii, same.symm⟩, fun both => both.2.symm⟩
  · rename_i other
    simp only [List.all_eq_true, decide_eq_true_iff] at other
    exact ⟨fun same => absurd same.symm (Option.some_ne_none raw), fun both => absurd both.1 other⟩

theorem toNat_ofNat_ascii {c : Char} (ascii : c.toNat < 128) :
    (UInt8.ofNat c.toNat).toNat = c.toNat := by
  rw [UInt8.toNat_ofNat']
  exact Nat.mod_eq_of_lt (by omega)

theorem decode_encode (encoded : encodeAscii s = some raw) : decodeAscii raw = s := by
  obtain ⟨ascii, rfl⟩ := encodeAscii_eq_some.mp encoded
  rw [decodeAscii, List.map_map]
  refine (List.map_congr_left fun c mem => ?_).trans (List.map_id s)
  have same := toNat_ofNat_ascii (ascii c mem)
  rw [Function.comp_apply, same, if_pos (ascii c mem), Char.ofNat_toNat]
  rfl

theorem no_nul_encode (encoded : encodeAscii s = some raw) (full : '\x00' ∉ s) : 0 ∉ raw := by
  obtain ⟨ascii, rfl⟩ := encodeAscii_eq_some.mp encoded
  intro mem
  obtain ⟨c, among, nul⟩ := List.mem_map.mp mem
  have same := toNat_ofNat_ascii (ascii c among)
  rw [nul] at same
  have char : c = '\x00' := by
    rw [← Char.ofNat_toNat c, ← same]
    rfl
  exact full (char ▸ among)

theorem length_ljust {n : Nat} (fits : raw.length ≤ n) : (ljust raw n).length = n := by
  rw [ljust, List.length_append, zeros, List.length_replicate]
  omega

theorem fields_joined (fits : raw.length ≤ cmdlineLen + extraCmdlineLen) :
    ljust (raw.take cmdlineLen) cmdlineLen ++ ljust (raw.drop cmdlineLen) extraCmdlineLen =
      raw ++ zeros (cmdlineLen + extraCmdlineLen - raw.length) := by
  by_cases short : raw.length ≤ cmdlineLen
  · rw [List.take_of_length_le short, List.drop_of_length_le short, ljust, ljust, List.nil_append,
      List.append_assoc, zeros, zeros, zeros, List.replicate_append_replicate, List.length_nil]
    congr 2
    omega
  · have full : (raw.take cmdlineLen).length = cmdlineLen := List.length_take_of_le (by omega)
    have none : zeros 0 = [] := rfl
    have left : extraCmdlineLen - (raw.length - cmdlineLen) =
        cmdlineLen + extraCmdlineLen - raw.length := by omega
    rw [ljust, full, Nat.sub_self, none, List.append_nil, ljust, ← List.append_assoc,
      List.take_append_drop, List.length_drop, left]

theorem cString_fields (encoded : encodeAscii s = some raw) (full : '\x00' ∉ s)
    (fits : raw.length ≤ cmdlineLen + extraCmdlineLen) :
    cString (ljust (raw.take cmdlineLen) cmdlineLen ++ ljust (raw.drop cmdlineLen) extraCmdlineLen) =
      s := by
  rw [cString, fields_joined fits, beforeNul_zeros (no_nul_encode encoded full),
    decode_encode encoded]

theorem cString_ljust {n : Nat} (encoded : encodeAscii s = some raw) (full : '\x00' ∉ s) :
    cString (ljust raw n) = s := by
  rw [cString, ljust, beforeNul_zeros (no_nul_encode encoded full), decode_encode encoded]

end Strings

/-! ## What stands in an image -/

section Layout
variable {image bytes : Bytes} {offset : Nat}

theorem field_of_stands (stands : StandsAt image offset bytes) :
    field image offset bytes.length = bytes := stands.take

theorem word_of_stands {n : Nat} (stands : StandsAt image offset (le32 n)) (small : n < 2 ^ 32) :
    word image offset = n := by
  have four : field image offset 4 = le32 n := stands.take
  rw [word, four]
  simp only [le32, List.foldr_cons, List.foldr_nil, UInt8.toNat_ofNat']
  omega

structure Contents where
  pageSize : Nat
  kernel : Bytes
  ramdisk : Bytes
  second : Bytes
  dt : Bytes
  board : Bytes
  main : Bytes
  extra : Bytes

namespace Contents
variable (c : Contents)

def ramdiskOff : Nat := c.pageSize + align c.kernel.length c.pageSize

def secondOff : Nat := c.ramdiskOff + align c.ramdisk.length c.pageSize

def dtOff : Nat := c.secondOff + align c.second.length c.pageSize

/-- The parts of an image with these contents, the last two only where they are not empty. -/
def parts : List Part :=
  [⟨"kernel", c.pageSize, c.kernel⟩, ⟨"ramdisk.gz", c.ramdiskOff, c.ramdisk⟩] ++
    (if c.second = [] then [] else [⟨"second", c.secondOff, c.second⟩]) ++
    (if c.dt = [] then [] else [⟨"dt.img", c.dtOff, c.dt⟩])

def headerWrites : List (Write UInt8) :=
  [(0, bootMagic), (8, le32 c.kernel.length), (16, le32 c.ramdisk.length),
    (24, le32 c.second.length), (36, le32 c.pageSize), (40, le32 c.dt.length), (48, c.board)]

def blobWrites : List (Write UInt8) :=
  [(c.pageSize, c.kernel), (c.ramdiskOff, c.ramdisk), (c.secondOff, c.second), (c.dtOff, c.dt)]

structure Fits : Prop where
  page : headerSize ≤ c.pageSize
  words : ∀ n ∈ [c.kernel.length, c.ramdisk.length, c.second.length, c.pageSize, c.dt.length],
    n < 2 ^ 32
  board : c.board.length = nameLen
  main : c.main.length = cmdlineLen
  extra : c.extra.length = extraCmdlineLen

structure Laid (image : Bytes) : Prop extends c.Fits where
  long : c.pageSize ≤ image.length
  header : ∀ w ∈ c.headerWrites, StandsAt image w.1 w.2
  cmdline : StandsAt image cmdlineOff c.main
  extraCmdline : StandsAt image extraCmdlineOff c.extra
  blobs : ∀ w ∈ c.blobWrites, StandsAt image w.1 w.2

end Contents

theorem readParts_cons {name : String} {rest : List (String × Nat × Nat)} {parts : List Part}
    (stands : StandsAt image offset bytes) (others : readParts image rest = (parts, none)) :
    readParts image ((name, offset, bytes.length) :: rest) =
      (⟨name, offset, bytes⟩ :: parts, none) := by
  rw [readParts, field_of_stands stands, others]
  simp

theorem readParts_optional {name : String} {rest : List (String × Nat × Nat)} {parts : List Part}
    (stands : StandsAt image offset bytes) (others : readParts image rest = (parts, none)) :
    readParts image ((if bytes.length = 0 then [] else [(name, offset, bytes.length)]) ++ rest) =
      ((if bytes = [] then [] else [⟨name, offset, bytes⟩]) ++ parts, none) := by
  by_cases empty : bytes = []
  · rw [if_pos empty, if_pos (by rw [empty]; rfl)]
    exact others
  · rw [if_neg empty, if_neg fun none => empty (List.eq_nil_of_length_eq_zero none)]
    exact readParts_cons stands others

theorem laid_unpacked {c : Contents} (laid : c.Laid image) :
    let h := unpack (image.take headerSize)
    h.magic = bootMagic ∧ h.pageSize = c.pageSize ∧ h.kernelSize = c.kernel.length ∧
      h.ramdiskSize = c.ramdisk.length ∧ h.secondSize = c.second.length ∧
      h.dtSize = c.dt.length ∧ h.name = c.board ∧ h.cmdline = c.main ∧ h.extraCmdline = c.extra := by
  have header := laid.header
  have words := laid.words
  simp only [Contents.headerWrites, List.forall_mem_cons] at header words
  obtain ⟨magic, kernel, ramdisk, second, page, dt, board, _⟩ := header
  have word_at {offset n : Nat} (stands : StandsAt image offset (le32 n)) (small : n < 2 ^ 32)
      (inside : offset + 4 ≤ headerSize) : word (image.take headerSize) offset = n :=
    (word_take inside).trans (word_of_stands stands small)
  have field_at {offset size : Nat} {bytes : Bytes} (stands : StandsAt image offset bytes)
      (length : bytes.length = size) (inside : offset + size ≤ headerSize) :
      field (image.take headerSize) offset size = bytes := by
    rw [field_take inside, ← length]
    exact field_of_stands stands
  exact ⟨field_at magic rfl (by decide), word_at page words.2.2.2.1 (by decide),
    word_at kernel words.1 (by decide), word_at ramdisk words.2.1 (by decide),
    word_at second words.2.2.1 (by decide), word_at dt words.2.2.2.2.1 (by decide),
    field_at board laid.board (by decide), field_at laid.cmdline laid.main (by decide),
    field_at laid.extraCmdline laid.extra (by decide)⟩

theorem laid_parsed {c : Contents} (laid : c.Laid image) :
    ∃ report, parseBootImage image = .ok report ∧ report.board = cString c.board ∧
      report.cmdline = cString (c.main ++ c.extra) ∧ report.parts = c.parts := by
  obtain ⟨magic, page, kernelSize, ramdiskSize, secondSize, dtSize, name, main, extra⟩ :=
    laid_unpacked laid
  have blobs := laid.blobs
  simp only [Contents.blobWrites, List.forall_mem_cons] at blobs
  obtain ⟨kernel, ramdisk, second, dt, _⟩ := blobs
  have table : (unpack (image.take headerSize)).parts =
      ("kernel", c.pageSize, c.kernel.length) :: ("ramdisk.gz", c.ramdiskOff, c.ramdisk.length) ::
        ((if c.second.length = 0 then [] else [("second", c.secondOff, c.second.length)]) ++
          ((if c.dt.length = 0 then [] else [("dt.img", c.dtOff, c.dt.length)]) ++ [])) := by
    simp only [Header.parts, Header.dtOff, Header.secondOff, Header.ramdiskOff, Header.kernelOff,
      page, kernelSize, ramdiskSize, secondSize, dtSize, List.append_nil]
    rfl
  have read : readParts image (unpack (image.take headerSize)).parts = (c.parts, none) := by
    rw [table, Contents.parts, ← List.append_nil (if c.dt = [] then _ else _), List.append_assoc]
    exact readParts_cons kernel
      (readParts_cons ramdisk (readParts_optional second (readParts_optional dt rfl)))
  have some_page : word image 36 ≠ 0 := by
    have read : word image 36 = c.pageSize := (word_take (by decide)).symm.trans page
    have := laid.page
    rw [read]
    exact Nat.ne_of_gt (Nat.lt_of_lt_of_le (by decide) this)
  have parsed := parse_eq (laid.page.trans laid.long)
    ((field_take (by decide)).symm.trans magic) some_page
  rw [read] at parsed
  refine ⟨_, parsed, ?_, ?_, rfl⟩
  · rw [Header.report, name]
  · rw [Header.report, main, extra]

/-! ## The patcher keeps the layout -/

theorem headerWrites_before {c : Contents} (fits : c.Fits) :
    ∀ w ∈ c.headerWrites, w.1 + w.2.length ≤ cmdlineOff := by
  have four (n : Nat) : (le32 n).length = 4 := rfl
  simp only [Contents.headerWrites, List.forall_mem_cons, four, fits.board]
  exact ⟨by decide, by decide, by decide, by decide, by decide, by decide, by decide, by simp⟩

theorem blobWrites_behind {c : Contents} (fits : c.Fits) :
    ∀ w ∈ c.blobWrites, headerSize ≤ w.1 := by
  have page := fits.page
  simp only [Contents.blobWrites, List.forall_mem_cons, Contents.ramdiskOff, Contents.secondOff,
    Contents.dtOff]
  exact ⟨page, by omega, by omega, by omega, by simp⟩

theorem patch_laid {c : Contents} {cmdline : Str} {raw : Bytes} (laid : c.Laid image)
    (encoded : encodeAscii cmdline = some raw)
    (fits : raw.length ≤ cmdlineLen + extraCmdlineLen) :
    ∃ patched, patch image cmdline = .ok patched ∧ patched.length = image.length ∧
      (∀ i, ¬ (cmdlineOff ≤ i ∧ i < cmdlineOff + cmdlineLen) →
        ¬ (extraCmdlineOff ≤ i ∧ i < extraCmdlineOff + extraCmdlineLen) →
          patched[i]? = image[i]?) ∧
      { c with main := ljust (raw.take cmdlineLen) cmdlineLen,
               extra := ljust (raw.drop cmdlineLen) extraCmdlineLen }.Laid patched := by
  have long : headerSize ≤ image.length := laid.page.trans laid.long
  have size : headerSize = extraCmdlineOff + extraCmdlineLen := rfl
  have apart : cmdlineOff + cmdlineLen ≤ extraCmdlineOff := by decide
  have main : (ljust (raw.take cmdlineLen) cmdlineLen).length = cmdlineLen :=
    length_ljust (List.length_take_le _ _)
  have extra : (ljust (raw.drop cmdlineLen) extraCmdlineLen).length = extraCmdlineLen := by
    apply length_ljust
    rw [List.length_drop]
    omega
  have magic : field image 0 8 = bootMagic :=
    field_of_stands (laid.header (0, bootMagic) List.mem_cons_self)
  have written : patch image cmdline =
      .ok (assign (assign image cmdlineOff (ljust (raw.take cmdlineLen) cmdlineLen))
        extraCmdlineOff (ljust (raw.drop cmdlineLen) extraCmdlineLen)) := by
    rw [patch, if_neg (not_not.mpr magic), writeCmdline, encoded]
    exact if_neg (Nat.not_lt.mpr fits)
  generalize ljust (raw.take cmdlineLen) cmdlineLen = main' at main written ⊢
  generalize ljust (raw.drop cmdlineLen) extraCmdlineLen = extra' at extra written ⊢
  have fits1 : cmdlineOff + main'.length ≤ image.length := by omega
  have length1 := length_assign fits1
  have fits2 : extraCmdlineOff + extra'.length ≤ (assign image cmdlineOff main').length := by omega
  have length2 := length_assign fits2
  have kept : c.Fits := laid.toFits
  refine ⟨assign (assign image cmdlineOff main') extraCmdlineOff extra', written, by omega, ?_, ?_⟩
  · intro i outside outside'
    rw [getElem?_assign fits2, if_neg (by omega), getElem?_assign fits1, if_neg (by omega)]
  · refine
      { page := kept.page, words := kept.words, board := kept.board, main := main, extra := extra,
        long := ?_, header := ?_, cmdline := ?_, extraCmdline := standsAt_assign fits2, blobs := ?_ }
    · have := laid.long
      dsimp only
      omega
    · intro w mem
      have before := headerWrites_before kept w mem
      exact ((laid.header w mem).assign fits1 (Or.inl before)).assign fits2
        (Or.inl (by omega))
    · exact (standsAt_assign fits1).assign fits2 (Or.inl (by omega))
    · intro w mem
      have behind := blobWrites_behind kept w mem
      exact ((laid.blobs w mem).assign fits1 (Or.inr (by omega))).assign fits2
        (Or.inr (by omega))

end Layout

/-! ## The packer lays an image out -/

section Pack
variable {sha1 : Sha1} {a : Args} {image : Bytes}

theorem le_align {n pageSize : Nat} (some_page : 0 < pageSize) : n ≤ align n pageSize := by
  have parts := Nat.div_add_mod (n + pageSize - 1) pageSize
  have rest := Nat.mod_lt (n + pageSize - 1) some_page
  rw [align, Nat.mul_comm]
  omega

theorem align_header {pageSize : Nat} (page : headerSize ≤ pageSize) :
    align headerSize pageSize = pageSize := by
  have size : headerSize = 1632 := rfl
  have one : (headerSize + pageSize - 1) / pageSize = 1 := by
    rw [Nat.div_eq_iff (by omega)]
    omega
  rw [align, one, Nat.one_mul]

theorem length_pad {blob : Bytes} {pageSize : Nat} (some_page : 0 < pageSize) :
    (pad blob pageSize).length = align blob.length pageSize := by
  have := @le_align blob.length pageSize some_page
  rw [pad, List.length_append, zeros, List.length_replicate]
  omega

theorem packWord_eq_ok {value : Int} {bytes : Bytes} :
    packWord value = .ok bytes ↔ (0 ≤ value ∧ value < 2 ^ 32) ∧ bytes = le32 value.toNat := by
  rw [packWord]
  split
  · rename_i fits
    simp only [Except.ok.injEq]
    exact ⟨fun same => ⟨fits, same.symm⟩, fun both => both.2.symm⟩
  · rename_i big
    simp only [reduceCtorEq, false_iff]
    exact fun both => big both.1

theorem bind_eq_ok {ε α β : Type} {x : Except ε α} {f : α → Except ε β} {b : β} :
    (x >>= f) = .ok b ↔ ∃ y, x = .ok y ∧ f y = .ok b := by
  cases x with
  | error e => simp [bind, Except.bind]
  | ok y => simp [bind, Except.bind]

theorem packWords_eq_ok {values : List Int} : ∀ {bytes : Bytes}, packWords values = .ok bytes →
    (∀ v ∈ values, 0 ≤ v ∧ v < 2 ^ 32) ∧ bytes = (values.map Int.toNat).flatMap le32 := by
  induction values with
  | nil =>
      intro bytes packed
      rw [packWords, Except.ok.injEq] at packed
      exact ⟨by simp, packed.symm⟩
  | cons v values ih =>
      intro bytes packed
      obtain ⟨first, one, packed⟩ := bind_eq_ok.mp packed
      obtain ⟨rest, others, packed⟩ := bind_eq_ok.mp packed
      obtain ⟨fits, rfl⟩ := packWord_eq_ok.mp one
      obtain ⟨all, rfl⟩ := ih others
      rw [Except.ok.injEq] at packed
      exact ⟨List.forall_mem_cons.mpr ⟨fits, all⟩, packed.symm⟩

theorem bootId_length {kernel ramdisk second id : Bytes}
    (made : bootId sha1 kernel ramdisk second = .ok id) : id.length = 32 := by
  obtain ⟨_, _, made⟩ := bind_eq_ok.mp made
  obtain ⟨_, _, made⟩ := bind_eq_ok.mp made
  obtain ⟨_, _, made⟩ := bind_eq_ok.mp made
  rw [Except.ok.injEq] at made
  rw [← made, List.length_append, (sha1 _).2, zeros, List.length_replicate]

theorem splitCmdline_eq_ok {cmdline : Str} {main extra : Bytes}
    (split : splitCmdline cmdline = .ok (main, extra)) :
    ∃ raw, encodeAscii cmdline = some raw ∧ raw.length ≤ cmdlineLen + extraCmdlineLen ∧
      main = ljust (raw.take cmdlineLen) cmdlineLen ∧
      extra = ljust (raw.drop cmdlineLen) extraCmdlineLen := by
  rw [splitCmdline] at split
  cases encoded : encodeAscii cmdline with
  | none =>
      rw [encoded] at split
      exact absurd split (by simp)
  | some raw =>
      rw [encoded] at split
      dsimp only at split
      split at split
      · exact absurd split (by simp)
      · rename_i fits
        obtain ⟨rfl, rfl⟩ := Prod.mk.inj (Except.ok.inj split)
        exact ⟨raw, rfl, Nat.not_lt.mp fits, rfl, rfl⟩

theorem packBoard_eq_ok {board : Str} {bytes : Bytes} (packed : packBoard board = .ok bytes) :
    ∃ raw, encodeAscii board = some raw ∧ raw.length ≤ nameLen ∧ bytes = ljust raw nameLen := by
  rw [packBoard] at packed
  cases encoded : encodeAscii board with
  | none =>
      rw [encoded] at packed
      exact absurd packed (by simp)
  | some raw =>
      rw [encoded] at packed
      dsimp only at packed
      split at packed
      · exact absurd packed (by simp)
      · rename_i fits
        exact ⟨raw, rfl, Nat.not_lt.mp fits, (Except.ok.inj packed).symm⟩

def Args.contents (a : Args) (board main extra : Bytes) : Contents where
  pageSize := a.pageSize.toNat
  kernel := a.kernel
  ramdisk := a.ramdisk.getD []
  second := a.second.getD []
  dt := a.dt.getD []
  board := board
  main := main
  extra := extra

theorem standsAt_self (bytes : Bytes) : StandsAt bytes 0 bytes := by
  intro i _
  rw [Nat.zero_add]

def headerWords (c : Contents) (kernelAddr ramdiskAddr secondAddr tagsAddr : Nat) : List Nat :=
  [c.kernel.length, kernelAddr, c.ramdisk.length, ramdiskAddr, c.second.length, secondAddr,
    tagsAddr, c.pageSize, c.dt.length, 0]

theorem header_stands {id : Bytes} {c : Contents} {kernelAddr ramdiskAddr secondAddr tagsAddr : Nat}
    (header : StandsAt image 0 (bootMagic ++
      (headerWords c kernelAddr ramdiskAddr secondAddr tagsAddr).flatMap le32 ++
        c.board ++ c.main ++ id ++ c.extra))
    (board : c.board.length = nameLen) (main : c.main.length = cmdlineLen)
    (id_length : id.length = 32) :
    (∀ w ∈ c.headerWrites, StandsAt image w.1 w.2) ∧ StandsAt image cmdlineOff c.main ∧
      StandsAt image extraCmdlineOff c.extra := by
  have words : ((headerWords c kernelAddr ramdiskAddr secondAddr tagsAddr).flatMap le32).length =
      40 := rfl
  have magic : bootMagic.length = 8 := rfl
  simp only [standsAt_append, List.length_append, magic, words, board, main, id_length] at header
  obtain ⟨⟨⟨⟨⟨magic_stands, words_stand⟩, board_stands⟩, main_stands⟩, _⟩, extra_stands⟩ := header
  have word_at (i : Nat) {w : Nat}
      (there : (headerWords c kernelAddr ramdiskAddr secondAddr tagsAddr)[i]? = some w) :
      StandsAt image (0 + 8 + 4 * i) (le32 w) := standsAt_words words_stand there
  refine ⟨?_, main_stands, extra_stands⟩
  simp only [Contents.headerWrites, List.forall_mem_cons]
  exact ⟨magic_stands, word_at 0 rfl, word_at 2 rfl, word_at 4 rfl, word_at 7 rfl, word_at 8 rfl,
    board_stands, by simp⟩

theorem pad_stands {blob : Bytes} {pageSize offset : Nat}
    (stands : StandsAt image offset (pad blob pageSize)) : StandsAt image offset blob :=
  (standsAt_append.mp stands).1

theorem mkbootimg_laid (packed : mkbootimg sha1 a = .ok image) :
    ∃ board raw, encodeAscii a.board = some board ∧ encodeAscii a.cmdline = some raw ∧
      raw.length ≤ cmdlineLen + extraCmdlineLen ∧
      (a.contents (ljust board nameLen) (ljust (raw.take cmdlineLen) cmdlineLen)
        (ljust (raw.drop cmdlineLen) extraCmdlineLen)).Laid image := by
  obtain ⟨name, made, packed⟩ := bind_eq_ok.mp packed
  obtain ⟨board, board_encoded, board_fits, rfl⟩ := packBoard_eq_ok made
  obtain ⟨⟨main, extra⟩, made, packed⟩ := bind_eq_ok.mp packed
  obtain ⟨raw, encoded, fits, main_eq, extra_eq⟩ := splitCmdline_eq_ok made
  obtain ⟨id, made, packed⟩ := bind_eq_ok.mp packed
  have id_length := bootId_length made
  obtain ⟨header, made, packed⟩ := bind_eq_ok.mp packed
  obtain ⟨words, made, header_eq⟩ := bind_eq_ok.mp made
  obtain ⟨in_words, words_eq⟩ := packWords_eq_ok made
  refine ⟨board, raw, board_encoded, encoded, fits, ?_⟩
  have main_length : main.length = cmdlineLen := by
    rw [main_eq]
    exact length_ljust (List.length_take_le _ _)
  have extra_length : extra.length = extraCmdlineLen := by
    rw [extra_eq]
    apply length_ljust
    rw [List.length_drop]
    omega
  have board_length : (ljust board nameLen).length = nameLen := length_ljust board_fits
  rw [← main_eq, ← extra_eq]
  have numbers : words = (headerWords (a.contents (ljust board nameLen) main extra)
      (a.base + a.kernelOffset).toNat (a.base + a.ramdiskOffset).toNat
      (a.base + a.secondOffset).toNat (a.base + a.tagsOffset).toNat).flatMap le32 := by
    rw [words_eq]
    simp [headerWords, Args.contents]
  have words_length : words.length = 40 := by
    rw [numbers]
    rfl
  obtain rfl := Except.ok.inj header_eq
  have header_length : (bootMagic ++ words ++ ljust board nameLen ++ main ++ id ++ extra).length =
      headerSize := by
    simp only [List.length_append, words_length, board_length, main_length, id_length, extra_length]
    rfl
  simp only [List.forall_mem_cons] at in_words
  dsimp only at packed
  rw [header_length] at packed
  split at packed
  · exact absurd packed (by simp)
  · rename_i page
    have size : headerSize = 1632 := rfl
    have big : headerSize ≤ a.pageSize.toNat := by omega
    have some_page : 0 < a.pageSize.toNat := by omega
    generalize header_eq : bootMagic ++ words ++ ljust board nameLen ++ main ++ id ++ extra = H
      at header_length packed
    have image_eq := Except.ok.inj packed
    have length := congrArg List.length image_eq
    have stands : StandsAt image 0 (pad H a.pageSize.toNat ++ pad a.kernel a.pageSize.toNat ++
        pad (a.ramdisk.getD []) a.pageSize.toNat ++ pad (a.second.getD []) a.pageSize.toNat ++
          pad (a.dt.getD []) a.pageSize.toNat) := by
      rw [image_eq]
      exact standsAt_self image
    simp only [List.length_append, length_pad some_page, header_length, align_header big] at length
    simp only [standsAt_append, List.length_append, length_pad some_page, header_length,
      align_header big, Nat.zero_add] at stands
    obtain ⟨⟨⟨⟨header, kernel⟩, ramdisk⟩, second⟩, dt⟩ := stands
    have header := pad_stands header
    rw [← header_eq, numbers] at header
    obtain ⟨fields, main_stands, extra_stands⟩ :=
      @header_stands image id (a.contents (ljust board nameLen) main extra) _ _ _ _ header
        board_length main_length id_length
    refine
      { page := big, words := ?_, board := board_length, main := main_length, extra := extra_length,
        long := ?_, header := fields, cmdline := main_stands, extraCmdline := extra_stands,
        blobs := ?_ }
    · simp only [List.forall_mem_cons, Args.contents]
      exact ⟨by omega, by omega, by omega, by omega, by omega, by simp⟩
    · simp only [Args.contents]
      omega
    · simp only [Contents.blobWrites, List.forall_mem_cons, Args.contents, Contents.ramdiskOff,
        Contents.secondOff, Contents.dtOff]
      exact ⟨pad_stands kernel, pad_stands ramdisk, pad_stands second, pad_stands dt, by simp⟩

def Admissible (cmdline : Str) : Prop :=
  (∀ c ∈ cmdline, c.toNat < 128) ∧ cmdline.length ≤ cmdlineLen + extraCmdlineLen

theorem admissible_encoded {cmdline : Str} (admissible : Admissible cmdline) :
    ∃ raw, encodeAscii cmdline = some raw ∧ raw.length ≤ cmdlineLen + extraCmdlineLen := by
  refine ⟨_, encodeAscii_eq_some.mpr ⟨admissible.1, rfl⟩, ?_⟩
  rw [List.length_map]
  exact admissible.2

def Args.values (a : Args) : List Int :=
  [a.kernel.length, a.base + a.kernelOffset, (a.ramdisk.getD []).length,
    a.base + a.ramdiskOffset, (a.second.getD []).length, a.base + a.secondOffset,
    a.base + a.tagsOffset, a.pageSize, (a.dt.getD []).length, 0]

theorem packWords_ok {values : List Int} (fits : ∀ v ∈ values, 0 ≤ v ∧ v < 2 ^ 32) :
    ∃ bytes, packWords values = .ok bytes := by
  induction values with
  | nil => exact ⟨[], rfl⟩
  | cons v values ih =>
      obtain ⟨here, fits⟩ := List.forall_mem_cons.mp fits
      obtain ⟨rest, others⟩ := ih fits
      refine ⟨le32 v.toNat ++ rest, bind_eq_ok.mpr ⟨_, packWord_eq_ok.mpr ⟨here, rfl⟩, ?_⟩⟩
      exact bind_eq_ok.mpr ⟨rest, others, rfl⟩

/-- What fits the header is packed: short ASCII strings, numbers of a word, and a page that the
header fits. -/
theorem mkbootimg_written (sha1 : Sha1) (board : ∀ c ∈ a.board.1, c.toNat < 128)
    (board_fits : a.board.1.length ≤ nameLen) (cmdline : Admissible a.cmdline)
    (words : ∀ v ∈ a.values, 0 ≤ v ∧ v < 2 ^ 32) (page : (headerSize : Int) ≤ a.pageSize) :
    ∃ image, mkbootimg sha1 a = .ok image := by
  obtain ⟨raw, encoded, fits⟩ := admissible_encoded cmdline
  obtain ⟨bytes, packed⟩ := packWords_ok words
  have name := encodeAscii_eq_some.mpr ⟨board, rfl⟩
  have sizes := words
  simp only [Args.values, List.forall_mem_cons] at sizes
  have named : packBoard a.board =
      .ok (ljust (a.board.1.map fun c => UInt8.ofNat c.toNat) nameLen) := by
    rw [packBoard, name]
    exact if_neg (by rw [List.length_map]; exact Nat.not_lt.mpr board_fits)
  have split : splitCmdline a.cmdline = .ok (ljust (raw.take cmdlineLen) cmdlineLen,
      ljust (raw.drop cmdlineLen) extraCmdlineLen) := by
    rw [splitCmdline, encoded]
    exact if_neg (Nat.not_lt.mpr fits)
  obtain ⟨id, made⟩ : ∃ id, bootId sha1 a.kernel (a.ramdisk.getD []) (a.second.getD []) = .ok id := by
    refine ⟨_, bind_eq_ok.mpr ⟨_, packWord_eq_ok.mpr ⟨by omega, rfl⟩, bind_eq_ok.mpr
      ⟨_, packWord_eq_ok.mpr ⟨by omega, rfl⟩, bind_eq_ok.mpr
        ⟨_, packWord_eq_ok.mpr ⟨by omega, rfl⟩, rfl⟩⟩⟩⟩
  have id_length := bootId_length made
  have words_length : bytes.length = 40 := by
    rw [(packWords_eq_ok packed).2]
    rfl
  have header (board main extra : Bytes) :
      packHeader a board main extra id = .ok (bootMagic ++ bytes ++ board ++ main ++ id ++ extra) :=
    bind_eq_ok.mpr ⟨bytes, packed, rfl⟩
  have ok {β : Type} (x : Bytes) (f : Bytes → Except PackError β) :
      (Except.ok x >>= f) = f x := rfl
  have ok' {β : Type} (x : Bytes × Bytes) (f : Bytes × Bytes → Except PackError β) :
      (Except.ok x >>= f) = f x := rfl
  have board_length : (ljust (a.board.1.map fun c => UInt8.ofNat c.toNat) nameLen).length = nameLen := by
    apply length_ljust
    rw [List.length_map]
    exact board_fits
  have main_length : (ljust (raw.take cmdlineLen) cmdlineLen).length = cmdlineLen :=
    length_ljust (List.length_take_le _ _)
  have extra_length : (ljust (raw.drop cmdlineLen) extraCmdlineLen).length = extraCmdlineLen := by
    apply length_ljust
    rw [List.length_drop]
    omega
  rw [mkbootimg, named, ok, split, ok']
  dsimp only
  rw [made, ok, header, ok, if_neg]
  · exact ⟨_, rfl⟩
  · simp only [List.length_append, words_length, board_length, main_length, id_length, extra_length]
    exact Int.not_lt.mpr page

def Args.parts (a : Args) : List Part := (a.contents [] [] []).parts

/-- The parser reads the command line, the board and the blobs, each at a page. -/
def ReadBack (a : Args) (image : Bytes) (cmdline : Str) : Prop :=
  ∃ report, parseBootImage image = .ok report ∧ report.cmdline = cmdline ∧
    report.board = a.board ∧ report.parts = a.parts ∧
    ∀ part ∈ report.parts, a.pageSize.toNat ∣ part.offset

theorem dvd_parts (c : Contents) : ∀ part ∈ c.parts, c.pageSize ∣ part.offset := by
  have page (n : Nat) : c.pageSize ∣ align n c.pageSize := Nat.dvd_mul_left _ _
  have ramdisk : c.pageSize ∣ c.ramdiskOff := Nat.dvd_add (Nat.dvd_refl _) (page _)
  have second : c.pageSize ∣ c.secondOff := Nat.dvd_add ramdisk (page _)
  have dt : c.pageSize ∣ c.dtOff := Nat.dvd_add second (page _)
  intro part mem
  simp only [Contents.parts, List.mem_append, List.mem_cons, List.not_mem_nil, or_false] at mem
  rcases mem with ((rfl | rfl) | there) | there
  · exact Nat.dvd_refl _
  · exact ramdisk
  · split at there
    · exact absurd there List.not_mem_nil
    · rw [List.mem_singleton.mp there]
      exact second
  · split at there
    · exact absurd there List.not_mem_nil
    · rw [List.mem_singleton.mp there]
      exact dt

theorem laid_readBack {board raw : Bytes} {cmdline : Argument}
    (board_encoded : encodeAscii a.board = some board)
    (encoded : encodeAscii cmdline = some raw)
    (fits : raw.length ≤ cmdlineLen + extraCmdlineLen)
    (laid : (a.contents (ljust board nameLen) (ljust (raw.take cmdlineLen) cmdlineLen)
      (ljust (raw.drop cmdlineLen) extraCmdlineLen)).Laid image) : ReadBack a image cmdline := by
  obtain ⟨report, parsed, name, line, parts⟩ := laid_parsed laid
  refine ⟨report, parsed, ?_, ?_, parts, ?_⟩
  · rw [line]
    exact cString_fields encoded cmdline.2 fits
  · rw [name]
    exact cString_ljust board_encoded a.board.2
  · rw [parts]
    exact dvd_parts _

/-- The packer's image reads back, and with another command line patched in it differs in the
two fields only and reads back with that one. -/
theorem pack_parse_patch (packed : mkbootimg sha1 a = .ok image) :
    ReadBack a image a.cmdline ∧
      ∀ cmdline : Argument, Admissible cmdline →
        ∃ patched, patch image cmdline = .ok patched ∧ patched.length = image.length ∧
          (∀ i, ¬ (cmdlineOff ≤ i ∧ i < cmdlineOff + cmdlineLen) →
            ¬ (extraCmdlineOff ≤ i ∧ i < extraCmdlineOff + extraCmdlineLen) →
              patched[i]? = image[i]?) ∧
          ReadBack a patched cmdline := by
  obtain ⟨board, raw, board_encoded, encoded, fits, laid⟩ := mkbootimg_laid packed
  refine ⟨laid_readBack board_encoded encoded fits laid, fun cmdline admissible => ?_⟩
  obtain ⟨raw', encoded', fits'⟩ := admissible_encoded admissible
  obtain ⟨patched, written, length, outside, laid'⟩ := patch_laid laid encoded' fits'
  exact ⟨patched, written, length, outside, laid_readBack board_encoded encoded' fits' laid'⟩

/-- An image of one byte for each blob, with 2048-byte pages. -/
def smallArgs : Args where
  kernel := [1]
  ramdisk := some [2]
  second := none
  dt := some [3]
  cmdline := ⟨['r', 'o'], by decide⟩
  board := ⟨['c'], by decide⟩
  base := 0
  kernelOffset := 0x8000
  ramdiskOffset := 0x02000000
  secondOffset := 0x00f00000
  tagsOffset := 0x01e00000
  pageSize := 2048

theorem pack_parse_patch_small :
    ∃ image patched, mkbootimg (fun _ => ⟨zeros 20, List.length_replicate⟩) smallArgs = .ok image ∧
      ReadBack smallArgs image ['r', 'o'] ∧ patch image ['r', 'w'] = .ok patched ∧
      ReadBack smallArgs patched ['r', 'w'] := by
  obtain ⟨image, packed⟩ := @mkbootimg_written smallArgs
    (fun _ => ⟨zeros 20, List.length_replicate⟩) (List.all_iff_forall_prop.mp rfl) (by decide)
    ⟨List.all_iff_forall_prop.mp rfl, by decide⟩ (by decide) (by decide)
  obtain ⟨read, patches⟩ := pack_parse_patch packed
  have admissible : Admissible ['r', 'w'] := ⟨List.all_iff_forall_prop.mp rfl, by decide⟩
  obtain ⟨patched, written, _, _, read'⟩ := patches ⟨['r', 'w'], by decide⟩ admissible
  exact ⟨image, patched, packed, read, written, read'⟩

end Pack

end Stage90.Bootimg
