import SprdHal.Lib.Bytes
import SprdHal.Lib.Files

/-!
# The image files (`nvitem_fs.c`)

Every partition is kept in two files, each a header of one sector with a checksum and then the
image. `ramDisk_Write` rewrites `imageBak_path` first and `image_path` second. `ramDisk_Read` tries
the two files in a random order; when the first one it tries is bad and the second one is good, it
rewrites the first one from the second. A first file that is good is delivered without a look at
the other one.
-/

namespace SprdHal.Nvitem

open SprdHal.Lib

/-- `image_path` and `imageBak_path` -/
inductive ImageFile
  | image | imageBak
  deriving DecidableEq, Repr

/-- `NV_HEAD_MAGIC`, `NV_VERSION` -/
def nvHeadMagic : UInt32 := 0x00004e56
def nvVersion : UInt32 := 101

/-- The size of the header, `RAMNV_SECT_SIZE`. -/
def nvHeaderSize : Nat := 512

/-- The loop of `calc_checksum`; `unsigned long` has 32 bits. -/
def checksumLoop (chkSum : UInt32) : List UInt8 → UInt32
  | a :: b :: dat => checksumLoop (chkSum + (a.toUInt32 ||| (b.toUInt32 <<< 8))) dat
  | [a] => chkSum + a.toUInt32
  | [] => chkSum

/-- `calc_checksum` -/
def calcChecksum (dat : List UInt8) : UInt16 :=
  let chkSum := checksumLoop 0 dat
  let chkSum := (chkSum >>> 16) + (chkSum &&& 0xffff)
  let chkSum := chkSum + (chkSum >>> 16)
  (~~~ chkSum).toUInt16

/-- `header_buf` as `ramDisk_Write` fills it. -/
def nvHeader (buf : List UInt8) : List UInt8 :=
  leBytes nvHeadMagic ++ leBytes (UInt32.ofNat buf.length) ++ leBytes (calcChecksum buf).toUInt32 ++
    leBytes nvVersion ++ List.replicate 496 0

/-- `header_ptr->checksum`, as `_chkNVEcc` takes it. -/
def headerChecksum (header : List UInt8) : UInt16 := (leWord header 8).toUInt16

/-- `_chkNVEcc` -/
def chkNVEcc (buf : List UInt8) (checksum : UInt16) : Bool := calcChecksum buf == checksum

/-- The operations of `ramDisk_Write`. -/
def ramDiskWriteOps (buf : List UInt8) : List (FileOp ImageFile) :=
  rewriteOps .imageBak (nvHeader buf) buf ++ rewriteOps .image (nvHeader buf) buf

/-- What `ramDisk_Read` has after it tried a file: whether it could be opened, the results of the
two reads and the two buffers, which were cleared before. -/
structure FileRead where
  opened : Bool
  ret1 : Nat
  ret2 : Nat
  header : List UInt8
  buf : List UInt8

/-- Read a header and `size` bytes. A file that cannot be opened leaves the results of the reads
before it. -/
def readFile (size : Nat) (file : Option (List UInt8)) (ret1 ret2 : Nat) : FileRead :=
  match file with
  | none => ⟨false, ret1, ret2, List.replicate nvHeaderSize 0, List.replicate size 0xFF⟩
  | some bytes =>
    let h := bytes.take nvHeaderSize
    let b := (bytes.drop nvHeaderSize).take size
    ⟨true, h.length, b.length, patch (List.replicate nvHeaderSize 0) 0 h,
      patch (List.replicate size 0xFF) 0 b⟩

def FileRead.good (r : FileRead) : Bool := chkNVEcc r.buf (headerChecksum r.header)

/-- The checks the first file has to pass. -/
def FileRead.valid (size : Nat) (r : FileRead) : Bool :=
  r.opened && r.ret1 == nvHeaderSize && r.ret2 == size && r.good

/-- The file `ramDisk_Read` tries first, given `rand()%2`; the second one is the other file. -/
def ImageFile.first (imageFirst : Bool) : ImageFile := if imageFirst then .image else .imageBak

/-- `ramDisk_Read`: the contents of `buf` and the operations that repair the first file.
`imageFirst` is the read order, `rand()%2`. It returns 1 in any case. -/
def ramDiskRead (imageFirst : Bool) (size : Nat) (fs : Files ImageFile) :
    List UInt8 × List (FileOp ImageFile) :=
  let first := ImageFile.first imageFirst
  let second := ImageFile.first !imageFirst
  let r := readFile size (fs first) 0 0
  if r.valid size then (r.buf, [])
  else
    let r := readFile size (fs second) r.ret1 r.ret2
    if r.opened ∧ r.ret1 ≠ nvHeaderSize then (r.buf, [])
    else if r.ret2 ≠ size then (r.buf, [])
    else if ¬ r.good then (r.buf, [])
    else (r.buf, rewriteOps first r.header r.buf)

/-! ## Intact and broken files -/

/-- The contents of a file to which `buf` was written. -/
def imageOf (buf : List UInt8) : List UInt8 := nvHeader buf ++ buf

@[simp] theorem length_nvHeader (buf : List UInt8) : (nvHeader buf).length = nvHeaderSize := by
  simp only [nvHeader, nvHeaderSize, List.length_append, length_leBytes, List.length_replicate]

theorem headerChecksum_nvHeader (buf : List UInt8) :
    headerChecksum (nvHeader buf) = calcChecksum buf := by
  have h := leWord_leBytes (leBytes nvHeadMagic ++ leBytes (UInt32.ofNat buf.length))
    (calcChecksum buf).toUInt32 (leBytes nvVersion ++ List.replicate 496 0)
  have hw : leWord (nvHeader buf) 8 = (calcChecksum buf).toUInt32 := by
    rw [nvHeader, List.append_assoc]
    exact h
  rw [headerChecksum, hw]
  simp

/-- Copying over a buffer of the same length leaves the copy. -/
theorem patch_same_length {dst src : List UInt8} (h : src.length = dst.length) :
    patch dst 0 src = src := by
  have := patch_take_eq (n := src.length) h fun k hk => by
    rw [List.getElem?_eq_none hk, List.getElem?_eq_none (by omega)]
  rwa [List.take_length] at this

section Reading

variable {size : Nat} {buf : List UInt8}

/-- A file that was written completely is read back. -/
theorem readFile_imageOf (hl : buf.length = size) (ret1 ret2 : Nat) :
    readFile size (some (imageOf buf)) ret1 ret2 =
      ⟨true, nvHeaderSize, size, nvHeader buf, buf⟩ := by
  have h1 : (imageOf buf).take nvHeaderSize = nvHeader buf := List.take_left' (length_nvHeader buf)
  have h2 : (imageOf buf).drop nvHeaderSize = buf := List.drop_left' (length_nvHeader buf)
  simp only [readFile, h1, h2, List.take_of_length_le (Nat.le_of_eq hl), length_nvHeader, hl]
  rw [patch_same_length (by simp), patch_same_length (by simp [hl])]

theorem good_nvHeader (opened : Bool) (ret1 ret2 : Nat) :
    FileRead.good ⟨opened, ret1, ret2, nvHeader buf, buf⟩ = true := by
  simp [FileRead.good, chkNVEcc, headerChecksum_nvHeader]

theorem valid_imageOf (hl : buf.length = size) :
    (readFile size (some (imageOf buf)) 0 0).valid size = true := by
  rw [readFile_imageOf hl]
  simp [FileRead.valid, good_nvHeader]

/-- A file that is too short is noticed by the results of the reads. -/
theorem not_valid_of_short {bytes : List UInt8} (hs : bytes.length < nvHeaderSize + size) :
    (readFile size (some bytes) 0 0).valid size = false := by
  have h : (readFile size (some bytes) 0 0).ret1 ≠ nvHeaderSize ∨
      (readFile size (some bytes) 0 0).ret2 ≠ size := by
    simp only [readFile, List.length_take, List.length_drop]
    omega
  unfold FileRead.valid
  rcases h with h | h <;> simp [h]

end Reading

/-- **What a reader delivers**: a good first file is not looked beyond, and a bad one is rewritten
from a good second one. -/
theorem ramDiskRead_good_first {imageFirst : Bool} {size : Nat} {fs : Files ImageFile}
    {buf : List UInt8} (hl : buf.length = size)
    (hf : fs (.first imageFirst) = some (imageOf buf)) :
    ramDiskRead imageFirst size fs = (buf, []) := by
  have hv := valid_imageOf hl
  rw [readFile_imageOf hl] at hv
  simp only [ramDiskRead, hf, readFile_imageOf hl, hv, if_true]

theorem ramDiskRead_good_second {imageFirst : Bool} {size : Nat} {fs : Files ImageFile}
    {buf bytes : List UInt8} (hl : buf.length = size)
    (hf : fs (.first imageFirst) = some bytes) (hs : bytes.length < nvHeaderSize + size)
    (hb : fs (.first !imageFirst) = some (imageOf buf)) :
    ramDiskRead imageFirst size fs =
      (buf, rewriteOps (.first imageFirst) (nvHeader buf) buf) := by
  simp only [ramDiskRead, hf, hb, not_valid_of_short hs, Bool.false_eq_true, if_false,
    readFile_imageOf hl, good_nvHeader, ne_eq, not_true_eq_false, and_false]

end SprdHal.Nvitem
