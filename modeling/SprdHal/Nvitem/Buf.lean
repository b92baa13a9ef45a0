import SprdHal.Lib.Bytes

/-!
# The NV partition buffers (`nvitem_buf.c`)

Each partition is held three times: `fromChannel` receives the data of the open request, `backup`
is the last committed image and `toDisk` is the copy the saver writes out. Each copy has its own
dirty table, one bit a sector. All three images of a partition have the configured size, which
`Part` carries as a field; `memcpy` between them moves whole sectors only.
-/

namespace SprdHal.Nvitem

open SprdHal.Lib

/-- `RAMNV_NUM` -/
def ramnvNum : Nat := 15

/-- `RAMNV_SECT_SIZE` -/
def ramnvSectSize : Nat := 512

/-- `RAMNV_DIRTYTABLE_MAXSIZE` -/
def ramnvDirtytableMaxsize : Nat := 32

/-- One bit a sector, 32 sectors a word. -/
abbrev DirtyTable := Vector UInt32 ramnvDirtytableMaxsize

/-- `_RAMNV_BUF_CTRL` -/
structure BufCtrl where
  diskbuf : List UInt8
  dirty : DirtyTable
  deriving DecidableEq

/-- `_RAMNV_PART_CTRL`. The source stores `sctNum`, always `imageSize / RAMNV_SECT_SIZE`. -/
structure Part where
  partId : UInt32
  imageSize : UInt32
  fromChannel : BufCtrl
  backup : BufCtrl
  toDisk : BufCtrl
  fromChannel_size : fromChannel.diskbuf.length = imageSize.toNat
  backup_size : backup.diskbuf.length = imageSize.toNat
  toDisk_size : toDisk.diskbuf.length = imageSize.toNat
  deriving DecidableEq

/-- `ramNvCtl`; `partNum` is the length of `part`. -/
structure RamNvCtl where
  part : List Part
  partNum_le : part.length ≤ ramnvNum
  deriving DecidableEq

namespace Part

def sctNum (p : Part) : Nat := p.imageSize.toNat / ramnvSectSize

/-- The bytes the copies move: `RAMNV_SECT_SIZE*sctNum`. -/
def copySize (p : Part) : Nat := ramnvSectSize * p.sctNum

end Part

/-- Change the partition at a control index; indices outside the array change nothing. -/
def RamNvCtl.modifyPart (c : RamNvCtl) (id : UInt32) (f : Part → Part) : RamNvCtl where
  part := c.part.modify id.toNat f
  partNum_le := by rw [List.length_modify]; exact c.partNum_le

/-! ## Operations -/

/-- The loop of `getCtlId`: `(uint32)-1` when no partition has the id. -/
def getCtlId (c : RamNvCtl) (partId : UInt32) : UInt32 :=
  match c.part.findIdx? (fun p => p.partId == partId) with
  | some i => UInt32.ofNat i
  | none => 0xFFFFFFFF

/-- `_DIRTY_TABLE[i] |= w`; past the table nothing is modelled. -/
def DirtyTable.orWord (d : DirtyTable) (i : Nat) (w : UInt32) : DirtyTable :=
  d.setIfInBounds i (d.getD i 0 ||| w)

/-- A left or right shift by 32 or more bits gives 0, as on the target; Lean's shifts wrap. -/
def shl (w : UInt32) (n : Nat) : UInt32 := if n < 32 then w <<< UInt32.ofNat n else 0

@[inherit_doc shl]
def shr (w : UInt32) (n : Nat) : UInt32 := if n < 32 then w >>> UInt32.ofNat n else 0

/-- The loop of `_markDirtyInfo`, from word `bytes` and bit `bits` of the table. -/
def markLoop (d : DirtyTable) (bytes bits scts : Nat) : DirtyTable :=
  if bits < 32 ∧ 32 - bits < scts then
    markLoop (d.orWord bytes (shl 0xFFFFFFFF bits)) (bytes + 1) 0 (scts - (32 - bits))
  else
    d.orWord bytes (shl (shr 0xFFFFFFFF (32 - scts)) bits)
termination_by scts
decreasing_by omega

/-- `_markDirtyInfo`: mark `scts` sectors of `fromChannel` from sector `start` on. -/
def markDirtyInfo (c : RamNvCtl) (id start scts : UInt32) : RamNvCtl :=
  c.modifyPart id fun p =>
    { p with fromChannel := { p.fromChannel with
        dirty := markLoop p.fromChannel.dirty (start.toNat / 32) (start.toNat % 32) scts.toNat } }

/-- `__ifHasDirty` on the `backup` table. -/
def ifHasDirty (p : Part) : Bool := p.backup.dirty.toList.any (· != 0)

/-- `writeData`: bytes into `fromChannel`. -/
def writeData (c : RamNvCtl) (id start : UInt32) (buf : List UInt8) : RamNvCtl :=
  c.modifyPart id fun p =>
    { p with
      fromChannel := { p.fromChannel with diskbuf := patch p.fromChannel.diskbuf start.toNat buf }
      fromChannel_size := by simpa using p.fromChannel_size }

/-- `memcpy` of `n` bytes between two images of a partition. -/
def copyImage (dst src : List UInt8) (n : Nat) : List UInt8 := patch dst 0 (src.take n)

/-- The mutex-protected part of `backupData`: `fromChannel` to `backup`. -/
def Part.commit (p : Part) : Part :=
  { p with
    backup :=
      { diskbuf := copyImage p.backup.diskbuf p.fromChannel.diskbuf p.copySize
        dirty := Vector.zipWith (· ||| ·) p.backup.dirty p.fromChannel.dirty }
    backup_size := by simpa [copyImage] using p.backup_size }

/-- `restoreData` on one partition: `backup` to `fromChannel`, dirty table included. -/
def Part.restore (p : Part) : Part :=
  { p with
    fromChannel :=
      { diskbuf := copyImage p.fromChannel.diskbuf p.backup.diskbuf p.copySize
        dirty := p.backup.dirty }
    fromChannel_size := by simpa [copyImage] using p.fromChannel_size }

/-- `__getData` on one partition: `backup` to `toDisk`, and the `backup` table is cleared. -/
def Part.getData (p : Part) : Part :=
  { p with
    backup := { p.backup with dirty := Vector.replicate _ 0 }
    toDisk :=
      { diskbuf := copyImage p.toDisk.diskbuf p.backup.diskbuf p.copySize
        dirty := Vector.zipWith (· ||| ·) p.toDisk.dirty p.backup.dirty }
    toDisk_size := by simpa [copyImage] using p.toDisk_size }

/-- What `saveToDisk` does to `toDisk` after a successful `ramDisk_Write`. -/
def Part.cleanToDisk (p : Part) : Part :=
  { p with toDisk := { p.toDisk with dirty := Vector.replicate _ 0 } }

def restoreData (c : RamNvCtl) (id : UInt32) : RamNvCtl := c.modifyPart id Part.restore

def getData (c : RamNvCtl) (id : UInt32) : RamNvCtl := c.modifyPart id Part.getData

/-- One iteration of `saveToDisk` on a partition, given the result of its `ramDisk_Write`. -/
def Part.save (written : Bool) (p : Part) : Part :=
  if ifHasDirty p then (if written then p.getData.cleanToDisk else p.getData) else p

/-- `saveToDisk`, given the result of `ramDisk_Write` for each control index. -/
def saveToDisk (ramDiskWrite : Nat → Bool) (c : RamNvCtl) : RamNvCtl where
  part := c.part.mapIdx fun id p => p.save (ramDiskWrite id)
  partNum_le := by rw [List.length_mapIdx]; exact c.partNum_le

/-- What a commit depends on besides the buffers: the mode, and the results of the disk writes a
commit in calibration mode makes itself. -/
structure SaveEnv where
  isCaliMode : Bool
  ramDiskWrite : Nat → Bool

/-- `backupData`. In calibration mode the commit saves to disk, otherwise it wakes the saver. It
always returns 1. -/
def backupData (env : SaveEnv) (c : RamNvCtl) (id : UInt32) : RamNvCtl × UInt8 :=
  let c := c.modifyPart id Part.commit
  (if env.isCaliMode then saveToDisk env.ramDiskWrite c else c, 1)

/-! ## Start-up -/

/-- One entry of the configuration with what `ramDisk_Read` made of it: its result and the
contents of the buffer, which has the configured size. -/
structure PartSource where
  partId : UInt32
  imageSize : UInt32
  readOk : Bool
  image : List UInt8
  image_size : image.length = imageSize.toNat

/-- The three buffers of a partition after its image has been read. -/
def PartSource.open (src : PartSource) : Part :=
  let b : BufCtrl := ⟨src.image, Vector.replicate _ 0⟩
  ⟨src.partId, src.imageSize, b, b, b, src.image_size, src.image_size, src.image_size⟩

/-- `initBuf`: the configuration ends at partition id 0, and a partition whose handle is 0 or
whose image cannot be read is left out. -/
def initBuf (config : List PartSource) : RamNvCtl where
  part := (((config.take ramnvNum).takeWhile (·.partId != 0)).filter (·.readOk)).map PartSource.open
  partNum_le := by
    rw [List.length_map]
    exact Nat.le_trans (List.filter_sublist.trans (List.takeWhile_sublist _)).length_le
      (List.length_take_le _ _)

end SprdHal.Nvitem
