import SprdHal.Nvitem.SyncSpec

/-!
# What the buffer operations do to the images

The results about requests look at a partition through its size and its `fromChannel` and `backup`
images only. Here every operation of `nvitem_buf.c` is described in these terms; dirty tables and
`toDisk` drop out.
-/

namespace SprdHal.Nvitem

open SprdHal.Lib

/-- The `fromChannel` image of the partition at an index. -/
def RamNvCtl.fromImage (c : RamNvCtl) (k : Nat) : Option (List UInt8) :=
  c.part[k]?.map (·.fromChannel.diskbuf)

/-- The `backup` image of the partition at an index. -/
def RamNvCtl.backImage (c : RamNvCtl) (k : Nat) : Option (List UInt8) :=
  c.part[k]?.map (·.backup.diskbuf)

/-- Partition ids and image sizes, which never change after start-up. -/
def RamNvCtl.layout (c : RamNvCtl) : List (UInt32 × UInt32) :=
  c.part.map fun p => (p.partId, p.imageSize)

/-- The bytes of the whole sectors of the partition at an index. -/
def RamNvCtl.copySize (c : RamNvCtl) (k : Nat) : Option Nat :=
  c.layout[k]?.map fun l => ramnvSectSize * (l.2.toNat / ramnvSectSize)

/-- The control array is its partitions. -/
theorem RamNvCtl.ext_part {c c' : RamNvCtl} (h : ∀ k : Nat, c.part[k]? = c'.part[k]?) : c = c' := by
  obtain ⟨part, _⟩ := c
  obtain ⟨part', _⟩ := c'
  obtain rfl : part = part' := List.ext_getElem? h
  rfl

theorem getElem?_modifyPart (c : RamNvCtl) (id : UInt32) (f : Part → Part) (k : Nat) :
    (c.modifyPart id f).part[k]? =
      if k = id.toNat then c.part[k]?.map f else c.part[k]? := by
  simp only [RamNvCtl.modifyPart, List.getElem?_modify]
  by_cases h : k = id.toNat
  · simp [h]
  · have h' : ¬ id.toNat = k := fun e => h e.symm
    simp [h, h']

theorem length_modifyPart (c : RamNvCtl) (id : UInt32) (f : Part → Part) :
    (c.modifyPart id f).part.length = c.part.length := List.length_modify _ _ _

theorem modifyPart_modifyPart (c : RamNvCtl) (id : UInt32) (f g : Part → Part) :
    (c.modifyPart id f).modifyPart id g = c.modifyPart id (g ∘ f) := by
  apply RamNvCtl.ext_part
  intro k
  simp only [getElem?_modifyPart]
  split <;> simp

theorem copySize_eq {c : RamNvCtl} {k : Nat} {p : Part} (h : c.part[k]? = some p) :
    c.copySize k = some p.copySize := by
  simp [RamNvCtl.copySize, RamNvCtl.layout, h, Part.copySize, Part.sctNum]

theorem copySize_congr {c c' : RamNvCtl} (h : c'.layout = c.layout) (k : Nat) :
    c'.copySize k = c.copySize k := by rw [RamNvCtl.copySize, h, RamNvCtl.copySize]

theorem copySize_lt {c : RamNvCtl} {k n : Nat} (h : c.copySize k = some n) : n < 4294967296 := by
  obtain ⟨l, -, rfl⟩ := Option.map_eq_some_iff.mp h
  have h1 := l.2.toNat_lt
  have h2 := Nat.mul_div_le l.2.toNat ramnvSectSize
  omega

/-- The index of a known partition is an index of the control array. -/
theorem getCtlId_spec {c : RamNvCtl} {partId : UInt32} (h : getCtlId c partId ≠ 0xFFFFFFFF) :
    ∃ p, c.part[(getCtlId c partId).toNat]? = some p ∧ p.partId = partId := by
  unfold getCtlId at h ⊢
  cases hf : c.part.findIdx? (fun p => p.partId == partId) with
  | none => rw [hf] at h; exact absurd rfl h
  | some i =>
    obtain ⟨hi, hpi, -⟩ := List.findIdx?_eq_some_iff_getElem.mp hf
    have hlt : i < 4294967296 := by
      have := c.partNum_le
      unfold ramnvNum at this
      omega
    have hto : (UInt32.ofNat i).toNat = i := by
      rw [UInt32.toNat_ofNat']
      omega
    refine ⟨c.part[i], ?_, by simpa using hpi⟩
    simp only [hto, List.getElem?_eq_getElem hi]

/-! ## Operations that leave the images alone -/

section Frame

/-- `c'` has the partitions of `c` with the same two images. -/
structure SameImages (c c' : RamNvCtl) : Prop where
  from_eq : ∀ k, c'.fromImage k = c.fromImage k
  back_eq : ∀ k, c'.backImage k = c.backImage k
  layout_eq : c'.layout = c.layout

theorem SameImages.refl (c : RamNvCtl) : SameImages c c := ⟨fun _ => rfl, fun _ => rfl, rfl⟩

theorem layout_modifyPart (c : RamNvCtl) (id : UInt32) (f : Part → Part)
    (hf : ∀ p, (f p).partId = p.partId ∧ (f p).imageSize = p.imageSize) :
    (c.modifyPart id f).layout = c.layout := by
  apply List.ext_getElem?
  intro k
  simp only [RamNvCtl.layout, List.getElem?_map, getElem?_modifyPart]
  by_cases h : k = id.toNat
  · rw [if_pos h, Option.map_map]
    congr 1
    funext p
    simp [(hf p).1, (hf p).2]
  · rw [if_neg h]

theorem markDirtyInfo_same (c : RamNvCtl) (id start scts : UInt32) :
    SameImages c (markDirtyInfo c id start scts) where
  from_eq k := by
    simp only [RamNvCtl.fromImage, markDirtyInfo, getElem?_modifyPart]
    split
    · rw [Option.map_map]; rfl
    · rfl
  back_eq k := by
    simp only [RamNvCtl.backImage, markDirtyInfo, getElem?_modifyPart]
    split
    · rw [Option.map_map]; rfl
    · rfl
  layout_eq := layout_modifyPart c id _ fun _ => ⟨rfl, rfl⟩

theorem Part.save_images (p : Part) (w : Bool) :
    (p.save w).fromChannel = p.fromChannel ∧ (p.save w).backup.diskbuf = p.backup.diskbuf ∧
      (p.save w).partId = p.partId ∧ (p.save w).imageSize = p.imageSize := by
  unfold Part.save
  split
  · split <;> exact ⟨rfl, rfl, rfl, rfl⟩
  · exact ⟨rfl, rfl, rfl, rfl⟩

theorem saveToDisk_same (w : Nat → Bool) (c : RamNvCtl) : SameImages c (saveToDisk w c) where
  from_eq k := by
    simp only [RamNvCtl.fromImage, saveToDisk, List.getElem?_mapIdx, Option.map_map]
    congr 1
    funext p
    simp [(Part.save_images p (w k)).1]
  back_eq k := by
    simp only [RamNvCtl.backImage, saveToDisk, List.getElem?_mapIdx, Option.map_map]
    congr 1
    funext p
    simp [(Part.save_images p (w k)).2.1]
  layout_eq := by
    apply List.ext_getElem?
    intro k
    simp only [RamNvCtl.layout, saveToDisk, List.getElem?_map, List.getElem?_mapIdx,
      Option.map_map]
    congr 1
    funext p
    simp [(Part.save_images p (w k)).2.2.1, (Part.save_images p (w k)).2.2.2]

end Frame

/-! ## Operations on one image -/

theorem fromImage_writeData (c : RamNvCtl) (id start : UInt32) (bs : List UInt8) (k : Nat) :
    (writeData c id start bs).fromImage k =
      if k = id.toNat then (c.fromImage k).map (patch · start.toNat bs) else c.fromImage k := by
  simp only [RamNvCtl.fromImage, writeData, getElem?_modifyPart]
  split
  · rw [Option.map_map, Option.map_map]; rfl
  · rfl

theorem backImage_writeData (c : RamNvCtl) (id start : UInt32) (bs : List UInt8) (k : Nat) :
    (writeData c id start bs).backImage k = c.backImage k := by
  simp only [RamNvCtl.backImage, writeData, getElem?_modifyPart]
  split
  · rw [Option.map_map]; rfl
  · rfl

theorem layout_writeData (c : RamNvCtl) (id start : UInt32) (bs : List UInt8) :
    (writeData c id start bs).layout = c.layout :=
  layout_modifyPart c id _ fun _ => ⟨rfl, rfl⟩

/-- The two images of a partition agree from its last whole sector on. -/
def AgreeFrom (n : Nat) (a b : List UInt8) : Prop := a.length = b.length ∧ ∀ k, n ≤ k → a[k]? = b[k]?

theorem copyImage_eq {n : Nat} {dst src : List UInt8} (h : AgreeFrom n src dst) :
    copyImage dst src n = src := patch_take_eq h.1 h.2

theorem fromImage_restoreData (c : RamNvCtl) (id : UInt32) (k : Nat) {a b : List UInt8} {n : Nat}
    (ha : c.fromImage k = some a) (hb : c.backImage k = some b) (hn : c.copySize k = some n)
    (hab : AgreeFrom n b a) :
    (restoreData c id).fromImage k = some (if k = id.toNat then b else a) := by
  obtain ⟨p, hp, rfl⟩ := Option.map_eq_some_iff.mp ha
  simp only [RamNvCtl.backImage, hp, Option.map_some, Option.some.injEq] at hb
  subst hb
  rw [copySize_eq hp, Option.some.injEq] at hn
  subst hn
  simp only [RamNvCtl.fromImage, restoreData, getElem?_modifyPart, hp]
  by_cases h : k = id.toNat
  · rw [if_pos h, if_pos h]
    simp [Part.restore, copyImage_eq hab]
  · rw [if_neg h, if_neg h]
    rfl

theorem backImage_restoreData (c : RamNvCtl) (id : UInt32) (k : Nat) :
    (restoreData c id).backImage k = c.backImage k := by
  simp only [RamNvCtl.backImage, restoreData, getElem?_modifyPart]
  split
  · rw [Option.map_map]; rfl
  · rfl

theorem layout_restoreData (c : RamNvCtl) (id : UInt32) : (restoreData c id).layout = c.layout :=
  layout_modifyPart c id _ fun _ => ⟨rfl, rfl⟩

section Backup

variable (env : SaveEnv) (c : RamNvCtl) (id : UInt32)

/-- Saving to disk in calibration mode does not show in the images. -/
theorem backupData_same : SameImages (c.modifyPart id Part.commit) (backupData env c id).1 := by
  unfold backupData
  simp only
  split
  · exact saveToDisk_same _ _
  · exact SameImages.refl _

theorem backImage_backupData (k : Nat) {a b : List UInt8} {n : Nat}
    (ha : c.fromImage k = some a) (hb : c.backImage k = some b) (hn : c.copySize k = some n)
    (hab : AgreeFrom n a b) :
    (backupData env c id).1.backImage k = some (if k = id.toNat then a else b) := by
  rw [(backupData_same env c id).back_eq]
  obtain ⟨p, hp, rfl⟩ := Option.map_eq_some_iff.mp ha
  simp only [RamNvCtl.backImage, hp, Option.map_some, Option.some.injEq] at hb
  subst hb
  rw [copySize_eq hp, Option.some.injEq] at hn
  subst hn
  simp only [RamNvCtl.backImage, getElem?_modifyPart, hp]
  by_cases h : k = id.toNat
  · rw [if_pos h, if_pos h]
    simp [Part.commit, copyImage_eq hab]
  · rw [if_neg h, if_neg h]
    rfl

theorem fromImage_backupData (k : Nat) :
    (backupData env c id).1.fromImage k = c.fromImage k := by
  rw [(backupData_same env c id).from_eq]
  simp only [RamNvCtl.fromImage, getElem?_modifyPart]
  split
  · rw [Option.map_map]; rfl
  · rfl

theorem layout_backupData : (backupData env c id).1.layout = c.layout := by
  rw [(backupData_same env c id).layout_eq]
  exact layout_modifyPart c id _ fun _ => ⟨rfl, rfl⟩

end Backup

/-! ## The layout never changes -/

theorem Parses.layout {env : SaveEnv} {hd : PacketHead} {s s' : Analyzer} {buf : List UInt8}
    {ev : List Event} (h : Parses env hd s buf s' ev) : s'.ctl.layout = s.ctl.layout := by
  induction h with
  | nil | short | badHead => rfl
  | head _ _ _ _ ih => exact ih
  | badBody => exact layout_restoreData _ _
  | body _ _ _ _ ih => exact ih.trans (markDirtyInfo_same _ _ _ _).layout_eq
  | tail => exact layout_backupData _ _ _
  | data _ _ _ _ ih => exact ih.trans (layout_writeData _ _ _ _)
  | part => exact layout_writeData _ _ _ _

theorem Analyzer.layout_abort (s : Analyzer) : s.abort.ctl.layout = s.ctl.layout := by
  unfold Analyzer.abort
  split
  · rfl
  · exact layout_restoreData _ _

theorem PacketStep.layout {s s' : Nvitemd} {i : Input} {ev : List Event}
    (h : PacketStep s i s' ev) : s'.an.ctl.layout = s.an.ctl.layout := by
  cases h with
  | fail => exact s.an.layout_abort
  | skip | noHead => rfl
  | start _ hp => exact hp.layout.trans s.an.layout_abort
  | cont _ _ hp => exact hp.layout

end SprdHal.Nvitem
