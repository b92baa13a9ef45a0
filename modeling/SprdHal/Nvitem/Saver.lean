import SprdHal.Nvitem.Images
import SprdHal.Lib.Machine

/-!
# The saver

`pSaveTask` runs `saveToDisk` on a thread of its own while the analyser marks, writes, commits and
aborts. The mutex makes the bodies of `backupData`, `restoreData` and `__getData` atomic; between
them the two threads interleave in any way, also between two words of the dirty table that
`__ifHasDirty` looks at without the mutex, and between `__getData` and the end of `ramDisk_Write`.

The saver is a program counter next to the buffers, and `disk` is what `ramDisk_Write` last wrote
for each partition. The invariant: a committed image that is not on disk is marked in the `backup`
table, or the saver is about to write the partition. It is lost in one place. When `ramDisk_Write`
fails, the bits that `__getData` moved to the `toDisk` table stay there, and nobody tests that
table.
-/

namespace SprdHal.Nvitem

open SprdHal.Lib

/-- Where the saver is in `saveToDisk`: outside, in `__ifHasDirty` before the given word, before
`__getData`, or before the end of `ramDisk_Write`. -/
inductive SaverPc
  | idle
  | test (id : UInt32) (word : Nat)
  | get (id : UInt32)
  | write (id : UInt32)
  deriving DecidableEq

/-- The payload of an image: what `ramDisk_Write` is given of it. -/
def Part.payload (p : Part) (b : BufCtrl) : List UInt8 := b.diskbuf.take p.copySize

structure Saver where
  ctl : RamNvCtl
  disk : Nat → List UInt8
  pc : SaverPc

/-- One atomic step of either thread. `save ok` is the next step of the saver; `ok` is the result
of `ramDisk_Write` if it is the step that ends one. -/
inductive SaveAct
  | markDirtyInfo (id start scts : UInt32)
  | writeData (id start : UInt32) (buf : List UInt8)
  | backupData (id : UInt32)
  | restoreData (id : UInt32)
  | save (ok : Bool)
  deriving DecidableEq

/-- The head of the `for` loop of `saveToDisk`. -/
def SaverPc.loop (c : RamNvCtl) (id : UInt32) : SaverPc :=
  if id.toNat < c.part.length then .test id 0 else .idle

def saverStep (s : Saver) (ok : Bool) : Saver :=
  match s.pc with
  | .idle => { s with pc := .loop s.ctl 0 }
  | .test id w =>
    match s.ctl.part[id.toNat]? with
    | none => { s with pc := .idle }
    | some p =>
      if w < ramnvDirtytableMaxsize then
        { s with pc := if p.backup.dirty.getD w 0 ≠ 0 then .get id else .test id (w + 1) }
      else { s with pc := .loop s.ctl (id + 1) }
  | .get id => { s with ctl := getData s.ctl id, pc := .write id }
  | .write id =>
    match s.ctl.part[id.toNat]? with
    | none => { s with pc := .idle }
    | some p =>
      if ok then
        { ctl := s.ctl.modifyPart id Part.cleanToDisk
          disk := fun k => if k = id.toNat then p.payload p.toDisk else s.disk k
          pc := .loop s.ctl (id + 1) }
      else { s with pc := .loop s.ctl (id + 1) }

/-- In calibration mode the analyser runs `saveToDisk` itself at the end of `backupData`; this is a
`backupData` step followed by `save` steps. -/
def saveActStep (s : Saver) : SaveAct → Saver
  | .markDirtyInfo id start scts => { s with ctl := markDirtyInfo s.ctl id start scts }
  | .writeData id start buf => { s with ctl := writeData s.ctl id start buf }
  | .backupData id => { s with ctl := s.ctl.modifyPart id Part.commit }
  | .restoreData id => { s with ctl := restoreData s.ctl id }
  | .save ok => saverStep s ok

def saver : Machine Saver SaveAct Empty := ⟨fun s a => (saveActStep s a, [])⟩

/-- After `initBuf` the disk holds what was read from it. -/
def saverInit (config : List PartSource) : Saver where
  ctl := initBuf config
  disk k := match (initBuf config).part[k]? with
    | some p => p.payload p.backup
    | none => []
  pc := .idle

/-! ## Dirty tables -/

/-- Some sector is marked. -/
def DirtyTable.Dirty (d : DirtyTable) : Prop := ∃ w, d.getD w 0 ≠ 0

/-- The bit of a sector. -/
def DirtyTable.marked (d : DirtyTable) (sct : Nat) : Bool :=
  shr (d.getD (sct / 32) 0) (sct % 32) &&& 1 = 1

section Tables

variable {d d' : DirtyTable}

theorem getD_eq (d : DirtyTable) (k : Nat) : d.getD k 0 = d[k]?.getD 0 := by
  rw [Vector.getD, Array.getD_eq_getD_getElem?]
  simp

theorem word_lt {k : Nat} (h : d.getD k 0 ≠ 0) : k < ramnvDirtytableMaxsize := by
  by_contra hge
  rw [getD_eq, Vector.getElem?_eq_none (by omega)] at h
  exact h rfl

theorem or_ne_zero {a b : UInt32} (h : a ≠ 0 ∨ b ≠ 0) : a ||| b ≠ 0 := by
  intro h0
  have := UInt32.or_eq_zero_iff.mp h0
  rcases h with h | h
  · exact h this.1
  · exact h this.2

theorem dirty_of_marked {sct : Nat} (h : d.marked sct = true) : d.Dirty := by
  refine ⟨sct / 32, fun h0 => ?_⟩
  rw [DirtyTable.marked, h0, shr] at h
  split at h <;> simp at h

theorem dirty_orWord (h : d.Dirty) (i : Nat) (w : UInt32) : (d.orWord i w).Dirty := by
  obtain ⟨k, hk⟩ := h
  refine ⟨k, ?_⟩
  rw [DirtyTable.orWord, getD_eq, Vector.getElem?_setIfInBounds]
  by_cases hki : i = k
  · subst hki
    simpa [word_lt hk] using or_ne_zero (Or.inl hk)
  · rw [if_neg hki, ← getD_eq]
    exact hk

theorem dirty_markLoop (h : d.Dirty) (bytes bits scts : Nat) :
    (markLoop d bytes bits scts).Dirty := by
  fun_induction markLoop d bytes bits scts with
  | case1 d bytes bits scts _ ih => exact ih (dirty_orWord h _ _)
  | case2 d bytes bits scts => exact dirty_orWord h _ _

theorem dirty_zipWith (h : d.Dirty ∨ d'.Dirty) :
    DirtyTable.Dirty (Vector.zipWith (· ||| ·) d d') := by
  have hword : ∀ k, k < ramnvDirtytableMaxsize →
      Vector.getD (Vector.zipWith (· ||| ·) d d') k 0 = d.getD k 0 ||| d'.getD k 0 := by
    intro k hk
    simp only [getD_eq, Vector.getElem?_eq_getElem hk, Vector.getElem_zipWith, Option.getD_some]
  rcases h with ⟨k, hk⟩ | ⟨k, hk⟩
  · exact ⟨k, by rw [hword k (word_lt hk)]; exact or_ne_zero (Or.inl hk)⟩
  · exact ⟨k, by rw [hword k (word_lt hk)]; exact or_ne_zero (Or.inr hk)⟩

theorem any_ne_zero_iff : d.toList.any (· != 0) = true ↔ d.Dirty := by
  simp only [List.any_eq_true, bne_iff_ne, Vector.mem_toList_iff]
  constructor
  · rintro ⟨x, hx, hx'⟩
    obtain ⟨k, hk, rfl⟩ := Vector.mem_iff_getElem.mp hx
    refine ⟨k, ?_⟩
    rw [getD_eq, Vector.getElem?_eq_getElem hk]
    exact hx'
  · rintro ⟨k, hk⟩
    have hlt := word_lt hk
    rw [getD_eq, Vector.getElem?_eq_getElem hlt] at hk
    exact ⟨_, Vector.getElem_mem hlt, hk⟩

theorem ifHasDirty_iff {p : Part} : ifHasDirty p = true ↔ p.backup.dirty.Dirty := any_ne_zero_iff

instance : Decidable d.Dirty := decidable_of_iff _ any_ne_zero_iff

end Tables

/-! ## What the operations do to the payloads -/

section Payloads

variable (p : Part)

theorem payload_commit :
    p.commit.payload p.commit.backup = p.payload p.fromChannel ∧
      p.commit.payload p.commit.fromChannel = p.payload p.fromChannel ∧
      p.commit.payload p.commit.toDisk = p.payload p.toDisk := by
  refine ⟨?_, rfl, rfl⟩
  exact take_patch_take (by rw [p.fromChannel_size, p.backup_size])

theorem payload_restore :
    p.restore.payload p.restore.fromChannel = p.payload p.backup ∧
      p.restore.payload p.restore.backup = p.payload p.backup ∧
      p.restore.payload p.restore.toDisk = p.payload p.toDisk := by
  refine ⟨?_, rfl, rfl⟩
  exact take_patch_take (by rw [p.fromChannel_size, p.backup_size])

theorem payload_getData :
    p.getData.payload p.getData.toDisk = p.payload p.backup ∧
      p.getData.payload p.getData.backup = p.payload p.backup ∧
      p.getData.payload p.getData.fromChannel = p.payload p.fromChannel := by
  refine ⟨?_, rfl, rfl⟩
  exact take_patch_take (by rw [p.toDisk_size, p.backup_size])

end Payloads

/-! ## The invariant -/

/-- What holds of each partition, given what is on disk for it and whether the saver is about to
write it. -/
structure PartInv (p : Part) (disk : List UInt8) (writing : Prop) : Prop where
  incoming : p.payload p.fromChannel ≠ p.payload p.backup → p.fromChannel.dirty.Dirty
  committed : p.payload p.backup ≠ disk → p.backup.dirty.Dirty ∨ writing
  outgoing : writing → p.payload p.toDisk ≠ p.payload p.backup → p.backup.dirty.Dirty

def Saver.Inv (s : Saver) : Prop :=
  ∀ (j : UInt32) p, s.ctl.part[j.toNat]? = some p →
    PartInv p (s.disk j.toNat) (s.pc = .write j)

/-- A write touches marked sectors only. -/
def WritesMarked (s : Saver) : SaveAct → Prop
  | .writeData id start buf => ∀ p, s.ctl.part[id.toNat]? = some p →
      ∀ k < buf.length, p.fromChannel.dirty.marked ((start.toNat + k) / ramnvSectSize) = true
  | _ => True

/-- A `ramDisk_Write` that fails is no loss: a commit has marked the `backup` table since
`__getData`, or the committed image is the one on disk. -/
def HarmlessFailure (s : Saver) : SaveAct → Prop
  | .save false => ∀ id, s.pc = .write id → ∀ p, s.ctl.part[id.toNat]? = some p →
      p.backup.dirty.Dirty ∨ p.payload p.backup = s.disk id.toNat
  | _ => True

instance (s : Saver) : DecidablePred (WritesMarked s)
  | .writeData id start buf =>
    match h : s.ctl.part[id.toNat]? with
    | some p =>
      decidable_of_iff (∀ k < buf.length,
        p.fromChannel.dirty.marked ((start.toNat + k) / ramnvSectSize) = true)
        (by simp [WritesMarked, h])
    | none => isTrue (by simp [WritesMarked, h])
  | .markDirtyInfo .. | .backupData _ | .restoreData _ | .save _ => isTrue trivial

instance (s : Saver) : DecidablePred (HarmlessFailure s)
  | .save false =>
    match h : s.pc with
    | .write id =>
      match h' : s.ctl.part[id.toNat]? with
      | some p =>
        decidable_of_iff (p.backup.dirty.Dirty ∨ p.payload p.backup = s.disk id.toNat)
          (by simp [HarmlessFailure, h, h'])
      | none => isTrue (by simp [HarmlessFailure, h, h'])
    | .idle | .test .. | .get _ => isTrue (by simp [HarmlessFailure, h])
  | .save true | .markDirtyInfo .. | .writeData .. | .backupData _ | .restoreData _ =>
    isTrue trivial

section Invariant

variable {p : Part} {disk : List UInt8} {writing : Prop}

theorem PartInv.commit (h : PartInv p disk writing) : PartInv p.commit disk writing := by
  obtain ⟨h1, h2, h3⟩ := payload_commit p
  -- an image that the commit changes was marked when it was written
  have hkeep : ∀ {x : List UInt8} {w : Prop}, p.payload p.fromChannel ≠ x →
      (p.payload p.backup ≠ x → p.backup.dirty.Dirty ∨ w) →
      p.commit.backup.dirty.Dirty ∨ w := by
    intro x w hne hold
    by_cases heq : p.payload p.fromChannel = p.payload p.backup
    · rcases hold (heq ▸ hne) with hd | hw
      · exact Or.inl (dirty_zipWith (Or.inl hd))
      · exact Or.inr hw
    · exact Or.inl (dirty_zipWith (Or.inr (h.incoming heq)))
  refine ⟨fun hne => ?_, fun hne => ?_, fun hw hne => ?_⟩
  · rw [h1, h2] at hne
    exact absurd rfl hne
  · rw [h1] at hne
    exact hkeep hne h.committed
  · rw [h1, h3] at hne
    have := hkeep (w := False) (Ne.symm hne) fun hne' => Or.inl (h.outgoing hw (Ne.symm hne'))
    exact this.resolve_right id

theorem PartInv.restore (h : PartInv p disk writing) : PartInv p.restore disk writing := by
  obtain ⟨h1, h2, h3⟩ := payload_restore p
  refine ⟨fun hne => ?_, fun hne => ?_, fun hw hne => ?_⟩
  · rw [h1, h2] at hne
    exact absurd rfl hne
  · rw [h2] at hne
    exact h.committed hne
  · rw [h2, h3] at hne
    exact h.outgoing hw hne

theorem PartInv.getData (h : PartInv p disk writing) : PartInv p.getData disk True := by
  obtain ⟨h1, h2, h3⟩ := payload_getData p
  refine ⟨fun hne => ?_, fun _ => Or.inr trivial, fun _ hne => ?_⟩
  · rw [h2, h3] at hne
    exact h.incoming hne
  · rw [h1, h2] at hne
    exact absurd rfl hne

/-- Leaving `ramDisk_Write`. -/
theorem PartInv.written (h : PartInv p disk True) {w : Prop} (hw : ¬ w) :
    PartInv p.cleanToDisk (p.payload p.toDisk) w :=
  ⟨h.incoming, fun hne => Or.inl (h.outgoing trivial (Ne.symm hne)), fun h' => absurd h' hw⟩

theorem PartInv.mono (h : PartInv p disk writing) {w : Prop} (hw : ¬ w)
    (hd : writing → p.payload p.backup ≠ disk → p.backup.dirty.Dirty) : PartInv p disk w := by
  refine ⟨h.incoming, fun hne => ?_, fun h' => absurd h' hw⟩
  rcases h.committed hne with hdirty | hw'
  · exact Or.inl hdirty
  · exact Or.inl (hd hw' hne)

theorem PartInv.mark (h : PartInv p disk writing) (bytes bits scts : Nat) :
    PartInv { p with fromChannel := { p.fromChannel with
      dirty := markLoop p.fromChannel.dirty bytes bits scts } } disk writing :=
  ⟨fun hne => dirty_markLoop (h.incoming hne) _ _ _, h.committed, h.outgoing⟩

theorem PartInv.write (h : PartInv p disk writing) {start : Nat} {buf : List UInt8}
    (hm : ∀ k < buf.length, p.fromChannel.dirty.marked ((start + k) / ramnvSectSize) = true) :
    PartInv { p with
      fromChannel := { p.fromChannel with diskbuf := patch p.fromChannel.diskbuf start buf }
      fromChannel_size := by simpa using p.fromChannel_size } disk writing := by
  refine ⟨fun hne => ?_, h.committed, h.outgoing⟩
  cases buf with
  | nil =>
    refine h.incoming fun heq => hne ?_
    show (patch p.fromChannel.diskbuf start []).take p.copySize = p.payload p.backup
    rw [patch_nil]
    exact heq
  | cons b buf => exact dirty_of_marked (hm 0 (by simp))

end Invariant

section Steps

variable {s : Saver}

theorem Saver.Inv.modify (h : s.Inv) (id : UInt32) (f : Part → Part)
    (hf : ∀ p disk w, s.ctl.part[id.toNat]? = some p → PartInv p disk w → PartInv (f p) disk w) :
    Saver.Inv { s with ctl := s.ctl.modifyPart id f } := by
  intro j p hp
  rw [getElem?_modifyPart] at hp
  by_cases hj : j.toNat = id.toNat
  · rw [if_pos hj] at hp
    obtain ⟨q, hq, rfl⟩ := Option.map_eq_some_iff.mp hp
    exact hf q _ _ (hj ▸ hq) (h j q hq)
  · rw [if_neg hj] at hp
    exact h j p hp

theorem SaverPc.loop_ne_write (c : RamNvCtl) (id j : UInt32) : SaverPc.loop c id ≠ .write j := by
  unfold SaverPc.loop
  split <;> simp

/-- Steps of the saver that only move its program counter. -/
theorem Saver.Inv.move (h : s.Inv) {pc : SaverPc} (hold : ∀ j, s.pc ≠ .write j)
    (hnew : ∀ j, pc ≠ .write j) : Saver.Inv { s with pc := pc } := by
  intro j p hp
  exact (h j p hp).mono (hnew j) fun hw => absurd hw (hold j)

theorem Saver.Inv.saverStep (h : s.Inv) (ok : Bool) (hok : HarmlessFailure s (.save ok)) :
    (saverStep s ok).Inv := by
  unfold Nvitem.saverStep
  cases hpc : s.pc with
  | idle => exact h.move (by simp [hpc]) (SaverPc.loop_ne_write _ _)
  | test id w =>
    have hold : ∀ j, s.pc ≠ .write j := by simp [hpc]
    cases hp : s.ctl.part[id.toNat]? with
    | none =>
      simp only [hp]
      exact h.move hold (by simp)
    | some p =>
      simp only [hp]
      by_cases hw : w < ramnvDirtytableMaxsize
      · rw [if_pos hw]
        apply h.move hold
        intro j
        split <;> simp
      · rw [if_neg hw]
        exact h.move hold (SaverPc.loop_ne_write _ _)
  | get id =>
    intro j p hp
    simp only [getData, getElem?_modifyPart] at hp
    by_cases hj : j.toNat = id.toNat
    · rw [if_pos hj] at hp
      obtain ⟨q, hq, rfl⟩ := Option.map_eq_some_iff.mp hp
      obtain rfl := UInt32.toNat_inj.mp hj
      simpa using (h j q hq).getData
    · rw [if_neg hj] at hp
      have hne : ¬ SaverPc.write id = .write j := fun e => hj (by rw [SaverPc.write.inj e])
      exact (h j p hp).mono hne fun hw => by rw [hpc] at hw; cases hw
  | write id =>
    cases hp : s.ctl.part[id.toNat]? with
    | none =>
      -- the saver never gets here; it would have no partition to lose
      simp only [hp]
      intro j q hq
      refine (h j q hq).mono (by simp) fun hw => ?_
      rw [hpc] at hw
      obtain rfl := SaverPc.write.inj hw
      rw [hp] at hq
      cases hq
    | some p =>
      cases ok with
      | true =>
        simp only [hp, if_true]
        intro j q hq
        simp only [getElem?_modifyPart] at hq ⊢
        by_cases hj : j.toNat = id.toNat
        · obtain rfl := UInt32.toNat_inj.mp hj
          rw [if_pos rfl, hp] at hq
          obtain rfl := Option.some.inj hq
          rw [if_pos rfl]
          have hinv := h j p hp
          simp only [hpc] at hinv
          exact hinv.written (SaverPc.loop_ne_write _ _ _)
        · rw [if_neg hj] at hq ⊢
          refine (h j q hq).mono (SaverPc.loop_ne_write _ _ _) fun hw => ?_
          rw [hpc] at hw
          exact absurd (by rw [SaverPc.write.inj hw]) hj
      | false =>
        simp only [hp, Bool.false_eq_true, if_false]
        intro j q hq
        refine (h j q hq).mono (SaverPc.loop_ne_write _ _ _) fun hw hne => ?_
        rw [hpc] at hw
        obtain rfl := SaverPc.write.inj hw
        exact (hok _ hpc q hq).resolve_right hne

/-- **One step of either thread.** -/
theorem Saver.Inv.step (h : s.Inv) (a : SaveAct) (hm : WritesMarked s a)
    (hok : HarmlessFailure s a) : (saveActStep s a).Inv := by
  cases a with
  | markDirtyInfo id start scts => exact h.modify id _ fun p _ _ _ hp => hp.mark _ _ _
  | writeData id start buf => exact h.modify id _ fun p _ _ hp hinv => hinv.write (hm p hp)
  | backupData id => exact h.modify id _ fun p _ _ _ hp => hp.commit
  | restoreData id => exact h.modify id _ fun p _ _ _ hp => hp.restore
  | save ok => exact h.saverStep ok hok

theorem Saver.Inv.init (config : List PartSource) : (saverInit config).Inv := by
  intro j p hp
  have himg : p.fromChannel = p.backup := by
    simp only [saverInit, initBuf, List.getElem?_map] at hp
    obtain ⟨src, -, rfl⟩ := Option.map_eq_some_iff.mp hp
    rfl
  have hdisk : (saverInit config).disk j.toNat = p.payload p.backup := by
    simp only [saverInit] at hp ⊢
    rw [hp]
  refine ⟨fun hne => ?_, fun hne => ?_, fun hw => by cases hw⟩
  · rw [himg] at hne
    exact absurd rfl hne
  · rw [hdisk] at hne
    exact absurd rfl hne

end Steps

/-! ## One call of `saveToDisk` -/

/-- The call has dealt with the partitions before `id`, and those after it are as it will need
them: what is not on disk is marked. -/
structure Dealt (disk : List UInt8) (p : Part) (j id : Nat) : Prop where
  before : j < id → disk = p.payload p.backup
  after : id < j → disk = p.payload p.backup ∨ p.backup.dirty.Dirty

/-- How far a call has come with the partition `p` at index `j`. -/
def Covers (s : Saver) (p : Part) (j : UInt32) : Prop :=
  let disk := s.disk j.toNat
  match s.pc with
  | .idle => disk = p.payload p.backup
  | .test id w => id.toNat < s.ctl.part.length ∧ Dealt disk p j.toNat id.toNat ∧
      (id = j → disk = p.payload p.backup ∨ ∃ k, w ≤ k ∧ p.backup.dirty.getD k 0 ≠ 0)
  | .get id => id.toNat < s.ctl.part.length ∧ Dealt disk p j.toNat id.toNat
  | .write id => id.toNat < s.ctl.part.length ∧ Dealt disk p j.toNat id.toNat ∧
      (id = j → p.payload p.toDisk = p.payload p.backup)

/-- Another step of the call: the saver moves on, or the analyser does anything but commit to the
partition. Its disk write succeeds. -/
def DuringCall (j : UInt32) (s : Saver) (a : SaveAct) : Prop :=
  s.pc ≠ .idle ∧ a ≠ .backupData j ∧ (s.pc = .write j → a ≠ .save false)

instance (j : UInt32) (s : Saver) (a : SaveAct) : Decidable (DuringCall j s a) :=
  instDecidableAnd

section Call

variable {s : Saver} {p : Part} {j id : UInt32}

/-- The call goes on to the next partition, or ends. -/
theorem Covers.loop {c : RamNvCtl} {disk : Nat → List UInt8} (hj : j.toNat < c.part.length)
    (hid : id.toNat < c.part.length) (hd : Dealt (disk j.toNat) p j.toNat id.toNat)
    (hself : id = j → disk j.toNat = p.payload p.backup) :
    Covers ⟨c, disk, .loop c (id + 1)⟩ p j := by
  have hle := c.partNum_le
  have hsucc : (id + 1).toNat = id.toNat + 1 := by
    rw [UInt32.toNat_add]
    simp only [ramnvNum, UInt32.toNat_one] at hle ⊢
    omega
  have hdone : j.toNat ≤ id.toNat → disk j.toNat = p.payload p.backup := by
    intro h
    rcases Nat.lt_or_eq_of_le h with hlt | heq
    · exact hd.before hlt
    · exact hself (UInt32.toNat_inj.mp heq.symm)
  unfold SaverPc.loop
  by_cases hlt : (id + 1).toNat < c.part.length
  · rw [if_pos hlt]
    have hafter : id.toNat < j.toNat →
        disk j.toNat = p.payload p.backup ∨ p.backup.dirty.Dirty := hd.after
    refine ⟨hlt, ⟨fun h => hdone (by omega), fun h => hafter (by omega)⟩, fun h => ?_⟩
    rcases hafter (by rw [← h]; omega) with hd' | ⟨k, hk⟩
    · exact Or.inl hd'
    · exact Or.inr ⟨k, Nat.zero_le _, hk⟩
  · rw [if_neg hlt]
    exact hdone (by omega)

/-- What a step of the call has to achieve for the partition. -/
def CoversAfter (s : Saver) (p : Part) (j : UInt32) : Prop :=
  ∃ p', s.ctl.part[j.toNat]? = some p' ∧ Covers s p' j ∧
    p'.payload p'.backup = p.payload p.backup

variable {c : RamNvCtl} {disk : Nat → List UInt8}

theorem Covers.test {w : Nat} (ok : Bool) (h : Covers ⟨c, disk, .test id w⟩ p j)
    (hp : c.part[j.toNat]? = some p) : CoversAfter (saverStep ⟨c, disk, .test id w⟩ ok) p j := by
  obtain ⟨hid, hd, hself⟩ := h
  have hj : j.toNat < c.part.length := (List.getElem?_eq_some_iff.mp hp).1
  have hget : c.part[id.toNat]? = some c.part[id.toNat] := List.getElem?_eq_getElem hid
  simp only [saverStep, hget]
  by_cases hw : w < ramnvDirtytableMaxsize
  · rw [if_pos hw]
    refine ⟨p, hp, ?_, rfl⟩
    by_cases hz : c.part[id.toNat].backup.dirty.getD w 0 ≠ 0
    · rw [if_pos hz]
      exact ⟨hid, hd⟩
    · rw [if_neg hz]
      refine ⟨hid, hd, fun e => ?_⟩
      rcases hself e with hdisk | ⟨k, hk, hk'⟩
      · exact Or.inl hdisk
      · -- the word just read is zero, so the one that is not comes later
        subst e
        obtain rfl : c.part[id.toNat] = p := by rw [hget] at hp; exact Option.some.inj hp
        have hkw : k ≠ w := fun e' => hz (e' ▸ hk')
        exact Or.inr ⟨k, by omega, hk'⟩
  · rw [if_neg hw]
    refine ⟨p, hp, Covers.loop hj hid hd fun e => ?_, rfl⟩
    rcases hself e with hdisk | ⟨k, hk, hk'⟩
    · exact hdisk
    · have := word_lt hk'
      omega

theorem Covers.get (ok : Bool) (h : Covers ⟨c, disk, .get id⟩ p j)
    (hp : c.part[j.toNat]? = some p) :
    CoversAfter (saverStep ⟨c, disk, .get id⟩ ok) p j := by
  obtain ⟨hid, hd⟩ := h
  have hid' : id.toNat < (getData c id).part.length :=
    Nat.lt_of_lt_of_eq hid (length_modifyPart _ _ _).symm
  by_cases hji : j.toNat = id.toNat
  · obtain rfl := UInt32.toNat_inj.mp hji
    obtain ⟨h1, h2, -⟩ := payload_getData p
    refine ⟨p.getData, ?_, ⟨hid', ⟨fun h => ?_, fun h => ?_⟩, fun _ => h1.trans h2.symm⟩, h2⟩
    · simp only [saverStep, getData, getElem?_modifyPart, hp, if_true, Option.map_some]
    · omega
    · omega
  · refine ⟨p, ?_, ⟨hid', hd, fun e => absurd (by rw [e]) hji⟩, rfl⟩
    simp only [saverStep, getData, getElem?_modifyPart, hp, hji, if_false]

theorem Covers.write {ok : Bool} (h : Covers ⟨c, disk, .write id⟩ p j)
    (hp : c.part[j.toNat]? = some p) (hok : id = j → ok = true) :
    CoversAfter (saverStep ⟨c, disk, .write id⟩ ok) p j := by
  obtain ⟨hid, hd, hself⟩ := h
  have hj : j.toNat < c.part.length := (List.getElem?_eq_some_iff.mp hp).1
  have hget : c.part[id.toNat]? = some c.part[id.toNat] := List.getElem?_eq_getElem hid
  have hlen : (c.modifyPart id Part.cleanToDisk).part.length = c.part.length :=
    length_modifyPart _ _ _
  have hloop : SaverPc.loop c (id + 1) =
      SaverPc.loop (c.modifyPart id Part.cleanToDisk) (id + 1) := by
    unfold SaverPc.loop
    rw [hlen]
  simp only [saverStep, hget]
  cases ok with
  | false =>
    rw [if_neg (by decide)]
    exact ⟨p, hp, Covers.loop hj hid hd fun e => (nomatch hok e), rfl⟩
  | true =>
    rw [if_pos rfl, hloop]
    by_cases hji : j.toNat = id.toNat
    · obtain rfl := UInt32.toNat_inj.mp hji
      obtain rfl : c.part[j.toNat] = p := by rw [hget] at hp; exact Option.some.inj hp
      refine ⟨c.part[j.toNat].cleanToDisk, ?_, Covers.loop (Nat.lt_of_lt_of_eq hj hlen.symm)
        (Nat.lt_of_lt_of_eq hid hlen.symm) ⟨fun h => by omega, fun h => by omega⟩ fun _ => ?_, rfl⟩
      · simp only [getElem?_modifyPart, hget, if_true, Option.map_some]
      · rw [if_pos rfl]
        exact hself rfl
    · refine ⟨p, ?_, Covers.loop (Nat.lt_of_lt_of_eq hj hlen.symm) (Nat.lt_of_lt_of_eq hid hlen.symm) ?_
        (fun e => absurd (by rw [e]) hji), rfl⟩
      · simp only [getElem?_modifyPart, hp, hji, if_false]
      · rw [if_neg hji]
        exact hd

/-- The analyser keeps out of `backup` and `toDisk`. -/
theorem Covers.modify {f : Part → Part} (h : Covers s p j) (hp : s.ctl.part[j.toNat]? = some p)
    (hf : j = id → ∀ q, (f q).backup = q.backup ∧ (f q).toDisk = q.toDisk ∧
      (f q).imageSize = q.imageSize) :
    CoversAfter { s with ctl := s.ctl.modifyPart id f } p j := by
  have hlen : (s.ctl.modifyPart id f).part.length = s.ctl.part.length := length_modifyPart _ _ _
  by_cases hji : j.toNat = id.toNat
  · obtain ⟨h1, h2, h3⟩ := hf (UInt32.toNat_inj.mp hji) p
    have hsize : (f p).copySize = p.copySize := by simp only [Part.copySize, Part.sctNum, h3]
    have hb : (f p).payload (f p).backup = p.payload p.backup := by
      simp only [Part.payload, h1, hsize]
    have ht : (f p).payload (f p).toDisk = p.payload p.toDisk := by
      simp only [Part.payload, h2, hsize]
    refine ⟨f p, by rw [getElem?_modifyPart, if_pos hji, hp]; rfl, ?_, hb⟩
    obtain ⟨c, disk, pc⟩ := s
    have hd : ∀ {k}, Dealt (disk j.toNat) p j.toNat k → Dealt (disk j.toNat) (f p) j.toNat k :=
      fun hd => ⟨by rw [hb]; exact hd.before, by rw [hb, h1]; exact hd.after⟩
    cases pc with
    | idle => exact h.trans hb.symm
    | test id w =>
      exact ⟨Nat.lt_of_lt_of_eq h.1 hlen.symm, hd h.2.1, by rw [hb, h1]; exact h.2.2⟩
    | get id => exact ⟨Nat.lt_of_lt_of_eq h.1 hlen.symm, hd h.2⟩
    | write id => exact ⟨Nat.lt_of_lt_of_eq h.1 hlen.symm, hd h.2.1, by rw [hb, ht]; exact h.2.2⟩
  · refine ⟨p, by simp only [getElem?_modifyPart, hp, hji, if_false], ?_, rfl⟩
    obtain ⟨c, disk, pc⟩ := s
    cases pc with
    | idle => exact h
    | test id w => exact ⟨Nat.lt_of_lt_of_eq h.1 hlen.symm, h.2⟩
    | get id => exact ⟨Nat.lt_of_lt_of_eq h.1 hlen.symm, h.2⟩
    | write id => exact ⟨Nat.lt_of_lt_of_eq h.1 hlen.symm, h.2⟩

/-- **Every step of a call** brings the partition closer to disk. -/
theorem Covers.step (h : Covers s p j) (hp : s.ctl.part[j.toNat]? = some p) {a : SaveAct}
    (hd : DuringCall j s a) : CoversAfter (saveActStep s a) p j := by
  obtain ⟨hidle, hcommit, hok⟩ := hd
  cases a with
  | markDirtyInfo id start scts => exact h.modify hp fun _ _ => ⟨rfl, rfl, rfl⟩
  | writeData id start buf => exact h.modify hp fun _ _ => ⟨rfl, rfl, rfl⟩
  | backupData id => exact h.modify hp fun e => absurd (by rw [e]) hcommit
  | restoreData id => exact h.modify hp fun _ _ => ⟨rfl, rfl, rfl⟩
  | save ok =>
    obtain ⟨c, disk, pc⟩ := s
    cases pc with
    | idle => exact absurd rfl hidle
    | test id w => exact Covers.test ok h hp
    | get id => exact Covers.get ok h hp
    | write id =>
      apply h.write hp
      intro e
      cases ok with
      | true => rfl
      | false => exact absurd rfl (hok (by rw [e]))

theorem Covers.run {call : List SaveAct} (h : Covers s p j) (hp : s.ctl.part[j.toNat]? = some p)
    (hc : saver.Admits (DuringCall j) s call) : CoversAfter (saver.run s call).1 p j := by
  induction call generalizing s p with
  | nil => exact ⟨p, hp, h, rfl⟩
  | cons a call ih =>
    obtain ⟨p', hp', h', heq⟩ := h.step hp hc.1
    obtain ⟨p'', hp'', h'', heq'⟩ := ih h' hp' hc.2
    exact ⟨p'', hp'', h'', heq'.trans heq⟩

end Call

/-! ## The call alone

A call that nothing interleaves with does what the sequential `saveToDisk` says, and comes to an
end. -/

section Alone

/-- The saver alone can get from `s` to `t`. -/
def Reaches (s t : Saver) : Prop := ∃ oks : List Bool, (saver.run s (oks.map .save)).1 = t

theorem Reaches.refl (s : Saver) : Reaches s s := ⟨[], rfl⟩

theorem Reaches.head {s t : Saver} (ok : Bool) (h : Reaches (saverStep s ok) t) : Reaches s t := by
  obtain ⟨oks, ht⟩ := h
  exact ⟨ok :: oks, ht⟩

theorem Reaches.trans {s t u : Saver} (h : Reaches s t) (h' : Reaches t u) : Reaches s u := by
  obtain ⟨oks, rfl⟩ := h
  obtain ⟨oks', rfl⟩ := h'
  refine ⟨oks ++ oks', ?_⟩
  rw [List.map_append, Machine.run_append]

variable {c : RamNvCtl} (disk : Nat → List UInt8) {id : UInt32} {p : Part}

/-- `__ifHasDirty` from word `w` on finds a word that is not zero, or there is none. -/
theorem reaches_test (hp : c.part[id.toNat]? = some p) (w : Nat) :
    (∃ k, w ≤ k ∧ p.backup.dirty.getD k 0 ≠ 0 ∧
      Reaches ⟨c, disk, .test id w⟩ ⟨c, disk, .get id⟩) ∨
    (∀ k, w ≤ k → p.backup.dirty.getD k 0 = 0) ∧
      Reaches ⟨c, disk, .test id w⟩ ⟨c, disk, .loop c (id + 1)⟩ := by
  induction hn : ramnvDirtytableMaxsize - w generalizing w with
  | zero =>
    have hw : ¬ w < ramnvDirtytableMaxsize := by omega
    refine Or.inr ⟨fun k hk => ?_, .head true ?_⟩
    · by_contra hk'
      have := word_lt hk'
      omega
    · simp only [saverStep, hp, if_neg hw]
      exact .refl _
  | succ n ih =>
    have hw : w < ramnvDirtytableMaxsize := by omega
    have hstep : saverStep ⟨c, disk, .test id w⟩ true =
        ⟨c, disk, if p.backup.dirty.getD w 0 ≠ 0 then .get id else .test id (w + 1)⟩ := by
      simp only [saverStep, hp, if_pos hw]
    by_cases hz : p.backup.dirty.getD w 0 = 0
    · rw [if_neg (by simpa using hz)] at hstep
      rcases ih (w + 1) (by omega) with ⟨k, hk, hk', hr⟩ | ⟨hall, hr⟩
      · exact Or.inl ⟨k, by omega, hk', .head true (by rw [hstep]; exact hr)⟩
      · refine Or.inr ⟨fun k hk => ?_, .head true (by rw [hstep]; exact hr)⟩
        rcases Nat.lt_or_eq_of_le hk with hlt | rfl
        · exact hall k hlt
        · exact hz
    · rw [if_pos hz] at hstep
      exact Or.inl ⟨w, Nat.le_refl _, hz, .head true (by rw [hstep]; exact .refl _)⟩

/-- What a partition's payload on disk is after an iteration of `saveToDisk`. -/
def Part.saved (p : Part) (written : Bool) (disk : List UInt8) : List UInt8 :=
  if ifHasDirty p ∧ written then p.payload p.backup else disk

theorem loop_congr {c c' : RamNvCtl} (h : c'.part.length = c.part.length) (id : UInt32) :
    SaverPc.loop c' id = SaverPc.loop c id := by
  unfold SaverPc.loop
  rw [h]

/-- One iteration of the `for` loop. -/
theorem reaches_save (hp : c.part[id.toNat]? = some p) (written : Bool) :
    Reaches ⟨c, disk, .test id 0⟩ ⟨c.modifyPart id (Part.save written),
      fun k => if k = id.toNat then p.saved written (disk k) else disk k, .loop c (id + 1)⟩ := by
  rcases reaches_test disk hp 0 with ⟨k, -, hk, hr⟩ | ⟨hall, hr⟩
  · have hdirty : ifHasDirty p = true := ifHasDirty_iff.mpr ⟨k, hk⟩
    refine hr.trans (.head true (.head written ?_))
    have hget : (getData c id).part[id.toNat]? = some p.getData := by
      simp only [getData, getElem?_modifyPart, hp, if_true, Option.map_some]
    have hloop : SaverPc.loop (getData c id) (id + 1) = SaverPc.loop c (id + 1) :=
      loop_congr (length_modifyPart _ _ _) _
    have hctl : ∀ f : Part → Part, (∀ q, c.part[id.toNat]? = some q → f q = q.save written) →
        c.modifyPart id f = c.modifyPart id (Part.save written) := by
      intro f hf
      apply RamNvCtl.ext_part
      intro k
      simp only [getElem?_modifyPart]
      by_cases hk : k = id.toNat
      · rw [if_pos hk, if_pos hk, hk, hp, Option.map_some, Option.map_some, hf p hp]
      · rw [if_neg hk, if_neg hk]
    have hstep : saverStep (saverStep ⟨c, disk, .get id⟩ true) written =
        ⟨c.modifyPart id (Part.save written),
          fun k => if k = id.toNat then p.saved written (disk k) else disk k,
          .loop c (id + 1)⟩ := by
      cases written with
      | true =>
        simp only [saverStep, hget, if_true, hloop, Part.saved, hdirty, and_self,
          (payload_getData p).1]
        congr 1
        rw [getData, modifyPart_modifyPart]
        apply hctl _
        intro q hq
        obtain rfl : p = q := by rw [hp] at hq; exact Option.some.inj hq
        simp [Part.save, hdirty]
      | false =>
        simp only [saverStep, hget, Bool.false_eq_true, if_false, hloop, Part.saved, and_false,
          ite_self]
        congr 1
        apply hctl _
        intro q hq
        obtain rfl : p = q := by rw [hp] at hq; exact Option.some.inj hq
        simp [Part.save, hdirty]
    rw [hstep]
    exact .refl _
  · have hclean : ifHasDirty p = false := by
      by_contra h
      obtain ⟨k, hk⟩ := ifHasDirty_iff.mp (by simpa using h)
      exact hk (hall k (Nat.zero_le _))
    have hctl : c.modifyPart id (Part.save written) = c := by
      apply RamNvCtl.ext_part
      intro k
      rw [getElem?_modifyPart]
      by_cases hk : k = id.toNat
      · rw [if_pos hk, hk, hp, Option.map_some, Part.save, hclean]
        rfl
      · rw [if_neg hk]
    have hdisk : (fun k => if k = id.toNat then p.saved written (disk k) else disk k) = disk := by
      funext k
      simp [Part.saved, hclean]
    rw [hctl, hdisk]
    exact hr

/-- The iterations from partition `n` on. -/
def saveFrom (w : Nat → Bool) (n : Nat) (c : RamNvCtl) : RamNvCtl where
  part := c.part.mapIdx fun k p => if n ≤ k then p.save (w k) else p
  partNum_le := by rw [List.length_mapIdx]; exact c.partNum_le

def diskFrom (w : Nat → Bool) (n : Nat) (s : Saver) (k : Nat) : List UInt8 :=
  match s.ctl.part[k]? with
  | some p => if n ≤ k then p.saved (w k) (s.disk k) else s.disk k
  | none => s.disk k

theorem reaches_loop (w : Nat → Bool) : ∀ (m : Nat) (c : RamNvCtl) (disk : Nat → List UInt8)
    (id : UInt32), c.part.length - id.toNat = m →
    Reaches ⟨c, disk, .loop c id⟩
      ⟨saveFrom w id.toNat c, diskFrom w id.toNat ⟨c, disk, .idle⟩, .idle⟩ := by
  intro m
  induction m with
  | zero =>
    intro c disk id hm
    have hge : c.part.length ≤ id.toNat := by omega
    have hctl : saveFrom w id.toNat c = c := by
      apply RamNvCtl.ext_part
      intro k
      simp only [saveFrom, List.getElem?_mapIdx]
      by_cases hk : k < c.part.length
      · rw [List.getElem?_eq_getElem hk, Option.map_some, if_neg (by omega)]
      · rw [List.getElem?_eq_none (by omega)]
        rfl
    have hdisk : diskFrom w id.toNat ⟨c, disk, .idle⟩ = disk := by
      funext k
      unfold diskFrom
      by_cases hk : k < c.part.length
      · rw [List.getElem?_eq_getElem hk]
        simp only
        rw [if_neg (by omega)]
      · rw [List.getElem?_eq_none (by simpa using hk)]
    rw [hctl, hdisk, SaverPc.loop, if_neg (by omega)]
    exact .refl _
  | succ m ih =>
    intro c disk id hm
    have hlt : id.toNat < c.part.length := by omega
    have hget : c.part[id.toNat]? = some c.part[id.toNat] := List.getElem?_eq_getElem hlt
    have hle := c.partNum_le
    have hsucc : (id + 1).toNat = id.toNat + 1 := by
      rw [UInt32.toNat_add]
      simp only [ramnvNum, UInt32.toNat_one] at hle ⊢
      omega
    have hfirst : SaverPc.loop c id = .test id 0 := if_pos hlt
    rw [hfirst]
    refine (reaches_save disk hget (w id.toNat)).trans ?_
    rw [← loop_congr (length_modifyPart c id (Part.save (w id.toNat))) (id + 1)]
    have hrest := ih (c.modifyPart id (Part.save (w id.toNat)))
      (fun k => if k = id.toNat then c.part[id.toNat].saved (w id.toNat) (disk k) else disk k)
      (id + 1) (by rw [length_modifyPart, hsucc]; omega)
    have hctl : saveFrom w (id + 1).toNat (c.modifyPart id (Part.save (w id.toNat))) =
        saveFrom w id.toNat c := by
      apply RamNvCtl.ext_part
      intro k
      simp only [saveFrom, List.getElem?_mapIdx, getElem?_modifyPart, hsucc]
      rcases Nat.lt_trichotomy k id.toNat with hk | rfl | hk
      · have h1 : ¬ id.toNat + 1 ≤ k := by omega
        have h2 : ¬ id.toNat ≤ k := by omega
        have h3 : ¬ k = id.toNat := by omega
        simp only [h1, h2, h3, if_false]
      · have h1 : ¬ id.toNat + 1 ≤ id.toNat := by omega
        simp only [h1, if_true, if_false, Nat.le_refl, Option.map_map]
        rfl
      · have h1 : id.toNat + 1 ≤ k := by omega
        have h2 : id.toNat ≤ k := by omega
        have h3 : ¬ k = id.toNat := by omega
        simp only [h1, h2, h3, if_true, if_false]
    have hdisk : diskFrom w (id + 1).toNat ⟨c.modifyPart id (Part.save (w id.toNat)),
        fun k => if k = id.toNat then c.part[id.toNat].saved (w id.toNat) (disk k) else disk k,
        .idle⟩ = diskFrom w id.toNat ⟨c, disk, .idle⟩ := by
      funext k
      simp only [diskFrom, getElem?_modifyPart, hsucc]
      rcases Nat.lt_trichotomy k id.toNat with hk | rfl | hk
      · have h1 : ¬ id.toNat + 1 ≤ k := by omega
        have h2 : ¬ id.toNat ≤ k := by omega
        have h3 : ¬ k = id.toNat := by omega
        simp only [h1, h2, h3, if_false]
      · have h1 : ¬ id.toNat + 1 ≤ id.toNat := by omega
        simp only [h1, hget, Option.map_some, if_true, if_false, Nat.le_refl]
      · have h1 : id.toNat + 1 ≤ k := by omega
        have h2 : id.toNat ≤ k := by omega
        have h3 : ¬ k = id.toNat := by omega
        simp only [h1, h2, h3, if_true, if_false]
    rw [hctl, hdisk] at hrest
    exact hrest

/-- **The saver alone is the sequential `saveToDisk`**, for any results of the disk writes. -/
theorem reaches_saveToDisk (w : Nat → Bool) (c : RamNvCtl) (disk : Nat → List UInt8) :
    Reaches ⟨c, disk, .idle⟩ ⟨saveToDisk w c, diskFrom w 0 ⟨c, disk, .idle⟩, .idle⟩ := by
  have hloop := reaches_loop w _ c disk 0 rfl
  have hctl : saveFrom w (0 : UInt32).toNat c = saveToDisk w c := by
    simp [saveFrom, saveToDisk]
  rw [hctl] at hloop
  exact .head true hloop

end Alone

/-- **No committed update is lost.** In every run of the two threads in which writes touch marked
sectors only and no disk write fails at a moment where the failure goes unnoticed: from every state
in which the saver is idle, the next call of `saveToDisk`, interleaved with anything but a commit
to the partition and with its disk write succeeding, leaves the committed image on disk. -/
theorem no_update_lost (config : List PartSource) (acts : List SaveAct)
    (hadm : saver.Admits (fun s a => WritesMarked s a ∧ HarmlessFailure s a)
      (saverInit config) acts) :
    let s := (saver.run (saverInit config) acts).1
    s.pc = .idle → ∀ (j : UInt32) p ok call, s.ctl.part[j.toNat]? = some p →
      let s₁ := (saver.step s (.save ok)).1
      saver.Admits (DuringCall j) s₁ call → (saver.run s₁ call).1.pc = .idle →
        (saver.run s₁ call).1.disk j.toNat = p.payload p.backup := by
  intro s hidle j p ok call hp s₁ hcall hend
  have hinv : s.Inv := by
    have := saver.run_induction (P := fun s _ => s.Inv)
      (fun s _ a h ha => h.step a ha.1 ha.2) acts _ [] (Saver.Inv.init config) hadm
    exact this
  have hj : j.toNat < s.ctl.part.length := (List.getElem?_eq_some_iff.mp hp).1
  have hs₁ : s₁ = { s with pc := .test 0 0 } := by
    show saverStep s ok = _
    simp only [saverStep, hidle, SaverPc.loop, UInt32.toNat_zero]
    rw [if_pos (by omega)]
  have hdirty : s.disk j.toNat = p.payload p.backup ∨ p.backup.dirty.Dirty := by
    by_cases heq : p.payload p.backup = s.disk j.toNat
    · exact Or.inl heq.symm
    · rcases (hinv j p hp).committed heq with hd | hw
      · exact Or.inr hd
      · rw [hidle] at hw
        cases hw
  have hstart : Covers s₁ p j := by
    rw [hs₁]
    refine ⟨Nat.lt_of_le_of_lt (Nat.zero_le _) hj, ⟨fun h => by simp at h, fun _ => hdirty⟩,
      fun _ => ?_⟩
    rcases hdirty with h | ⟨k, hk⟩
    · exact Or.inl h
    · exact Or.inr ⟨k, Nat.zero_le _, hk⟩
  obtain ⟨p', -, hcov, heq⟩ := hstart.run (by rw [hs₁]; exact hp) hcall
  unfold Covers at hcov
  rw [hend] at hcov
  exact hcov.trans heq

/-- A request that sets the first byte of the partition of zeros is committed. -/
def commitSeven : List SaveAct := [.markDirtyInfo 0 0 1, .writeData 0 0 [7], .backupData 0]

theorem commitSeven_saved :
    let s := (saver.run (saverInit [zeroPart]) commitSeven).1
    let t := (saver.run (saver.step s (.save true)).1 [.save true, .save true, .save true]).1
    t.pc = .idle ∧ ∀ p, s.ctl.part[(0 : UInt32).toNat]? = some p →
      t.disk (0 : UInt32).toNat = p.payload p.backup := by
  intro s t
  have hidle : s.pc = .idle := rfl
  have hend : t.pc = .idle := by decide +kernel
  refine ⟨hend, fun p hp => ?_⟩
  exact no_update_lost [zeroPart] commitSeven (by decide +kernel) hidle 0 p true _ hp
    (by decide +kernel) hend

/-- The save of the commit fails, and the next call, in which nothing fails, does not look at the
partition again. -/
theorem commitSeven_lost :
    let failed := commitSeven ++ [.save true, .save true, .save true, .save false]
    let s := (saver.run (saverInit [zeroPart]) failed).1
    let t := (saver.run (saver.step s (.save true)).1 (List.replicate 33 (.save true))).1
    saver.Admits WritesMarked (saverInit [zeroPart]) failed ∧ s.pc = .idle ∧
      saver.Admits (DuringCall 0) (saver.step s (.save true)).1 (List.replicate 33 (.save true)) ∧
      t.pc = .idle ∧ (t.disk 0)[0]? = some 0 ∧
      (t.ctl.part[0]?.map fun p => (p.payload p.backup)[0]?) = some (some 7) := by
  decide +kernel

end SprdHal.Nvitem
