import SprdHal.Isp.ParamScan
import SprdHal.Lib.Owners
import SprdHal.Lib.Supply

/-!
# The blocks of a parameter file (`isp_param_file_update.c`)

A load allocates a buffer for the file, one temporary buffer after the other, and the blocks that the
static record keeps: the fix and the tune structure and the tables. Here the variables are those that
hold blocks, and the loads are those of the loads of `RawPara` with every `free`. Some error branches
free a temporary buffer before they go to `update_error`, which frees those that are not null.

Everything is freed once at most, and temporary buffers are freed when a call returns. But
`_isp_raw_para_recover` tests `fix_info_table_addr` and frees `tune_info_table_addr`: a fix structure
is never freed.
-/

namespace SprdHal.Isp

open SprdHal.Lib

/-! ## Variables -/

/-- The local variables of `isp_raw_para_update_from_file` whose blocks are freed on return. They are
null when a call starts. -/
inductive TempBuf
  | fileTmpBuf | tempBuf8 | tempBuf16 | tempBuf32
  deriving DecidableEq, Repr

/-- The fields of `struct isp_raw_info_update_status` that hold blocks. -/
inductive Field
  | fixInfoTableAddr | tuneInfoTableAddr | aeWeightTableAddr | awbMapTableAddr
  | lncDataTableAddr (i : Fin 8) (j : Fin 9)
  | aesDataTableAddr (i : Fin 4)
  | aegDataTableAddr (i : Fin 4)
  deriving DecidableEq, Repr

inductive Slot
  | temp (t : TempBuf)
  | field (f : Field)
  deriving DecidableEq, Repr

/-- The variables and the blocks, `updata_file_time`, and whether the next calls of `malloc` succeed. -/
structure ParaHeap where
  mem : Owners Slot
  updataFileTime : Nat
  mallocs : List Bool

namespace ParaHeap

/-- `_isp_raw_para_recover` -/
def ispRawParaRecover (h : ParaHeap) : ParaHeap :=
  let m := lncIndexes.foldl
    (fun m ij => m.freeAndClear (.field (.lncDataTableAddr ij.1 ij.2))) h.mem
  let m := (List.finRange 4).foldl
    (fun m i => (m.freeAndClear (.field (.aesDataTableAddr i))).freeAndClear
      (.field (.aegDataTableAddr i))) m
  let m := m.freeAndClear (.field .aeWeightTableAddr)
  let m := m.freeAndClear (.field .tuneInfoTableAddr)
  -- the test is on one field, the rest on another
  let m := if m.ptr (.field .fixInfoTableAddr) ≠ none then m.free (.field .tuneInfoTableAddr) else m
  let m := m.clear (.field .tuneInfoTableAddr)
  let m := m.freeAndClear (.field .awbMapTableAddr)
  { h with mem := m, updataFileTime := 0 }

/-- `update_error`, behind `_isp_raw_para_recover` -/
def freeTemps (h : ParaHeap) : ParaHeap :=
  { h with
    mem := [TempBuf.fileTmpBuf, .tempBuf8, .tempBuf16, .tempBuf32].foldl
      (fun m t => m.freeAndClear (.temp t)) h.mem }

end ParaHeap

/-! ## Loading -/

abbrev HeapLoad := EStateM Trap ParaHeap

def scanHeap {α : Type} : Option α → HeapLoad α
  | some a => pure a
  | none => throw .overrun

/-- `malloc` for a variable; if it fails, `onFail` and `goto update_error`. -/
def mallocFor (s : Slot) (onFail : Owners Slot → Owners Slot) : HeapLoad Unit := fun h =>
  match h.mallocs with
  | false :: ms => .error .updateError { h with mem := onFail h.mem, mallocs := ms }
  | ms => .ok () { h with mem := h.mem.alloc s, mallocs := ms.tail }

/-- `temp_buf = malloc(..)` -/
def mallocTemp (t : TempBuf) : HeapLoad Unit := mallocFor (.temp t) (.clear (.temp t))

/-- The block of a table. If there is none, the temporary buffer is freed and set to null. -/
def mallocField (t : TempBuf) (f : Field) : HeapLoad Unit :=
  mallocFor (.field f) (.freeAndClear (.temp t))

def freeTemp (t : TempBuf) : HeapLoad Unit :=
  modify fun h => { h with mem := h.mem.freeAndClear (.temp t) }

section Tables

variable (name : Text)

def lncHeap (p : Text) (ij : Fin 8 × Fin 9) : HeapLoad Text := do
  match strstr (lncLookupStr name ij.1 ij.2) p with
  | none => return p
  | some q =>
    let (cnt, p) ← scanHeap (scanTable false 65536 (q.drop (lncLookupStr name ij.1 ij.2).length))
    if 1 < cnt then
      mallocField .tempBuf16 (.lncDataTableAddr ij.1 ij.2)
      return p
    else return p

/-- A table that must be there and not be empty. -/
def requiredHeap (size : Nat) (t : TempBuf) (f : Field) (p pat : Text) : HeapLoad Text := do
  match strstr pat p with
  | none => throw .updateError
  | some q =>
    let (cnt, p) ← scanHeap (scanTable false size (q.drop pat.length))
    if 1 < cnt then
      mallocField t f
      return p
    else throw .updateError

def aesHeap (p : Text) (i : Fin 4) : HeapLoad Text :=
  requiredHeap 1544 .tempBuf32 (.aesDataTableAddr i) p (aesLookupStr name i)

def aegHeap (p : Text) (i : Fin 4) : HeapLoad Text :=
  requiredHeap 1552 .tempBuf16 (.aegDataTableAddr i) p (aegLookupStr name i)

def awbMapHeap (p : Text) : HeapLoad Unit := do
  match strstr (awbMapLookupStr name) p with
  | none => throw .updateError
  | some q =>
    let p ← scanHeap (advance 8 (q.drop (awbMapLookupStr name).length))
    let (cnt, _) ← scanHeap (scanTable true 6160 p)
    if 1 < cnt then mallocField .tempBuf16 .awbMapTableAddr

def aeIndexesHeap (p : Text) (_ : Fin 4) : HeapLoad Text := do
  match strstr (aegInfoLookupStr name) p with
  | none => throw .updateError
  | some q =>
    let p ← scanHeap (advance 4 (q.drop (aegInfoLookupStr name).length))
    scanHeap (nextNumbers 12 p)

def fixInfoHeap (text : Text) : HeapLoad Unit := do
  match strstr (fixInfoLookupStr name) text with
  | none => throw .updateError
  | some q =>
    let p ← (List.finRange 4).foldlM (aeIndexesHeap name) q
    let _ ← scanHeap (scanGrids 72 p)
    match strstr (awbMapLookupStr name) q with
    | none => throw .updateError
    | some r =>
      let _ ← scanHeap (scanAwbLen (r.drop (awbMapLookupStr name).length))

/-- A part of a load: `work`, in a temporary buffer. -/
def withTemp {α : Type} (t : TempBuf) (work : HeapLoad α) : HeapLoad Unit := do
  mallocTemp t
  let _ ← work
  freeTemp t

/-- A load behind the `malloc` of the fix structure. -/
def tablesHeap (text : Text) : HeapLoad Unit := do
  let text ← scanHeap (blankComments .code text)
  withTemp .tempBuf16 (lncIndexes.foldlM (lncHeap name) text)
  withTemp .tempBuf32 ((List.finRange 4).foldlM (aesHeap name) text)
  withTemp .tempBuf16 ((List.finRange 4).foldlM (aegHeap name) text)
  withTemp .tempBuf8 (requiredHeap 1088 .tempBuf8 .aeWeightTableAddr text (aeWeightLookupStr name))
  withTemp .tempBuf8 (requiredHeap 5056 .tempBuf8 .tuneInfoTableAddr text (tuneInfoLookupStr name))
  withTemp .tempBuf16 (awbMapHeap name text)
  fixInfoHeap name text

def loadHeap (text : Text) : HeapLoad Unit := do
  mallocFor (.field .fixInfoTableAddr) id
  tablesHeap name text

end Tables

/-! ## Calls -/

/-- What is seen of a call: the heap when `_isp_raw_para_recover` has run, the heap when the call
returns, or a scan that leaves the text or its buffer. -/
inductive HeapEvent
  | recovered (h : ParaHeap)
  | returned (h : ParaHeap)
  | overrun

namespace ParaHeap

/-- `update_error` -/
def updateError (h : ParaHeap) : Option ParaHeap × List HeapEvent :=
  (some h.ispRawParaRecover.freeTemps,
    [.recovered h.ispRawParaRecover, .returned h.ispRawParaRecover.freeTemps])

def finish (h : ParaHeap) : Option ParaHeap × List HeapEvent := (some h, [.returned h])

/-- From the `fread` on. -/
def readFile (name : Text) (h : ParaHeap) (f : FileSeen) : Option ParaHeap × List HeapEvent :=
  if f.readOk = false then h.updateError
  else
    match loadHeap name f.text { h with updataFileTime := f.mtime } with
    | .ok _ h => finish { h with mem := h.mem.freeAndClear (.temp .fileTmpBuf) }
    | .error .updateError h => h.updateError
    | .error .overrun _ => (none, [.overrun])

/-- A load from the file on. -/
def loadFile (name : Text) (h : ParaHeap) (f : FileSeen) : Option ParaHeap × List HeapEvent :=
  if f.ftellOk = false then h.finish
  else if f.bufferOk = false then h.finish
  else readFile name { h with mem := h.mem.alloc (.temp .fileTmpBuf), mallocs := f.mallocs } f

/-- `isp_raw_para_update_from_file` for a raw sensor; `none` if the file cannot be opened. -/
def ispRawParaUpdateFromFile (name : Text) (h : ParaHeap) :
    Option FileSeen → Option ParaHeap × List HeapEvent
  | none => (some h.ispRawParaRecover, [.recovered h.ispRawParaRecover, .returned h.ispRawParaRecover])
  | some f =>
    if f.statOk = false then h.finish
    else if h.updataFileTime = 0 then h.loadFile name f
    else if h.updataFileTime = f.mtime then h.finish
    else
      let r := h.ispRawParaRecover
      ((r.loadFile name f).1, .recovered r :: (r.loadFile name f).2)

/-- Before the first call. -/
def init : ParaHeap where
  mem := ⟨fun _ => none, [], []⟩
  updataFileTime := 0
  mallocs := []

end ParaHeap

/-- Calls one after the other. After a scan that has left its buffer, nothing is known. -/
def paraHeap (name : Text) : Machine (Option ParaHeap) (Option FileSeen) HeapEvent where
  step
    | none, _ => (none, [])
    | some h, i => h.ispRawParaUpdateFromFile name i

theorem paraHeap_step (name : Text) (h : ParaHeap) (i : Option FileSeen) :
    (paraHeap name).step (some h) i = h.ispRawParaUpdateFromFile name i := rfl

/-! ## What is claimed of the blocks -/

/-- No block has been freed twice, and those of temporary buffers have been freed on return. -/
def HeapEvent.FreedOnce : HeapEvent → Prop
  | .recovered h => h.mem.freed.Nodup
  | .returned h => h.mem.freed.Nodup ∧ ∀ t, h.mem.Released (.temp t)
  | .overrun => True

/-- In addition, `_isp_raw_para_recover` has freed all that was loaded. -/
def HeapEvent.Safe : HeapEvent → Prop
  | .recovered h => h.mem.freed.Nodup ∧ ∀ f, h.mem.Released (.field f)
  | .returned h => h.mem.freed.Nodup ∧ ∀ t, h.mem.Released (.temp t)
  | .overrun => False

/-! ## What the operations keep -/

abbrev fixSlot : Slot := .field .fixInfoTableAddr

/-- Every block is freed once at most, and those of temporary buffers are held. -/
structure Tidy (m : Owners Slot) : Prop where
  owns : m.Owns
  keeps : ∀ t, m.Keeps (.temp t)

/-- The static record, the temporary buffers and the number of blocks are left alone, but for what
the record's fields hold. -/
structure Recovers (m m' : Owners Slot) : Prop where
  tidy : Tidy m → Tidy m'
  temp : ∀ t, m'.ptr (.temp t) = m.ptr (.temp t)
  fix : m'.ptr fixSlot = m.ptr fixSlot
  allocs : m'.allocs = m.allocs

namespace Recovers

variable {m m' m'' : Owners Slot}

theorem refl (m : Owners Slot) : Recovers m m := ⟨id, fun _ => rfl, rfl, rfl⟩

theorem trans (h : Recovers m m') (h' : Recovers m' m'') : Recovers m m'' :=
  ⟨h'.tidy ∘ h.tidy, fun t => (h'.temp t).trans (h.temp t), h'.fix.trans h.fix,
    h'.allocs.trans h.allocs⟩

theorem freeAndClear (m : Owners Slot) {f : Field} (hf : f ≠ .fixInfoTableAddr) :
    Recovers m (m.freeAndClear (.field f)) where
  tidy h := ⟨h.owns.freeAndClear _, fun t => (h.keeps t).freeAndClear _⟩
  temp t := Owners.freeAndClear_ptr (by simp)
  fix := Owners.freeAndClear_ptr (by simpa using hf.symm)
  allocs := Owners.freeAndClear_allocs

theorem clear (m : Owners Slot) {f : Field} (hf : f ≠ .fixInfoTableAddr) :
    Recovers m (m.clear (.field f)) where
  tidy h := ⟨h.owns.clear _, fun t => (h.keeps t).clear fun h => by cases h⟩
  temp t := Owners.clear_ptr (by simp)
  fix := Owners.clear_ptr (by simpa using hf.symm)
  allocs := rfl

/-- A null pointer is freed. -/
theorem free {s : Slot} (hs : m.ptr s = none) : Recovers m (m.free s) := by
  have hsame : m.free s = m := by rw [Owners.free, hs]
  rw [hsame]
  exact refl m

theorem foldl {ι : Type} {g : Owners Slot → ι → Owners Slot} (hg : ∀ m i, Recovers m (g m i))
    (is : List ι) (m : Owners Slot) : Recovers m (is.foldl g m) := by
  induction is generalizing m with
  | nil => exact refl m
  | cons i is ih => exact (hg m i).trans (ih _)

end Recovers

/-- **`_isp_raw_para_recover`** frees what the record holds, but for the fix structure. -/
theorem ispRawParaRecover_recovers (h : ParaHeap) : Recovers h.mem h.ispRawParaRecover.mem := by
  have hlnc := Recovers.foldl (g := fun m (ij : Fin 8 × Fin 9) =>
    m.freeAndClear (.field (.lncDataTableAddr ij.1 ij.2)))
    (fun m ij => .freeAndClear m (by simp)) lncIndexes h.mem
  have hae := fun m => Recovers.foldl (g := fun m (i : Fin 4) =>
    (m.freeAndClear (.field (.aesDataTableAddr i))).freeAndClear (.field (.aegDataTableAddr i)))
    (fun m i => (Recovers.freeAndClear m (by simp)).trans (.freeAndClear _ (by simp)))
    (List.finRange 4) m
  have hweight := fun m => Recovers.freeAndClear m (f := .aeWeightTableAddr) (by simp)
  have htune := fun m => Recovers.freeAndClear m (f := .tuneInfoTableAddr) (by simp)
  have hclear := fun m => Recovers.clear m (f := .tuneInfoTableAddr) (by simp)
  have hawb := fun m => Recovers.freeAndClear m (f := .awbMapTableAddr) (by simp)
  refine hlnc.trans ((hae _).trans ((hweight _).trans ((htune _).trans ?_)))
  refine Recovers.trans ?_ ((hclear _).trans (hawb _))
  split
  · exact .free Owners.freeAndClear_ptr_self
  · exact .refl _

/-- No fix structure has been allocated. -/
def ParaHeap.Fresh (h : ParaHeap) : Prop := h.mem.ptr fixSlot = none

/-- Tidy, and with nothing in the record that a load has not put there after its fix structure. -/
structure Sound (h : ParaHeap) : Prop where
  tidy : Tidy h.mem
  fresh : h.Fresh → ∀ (f : Field) (k : Nat), h.mem.allocs[k]? ≠ some (.field f)

/-- Between the calls. -/
structure Resting (h : ParaHeap) : Prop where
  sound : Sound h
  temps : ∀ t, h.mem.ptr (.temp t) = none

section Sound

variable {h : ParaHeap}

theorem Sound.recover (hs : Sound h) : Sound h.ispRawParaRecover := by
  have hrec := ispRawParaRecover_recovers h
  refine ⟨hrec.tidy hs.tidy, fun hfresh => ?_⟩
  rw [hrec.allocs]
  exact hs.fresh (hrec.fix.symm.trans hfresh)

theorem recover_fresh_iff : h.ispRawParaRecover.Fresh ↔ h.Fresh := by
  rw [ParaHeap.Fresh, (ispRawParaRecover_recovers h).fix, ParaHeap.Fresh]

/-- **Recovering** frees what was loaded if no fix structure was allocated. -/
theorem Sound.recovered_safe_iff (hs : Sound h) :
    (HeapEvent.recovered h.ispRawParaRecover).Safe ↔ h.Fresh := by
  have hrec := ispRawParaRecover_recovers h
  constructor
  · rintro ⟨-, hreleased⟩
    by_contra hfix
    obtain ⟨k, hk⟩ := Option.ne_none_iff_exists'.mp hfix
    exact hs.recover.tidy.owns.not_released (hrec.fix.trans hk) (hreleased _)
  · intro hfresh
    refine ⟨hs.recover.tidy.owns.once, fun f k hk => ?_⟩
    exact absurd hk (hs.recover.fresh (recover_fresh_iff.mpr hfresh) f k)

theorem Resting.recover (hr : Resting h) : Resting h.ispRawParaRecover :=
  ⟨hr.sound.recover, fun t => ((ispRawParaRecover_recovers h).temp t).trans (hr.temps t)⟩

/-- What is freed at `update_error`. -/
theorem Sound.freeTemps (hs : Sound h) : Resting h.freeTemps := by
  have hfree : ∀ (ts : List TempBuf) (m : Owners Slot), Tidy m →
      let m' := ts.foldl (fun m t => m.freeAndClear (.temp t)) m
      Tidy m' ∧ m'.ptr fixSlot = m.ptr fixSlot ∧ m'.allocs = m.allocs ∧
        ∀ t, t ∈ ts ∨ m.ptr (.temp t) = none → m'.ptr (.temp t) = none := by
    intro ts
    induction ts with
    | nil => exact fun m hm => ⟨hm, rfl, rfl, fun t ht => ht.resolve_left List.not_mem_nil⟩
    | cons t ts ih =>
      intro m hm
      have hstep : Tidy (m.freeAndClear (.temp t)) :=
        ⟨hm.owns.freeAndClear _, fun t' => (hm.keeps t').freeAndClear _⟩
      obtain ⟨htidy, hfix, hallocs, htemps⟩ := ih _ hstep
      refine ⟨htidy, hfix.trans (Owners.freeAndClear_ptr (by simp)),
        hallocs.trans Owners.freeAndClear_allocs, fun t' ht' => htemps t' ?_⟩
      by_cases heq : t' = t
      · exact Or.inr (heq ▸ Owners.freeAndClear_ptr_self)
      · rw [Owners.freeAndClear_ptr (by simpa using heq)]
        exact ht'.imp_left fun hmem => (List.mem_cons.mp hmem).resolve_left heq
  obtain ⟨htidy, hfix, hallocs, htemps⟩ :=
    hfree [TempBuf.fileTmpBuf, .tempBuf8, .tempBuf16, .tempBuf32] h.mem hs.tidy
  refine ⟨⟨htidy, fun hfresh => ?_⟩, fun t => htemps t (Or.inl (by cases t <;> decide))⟩
  have hold := hs.fresh (hfix.symm.trans hfresh)
  intro f k
  show (h.freeTemps).mem.allocs[k]? ≠ _
  rw [show h.freeTemps.mem.allocs = h.mem.allocs from hallocs]
  exact hold f k

/-- **Returning** with no temporary buffer. -/
theorem Resting.returned_safe (hr : Resting h) : (HeapEvent.returned h).Safe :=
  ⟨hr.sound.tidy.owns.once, fun t => (hr.sound.tidy.keeps t).released (hr.temps t)⟩

end Sound

/-! ## What a load keeps -/

/-- While the tables are loaded, with temporary buffers in some of the variables. -/
structure Loading (ts : List TempBuf) (h : ParaHeap) : Prop where
  tidy : Tidy h.mem
  fix : ¬h.Fresh
  temps : ∀ t, t ∉ ts → h.mem.ptr (.temp t) = none

/-- At `update_error`. -/
structure Stopped (h : ParaHeap) : Prop where
  tidy : Tidy h.mem
  fix : ¬h.Fresh

/-- A part of a load leaves the temporary buffers as they are if it succeeds. -/
abbrev Works {α : Type} (ts : List TempBuf) (x : HeapLoad α) : Prop :=
  Triple (Loading ts) x (fun _ => Loading ts) Stopped

theorem Loading.stopped {ts : List TempBuf} {h : ParaHeap} (hl : Loading ts h) : Stopped h :=
  ⟨hl.tidy, hl.fix⟩

theorem Tidy.alloc {m : Owners Slot} (hm : Tidy m) {s : Slot}
    (hs : ∀ t, s = .temp t → m.ptr s = none) : Tidy (m.alloc s) :=
  ⟨hm.owns.alloc s, fun t => (hm.keeps t).alloc fun h => hs t h.symm⟩

theorem Tidy.freeAndClear {m : Owners Slot} (hm : Tidy m) (s : Slot) : Tidy (m.freeAndClear s) :=
  ⟨hm.owns.freeAndClear s, fun t => (hm.keeps t).freeAndClear s⟩

/-- A `malloc` in either case. -/
theorem triple_mallocFor {s : Slot} {onFail : Owners Slot → Owners Slot} {P E : ParaHeap → Prop}
    {Q : Unit → ParaHeap → Prop}
    (hok : ∀ h ms, P h → Q () { h with mem := h.mem.alloc s, mallocs := ms })
    (hfail : ∀ h ms, P h → E { h with mem := onFail h.mem, mallocs := ms }) :
    Triple P (mallocFor s onFail) Q E := by
  intro h hP
  unfold mallocFor
  split
  · rename_i e
    split at e
    · cases e
    · obtain ⟨-, rfl⟩ := EStateM.Result.ok.inj e
      exact hok h _ hP
  · rename_i e
    split at e
    · obtain ⟨-, rfl⟩ := EStateM.Result.error.inj e
      exact hfail h _ hP
    · cases e

section Works

variable {ts : List TempBuf} {name : Text}

theorem works_scan {α : Type} (o : Option α) : Works ts (scanHeap o) := by
  cases o with
  | none => exact Triple.throw fun _ hl => hl.stopped
  | some a => exact Triple.pure fun _ hl => hl

theorem works_mallocField (t : TempBuf) (f : Field) : Works ts (mallocField t f) := by
  refine triple_mallocFor (fun h ms hl => ⟨hl.tidy.alloc (fun t ht => by cases ht), ?_, ?_⟩)
    fun h ms hl => ⟨hl.tidy.freeAndClear _, ?_⟩
  · by_cases hf : fixSlot = .field f
    · intro hfresh
      rw [ParaHeap.Fresh, hf] at hfresh
      cases hfresh.symm.trans Owners.alloc_ptr_self
    · intro hfresh
      exact hl.fix ((Owners.alloc_ptr hf).symm.trans hfresh)
  · exact fun t ht => (Owners.alloc_ptr (by simp)).trans (hl.temps t ht)
  · exact fun hfresh => hl.fix ((Owners.freeAndClear_ptr (by simp)).symm.trans hfresh)

theorem works_lncHeap (p : Text) (ij : Fin 8 × Fin 9) : Works ts (lncHeap name p ij) := by
  unfold lncHeap
  split
  · exact Triple.pure fun _ hl => hl
  · refine Triple.bind (works_scan _) fun r => Triple.ite ?_ (Triple.pure fun _ hl => hl)
    exact Triple.bind (works_mallocField _ _) fun _ => Triple.pure fun _ hl => hl

theorem works_requiredHeap (size : Nat) (t : TempBuf) (f : Field) (p pat : Text) :
    Works ts (requiredHeap size t f p pat) := by
  unfold requiredHeap
  split
  · exact Triple.throw fun _ hl => hl.stopped
  · refine Triple.bind (works_scan _) fun r => Triple.ite ?_ (Triple.throw fun _ hl => hl.stopped)
    exact Triple.bind (works_mallocField _ _) fun _ => Triple.pure fun _ hl => hl

theorem works_awbMapHeap (p : Text) : Works ts (awbMapHeap name p) := by
  unfold awbMapHeap
  split
  · exact Triple.throw fun _ hl => hl.stopped
  · refine Triple.bind (works_scan _) fun p => Triple.bind (works_scan _) fun r => ?_
    exact Triple.ite (works_mallocField _ _) (Triple.pure fun _ hl => hl)

theorem works_aeIndexesHeap (p : Text) (i : Fin 4) : Works ts (aeIndexesHeap name p i) := by
  unfold aeIndexesHeap
  split
  · exact Triple.throw fun _ hl => hl.stopped
  · exact Triple.bind (works_scan _) fun p => works_scan _

theorem works_fixInfoHeap (text : Text) : Works ts (fixInfoHeap name text) := by
  unfold fixInfoHeap
  split
  · exact Triple.throw fun _ hl => hl.stopped
  · refine Triple.bind (Triple.foldlM works_aeIndexesHeap _ _) fun p =>
      Triple.bind (works_scan _) fun _ => ?_
    split
    · exact Triple.throw fun _ hl => hl.stopped
    · exact Triple.bind (works_scan _) fun _ => Triple.pure fun _ hl => hl

/-- **A part with a temporary buffer** frees it again. -/
theorem works_withTemp {α : Type} {t : TempBuf} {work : HeapLoad α} (ht : t ≠ .fileTmpBuf)
    (hwork : Works [.fileTmpBuf, t] work) : Works [.fileTmpBuf] (withTemp t work) := by
  have hfix : fixSlot ≠ .temp t := by simp
  have hmalloc : Triple (Loading [.fileTmpBuf]) (mallocTemp t)
      (fun _ => Loading [.fileTmpBuf, t]) Stopped := by
    refine triple_mallocFor (fun h ms hl => ⟨hl.tidy.alloc fun t' ht' => ?_, ?_, ?_⟩)
      fun h ms hl => ⟨⟨hl.tidy.owns.clear _, fun t' => (hl.tidy.keeps t').clear fun _ => ?_⟩, ?_⟩
    · exact hl.temps t (by simpa using ht)
    · exact fun hfresh => hl.fix ((Owners.alloc_ptr hfix).symm.trans hfresh)
    · intro t' ht'
      rw [List.mem_cons, List.mem_singleton, not_or] at ht'
      rw [Owners.alloc_ptr (by simpa using ht'.2)]
      exact hl.temps t' (by simpa using ht'.1)
    · exact hl.temps t (by simpa using ht)
    · exact fun hfresh => hl.fix ((Owners.clear_ptr hfix).symm.trans hfresh)
  refine Triple.bind hmalloc fun _ => Triple.bind hwork fun _ => Triple.modify fun h hl =>
    ⟨hl.tidy.freeAndClear _, ?_, fun t' ht' => ?_⟩
  · exact fun hfresh => hl.fix ((Owners.freeAndClear_ptr hfix).symm.trans hfresh)
  · by_cases heq : t' = t
    · exact heq ▸ Owners.freeAndClear_ptr_self
    · rw [Owners.freeAndClear_ptr (by simpa using heq)]
      exact hl.temps t' (by simpa [heq] using ht')

/-- **The tables** are loaded with one temporary buffer at a time. -/
theorem works_tablesHeap (text : Text) : Works [.fileTmpBuf] (tablesHeap name text) := by
  unfold tablesHeap
  refine Triple.bind (works_scan _) fun text => ?_
  refine Triple.bind (works_withTemp (by simp) (Triple.foldlM works_lncHeap _ _)) fun _ => ?_
  refine Triple.bind (works_withTemp (by simp)
    (Triple.foldlM (fun p i => works_requiredHeap _ _ _ _ _) _ _)) fun _ => ?_
  refine Triple.bind (works_withTemp (by simp)
    (Triple.foldlM (fun p i => works_requiredHeap _ _ _ _ _) _ _)) fun _ => ?_
  refine Triple.bind (works_withTemp (by simp) (works_requiredHeap _ _ _ _ _)) fun _ => ?_
  refine Triple.bind (works_withTemp (by simp) (works_requiredHeap _ _ _ _ _)) fun _ => ?_
  exact Triple.bind (works_withTemp (by simp) (works_awbMapHeap _)) fun _ => works_fixInfoHeap _

end Works

/-! ## When a load succeeds -/

section Mallocs

variable (name : Text)

/-- What lies behind a lens table; it may be missing. -/
def lncRest (p : Text) (ij : Fin 8 × Fin 9) : Text :=
  match strstr (lncLookupStr name ij.1 ij.2) p with
  | none => p
  | some q => behindBrace (q.drop (lncLookupStr name ij.1 ij.2).length)

/-- The blocks of a lens table. -/
def lncCount (p : Text) (ij : Fin 8 × Fin 9) : Nat :=
  match strstr (lncLookupStr name ij.1 ij.2) p with
  | none => 0
  | some q => if 1 < numbersIn false (q.drop (lncLookupStr name ij.1 ij.2).length) then 1 else 0

def lncCounts : List (Fin 8 × Fin 9) → Text → Nat
  | [], _ => 0
  | ij :: ijs, p => lncCount name p ij + lncCounts ijs (lncRest name p ij)

/-- The blocks of the AWB map. -/
def awbCount (text : Text) : Nat :=
  match strstr (awbMapLookupStr name) text with
  | none => 0
  | some q =>
    if 1 < numbersIn true ((q.drop (awbMapLookupStr name).length).drop 8) then 1 else 0

/-- How often a load calls `malloc`: for its two structures, nine more tables, six temporary buffers,
the lens tables that are not empty, and the AWB map if it is not. -/
def loadMallocs (text : Text) : Nat :=
  match blankComments .code text with
  | none => 0
  | some t => 17 + lncCounts name lncIndexes t + awbCount name t

/-- The file has all that a load needs, and no `malloc` of the load fails. -/
def Loads (f : FileSeen) : Prop :=
  paramParse name f.text = .ok () ∧ Enough (loadMallocs name f.text) f.mallocs

end Mallocs

/-- The calls of `malloc` of a part of a load. -/
abbrev Mallocs {α β : Type} (g : α → β) (x : HeapLoad α) (r : Parse β) (n : Nat) : Prop :=
  Draws ParaHeap.mallocs g x r n

section Draws

variable {name : Text}

theorem mallocs_scan {α : Type} (o : Option α) : Mallocs id (scanHeap o) (inText o) 0 := by
  cases o with
  | none => exact Draws.throw _
  | some a => exact Draws.pure a

theorem mallocFor_granted {h : ParaHeap} (hhead : h.mallocs.head? ≠ some false) (s : Slot)
    (onFail : Owners Slot → Owners Slot) :
    mallocFor s onFail h = .ok () { h with mem := h.mem.alloc s, mallocs := h.mallocs.tail } := by
  unfold mallocFor
  split
  · rename_i ms hms
    rw [hms] at hhead
    exact absurd rfl hhead
  · rfl

theorem mallocFor_refused {h : ParaHeap} (hhead : h.mallocs.head? = some false) (s : Slot)
    (onFail : Owners Slot → Owners Slot) :
    mallocFor s onFail h =
      .error .updateError { h with mem := onFail h.mem, mallocs := h.mallocs.tail } := by
  obtain ⟨ms, hms⟩ := List.head?_eq_some_iff.mp hhead
  simp only [mallocFor, hms, List.tail_cons]

theorem mallocs_mallocFor (s : Slot) (onFail : Owners Slot → Owners Slot) :
    Mallocs (fun _ => ()) (mallocFor s onFail) (.ok ()) 1 := by
  intro h
  rw [enough_one]
  by_cases hhead : h.mallocs.head? = some false
  · exact Or.inr ⟨Or.inr fun hno => hno hhead, _, _, mallocFor_refused hhead s onFail⟩
  · refine Or.inl ⟨hhead, (), _, mallocFor_granted hhead s onFail, rfl, ?_⟩
    exact List.drop_one.symm

/-- One call, and the rest. -/
theorem Mallocs.seq {α β γ : Type} {x : HeapLoad α} {f : α → HeapLoad β} {g : β → γ} {r : Parse γ}
    {n k : Nat} (hx : Mallocs (fun _ => ()) x (.ok ()) n) (hf : ∀ a, Mallocs g (f a) r k) :
    Mallocs g (x >>= f) r (n + k) :=
  Draws.bind (h := fun _ => r) hx fun a _ => hf a

/-- A scan, and the rest. -/
theorem Mallocs.scan {α β γ : Type} {o : Option α} {f : α → HeapLoad β} {g : β → γ}
    {h : α → Parse γ} {n : Nat} (hf : ∀ a, o = some a → Mallocs g (f a) (h a) n) :
    Mallocs g (scanHeap o >>= f) (inText o >>= h) n := by
  rw [← Nat.zero_add n]
  refine Draws.bind (mallocs_scan o) fun a ha => hf a ?_
  cases o with
  | none => cases ha
  | some a' => rw [Except.ok.inj ha, id]

/-- A part with a temporary buffer, and the rest. -/
theorem Mallocs.temp {α β γ δ : Type} {t : TempBuf} {work : HeapLoad α} {g : α → β} {r : Parse β}
    {f : Unit → HeapLoad γ} {g' : γ → δ} {next : Parse δ} {n k : Nat} (hwork : Mallocs g work r n)
    (hf : ∀ a, Mallocs g' (f a) next k) :
    Mallocs g' (withTemp t work >>= f) (r >>= fun _ => next) (1 + n + k) := by
  have hpart : Mallocs (fun _ => ()) (withTemp t work) (r >>= fun _ => .ok ()) (1 + n) := by
    refine Mallocs.seq (mallocs_mallocFor _ _) fun _ => ?_
    exact Draws.bind (k := 0) hwork fun _ _ => Draws.modify fun _ => rfl
  have hbind := Draws.bind (h := fun _ => next) hpart fun a _ => hf a
  rwa [bind_assoc] at hbind

theorem mallocs_lncHeap (p : Text) (ij : Fin 8 × Fin 9) :
    Mallocs id (lncHeap name p ij) (lncParse name p ij) (lncCount name p ij) := by
  unfold lncHeap lncParse lncCount
  cases strstr (lncLookupStr name ij.1 ij.2) p with
  | none => exact Draws.pure p
  | some q =>
    refine Mallocs.scan fun r hr => ?_
    dsimp only
    rw [← (exists_scanTable hr).1]
    by_cases hcnt : 1 < r.1
    · simp only [if_pos hcnt]
      exact Draws.bind (h := fun _ => .ok r.2) (k := 0) (mallocs_mallocFor _ _) fun _ _ =>
        Draws.pure r.2
    · simp only [if_neg hcnt]
      exact Draws.pure r.2

theorem lncParse_eq {p q : Text} {ij : Fin 8 × Fin 9} (h : lncParse name p ij = .ok q) :
    q = lncRest name p ij := by
  unfold lncParse at h
  unfold lncRest
  cases hfind : strstr (lncLookupStr name ij.1 ij.2) p with
  | none =>
    rw [hfind] at h
    exact (Except.ok.inj h).symm
  | some r =>
    rw [hfind] at h
    dsimp only at h ⊢
    cases hscan : scanTable false 65536 (r.drop (lncLookupStr name ij.1 ij.2).length) with
    | none => rw [hscan] at h; cases h
    | some s =>
      rw [hscan] at h
      rw [← Except.ok.inj h, scanTable_eq hscan]

theorem mallocs_lncs (ijs : List (Fin 8 × Fin 9)) (p : Text) :
    Mallocs id (ijs.foldlM (lncHeap name) p) (ijs.foldlM (lncParse name) p)
      (lncCounts name ijs p) := by
  induction ijs generalizing p with
  | nil => exact Draws.pure p
  | cons ij ijs ih =>
    rw [List.foldlM_cons, List.foldlM_cons, lncCounts]
    refine Draws.bind (mallocs_lncHeap p ij) fun q hq => ?_
    rw [← lncParse_eq hq]
    exact ih q

theorem mallocs_requiredHeap (size : Nat) (t : TempBuf) (f : Field) (p pat : Text) :
    Mallocs id (requiredHeap size t f p pat) (requiredParse size p pat) 1 := by
  unfold requiredHeap requiredParse
  cases strstr pat p with
  | none => exact Draws.throw _
  | some q =>
    refine Mallocs.scan fun r _ => ?_
    by_cases hcnt : 1 < r.1
    · simp only [if_pos hcnt]
      exact Draws.bind (h := fun _ => .ok r.2) (k := 0) (mallocs_mallocFor _ _) fun _ _ =>
        Draws.pure r.2
    · simp only [if_neg hcnt]
      exact Draws.throw _

theorem mallocs_aesTables (text : Text) :
    Mallocs id ((List.finRange 4).foldlM (aesHeap name) text)
      (((List.finRange 4).map (aesLookupStr name)).foldlM (requiredParse 1544) text) (4 * 1) := by
  have htable : ∀ p i, Mallocs id (aesHeap name p i) (requiredParse 1544 p (aesLookupStr name i)) 1 :=
    fun p i => mallocs_requiredHeap _ _ _ p _
  rw [List.foldlM_map]
  exact Draws.foldlM htable (List.finRange 4) text

theorem mallocs_aegTables (text : Text) :
    Mallocs id ((List.finRange 4).foldlM (aegHeap name) text)
      (((List.finRange 4).map (aegLookupStr name)).foldlM (requiredParse 1552) text) (4 * 1) := by
  have htable : ∀ p i, Mallocs id (aegHeap name p i) (requiredParse 1552 p (aegLookupStr name i)) 1 :=
    fun p i => mallocs_requiredHeap _ _ _ p _
  rw [List.foldlM_map]
  exact Draws.foldlM htable (List.finRange 4) text

theorem mallocs_awbMapHeap (p : Text) :
    Mallocs id (awbMapHeap name p) (awbMapParse name p) (awbCount name p) := by
  unfold awbMapHeap awbMapParse awbCount
  cases strstr (awbMapLookupStr name) p with
  | none => exact Draws.throw _
  | some q =>
    refine Mallocs.scan fun p hp => Mallocs.scan fun r hr => ?_
    dsimp only
    rw [← advance_eq hp, ← (exists_scanTable hr).1]
    by_cases hcnt : 1 < r.1
    · simp only [if_pos hcnt]
      exact mallocs_mallocFor _ _
    · simp only [if_neg hcnt]
      exact Draws.pure ()

theorem mallocs_aeIndexesHeap (p : Text) (i : Fin 4) :
    Mallocs id (aeIndexesHeap name p i) (aeIndexesParse name p i) 0 := by
  unfold aeIndexesHeap aeIndexesParse
  cases strstr (aegInfoLookupStr name) p with
  | none => exact Draws.throw _
  | some q => exact Mallocs.scan fun p _ => mallocs_scan _

theorem mallocs_fixInfoHeap (text : Text) :
    Mallocs id (fixInfoHeap name text) (fixInfoParse name text) 0 := by
  unfold fixInfoHeap fixInfoParse
  cases strstr (fixInfoLookupStr name) text with
  | none => exact Draws.throw _
  | some q =>
    refine Draws.bind (n := 4 * 0) (k := 0) (Draws.foldlM mallocs_aeIndexesHeap (List.finRange 4) q)
      fun p _ => Mallocs.scan fun _ _ => ?_
    cases strstr (awbMapLookupStr name) q with
    | none => exact Draws.throw _
    | some r => exact Mallocs.scan fun _ _ => Draws.pure ()

/-- **The calls of `malloc`** behind that of the fix structure. -/
theorem mallocs_tablesHeap (text : Text) :
    Mallocs id (tablesHeap name text) (paramParse name text) (loadMallocs name text - 1) := by
  unfold tablesHeap paramParse loadMallocs
  cases blankComments .code text with
  | none => exact Mallocs.scan fun _ h => by cases h
  | some t =>
    refine Mallocs.scan fun t' ht' => ?_
    obtain rfl := Option.some.inj ht'
    have hcount : 17 + lncCounts name lncIndexes t + awbCount name t - 1 =
        1 + lncCounts name lncIndexes t + (1 + 4 * 1 + (1 + 4 * 1 + (1 + 1 + (1 + 1 +
          (1 + awbCount name t + 0))))) := by
      omega
    rw [hcount]
    refine Mallocs.temp (mallocs_lncs _ t) fun _ => ?_
    refine Mallocs.temp (mallocs_aesTables t) fun _ => ?_
    refine Mallocs.temp (mallocs_aegTables t) fun _ => ?_
    refine Mallocs.temp (mallocs_requiredHeap _ _ _ t _) fun _ => ?_
    refine Mallocs.temp (mallocs_requiredHeap _ _ _ t _) fun _ => ?_
    exact Mallocs.temp (mallocs_awbMapHeap t) fun _ => mallocs_fixInfoHeap t

end Draws

/-! ## Calls keep the blocks -/

/-- From the file on, the load goes through, or it fails before it has allocated a fix structure and
finds none in the record. -/
def LoadKeepsFix (name : Text) (h : ParaHeap) (f : FileSeen) : Prop :=
  f.ftellOk = true → f.bufferOk = true →
    f.readOk = true ∧ Loads name f ∨ h.Fresh ∧ (f.readOk = false ∨ f.mallocs.head? = some false)

/-- The call does not recover once a fix structure has been allocated: the file is there, it is the
one that is loaded or nothing has been loaded, and its load goes through. -/
def KeepsFix (name : Text) (s : Option ParaHeap) (i : Option FileSeen) : Prop := ∀ h, s = some h →
  match i with
  | none => h.Fresh
  | some f => f.statOk = true → h.updataFileTime = 0 ∨ h.updataFileTime ≠ f.mtime →
    (h.updataFileTime ≠ 0 → h.Fresh) ∧ LoadKeepsFix name h f

/-- What is seen of a call, or of a part of it. -/
structure Seen (r : Option ParaHeap × List HeapEvent) (ok : Prop) : Prop where
  once : ∀ e ∈ r.2, e.FreedOnce
  safe : (∀ e ∈ r.2, e.Safe) ↔ ok
  resting : ∀ h, r.1 = some h → Resting h

section Calls

variable {name : Text} {h : ParaHeap} {f : FileSeen}

theorem Sound.recovered_once (hs : Sound h) :
    (HeapEvent.recovered h.ispRawParaRecover).FreedOnce :=
  hs.recover.tidy.owns.once

theorem seen_finish (hr : Resting h) : Seen h.finish True where
  once e he := by
    obtain rfl := List.mem_singleton.mp he
    exact hr.returned_safe
  safe := iff_true_intro fun e he => by
    obtain rfl := List.mem_singleton.mp he
    exact hr.returned_safe
  resting h' hh' := Option.some.inj hh' ▸ hr

/-- After a recovery, with or without a load. -/
theorem Seen.recovered {r : Option ParaHeap × List HeapEvent} {ok : Prop} (hs : Sound h)
    (hseen : Seen r ok) :
    Seen (r.1, .recovered h.ispRawParaRecover :: r.2) (h.Fresh ∧ ok) where
  once := List.forall_mem_cons.mpr ⟨hs.recovered_once, hseen.once⟩
  safe := by rw [List.forall_mem_cons, hs.recovered_safe_iff, hseen.safe]
  resting := hseen.resting

theorem seen_updateError (hs : Sound h) : Seen h.updateError h.Fresh := by
  have hseen := Seen.recovered hs (seen_finish hs.recover.freeTemps)
  rwa [and_true] at hseen

/-- A load and its `malloc` of the fix structure. -/
theorem loads_iff (text : Text) (ms : List Bool) :
    (paramParse name text = .ok () ∧ Enough (loadMallocs name text) ms) ↔
      ms.head? ≠ some false ∧ (∃ u, paramParse name text = .ok u) ∧
        Enough (loadMallocs name text - 1) ms.tail := by
  have hpos : paramParse name text = .ok () → loadMallocs name text ≠ 0 := by
    intro hok
    rw [loadMallocs]
    cases hb : blankComments .code text with
    | none =>
      rw [paramParse, hb] at hok
      cases hok
    | some t => exact (by omega : 17 + lncCounts name lncIndexes t + awbCount name t ≠ 0)
  constructor
  · rintro ⟨hok, henough⟩
    have hsplit : loadMallocs name text = 1 + (loadMallocs name text - 1) := by
      have := hpos hok
      omega
    rw [hsplit, enough_add, enough_one, List.drop_one] at henough
    exact ⟨henough.1, ⟨(), hok⟩, henough.2⟩
  · rintro ⟨hhead, ⟨u, hok⟩, henough⟩
    have hsplit : loadMallocs name text = 1 + (loadMallocs name text - 1) := by
      have := hpos hok
      omega
    refine ⟨hok, ?_⟩
    rw [hsplit, enough_add, enough_one, List.drop_one]
    exact ⟨hhead, henough⟩

/-- **A load.** -/
theorem loadHeap_outcome (hs : Sound h)
    (htemps : ∀ t, t ∉ [TempBuf.fileTmpBuf] → h.mem.ptr (.temp t) = none) (text : Text) :
    match loadHeap name text h with
    | .ok _ h' => (paramParse name text = .ok () ∧ Enough (loadMallocs name text) h.mallocs) ∧
      Loading [.fileTmpBuf] h'
    | .error .updateError h' =>
      ¬(paramParse name text = .ok () ∧ Enough (loadMallocs name text) h.mallocs) ∧ Sound h' ∧
        (h'.Fresh ↔ h.Fresh ∧ h.mallocs.head? = some false)
    | .error .overrun _ =>
      ¬(paramParse name text = .ok () ∧ Enough (loadMallocs name text) h.mallocs) ∧
        h.mallocs.head? ≠ some false := by
  rw [loads_iff]
  by_cases hhead : h.mallocs.head? = some false
  · -- there is no memory for the fix structure
    have hload : loadHeap name text h = .error .updateError { h with mallocs := h.mallocs.tail } := by
      show EStateM.bind (mallocFor fixSlot id) _ h = _
      rw [EStateM.bind, mallocFor_refused hhead]
      rfl
    rw [hload]
    exact ⟨fun hall => hall.1 hhead, ⟨hs.tidy, hs.fresh⟩, (and_iff_left hhead).symm⟩
  · let h₁ := { h with mem := h.mem.alloc fixSlot, mallocs := h.mallocs.tail }
    have hload : loadHeap name text h = tablesHeap name text h₁ := by
      show EStateM.bind (mallocFor fixSlot id) _ h = _
      rw [EStateM.bind, mallocFor_granted hhead]
    have hloading : Loading [.fileTmpBuf] h₁ := by
      refine ⟨hs.tidy.alloc (fun t ht => by cases ht), fun hfresh => ?_, fun t ht => ?_⟩
      · cases (Owners.alloc_ptr_self (o := h.mem) (i := fixSlot)).symm.trans hfresh
      · exact (Owners.alloc_ptr (by simp)).trans (htemps t ht)
    have hworks := @works_tablesHeap name text h₁ hloading
    have hok := (@mallocs_tablesHeap name text).ok_iff h₁
    rw [hload, and_iff_right hhead, ← hok]
    cases hcase : tablesHeap name text h₁ with
    | ok u h' =>
      rw [hcase] at hworks
      exact ⟨⟨u, h', rfl⟩, hworks⟩
    | error e h' =>
      rw [hcase] at hworks
      have hstopped : Stopped h' := hworks
      have hno : ¬∃ a s', (EStateM.Result.error e h' : EStateM.Result _ _ Unit) = .ok a s' := by
        rintro ⟨a, s', hok⟩
        cases hok
      cases e with
      | updateError =>
        exact ⟨hno, ⟨hstopped.tidy, fun hfresh => absurd hfresh hstopped.fix⟩,
          iff_of_false hstopped.fix fun hall => hhead hall.2⟩
      | overrun => exact ⟨hno, hhead⟩

/-- **From the `fread` on.** -/
theorem seen_readFile (hs : Sound h) (hmallocs : h.mallocs = f.mallocs)
    (htemps : ∀ t, t ∉ [TempBuf.fileTmpBuf] → h.mem.ptr (.temp t) = none) :
    Seen (h.readFile name f)
      (f.readOk = true ∧ Loads name f ∨
        h.Fresh ∧ (f.readOk = false ∨ f.mallocs.head? = some false)) := by
  have hload := @loadHeap_outcome name { h with updataFileTime := f.mtime } ⟨hs.tidy, hs.fresh⟩ htemps f.text
  dsimp only at hload
  rw [hmallocs] at hload
  unfold ParaHeap.readFile
  split
  · rename_i hread
    simpa [hread] using seen_updateError hs
  rename_i hread
  rw [Bool.not_eq_false] at hread
  rw [hmallocs]
  simp only [hread, true_and, Bool.true_eq_false, false_or]
  split
  · rename_i u h' heq
    rw [heq] at hload
    obtain ⟨hloads, hloading⟩ := hload
    rw [iff_true_intro (Or.inl hloads : Loads name f ∨ h.Fresh ∧ f.mallocs.head? = some false)]
    refine seen_finish ⟨⟨hloading.tidy.freeAndClear _, fun hfresh => ?_⟩, fun t => ?_⟩
    · exact absurd ((Owners.freeAndClear_ptr (by simp)).symm.trans hfresh) hloading.fix
    · by_cases ht : t = .fileTmpBuf
      · exact ht ▸ Owners.freeAndClear_ptr_self
      · rw [Owners.freeAndClear_ptr (by simpa using ht)]
        exact hloading.temps t (by simpa using ht)
  · rename_i h' heq
    rw [heq] at hload
    obtain ⟨hno, hsound, hiff⟩ := hload
    have hiff' : h'.Fresh ↔ h.Fresh ∧ f.mallocs.head? = some false := hiff
    rw [or_iff_right (show ¬Loads name f from hno), ← hiff']
    exact seen_updateError hsound
  · rename_i h' heq
    rw [heq] at hload
    have hfalse : ¬(Loads name f ∨ h.Fresh ∧ f.mallocs.head? = some false) :=
      not_or.mpr ⟨hload.1, fun hall => hload.2 hall.2⟩
    refine ⟨fun e he => ?_, iff_of_false (fun hall => hall _ List.mem_cons_self) hfalse, fun h hh => ?_⟩
    · rw [List.mem_singleton.mp he]
      trivial
    · cases hh

/-- **A load from the file on.** -/
theorem seen_loadFile (hr : Resting h) : Seen (h.loadFile name f) (LoadKeepsFix name h f) := by
  unfold ParaHeap.loadFile LoadKeepsFix
  split
  · rename_i hftell
    simpa [hftell] using seen_finish hr
  split
  · rename_i hbuffer
    simpa [hbuffer] using seen_finish hr
  rename_i hftell hbuffer
  rw [Bool.not_eq_false] at hftell hbuffer
  rw [forall_prop_of_true hftell, forall_prop_of_true hbuffer]
  have hfix : (h.mem.alloc (.temp .fileTmpBuf)).ptr fixSlot = h.mem.ptr fixSlot :=
    Owners.alloc_ptr (by simp)
  have hs : Sound { h with mem := h.mem.alloc (.temp .fileTmpBuf), mallocs := f.mallocs } := by
    refine ⟨hr.sound.tidy.alloc fun t _ => hr.temps _, fun hfresh g k hk => ?_⟩
    rcases Owners.getElem?_alloc.mp hk with hold | hnew
    · exact hr.sound.fresh (hfix.symm.trans hfresh) g k hold
    · cases hnew.2
  have hread := @seen_readFile name _ f hs rfl fun t ht =>
    (Owners.alloc_ptr (by simpa using ht)).trans (hr.temps t)
  rwa [ParaHeap.Fresh, hfix] at hread

/-- **A call.** -/
theorem seen_call (hr : Resting h) (i : Option FileSeen) :
    Seen (h.ispRawParaUpdateFromFile name i) (KeepsFix name (some h) i) := by
  have hkeeps : KeepsFix name (some h) i ↔ match i with
      | none => h.Fresh
      | some f => f.statOk = true → h.updataFileTime = 0 ∨ h.updataFileTime ≠ f.mtime →
        (h.updataFileTime ≠ 0 → h.Fresh) ∧ LoadKeepsFix name h f :=
    ⟨fun hall => hall h rfl, fun hall h' hh' => Option.some.inj hh' ▸ hall⟩
  rw [hkeeps]
  cases i with
  | none =>
    have hseen := Seen.recovered hr.sound (seen_finish hr.recover)
    rwa [and_true] at hseen
  | some f =>
    have hrecover : LoadKeepsFix name h.ispRawParaRecover f ↔ LoadKeepsFix name h f := by
      rw [LoadKeepsFix, LoadKeepsFix, recover_fresh_iff]
    unfold ParaHeap.ispRawParaUpdateFromFile
    dsimp only
    split
    · rename_i hstat
      simpa [hstat] using seen_finish hr
    rename_i hstat
    rw [Bool.not_eq_false] at hstat
    rw [forall_prop_of_true hstat]
    split
    · rename_i htime
      simpa [htime] using seen_loadFile hr
    rename_i htime
    split
    · rename_i hsame
      have hfalse : ¬(h.updataFileTime = 0 ∨ h.updataFileTime ≠ f.mtime) :=
        not_or.mpr ⟨htime, not_not.mpr hsame⟩
      simpa only [forall_prop_of_false hfalse] using seen_finish hr
    · rename_i hother
      rw [forall_prop_of_true (Or.inr hother), forall_prop_of_true htime, ← hrecover]
      exact Seen.recovered hr.sound (seen_loadFile hr.recover)

end Calls

theorem resting_init : Resting .init where
  sound := by
    refine ⟨⟨⟨?_, List.nodup_nil, ?_⟩, ?_⟩, ?_⟩
    · exact fun i k hk => by cases hk
    · exact fun k hk => absurd hk List.not_mem_nil
    · exact fun t k hk => by cases hk
    · exact fun _ f k hk => by cases hk
  temps _ := rfl

/-- **Every block is released once**: for every sequence of calls, files and failures, no block is
freed twice and no temporary buffer outlives its call. What a load has put into the record is freed
by `_isp_raw_para_recover` exactly if no call recovers once a fix structure has been allocated. -/
theorem para_blocks_released_iff (name : Text) (calls : List (Option FileSeen)) :
    (∀ e ∈ ((paraHeap name).run (some .init) calls).2, e.FreedOnce) ∧
      ((∀ e ∈ ((paraHeap name).run (some .init) calls).2, e.Safe) ↔
        (paraHeap name).Admits (KeepsFix name) (some .init) calls) := by
  have hseen : ∀ s i, (∀ h, s = some h → Resting h) →
      Seen ((paraHeap name).step s i) (KeepsFix name s i) := by
    intro s i hs
    cases s with
    | none =>
      refine ⟨fun e he => absurd he List.not_mem_nil, ?_, fun h hh => by cases hh⟩
      exact iff_of_true (fun e he => absurd he List.not_mem_nil) fun h hh => by cases hh
    | some h => exact seen_call (hs h rfl) i
  have hinit : ∀ h, some ParaHeap.init = some h → Resting h :=
    fun h hh => Option.some.inj hh ▸ resting_init
  constructor
  · have hrun := (paraHeap name).run_induction
      (P := fun s log => (∀ h, s = some h → Resting h) ∧ ∀ e ∈ log, e.FreedOnce)
      (fun s log i ⟨hs, hlog⟩ _ => ⟨(hseen s i hs).resting,
        List.forall_mem_append.mpr ⟨hlog, (hseen s i hs).once⟩⟩)
      calls _ [] ⟨hinit, fun e he => absurd he List.not_mem_nil⟩ ((paraHeap name).admits_true _ _)
    rw [List.nil_append] at hrun
    exact hrun.2
  · exact (paraHeap name).outputs_safe_iff (fun s i hs => (hseen s i hs).safe)
      (fun s i hs _ => (hseen s i hs).resting) calls _ hinit

/-- A file is loaded, and then it vanishes: the fix structure that was built from it is never freed. -/
theorem para_fix_not_released : ∃ e ∈ ((paraHeap (ascii "x")).run (some .init)
    [some (sampleFile 7 sampleText), none]).2, ¬e.Safe := by
  have hload : (ParaHeap.init.ispRawParaUpdateFromFile (ascii "x")
      (some (sampleFile 7 sampleText))).1.map (fun h => h.mem.ptr fixSlot) = some (some 1) := by
    decide +kernel
  obtain ⟨h, hh, hfix⟩ := Option.map_eq_some_iff.mp hload
  have hr : Resting h := (seen_call resting_init _).resting h hh
  refine ⟨.recovered h.ispRawParaRecover, ?_, fun hsafe => ?_⟩
  · rw [Machine.run_cons, paraHeap_step, hh]
    exact List.mem_append_right _ List.mem_cons_self
  · cases hfix.symm.trans (hr.sound.recovered_safe_iff.mp hsafe)

end SprdHal.Isp
