import SprdHal.Isp.ParamText
import SprdHal.Lib.Machine
import SprdHal.Lib.Triple

/-!
# Raw parameters from a file (`isp_param_file_update.c`)

`isp_raw_para_update_from_file` replaces the built-in tune and fix structures of a sensor by ones
that are built from a file on the SD card, and `_isp_raw_para_recover` frees what was built and puts
the built-in ones back. The blocks and the original pointers are kept in a static record. The time of
the loaded file is kept there too, and 0 stands for "nothing loaded", also for a file whose time is 0.

The numbers in the tables are not part of the model: the tables are their blocks.
-/

namespace SprdHal.Isp

open SprdHal.Lib

/-! ## Memory -/

/-- An address: null, one of the built-in data, or a block that was allocated. A block is not the
block that was at its address before. -/
inductive Addr
  | null
  | static (n : Nat)
  | block (n : Nat)
  deriving DecidableEq, Repr

/-- The pointers of `struct sensor_raw_fix_info`. -/
structure FixInfo where
  weightTab : Addr
  ePtr : Fin 4 → Addr
  gPtr : Fin 4 → Addr
  lncParamAddr : Fin 8 → Fin 9 → Addr
  awbAddr : Addr

/-- A table that is reached from the structure. -/
inductive FixInfo.Refers (f : FixInfo) : Addr → Prop
  | weight : f.Refers f.weightTab
  | exposure (i : Fin 4) : f.Refers (f.ePtr i)
  | gain (i : Fin 4) : f.Refers (f.gPtr i)
  | lens (i : Fin 8) (j : Fin 9) : f.Refers (f.lncParamAddr i j)
  | awb : f.Refers f.awbAddr

/-- The built-in fix structure: its tables are not allocated. -/
structure BuiltIn where
  fix : FixInfo
  static : ∀ a, fix.Refers a → ∀ k, a ≠ .block k

/-- The built-in `tune_ptr`. -/
def builtInTune : Addr := .static 0

/-- The built-in `fix_ptr`. -/
def builtInFix : Addr := .static 1

/-- `struct isp_raw_info_update_status` -/
structure UpdateStatus where
  updataFileTime : Nat
  fixInfoTableAddr : Addr
  tuneInfoTableAddr : Addr
  aeWeightTableAddr : Addr
  lncDataTableAddr : Fin 8 → Fin 9 → Addr
  aesDataTableAddr : Fin 4 → Addr
  aegDataTableAddr : Fin 4 → Addr
  tuneInfoTableOrgAddr : Addr
  awbMapTableAddr : Addr
  fixInfoTableOrgAddr : Addr

/-- The sensor's `raw_info`, its entry of `raw_info_update_status`, and the memory: the fix structures
in blocks, the number of blocks so far, the blocks that `_isp_raw_para_recover` has freed, and
whether the next calls of `malloc` succeed. -/
structure RawPara where
  tunePtr : Addr
  fixPtr : Addr
  status : UpdateStatus
  fixInfos : Nat → FixInfo
  blocks : Nat
  freed : List Nat
  mallocs : List Bool

namespace RawPara

/-- `free` of a null pointer does nothing. -/
def free (w : RawPara) : Addr → RawPara
  | .block k => { w with freed := k :: w.freed }
  | _ => w

def freeAll (w : RawPara) (as : List Addr) : RawPara := as.foldl free w

/-- The fix structure at an address. -/
def fixAt (b : BuiltIn) (w : RawPara) : Addr → FixInfo
  | .block k => w.fixInfos k
  | _ => b.fix

/-- `_isp_raw_para_recover`. Where `fix_info_table_addr` is set, `tune_info_table_addr` is freed a
second time, which is null by then; the fix structure itself is not freed. -/
def ispRawParaRecover (w : RawPara) : RawPara :=
  let st := w.status
  let w := w.freeAll ((List.finRange 8).flatMap fun i => (List.finRange 9).map (st.lncDataTableAddr i))
  let w := w.freeAll ((List.finRange 4).flatMap fun i => [st.aesDataTableAddr i, st.aegDataTableAddr i])
  let w := w.free st.aeWeightTableAddr
  let w := w.free st.tuneInfoTableAddr
  let w := if st.fixInfoTableAddr ≠ .null then w.free .null else w
  let w := w.free st.awbMapTableAddr
  { w with
    tunePtr := if st.tuneInfoTableOrgAddr ≠ .null then st.tuneInfoTableOrgAddr else w.tunePtr
    fixPtr := if st.fixInfoTableOrgAddr ≠ .null then st.fixInfoTableOrgAddr else w.fixPtr
    status :=
      { st with
        updataFileTime := 0
        lncDataTableAddr := fun _ _ => .null
        aesDataTableAddr := fun _ => .null
        aegDataTableAddr := fun _ => .null
        aeWeightTableAddr := .null
        tuneInfoTableAddr := .null
        awbMapTableAddr := .null
        tuneInfoTableOrgAddr := .null
        fixInfoTableOrgAddr := .null } }

end RawPara

/-! ## Loading -/

/-- What ends a load early: `goto update_error`, or a scan that leaves the text or its buffer. -/
inductive Trap
  | updateError
  | overrun
  deriving DecidableEq, Repr

abbrev Load := EStateM Trap RawPara

/-- A scan of the text. -/
def scan {α : Type} : Option α → Load α
  | some a => pure a
  | none => throw .overrun

/-- `malloc`, and `goto update_error` if it fails. -/
def mallocOrFail : Load Addr := fun w =>
  match w.mallocs with
  | false :: ms => .error .updateError { w with mallocs := ms }
  | ms => .ok (.block w.blocks) { w with mallocs := ms.tail, blocks := w.blocks + 1 }

def setStatus (g : UpdateStatus → UpdateStatus) : Load Unit :=
  modify fun w => { w with status := g w.status }

/-- An assignment to fields of the fix structure at `fix`. -/
def setFix (fix : Addr) (g : FixInfo → FixInfo) : Load Unit :=
  modify fun w =>
    match fix with
    | .block k => { w with fixInfos := Function.update w.fixInfos k (g (w.fixInfos k)) }
    | _ => w

/-- `map[i][j] = a` -/
def setEntry (ij : Fin 8 × Fin 9) (a : Addr) (t : Fin 8 → Fin 9 → Addr) : Fin 8 → Fin 9 → Addr :=
  fun i j => if (i, j) = ij then a else t i j

def FixInfo.setLnc (ij : Fin 8 × Fin 9) (a : Addr) (f : FixInfo) : FixInfo :=
  { f with lncParamAddr := setEntry ij a f.lncParamAddr }

section Tables

variable (name : Text) (fix : Addr)

/-- A lens table: it may be missing or empty. -/
def lncTable (p : Text) (ij : Fin 8 × Fin 9) : Load Text := do
  match strstr (lncLookupStr name ij.1 ij.2) p with
  | none =>
    setFix fix (.setLnc ij .null)
    return p
  | some q =>
    let (cnt, p) ← scan (scanTable false 65536 (q.drop (lncLookupStr name ij.1 ij.2).length))
    if 1 < cnt then
      let a ← mallocOrFail
      setStatus fun st => { st with lncDataTableAddr := setEntry ij a st.lncDataTableAddr }
      setFix fix (.setLnc ij a)
    else setFix fix (.setLnc ij .null)
    return p

/-- A table that must be there and not be empty: its block, and the text behind it. -/
def requiredTable (pat : Text) (size : Nat) (store : Addr → UpdateStatus → UpdateStatus)
    (set : Addr → FixInfo → FixInfo) (p : Text) : Load (Addr × Text) := do
  match strstr pat p with
  | none => throw .updateError
  | some q =>
    let (cnt, p) ← scan (scanTable false size (q.drop pat.length))
    if 1 < cnt then
      let a ← mallocOrFail
      setStatus (store a)
      setFix fix (set a)
      return (a, p)
    else throw .updateError

def aesTable (p : Text) (i : Fin 4) : Load Text := do
  let (_, p) ← requiredTable fix (aesLookupStr name i) 1544
    (fun a st => { st with aesDataTableAddr := Function.update st.aesDataTableAddr i a })
    (fun a f => { f with ePtr := Function.update f.ePtr i a }) p
  return p

def aegTable (p : Text) (i : Fin 4) : Load Text := do
  let (_, p) ← requiredTable fix (aegLookupStr name i) 1552
    (fun a st => { st with aegDataTableAddr := Function.update st.aegDataTableAddr i a })
    (fun a f => { f with gPtr := Function.update f.gPtr i a }) p
  return p

def aeWeightTable (p : Text) : Load (Addr × Text) :=
  requiredTable fix (aeWeightLookupStr name) 1088 (fun a st => { st with aeWeightTableAddr := a })
    (fun a f => { f with weightTab := a }) p

/-- `raw_tune_info_ptr`; the fix structure has no pointer to it. -/
def tuneInfoTable (p : Text) : Load (Addr × Text) :=
  requiredTable fix (tuneInfoLookupStr name) 5056 (fun a st => { st with tuneInfoTableAddr := a })
    (fun _ f => f) p

/-- The AWB map. If it is empty, the pointer of the built-in structure stays. -/
def awbMapTable (p : Text) : Load Unit := do
  match strstr (awbMapLookupStr name) p with
  | none => throw .updateError
  | some q =>
    let p ← scan (advance 8 (q.drop (awbMapLookupStr name).length))
    let (cnt, _) ← scan (scanTable true 6160 p)
    if 1 < cnt then
      let a ← mallocOrFail
      setStatus fun st => { st with awbMapTableAddr := a }
      setFix fix fun f => { f with awbAddr := a }

/-- The indexes of an exposure table: `start` and `max` for each of the six ISO values. -/
def aeIndexes (p : Text) (_ : Fin 4) : Load Text := do
  match strstr (aegInfoLookupStr name) p with
  | none => throw .updateError
  | some q =>
    let p ← scan (advance 4 (q.drop (aegInfoLookupStr name).length))
    scan (nextNumbers 12 p)

/-- The fields of the fix structure that are not pointers. -/
def fixInfoFields (text : Text) : Load Unit := do
  match strstr (fixInfoLookupStr name) text with
  | none => throw .updateError
  | some q =>
    let p ← (List.finRange 4).foldlM (aeIndexes name) q
    let _ ← scan (scanGrids 72 p)
    match strstr (awbMapLookupStr name) q with
    | none => throw .updateError
    | some r =>
      let _ ← scan (scanAwbLen (r.drop (awbMapLookupStr name).length))

end Tables

/-- `lnc.map[i][j]` in the order of the loops. -/
def lncIndexes : List (Fin 8 × Fin 9) :=
  (List.finRange 8).flatMap fun i => (List.finRange 9).map fun j => (i, j)

/-- The tables of a load: `raw_tune_info_ptr`. Each part has a temporary buffer, which is freed
again. -/
def loadTables (name : Text) (fix : Addr) (text : Text) : Load Addr := do
  let text ← scan (blankComments .code text)
  let _ ← mallocOrFail
  let _ ← lncIndexes.foldlM (lncTable name fix) text
  let _ ← mallocOrFail
  let _ ← (List.finRange 4).foldlM (aesTable name fix) text
  let _ ← mallocOrFail
  let _ ← (List.finRange 4).foldlM (aegTable name fix) text
  let _ ← mallocOrFail
  let _ ← aeWeightTable name fix text
  let _ ← mallocOrFail
  let (tune, _) ← tuneInfoTable name fix text
  let _ ← mallocOrFail
  awbMapTable name fix text
  fixInfoFields name text
  return tune

/-- A load up to the installation: `raw_tune_info_ptr` and `raw_fix_info_ptr`. -/
def load (b : BuiltIn) (name text : Text) : Load (Addr × Addr) := do
  let fix ← mallocOrFail
  setStatus fun st => { st with fixInfoTableAddr := fix }
  let w ← get
  setFix fix fun _ => w.fixAt b w.fixPtr
  let tune ← loadTables name fix text
  return (tune, fix)

/-! ## Calls -/

/-- What a call finds if it can open the file: whether `stat`, `ftell`, the `malloc` of the file's
buffer and `fread` succeed, whether each later `malloc` does, the time, and the text. -/
structure FileSeen where
  statOk : Bool
  mtime : Nat
  ftellOk : Bool
  bufferOk : Bool
  readOk : Bool
  mallocs : List Bool
  text : Text

/-- What a call does: `SENSOR_SUCCESS` without a load, `SENSOR_FAIL` before the load has started or
after it, or `SENSOR_SUCCESS` with the tune and the fix structure that were built. -/
inductive Outcome
  | unchanged
  | refused
  | failed
  | loaded (tune fix : Addr)
  deriving DecidableEq, Repr

/-- A load from the file on. -/
def RawPara.loadFile (b : BuiltIn) (name : Text) (w : RawPara) (f : FileSeen) :
    Option (RawPara × Outcome) :=
  let w := if w.status.updataFileTime = 0 then w else w.ispRawParaRecover
  let w :=
    { w with
      status :=
        { w.status with tuneInfoTableOrgAddr := w.tunePtr, fixInfoTableOrgAddr := w.fixPtr }
      mallocs := f.mallocs }
  if f.ftellOk = false then some (w, .failed)
  else if f.bufferOk = false then some (w, .failed)
  else if f.readOk = false then some (w.ispRawParaRecover, .failed)
  else
    match load b name f.text { w with status := { w.status with updataFileTime := f.mtime } } with
    | .ok (tune, fix) w => some ({ w with tunePtr := tune, fixPtr := fix }, .loaded tune fix)
    | .error .updateError w => some (w.ispRawParaRecover, .failed)
    | .error .overrun _ => none

/-- `isp_raw_para_update_from_file` for a raw sensor; `none` if the file cannot be opened. There is no
result if a scan has left its buffer. -/
def RawPara.ispRawParaUpdateFromFile (b : BuiltIn) (name : Text) (w : RawPara) :
    Option FileSeen → Option (RawPara × Outcome)
  | none => some (w.ispRawParaRecover, .refused)
  | some f =>
    if f.statOk = false then some (w, .refused)
    else if w.status.updataFileTime ≠ 0 ∧ w.status.updataFileTime = f.mtime then some (w, .unchanged)
    else w.loadFile b name f

/-- Calls one after the other. After a scan that has left its buffer, nothing is known. -/
def paraUpdate (b : BuiltIn) (name : Text) :
    Machine (Option RawPara) (Option FileSeen) Outcome where
  step s i :=
    match s.bind fun w => w.ispRawParaUpdateFromFile b name i with
    | some (w, o) => (some w, [o])
    | none => (none, [])

/-- Before the first call. -/
def RawPara.init (fixInfos : Nat → FixInfo) : RawPara where
  tunePtr := builtInTune
  fixPtr := builtInFix
  status := ⟨0, .null, .null, .null, fun _ _ => .null, fun _ => .null, fun _ => .null, .null, .null, .null⟩
  fixInfos := fixInfos
  blocks := 0
  freed := []
  mallocs := []

/-! ## What the sensor relies on -/

/-- Both structures are the built-in ones. -/
def RawPara.IsBuiltIn (w : RawPara) : Prop := w.tunePtr = builtInTune ∧ w.fixPtr = builtInFix

/-- The structures of the last load that succeeded. -/
def lastLoaded (log : List Outcome) : Option (Addr × Addr) :=
  log.foldl (fun acc o => match o with
    | .loaded tune fix => some (tune, fix)
    | _ => acc) none

/-- The address is not that of a block that `_isp_raw_para_recover` has freed. -/
def RawPara.Live (w : RawPara) (a : Addr) : Prop := ∀ k, a = .block k → k ∉ w.freed

/-- Updates are atomic. -/
structure ParaOk (b : BuiltIn) (w : RawPara) (log : List Outcome) : Prop where
  both : w.IsBuiltIn ∨ lastLoaded log = some (w.tunePtr, w.fixPtr)
  failed : log.getLast? = some .failed → w.IsBuiltIn
  live : ∀ a, (w.fixAt b w.fixPtr).Refers a → w.Live a

/-- The call does not take what was loaded from a file with time 0 for the built-in structures, and
none of its scans leaves the text or its buffer. -/
def Loadable (b : BuiltIn) (name : Text) (s : Option RawPara) (i : Option FileSeen) : Prop :=
  ∀ w f, s = some w → i = some f → f.statOk = true →
    (w.status.updataFileTime = 0 → w.IsBuiltIn) ∧ w.ispRawParaUpdateFromFile b name i ≠ none

/-! ## Recovering -/

section Free

variable (w : RawPara) (a : Addr) (as : List Addr)

@[simp] theorem free_null : w.free .null = w := rfl

@[simp] theorem free_tunePtr : (w.free a).tunePtr = w.tunePtr := by cases a <;> rfl

@[simp] theorem free_fixPtr : (w.free a).fixPtr = w.fixPtr := by cases a <;> rfl

@[simp] theorem free_fixInfos : (w.free a).fixInfos = w.fixInfos := by cases a <;> rfl

@[simp] theorem free_blocks : (w.free a).blocks = w.blocks := by cases a <;> rfl

theorem mem_free_freed (k : Nat) : k ∈ (w.free a).freed ↔ k ∈ w.freed ∨ a = .block k := by
  cases a with
  | null | static n => simp [RawPara.free]
  | block n => simp [RawPara.free, or_comm, eq_comm]

/-- What `freeAll` leaves alone. -/
theorem freeAll_same : (w.freeAll as).tunePtr = w.tunePtr ∧ (w.freeAll as).fixPtr = w.fixPtr ∧
    (w.freeAll as).blocks = w.blocks := by
  induction as generalizing w with
  | nil => exact ⟨rfl, rfl, rfl⟩
  | cons a as ih =>
    obtain ⟨htune, hfix, hblocks⟩ := ih (w.free a)
    exact ⟨htune.trans (free_tunePtr w a), hfix.trans (free_fixPtr w a),
      hblocks.trans (free_blocks w a)⟩

theorem mem_freeAll_freed (k : Nat) :
    k ∈ (w.freeAll as).freed ↔ k ∈ w.freed ∨ .block k ∈ as := by
  induction as generalizing w with
  | nil => simp [RawPara.freeAll]
  | cons a as ih =>
    have h := ih (w.free a)
    rw [mem_free_freed] at h
    rw [List.mem_cons, ← or_assoc, eq_comm]
    exact h

end Free

/-- The blocks that `_isp_raw_para_recover` frees. -/
inductive UpdateStatus.Tracks (st : UpdateStatus) : Addr → Prop
  | lens (i : Fin 8) (j : Fin 9) : st.Tracks (st.lncDataTableAddr i j)
  | exposure (i : Fin 4) : st.Tracks (st.aesDataTableAddr i)
  | gain (i : Fin 4) : st.Tracks (st.aegDataTableAddr i)
  | weight : st.Tracks st.aeWeightTableAddr
  | tune : st.Tracks st.tuneInfoTableAddr
  | awb : st.Tracks st.awbMapTableAddr

section Recover

variable (w : RawPara)

theorem recover_tunePtr :
    w.ispRawParaRecover.tunePtr =
      if w.status.tuneInfoTableOrgAddr ≠ .null then w.status.tuneInfoTableOrgAddr else w.tunePtr := by
  simp only [RawPara.ispRawParaRecover, free_null, ite_self, free_tunePtr, (freeAll_same _ _).1]

theorem recover_fixPtr :
    w.ispRawParaRecover.fixPtr =
      if w.status.fixInfoTableOrgAddr ≠ .null then w.status.fixInfoTableOrgAddr else w.fixPtr := by
  simp only [RawPara.ispRawParaRecover, free_null, ite_self, free_fixPtr, (freeAll_same _ _).2.1]

theorem recover_blocks : w.ispRawParaRecover.blocks = w.blocks := by
  simp only [RawPara.ispRawParaRecover, free_null, ite_self, free_blocks, (freeAll_same _ _).2.2]

/-- Only blocks of the record are freed. -/
theorem mem_recover_freed {k : Nat} (h : k ∈ w.ispRawParaRecover.freed) :
    k ∈ w.freed ∨ w.status.Tracks (.block k) := by
  simp only [RawPara.ispRawParaRecover, free_null, ite_self, mem_free_freed, mem_freeAll_freed,
    List.mem_flatMap, List.mem_map, List.mem_finRange, true_and, List.mem_cons, List.not_mem_nil,
    or_false] at h
  rcases h with ((((h | ⟨i, j, h⟩) | ⟨i, h | h⟩) | h) | h) | h
  · exact Or.inl h
  · exact Or.inr (h ▸ .lens i j)
  · exact Or.inr (h ▸ .exposure i)
  · exact Or.inr (h ▸ .gain i)
  · exact Or.inr (h ▸ .weight)
  · exact Or.inr (h ▸ .tune)
  · exact Or.inr (h ▸ .awb)

/-- Nothing is tracked afterwards. -/
theorem recover_tracks {a : Addr} (h : w.ispRawParaRecover.status.Tracks a) : a = .null := by
  cases h <;> rfl

end Recover

/-! ## The invariant of a load -/

/-- What blocks are known to be: those of the record and the freed ones are older than the next. -/
structure RawPara.Base (w : RawPara) : Prop where
  freed_lt : ∀ k ∈ w.freed, k < w.blocks
  tracks_lt : ∀ k, w.status.Tracks (.block k) → k < w.blocks

/-- Recovering leads back to the built-in structures. -/
structure RawPara.Recoverable (w : RawPara) : Prop where
  base : w.Base
  tuneOrg : w.status.tuneInfoTableOrgAddr = builtInTune
  fixOrg : w.status.fixInfoTableOrgAddr = builtInFix

theorem RawPara.Recoverable.setMallocs {w : RawPara} (h : w.Recoverable) (ms : List Bool) :
    { w with mallocs := ms }.Recoverable :=
  ⟨⟨h.base.freed_lt, h.base.tracks_lt⟩, h.tuneOrg, h.fixOrg⟩

theorem RawPara.Recoverable.alloc {w : RawPara} (h : w.Recoverable) (ms : List Bool) :
    { w with mallocs := ms, blocks := w.blocks + 1 }.Recoverable :=
  ⟨⟨fun k hk => Nat.lt_succ_of_lt (h.base.freed_lt k hk),
    fun k hk => Nat.lt_succ_of_lt (h.base.tracks_lt k hk)⟩, h.tuneOrg, h.fixOrg⟩

/-- `malloc` stops the load, or returns a new block. -/
theorem mallocOrFail_cases (w : RawPara) :
    (∃ ms, mallocOrFail w = .error .updateError { w with mallocs := ms }) ∨
      ∃ ms, mallocOrFail w =
        .ok (.block w.blocks) { w with mallocs := ms, blocks := w.blocks + 1 } := by
  unfold mallocOrFail
  split
  · exact Or.inl ⟨_, rfl⟩
  · exact Or.inr ⟨_, rfl⟩

/-- While a load fills the fix structure `fix`, with the blocks in `keep` at hand. -/
structure RawPara.Loading (b : BuiltIn) (fix : Addr) (keep : List Addr) (w : RawPara) : Prop where
  recoverable : w.Recoverable
  keep_lt : ∀ k, .block k ∈ keep → k < w.blocks
  keep_live : ∀ a ∈ keep, w.Live a
  live : ∀ a, (w.fixAt b fix).Refers a → w.Live a

namespace RawPara.Loading

variable {b : BuiltIn} {fix a : Addr} {keep keep' : List Addr} {w : RawPara}

theorem mono (h : w.Loading b fix keep) (hkeep : ∀ a ∈ keep', a ∈ keep) :
    w.Loading b fix keep' :=
  ⟨h.recoverable, fun k hk => h.keep_lt k (hkeep _ hk), fun a ha => h.keep_live a (hkeep a ha),
    h.live⟩

/-- A new block. -/
theorem alloc (h : w.Loading b fix keep) (ms : List Bool) :
    { w with mallocs := ms, blocks := w.blocks + 1 }.Loading b fix (.block w.blocks :: keep) where
  recoverable := h.recoverable.alloc ms
  keep_lt k hk := by
    rcases List.mem_cons.mp hk with hk | hk
    · obtain rfl := Addr.block.inj hk
      exact Nat.lt_succ_self _
    · exact Nat.lt_succ_of_lt (h.keep_lt k hk)
  keep_live a ha := by
    rcases List.mem_cons.mp ha with rfl | ha
    · intro k hk hfreed
      obtain rfl := Addr.block.inj hk
      exact Nat.lt_irrefl _ (h.recoverable.base.freed_lt _ hfreed)
    · exact h.keep_live a ha
  live := by
    have hlive := h.live
    cases fix <;> exact hlive

/-- The record takes a block that is at hand. -/
theorem status {g : UpdateStatus → UpdateStatus} (h : w.Loading b fix keep)
    (htune : (g w.status).tuneInfoTableOrgAddr = w.status.tuneInfoTableOrgAddr)
    (hfix : (g w.status).fixInfoTableOrgAddr = w.status.fixInfoTableOrgAddr)
    (htracks : ∀ a, (g w.status).Tracks a → w.status.Tracks a ∨ a ∈ keep) :
    { w with status := g w.status }.Loading b fix keep where
  recoverable :=
    ⟨⟨h.recoverable.base.freed_lt, fun k hk =>
      (htracks _ hk).elim (h.recoverable.base.tracks_lt k) (h.keep_lt k)⟩,
      htune.trans h.recoverable.tuneOrg, hfix.trans h.recoverable.fixOrg⟩
  keep_lt := h.keep_lt
  keep_live := h.keep_live
  live := by
    have hlive := h.live
    cases fix <;> exact hlive

/-- The fix structure takes a block that is at hand. -/
theorem fixInfo {g : FixInfo → FixInfo} {k : Nat} (h : w.Loading b (.block k) keep)
    (hg : ∀ a, (g (w.fixInfos k)).Refers a →
      (w.fixInfos k).Refers a ∨ a = .null ∨ a ∈ keep) :
    { w with fixInfos := Function.update w.fixInfos k (g (w.fixInfos k)) }.Loading b (.block k) keep where
  recoverable :=
    ⟨⟨h.recoverable.base.freed_lt, h.recoverable.base.tracks_lt⟩, h.recoverable.tuneOrg,
      h.recoverable.fixOrg⟩
  keep_lt := h.keep_lt
  keep_live := h.keep_live
  live a ha := by
    simp only [fixAt, Function.update_self] at ha
    rcases hg a ha with ha | rfl | ha
    · exact h.live a ha
    · exact fun k hk => nomatch hk
    · exact h.keep_live a ha

end RawPara.Loading

/-! ### The parts of a load -/

section Parts

variable {b : BuiltIn} {k : Nat} {keep : List Addr}

/-- The triples of this section: the part keeps what is known while `fix` is filled, and leaves
something that can be recovered where it stops. -/
def Fills {α : Type} (b : BuiltIn) (k : Nat) (keep : List Addr) (x : Load α)
    (new : α → List Addr) : Prop :=
  Triple (RawPara.Loading b (.block k) keep) x
    (fun r => RawPara.Loading b (.block k) (new r ++ keep)) RawPara.Recoverable

theorem fills_scan {α : Type} (x : Option α) : Fills b k keep (scan x) fun _ => [] := by
  cases x with
  | none => exact .throw fun w h => h.recoverable
  | some a => exact .pure fun w h => h

theorem fills_malloc : Fills b k keep mallocOrFail fun a => [a] := by
  intro w h
  rcases mallocOrFail_cases w with ⟨ms, hw⟩ | ⟨ms, hw⟩ <;> rw [hw]
  · exact h.recoverable.setMallocs ms
  · exact h.alloc ms

theorem fills_setStatus {g : UpdateStatus → UpdateStatus}
    (htune : ∀ st, (g st).tuneInfoTableOrgAddr = st.tuneInfoTableOrgAddr)
    (hfix : ∀ st, (g st).fixInfoTableOrgAddr = st.fixInfoTableOrgAddr)
    (htracks : ∀ st a, (g st).Tracks a → st.Tracks a ∨ a ∈ keep) :
    Fills b k keep (setStatus g) fun _ => [] :=
  .modify fun w h => h.status (htune w.status) (hfix w.status) (htracks w.status)

theorem fills_setFix {g : FixInfo → FixInfo}
    (hg : ∀ f a, (g f).Refers a → f.Refers a ∨ a = .null ∨ a ∈ keep) :
    Fills b k keep (setFix (.block k) g) fun _ => [] :=
  .modify fun w h => h.fixInfo (hg (w.fixInfos k))

theorem Fills.bind {α β : Type} {x : Load α} {f : α → Load β} {new : α → List Addr}
    {new' : β → List Addr} (hx : Fills b k keep x new)
    (hf : ∀ a, Fills b k (new a ++ keep) (f a) new') : Fills b k keep (x >>= f) new' := by
  refine Triple.bind hx fun a => (hf a).mono (fun w h => h) fun r w h => h.mono ?_
  intro c hc
  rcases List.mem_append.mp hc with hc | hc
  · exact List.mem_append_left _ hc
  · exact List.mem_append_right _ (List.mem_append_right _ hc)

theorem fills_pure {α : Type} {a : α} {new : α → List Addr} (h : ∀ c ∈ new a, c ∈ keep) :
    Fills b k keep (pure a) new :=
  .pure fun _ hl => hl.mono fun c hc => (List.mem_append.mp hc).elim (h c) id

theorem fills_throw {α : Type} {new : α → List Addr} (e : Trap) :
    Fills b k keep (throw e : Load α) new := .throw fun _ h => h.recoverable

theorem Fills.ite {α : Type} {c : Prop} [Decidable c] {x y : Load α} {new : α → List Addr}
    (hx : Fills b k keep x new) (hy : Fills b k keep y new) :
    Fills b k keep (if c then x else y) new := Triple.ite hx hy

theorem fills_foldlM {β γ : Type} {g : β → γ → Load β}
    (h : ∀ p c, Fills b k keep (g p c) fun _ => []) (l : List γ) (p : β) :
    Fills b k keep (l.foldlM g p) fun _ => [] := Triple.foldlM h l p

/-- An entry of a table after another one was set. -/
theorem update_or (t : Fin 4 → Addr) (i j : Fin 4) (a : Addr) :
    Function.update t i a j = a ∨ Function.update t i a j = t j := by
  rw [Function.update_apply]
  split
  · exact Or.inl rfl
  · exact Or.inr rfl

theorem setEntry_or (ij : Fin 8 × Fin 9) (a : Addr) (t : Fin 8 → Fin 9 → Addr) (i : Fin 8)
    (j : Fin 9) : setEntry ij a t i j = a ∨ setEntry ij a t i j = t i j := by
  unfold setEntry
  split
  · exact Or.inl rfl
  · exact Or.inr rfl

/-- A required table: its block is at hand afterwards. -/
theorem fills_requiredTable {pat : Text} {size : Nat} {store : Addr → UpdateStatus → UpdateStatus}
    {set : Addr → FixInfo → FixInfo} {p : Text}
    (htune : ∀ a st, (store a st).tuneInfoTableOrgAddr = st.tuneInfoTableOrgAddr)
    (hfix : ∀ a st, (store a st).fixInfoTableOrgAddr = st.fixInfoTableOrgAddr)
    (htracks : ∀ a st c, (store a st).Tracks c → st.Tracks c ∨ c = a)
    (hset : ∀ a f c, (set a f).Refers c → f.Refers c ∨ c = a) :
    Fills b k keep (requiredTable (.block k) pat size store set p) fun r => [r.1] := by
  unfold requiredTable
  split
  · exact fills_throw _
  · refine .bind (fills_scan _) fun r => ?_
    refine .ite (.bind fills_malloc fun a => ?_) (fills_throw _)
    have hmem : a ∈ [a] ++ ([] ++ keep) := List.mem_cons_self
    refine .bind (fills_setStatus (htune a) (hfix a) ?_) fun _ => ?_
    · intro st c hc
      rcases htracks a st c hc with hc | rfl
      · exact Or.inl hc
      · exact Or.inr hmem
    refine .bind (fills_setFix ?_) fun _ => fills_pure ?_
    · intro f c hc
      rcases hset a f c hc with hc | rfl
      · exact Or.inl hc
      · exact Or.inr (Or.inr hmem)
    · intro c hc
      obtain rfl := List.mem_singleton.mp hc
      exact hmem

/-- One pointer to a lens table is set. -/
theorem fills_setLnc {ij : Fin 8 × Fin 9} {a : Addr} (ha : a = .null ∨ a ∈ keep) :
    Fills b k keep (setFix (.block k) (.setLnc ij a)) fun _ => [] := by
  refine fills_setFix fun f c hc => ?_
  cases hc with
  | weight => exact Or.inl .weight
  | exposure i => exact Or.inl (.exposure i)
  | gain i => exact Or.inl (.gain i)
  | lens i j =>
    rcases setEntry_or ij a f.lncParamAddr i j with h | h
    · exact Or.inr (by simpa only [FixInfo.setLnc, h] using ha)
    · exact Or.inl (by simpa only [FixInfo.setLnc, h] using .lens i j)
  | awb => exact Or.inl .awb

theorem fills_lncTable (name p : Text) (ij : Fin 8 × Fin 9) :
    Fills b k keep (lncTable name (.block k) p ij) fun _ => [] := by
  unfold lncTable
  split
  · exact .bind (fills_setLnc (Or.inl rfl)) fun _ => fills_pure (by simp)
  · refine .bind (fills_scan _) fun r => ?_
    refine .ite (.bind fills_malloc fun a => ?_)
      (.bind (fills_setLnc (Or.inl rfl)) fun _ => fills_pure (by simp))
    have hmem : a ∈ [a] ++ ([] ++ keep) := List.mem_cons_self
    refine .bind (fills_setStatus (fun _ => rfl) (fun _ => rfl) ?_) fun _ =>
      .bind (fills_setLnc (Or.inr hmem)) fun _ => fills_pure (by simp)
    intro st c hc
    cases hc with
    | lens i j =>
      rcases setEntry_or ij a st.lncDataTableAddr i j with h | h
      · exact Or.inr (by simpa only [h] using hmem)
      · exact Or.inl (by simpa only [h] using .lens i j)
    | exposure i => exact Or.inl (.exposure i)
    | gain i => exact Or.inl (.gain i)
    | weight => exact Or.inl .weight
    | tune => exact Or.inl .tune
    | awb => exact Or.inl .awb

theorem fills_aesTable (name p : Text) (i : Fin 4) :
    Fills b k keep (aesTable name (.block k) p i) fun _ => [] := by
  refine .bind (fills_requiredTable (fun _ _ => rfl) (fun _ _ => rfl) ?_ ?_) fun _ =>
    fills_pure (by simp)
  · intro a st c hc
    cases hc with
    | lens i j => exact Or.inl (.lens i j)
    | exposure j =>
      rcases update_or st.aesDataTableAddr i j a with h | h
      · exact Or.inr h
      · exact Or.inl (by simpa only [h] using .exposure j)
    | gain i => exact Or.inl (.gain i)
    | weight => exact Or.inl .weight
    | tune => exact Or.inl .tune
    | awb => exact Or.inl .awb
  · intro a f c hc
    cases hc with
    | weight => exact Or.inl .weight
    | exposure j =>
      rcases update_or f.ePtr i j a with h | h
      · exact Or.inr h
      · exact Or.inl (by simpa only [h] using .exposure j)
    | gain i => exact Or.inl (.gain i)
    | lens i j => exact Or.inl (.lens i j)
    | awb => exact Or.inl .awb

theorem fills_aegTable (name p : Text) (i : Fin 4) :
    Fills b k keep (aegTable name (.block k) p i) fun _ => [] := by
  refine .bind (fills_requiredTable (fun _ _ => rfl) (fun _ _ => rfl) ?_ ?_) fun _ =>
    fills_pure (by simp)
  · intro a st c hc
    cases hc with
    | lens i j => exact Or.inl (.lens i j)
    | exposure i => exact Or.inl (.exposure i)
    | gain j =>
      rcases update_or st.aegDataTableAddr i j a with h | h
      · exact Or.inr h
      · exact Or.inl (by simpa only [h] using .gain j)
    | weight => exact Or.inl .weight
    | tune => exact Or.inl .tune
    | awb => exact Or.inl .awb
  · intro a f c hc
    cases hc with
    | weight => exact Or.inl .weight
    | exposure i => exact Or.inl (.exposure i)
    | gain j =>
      rcases update_or f.gPtr i j a with h | h
      · exact Or.inr h
      · exact Or.inl (by simpa only [h] using .gain j)
    | lens i j => exact Or.inl (.lens i j)
    | awb => exact Or.inl .awb

theorem fills_aeWeightTable (name p : Text) :
    Fills b k keep (aeWeightTable name (.block k) p) fun r => [r.1] := by
  refine fills_requiredTable (fun _ _ => rfl) (fun _ _ => rfl) ?_ ?_
  · intro a st c hc
    cases hc with
    | lens i j => exact Or.inl (.lens i j)
    | exposure i => exact Or.inl (.exposure i)
    | gain i => exact Or.inl (.gain i)
    | weight => exact Or.inr rfl
    | tune => exact Or.inl .tune
    | awb => exact Or.inl .awb
  · intro a f c hc
    cases hc with
    | weight => exact Or.inr rfl
    | exposure i => exact Or.inl (.exposure i)
    | gain i => exact Or.inl (.gain i)
    | lens i j => exact Or.inl (.lens i j)
    | awb => exact Or.inl .awb

theorem fills_tuneInfoTable (name p : Text) :
    Fills b k keep (tuneInfoTable name (.block k) p) fun r => [r.1] := by
  refine fills_requiredTable (fun _ _ => rfl) (fun _ _ => rfl) ?_ fun _ _ _ hc => Or.inl hc
  intro a st c hc
  cases hc with
  | lens i j => exact Or.inl (.lens i j)
  | exposure i => exact Or.inl (.exposure i)
  | gain i => exact Or.inl (.gain i)
  | weight => exact Or.inl .weight
  | tune => exact Or.inr rfl
  | awb => exact Or.inl .awb

theorem fills_awbMapTable (name p : Text) :
    Fills b k keep (awbMapTable name (.block k) p) fun _ => [] := by
  unfold awbMapTable
  split
  · exact fills_throw _
  · refine .bind (fills_scan _) fun _ => .bind (fills_scan _) fun _ => ?_
    refine .ite (.bind fills_malloc fun a => ?_) (fills_pure (by simp))
    have hmem : a ∈ [a] ++ ([] ++ ([] ++ keep)) := List.mem_cons_self
    refine .bind (fills_setStatus (fun _ => rfl) (fun _ => rfl) ?_) fun _ => fills_setFix ?_
    · intro st c hc
      cases hc with
      | lens i j => exact Or.inl (.lens i j)
      | exposure i => exact Or.inl (.exposure i)
      | gain i => exact Or.inl (.gain i)
      | weight => exact Or.inl .weight
      | tune => exact Or.inl .tune
      | awb => exact Or.inr hmem
    · intro f c hc
      cases hc with
      | weight => exact Or.inl .weight
      | exposure i => exact Or.inl (.exposure i)
      | gain i => exact Or.inl (.gain i)
      | lens i j => exact Or.inl (.lens i j)
      | awb => exact Or.inr (Or.inr hmem)

theorem fills_aeIndexes (name p : Text) (i : Fin 4) :
    Fills b k keep (aeIndexes name p i) fun _ => [] := by
  unfold aeIndexes
  split
  · exact fills_throw _
  · exact .bind (fills_scan _) fun _ => fills_scan _

theorem fills_fixInfoFields (name text : Text) :
    Fills b k keep (fixInfoFields name text) fun _ => [] := by
  unfold fixInfoFields
  split
  · exact fills_throw _
  · refine .bind (fills_foldlM (fills_aeIndexes name) _ _) fun _ => .bind (fills_scan _) fun _ => ?_
    split
    · exact fills_throw _
    · exact .bind (fills_scan _) fun _ => fills_pure (by simp)

end Parts

theorem fills_loadTables {b : BuiltIn} {k : Nat} {keep : List Addr} (name text : Text) :
    Fills b k keep (loadTables name (.block k) text) fun _ => [] := by
  refine .bind (fills_scan _) fun text => .bind fills_malloc fun _ => ?_
  refine .bind (fills_foldlM (fills_lncTable name) _ _) fun _ => .bind fills_malloc fun _ => ?_
  refine .bind (fills_foldlM (fills_aesTable name) _ _) fun _ => .bind fills_malloc fun _ => ?_
  refine .bind (fills_foldlM (fills_aegTable name) _ _) fun _ => .bind fills_malloc fun _ => ?_
  refine .bind (fills_aeWeightTable name _) fun _ => .bind fills_malloc fun _ => ?_
  refine .bind (fills_tuneInfoTable name _) fun _ => .bind fills_malloc fun _ => ?_
  refine .bind (fills_awbMapTable name _) fun _ => .bind (fills_fixInfoFields name _) fun _ => ?_
  exact fills_pure (by simp)

/-- The fix structure itself is not freed. -/
theorem tracks_setFixInfo {st : UpdateStatus} {fix a : Addr}
    (h : { st with fixInfoTableAddr := fix }.Tracks a) : st.Tracks a := by
  cases h <;> constructor

/-- **A load**: it ends with a fix structure whose tables are new, or with something that can be
recovered. -/
theorem load_triple (b : BuiltIn) (name text : Text) :
    Triple (fun w => w.Recoverable ∧ w.fixPtr = builtInFix) (load b name text)
      (fun r w => w.Loading b r.2 []) RawPara.Recoverable := by
  -- the new structure begins as a copy of the built-in one, whose tables are not blocks
  have hstart : Triple (fun w => w.Recoverable ∧ w.fixPtr = builtInFix) mallocOrFail
      (fun a w => (w.Recoverable ∧ w.fixPtr = builtInFix) ∧ ∃ k, a = .block k)
      RawPara.Recoverable := by
    rintro w ⟨h, hfix⟩
    rcases mallocOrFail_cases w with ⟨ms, hw⟩ | ⟨ms, hw⟩ <;> rw [hw]
    · exact h.setMallocs ms
    · exact ⟨⟨h.alloc ms, hfix⟩, _, rfl⟩
  unfold load
  refine .bind hstart fun fix => .of_imp ?_
  rintro ⟨k, rfl⟩
  refine .bind (Q := fun _ w => w.Recoverable ∧ w.fixPtr = builtInFix) (.modify ?_) fun _ => ?_
  · rintro w ⟨h, hfix⟩
    exact ⟨⟨⟨h.base.freed_lt, fun k hk => h.base.tracks_lt k (tracks_setFixInfo hk)⟩,
      h.tuneOrg, h.fixOrg⟩, hfix⟩
  refine .bind (.get (Q := fun w₀ w => (w.Recoverable ∧ w₀.fixPtr = builtInFix)) ?_) fun w₀ => ?_
  · exact fun w h => h
  refine .of_imp fun hfix => .bind (Q := fun _ w => w.Loading b (.block k) []) (.modify ?_) fun _ => ?_
  · intro w h
    refine ⟨⟨⟨h.base.freed_lt, h.base.tracks_lt⟩, h.tuneOrg, h.fixOrg⟩, by simp, by simp, ?_⟩
    intro a ha j hj
    rw [hfix] at ha
    simp only [RawPara.fixAt, builtInFix, Function.update_self] at ha
    exact absurd hj (b.static a ha j)
  · exact .bind (fills_loadTables name text) fun tune => .pure fun w h => h

/-! ## Calls one after the other -/

/-- The built-in structures are installed, and recovering keeps them. -/
structure RawPara.Ready (w : RawPara) : Prop where
  base : w.Base
  builtIn : w.IsBuiltIn
  tuneOrg : w.status.tuneInfoTableOrgAddr = .null ∨ w.status.tuneInfoTableOrgAddr = builtInTune
  fixOrg : w.status.fixInfoTableOrgAddr = .null ∨ w.status.fixInfoTableOrgAddr = builtInFix

section Calls

variable {b : BuiltIn} {name : Text} {w : RawPara} {log : List Outcome}

theorem recover_base (h : w.Base) : w.ispRawParaRecover.Base where
  freed_lt k hk := by
    rw [recover_blocks]
    exact (mem_recover_freed w hk).elim (h.freed_lt k) (h.tracks_lt k)
  tracks_lt k hk := nomatch recover_tracks w hk

theorem RawPara.Recoverable.recover (h : w.Recoverable) : w.ispRawParaRecover.Ready where
  base := recover_base h.base
  builtIn := by
    refine ⟨?_, ?_⟩
    · rw [recover_tunePtr, h.tuneOrg]
      rfl
    · rw [recover_fixPtr, h.fixOrg]
      rfl
  tuneOrg := Or.inl rfl
  fixOrg := Or.inl rfl

theorem RawPara.Ready.recover (h : w.Ready) : w.ispRawParaRecover.Ready where
  base := recover_base h.base
  builtIn := by
    refine ⟨?_, ?_⟩
    · rw [recover_tunePtr]
      rcases h.tuneOrg with horg | horg
      · rw [horg]
        exact h.builtIn.1
      · rw [horg]
        rfl
    · rw [recover_fixPtr]
      rcases h.fixOrg with horg | horg
      · rw [horg]
        exact h.builtIn.2
      · rw [horg]
        rfl
  tuneOrg := Or.inl rfl
  fixOrg := Or.inl rfl

/-- Between two calls: the built-in structures, or those of the last load. -/
def RawPara.Inv (b : BuiltIn) (w : RawPara) (log : List Outcome) : Prop :=
  w.Ready ∨ w.Loading b w.fixPtr [] ∧ lastLoaded log = some (w.tunePtr, w.fixPtr) ∧
    log.getLast? ≠ some .failed

theorem RawPara.Inv.paraOk (h : w.Inv b log) : ParaOk b w log := by
  rcases h with h | ⟨h, hlast, hfailed⟩
  · refine ⟨Or.inl h.builtIn, fun _ => h.builtIn, fun a ha k hk => ?_⟩
    rw [h.builtIn.2] at ha
    exact absurd hk (b.static a ha k)
  · exact ⟨Or.inr hlast, fun h => absurd h hfailed, h.live⟩

theorem RawPara.Inv.base (h : w.Inv b log) : w.Base :=
  h.elim (·.base) (·.1.recoverable.base)

theorem RawPara.Inv.recover (h : w.Inv b log) : w.ispRawParaRecover.Ready :=
  h.elim (·.recover) (·.1.recoverable.recover)

/-- A call that changes nothing. -/
theorem RawPara.Inv.same (h : w.Inv b log) {o : Outcome} (ho : o = .unchanged ∨ o = .refused) :
    w.Inv b (log ++ [o]) := by
  refine h.imp_right fun ⟨hload, hlast, _⟩ => ⟨hload, ?_, ?_⟩
  · rw [← hlast]
    rcases ho with rfl | rfl <;> simp [lastLoaded]
  · rcases ho with rfl | rfl <;> simp

/-- The original pointers are not freed. -/
theorem tracks_setOrg {st : UpdateStatus} {tune fix a : Addr} {time : Nat}
    (h : { st with
      tuneInfoTableOrgAddr := tune, fixInfoTableOrgAddr := fix, updataFileTime := time }.Tracks a) :
    st.Tracks a := by
  cases h <;> constructor

/-- A load that starts from the built-in structures keeps them in the record. -/
theorem RawPara.Base.start (h : w.Base) (hbuiltIn : w.IsBuiltIn) (time : Nat) (ms : List Bool) :
    { w with
      status := { w.status with
        tuneInfoTableOrgAddr := w.tunePtr, fixInfoTableOrgAddr := w.fixPtr, updataFileTime := time }
      mallocs := ms }.Recoverable :=
  ⟨⟨h.freed_lt, fun k hk => h.tracks_lt k (tracks_setOrg hk)⟩, hbuiltIn.1, hbuiltIn.2⟩

/-- **A load** from the file on. -/
theorem RawPara.Inv.loadFile {f : FileSeen} {w' : RawPara} {o : Outcome} (h : w.Inv b log)
    (htime : w.status.updataFileTime = 0 → w.IsBuiltIn)
    (hcall : w.loadFile b name f = some (w', o)) : w'.Inv b (log ++ [o]) := by
  -- whatever was loaded before has been recovered
  obtain ⟨w₁, hw₁⟩ : ∃ w₁, (if w.status.updataFileTime = 0 then w else w.ispRawParaRecover) = w₁ :=
    ⟨_, rfl⟩
  obtain ⟨hbase, hbuiltIn⟩ : w₁.Base ∧ w₁.IsBuiltIn := by
    rw [← hw₁]
    split
    · rename_i h0
      exact ⟨h.base, htime h0⟩
    · exact ⟨h.recover.base, h.recover.builtIn⟩
  have hstart := hbase.start hbuiltIn
  have hready : { w₁ with
      status :=
        { w₁.status with tuneInfoTableOrgAddr := w₁.tunePtr, fixInfoTableOrgAddr := w₁.fixPtr }
      mallocs := f.mallocs }.Ready :=
    ⟨(hstart w₁.status.updataFileTime f.mallocs).base, hbuiltIn, Or.inr hbuiltIn.1,
      Or.inr hbuiltIn.2⟩
  unfold RawPara.loadFile at hcall
  simp only [hw₁] at hcall
  split at hcall
  · cases hcall
    exact Or.inl hready
  split at hcall
  · cases hcall
    exact Or.inl hready
  split at hcall
  · cases hcall
    exact Or.inl hready.recover
  -- the load itself
  have hload := load_triple b name f.text _ ⟨hstart f.mtime f.mallocs, hbuiltIn.2⟩
  split at hcall
  · rename_i tune fix w₂ heq
    cases hcall
    rw [heq] at hload
    refine Or.inr ⟨⟨⟨⟨hload.recoverable.base.freed_lt, hload.recoverable.base.tracks_lt⟩,
      hload.recoverable.tuneOrg, hload.recoverable.fixOrg⟩, by simp, by simp, ?_⟩, ?_, by simp⟩
    · have hlive := hload.live
      cases fix <;> exact hlive
    · simp [lastLoaded]
  · rename_i w₂ heq
    cases hcall
    rw [heq] at hload
    exact Or.inl hload.recover
  · exact nomatch hcall

/-- **A call.** -/
theorem RawPara.Inv.call {i : Option FileSeen} (h : w.Inv b log)
    (hok : Loadable b name (some w) i) :
    ∃ w' o, w.ispRawParaUpdateFromFile b name i = some (w', o) ∧ w'.Inv b (log ++ [o]) := by
  cases i with
  | none => exact ⟨_, _, rfl, Or.inl h.recover⟩
  | some f =>
    cases hstat : f.statOk with
    | false =>
      refine ⟨w, .refused, ?_, h.same (Or.inr rfl)⟩
      simp only [RawPara.ispRawParaUpdateFromFile, hstat, if_true]
    | true =>
      obtain ⟨htime, hsome⟩ := hok w f rfl rfl hstat
      obtain ⟨⟨w', o⟩, hcall⟩ := Option.ne_none_iff_exists'.mp hsome
      refine ⟨w', o, hcall, ?_⟩
      unfold RawPara.ispRawParaUpdateFromFile at hcall
      simp only [hstat, Bool.true_eq_false, if_false] at hcall
      split at hcall
      · cases hcall
        exact h.same (Or.inl rfl)
      · exact h.loadFile htime hcall

end Calls

theorem RawPara.init_inv (b : BuiltIn) (fixInfos : Nat → FixInfo) :
    (RawPara.init fixInfos).Inv b [] := by
  refine Or.inl ⟨⟨fun k hk => (nomatch hk), fun k hk => ?_⟩, ⟨rfl, rfl⟩, Or.inl rfl, Or.inl rfl⟩
  have hnull : ∀ a, (RawPara.init fixInfos).status.Tracks a → a = .null := by
    intro a ha
    cases ha <;> rfl
  exact nomatch hnull _ hk

/-- **Updates are atomic** in a run in which no call takes what was loaded from a file with time 0
for the built-in structures and no scan leaves its buffer: for every sequence of calls, files and
failures. -/
theorem para_update_run (b : BuiltIn) (name : Text) (fixInfos : Nat → FixInfo)
    (calls : List (Option FileSeen))
    (hok : (paraUpdate b name).Admits (Loadable b name) (some (.init fixInfos)) calls) :
    ∃ w, ((paraUpdate b name).run (some (.init fixInfos)) calls).1 = some w ∧
      ParaOk b w ((paraUpdate b name).run (some (.init fixInfos)) calls).2 := by
  have hstep : ∀ s log i, (∃ w, s = some w ∧ RawPara.Inv b w log) → Loadable b name s i →
      ∃ w, ((paraUpdate b name).step s i).1 = some w ∧
        RawPara.Inv b w (log ++ ((paraUpdate b name).step s i).2) := by
    rintro s log i ⟨w, rfl, hinv⟩ hload
    obtain ⟨w', o, hcall, hinv'⟩ := hinv.call hload
    have hstep : (paraUpdate b name).step (some w) i = (some w', [o]) := by
      simp only [paraUpdate, Option.bind_some, hcall]
    rw [hstep]
    exact ⟨w', rfl, hinv'⟩
  obtain ⟨w, hw, hinv⟩ := (paraUpdate b name).run_induction hstep calls _ []
    ⟨_, rfl, RawPara.init_inv b fixInfos⟩ hok
  exact ⟨w, hw, hinv.paraOk⟩

/-! ### Two runs -/

/-- A file with every table that is required, and one lens table. -/
def sampleText : Text :=
  ascii "s_x_aes_00\x7b1 2\x7ds_x_aes_10\x7b1 2\x7ds_x_aes_01\x7b1 2\x7ds_x_aes_11\x7b1 2\x7d" ++
  ascii "s_x_aeg_00\x7b1 2\x7ds_x_aeg_10\x7b1 2\x7ds_x_aeg_01\x7b1 2\x7ds_x_aeg_11\x7b1 2\x7d" ++
  ascii "s_x_ae_weight_customer\x7b1 2\x7ds_x_tune_info\x7b1 2\x7ds_x_awb_map[3]   =\x7b1 2 3\x7d;s_x_fix_info" ++
  (List.replicate 4 (ascii "s_x_aeg_00, 1 1 1 1 1 1 1 1 1 1 1 1 ")).flatten ++
  (List.replicate 72 (ascii "0x1    ")).flatten ++
  ascii "s_x_awb_map, 1\x7ds_x_lnc_00\x7b1 2\x7d"

/-- A built-in structure without tables. -/
def sampleBuiltIn : BuiltIn where
  fix := ⟨.null, fun _ => .null, fun _ => .null, fun _ _ => .null, .null⟩
  static a ha := by
    intro k
    cases ha <;> exact fun h => nomatch h

def sampleFile (mtime : Nat) (text : Text) : FileSeen := ⟨true, mtime, true, true, true, [], text⟩

/-- The machine of a sensor with the name `x`. -/
def sampleUpdate := paraUpdate sampleBuiltIn (ascii "x")

def sampleInit : RawPara := .init fun _ => sampleBuiltIn.fix

/-- The two loads of the text, the second with a call after it. -/
theorem sample_loads :
    let r := sampleUpdate.run (some sampleInit) [some (sampleFile 0 sampleText), some (sampleFile 5 [])]
    (sampleInit.ispRawParaUpdateFromFile sampleBuiltIn (ascii "x")
      (some (sampleFile 7 sampleText))).isSome ∧
    (r.2, r.1.map fun w => ((w.tunePtr, w.fixPtr, (w.fixAt sampleBuiltIn w.fixPtr).ePtr 0),
      w.freed.contains 16 && w.freed.contains 4)) =
      ([.loaded (.block 16) (.block 0), .failed],
        some ((.block 16, .block 0, .block 4), true)) := by
  decide +kernel

/-- The file is loaded, and then it vanishes. -/
theorem para_update_run_sample :
    sampleUpdate.Admits (Loadable sampleBuiltIn (ascii "x")) (some sampleInit)
        [some (sampleFile 7 sampleText), none] ∧
      ∃ w, (sampleUpdate.run (some sampleInit) [some (sampleFile 7 sampleText), none]).1 = some w ∧
        ParaOk sampleBuiltIn w
          (sampleUpdate.run (some sampleInit) [some (sampleFile 7 sampleText), none]).2 := by
  have hok : sampleUpdate.Admits (Loadable sampleBuiltIn (ascii "x")) (some sampleInit)
      [some (sampleFile 7 sampleText), none] := by
    refine ⟨fun w f hw hf _ => ⟨fun _ => ?_, ?_⟩, fun w f _ hf => (nomatch hf), trivial⟩
    · cases hw
      exact ⟨rfl, rfl⟩
    · cases hw
      apply Option.isSome_iff_ne_none.mp
      exact sample_loads.1
  exact ⟨hok, para_update_run sampleBuiltIn (ascii "x") _ _ hok⟩

/-- The file has the time 0. The next call takes what it has loaded for the built-in structures, and
finds a file without tables: what it goes back to is what it has just freed. -/
theorem para_update_not_ok :
    let r := sampleUpdate.run (some sampleInit) [some (sampleFile 0 sampleText), some (sampleFile 5 [])]
    r.2 = [.loaded (.block 16) (.block 0), .failed] ∧
    r.1.map (fun w => (w.tunePtr, w.fixPtr, (w.fixAt sampleBuiltIn w.fixPtr).ePtr 0)) =
      some (.block 16, .block 0, .block 4) ∧
    r.1.map (fun w => w.freed.contains 16 && w.freed.contains 4) = some true ∧
    ¬∃ w, r.1 = some w ∧ ParaOk sampleBuiltIn w r.2 := by
  intro r
  have hrun : (r.2, r.1.map fun w => ((w.tunePtr, w.fixPtr, (w.fixAt sampleBuiltIn w.fixPtr).ePtr 0),
      w.freed.contains 16 && w.freed.contains 4)) =
      ([.loaded (.block 16) (.block 0), .failed],
        some ((.block 16, .block 0, .block 4), true)) :=
    sample_loads.2
  obtain ⟨hlog, hstate⟩ := Prod.mk.inj hrun
  obtain ⟨w, hw, hptrs⟩ := Option.map_eq_some_iff.mp hstate
  obtain ⟨hptrs, hfreed⟩ := Prod.mk.inj hptrs
  rw [hw]
  refine ⟨hlog, congrArg some hptrs, congrArg some hfreed, ?_⟩
  rintro ⟨_, heq, hok⟩
  obtain rfl := Option.some.inj heq
  have htune := (hok.failed (by rw [hlog]; rfl)).1
  rw [(Prod.mk.inj hptrs).1] at htune
  exact nomatch htune

-- a comment that is not closed
example : (sampleUpdate.run (some sampleInit) [some (sampleFile 5 (ascii "/*"))]).1.isNone := by
  decide

end SprdHal.Isp
