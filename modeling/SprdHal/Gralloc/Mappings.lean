import Mathlib.Data.Multiset.AddSub
import Mathlib.Data.Multiset.Filter
import SprdHal.Gralloc.Alloc
import SprdHal.Lib.Keyed
import SprdHal.Lib.Machine

/-!
# The memory of a buffer (`alloc_device.cpp`, `gralloc_module.cpp`)

A buffer outside the framebuffer is memory of the ION driver: the process that allocates it holds an
ION handle, a descriptor and a mapping, another process receives the descriptor and maps it with
`gralloc_register_buffer`. A handle says in `pid` and `base` whether the process has mapped it.

An allocation that fails gives everything back. But `gralloc_register_buffer` maps a buffer that is
mapped already once more, and it sets `pid` before it maps: after a failure the address of the other
process in `base` passes for one of this process.
-/

namespace SprdHal.Gralloc

open SprdHal.Lib

/-- A `private_handle_t` with `PRIV_FLAGS_USES_ION`. The ION handle means something in the process
only that allocated the buffer. -/
structure Handle where
  key : Nat
  size : UInt32
  base : UInt32
  pid : Nat
  shareFd : Nat
  ionHnd : Option Nat
deriving DecidableEq

/-- The handles of a process, and the mappings, descriptors and ION handles it holds for them. -/
structure Process where
  handles : List Handle
  maps : Multiset (UInt32 × UInt32)
  fds : Multiset Nat
  ions : Multiset Nat

def Process.start : Process := ⟨[], 0, 0, 0⟩

inductive ProcessEvent
  /-- `alloc_device_alloc` of a buffer, with what `ion_alloc`, `ion_share` and `mmap` return -/
  | alloc (key : Nat) (size : UInt32) (ionHnd sharedFd : Option Nat) (cpuPtr : Option UInt32)
  /-- `alloc_device_free` -/
  | free (key : Nat)
  /-- a handle comes from another process, with a descriptor of its own -/
  | receive (key : Nat) (size base : UInt32) (pid shareFd : Nat)
  /-- the descriptor of such a handle is closed and the handle deleted -/
  | drop (key : Nat)
  /-- `gralloc_register_buffer`, with the address or `errno` -/
  | register (key : Nat) (mappedAddress : Except Int32 UInt32)
  /-- `gralloc_unregister_buffer` -/
  | unregister (key : Nat)

namespace Process

variable (p : Process)

def find (key : Nat) : Option Handle := Keyed.find Handle.key p.handles key

def change (key : Nat) (f : Handle → Handle) : Process :=
  { p with handles := Keyed.modify Handle.key f p.handles key }

def delete (key : Nat) : Process :=
  { p with handles := Keyed.others Handle.key p.handles key }

def mmap (base size : UInt32) : Process := { p with maps := (base, size) ::ₘ p.maps }

def munmap (base size : UInt32) : Process := { p with maps := p.maps.erase (base, size) }

def close (fd : Nat) : Process := { p with fds := p.fds.erase fd }

def ionFree (ionHnd : Nat) : Process := { p with ions := p.ions.erase ionHnd }

/-- `gralloc_alloc_buffer` -/
def grallocAllocBuffer (pid key : Nat) (size : UInt32) (ionHnd sharedFd : Option Nat)
    (cpuPtr : Option UInt32) : Process × Int32 :=
  match ionHnd with
  | none => (p, -1)
  | some ion =>
    let p := { p with ions := ion ::ₘ p.ions }
    match sharedFd with
    | none => (p.ionFree ion, -1)
    | some fd =>
      let p := { p with fds := fd ::ₘ p.fds }
      match cpuPtr with
      | none => ((p.ionFree ion).close fd, -1)
      | some ptr =>
        let p := p.mmap ptr size
        ({ p with handles := ⟨key, size, ptr, pid, fd, some ion⟩ :: p.handles }, 0)

/-- `alloc_device_free` -/
def allocDeviceFree (key : Nat) : Process × Int32 :=
  match p.find key with
  | none => (p, -einval)
  | some hnd =>
    let unmapped := if hnd.base ≠ 0 then p.munmap hnd.base hnd.size else p
    let closed := unmapped.close hnd.shareFd
    let freed := match hnd.ionHnd with
      | some ion => closed.ionFree ion
      | none => closed
    (freed.delete key, 0)

def receive (key : Nat) (size base : UInt32) (pid shareFd : Nat) : Process :=
  { p with
    handles := ⟨key, size, base, pid, shareFd, none⟩ :: p.handles
    fds := shareFd ::ₘ p.fds }

def drop (key : Nat) : Process :=
  match p.find key with
  | none => p
  | some hnd => (p.close hnd.shareFd).delete key

/-- `gralloc_register_buffer` -/
def grallocRegisterBuffer (pid key : Nat) (mappedAddress : Except Int32 UInt32) : Process × Int32 :=
  match p.find key with
  | none => (p, -einval)
  | some hnd =>
    match mappedAddress with
    | .error errno => (p.change key fun h => { h with pid }, -errno)
    | .ok base => ((p.mmap base hnd.size).change key fun h => { h with pid, base }, 0)

/-- `gralloc_unregister_buffer` -/
def grallocUnregisterBuffer (pid key : Nat) : Process × Int32 :=
  match p.find key with
  | none => (p, -einval)
  | some hnd =>
    if hnd.pid = pid then
      ((p.munmap hnd.base hnd.size).change key fun h => { h with base := 0 }, 0)
    else (p, 0)

end Process

/-- The process `pid`, call by call. -/
def process (pid : Nat) : Machine Process ProcessEvent Int32 where
  step p
    | .alloc key size ionHnd sharedFd cpuPtr =>
      let r := p.grallocAllocBuffer pid key size ionHnd sharedFd cpuPtr
      (r.1, [r.2])
    | .free key => ((p.allocDeviceFree key).1, [(p.allocDeviceFree key).2])
    | .receive key size base pid' shareFd => (p.receive key size base pid' shareFd, [])
    | .drop key => (p.drop key, [])
    | .register key mappedAddress =>
      let r := p.grallocRegisterBuffer pid key mappedAddress
      (r.1, [r.2])
    | .unregister key =>
      let r := p.grallocUnregisterBuffer pid key
      (r.1, [r.2])

/-! ## What the process holds -/

section Books

variable (pid : Nat) (p : Process)

/-- What the handle says about the process having mapped it. -/
def Handle.Mapped (hnd : Handle) : Prop := hnd.pid = pid ∧ hnd.base ≠ 0

instance (hnd : Handle) : Decidable (hnd.Mapped pid) :=
  inferInstanceAs (Decidable (_ ∧ _))

/-- The memory of the handles that are mapped. -/
def regions (handles : Multiset Handle) : Multiset (UInt32 × UInt32) :=
  (handles.filter fun hnd => hnd.Mapped pid).map fun hnd => (hnd.base, hnd.size)

/-- The mappings of the process are those of its handles. -/
def MapsOk : Prop := p.maps = regions pid p.handles

/-- Each handle has a key of its own and a descriptor, and each handle of this process an ION
handle. -/
structure BooksOk : Prop where
  keys : (p.handles.map Handle.key).Nodup
  own : ∀ hnd ∈ p.handles, hnd.ionHnd.isSome → hnd.pid = pid
  fds : p.fds = (p.handles : Multiset Handle).map Handle.shareFd
  ions : p.ions = (p.handles : Multiset Handle).filterMap Handle.ionHnd

/-- A new handle is not where another one is, nothing is mapped at 0, a handle comes from another
process, and only a handle of this process is freed and only one of another is deleted. -/
def LegalEvent : ProcessEvent → Prop
  | .alloc key _ _ _ cpuPtr => (∀ hnd ∈ p.handles, hnd.key ≠ key) ∧ cpuPtr ≠ some 0
  | .free key => ∀ hnd ∈ p.handles, hnd.key = key → hnd.ionHnd.isSome
  | .receive key _ _ pid' _ => (∀ hnd ∈ p.handles, hnd.key ≠ key) ∧ pid' ≠ pid
  | .drop key => ∀ hnd ∈ p.handles, hnd.key = key → hnd.ionHnd = none
  | .register _ (.ok base) => base ≠ 0
  | .register _ (.error _) | .unregister _ => True

/-- A buffer is not mapped twice and not deleted while it is mapped, and mapping a buffer that holds
the address of another process does not fail. -/
def KeepsMaps : ProcessEvent → Prop
  | .register key (.ok _) | .drop key => ∀ hnd ∈ p.handles, hnd.key = key → ¬hnd.Mapped pid
  | .register key (.error _) => ∀ hnd ∈ p.handles, hnd.key = key → hnd.pid = pid ∨ hnd.base = 0
  | _ => True

end Books

/-! ## One call -/

variable {pid key : Nat} {p : Process} {hnd : Handle}

theorem regions_cons_of_mapped (hnd : Handle) (hs : Multiset Handle) (hmapped : hnd.Mapped pid) :
    regions pid (hnd ::ₘ hs) = (hnd.base, hnd.size) ::ₘ regions pid hs := by
  rw [regions, Multiset.filter_cons_of_pos _ hmapped, Multiset.map_cons, regions]

theorem regions_cons_of_not (hnd : Handle) (hs : Multiset Handle) (hmapped : ¬hnd.Mapped pid) :
    regions pid (hnd ::ₘ hs) = regions pid hs := by
  rw [regions, Multiset.filter_cons_of_neg _ hmapped, regions]

/-- Nothing is mapped at 0. -/
theorem notMem_regions (hs : Multiset Handle) (size : UInt32) : (0, size) ∉ regions pid hs := by
  intro hmem
  obtain ⟨hnd, hhnd, heq⟩ := Multiset.mem_map.mp hmem
  exact (Multiset.mem_filter.mp hhnd).2.2 (congrArg Prod.fst heq)

theorem Process.allocDeviceFree_eq (hfind : p.find key = some hnd) :
    (p.allocDeviceFree key).1 =
      ⟨Keyed.others Handle.key p.handles key,
        if hnd.base ≠ 0 then p.maps.erase (hnd.base, hnd.size) else p.maps,
        p.fds.erase hnd.shareFd,
        match hnd.ionHnd with
        | some ion => p.ions.erase ion
        | none => p.ions⟩ := by
  rw [allocDeviceFree, hfind]
  dsimp only
  by_cases hbase : hnd.base = 0
  · rw [if_neg (not_not.mpr hbase), if_neg (not_not.mpr hbase)]
    cases hnd.ionHnd
    all_goals rfl
  · rw [if_pos hbase, if_pos hbase]
    cases hnd.ionHnd
    all_goals rfl

/-- The handles other than one. -/
def Process.rest (p : Process) (key : Nat) : Multiset Handle := Keyed.others Handle.key p.handles key

namespace BooksOk

theorem find_none (h : BooksOk pid p) (hfind : p.find key = none) : ∀ hnd ∈ p.handles,
    hnd.key ≠ key := by
  rintro hnd hhnd rfl
  rw [Process.find, Keyed.find_eq h.keys hhnd] at hfind
  cases hfind

theorem eq_of_key (h : BooksOk pid p) (hfind : p.find key = some hnd) {other : Handle}
    (hother : other ∈ p.handles) (hkey : other.key = key) : other = hnd := by
  obtain ⟨hhnd, rfl⟩ := Keyed.find_some hfind
  exact List.inj_on_of_nodup_map h.keys hother hhnd hkey

/-- The handles are one and the rest. -/
theorem handles_eq (h : BooksOk pid p) (hfind : p.find key = some hnd) :
    (p.handles : Multiset Handle) = hnd ::ₘ p.rest key := by
  obtain ⟨hhnd, rfl⟩ := Keyed.find_some hfind
  exact Multiset.coe_eq_coe.mpr (Keyed.perm_cons h.keys hhnd)

/-- The handles with one changed. -/
theorem change_eq (h : BooksOk pid p) (hfind : p.find key = some hnd) (f : Handle → Handle) :
    (Keyed.modify Handle.key f p.handles key : Multiset Handle) = f hnd ::ₘ p.rest key := by
  obtain ⟨hhnd, rfl⟩ := Keyed.find_some hfind
  exact Multiset.coe_eq_coe.mpr (Keyed.modify_perm h.keys hhnd f)

/-- A new handle. -/
theorem add (h : BooksOk pid p) (hnd : Handle) (hnew : ∀ other ∈ p.handles, other.key ≠ hnd.key)
    (hown : hnd.ionHnd.isSome → hnd.pid = pid) (maps : Multiset (UInt32 × UInt32)) :
    BooksOk pid ⟨hnd :: p.handles, maps, hnd.shareFd ::ₘ p.fds,
      match hnd.ionHnd with
      | some ion => ion ::ₘ p.ions
      | none => p.ions⟩ where
  keys := by
    refine List.nodup_cons.mpr ⟨?_, h.keys⟩
    rw [List.mem_map]
    rintro ⟨other, hother, hkey⟩
    exact hnew other hother hkey
  own other hother := by
    rcases List.mem_cons.mp hother with rfl | hother
    · exact hown
    · exact h.own other hother
  fds := by
    rw [← Multiset.cons_coe, Multiset.map_cons, h.fds]
  ions := by
    rw [← Multiset.cons_coe]
    cases hion : hnd.ionHnd with
    | none => rw [Multiset.filterMap_cons_none _ _ hion, h.ions]
    | some ion => rw [Multiset.filterMap_cons_some _ _ _ hion, h.ions]

/-- A change that leaves the descriptor and the ION handle. -/
theorem change (h : BooksOk pid p) {f : Handle → Handle} (hkey : ∀ other, (f other).key = other.key)
    (hfd : ∀ other, (f other).shareFd = other.shareFd)
    (hion : ∀ other, (f other).ionHnd = other.ionHnd)
    (hpid : ∀ other, other.pid = pid → (f other).pid = pid) (maps : Multiset (UInt32 × UInt32)) :
    BooksOk pid ({ p with maps := maps }.change key f) where
  keys := by
    rw [Process.change, Keyed.map_modify hkey]
    exact h.keys
  own other hother := by
    obtain ⟨old, hold, rfl⟩ := List.mem_map.mp hother
    split
    · rw [hion]
      exact fun hsome => hpid old (h.own old hold hsome)
    · exact h.own old hold
  fds := by
    rw [Process.change, Multiset.map_coe, Keyed.map_modify hfd]
    exact h.fds
  ions := by
    have hsame : (Keyed.modify Handle.key f p.handles key).map Handle.ionHnd =
        p.handles.map Handle.ionHnd := Keyed.map_modify hion key
    have hmap := congrArg (List.filterMap id) hsame
    rw [List.filterMap_map, List.filterMap_map, Function.id_comp] at hmap
    rw [Process.change, Multiset.filterMap_coe, hmap]
    exact h.ions

/-- A handle that goes, with its descriptor and its ION handle. -/
theorem delete (h : BooksOk pid p) (hfind : p.find key = some hnd)
    (maps : Multiset (UInt32 × UInt32)) :
    BooksOk pid ⟨Keyed.others Handle.key p.handles key, maps, p.fds.erase hnd.shareFd,
      match hnd.ionHnd with
      | some ion => p.ions.erase ion
      | none => p.ions⟩ where
  keys := Keyed.others_nodup h.keys key
  own other hother := h.own other (List.mem_filter.mp hother).1
  fds := by
    have hfds := h.fds
    rw [h.handles_eq hfind, Multiset.map_cons] at hfds
    rw [hfds, Multiset.erase_cons_head]
    rfl
  ions := by
    have hions := h.ions
    rw [h.handles_eq hfind] at hions
    cases hion : hnd.ionHnd with
    | none =>
      rw [Multiset.filterMap_cons_none _ _ hion] at hions
      rw [hions]
      rfl
    | some ion =>
      rw [Multiset.filterMap_cons_some _ _ _ hion] at hions
      show p.ions.erase ion = _
      rw [hions, Multiset.erase_cons_head]
      rfl

theorem start : BooksOk pid .start :=
  ⟨List.nodup_nil, fun _ hhnd => absurd hhnd List.not_mem_nil, rfl, rfl⟩

/-- **Each call keeps the books.** -/
theorem step (h : BooksOk pid p) (e : ProcessEvent) (hlegal : LegalEvent pid p e) :
    BooksOk pid ((process pid).step p e).1 := by
  cases e with
  | alloc key size ionHnd sharedFd cpuPtr =>
    show BooksOk pid (p.grallocAllocBuffer pid key size ionHnd sharedFd cpuPtr).1
    unfold Process.grallocAllocBuffer
    cases ionHnd with
    | none => exact h
    | some ion =>
      cases sharedFd with
      | none => simpa only [Process.ionFree, Multiset.erase_cons_head] using h
      | some fd =>
        cases cpuPtr with
        | none =>
          simpa only [Process.ionFree, Process.close, Multiset.erase_cons_head] using h
        | some ptr =>
          exact h.add ⟨key, size, ptr, pid, fd, some ion⟩ hlegal.1 (fun _ => rfl) _
  | free key =>
    show BooksOk pid (p.allocDeviceFree key).1
    cases hfind : p.find key with
    | none =>
      rw [Process.allocDeviceFree, hfind]
      exact h
    | some hnd =>
      rw [Process.allocDeviceFree_eq hfind]
      exact h.delete hfind _
  | receive key size base pid' fd =>
    exact h.add ⟨key, size, base, pid', fd, none⟩ hlegal.1
      (fun hsome => absurd hsome Bool.false_ne_true) p.maps
  | drop key =>
    show BooksOk pid (p.drop key)
    unfold Process.drop
    cases hfind : p.find key with
    | none => exact h
    | some hnd =>
      obtain ⟨hhnd, hkey⟩ := Keyed.find_some hfind
      have hdelete := h.delete hfind p.maps
      rw [hlegal hnd hhnd hkey] at hdelete
      exact hdelete
  | register key mappedAddress =>
    show BooksOk pid (p.grallocRegisterBuffer pid key mappedAddress).1
    unfold Process.grallocRegisterBuffer
    cases hfind : p.find key with
    | none => exact h
    | some hnd =>
      cases mappedAddress with
      | error errno =>
        exact h.change (f := fun h => { h with pid }) (fun _ => rfl) (fun _ => rfl) (fun _ => rfl)
          (fun _ _ => rfl) p.maps
      | ok base =>
        exact h.change (f := fun h => { h with pid, base }) (fun _ => rfl) (fun _ => rfl)
          (fun _ => rfl) (fun _ _ => rfl) _
  | unregister key =>
    show BooksOk pid (p.grallocUnregisterBuffer pid key).1
    unfold Process.grallocUnregisterBuffer
    cases hfind : p.find key with
    | none => exact h
    | some hnd =>
      dsimp only
      split
      · exact h.change (f := fun h => { h with base := 0 }) (fun _ => rfl) (fun _ => rfl)
          (fun _ => rfl) (fun _ hpid => hpid) _
      · exact h

end BooksOk

/-! ## The mappings -/

section Maps

variable (h : BooksOk pid p) (hmaps : MapsOk pid p)

include h

/-- What holds of the handle of a key. -/
theorem forall_key_iff (hfind : p.find key = some hnd) {Q : Handle → Prop} :
    (∀ other ∈ p.handles, other.key = key → Q other) ↔ Q hnd := by
  obtain ⟨hhnd, hkey⟩ := Keyed.find_some hfind
  constructor
  · exact fun hall => hall hnd hhnd hkey
  · intro hQ other hother heq
    rwa [h.eq_of_key hfind hother heq]

theorem forall_key_of_none (hfind : p.find key = none) {Q : Handle → Prop} :
    ∀ other ∈ p.handles, other.key = key → Q other :=
  fun other hother heq => absurd heq (h.find_none hfind other hother)

include hmaps

theorem maps_eq (hfind : p.find key = some hnd) : p.maps = regions pid (hnd ::ₘ p.rest key) := by
  rw [← h.handles_eq hfind]
  exact hmaps

omit h in
theorem mapsOk_alloc (size : UInt32) (ionHnd sharedFd : Option Nat) {cpuPtr : Option UInt32}
    (hptr : cpuPtr ≠ some 0) :
    MapsOk pid (p.grallocAllocBuffer pid key size ionHnd sharedFd cpuPtr).1 := by
  unfold Process.grallocAllocBuffer
  cases ionHnd with
  | none => exact hmaps
  | some ion =>
    cases sharedFd with
    | none => exact hmaps
    | some fd =>
      cases cpuPtr with
      | none => exact hmaps
      | some ptr =>
        have hmapped : (⟨key, size, ptr, pid, fd, some ion⟩ : Handle).Mapped pid :=
          ⟨rfl, fun heq => hptr (congrArg some heq)⟩
        show (ptr, size) ::ₘ p.maps = regions pid (⟨key, size, ptr, pid, fd, some ion⟩ ::ₘ p.handles)
        rw [regions_cons_of_mapped _ _ hmapped, hmaps]

theorem mapsOk_free (hown : ∀ hnd ∈ p.handles, hnd.key = key → hnd.ionHnd.isSome) :
    MapsOk pid (p.allocDeviceFree key).1 := by
  cases hfind : p.find key with
  | none =>
    rw [Process.allocDeviceFree, hfind]
    exact hmaps
  | some hnd =>
    obtain ⟨hhnd, hkey⟩ := Keyed.find_some hfind
    have hpid := h.own hnd hhnd (hown hnd hhnd hkey)
    rw [Process.allocDeviceFree_eq hfind]
    show (if hnd.base ≠ 0 then p.maps.erase (hnd.base, hnd.size) else p.maps) =
      regions pid (p.rest key)
    rw [maps_eq h hmaps hfind]
    by_cases hbase : hnd.base = 0
    · rw [if_neg (not_not.mpr hbase), regions_cons_of_not _ _ fun hmapped => hmapped.2 hbase]
    · rw [if_pos hbase, regions_cons_of_mapped _ _ ⟨hpid, hbase⟩, Multiset.erase_cons_head]

/-- A handle that is deleted while it is mapped leaves its mapping behind. -/
theorem mapsOk_drop : MapsOk pid (p.drop key) ↔
    ∀ hnd ∈ p.handles, hnd.key = key → ¬hnd.Mapped pid := by
  unfold Process.drop
  cases hfind : p.find key with
  | none => exact iff_of_true hmaps (forall_key_of_none h hfind)
  | some hnd =>
    rw [forall_key_iff h hfind]
    show p.maps = regions pid (p.rest key) ↔ _
    rw [maps_eq h hmaps hfind]
    by_cases hmapped : hnd.Mapped pid
    · rw [regions_cons_of_mapped _ _ hmapped]
      exact iff_of_false (Multiset.lt_cons_self ..).ne' (not_not.mpr hmapped)
    · rw [regions_cons_of_not _ _ hmapped]
      exact iff_of_true rfl hmapped

/-- A second mapping leaves the first one behind. -/
theorem mapsOk_register {base : UInt32} (hbase : base ≠ 0) :
    MapsOk pid (p.grallocRegisterBuffer pid key (.ok base)).1 ↔
      ∀ hnd ∈ p.handles, hnd.key = key → ¬hnd.Mapped pid := by
  unfold Process.grallocRegisterBuffer
  cases hfind : p.find key with
  | none => exact iff_of_true hmaps (forall_key_of_none h hfind)
  | some hnd =>
    have hnew : ({ hnd with pid, base } : Handle).Mapped pid := ⟨rfl, hbase⟩
    rw [forall_key_iff h hfind]
    show (base, hnd.size) ::ₘ p.maps =
      regions pid (Keyed.modify Handle.key _ p.handles key : List Handle) ↔ _
    rw [h.change_eq hfind, maps_eq h hmaps hfind, regions_cons_of_mapped _ _ hnew]
    by_cases hmapped : hnd.Mapped pid
    · rw [regions_cons_of_mapped _ _ hmapped, Multiset.cons_inj_right]
      exact iff_of_false (Multiset.lt_cons_self ..).ne' (not_not.mpr hmapped)
    · rw [regions_cons_of_not _ _ hmapped]
      exact iff_of_true rfl hmapped

/-- Where mapping fails, the address of the other process is taken for a mapping. -/
theorem mapsOk_register_error (errno : Int32) :
    MapsOk pid (p.grallocRegisterBuffer pid key (.error errno)).1 ↔
      ∀ hnd ∈ p.handles, hnd.key = key → hnd.pid = pid ∨ hnd.base = 0 := by
  unfold Process.grallocRegisterBuffer
  cases hfind : p.find key with
  | none => exact iff_of_true hmaps (forall_key_of_none h hfind)
  | some hnd =>
    rw [forall_key_iff h hfind]
    show p.maps = regions pid (Keyed.modify Handle.key _ p.handles key : List Handle) ↔ _
    rw [h.change_eq hfind, maps_eq h hmaps hfind]
    by_cases hbase : hnd.base = 0
    · have hnew : ¬({ hnd with pid } : Handle).Mapped pid := fun hmapped => hmapped.2 hbase
      rw [regions_cons_of_not _ _ fun hmapped => hmapped.2 hbase, regions_cons_of_not _ _ hnew]
      exact iff_of_true rfl (.inr hbase)
    · have hnew : ({ hnd with pid } : Handle).Mapped pid := ⟨rfl, hbase⟩
      rw [regions_cons_of_mapped _ _ hnew]
      by_cases hpid : hnd.pid = pid
      · rw [regions_cons_of_mapped _ _ ⟨hpid, hbase⟩]
        exact iff_of_true rfl (.inl hpid)
      · rw [regions_cons_of_not _ _ fun hmapped => hpid hmapped.1]
        exact iff_of_false (Multiset.lt_cons_self ..).ne (not_or.mpr ⟨hpid, hbase⟩)

theorem mapsOk_unregister : MapsOk pid (p.grallocUnregisterBuffer pid key).1 := by
  unfold Process.grallocUnregisterBuffer
  cases hfind : p.find key with
  | none => exact hmaps
  | some hnd =>
    dsimp only
    split
    · rename_i hpid
      have hnew : ¬({ hnd with base := 0 } : Handle).Mapped pid := fun hmapped => hmapped.2 rfl
      show p.maps.erase (hnd.base, hnd.size) =
        regions pid (Keyed.modify Handle.key _ p.handles key : List Handle)
      rw [h.change_eq hfind, maps_eq h hmaps hfind, regions_cons_of_not _ _ hnew]
      by_cases hbase : hnd.base = 0
      · rw [regions_cons_of_not _ _ fun hmapped => hmapped.2 hbase, hbase,
          Multiset.erase_of_notMem (notMem_regions _ _)]
      · rw [regions_cons_of_mapped _ _ ⟨hpid, hbase⟩, Multiset.erase_cons_head]
    · exact hmaps

/-- After a call the mappings are those of the handles exactly if the call keeps them so. -/
theorem mapsOk_step (e : ProcessEvent) (hlegal : LegalEvent pid p e) :
    MapsOk pid ((process pid).step p e).1 ↔ KeepsMaps pid p e := by
  cases e with
  | alloc key size ionHnd sharedFd cpuPtr =>
    exact iff_of_true (mapsOk_alloc hmaps size ionHnd sharedFd hlegal.2) trivial
  | free key => exact iff_of_true (mapsOk_free h hmaps hlegal) trivial
  | receive key size base pid' fd =>
    refine iff_of_true ?_ trivial
    show p.maps = regions pid (⟨key, size, base, pid', fd, none⟩ ::ₘ p.handles)
    rw [regions_cons_of_not _ _ fun hmapped => hlegal.2 hmapped.1, hmaps]
  | drop key => exact mapsOk_drop h hmaps
  | register key mappedAddress =>
    cases mappedAddress with
    | error errno => exact mapsOk_register_error h hmaps errno
    | ok base => exact mapsOk_register h hmaps hlegal
  | unregister key => exact iff_of_true (mapsOk_unregister h hmaps) trivial

end Maps

/-! ## Whole runs -/

instance (pid : Nat) (p : Process) : ∀ e, Decidable (LegalEvent pid p e)
  | .alloc key _ _ _ cpuPtr => inferInstanceAs
      (Decidable ((∀ hnd ∈ p.handles, hnd.key ≠ key) ∧ cpuPtr ≠ some 0))
  | .free key => inferInstanceAs
      (Decidable (∀ hnd ∈ p.handles, hnd.key = key → hnd.ionHnd.isSome))
  | .receive key _ _ pid' _ => inferInstanceAs
      (Decidable ((∀ hnd ∈ p.handles, hnd.key ≠ key) ∧ pid' ≠ pid))
  | .drop key => inferInstanceAs
      (Decidable (∀ hnd ∈ p.handles, hnd.key = key → hnd.ionHnd = none))
  | .register _ (.ok base) => inferInstanceAs (Decidable (base ≠ 0))
  | .register _ (.error _) | .unregister _ => isTrue trivial

instance (pid : Nat) (p : Process) : ∀ e, Decidable (KeepsMaps pid p e)
  | .register key (.ok _) | .drop key => inferInstanceAs
      (Decidable (∀ hnd ∈ p.handles, hnd.key = key → ¬hnd.Mapped pid))
  | .register key (.error _) => inferInstanceAs
      (Decidable (∀ hnd ∈ p.handles, hnd.key = key → hnd.pid = pid ∨ hnd.base = 0))
  | .alloc .. | .free _ | .receive .. | .unregister _ => isTrue trivial

/-- A buffer is allocated and one is received, mapped and unmapped; an allocation fails at `mmap`. -/
def twoBuffers : List ProcessEvent :=
  [.alloc 1 64 (some 5) (some 8) (some 0x1000), .receive 2 128 0x7000 3 9,
    .register 2 (.ok 0x2000), .alloc 4 64 (some 6) (some 10) none, .unregister 2, .drop 2, .free 1]

end SprdHal.Gralloc
