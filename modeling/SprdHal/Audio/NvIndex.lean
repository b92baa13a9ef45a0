import SprdHal.Audio.NvStep

/-!
# The elements that a file sets

A file of written lines sets the elements that it names if the arrays are complete and in order. In
general it does not: a value goes to the element to which the running index of all modes and
applications has come (`lines_set_elements_iff`).
-/

namespace SprdHal.Audio

open SprdHal.Lib

/-- What a line is for. -/
abbrev LineName := ModeItem × Field

/-- The file with the lines of these names and values. -/
def fileOf (ns : List LineName) (v : LineName → Nat) : Text :=
  (ns.map fun x => nvline x.1 x.2 (v x)).flatten

def NvMem.set (mem : NvMem) (w : (Int × Field) × Nat) : NvMem :=
  fun i f => if (i, f) = w.1 then w.2 else mem i f

/-- The parameter array after a sequence of stores. -/
def NvMem.after (mem : NvMem) (ws : List ((Int × Field) × Nat)) : NvMem := ws.foldl NvMem.set mem

/-- The parameter array after a file is read. -/
def nvAfter (t : ModeTable) (mem : NvMem) (text : Text) : NvMem :=
  mem.after (writes ((stringfile2nvstruct t text).flatMap LineLog.events))

/-- The array elements that are named hold the values of their lines, and all that is not named is
what it was. -/
structure SetsNamed (t : ModeTable) (ns : List LineName) (v : LineName → Nat) (mem : NvMem) :
    Prop where
  named : ∀ x ∈ ns, x.2.counter ≠ none → nvAfter t mem (fileOf ns v) x.1.index x.2 = v x
  others : ∀ i f, (∀ x ∈ ns, ((x.1.index : Int), x.2) ≠ (i, f)) →
    nvAfter t mem (fileOf ns v) i f = mem i f

/-- The index in the line of an array element is the number of lines before it that are for elements
of the same kind, whatever their mode or application, up to whole arrays. -/
def Counted (ns : List LineName) : Prop :=
  ∀ pre x post, ns = pre ++ x :: post → ∀ c ∈ x.2.counter,
    x.2.element = (pre.countP fun y => y.2.counter = some c) % c.size

/-! ## Stores -/

/-- Stores to one place that all agree. -/
theorem after_of_agree {ws : List ((Int × Field) × Nat)} {mem : NvMem} {i : Int} {f : Field} {a : Nat}
    (hagree : ∀ w ∈ ws, w.1 = (i, f) → w.2 = a)
    (hsome : (∃ w ∈ ws, w.1 = (i, f)) ∨ mem i f = a) : mem.after ws i f = a := by
  induction ws generalizing mem with
  | nil =>
    rcases hsome with ⟨w, hw, -⟩ | h
    · exact absurd hw List.not_mem_nil
    · exact h
  | cons w ws ih =>
    obtain ⟨hw, hws⟩ := List.forall_mem_cons.1 hagree
    refine ih hws ?_
    by_cases hplace : w.1 = (i, f)
    · right
      show (if (i, f) = w.1 then w.2 else mem i f) = a
      rw [if_pos hplace.symm, hw hplace]
    · rcases hsome with ⟨w', hw', hplace'⟩ | h
      · rcases List.mem_cons.1 hw' with rfl | hw'
        · exact absurd hplace' hplace
        · exact .inl ⟨w', hw', hplace'⟩
      · right
        show (if (i, f) = w.1 then w.2 else mem i f) = a
        rw [if_neg (Ne.symm hplace), h]

/-! ## The running indices -/

/-- The running indices behind lines. -/
def bumps (index : Counter → Nat) (ns : List LineName) : Counter → Nat :=
  ns.foldl (fun index x => bump index x.2.counter) index

/-- An index that is set back to 0 at the end counts up to whole arrays. -/
theorem wrap_eq_mod {n k : Nat} (hn : 0 < n) :
    (if k % n + 1 = n then 0 else k % n + 1) = (k + 1) % n := by
  have hlt := Nat.mod_lt k hn
  rw [← Nat.mod_add_mod k n 1]
  split
  · next h => rw [h, Nat.mod_self]
  · next h => exact (Nat.mod_eq_of_lt (by omega)).symm

theorem size_pos (c : Counter) : 0 < c.size := by cases c <;> decide

theorem bumps_eq_count {index : Counter → Nat} {n : Counter → Nat}
    (h : ∀ c, index c = n c % c.size) (ns : List LineName) (c : Counter) :
    bumps index ns c = (n c + ns.countP fun y => y.2.counter = some c) % c.size := by
  induction ns generalizing index n with
  | nil => exact h c
  | cons x xs ih =>
    have hstep : ∀ d, bump index x.2.counter d =
        (n d + if x.2.counter = some d then 1 else 0) % d.size := by
      intro d
      cases hx : x.2.counter with
      | none => exact h d
      | some e =>
        show Function.update index e _ d = _
        rw [Function.update_apply]
        by_cases hd : d = e
        · subst hd
          rw [if_pos rfl, if_pos rfl, h, wrap_eq_mod (size_pos d)]
        · have hne : ¬ some e = some d := fun heq => hd (Option.some.inj heq).symm
          rw [if_neg hd, if_neg hne]
          exact h d
    have hrest := ih hstep
    rw [List.countP_cons, Nat.add_comm (xs.countP _), ← Nat.add_assoc]
    simp only [decide_eq_true_eq]
    exact hrest

/-- **The running indices count the lines.** -/
theorem bumps_init (ns : List LineName) (c : Counter) :
    bumps Reader.init.index ns c = (ns.countP fun y => y.2.counter = some c) % c.size := by
  have hstart : ∀ d : Counter, Reader.init.index d = 0 % d.size := fun d => (Nat.zero_mod _).symm
  have h := bumps_eq_count hstart ns c
  rwa [Nat.zero_add] at h

theorem placed_eq_iff {f : Field} (hf : f.InRange) (index : Counter → Nat) :
    f.placed index = f ↔ ∀ c ∈ f.counter, f.element = index c := by
  have harray : ∀ (o : Option Counter) (k : Nat), k < o.elim 1 Counter.size →
      (o.elim 0 index = k ↔ ∀ c ∈ o, k = index c) := by
    intro o k hk
    cases o with
    | none =>
      have hzero : k = 0 := by
        have hone : k < 1 := hk
        omega
      simp [hzero]
    | some c => simp [eq_comm]
  cases f with
  | arm x k =>
    refine Iff.trans ?_ (harray x.counter k hf)
    exact ⟨fun h => (Field.arm.inj h).2, fun h => congrArg (Field.arm x) h⟩
  | app j x k =>
    refine Iff.trans ?_ (harray x.counter k hf.2)
    exact ⟨fun h => (Field.app.inj h).2.2, fun h => congrArg (Field.app j x) h⟩
  | extendArray k =>
    refine Iff.trans ?_ (harray (some .extendArray) k hf)
    exact ⟨fun h => Field.extendArray.inj h, fun h => congrArg Field.extendArray h⟩
  | _ => exact ⟨fun _ c hc => absurd hc (by simp [Field.counter]), fun _ => rfl⟩

/-! ## The whole file -/

/-- What the lines store, from given running indices on. -/
def placedWrites (v : LineName → Nat) :
    (Counter → Nat) → List LineName → List ((Int × Field) × Nat)
  | _, [] => []
  | index, x :: xs =>
    ((x.1.index, x.2.placed index), x.2.value (valueLine (x.2.ivalue (v x)))) ::
      placedWrites v (bump index x.2.counter) xs

theorem mem_placedWrites {v : LineName → Nat} {index : Counter → Nat} {ns : List LineName}
    {w : (Int × Field) × Nat} :
    w ∈ placedWrites v index ns ↔ ∃ pre x post, ns = pre ++ x :: post ∧
      w = ((x.1.index, x.2.placed (bumps index pre)), x.2.value (valueLine (x.2.ivalue (v x)))) := by
  induction ns generalizing index with
  | nil => simp [placedWrites]
  | cons y ys ih =>
    rw [placedWrites, List.mem_cons, ih]
    constructor
    · rintro (rfl | ⟨pre, x, post, rfl, rfl⟩)
      · exact ⟨[], y, ys, rfl, rfl⟩
      · exact ⟨y :: pre, x, post, rfl, rfl⟩
    · rintro ⟨pre, x, post, hns, rfl⟩
      cases pre with
      | nil =>
        obtain ⟨rfl, rfl⟩ := List.cons.inj hns
        exact .inl rfl
      | cons z pre =>
        obtain ⟨rfl, rfl⟩ := List.cons.inj hns
        exact .inr ⟨pre, x, post, rfl, rfl⟩

section File

variable {t : ModeTable} (ht : t.Plain) {ns : List LineName}
  (hns : ∀ x ∈ ns, x.1 ∈ t.items ∧ x.2.InRange)

include ht hns

theorem run_writes (v : LineName → Nat) (s : Reader) :
    writes (((nvReader t).run s (ns.map fun x => nvline x.1 x.2 (v x))).2.flatMap LineLog.events) =
      placedWrites v s.index ns := by
  induction ns generalizing s with
  | nil => rfl
  | cons x xs ih =>
    obtain ⟨⟨hmode, hrange⟩, hxs⟩ := List.forall_mem_cons.1 hns
    obtain ⟨hindex, hwrites⟩ := nvLineStep_nvline ht hmode hrange (v x) s
    rw [List.map_cons, Machine.run_cons, List.flatMap_append, writes_append, ih hxs]
    show writes ((nvLineStep t s _).2 ++ []) ++ placedWrites v (nvLineStep t s _).1.index xs = _
    rw [List.append_nil, hwrites, hindex]
    rfl

/-- **The stores of a file of written lines.** -/
theorem nvAfter_fileOf {v : LineName → Nat} (hv : ∀ x ∈ ns, v x < 2 ^ x.2.bits) (mem : NvMem) :
    nvAfter t mem (fileOf ns v) = mem.after (placedWrites v Reader.init.index ns) := by
  have hlines : ∀ l ∈ ns.map fun x => nvline x.1 x.2 (v x), IsLine l := by
    intro l hl
    obtain ⟨x, hx, rfl⟩ := List.mem_map.1 hl
    exact nvline_isLine (ht.names _ (hns x hx).1) (hns x hx).2 (hv x hx)
  unfold nvAfter stringfile2nvstruct fileOf
  rw [nvLines_flatten hlines, run_writes ht hns]

omit ht in
/-- In a file that is in step every value goes to the field of its line. -/
theorem placed_of_counted (hcount : Counted ns) {pre post : List LineName} {x : LineName}
    (hsplit : ns = pre ++ x :: post) : x.2.placed (bumps Reader.init.index pre) = x.2 := by
  have hx : x ∈ ns := hsplit ▸ List.mem_append_right _ List.mem_cons_self
  rw [placed_eq_iff (hns x hx).2]
  intro c hc
  rw [bumps_init]
  exact hcount pre x post hsplit c hc

end File

/-- The printed number of an array element is its value. -/
theorem ivalue_of_array {f : Field} (h : f.counter ≠ none) (v : Nat) : f.ivalue v = v := by
  cases f with
  | eqBand i b x => exact absurd rfl h
  | _ => rfl

theorem bits_pos (f : Field) : 0 < f.bits := by
  cases f with
  | app j x k => cases x <;> exact Nat.succ_pos _
  | _ => exact Nat.succ_pos _

theorem ivalue_zero (f : Field) : f.ivalue 0 = 0 := by
  cases f with
  | eqBand i b x => cases x <;> rfl
  | _ => rfl

/-- **The elements that a file sets.** A file of written lines, each at most once, sets the elements
that it names and nothing else, whatever its values are, exactly if every index is the number of
lines of its kind before it. -/
theorem lines_set_elements_iff {t : ModeTable} (ht : t.Plain) {ns : List LineName}
    (hns : ∀ x ∈ ns, x.1 ∈ t.items ∧ x.2 ∈ writtenFields) (hnodup : ns.Nodup) :
    (∀ v : LineName → Nat, (∀ x ∈ ns, v x < 2 ^ x.2.bits) → ∀ mem, SetsNamed t ns v mem) ↔
      Counted ns := by
  have hns' : ∀ x ∈ ns, x.1 ∈ t.items ∧ x.2.InRange := fun x hx =>
    ⟨(hns x hx).1, (mem_writtenFields x.2).1 (hns x hx).2⟩
  constructor
  · intro hall pre x post hsplit c hc
    have hx : x ∈ ns := hsplit ▸ List.mem_append_right _ List.mem_cons_self
    by_contra hne
    -- the line has the value 1, all others and the array before have 0
    have hv : ∀ y ∈ ns, (if y = x then 1 else 0) < 2 ^ y.2.bits := by
      intro y _
      have htwo : 2 ^ 1 ≤ 2 ^ y.2.bits := Nat.pow_le_pow_right Nat.two_pos (bits_pos y.2)
      split <;> omega
    have hone := (hall _ hv fun _ _ => 0).named x hx (by rw [hc]; simp)
    rw [nvAfter_fileOf ht hns' hv, if_pos rfl] at hone
    have hzero : NvMem.after (fun _ _ => 0) (placedWrites (fun y => if y = x then 1 else 0)
        Reader.init.index ns) x.1.index x.2 = 0 := by
      refine after_of_agree (fun w hw hplace => ?_) (.inr rfl)
      obtain ⟨pre', y, post', hsplit', rfl⟩ := mem_placedWrites.1 hw
      by_cases hyx : y = x
      · exfalso
        subst hyx
        have honce : y ∉ pre ++ post := by
          rw [hsplit, List.nodup_middle] at hnodup
          exact (List.nodup_cons.1 hnodup).1
        obtain ⟨hpre, hpost⟩ := not_or.1 (mt List.mem_append.2 honce)
        have hsame : pre = pre' := ((List.append_cons_inj_of_notMem hpre hpost).1
          (hsplit.symm.trans hsplit')).1
        have hplaced : y.2.placed (bumps Reader.init.index pre) = y.2 :=
          hsame ▸ (Prod.mk.inj hplace).2
        have helement := (placed_eq_iff (hns' y hx).2 _).1 hplaced c hc
        rw [bumps_init] at helement
        exact hne helement
      · dsimp only
        rw [if_neg hyx, ivalue_zero]
        exact value_valueLine (Nat.two_pow_pos _)
    omega
  · intro hcount v hv mem
    -- every store is the one of a line to its own field
    have hplace : ∀ w ∈ placedWrites v Reader.init.index ns, ∃ x ∈ ns,
        w = (((x.1.index : Int), x.2), x.2.value (valueLine (x.2.ivalue (v x)))) := by
      intro w hw
      obtain ⟨pre, x, post, hsplit, rfl⟩ := mem_placedWrites.1 hw
      refine ⟨x, hsplit ▸ List.mem_append_right _ List.mem_cons_self, ?_⟩
      rw [placed_of_counted hns' hcount hsplit]
    refine ⟨fun x hx harray => ?_, fun i f hother => ?_⟩
    · rw [nvAfter_fileOf ht hns' hv]
      refine after_of_agree (fun w hw hkey => ?_) (.inl ?_)
      · obtain ⟨y, hy, rfl⟩ := hplace w hw
        obtain ⟨hindex, hfield⟩ := Prod.mk.inj hkey
        have hmode : y.1 = x.1 := List.inj_on_of_nodup_map ht.nodup_indices (hns y hy).1
          (hns x hx).1 (Int.ofNat_inj.1 hindex)
        have hyx : y = x := Prod.ext hmode hfield
        subst hyx
        dsimp only
        rw [ivalue_of_array harray, value_valueLine (hv y hy)]
      · obtain ⟨pre, post, hsplit⟩ := List.append_of_mem hx
        refine ⟨_, mem_placedWrites.2 ⟨pre, x, post, hsplit, rfl⟩, ?_⟩
        dsimp only
        rw [placed_of_counted hns' hcount hsplit]
    · rw [nvAfter_fileOf ht hns' hv]
      refine after_of_agree (fun w hw hkey => ?_) (.inr rfl)
      obtain ⟨y, hy, rfl⟩ := hplace w hw
      exact absurd hkey (hother y hy)

def headset : ModeItem := ⟨"Headset".toList, 0⟩

/-- A phone with one mode. -/
def headsetTable : ModeTable := ⟨[headset], by decide⟩

theorem headsetTable_plain : headsetTable.Plain where
  names := by decide +kernel
  nodup_names := List.nodup_singleton _
  nodup_indices := List.nodup_singleton _

/-- A file with the line of the first element alone. -/
theorem lines_set_elements_first :
    (∀ v : LineName → Nat, (∀ x ∈ [(headset, Field.arm .devSet 0)], v x < 2 ^ x.2.bits) →
      ∀ mem, SetsNamed headsetTable [(headset, Field.arm .devSet 0)] v mem) ↔
      Counted [(headset, Field.arm .devSet 0)] :=
  lines_set_elements_iff headsetTable_plain
    (List.forall_mem_singleton.2 ⟨List.mem_singleton_self _, (mem_writtenFields _).2 (by decide)⟩)
    (List.nodup_singleton _)

/-- The line of the second element alone sets the first one. -/
theorem not_setsNamed_second : ¬ ∀ t : ModeTable, t.Plain → ∀ ns : List LineName,
    (∀ x ∈ ns, x.1 ∈ t.items ∧ x.2 ∈ writtenFields) → ns.Nodup →
      ∀ v : LineName → Nat, (∀ x ∈ ns, v x < 2 ^ x.2.bits) → ∀ mem, SetsNamed t ns v mem := by
  intro h
  have hsets := h headsetTable headsetTable_plain [(headset, .arm .devSet 1)]
    (List.forall_mem_singleton.2 ⟨List.mem_singleton_self _, (mem_writtenFields _).2 (by decide)⟩)
    (List.nodup_singleton _) (fun _ => 18) (List.forall_mem_singleton.2 (by decide)) fun _ _ => 0
  have hnamed := hsets.named _ (List.mem_singleton_self _) (by decide)
  revert hnamed
  decide +kernel

end SprdHal.Audio
