import SprdHal.Audio.NvIndex

/-!
# Writing the audio parameters and reading them back

The file that `nvstruct2stringfile` writes is complete and in order, so the running indices of
`stringfile2nvstruct` keep in step with it (`complete_writtenFields`). Every number comes back but
one kind: `q` is signed and printed with 32 bits, and `strtol` saturates (`reread_eq_iff`).
-/

namespace SprdHal.Audio

open SprdHal.Lib

/-! ## Whole arrays in order -/

/-- The elements of the arrays in a list of fields are in order, and the arrays are whole. -/
structure Complete (fs : List Field) : Prop where
  inOrder : ∀ pre f post, fs = pre ++ f :: post → ∀ c ∈ f.counter,
    f.element = (pre.countP fun g => g.counter = some c) % c.size
  whole : ∀ c : Counter, (fs.countP fun g => g.counter = some c) % c.size = 0

section Complete

variable {fs gs : List Field} {f : Field}

theorem complete_nil : Complete [] where
  inOrder pre f post h := absurd h (by simp)
  whole c := Nat.zero_mod _

theorem Complete.append (hf : Complete fs) (hg : Complete gs) : Complete (fs ++ gs) where
  inOrder := by
    intro pre f post hsplit c hc
    rcases List.append_eq_append_iff.mp hsplit with ⟨mid, rfl, hgs⟩ | ⟨mid, rfl, hpost⟩
    · rw [hg.inOrder mid f post hgs c hc, List.countP_append, Nat.add_mod, hf.whole c, Nat.zero_add,
        Nat.mod_mod]
    · cases mid with
      | nil =>
        rw [List.append_nil] at hf
        have hfirst := hg.inOrder [] f post hpost.symm c hc
        rw [hfirst, hf.whole c]
        exact Nat.zero_mod _
      | cons g mid =>
        obtain ⟨rfl, -⟩ := List.cons.inj hpost
        exact hf.inOrder pre f mid rfl c hc
  whole := by
    intro c
    rw [List.countP_append, Nat.add_mod, hf.whole c, hg.whole c]
    exact Nat.zero_mod _

theorem complete_flatMap {α : Type} {l : List α} {g : α → List Field}
    (h : ∀ a ∈ l, Complete (g a)) :
    Complete (l.flatMap g) := by
  induction l with
  | nil => exact complete_nil
  | cons a l ih =>
    obtain ⟨ha, hl⟩ := List.forall_mem_cons.mp h
    rw [List.flatMap_cons]
    exact ha.append (ih hl)

/-- What is no array. -/
theorem complete_single (h : f.counter = none) : Complete [f] where
  inOrder := by
    intro pre g post hsplit c hc
    have hg : g ∈ [f] := hsplit ▸ List.mem_append_right pre List.mem_cons_self
    rw [List.mem_singleton.mp hg, h] at hc
    cases hc
  whole c := by
    rw [List.countP_singleton, h]
    exact Nat.zero_mod _

/-- One array. -/
theorem complete_array (c : Counter) {g : Nat → Field} (hcounter : ∀ k, (g k).counter = some c)
    (helement : ∀ k, (g k).element = k) : Complete ((List.range c.size).map g) where
  inOrder := by
    intro pre f post hsplit d hd
    obtain ⟨pre', rest, hrange, rfl, hrest⟩ := List.map_eq_append_iff.mp hsplit
    obtain ⟨k, post', rfl, rfl, rfl⟩ := List.map_eq_cons_iff.mp hrest
    obtain rfl : d = c := Option.some.inj ((Option.mem_def.mp hd).symm.trans (hcounter k))
    have hk : k = pre'.length := by
      have hget : (List.range d.size)[pre'.length]? = some k := by
        rw [hrange, List.getElem?_append_right (Nat.le_refl _), Nat.sub_self]
        rfl
      obtain ⟨hlt, heq⟩ := List.getElem?_eq_some_iff.mp hget
      rw [← heq, List.getElem_range]
    have hall : (pre'.map g).countP (fun f => f.counter = some d) = pre'.length := by
      rw [List.countP_eq_length.mpr, List.length_map]
      intro f hf
      obtain ⟨j, -, rfl⟩ := List.mem_map.mp hf
      exact decide_eq_true (hcounter j)
    have hlt : pre'.length < d.size := by
      have hlen := congrArg List.length hrange
      rw [List.length_range, List.length_append, List.length_cons] at hlen
      omega
    rw [helement, hall, hk, Nat.mod_eq_of_lt hlt]
  whole := by
    intro d
    by_cases hd : d = c
    · subst hd
      rw [List.countP_eq_length.mpr, List.length_map, List.length_range, Nat.mod_self]
      intro f hf
      obtain ⟨j, -, rfl⟩ := List.mem_map.mp hf
      exact decide_eq_true (hcounter j)
    · rw [List.countP_eq_zero.mpr]
      · exact Nat.zero_mod _
      · intro f hf
        obtain ⟨j, -, rfl⟩ := List.mem_map.mp hf
        rw [hcounter j, decide_eq_true_eq]
        exact fun h => hd (Option.some.inj h).symm

end Complete

/-- **The arrays of a mode are written whole and in order.** -/
theorem complete_writtenFields : Complete writtenFields := by
  have hsingles : ∀ fs : List Field, (∀ f ∈ fs, f.counter = none) → Complete fs := by
    intro fs hfs
    have hsplit : fs = fs.flatMap fun f => [f] := (List.flatMap_singleton' fs).symm
    rw [hsplit]
    exact complete_flatMap fun f hf => complete_single (hfs f hf)
  unfold writtenFields
  refine .append (.append (.append (.append (.append (.append (.append (.append (.append ?_ ?_) ?_)
    ?_) ?_) ?_) ?_) ?_) ?_) ?_
  · exact hsingles _ (by decide)
  · exact complete_array .devSet (fun _ => rfl) fun _ => rfl
  · exact hsingles _ (by decide)
  · exact complete_array .audProcExpControl (fun _ => rfl) fun _ => rfl
  · refine complete_flatMap fun j _ => .append (.append (.append (.append ?_ ?_) ?_) ?_) ?_
    · exact complete_single rfl
    · exact complete_array .agcInputGain (fun _ => rfl) fun _ => rfl
    · exact complete_single rfl
    · exact complete_array .armVolume (fun _ => rfl) fun _ => rfl
    · exact complete_array .reserve3 (fun _ => rfl) fun _ => rfl
  · exact hsingles _ (by decide)
  · exact complete_array .reserve1 (fun _ => rfl) fun _ => rfl
  · exact complete_single rfl
  · refine complete_flatMap fun m _ => .append ?_ (complete_flatMap fun b _ => ?_)
    · exact hsingles _ (by simp [Field.counter])
    · exact hsingles _ (by simp [Field.counter])
  · exact complete_array .extendArray (fun _ => rfl) fun _ => rfl

/-! ## Numbers -/

/-- A number after it is printed and read. -/
def Field.reread (f : Field) (v : Nat) : Nat := f.value (valueLine (f.ivalue v))

/-- A `q` that comes back: it is not negative, or it is -1. -/
def Field.Survives : Field → Nat → Prop
  | .eqBand _ _ .q, v => v < 2 ^ 15 ∨ v = 2 ^ 16 - 1
  | _, _ => True

/-- **The numbers that come back.** A negative `q` is printed with eight digits, and `strtol` makes
`LONG_MAX` of it, of which the last 16 bits are stored. -/
theorem reread_eq_iff {f : Field} {v : Nat} (hv : v < 2 ^ f.bits) :
    f.reread v = v ↔ f.Survives v := by
  by_cases hq : ∃ i b, f = .eqBand i b .q
  · obtain ⟨i, b, rfl⟩ := hq
    have h16 : v < 2 ^ 16 := hv
    by_cases hsign : v < 2 ^ 15
    · have hivalue : (Field.eqBand i b .q).ivalue v = v := if_pos hsign
      unfold Field.reread
      rw [hivalue]
      exact iff_of_true (value_valueLine hv) (.inl hsign)
    · have hivalue : (Field.eqBand i b .q).ivalue v = v + (2 ^ 32 - 2 ^ 16) := if_neg hsign
      have hplain : plainValue (valueLine (v + (2 ^ 32 - 2 ^ 16))) = 2 ^ 31 - 1 := by
        have hx : occurs "0x".toList (valueLine (v + (2 ^ 32 - 2 ^ 16))) = true := by
          unfold occurs valueLine
          rw [strstr_hexMark]
          rfl
        unfold plainValue
        rw [hx, Bool.true_or, if_pos rfl]
        unfold strtol valueLine
        rw [readInt_hex _ (by decide), Option.getD_some, clampLong]
        omega
      have hstored : (Field.eqBand i b .q).reread v = 2 ^ 16 - 1 := by
        have hbits : (Field.eqBand i b .q).bits = 16 := rfl
        unfold Field.reread Field.value
        rw [hivalue, hbits, if_neg (by decide), hplain]
        decide
      rw [hstored]
      exact ⟨fun h => .inr h.symm, fun h => (h.resolve_left hsign).symm⟩
  · have hivalue : f.ivalue v = v := by
      cases f with
      | eqBand i b x =>
        cases x with
        | q => exact absurd ⟨i, b, rfl⟩ hq
        | _ => rfl
      | _ => rfl
    have hsurvives : f.Survives v := by
      cases f with
      | eqBand i b x =>
        cases x with
        | q => exact absurd ⟨i, b, rfl⟩ hq
        | _ => trivial
      | _ => trivial
    unfold Field.reread
    rw [hivalue]
    exact iff_of_true (value_valueLine hv) hsurvives

/-! ## The round trip -/

/-- Every element has the index of its position. -/
def ModeTable.Indexed (t : ModeTable) : Prop :=
  t.items.map ModeItem.index = List.range t.items.length

/-- Numbers of the sizes of their fields. -/
def NvMem.Sized (n : Nat) (x : NvMem) : Prop := ∀ i < n, ∀ f : Field, f.InRange → x i f < 2 ^ f.bits

/-- Whatever the array holds before, all numbers are in it when the file is read that is written of
them. -/
def RoundTrips (t : ModeTable) (x : NvMem) : Prop :=
  ∀ mem, ∀ i < t.items.length, ∀ f : Field, f.InRange →
    nvAfter t mem (nvstruct2stringfile t x) i f = x i f

/-- The lines of the file. -/
def writtenLines (t : ModeTable) : List LineName :=
  t.items.flatMap fun m => writtenFields.map fun f => (m, f)

section RoundTrip

variable {t : ModeTable} {x : NvMem}

theorem mem_writtenLines {l : LineName} : l ∈ writtenLines t ↔ l.1 ∈ t.items ∧ l.2.InRange := by
  simp only [writtenLines, List.mem_flatMap, List.mem_map, mem_writtenFields]
  constructor
  · rintro ⟨m, hm, f, hf, rfl⟩
    exact ⟨hm, hf⟩
  · rintro ⟨hm, hf⟩
    exact ⟨l.1, hm, l.2, hf, rfl⟩

theorem counted_writtenLines : Counted (writtenLines t) := by
  have hcomplete : Complete ((writtenLines t).map Prod.snd) := by
    have hfields : (writtenLines t).map Prod.snd = t.items.flatMap fun _ => writtenFields := by
      simp only [writtenLines, List.map_flatMap, List.map_map]
      exact congrArg (List.flatMap · t.items) (funext fun m => List.map_id _)
    rw [hfields]
    exact complete_flatMap fun _ _ => complete_writtenFields
  intro pre l post hsplit c hc
  have hmap := congrArg (List.map Prod.snd) hsplit
  rw [List.map_append, List.map_cons] at hmap
  rw [hcomplete.inOrder _ _ _ hmap c hc, List.countP_map]
  rfl

theorem nvstruct2stringfile_eq (hindexed : t.Indexed) :
    nvstruct2stringfile t x = fileOf (writtenLines t) fun l => x l.1.index l.2 := by
  have hzip : t.items.zipIdx = t.items.map fun m => (m, m.index) := by
    refine List.ext_getElem (by simp) fun i hi _ => ?_
    have hindex := congrArg (·[i]?) hindexed
    rw [List.length_zipIdx] at hi
    simp only [List.getElem?_map, List.getElem?_eq_getElem hi, Option.map_some,
      List.getElem?_range hi, Option.some_inj] at hindex
    simp [hindex]
  unfold nvstruct2stringfile fileOf writtenLines
  rw [hzip, List.flatMap_map]
  generalize writtenFields = fs
  induction t.items with
  | nil => rfl
  | cons m items ih =>
    rw [List.flatMap_cons, List.flatMap_cons, ih, List.map_append, List.flatten_append,
      List.map_map, List.flatMap_def]
    rfl

/-- **Reading back what was written.** -/
theorem nvAfter_nvstruct2stringfile (ht : t.Plain) (hindexed : t.Indexed)
    (hx : x.Sized t.items.length) (mem : NvMem) {i : Nat} (hi : i < t.items.length) {f : Field}
    (hf : f.InRange) : nvAfter t mem (nvstruct2stringfile t x) i f = f.reread (x i f) := by
  have hlines : ∀ l ∈ writtenLines t, l.1 ∈ t.items ∧ l.2.InRange := fun l hl =>
    mem_writtenLines.mp hl
  have hsized : ∀ l ∈ writtenLines t, x l.1.index l.2 < 2 ^ l.2.bits := by
    intro l hl
    obtain ⟨hm, hrange⟩ := hlines l hl
    exact hx l.1.index (t.index_lt l.1 hm) l.2 hrange
  rw [nvstruct2stringfile_eq hindexed, nvAfter_fileOf ht hlines hsized]
  refine after_of_agree (fun w hw hplace => ?_) (.inl ?_)
  · obtain ⟨pre, l, post, hsplit, rfl⟩ := mem_placedWrites.mp hw
    rw [placed_of_counted hlines counted_writtenLines hsplit] at hplace
    obtain ⟨hindex, rfl⟩ := Prod.mk.inj hplace
    dsimp only
    rw [hindex]
    rfl
  · have hindex : t.items[i].index = i := by
      have hget := congrArg (·[i]?) hindexed
      simpa [hi] using hget
    have hmem : (t.items[i], f) ∈ writtenLines t :=
      mem_writtenLines.mpr ⟨List.getElem_mem hi, hf⟩
    obtain ⟨pre, post, hsplit⟩ := List.append_of_mem hmem
    refine ⟨_, mem_placedWrites.mpr ⟨pre, _, post, hsplit, rfl⟩, ?_⟩
    dsimp only
    rw [placed_of_counted hlines counted_writtenLines hsplit, hindex]

end RoundTrip

end SprdHal.Audio
