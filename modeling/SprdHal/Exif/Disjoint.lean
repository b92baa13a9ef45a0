import SprdHal.Exif.Plan
import SprdHal.Lib.Regions

/-!
# The layout of EXIF data

While a directory is written its table, with the pointer to the next directory, stays inside the room
that it has reserved, and `ifd_value_offset` only moves forward. Every directory, every value and the
thumbnail start where what was placed before them ends, so they are apart from each other
(`exif_layout`).
-/

namespace SprdHal.Exif

open Lib

/-! ## Visits -/

/-- The end of the room for the table, with the number of entries and the pointer to the next
directory. -/
def Dir.reservedEnd (d : Dir) : Nat := d.start + 2 + 12 * d.maxEntries + 4

namespace Visit

/-- `ifd_value_offset` before and after a step. -/
def offsets (v : Visit) : List Nat := [v.before.valueOffset, v.after.valueOffset]

/-- What a step takes of the buffer for itself: the room of the table, or that of a value or of the
thumbnail. -/
def region (v : Visit) : Region :=
  match v.kind with
  | .opened => ⟨some v.dir.start, v.dir.reservedEnd - v.dir.start⟩
  | .entry | .thumbnail =>
    ⟨some v.before.valueOffset, v.after.valueOffset - v.before.valueOffset⟩
  | .pointer | .returned | .closed => ⟨none, 0⟩

/-- The table with the pointer to the next directory is inside the room reserved for it, the values are
behind this room, and at the end the number of entries is that of the table. -/
structure Ok (v : Visit) : Prop where
  table : ∀ c ∈ [v.before, v.after], c.ifdOffset + 4 ≤ v.dir.reservedEnd
  values : ∀ c ∈ [v.before, v.after], v.dir.reservedEnd ≤ c.valueOffset
  counted : v.kind = .closed → v.after.ifdOffset = v.dir.start + 2 + 12 * v.after.entries

end Visit

/-- A part of the writer that moves `ifd_value_offset` from `m` to `m'`. -/
structure Tidy {α : Type} (m m' : Nat) (p : Plan α) : Prop where
  le : m ≤ m'
  fit : Fit m' p.demands
  ok : ∀ v ∈ p.visits, v.Ok
  forward : (p.visits.flatMap Visit.offsets).Pairwise (· ≤ ·)
  between : ∀ o ∈ p.visits.flatMap Visit.offsets, m ≤ o ∧ o ≤ m'
  apart : (p.visits.map Visit.region).Pairwise Region.Apart
  inside : ∀ v ∈ p.visits, v.region.Behind m ∧ v.region.Inside m'

section Tidy

variable {α β : Type} {m m' m'' : Nat}

theorem Fit.mono {ds : List Demand} (h : Fit m ds) (hle : m ≤ m') : Fit m' ds :=
  fun d hd => Nat.le_trans (h d hd) hle

theorem tidy_pure (m : Nat) (a : α) : Tidy m m (pure a : Plan α) :=
  ⟨Nat.le_refl m, fit_nil, nofun, .nil, nofun, .nil, nofun⟩

/-- **One part after the other.** -/
theorem Tidy.bind {p : Plan α} {q : α → Plan β} (h : Tidy m m' p) (h' : Tidy m' m'' (q p.value)) :
    Tidy m m'' (p >>= q) where
  le := Nat.le_trans h.le h'.le
  fit := fit_append.mpr ⟨h.fit.mono h'.le, h'.fit⟩
  ok := List.forall_mem_append.mpr ⟨h.ok, h'.ok⟩
  forward := by
    rw [Plan.visits_bind, List.flatMap_append]
    refine List.pairwise_append.mpr ⟨h.forward, h'.forward, fun a ha b hb => ?_⟩
    exact Nat.le_trans (h.between a ha).2 (h'.between b hb).1
  between := by
    rw [Plan.visits_bind, List.flatMap_append]
    refine List.forall_mem_append.mpr ⟨fun o ho => ?_, fun o ho => ?_⟩
    · exact ⟨(h.between o ho).1, Nat.le_trans (h.between o ho).2 h'.le⟩
    · exact ⟨Nat.le_trans h.le (h'.between o ho).1, (h'.between o ho).2⟩
  apart := by
    rw [Plan.visits_bind, List.map_append]
    refine List.pairwise_append.mpr ⟨h.apart, h'.apart, fun a ha b hb => ?_⟩
    obtain ⟨v, hv, rfl⟩ := List.mem_map.mp ha
    obtain ⟨w, hw, rfl⟩ := List.mem_map.mp hb
    exact Region.apart_of_behind (h.inside v hv).2 (h'.inside w hw).1
  inside := by
    refine List.forall_mem_append.mpr ⟨fun v hv => ?_, fun v hv => ?_⟩
    · exact ⟨(h.inside v hv).1, (h.inside v hv).2.mono h'.le⟩
    · exact ⟨(h'.inside v hv).1.mono h.le, (h'.inside v hv).2⟩

theorem tidy_note {v : Visit} (hok : v.Ok) (hm : m ≤ v.before.valueOffset)
    (hforward : v.before.valueOffset ≤ v.after.valueOffset) (hm' : v.after.valueOffset ≤ m')
    (hregion : v.region.Behind m ∧ v.region.Inside m') : Tidy m m' (Plan.note v) where
  le := Nat.le_trans hm (Nat.le_trans hforward hm')
  fit := fit_nil
  ok := List.forall_mem_singleton.mpr hok
  forward := by simpa [Plan.note, Visit.offsets] using hforward
  between := by
    intro o ho
    simp only [Plan.note, List.flatMap_cons, List.flatMap_nil, List.append_nil, Visit.offsets,
      List.mem_cons, List.not_mem_nil, or_false] at ho
    omega
  apart := List.pairwise_singleton _ _
  inside := List.forall_mem_singleton.mpr hregion

/-- A step, and what is noted of it. -/
theorem tidy_step {ds : List Demand} {a : α} {v : α → Visit} {k : α → Plan β} (hfit : Fit m' ds)
    (hnote : Tidy m m' (Plan.note (v a))) (hk : Tidy m' m'' (k a)) :
    Tidy m m'' (do
      let a ← Plan.step ds a
      Plan.note (v a)
      k a) :=
  have h := hnote.bind (q := fun _ => k a) hk
  ⟨h.le, fit_append.mpr ⟨hfit.mono hk.le, h.fit⟩, h.ok, h.forward, h.between, h.apart, h.inside⟩

end Tidy

/-! ## The steps of a directory -/

section Steps

variable {d : Dir} {c : Cursor} {n : Nat}

theorem Dir.reservedEnd_le (d : Dir) : d.reservedEnd ≤ valuesStart d.start d.maxEntries :=
  le_valuesStart d.start d.maxEntries

theorem Cursor.In.table (h : c.In d n) (hn : n ≤ d.maxEntries) :
    c.ifdOffset + 12 * (d.maxEntries - n) + 4 ≤ d.reservedEnd := by
  have hentries := h.entries
  rw [h.ifdOffset, Dir.reservedEnd]
  omega

theorem Cursor.In.behind (h : c.In d n) : d.reservedEnd ≤ c.valueOffset :=
  Nat.le_trans d.reservedEnd_le h.values

theorem Cursor.In.ok {c' : Cursor} {n' : Nat} (h : c.In d n) (h' : c'.In d n')
    (hn : n ≤ d.maxEntries) (hn' : n' ≤ d.maxEntries) (kind : VisitKind) :
    (⟨d, kind, c, c'⟩ : Visit).Ok where
  table := by
    have htable := h.table hn
    have htable' := h'.table hn'
    simp only [List.forall_mem_cons]
    exact ⟨by omega, by omega, nofun⟩
  values := by
    simp only [List.forall_mem_cons]
    exact ⟨h.behind, h'.behind, nofun⟩
  counted := fun _ => h'.ifdOffset

theorem tidy_openIFD (d : Dir) :
    Tidy d.start (Plan.openIFD d).value.valueOffset (Plan.openIFD d) := by
  have hin := in_openIFD d
  have hbehind := hin.behind
  have hle : d.start + 2 ≤ d.reservedEnd := by
    unfold Dir.reservedEnd
    omega
  have hfit : Fit (Plan.openIFD d).value.valueOffset [⟨false, d.start⟩, ⟨true, d.start + 2⟩] :=
    fit_cons.mpr ⟨by simp only; omega, fit_cons.mpr ⟨Nat.le_trans hle hbehind, fit_nil⟩⟩
  refine tidy_step hfit (tidy_note (hin.ok hin (Nat.zero_le _) (Nat.zero_le _) .opened) ?_ (Nat.le_refl _)
      (Nat.le_refl _) ⟨?_, ?_⟩) (tidy_pure _ _)
  · exact Nat.le_trans (by omega) hbehind
  · intro s hs
    exact (Option.some.inj hs).le
  · refine Region.inside_some.mpr ?_
    rw [Nat.add_sub_cancel' (by simp only; omega)]
    exact hbehind

/-- What a block asks of the buffer. -/
theorem Cursor.In.fit_block (h : c.In d n) (hn : n + 1 ≤ d.maxEntries) (b : Block) :
    Fit (b.next c).valueOffset (b.demands c) := by
  have htable := h.table (show n ≤ d.maxEntries by omega)
  have hbehind := h.behind
  unfold Block.demands Block.next
  split
  · next hp =>
    have hle : c.valueOffset + b.data.length ≤ align4 (c.valueOffset + b.data.length) := le_align4 _
    refine fit_cons.mpr ⟨by simp only; omega, ?_⟩
    split
    · exact fit_cons.mpr ⟨by simp only; omega, fit_cons.mpr ⟨hle, fit_nil⟩⟩
    · exact fit_nil
  · exact fit_nil

theorem Cursor.In.tidy_writeBlocks (h : c.In d n) (bs : List Block)
    (hn : n + bs.length ≤ d.maxEntries) :
    Tidy c.valueOffset (Plan.writeBlocks d bs c).value.valueOffset (Plan.writeBlocks d bs c) := by
  induction bs generalizing c n with
  | nil => exact tidy_pure _ _
  | cons b bs ih =>
    rw [List.length_cons] at hn
    have hnext := h.next b
    have hforward : c.valueOffset ≤ (b.next c).valueOffset := by
      rw [b.valueOffset_next h.aligned]
      exact Nat.le_add_right _ _
    refine tidy_step (h.fit_block (by omega) b) (tidy_note (h.ok hnext (by omega) (by omega) .entry)
      (Nat.le_refl _) hforward (Nat.le_refl _) ⟨?_, ?_⟩) (ih hnext (by omega))
    · intro s hs
      exact (Option.some.inj hs).le
    · refine Region.inside_some.mpr ?_
      simp only
      omega

theorem fit_closeIFD {m : Nat} (h : c.ifdOffset + 4 ≤ m) :
    Fit m [⟨false, c.ifdOffset⟩, ⟨true, c.ifdOffset + 4⟩] :=
  fit_cons.mpr ⟨by simp only; omega, fit_cons.mpr ⟨h, fit_nil⟩⟩

theorem Cursor.In.tidy_closeIFD (h : c.In d n) (hn : n ≤ d.maxEntries) :
    Tidy c.valueOffset c.valueOffset (Plan.closeIFD d c) := by
  have htable := h.table hn
  have hbehind := h.behind
  have hfit : c.ifdOffset + 4 ≤ c.valueOffset := by omega
  exact tidy_step (fit_closeIFD hfit) (tidy_note (h.ok h hn hn .closed) (Nat.le_refl _)
    (Nat.le_refl _) (Nat.le_refl _) ⟨nofun, Region.inside_none⟩) (tidy_pure _ _)

/-- A pointer to a sub-directory and the sub-directory. -/
theorem Cursor.In.tidy_writeOptIFD {α : Type} (h : c.In d n) (hn : n + 1 ≤ d.maxEntries)
    {plan : α → Nat → Plan Nat}
    (htidy : ∀ a v, 4 ∣ v → Tidy v (plan a v).value (plan a v)) (info : Option α) :
    Tidy c.valueOffset (Plan.writeOptIFD d (info.map plan) c).value.valueOffset
      (Plan.writeOptIFD d (info.map plan) c) := by
  cases info with
  | none => exact tidy_pure _ _
  | some a =>
    have htable := h.table (show n ≤ d.maxEntries by omega)
    have htable' : c.ifdOffset + 12 + 4 ≤ d.reservedEnd := by omega
    have hbehind := h.behind
    have hsub := htidy a _ (dvd_align4 c.valueOffset)
    have hle := le_align4 c.valueOffset
    have hreturned (c'' : Cursor) (hi : c''.ifdOffset + 4 ≤ d.reservedEnd)
        (hv : d.reservedEnd ≤ c''.valueOffset) : Tidy c''.valueOffset c''.valueOffset (do
          Plan.note ⟨d, .returned, c'', c''⟩
          pure c'' : Plan Cursor) := by
      have hok : (⟨d, .returned, c'', c''⟩ : Visit).Ok :=
        ⟨by simpa using hi, by simpa using hv, nofun⟩
      exact (tidy_note hok (Nat.le_refl _) (Nat.le_refl _) (Nat.le_refl _)
        ⟨nofun, Region.inside_none⟩).bind (tidy_pure _ _)
    have hpointer : (⟨d, .pointer, c, ⟨c.ifdOffset + 12, align4 c.valueOffset, c.entries⟩⟩ :
        Visit).Ok :=
      ⟨by simpa using ⟨by omega, htable'⟩, by simpa using ⟨hbehind, Nat.le_trans hbehind hle⟩, nofun⟩
    exact tidy_step (fit_cons.mpr ⟨by simp only; omega, fit_nil⟩)
      (tidy_note hpointer (Nat.le_refl _) hle (Nat.le_refl _) ⟨nofun, Region.inside_none⟩)
      (hsub.bind (hreturned ⟨c.ifdOffset + 12, _, c.entries + 1⟩ htable'
        (Nat.le_trans hbehind (Nat.le_trans hle hsub.le))))

theorem tidy_writeDir (d : Dir) (bs : List Block) (hn : bs.length ≤ d.maxEntries) :
    Tidy d.start (do
        let c ← Plan.openIFD d
        let c ← Plan.writeBlocks d bs c
        Plan.closeIFD d c : Plan Nat).value
      (do
        let c ← Plan.openIFD d
        let c ← Plan.writeBlocks d bs c
        Plan.closeIFD d c : Plan Nat) := by
  have hin := in_openIFD d
  have hblocks := hin.tidy_writeBlocks bs (by omega)
  have hclose := (hin.writeBlocks bs).1.tidy_closeIFD (by omega)
  exact (tidy_openIFD d).bind (hblocks.bind hclose)

theorem tidy_writeExifSpecInfo (spec : SpecificInfo) (inter : Option InteroperabilityInfo) (v : Nat) :
    Tidy v (Plan.writeExifSpecInfo spec inter v).value (Plan.writeExifSpecInfo spec inter v) := by
  have hcount : (specBlocks spec).length = 32 := rfl
  have hcount' : (specTailBlocks spec).length = 24 := rfl
  have hin := in_openIFD ⟨v, 57⟩
  have hin1 := (hin.writeBlocks (specBlocks spec)).1
  have hin2 := (hin1.writeOptIFD takes_interoperability inter).1
  have hin3 := (hin2.writeBlocks (specTailBlocks spec)).1
  rw [hcount] at hin1 hin2 hin3
  rw [hcount'] at hin3
  have hblocks := hin.tidy_writeBlocks (specBlocks spec) (by rw [hcount]; simp)
  have hinter := hin1.tidy_writeOptIFD (by simp)
    (fun i v _ => tidy_writeDir ⟨v, 1⟩ (interBlocks i) (Nat.le_refl 1)) inter
  have htail := hin2.tidy_writeBlocks (specTailBlocks spec) (by rw [hcount'])
  have hclose := hin3.tidy_closeIFD (by simp)
  exact (tidy_openIFD ⟨v, 57⟩).bind (hblocks.bind (hinter.bind (htail.bind hclose)))

theorem tidy_writeExifGPSInfo (gps : GpsInfo) (v : Nat) :
    Tidy v (Plan.writeExifGPSInfo gps v).value (Plan.writeExifGPSInfo gps v) :=
  tidy_writeDir ⟨v, 31⟩ (gpsBlocks gps) (Nat.le_refl 31)

theorem Cursor.In.tidy_writePicture {ifd : Ifd} {B : Nat} (h : c.In ⟨B, 24⟩ 14) :
    Tidy c.valueOffset (Plan.writePicture ifd B c).value.valueOffset
      (Plan.writePicture ifd B c) := by
  have hin2 := (h.writeBlocks (thumbnailBlocks ifd.thumbnail)).1
  rw [length_thumbnailBlocks] at hin2
  have hin3 := (hin2.writeBlocks (primaryTailBlocks ifd.primary)).1
  rw [length_primaryTailBlocks] at hin3
  have hin4 := (hin3.writeOptIFD (takes_spec ifd.inter) ifd.spec).1
  have hthumb := h.tidy_writeBlocks (thumbnailBlocks ifd.thumbnail)
    (by rw [length_thumbnailBlocks]; simp)
  have htail := hin2.tidy_writeBlocks (primaryTailBlocks ifd.primary)
    (by rw [length_primaryTailBlocks]; simp)
  have hspec := hin3.tidy_writeOptIFD (by simp)
    (fun spec v _ => tidy_writeExifSpecInfo spec ifd.inter v) ifd.spec
  have hgps := hin4.tidy_writeOptIFD (by simp) (fun gps v _ => tidy_writeExifGPSInfo gps v) ifd.gps
  exact hthumb.bind (htail.bind (hspec.bind hgps))

/-- The thumbnail goes behind all values, and the directory is closed. -/
theorem Cursor.In.tidy_finish (h : c.In d n) (hn : n ≤ d.maxEntries) {thumbnailIfdOffset : Nat}
    (hi : thumbnailIfdOffset + 12 ≤ d.reservedEnd) (thumbnail : List UInt8) :
    Tidy c.valueOffset (c.valueOffset + thumbnail.length)
      (do
        let c ← Plan.writeThumbnail d thumbnailIfdOffset thumbnail c
        Plan.closeIFD d c) := by
  have htable : c.ifdOffset + 4 ≤ d.reservedEnd := by
    have h := h.table hn
    omega
  have hbehind := h.behind
  have hbehind' := Nat.le_add_right_of_le (k := thumbnail.length) hbehind
  have hfit : Fit (c.valueOffset + thumbnail.length)
      (thumbnailDemands thumbnailIfdOffset thumbnail c) := by
    unfold thumbnailDemands
    split
    · refine fit_cons.mpr ⟨Nat.le_add_right _ _, fit_cons.mpr ⟨Nat.le_refl _, fit_cons.mpr
        ⟨by simp only; omega, fit_nil⟩⟩⟩
    · exact fit_nil
  have hthumbnail : Tidy c.valueOffset (c.valueOffset + thumbnail.length)
      (Plan.writeThumbnail d thumbnailIfdOffset thumbnail c) := by
    refine tidy_step hfit (tidy_note ⟨?_, ?_, nofun⟩ (Nat.le_refl _) (Nat.le_add_right _ _)
      (Nat.le_refl _) ⟨?_, ?_⟩) (tidy_pure _ _)
    · simpa using htable
    · simpa using ⟨hbehind, hbehind'⟩
    · intro s hs
      exact (Option.some.inj hs).le
    · exact Region.inside_some.mpr (by simp only; omega)
  have hclosed : (⟨d, .closed, { c with valueOffset := c.valueOffset + thumbnail.length },
      { c with valueOffset := c.valueOffset + thumbnail.length }⟩ : Visit).Ok :=
    ⟨by simpa using htable, by simpa using hbehind', fun _ => h.ifdOffset⟩
  exact hthumbnail.bind (tidy_step (fit_closeIFD (Nat.le_trans htable hbehind'))
    (tidy_note hclosed (Nat.le_refl _) (Nat.le_refl _) (Nat.le_refl _)
      ⟨nofun, Region.inside_none⟩) (tidy_pure _ _))

/-- **IFD0 and IFD1** with their sub-directories. -/
theorem tidy_writeExifIFD (ifd : Ifd) (B : Nat) :
    Tidy B (Plan.writeExifIFD ifd B).value (Plan.writeExifIFD ifd B) := by
  have hcount : (primaryBlocks ifd.primary).length = 14 := rfl
  have hblocks := (in_openIFD ⟨B, 24⟩).tidy_writeBlocks (primaryBlocks ifd.primary)
    (by rw [hcount]; simp)
  obtain ⟨hin, hv⟩ := in_primaryBlocks ifd B
  have htable : (Plan.writeBlocks ⟨B, 24⟩ (primaryBlocks ifd.primary)
      (Plan.openIFD ⟨B, 24⟩).value).value.ifdOffset + 12 * 10 + 4 ≤ (⟨B, 24⟩ : Dir).reservedEnd :=
    hin.table (by simp)
  have hfinish := (hin.writePicture hv).1.tidy_finish (by simp)
    (show (Plan.writeBlocks ⟨B, 24⟩ (primaryBlocks ifd.primary)
      (Plan.openIFD ⟨B, 24⟩).value).value.ifdOffset + 12 ≤ _ by omega) ifd.thumbnail
  exact (tidy_openIFD ⟨B, 24⟩).bind (hblocks.bind (hin.tidy_writePicture.bind hfinish))

theorem tidy_writeDirectories (exif : ExifInfo) (thumbnail : List UInt8) :
    Tidy 18 (app1Size exif thumbnail) (Plan.writeDirectories exif thumbnail) := by
  have hheader : Tidy 18 18 (Plan.step [⟨false, 10⟩, ⟨true, 18⟩] 18) :=
    ⟨Nat.le_refl _, by unfold Fit; decide, nofun, .nil, nofun, .nil, nofun⟩
  have hfirst := tidy_writeExifIFD (ifd0 exif) 18
  have hsecond (B : Nat) : Tidy B
      (if 0 < thumbnail.length then Plan.writeExifIFD (ifd1 thumbnail) B else pure B).value
      (if 0 < thumbnail.length then Plan.writeExifIFD (ifd1 thumbnail) B else pure B) := by
    split
    · exact tidy_writeExifIFD (ifd1 thumbnail) B
    · exact tidy_pure B B
  rw [← Plan.writeDirectories_value]
  exact hheader.bind (hfirst.bind (hsecond _))

end Steps

/-- The writer comes to the end, and `visits` is what it has noted: what is said here of the steps is
said of every prefix of them as well. -/
structure LaidOut (exif : ExifInfo) (thumbnail target : List UInt8) (visits : List Visit)
    (s : Stream) : Prop where
  runs : Traced.writeDirectories exif thumbnail [] ⟨target, 0⟩ =
    .ok (app1Size exif thumbnail, visits) s
  ok : ∀ v ∈ visits, v.Ok
  forward : (visits.flatMap Visit.offsets).Pairwise (· ≤ ·)
  apart : (visits.map Visit.region).Pairwise Region.Apart
  inside : ∀ v ∈ visits, v.region.Behind 18 ∧ v.region.Inside (app1Size exif thumbnail)
  segment : SegmentAt exif thumbnail s.buf

/-- **The layout of EXIF data.** In a buffer that does not run out, while the directories are written
every table stays inside the room reserved for it, `ifd_value_offset` only moves forward, and the rooms
of the tables, the values and the thumbnail are apart from each other. -/
theorem exif_layout (exif : ExifInfo) (thumbnail target : List UInt8)
    (hroom : app1Size exif thumbnail ≤ target.length) (h32 : target.length < 2 ^ 32) :
    Traces (Traced.writeDirectories exif thumbnail) (writeDirectories exif thumbnail) ∧
      ∃ visits s, LaidOut exif thumbnail target visits s := by
  have htidy := tidy_writeDirectories exif thumbnail
  have htraces := traced_writeDirectories exif thumbnail
  obtain ⟨buf, pos, hrun, -, -⟩ := (follows_writeDirectories exif thumbnail []).fits target 0 rfl
    (Nat.zero_le _) (htidy.fit.mono hroom)
  rw [Plan.writeDirectories_value, List.nil_append] at hrun
  refine ⟨htraces, _, _, hrun, htidy.ok, htidy.forward, htidy.apart, htidy.inside, ?_⟩
  obtain ⟨buf', pos', hrun', -, hseg⟩ := writeDirectories_ok 0 hroom (by omega)
  have hsame := htraces [] ⟨target, 0⟩
  rw [hrun, hrun'] at hsame
  cases hsame
  exact hseg

theorem exif_layout_default :
    Traces (Traced.writeDirectories default []) (writeDirectories default []) ∧
      ∃ visits s, LaidOut default [] (List.replicate 400 0) visits s := by
  have hsize : app1Size default [] = 328 := by decide +kernel
  have hlen : (List.replicate 400 0 : List UInt8).length = 400 := List.length_replicate
  exact exif_layout default [] (List.replicate 400 0) (by omega) (by omega)

end SprdHal.Exif
