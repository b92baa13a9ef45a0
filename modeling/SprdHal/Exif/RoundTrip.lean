import SprdHal.Exif.Reader

/-!
# Which information survives

The reader finds the entries that the writer made, so the question is which blocks of the source make
the entry that the information asks for. They are compared row by row: tags do not repeat in a
directory, so nothing in another row can make up for a wrong one.

Five things go wrong. The size of the picture keeps only its lower half. The words of the subject area
are written as rationals. The destination longitude goes with the bit of the latitude, and the user's
data without a bit. Interoperability information needs an Exif directory.
-/

namespace SprdHal.Exif

open Lib

/-! ## What is found as a table -/

section Found

def Block.row (b : Block) (v : Nat) : Row := ⟨b.present, b.item (UInt32.ofNat (v - 10))⟩

def blocksRows : List Block → Nat → List Row
  | [], _ => []
  | b :: bs, v => b.row v :: blocksRows bs (v + b.size)

theorem shown_blocksRows (bs : List Block) (v : Nat) :
    shown (blocksRows bs v) = blocksItems bs v := by
  induction bs generalizing v with
  | nil => rfl
  | cons b bs ih =>
    rw [blocksRows, shown_cons, blocksItems, ih]
    unfold Block.items Block.row
    cases b.present with
    | true => rfl
    | false => rfl

theorem tags_blocksRows (bs : List Block) (v : Nat) :
    ((blocksRows bs v).map fun r => r.item.tag) = bs.map Block.tag := by
  induction bs generalizing v with
  | nil => rfl
  | cons b bs ih =>
    rw [blocksRows, List.map_cons, List.map_cons, ih]
    rfl

/-- The entries of IFD0 or IFD1 that there may be. -/
def Ifd.rows (d : Ifd) (B : Nat) : List Row :=
  blocksRows (primaryBlocks d.primary) (firstPlace B) ++
    [⟨decide (0 < d.thumbnail.length), pointerItem 0x0201 (d.thumbnailPlace B)⟩,
      longRow (decide (0 < d.thumbnail.length)) 0x0202 (UInt32.ofNat d.thumbnail.length)] ++
    blocksRows (primaryTailBlocks d.primary) (d.tailPlace B) ++
    [⟨d.spec.isSome, pointerItem 0x8769 (d.specPlace B)⟩,
      ⟨d.gps.isSome, pointerItem 0x8825 (d.gpsPlace B)⟩]

theorem shown_isSome {α : Type} (o : Option α) (item : TiffItem) (rows : List Row) :
    shown (⟨o.isSome, item⟩ :: rows) = (o.toList.map fun _ => item) ++ shown rows := by
  cases o with
  | none => rfl
  | some a => rfl

theorem Ifd.shown_rows (d : Ifd) (B : Nat) : shown (d.rows B) = d.items B := by
  unfold Ifd.rows Ifd.items Ifd.itemsWith
  rw [shown_append, shown_append, shown_append, shown_blocksRows, shown_blocksRows, shown_isSome,
    shown_isSome, ← List.append_assoc]
  have hthumb : shown [⟨decide (0 < d.thumbnail.length), pointerItem 0x0201 (d.thumbnailPlace B)⟩,
      longRow (decide (0 < d.thumbnail.length)) 0x0202 (UInt32.ofNat d.thumbnail.length)] =
      thumbnailItems d.thumbnail (UInt32.ofNat (d.thumbnailPlace B - 10)) := by
    unfold thumbnailItems
    by_cases h : 0 < d.thumbnail.length
    · rw [if_pos h, decide_eq_true h]
      rfl
    · rw [if_neg h, decide_eq_false h]
      rfl
  rw [hthumb, show shown [] = [] from rfl, List.append_nil]

/-- The entries of the Exif directory that there may be. -/
def specFound (spec : SpecificInfo) (inter : Option InteroperabilityInfo) (v : Nat) : List Row :=
  blocksRows (specBlocks spec) (v + valuesStart 0 57) ++
    [⟨inter.isSome, pointerItem 0xA005 (interPlace spec v)⟩] ++
    blocksRows (specTailBlocks spec) (interPlace spec v + interSize inter)

theorem shown_specFound (spec : SpecificInfo) (inter : Option InteroperabilityInfo) (v : Nat) :
    shown (specFound spec inter v) = specItems spec inter v := by
  unfold specFound specItems
  rw [shown_append, shown_append, shown_blocksRows, shown_blocksRows, shown_isSome]
  show _ ++ (_ ++ []) ++ _ = _
  rw [List.append_nil]

/-- The columns of tags. -/
def ifdTags : List UInt16 :=
  [0x0103, 0x010E, 0x010F, 0x0110, 0x0112, 0x011A, 0x011B, 0x0128, 0x012D, 0x0131, 0x0132, 0x013B,
    0x013E, 0x013F, 0x0201, 0x0202, 0x0211, 0x0213, 0x0100, 0x0101, 0x0214, 0x8298, 0x8769, 0x8825]

theorem Ifd.tags_rows (d : Ifd) (B : Nat) : ((d.rows B).map fun r => r.item.tag) = ifdTags := by
  unfold Ifd.rows
  rw [List.map_append, List.map_append, List.map_append, tags_blocksRows, tags_blocksRows]
  rfl

theorem Ifd.tags_expected (d : Ifd) : (d.expected.map fun r => r.item.tag) = ifdTags := rfl

theorem tags_specFound (spec : SpecificInfo) (inter : Option InteroperabilityInfo) (v : Nat) :
    ((specFound spec inter v).map fun r => r.item.tag) =
      (specExpected spec inter).map fun r => r.item.tag := by
  unfold specFound
  rw [List.map_append, List.map_append, tags_blocksRows, tags_blocksRows]
  rfl

end Found

/-! ## Reading the segment -/

section Read

variable {rows : List Row} {tag : UInt16}

/-- A tag that is not in the column is not found. -/
theorem find?_shown_of_not_mem (h : tag ∉ rows.map fun r => r.item.tag) :
    (shown rows).find? (fun item => item.tag = tag) = none := by
  rw [List.find?_eq_none]
  intro item hitem htag
  have heq : item.tag = tag := of_decide_eq_true htag
  exact h (heq ▸ tag_mem_of_mem_shown hitem)

/-- A tag is found in its row. -/
theorem find?_shown {r : Row} (hr : r ∈ rows) (hnodup : (rows.map fun r => r.item.tag).Nodup)
    (htag : r.item.tag = tag) : (shown rows).find? (fun item => item.tag = tag) =
      if r.present then some r.item else none := by
  subst htag
  obtain ⟨before, after, rfl⟩ := List.append_of_mem hr
  rw [List.map_append, List.map_cons, List.nodup_append] at hnodup
  obtain ⟨-, hafter, hbefore⟩ := hnodup
  have hnot : r.item.tag ∉ before.map fun r => r.item.tag := fun hmem =>
    hbefore _ hmem _ List.mem_cons_self rfl
  rw [shown_append, List.find?_append, find?_shown_of_not_mem hnot, Option.none_or, shown_cons]
  cases r.present with
  | true => exact List.find?_cons_of_pos (decide_eq_true rfl)
  | false => exact find?_shown_of_not_mem (List.nodup_cons.mp hafter).1

theorem readSub_none {t : List UInt8} {items : List TiffItem}
    (h : items.find? (fun item => item.tag = tag) = none) : readSub t tag items = some [] := by
  unfold readSub
  rw [h]

theorem readSub_some {t : List UInt8} {items found : List TiffItem} {next : UInt32} {v hi : Nat}
    (h : items.find? (fun item => item.tag = tag) = some (pointerItem tag v))
    (hdir : DirAt t 10 v hi found next) (hten : 10 ≤ v) (h32 : v < 2 ^ 32) :
    readSub (t.drop 10) tag items = some found := by
  have hoff : 10 + (UInt32.ofNat (v - 10)).toNat = v := by
    rw [UInt32.toNat_ofNat', Nat.mod_eq_of_lt (by omega)]
    omega
  have hread := readDir_of_dirAt (t := t) (d := 10) (o := (UInt32.ofNat (v - 10)).toNat)
    (by rw [hoff]; exact hdir)
  unfold readSub
  rw [h]
  show (readDir (t.drop 10) (UInt32.ofNat (v - 10)).toNat).map Prod.fst = some found
  rw [hread]
  rfl

/-- The entries of a sub-directory that there may be. -/
theorem readSub_shown {α : Type} {t : List UInt8} {o : Option α} {found : α → List TiffItem}
    {v : Nat} {hi : α → Nat} (hr : ⟨o.isSome, pointerItem tag v⟩ ∈ rows)
    (hnodup : (rows.map fun r => r.item.tag).Nodup)
    (hdir : ∀ a, o = some a → DirAt t 10 v (hi a) (found a) 0) (hten : 10 ≤ v) (h32 : v < 2 ^ 32) :
    readSub (t.drop 10) tag (shown rows) = some ((o.map found).getD []) := by
  have hfind := find?_shown hr hnodup rfl
  cases o with
  | none => exact readSub_none hfind
  | some a => exact readSub_some hfind (hdir a rfl) hten h32

theorem nodup_ifdTags : ifdTags.Nodup := by decide

/-- The tags of the Exif directory. -/
def specTags : List UInt16 :=
  [0x829A, 0x829D, 0x8822, 0x8824, 0x8827, 0x8828, 0x9000, 0x9003, 0x9004, 0x9101, 0x9102, 0x9201,
    0x9202, 0x9203, 0x9204, 0x9205, 0x9206, 0x9207, 0x9208, 0x9209, 0x920A, 0x9214, 0x927C, 0x9286,
    0x9290, 0x9291, 0x9292, 0xA000, 0xA001, 0xA002, 0xA003, 0xA004, 0xA005, 0xA20B, 0xA20C, 0xA20E,
    0xA20F, 0xA210, 0xA214, 0xA215, 0xA217, 0xA300, 0xA301, 0xA302, 0xA401, 0xA402, 0xA403, 0xA404,
    0xA405, 0xA406, 0xA407, 0xA408, 0xA409, 0xA40A, 0xA40B, 0xA40C, 0xA420]

theorem tags_specExpected (spec : SpecificInfo) (inter : Option InteroperabilityInfo) :
    ((specExpected spec inter).map fun r => r.item.tag) = specTags := rfl

theorem nodup_specTags : specTags.Nodup := by decide +kernel

/-- None of the tags `l` is among `ts`. The list is tested and not every 16-bit number. -/
theorem not_mem_of_all {l ts : List UInt16} (h : (l.all fun t => decide (t ∉ ts)) = true) :
    ∀ t ∈ l, t ∉ ts :=
  fun t ht => of_decide_eq_true (List.all_eq_true.mp h t ht)

variable {exif : ExifInfo} {thumbnail segment : List UInt8}

/-- What is found in the Exif directory, the GPS directory and the interoperability directory. -/
def specContent (exif : ExifInfo) : List TiffItem :=
  (exif.spec.map fun spec => specItems spec exif.inter ((ifd0 exif).specPlace 18)).getD []

def gpsContent (exif : ExifInfo) : List TiffItem :=
  (exif.gps.map fun gps => dirItems 31 (gpsBlocks gps) ((ifd0 exif).gpsPlace 18)).getD []

def interContent (exif : ExifInfo) : List TiffItem :=
  match exif.spec with
  | none => []
  | some spec =>
    (exif.inter.map fun inter =>
      dirItems 1 (interBlocks inter) (interPlace spec ((ifd0 exif).specPlace 18))).getD []

def ifd1Content (exif : ExifInfo) (thumbnail : List UInt8) : List TiffItem :=
  if 0 < thumbnail.length then (ifd1 thumbnail).items (ifd0End exif) else []

theorem places_ifd0 (exif : ExifInfo) : 312 ≤ (ifd0 exif).specPlace 18 ∧
    (ifd0 exif).specPlace 18 + (ifd0 exif).specSize = (ifd0 exif).gpsPlace 18 ∧
    (ifd0 exif).gpsPlace 18 + (ifd0 exif).gpsSize = ifd0End exif := by
  obtain ⟨h1, h2, h3, h4, h5⟩ := (ifd0 exif).places 18
  have hfirst : Ifd.firstPlace 18 = 312 := rfl
  have hend : (ifd0 exif).thumbnailPlace 18 + 0 = ifd0End exif := h5
  exact ⟨by omega, h3, by omega⟩

theorem readSub_spec (hseg : SegmentAt exif thumbnail segment)
    (h16 : app1Size exif thumbnail < 65536) :
    readSub (segment.drop 10) 0x8769 ((ifd0 exif).items 18) = some (specContent exif) := by
  have hle := ifd0End_le exif thumbnail
  obtain ⟨h1, h2, h3⟩ := places_ifd0 exif
  rw [← Ifd.shown_rows]
  refine readSub_shown (o := exif.spec)
    (v := (ifd0 exif).specPlace 18) ?_ (by rw [Ifd.tags_rows]; exact nodup_ifdTags)
    (fun spec hspec => (hseg.ifd0.spec spec hspec).dir) (by omega) (by omega)
  exact List.mem_append_right _ List.mem_cons_self

theorem readSub_gps (hseg : SegmentAt exif thumbnail segment)
    (h16 : app1Size exif thumbnail < 65536) :
    readSub (segment.drop 10) 0x8825 ((ifd0 exif).items 18) = some (gpsContent exif) := by
  have hle := ifd0End_le exif thumbnail
  obtain ⟨h1, h2, h3⟩ := places_ifd0 exif
  rw [← Ifd.shown_rows]
  refine readSub_shown (o := exif.gps)
    (v := (ifd0 exif).gpsPlace 18) ?_ (by rw [Ifd.tags_rows]; exact nodup_ifdTags)
    (fun gps hgps => hseg.ifd0.gps gps hgps) (by omega) (by omega)
  exact List.mem_append_right _ (List.mem_cons_of_mem _ List.mem_cons_self)

theorem readSub_inter (hseg : SegmentAt exif thumbnail segment)
    (h16 : app1Size exif thumbnail < 65536) :
    readSub (segment.drop 10) 0xA005 (specContent exif) = some (interContent exif) := by
  have hle := ifd0End_le exif thumbnail
  obtain ⟨h1, h2, h3⟩ := places_ifd0 exif
  unfold specContent interContent
  cases hspec : exif.spec with
  | none => exact readSub_none rfl
  | some spec =>
    have hat := hseg.ifd0.spec spec hspec
    have hsize : (ifd0 exif).specSize = specSize spec exif.inter :=
      Ifd.specSize_of_some (d := ifd0 exif) hspec
    have hplace : (ifd0 exif).specPlace 18 ≤ interPlace spec ((ifd0 exif).specPlace 18) ∧
        interPlace spec ((ifd0 exif).specPlace 18) ≤
          (ifd0 exif).specPlace 18 + specSize spec exif.inter := by
      unfold interPlace specSize
      omega
    show readSub (segment.drop 10) 0xA005
      (specItems spec exif.inter ((ifd0 exif).specPlace 18)) = _
    rw [← shown_specFound]
    refine readSub_shown (o := exif.inter) (v := interPlace spec ((ifd0 exif).specPlace 18)) ?_
      (by rw [tags_specFound, tags_specExpected]; exact nodup_specTags)
      (fun inter hinter => hat.inter inter hinter) (by omega) (by omega)
    exact List.mem_append_left _ (List.mem_append_right _ List.mem_cons_self)

/-- IFD1 is where IFD0 says. -/
theorem readNext_ifd1 (hseg : SegmentAt exif thumbnail segment)
    (h16 : app1Size exif thumbnail < 65536) :
    readNext (segment.drop 10)
        (if 0 < thumbnail.length then UInt32.ofNat (ifd0End exif - 10) else 0) =
      some (ifd1Content exif thumbnail) := by
  have hle := ifd0End_le exif thumbnail
  have hlt : 18 + 294 ≤ ifd0End exif := Ifd.lt_endPlace (ifd0 exif) 18
  unfold readNext ifd1Content
  by_cases hne : 0 < thumbnail.length
  · have hoff : (UInt32.ofNat (ifd0End exif - 10)).toNat = ifd0End exif - 10 := by
      rw [UInt32.toNat_ofNat']
      exact Nat.mod_eq_of_lt (by omega)
    have hzero : UInt32.ofNat (ifd0End exif - 10) ≠ 0 := by
      intro h
      have h := congrArg UInt32.toNat h
      rw [hoff] at h
      have h : ifd0End exif - 10 = 0 := h
      omega
    have hplace : 10 + (ifd0End exif - 10) = ifd0End exif := by omega
    have hread := readDir_of_dirAt (t := segment) (d := 10) (o := ifd0End exif - 10)
      (by rw [hplace]; exact (hseg.ifd1 hne).dir)
    rw [if_pos hne, if_pos hne, if_neg hzero, hoff, hread]
    rfl
  · rw [if_neg hne, if_neg hne, if_pos rfl]

/-- The thumbnail is where IFD1 says. -/
theorem readThumbnail_ifd1 (hlen : segment.length = app1Size exif thumbnail)
    (hseg : SegmentAt exif thumbnail segment) (h16 : app1Size exif thumbnail < 65536) :
    readThumbnail (segment.drop 10) (ifd1Content exif thumbnail) = some thumbnail := by
  unfold ifd1Content
  by_cases hne : 0 < thumbnail.length
  · have hsize : app1Size exif thumbnail = (ifd1 thumbnail).endPlace (ifd0End exif) := if_pos hne
    have hlt : ifd0End exif + 294 ≤ (ifd1 thumbnail).thumbnailPlace (ifd0End exif) := by
      have hfirst : ifd0End exif + 2 + 12 * 24 + 4 ≤ Ifd.firstPlace (ifd0End exif) :=
        le_valuesStart _ 24
      obtain ⟨h1, h2, h3, h4, h5⟩ := (ifd1 thumbnail).places (ifd0End exif)
      omega
    have hend : (ifd1 thumbnail).thumbnailPlace (ifd0End exif) + thumbnail.length =
        app1Size exif thumbnail := by
      rw [hsize]
      rfl
    generalize hplace : (ifd1 thumbnail).thumbnailPlace (ifd0End exif) = place at hlt hend
    have hnodup : (((ifd1 thumbnail).rows (ifd0End exif)).map fun r => r.item.tag).Nodup := by
      rw [Ifd.tags_rows]
      exact nodup_ifdTags
    have hpos : decide (0 < (ifd1 thumbnail).thumbnail.length) = true := decide_eq_true hne
    have h201 : ((ifd1 thumbnail).items (ifd0End exif)).find? (fun item => item.tag = 0x0201) =
        some (pointerItem 0x0201 place) := by
      rw [← Ifd.shown_rows, ← hplace]
      exact (find?_shown (r := ⟨_, _⟩) (List.mem_append_left _ (List.mem_append_left _
        (List.mem_append_right _ List.mem_cons_self))) hnodup rfl).trans (if_pos hpos)
    have h202 : ((ifd1 thumbnail).items (ifd0End exif)).find? (fun item => item.tag = 0x0202) =
        some ⟨0x0202, .long, .longs [UInt32.ofNat thumbnail.length]⟩ := by
      rw [← Ifd.shown_rows]
      exact (find?_shown (r := longRow _ _ _) (List.mem_append_left _ (List.mem_append_left _
        (List.mem_append_right _ (List.mem_cons_of_mem _ List.mem_cons_self)))) hnodup rfl).trans
        (if_pos hpos)
    have hoff : (UInt32.ofNat (place - 10)).toNat = place - 10 := by
      rw [UInt32.toNat_ofNat']
      exact Nat.mod_eq_of_lt (by omega)
    have hn : (UInt32.ofNat thumbnail.length).toNat = thumbnail.length := by
      rw [UInt32.toNat_ofNat']
      exact Nat.mod_eq_of_lt (by omega)
    have hhas : Has segment ((ifd1 thumbnail).thumbnailPlace (ifd0End exif)) thumbnail :=
      (hseg.ifd1 hne).thumbnail
    rw [hplace] at hhas
    rw [show place = 10 + (place - 10) by omega] at hhas
    have hbytes := bytesAt_of_has hhas (by omega)
    rw [if_pos hne]
    unfold readThumbnail
    rw [h201, h202]
    show bytesAt (segment.drop 10) (UInt32.ofNat (place - 10)).toNat
      (UInt32.ofNat thumbnail.length).toNat = some thumbnail
    rw [hoff, hn]
    exact hbytes
  · rw [if_neg hne, List.length_eq_zero_iff.mp (Nat.eq_zero_of_not_pos hne)]
    rfl

theorem guard_bind {α : Type} {p : Prop} [Decidable p] (h : p) (f : Unit → Option α) :
    (guard p >>= f) = f () := by
  rw [guard, if_pos h]
  rfl

/-- **What the reader finds in a segment.** -/
theorem readExif_segment (hlen : segment.length = app1Size exif thumbnail)
    (hhead : Has segment 0 (app1Head (UInt16.ofNat (app1Size exif thumbnail) - 2)))
    (hseg : SegmentAt exif thumbnail segment) (h16 : app1Size exif thumbnail < 65536) :
    readExif segment = some
      { ifd0 := ((ifd0 exif).items 18).map (withoutOffset [0x8769, 0x8825])
        spec := (specContent exif).map (withoutOffset [0xA005])
        gps := gpsContent exif
        inter := interContent exif
        ifd1 := (ifd1Content exif thumbnail).map (withoutOffset [0x0201])
        thumbnail := thumbnail } := by
  have hlt := lt_app1Size exif thumbnail
  have hlength : UInt16.ofNat (app1Size exif thumbnail) - 2 =
      UInt16.ofNat (segment.length - 2) := by
    apply UInt16.toNat_inj.mp
    rw [toNat_app1Length (by omega) (by omega), UInt16.toNat_ofNat', hlen]
    exact (Nat.mod_eq_of_lt (by omega)).symm
  unfold app1Head at hhead
  rw [has_append, has_append] at hhead
  obtain ⟨⟨hmarker, hlen16⟩, hexif⟩ := hhead
  have htiff := hseg.header
  unfold tiffHeader at htiff
  rw [has_append] at htiff
  obtain ⟨hmm, hstart⟩ := htiff
  have g1 : bytesAt segment 0 2 = some [0xFF, 0xE1] :=
    bytesAt_of_has (d := 0) (o := 0) hmarker (by show 0 + 0 + 2 ≤ _; omega)
  have g2 : shortAt segment 2 = some (UInt16.ofNat (segment.length - 2)) := by
    rw [← hlength]
    exact shortAt_of_has (d := 0) (o := 2) hlen16
  have g3 : bytesAt segment 4 6 = some [0x45, 0x78, 0x69, 0x66, 0, 0] :=
    bytesAt_of_has (d := 0) (o := 4) hexif (by show 0 + 4 + 6 ≤ _; omega)
  have g4 : bytesAt (segment.drop 10) 0 4 = some [0x4D, 0x4D, 0x00, 0x2A] :=
    bytesAt_of_has (d := 10) (o := 0) hmm (by show 10 + 0 + 4 ≤ _; omega)
  have g5 : longAt (segment.drop 10) 4 = some 8 := longAt_of_has (d := 10) (o := 4) hstart
  have g6 := readDir_of_dirAt (d := 10) (o := 8) hseg.ifd0.dir
  unfold readExif
  rw [guard_bind g1, guard_bind g2, guard_bind g3]
  dsimp only
  rw [guard_bind g4]
  simp only [Option.bind_eq_bind]
  rw [g5, Option.bind_some, show (8 : UInt32).toNat = 8 from rfl, g6, Option.bind_some]
  simp only
  rw [readSub_spec hseg h16, Option.bind_some, readSub_gps hseg h16, Option.bind_some,
    readSub_inter hseg h16, Option.bind_some, readNext_ifd1 hseg h16, Option.bind_some,
    readThumbnail_ifd1 hlen hseg h16]
  rfl

end Read

/-! ## Row by row -/

section Same

variable {n : Nat} {b : Block} {r : Row} (present : Bool) (tag : UInt16) (v : Nat)

theorem same_of_item (hp : b.present = r.present) (hi : ∀ off, b.item off = r.item) :
    (b.row v).Same r := ⟨hp, fun _ => hi _⟩

theorem same_rational (x : Vector Rational n) :
    ((rationalBlock present tag x).row v).Same (rationalRow present tag x) :=
  same_of_item v rfl (item_rationalBlock present tag x)

theorem same_srational (x : Vector SRational n) :
    ((srationalBlock present tag x).row v).Same (srationalRow present tag x) :=
  same_of_item v rfl (item_srationalBlock present tag x)

theorem same_short (x : Vector UInt16 n) :
    ((shortBlock present tag x).row v).Same (shortRow present tag x) :=
  same_of_item v rfl (item_shortBlock present tag x)

theorem same_long (x : UInt32) : ((longBlock present tag x).row v).Same (longRow present tag x) :=
  same_of_item v rfl (longBlock_item present tag x)

theorem same_byte {type : TiffType} (ht : type = .byte ∨ type = .ascii ∨ type = .undefined)
    (x : Vector UInt8 n) :
    ((byteBlock present tag type x).row v).Same (byteRow present tag type x) := by
  have hlen : x.toList.length = n := Vector.length_toList
  refine same_of_item v rfl fun off => ?_
  rw [item_byte rfl (size_of_bytes ht) (Nat.le_of_eq hlen.symm)]
  show TiffItem.mk tag type (.bytes (x.toList.take n)) = ⟨tag, type, .bytes x.toList⟩
  rw [List.take_of_length_le (Nat.le_of_eq hlen)]

/-- A string with its terminator is all that is taken from the array. -/
theorem take_string (s : AsciiStr) : s.chars.toList.take (getAsciiStringSize s.chars.toList + 1) =
    s.chars.toList.takeWhile (· ≠ 0) ++ [0] := by
  have hlt := getAsciiStringSize_lt s
  have hlen : s.chars.toList.length = 256 := Vector.length_toList
  have hsplit := List.takeWhile_append_dropWhile (p := fun c => decide (c ≠ 0)) (l := s.chars.toList)
  have hrest : s.chars.toList.dropWhile (fun c => decide (c ≠ 0)) ≠ [] := by
    intro h
    rw [h, List.append_nil] at hsplit
    unfold getAsciiStringSize at hlt
    rw [hsplit] at hlt
    omega
  obtain ⟨c, rest, hc⟩ := List.exists_cons_of_ne_nil hrest
  have hzero : c = 0 := by
    have h := List.head_dropWhile_not (fun c => decide (c ≠ 0)) hrest
    simp only [hc, List.head_cons] at h
    exact not_not.mp (of_decide_eq_false h)
  rw [hc, hzero] at hsplit
  unfold getAsciiStringSize
  conv_lhs =>
    arg 2
    rw [← hsplit]
  rw [List.take_length_add_append]
  rfl

theorem same_string (s : AsciiStr) :
    ((stringBlock present tag s).row v).Same (stringRow present tag s) := by
  have hlt := getAsciiStringSize_lt s
  have hlen : s.chars.toList.length = 256 := Vector.length_toList
  refine same_of_item v rfl fun off => ?_
  rw [item_byte rfl rfl (show getAsciiStringSize s.chars.toList + 1 ≤ s.chars.toList.length by omega)]
  show TiffItem.mk tag .ascii (.bytes (s.chars.toList.take _)) = _
  rw [show (stringBlock present tag s).count = getAsciiStringSize s.chars.toList + 1 from rfl,
    take_string]
  rfl

theorem same_countedBytes {type : TiffType} (ht : type = .byte ∨ type = .ascii ∨ type = .undefined)
    (c : Custom 1) : ((customBlock present tag type .byte c).row v).Same
      (countedBytesRow present tag type c) := by
  have hfits := c.fits
  have hlen : c.ptr.toList.length = 256 := Vector.length_toList
  refine same_of_item v rfl fun off => ?_
  rw [item_byte rfl (size_of_bytes ht) (show c.count.toNat ≤ c.ptr.toList.length by omega)]
  rfl

theorem same_countedShorts (c : Custom 2) :
    ((customBlock present tag .short .short c).row v).Same (countedShortsRow present tag c) :=
  same_of_item v rfl fun off => item_short rfl rfl off

/-- The size of the picture survives if its upper half is 0. -/
theorem same_imageSize (l : UInt32) :
    ((imageSizeBlock tag l).row v).Same (longRow true tag l) ↔ l.toNat < 65536 := by
  have hitem : ((imageSizeBlock tag l).row v).item =
      ⟨tag, .long, .longs [UInt32.ofNat (l.toNat % 65536)]⟩ := item_imageSize tag l _
  have hnat : (UInt32.ofNat (l.toNat % 65536)).toNat = l.toNat % 65536 := by
    rw [UInt32.toNat_ofNat']
    exact Nat.mod_eq_of_lt (by omega)
  constructor
  · intro h
    have heq := hitem.symm.trans (h.2 rfl)
    have hl : UInt32.ofNat (l.toNat % 65536) = l := by
      simpa only [longRow, TiffItem.mk.injEq, TiffValue.longs.injEq, List.cons.injEq, and_true,
        true_and] using heq
    rw [← hl, hnat]
    exact Nat.mod_lt _ (by decide)
  · intro h
    refine ⟨rfl, fun _ => ?_⟩
    rw [hitem]
    have hl : UInt32.ofNat (l.toNat % 65536) = l := by
      apply UInt32.toNat_inj.mp
      rw [hnat]
      exact Nat.mod_eq_of_lt h
    rw [hl]
    rfl

/-- An entry with the bit of another one. -/
theorem same_rational_other (present' : Bool) (x : Vector Rational n) :
    ((rationalBlock present tag x).row v).Same (rationalRow present' tag x) ↔ present' = present :=
  ⟨fun h => h.1.symm, fun h => h ▸ same_rational present' tag v x⟩

/-- An entry without its bit. -/
theorem same_countedBytes_without {type : TiffType}
    (ht : type = .byte ∨ type = .ascii ∨ type = .undefined) (bit : Bool) (c : Custom 1) :
    ((customBlock present tag type .byte c).row v).Same
        (countedBytesRow (present && bit) tag type c) ↔
      (present = true → 0 < c.count → bit = true) := by
  constructor
  · intro h hp hc
    have h1 : (present && decide (0 < c.count)) = (present && bit && decide (0 < c.count)) := h.1
    rw [hp, decide_eq_true hc] at h1
    simpa only [Bool.true_and, Bool.and_true, eq_comm] using h1
  · intro h
    have hsame := same_countedBytes present tag v ht c
    refine ⟨hsame.1.trans ?_, hsame.2⟩
    show (present && decide (0 < c.count)) = (present && bit && decide (0 < c.count))
    cases present with
    | false => rfl
    | true =>
      by_cases hc : 0 < c.count
      · rw [h rfl hc]
        rfl
      · rw [decide_eq_false hc, Bool.and_false, Bool.and_false]

/-- The words of a counted array that was written as rationals, at `off` from the TIFF header, are still
the same: one or two of them are the offset, more of them are equal to their neighbours. -/
def Custom.SurvivesSwap (c : Custom 2) (off : UInt32) : Prop :=
  if c.count.toNat ≤ 2 then
    c.words = [UInt16.ofNat (off.toNat % 65536), UInt16.ofNat (off.toNat / 65536)].take c.count.toNat
  else ∀ k, k < c.count.toNat →
    leShort c.ptr.toList (2 * k) = leShort c.ptr.toList (2 * neighbour k)

theorem swappedWords_eq_iff (c : Custom 2) (off : UInt32) :
    swappedWords c.ptr.toList c.count.toNat off = c.words ↔ c.SurvivesSwap off := by
  unfold swappedWords Custom.SurvivesSwap
  by_cases h2 : c.count.toNat ≤ 2
  · rw [if_pos h2, if_pos h2]
    exact eq_comm
  · rw [if_neg h2, if_neg h2]
    unfold Custom.words shortsAt
    rw [List.map_inj_left]
    simp only [List.mem_range, eq_comm]

theorem same_swapped (c : Custom 2) :
    ((customBlock present tag .short .rational c).row v).Same (countedShortsRow present tag c) ↔
      (present = true → 0 < c.count → c.SurvivesSwap (UInt32.ofNat (v - 10))) := by
  have hitem : ((customBlock present tag .short .rational c).row v).item = ⟨tag, .short,
      .shorts (swappedWords c.ptr.toList c.count.toNat (UInt32.ofNat (v - 10)))⟩ :=
    item_swapped rfl rfl _
  constructor
  · intro h hp hc
    have hpresent : ((customBlock present tag .short .rational c).row v).present = true := by
      show (present && decide (0 < c.count)) = true
      rw [hp, decide_eq_true hc]
      rfl
    have heq := hitem.symm.trans (h.2 hpresent)
    rw [← swappedWords_eq_iff]
    simpa only [countedShortsRow, TiffItem.mk.injEq, TiffValue.shorts.injEq, true_and] using heq
  · intro h
    refine ⟨rfl, fun hp => ?_⟩
    have hp : (present && decide (0 < c.count)) = true := hp
    rw [Bool.and_eq_true] at hp
    have hwords := (swappedWords_eq_iff c _).mpr (h hp.1 (of_decide_eq_true hp.2))
    rw [hitem, hwords]
    rfl

end Same

/-! ## Table by table -/

section Tables

open List (Forall₂)

variable (v : Nat)

theorem same_primaryRows (primary : PrimaryInfo) :
    Forall₂ Row.Same (blocksRows (primaryBlocks primary) v) (primaryRows primary) := by
  simp [primaryBlocks, primaryRows, blocksRows, same_short, same_string, same_rational, same_byte]

theorem same_primaryTailRows (primary : PrimaryInfo) :
    Forall₂ Row.Same (blocksRows (primaryTailBlocks primary) v) (primaryTailRows primary) ↔
      primary.basic.imageWidth.toNat < 65536 ∧ primary.basic.imageLength.toNat < 65536 := by
  simp [primaryTailBlocks, primaryTailRows, blocksRows, same_short, same_string, same_rational,
    same_imageSize]

/-- Where the value of the entry with a tag goes. -/
def placeOf (tag : UInt16) : List Block → Nat → Nat
  | [], v => v
  | b :: bs, v => if b.tag = tag then v else placeOf tag bs (v + b.size)

/-- The entries of the Exif directory survive. -/
structure SpecificInfo.Survives (spec : SpecificInfo) (v : Nat) : Prop where
  subjectArea : spec.picTakingCond.isSome = true →
    (spec.picTakingCond.getD default).valid.subjectArea = true →
    0 < (spec.picTakingCond.getD default).subjectArea.count →
    (spec.picTakingCond.getD default).subjectArea.SurvivesSwap
      (UInt32.ofNat (placeOf 0x9214 (specBlocks spec) v - 10))
  makerNote : spec.user.isSome = true → 0 < (spec.user.getD default).makerNote.count →
    (spec.user.getD default).valid.makerNote = true
  userComment : spec.user.isSome = true → 0 < (spec.user.getD default).userComment.count →
    (spec.user.getD default).valid.userComment = true

theorem same_specRows (spec : SpecificInfo) :
    Forall₂ Row.Same (blocksRows (specBlocks spec) v) (specRows spec) ↔ spec.Survives v := by
  simp only [specBlocks, specRows, blocksRows, List.forall₂_cons, List.Forall₂.nil,
    same_short, same_string, same_rational, same_srational, same_byte, same_countedBytes,
    same_countedShorts, same_long, same_countedBytes_without, same_swapped, reduceCtorEq, or_true,
    or_false, true_and, and_true, Bool.and_eq_true, and_imp]
  constructor
  · rintro ⟨h1, h2, h3⟩
    exact ⟨h1, h2, h3⟩
  · exact fun h => ⟨h.1, h.2, h.3⟩

theorem same_specTailRows (spec : SpecificInfo) :
    Forall₂ Row.Same (blocksRows (specTailBlocks spec) v) (specTailRows spec) := by
  simp [specTailBlocks, specTailRows, blocksRows, same_short, same_rational, same_byte,
    same_countedBytes]

theorem same_gpsRows (gps : GpsInfo) :
    Forall₂ Row.Same (blocksRows (gpsBlocks gps) v) (gpsRows gps) ↔
      gps.valid.gpsDestLongitude = gps.valid.gpsDestLatitude := by
  simp only [gpsBlocks, gpsRows, blocksRows, List.forall₂_cons, List.Forall₂.nil,
    same_short, same_string, same_rational_other, same_byte, same_countedBytes, reduceCtorEq,
    or_true, or_false, true_and, and_true]

theorem same_interRows (inter : InteroperabilityInfo) :
    Forall₂ Row.Same (blocksRows (interBlocks inter) v) (interRows inter) :=
  .cons (same_countedBytes _ _ _ (.inr (.inl rfl)) _) .nil

theorem forall₂_append_iff {α : Type} {R : α → α → Prop} {a b c d : List α}
    (h : a.length = c.length) : Forall₂ R (a ++ b) (c ++ d) ↔ Forall₂ R a c ∧ Forall₂ R b d := by
  induction a generalizing c with
  | nil =>
    rw [List.length_nil, eq_comm, List.length_eq_zero_iff] at h
    subst h
    exact ⟨fun hb => ⟨.nil, hb⟩, fun hb => hb.2⟩
  | cons x a ih =>
    cases c with
    | nil => cases h
    | cons y c =>
      rw [List.cons_append, List.cons_append, List.forall₂_cons, List.forall₂_cons,
        ih (Nat.succ.inj h), and_assoc]

theorem length_blocksRows (bs : List Block) : (blocksRows bs v).length = bs.length := by
  have h := congrArg List.length (tags_blocksRows bs v)
  rw [List.length_map, List.length_map] at h
  exact h

/-- A row without the offset. -/
def Row.withoutOffset (tags : List UInt16) (r : Row) : Row :=
  ⟨r.present, Exif.withoutOffset tags r.item⟩

theorem map_shown (tags : List UInt16) (rows : List Row) :
    (shown rows).map (withoutOffset tags) = shown (rows.map (Row.withoutOffset tags)) := by
  induction rows with
  | nil => rfl
  | cons r rows ih =>
    rw [shown_cons, List.map_cons, shown_cons, ← ih]
    show _ = if r.present then _ else _
    cases r.present with
    | true => rfl
    | false => rfl

theorem tags_withoutOffset (tags : List UInt16) (rows : List Row) :
    ((rows.map (Row.withoutOffset tags)).map fun r => r.item.tag) =
      rows.map fun r => r.item.tag := by
  rw [List.map_map]
  refine List.map_congr_left fun r _ => ?_
  show (withoutOffset tags r.item).tag = r.item.tag
  unfold withoutOffset
  split
  · rfl
  · rfl

/-- Blocks do not make pointers. -/
theorem map_blocksRows {tags : List UInt16} {bs : List Block}
    (h : ∀ t ∈ bs.map Block.tag, t ∉ tags) :
    (blocksRows bs v).map (Row.withoutOffset tags) = blocksRows bs v := by
  induction bs generalizing v with
  | nil => rfl
  | cons b bs ih =>
    rw [List.map_cons, List.forall_mem_cons] at h
    rw [blocksRows, List.map_cons, ih _ h.2]
    congr 1
    have hitem : withoutOffset tags (b.item (UInt32.ofNat (v - 10))) =
        b.item (UInt32.ofNat (v - 10)) := if_neg h.1
    exact congrArg (Row.mk b.present) hitem

theorem perm_iff_same {rows expected : List Row} {column : List UInt16} (tags : List UInt16)
    (hrows : (rows.map fun r => r.item.tag) = column)
    (hexpected : (expected.map fun r => r.item.tag) = column) (hnodup : column.Nodup) :
    ((shown rows).map (withoutOffset tags)).Perm (shown expected) ↔
      Forall₂ Row.Same (rows.map (Row.withoutOffset tags)) expected := by
  rw [map_shown]
  exact perm_shown_iff (by rw [tags_withoutOffset, hrows, hexpected]) (by rw [hexpected]; exact hnodup)

/-- An entry with an offset that does not count is the same, if it is there. -/
theorem same_pointer {tags : List UInt16} {tag : UInt16} (present : Bool)
    (h : present = true → tag ∈ tags) :
    (Row.withoutOffset tags ⟨present, pointerItem tag v⟩).Same (pointerRow present tag) := by
  refine ⟨rfl, fun hp => ?_⟩
  show withoutOffset tags (pointerItem tag v) = ⟨tag, .long, .longs []⟩
  exact if_pos (h hp)

/-- **IFD0 and IFD1** survive if the size of the picture does. -/
theorem Ifd.perm_iff (d : Ifd) (B : Nat) {tags : List UInt16}
    (hblocks : ∀ t ∈ (primaryBlocks d.primary).map Block.tag, t ∉ tags)
    (htail : ∀ t ∈ (primaryTailBlocks d.primary).map Block.tag, t ∉ tags)
    (hlength : 0x0202 ∉ tags) (hthumb : 0 < d.thumbnail.length → 0x0201 ∈ tags)
    (hspec : d.spec.isSome = true → 0x8769 ∈ tags) (hgps : d.gps.isSome = true → 0x8825 ∈ tags) :
    ((d.items B).map (withoutOffset tags)).Perm (shown d.expected) ↔
      d.primary.basic.imageWidth.toNat < 65536 ∧ d.primary.basic.imageLength.toNat < 65536 := by
  have hthumbs : Forall₂ Row.Same
      (List.map (Row.withoutOffset tags)
        [⟨decide (0 < d.thumbnail.length), pointerItem 0x0201 (d.thumbnailPlace B)⟩,
          longRow (decide (0 < d.thumbnail.length)) 0x0202 (UInt32.ofNat d.thumbnail.length)])
      [pointerRow (decide (0 < d.thumbnail.length)) 0x0201,
        longRow (decide (0 < d.thumbnail.length)) 0x0202 (UInt32.ofNat d.thumbnail.length)] := by
    refine .cons (same_pointer _ _ fun h => hthumb (of_decide_eq_true h)) (.cons ⟨rfl, fun _ => ?_⟩ .nil)
    exact if_neg hlength
  have hpointers : Forall₂ Row.Same
      (List.map (Row.withoutOffset tags) [⟨d.spec.isSome, pointerItem 0x8769 (d.specPlace B)⟩,
        ⟨d.gps.isSome, pointerItem 0x8825 (d.gpsPlace B)⟩])
      [pointerRow d.spec.isSome 0x8769, pointerRow d.gps.isSome 0x8825] :=
    .cons (same_pointer _ _ hspec) (.cons (same_pointer _ _ hgps) .nil)
  rw [← Ifd.shown_rows, perm_iff_same tags (d.tags_rows B) d.tags_expected nodup_ifdTags]
  unfold Ifd.rows Ifd.expected
  rw [List.map_append, List.map_append, List.map_append, map_blocksRows _ hblocks,
    map_blocksRows _ htail, forall₂_append_iff, forall₂_append_iff, forall₂_append_iff,
    same_primaryTailRows]
  · exact ⟨fun h => h.1.2, fun h => ⟨⟨⟨same_primaryRows _ _, hthumbs⟩, h⟩, hpointers⟩⟩
  · rw [length_blocksRows]
    rfl
  · rw [List.length_append, length_blocksRows]
    rfl
  · rw [List.length_append, List.length_append, length_blocksRows, length_blocksRows]
    rfl

/-- **The Exif directory.** -/
theorem spec_perm_iff (spec : SpecificInfo) (inter : Option InteroperabilityInfo) :
    ((specItems spec inter v).map (withoutOffset [0xA005])).Perm
        (shown (specExpected spec inter)) ↔ spec.Survives (v + valuesStart 0 57) := by
  rw [← shown_specFound, perm_iff_same _ ((tags_specFound spec inter v).trans
    (tags_specExpected spec inter)) (tags_specExpected spec inter) nodup_specTags]
  have hpointer : Forall₂ Row.Same
      (List.map (Row.withoutOffset [0xA005]) [⟨inter.isSome, pointerItem 0xA005 (interPlace spec v)⟩])
      [pointerRow inter.isSome 0xA005] :=
    .cons (same_pointer _ _ fun _ => List.mem_singleton_self _) .nil
  have hblocks : ∀ t ∈ (specBlocks spec).map Block.tag, t ∉ [(0xA005 : UInt16)] :=
    not_mem_of_all (l := specTags.take 32) (by decide)
  have htail : ∀ t ∈ (specTailBlocks spec).map Block.tag, t ∉ [(0xA005 : UInt16)] :=
    not_mem_of_all (l := specTags.drop 33) (by decide)
  unfold specFound specExpected
  rw [List.map_append, List.map_append, map_blocksRows _ hblocks, map_blocksRows _ htail,
    forall₂_append_iff, forall₂_append_iff, same_specRows]
  · exact ⟨fun h => h.1.1, fun h => ⟨⟨h, hpointer⟩, same_specTailRows _ _⟩⟩
  · rw [length_blocksRows]
    rfl
  · rw [List.length_append, length_blocksRows]
    rfl

/-- **The GPS directory.** -/
theorem gps_perm_iff (gps : GpsInfo) :
    (dirItems 31 (gpsBlocks gps) v).Perm (shown (gpsRows gps)) ↔
      gps.valid.gpsDestLongitude = gps.valid.gpsDestLatitude := by
  have hcolumn : ((gpsRows gps).map fun r => r.item.tag) = (List.range 31).map UInt16.ofNat := rfl
  unfold dirItems
  rw [← shown_blocksRows, perm_shown_iff (by rw [tags_blocksRows]; rfl)
    (by rw [hcolumn]; decide), same_gpsRows]

/-- **The interoperability directory**, if it is written. -/
theorem inter_eq (inter : InteroperabilityInfo) :
    dirItems 1 (interBlocks inter) v = shown (interRows inter) := by
  unfold dirItems
  rw [← shown_blocksRows, shown_of_same (same_interRows _ inter)]

end Tables

/-! ## The round trip -/

/-- The information survives: the picture is smaller than 65536 in both directions, the subject area
survives being written as rationals, the user's data have their bits set, the destination longitude
goes with the latitude, and interoperability information does not come without EXIF information. -/
structure Survives (exif : ExifInfo) : Prop where
  imageWidth : exif.primary.basic.imageWidth.toNat < 65536
  imageLength : exif.primary.basic.imageLength.toNat < 65536
  spec : ∀ spec, exif.spec = some spec →
    spec.Survives ((ifd0 exif).specPlace 18 + valuesStart 0 57)
  gps : ∀ gps, exif.gps = some gps → gps.valid.gpsDestLongitude = gps.valid.gpsDestLatitude
  inter : exif.spec = none → ∀ inter, exif.inter = some inter →
    inter.validInteroperabilityIndex = true → ¬ 0 < inter.interoperabilityIndex.count

section RoundTrip

variable {exif : ExifInfo} {thumbnail : List UInt8} {s : Stream}

/-- What the reader finds. -/
def foundContent (exif : ExifInfo) (thumbnail : List UInt8) : ExifContent where
  ifd0 := ((ifd0 exif).items 18).map (withoutOffset [0x8769, 0x8825])
  spec := (specContent exif).map (withoutOffset [0xA005])
  gps := gpsContent exif
  inter := interContent exif
  ifd1 := (ifd1Content exif thumbnail).map (withoutOffset [0x0201])
  thumbnail := thumbnail

/-- With room for the segment it is written, and read. -/
theorem roundTrips_iff_matches (hlen : app1Size exif thumbnail ≤ s.buf.length)
    (h16 : app1Size exif thumbnail < 65536) :
    RoundTrips exif thumbnail s ↔ (foundContent exif thumbnail).Matches exif thumbnail := by
  obtain ⟨buf, pos⟩ := s
  obtain ⟨buf', pos', hrun, hlen', hhead, hseg⟩ := writeAPP1_ok pos hlen h16
  have hlt := lt_app1Size exif thumbnail
  have hlen : app1Size exif thumbnail ≤ buf.length := hlen
  have htake : ∀ k, k < app1Size exif thumbnail →
      (buf'.take (app1Size exif thumbnail))[k]? = buf'[k]? :=
    fun k hk => List.getElem?_take_of_lt hk
  have hlength : (buf'.take (app1Size exif thumbnail)).length = app1Size exif thumbnail := by
    rw [List.length_take]
    omega
  have hread := readExif_segment hlength
    (hhead.congr fun k _ hk => htake k (by
      have hk : k < 0 + 10 := hk
      omega))
    (hseg.congr fun k _ hk => htake k hk) h16
  constructor
  · rintro ⟨size, s', found, hrun', hread', hmatch⟩
    obtain ⟨rfl, rfl⟩ := EStateM.Result.ok.inj (hrun.symm.trans hrun')
    have hfound := Option.some.inj (hread.symm.trans hread')
    rw [← hfound] at hmatch
    exact hmatch
  · exact fun hmatch => ⟨_, _, _, hrun, hread, hmatch⟩

theorem ifd0_perm_iff (exif : ExifInfo) (thumbnail : List UInt8) :
    (foundContent exif thumbnail).ifd0.Perm (shown (ifd0 exif).expected) ↔
      exif.primary.basic.imageWidth.toNat < 65536 ∧
        exif.primary.basic.imageLength.toNat < 65536 :=
  Ifd.perm_iff (ifd0 exif) 18 (not_mem_of_all (l := ifdTags.take 14) (by decide))
    (not_mem_of_all (l := (ifdTags.drop 16).take 6) (by decide)) (by decide)
    (fun h => absurd h (Nat.lt_irrefl 0)) (fun _ => by decide) (fun _ => by decide)

/-- The size of the thumbnail's picture is not given, so IFD1 survives. -/
theorem ifd1_perm (thumbnail : List UInt8) (B : Nat) :
    (((ifd1 thumbnail).items B).map (withoutOffset [0x0201])).Perm
      (shown (ifd1 thumbnail).expected) :=
  (Ifd.perm_iff (ifd1 thumbnail) B (not_mem_of_all (l := ifdTags.take 14) (by decide))
    (not_mem_of_all (l := (ifdTags.drop 16).take 6) (by decide)) (by decide) (fun _ => by decide)
    nofun nofun).mpr ⟨Nat.zero_lt_succ _, Nat.zero_lt_succ _⟩

theorem spec_content_iff (exif : ExifInfo) (thumbnail : List UInt8) :
    (foundContent exif thumbnail).spec.Perm
        ((exif.spec.map fun spec => shown (specExpected spec exif.inter)).getD []) ↔
      ∀ spec, exif.spec = some spec →
        spec.Survives ((ifd0 exif).specPlace 18 + valuesStart 0 57) := by
  show ((specContent exif).map (withoutOffset [0xA005])).Perm _ ↔ _
  unfold specContent
  generalize (ifd0 exif).specPlace 18 = place
  cases exif.spec with
  | none => exact ⟨fun _ spec hspec => (nomatch hspec), fun _ => .nil⟩
  | some spec =>
    rw [Option.map_some, Option.map_some, Option.getD_some, Option.getD_some, spec_perm_iff]
    exact ⟨fun h _ heq => Option.some.inj heq ▸ h, fun h => h spec rfl⟩

theorem gps_content_iff (exif : ExifInfo) (thumbnail : List UInt8) :
    (foundContent exif thumbnail).gps.Perm
        ((exif.gps.map fun gps => shown (gpsRows gps)).getD []) ↔
      ∀ gps, exif.gps = some gps → gps.valid.gpsDestLongitude = gps.valid.gpsDestLatitude := by
  show (gpsContent exif).Perm _ ↔ _
  unfold gpsContent
  generalize (ifd0 exif).gpsPlace 18 = place
  cases exif.gps with
  | none => exact ⟨fun _ gps hgps => (nomatch hgps), fun _ => .nil⟩
  | some gps =>
    rw [Option.map_some, Option.map_some, Option.getD_some, Option.getD_some, gps_perm_iff]
    exact ⟨fun h _ heq => Option.some.inj heq ▸ h, fun h => h gps rfl⟩

/-- The only entry of the interoperability directory. -/
theorem shown_interRows_eq_nil (inter : InteroperabilityInfo) :
    shown (interRows inter) = [] ↔
      (inter.validInteroperabilityIndex = true → ¬ 0 < inter.interoperabilityIndex.count) := by
  unfold interRows
  rw [shown_cons]
  show (if (inter.validInteroperabilityIndex && decide (0 < inter.interoperabilityIndex.count)) = true
    then _ else []) = [] ↔ _
  cases inter.validInteroperabilityIndex with
  | false => exact ⟨fun _ => nofun, fun _ => rfl⟩
  | true =>
    by_cases h : 0 < inter.interoperabilityIndex.count
    · rw [decide_eq_true h]
      exact ⟨nofun, fun hn => absurd h (hn rfl)⟩
    · rw [decide_eq_false h]
      exact ⟨fun _ _ => h, fun _ => rfl⟩

theorem inter_content_iff (exif : ExifInfo) (thumbnail : List UInt8) :
    (foundContent exif thumbnail).inter.Perm
        ((exif.inter.map fun inter => shown (interRows inter)).getD []) ↔
      (exif.spec = none → ∀ inter, exif.inter = some inter →
        inter.validInteroperabilityIndex = true → ¬ 0 < inter.interoperabilityIndex.count) := by
  show (interContent exif).Perm _ ↔ _
  unfold interContent
  generalize (ifd0 exif).specPlace 18 = place
  cases exif.spec with
  | none =>
    cases exif.inter with
    | none => exact ⟨fun _ _ inter hinter => (nomatch hinter), fun _ => .nil⟩
    | some inter =>
      rw [Option.map_some, Option.getD_some, List.nil_perm, shown_interRows_eq_nil]
      exact ⟨fun h _ _ heq => Option.some.inj heq ▸ h, fun h => h rfl inter rfl⟩
  | some spec =>
    cases exif.inter with
    | none => exact ⟨fun _ hspec => (nomatch hspec), fun _ => .nil⟩
    | some inter =>
      simp only [Option.map_some, Option.getD_some, inter_eq]
      exact ⟨fun _ hspec => (nomatch hspec), fun _ => .refl _⟩

/-- **A reader finds what the information asks for if and only if the information survives.** -/
theorem exif_round_trip_iff (exif : ExifInfo) (thumbnail : List UInt8) (s : Stream)
    (hlen : app1Size exif thumbnail ≤ s.buf.length) (h16 : app1Size exif thumbnail < 65536) :
    RoundTrips exif thumbnail s ↔ Survives exif := by
  rw [roundTrips_iff_matches hlen h16]
  constructor
  · intro h
    obtain ⟨hwidth, hlength⟩ := (ifd0_perm_iff exif thumbnail).mp h.ifd0
    exact ⟨hwidth, hlength, (spec_content_iff exif thumbnail).mp h.spec,
      (gps_content_iff exif thumbnail).mp h.gps, (inter_content_iff exif thumbnail).mp h.inter⟩
  · intro h
    refine ⟨(ifd0_perm_iff exif thumbnail).mpr ⟨h.imageWidth, h.imageLength⟩,
      (spec_content_iff exif thumbnail).mpr h.spec, (gps_content_iff exif thumbnail).mpr h.gps,
      (inter_content_iff exif thumbnail).mpr h.inter, ?_, rfl⟩
    unfold foundContent ifd1Content
    by_cases hne : 0 < thumbnail.length
    · simp only [if_pos hne]
      exact ifd1_perm thumbnail _
    · simp only [if_neg hne]
      exact .refl _

/-- A picture that is 65536 wide. -/
def wideExif : ExifInfo where
  primary := { (default : PrimaryInfo) with basic := { (default : PriBasic) with imageWidth := 65536 } }
  spec := none
  gps := none
  inter := none

/-- An empty buffer with room for the least information. -/
def roomyStream : Stream := ⟨List.replicate 400 0, 0⟩

/-- Its width is found as 0. -/
theorem wideExif_not_roundTrips : app1Size wideExif [] ≤ roomyStream.buf.length ∧
    app1Size wideExif [] < 65536 ∧ ¬ RoundTrips wideExif [] roomyStream := by
  have hsize : app1Size wideExif [] = 328 := by decide +kernel
  have hroom : roomyStream.buf.length = 400 := List.length_replicate
  refine ⟨by omega, by omega, fun h => ?_⟩
  have hmatch := (roundTrips_iff_matches (by omega) (by omega)).mp h
  exact absurd ((ifd0_perm_iff wideExif []).mp hmatch.ifd0).1 (by decide)

theorem exif_round_trip_default : app1Size default [] ≤ roomyStream.buf.length ∧
    app1Size default [] < 65536 ∧ RoundTrips default [] roomyStream := by
  have hsize : app1Size default [] = 328 := by decide +kernel
  have hroom : roomyStream.buf.length = 400 := List.length_replicate
  have hlen : app1Size default [] ≤ roomyStream.buf.length := by omega
  have h16 : app1Size default [] < 65536 := by omega
  refine ⟨hlen, h16, (exif_round_trip_iff default [] roomyStream hlen h16).mpr ?_⟩
  exact ⟨Nat.zero_lt_succ _, Nat.zero_lt_succ _, fun _ h => (nomatch h), fun _ h => (nomatch h),
    fun _ _ h => (nomatch h)⟩

end RoundTrip

end SprdHal.Exif
