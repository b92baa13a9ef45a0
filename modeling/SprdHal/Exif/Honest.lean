import SprdHal.Exif.Plan

/-!
# When success is the truth

`Jpeg_WriteAPP1` returns success for a segment that is not what it should be if a string or an array
finds no room, since `JPEG_FAILED` is not `FALSE`, if a directory starts behind the buffer, since the
result of `Jpeg_SetWritePos` is not looked at, and if the segment is too long for a length of 16 bits.
In all other cases what it reports is true (`app1_truthful`).
-/

namespace SprdHal.Exif

open Lib

/-- What success says: everything is at its place, and the length is that of the segment. -/
structure Written (exif : ExifInfo) (thumbnail : List UInt8) (n : Nat) (buf : List UInt8) : Prop where
  size : n = app1Size exif thumbnail
  inside : n ≤ buf.length
  length : n - 2 < 65536
  head : Has buf 0 (app1Head (UInt16.ofNat (n - 2)))
  segment : SegmentAt exif thumbnail buf

def Truthful (exif : ExifInfo) (thumbnail target : List UInt8) : Prop :=
  ∀ n s, writeAPP1 (some exif) thumbnail ⟨target, 0⟩ = .ok n s → Written exif thumbnail n s.buf

/-- No byte is stored outside of the target. -/
def StoresInside (exif : ExifInfo) (thumbnail target : List UInt8) : Prop :=
  ∃ p : Prog Nat, p.run = writeAPP1 (some exif) thumbnail ∧
    ∀ a ∈ p.stores ⟨target, 0⟩, a < target.length

/-- What the segment asks of the target, which has to have ten bytes. -/
def app1Demands (exif : ExifInfo) (thumbnail : List UInt8) : List Demand :=
  ⟨true, 10⟩ :: (Plan.writeDirectories exif thumbnail).demands

/-- Everything has room and the length fits, or the first write without room is one whose failure is
reported. -/
def Honest (exif : ExifInfo) (thumbnail : List UInt8) (size : Nat) : Prop :=
  app1Size exif thumbnail ≤ size ∧ app1Size exif thumbnail ≤ 65537 ∨
    size < app1Size exif thumbnail ∧ Reported size (app1Demands exif thumbnail)

section Honest

variable {exif : ExifInfo} {thumbnail target : List UInt8}

theorem stores_inside (exif : ExifInfo) (thumbnail target : List UInt8) :
    StoresInside exif thumbnail target := by
  obtain ⟨p, hp⟩ := writeAPP1_programmed (some exif) thumbnail
  exact ⟨p, hp, p.stores_inside ⟨target, 0⟩⟩

/-- The length of a segment, as it is written. -/
theorem app1Length_eq {e : Nat} (h : 2 ≤ e) : UInt16.ofNat e - 2 = UInt16.ofNat (e - 2) := by
  have hsum : UInt16.ofNat e = UInt16.ofNat (e - 2) + 2 := by
    rw [← Nat.sub_add_cancel h, UInt16.ofNat_add, Nat.add_sub_cancel]
    rfl
  rw [hsum, UInt16.add_sub_cancel]

theorem truthful_of_room (hroom : app1Size exif thumbnail ≤ target.length)
    (h32 : target.length < 2 ^ 32) :
    Truthful exif thumbnail target ↔ app1Size exif thumbnail ≤ 65537 := by
  have hlt := lt_app1Size exif thumbnail
  obtain ⟨buf, pos, hrun, hlen, hhead, hseg⟩ := writeAPP1_room 0 hroom (by omega)
  have hlength : (UInt16.ofNat (app1Size exif thumbnail) - 2).toNat =
      (app1Size exif thumbnail - 2) % 65536 := by
    rw [app1Length_eq (by omega), UInt16.toNat_ofNat']
  rw [hlength] at hrun
  constructor
  · intro h
    have hsize := (h _ _ hrun).size
    omega
  · intro h16 n s hok
    obtain ⟨rfl, rfl⟩ := EStateM.Result.ok.inj (hrun.symm.trans hok)
    have hn : (app1Size exif thumbnail - 2) % 65536 + 2 = app1Size exif thumbnail := by omega
    rw [hn]
    rw [app1Length_eq (by omega)] at hhead
    exact ⟨rfl, hlen ▸ hroom, by omega, hhead, hseg⟩

/-- The failure of a write is reported. -/
theorem writeAPP1_reported (h : Reported target.length (app1Demands exif thumbnail)) :
    ∃ e s, writeAPP1 (some exif) thumbnail ⟨target, 0⟩ = .error e s := by
  rw [app1Demands, reported_checked] at h
  unfold writeAPP1
  simp only
  rw [bind_ok (show (get : Write Stream) ⟨target, 0⟩ = .ok ⟨target, 0⟩ ⟨target, 0⟩ from rfl)]
  rcases h with hsmall | ⟨hsize, hshort⟩
  · rw [if_pos hsmall]
    exact ⟨_, _, rfl⟩
  · obtain ⟨e, s, hrun⟩ := (follows_writeDirectories exif thumbnail []).short target 0 rfl
      (Nat.zero_le _) hshort
    have htrace := traced_writeDirectories exif thumbnail [] ⟨target, 0⟩
    rw [hrun] at htrace
    rw [if_neg (Nat.not_lt.mpr hsize)]
    exact ⟨e, s, bind_error htrace.symm⟩

end Honest

/-- **Success is reported truthfully** as long as no write fails whose failure is not looked at and the
length fits; with enough room exactly if the length fits. No byte is ever stored outside of the
target. -/
theorem app1_truthful (exif : ExifInfo) (thumbnail target : List UInt8)
    (h32 : target.length < 2 ^ 32) :
    StoresInside exif thumbnail target ∧
      (Honest exif thumbnail target.length → Truthful exif thumbnail target) ∧
      (app1Size exif thumbnail ≤ target.length →
        (Truthful exif thumbnail target ↔ Honest exif thumbnail target.length)) := by
  refine ⟨stores_inside exif thumbnail target, ?_, fun hroom => ?_⟩
  · rintro (⟨hroom, h16⟩ | ⟨-, hshort⟩)
    · exact (truthful_of_room hroom h32).mpr h16
    · intro n s hok
      obtain ⟨e, s', herr⟩ := writeAPP1_reported hshort
      rw [herr] at hok
      exact absurd hok nofun
  · rw [truthful_of_room hroom h32]
    exact ⟨fun h16 => .inl ⟨hroom, h16⟩, fun h =>
      h.elim And.right fun hshort => absurd hroom (Nat.not_le.mpr hshort.1)⟩

theorem app1_truthful_default : StoresInside default [] (List.replicate 400 0) ∧
    (Honest default [] (List.replicate 400 0 : List UInt8).length →
      Truthful default [] (List.replicate 400 0)) ∧
    (app1Size default [] ≤ (List.replicate 400 0 : List UInt8).length →
      (Truthful default [] (List.replicate 400 0) ↔
        Honest default [] (List.replicate 400 0 : List UInt8).length)) :=
  app1_truthful default [] (List.replicate 400 0) (by rw [List.length_replicate]; decide)

/-- A thumbnail of 66000 bytes: the length in the segment, and the one that is returned, is 65536 less
than that of what was written. -/
theorem not_truthful_long : ¬ Truthful default (List.replicate 66000 0) (List.replicate 80000 0) := by
  have hfirst : ifd0End default = 328 := by decide +kernel
  have hplace : (ifd1 (List.replicate 66000 0)).thumbnailPlace 328 = 640 := by
    rw [show (ifd1 (List.replicate 66000 0)).thumbnailPlace 328 = (ifd1 []).thumbnailPlace 328
      from rfl]
    decide +kernel
  have hsize : app1Size default (List.replicate 66000 0) = 66640 := by
    rw [app1Size, if_pos (by rw [List.length_replicate]; decide), hfirst, Ifd.endPlace, hplace]
    rw [show (ifd1 (List.replicate 66000 0)).thumbnail = List.replicate 66000 0 from rfl,
      List.length_replicate]
  rw [truthful_of_room (by rw [hsize, List.length_replicate]; decide)
    (by rw [List.length_replicate]; decide), hsize]
  decide

end SprdHal.Exif
