import Mathlib.Tactic.Ring
import SprdHal.Gralloc.Alloc

/-!
# Whether the planes fit (`alloc_device.cpp`, `SprdUtil.cpp`)

A buffer is large enough if nothing wrapped on the way to its size and every plane that the GSP is
told of lies within it. The theorem says for each format exactly for which widths and heights.
-/

namespace SprdHal.Gralloc

open SprdHal.Lib

/-! ## What each size is -/

section Layouts

variable {w h m n : Nat} {wi hi : Int32}

theorem exactly_grallocAlignSize {x base : UInt32} {k : Nat} (hk : k ≤ 32) (hx : x.toNat = n)
    (hmask : (base - 1).toNat = 2 ^ k - 1) :
    (grallocAlignSize x base).Exactly (alignUp (2 ^ k) n < 2 ^ 32)
      (fun z => z.toNat = alignUp (2 ^ k) n) := by
  have hround : ∀ up : UInt32, up.toNat = n + (2 ^ k - 1) →
      (up &&& ~~~(base - 1)).toNat = alignUp (2 ^ k) n := by
    intro up hup
    rw [toNat_and_not hmask hk, hup]
    rfl
  have hsum : (grallocAlignSize x base).Exactly (n + (2 ^ k - 1) < 2 ^ 32 ∧ True)
      (fun z => z.toNat = alignUp (2 ^ k) n) :=
    .bind (.addU hx hmask) fun up hup => .pure (hround up hup)
  refine hsum.congr ?_ fun _ _ h => h
  rw [and_true]
  exact (alignUp_lt_iff (Nat.two_pow_pos k) (Nat.pow_dvd_pow 2 hk) n).symm

theorem exactly_grallocAlignInt {x base : Int32} {k : Nat} (hk : k ≤ 31) (hx : x.toInt = n)
    (hmask : (base - 1).toInt = (2 ^ k - 1 : Nat)) :
    (grallocAlignInt x base).Exactly (alignUp (2 ^ k) n < 2 ^ 31)
      (fun z => z.toInt = (alignUp (2 ^ k) n : Nat)) := by
  have hround : ∀ up : Int32, up.toInt = (n + (2 ^ k - 1) : Nat) →
      (up &&& ~~~(base - 1)).toInt = (alignUp (2 ^ k) n : Nat) := by
    intro up hup
    have hlt : n + (2 ^ k - 1) < 2 ^ 31 := by
      have := up.toInt_lt
      omega
    have hbits : (up &&& ~~~(base - 1)).toUInt32.toNat = alignUp (2 ^ k) n := by
      rw [Int32.toUInt32_and, Int32.toUInt32_not,
        toNat_and_not (toNat_toUInt32 hmask) (by omega), toNat_toUInt32 hup]
      rfl
    exact toInt_of_toUInt32 hbits (Nat.lt_of_le_of_lt (Nat.div_mul_le_self _ _) hlt)
  have hsum : (grallocAlignInt x base).Exactly (n + (2 ^ k - 1) < 2 ^ 31 ∧ True)
      (fun z => z.toInt = (alignUp (2 ^ k) n : Nat)) :=
    .bind (.addS hx hmask) fun up hup => .pure (hround up hup)
  refine hsum.congr ?_ fun _ _ h => h
  rw [and_true]
  exact (alignUp_lt_iff (Nat.two_pow_pos k) (Nat.pow_dvd_pow 2 hk) n).symm

/-- The calculation comes to this stride and this size exactly if `p` holds. -/
abbrev Comes (t : Tracked Layout) (p : Prop) (stride size : Nat) : Prop :=
  t.Exactly p fun layout => layout.stride.toNat = stride ∧ layout.size.toNat = size

theorem comes_layoutRgb {bpp : Int32} {c : Nat} (hw : wi.toInt = w) (hh : hi.toInt = h)
    (hbpp : bpp.toInt = c) :
    Comes (layoutRgb bpp wi hi) (alignUp 8 (w * c) < 2 ^ 31 ∧ alignUp 8 (w * c) * h < 2 ^ 32)
      (alignUp 8 (w * c) / c) (alignUp 8 (w * c) * h) := by
  have hbind : Comes (layoutRgb bpp wi hi) (w * c < 2 ^ 31 ∧ alignUp (2 ^ 3) (w * c) < 2 ^ 31 ∧
      alignUp (2 ^ 3) (w * c) * h < 2 ^ 32 ∧ True) (alignUp 8 (w * c) / c)
      (alignUp 8 (w * c) * h) :=
    .bind (.mulS hw hbpp) fun bits hbits =>
      .bind (exactly_grallocAlignInt (by decide) hbits (by decide)) fun bpr hbpr =>
        .bind (.mulU (toNat_toUInt32 hbpr) (toNat_toUInt32 hh)) fun size hsize =>
          .pure ⟨by rw [UInt32.toNat_div, toNat_toUInt32 hbpr, toNat_toUInt32 hbpp]; rfl, hsize⟩
  refine hbind.congr ?_ fun _ _ h => h
  have hle := le_alignUp (by decide : 0 < 8) (w * c)
  have hpow : (2 : Nat) ^ 3 = 8 := rfl
  rw [hpow, and_true]
  exact and_iff_right_of_imp fun h => Nat.lt_of_le_of_lt hle h.1

theorem comes_layoutBlob (hw : wi.toInt = w) (hh : hi.toInt = h) :
    Comes (layoutBlob wi hi) (alignUp 16 w < 2 ^ 31 ∧ w * h < 2 ^ 31) (alignUp 16 w) (w * h) := by
  have hbind : Comes (layoutBlob wi hi) (alignUp (2 ^ 4) w < 2 ^ 31 ∧ w * h < 2 ^ 31 ∧ True)
      (alignUp 16 w) (w * h) :=
    .bind (exactly_grallocAlignInt (by decide) hw (by decide)) fun stride hstride =>
      .bind (.mulS hw hh) fun size hsize =>
        .pure ⟨toNat_toUInt32 hstride, toNat_toUInt32 hsize⟩
  exact hbind.congr (and_congr_right fun _ => iff_of_eq (and_true _)) fun _ _ h => h

theorem comes_layout420SP (hw : wi.toInt = w) (hh : hi.toInt = h) :
    Comes (layout420SP wi hi) (alignUp 16 w < 2 ^ 31 ∧ alignUp 16 h < 2 ^ 31 ∧
        alignUp 16 h * (alignUp 16 w + alignUp 16 (alignUp 16 w / 2)) < 2 ^ 32)
      (alignUp 16 w) (alignUp 16 h * (alignUp 16 w + alignUp 16 (alignUp 16 w / 2))) := by
  have hhalf : ∀ stride : UInt32, (stride / 2).toNat = stride.toNat / 2 := fun _ => rfl
  have hbind : Comes (layout420SP wi hi) (alignUp (2 ^ 4) w < 2 ^ 31 ∧ alignUp (2 ^ 4) h < 2 ^ 31 ∧
      alignUp (2 ^ 4) (alignUp (2 ^ 4) w / 2) < 2 ^ 32 ∧
      alignUp (2 ^ 4) w + alignUp (2 ^ 4) (alignUp (2 ^ 4) w / 2) < 2 ^ 32 ∧
      alignUp (2 ^ 4) h * (alignUp (2 ^ 4) w + alignUp (2 ^ 4) (alignUp (2 ^ 4) w / 2)) < 2 ^ 32 ∧
        True) (alignUp 16 w) (alignUp 16 h * (alignUp 16 w + alignUp 16 (alignUp 16 w / 2))) :=
    .bind (exactly_grallocAlignInt (by decide) hw (by decide)) fun stride hstride =>
      .bind (exactly_grallocAlignInt (by decide) hh (by decide)) fun rows hrows =>
        .bind (exactly_grallocAlignSize (by decide)
          (by rw [hhalf, toNat_toUInt32 hstride]) (by decide)) fun uv huv =>
          .bind (.addU (toNat_toUInt32 hstride) huv) fun line hline =>
            .bind (.mulU (toNat_toUInt32 hrows) hline) fun size hsize =>
              .pure ⟨toNat_toUInt32 hstride, hsize⟩
  refine hbind.congr ?_ fun _ _ h => h
  have hup := alignUp_lt (by decide : 0 < 16) (alignUp 16 w / 2)
  have hpow : (2 : Nat) ^ 4 = 16 := rfl
  rw [hpow, and_true]
  constructor
  · exact fun ⟨h1, h2, _, _, h3⟩ => ⟨h1, h2, h3⟩
  · exact fun ⟨h1, h2, h3⟩ => ⟨h1, h2, by omega, by omega, h3⟩

theorem comes_layoutImplementationDefined (hw : wi.toInt = w) (hh : hi.toInt = h) :
    Comes (layoutImplementationDefined wi hi) (alignUp 64 (h * w) + h * alignUp 16 (w / 2) < 2 ^ 32)
      w (alignUp 64 (h * w) + h * alignUp 16 (w / 2)) := by
  have hhalf : ∀ stride : UInt32, (stride / 2).toNat = stride.toNat / 2 := fun _ => rfl
  have hbind : Comes (layoutImplementationDefined wi hi) (h * w < 2 ^ 32 ∧
      alignUp (2 ^ 6) (h * w) < 2 ^ 32 ∧ alignUp (2 ^ 4) (w / 2) < 2 ^ 32 ∧
      h * alignUp (2 ^ 4) (w / 2) < 2 ^ 32 ∧
      alignUp (2 ^ 6) (h * w) + h * alignUp (2 ^ 4) (w / 2) < 2 ^ 32 ∧ True)
      w (alignUp 64 (h * w) + h * alignUp 16 (w / 2)) :=
    .bind (.mulU (toNat_toUInt32 hh) (toNat_toUInt32 hw)) fun luma hluma =>
      .bind (exactly_grallocAlignSize (by decide) hluma (by decide)) fun y hy =>
        .bind (exactly_grallocAlignSize (by decide)
          (by rw [hhalf, toNat_toUInt32 hw]) (by decide)) fun line hline =>
          .bind (.mulU (toNat_toUInt32 hh) hline) fun uv huv =>
            .bind (.addU hy huv) fun size hsize => .pure ⟨toNat_toUInt32 hw, hsize⟩
  refine hbind.congr ?_ fun _ _ h => h
  have hluma := le_alignUp (by decide : 0 < 64) (h * w)
  have hup := alignUp_lt (by decide : 0 < 16) (w / 2)
  have hlt := wi.toInt_lt
  have hpow4 : (2 : Nat) ^ 4 = 16 := rfl
  have hpow6 : (2 : Nat) ^ 6 = 64 := rfl
  rw [hpow4, hpow6, and_true]
  constructor
  · exact fun ⟨_, _, _, _, hsum⟩ => hsum
  · exact fun hsum => ⟨by omega, by omega, by omega, by omega, hsum⟩

/-- The bytes of a buffer with three planes. -/
def size420P (stride h : Nat) : Nat :=
  alignUp 64 (h * stride) + alignUp 64 (h / 2 * alignUp 16 (stride / 2)) +
    h / 2 * alignUp 16 (stride / 2)

theorem comes_layout420P {stride : UInt32} {s : Nat} (hs : stride.toNat = s) (hlt : s < 2 ^ 31)
    (hh : hi.toInt = h) :
    Comes (layout420P stride hi) (size420P s h < 2 ^ 32) s (size420P s h) := by
  have hhalf : (stride / 2).toNat = s / 2 := hs ▸ rfl
  have hrows : (hi / 2).toInt = (h / 2 : Nat) := by
    rw [Int32.toInt_div_of_ne_right _ _ (by decide), hh]
    rfl
  have hbind : Comes (layout420P stride hi) (h * s < 2 ^ 32 ∧
      alignUp (2 ^ 6) (h * s) < 2 ^ 32 ∧ alignUp (2 ^ 4) (s / 2) < 2 ^ 32 ∧
      h / 2 * alignUp (2 ^ 4) (s / 2) < 2 ^ 32 ∧
      alignUp (2 ^ 6) (h / 2 * alignUp (2 ^ 4) (s / 2)) < 2 ^ 32 ∧
      alignUp (2 ^ 4) (s / 2) < 2 ^ 32 ∧ h / 2 * alignUp (2 ^ 4) (s / 2) < 2 ^ 32 ∧
      alignUp (2 ^ 6) (h * s) + alignUp (2 ^ 6) (h / 2 * alignUp (2 ^ 4) (s / 2)) < 2 ^ 32 ∧
      size420P s h < 2 ^ 32 ∧ True) s (size420P s h) :=
    .bind (.mulU (toNat_toUInt32 hh) hs) fun luma hluma =>
      .bind (exactly_grallocAlignSize (by decide) hluma (by decide)) fun y hy =>
        .bind (exactly_grallocAlignSize (by decide) hhalf (by decide)) fun uLine huLine =>
          .bind (.mulU (toNat_toUInt32 hrows) huLine) fun uBytes huBytes =>
            .bind (exactly_grallocAlignSize (by decide) huBytes (by decide)) fun u hu =>
              .bind (exactly_grallocAlignSize (by decide) hhalf (by decide)) fun vLine hvLine =>
                .bind (.mulU (toNat_toUInt32 hrows) hvLine) fun v hv =>
                  .bind (.addU hy hu) fun yu hyu =>
                    .bind (.addU hyu hv) fun size hsize => .pure ⟨hs, hsize⟩
  refine hbind.congr ?_ fun _ _ h => h
  have hluma := le_alignUp (by decide : 0 < 64) (h * s)
  have hchroma := le_alignUp (by decide : 0 < 64) (h / 2 * alignUp 16 (s / 2))
  have hup := alignUp_lt (by decide : 0 < 16) (s / 2)
  have hpow4 : (2 : Nat) ^ 4 = 16 := rfl
  have hpow6 : (2 : Nat) ^ 6 = 64 := rfl
  rw [hpow4, hpow6, and_true]
  constructor
  · exact fun ⟨_, _, _, _, _, _, _, _, hsum⟩ => hsum
  · intro hsum
    have hsum' := hsum
    unfold size420P at hsum
    exact ⟨by omega, by omega, by omega, by omega, by omega, by omega, by omega, by omega, hsum'⟩

theorem comes_layoutYv12 (hw : wi.toInt = w) (hh : hi.toInt = h) :
    Comes (layoutYv12 wi hi) (alignUp 16 w < 2 ^ 31 ∧ size420P (alignUp 16 w) h < 2 ^ 32)
      (alignUp 16 w) (size420P (alignUp 16 w) h) := by
  refine .bind (exactly_grallocAlignInt (k := 4) (by decide) hw (by decide)) fun stride hstride => ?_
  have hpow : (2 : Nat) ^ 4 = 16 := rfl
  have hlt := stride.toInt_lt
  rw [hpow] at hstride
  exact comes_layout420P (toNat_toUInt32 hstride) (by omega) hh

end Layouts

/-! ## What the planes need -/

/-- A plane of a buffer. -/
structure Plane where
  offset : Nat
  bytes : Nat

/-- The planes of a buffer: where `gsp_image_layer_config` says that they begin, and how many bytes
a picture of the format with the stride and the height of the handle has in each of them. -/
def planesOf (privateH : PrivateHandle) : List Plane :=
  let memInfo := (gspImageLayerConfig privateH).memInfo
  let cnt := privateH.stride.toUInt32.toNat * privateH.height.toUInt32.toNat
  match privateH.format with
  | .rgba8888 | .rgbx8888 | .bgra8888 => [⟨0, cnt * 4⟩]
  | .rgb888 => [⟨0, cnt * 3⟩]
  | .rgb565 => [⟨0, cnt * 2⟩]
  | .yCrCb420SP | .yCbCr420SP | .implementationDefined =>
    [⟨0, cnt⟩, ⟨memInfo.uvOffset.toNat, cnt / 2⟩]
  | .yv12 | .yCbCr420P =>
    [⟨0, cnt⟩, ⟨memInfo.vOffset.toNat, cnt / 4⟩, ⟨memInfo.uvOffset.toNat, cnt / 4⟩]
  | .blob | .yCbCr422I | .other _ => []

/-- Every plane lies within the buffer, and there is room for all of them. -/
def PlanesFit (planes : List Plane) (size : Nat) : Prop :=
  (∀ plane ∈ planes, plane.offset + plane.bytes ≤ size) ∧ (planes.map Plane.bytes).sum ≤ size

instance (planes : List Plane) (size : Nat) : Decidable (PlanesFit planes size) :=
  inferInstanceAs (Decidable (_ ∧ _))

section Planes

variable {b c size : Nat}

theorem planesFit_one : PlanesFit [⟨0, b⟩] size ↔ b ≤ size := by
  simp [PlanesFit]

theorem planesFit_two : PlanesFit [⟨0, c⟩, ⟨c, b⟩] size ↔ c + b ≤ size := by
  simp only [PlanesFit, List.forall_mem_cons, List.map_cons, List.map_nil, List.sum_cons,
    List.sum_nil]
  constructor
  · omega
  · exact fun h => ⟨⟨by omega, by omega, nofun⟩, by omega⟩

/-- The second and the third plane begin at `c` or behind each other. -/
theorem planesFit_three {d : Nat} (hd : d ≤ c + b) :
    PlanesFit [⟨0, c⟩, ⟨c, b⟩, ⟨d, b⟩] size ↔ c + b + b ≤ size := by
  simp only [PlanesFit, List.forall_mem_cons, List.map_cons, List.map_nil, List.sum_cons,
    List.sum_nil]
  constructor
  · omega
  · exact fun h => ⟨⟨by omega, by omega, by omega, nofun⟩, by omega⟩

end Planes

/-! ### One plane -/

section Arithmetic

variable {w h : Nat}

theorem le_stride_rgb {c : Nat} (hc : 0 < c) : w ≤ alignUp 8 (w * c) / c :=
  (Nat.le_div_iff_mul_le hc).mpr (le_alignUp (by decide) _)

theorem rgb_fits (c : Nat) : alignUp 8 (w * c) / c * h * c ≤ alignUp 8 (w * c) * h :=
  calc alignUp 8 (w * c) / c * h * c = alignUp 8 (w * c) / c * c * h := by ring
    _ ≤ alignUp 8 (w * c) * h := Nat.mul_le_mul_right h (Nat.div_mul_le_self _ _)

/-! ### Two planes -/

theorem half_mul (hh : 2 ∣ h) (s : Nat) : s * h / 2 = s * (h / 2) := Nat.mul_div_assoc s hh

theorem sp_fits (hh : 2 ∣ h) : alignUp 16 w * h + alignUp 16 w * h / 2 ≤
    alignUp 16 h * (alignUp 16 w + alignUp 16 (alignUp 16 w / 2)) := by
  obtain ⟨k, rfl⟩ := hh
  obtain ⟨m, hm⟩ := dvd_alignUp 16 w
  have hrows := le_alignUp (by decide : 0 < 16) (2 * k)
  have hhalf : alignUp 16 w / 2 = 8 * m := by omega
  have hline := le_alignUp (by decide : 0 < 16) (8 * m)
  rw [half_mul ⟨k, rfl⟩, Nat.mul_div_cancel_left k (by decide), hhalf, hm]
  calc 16 * m * (2 * k) + 16 * m * k = 2 * k * (16 * m + 8 * m) := by ring
    _ ≤ alignUp 16 (2 * k) * (16 * m + alignUp 16 (8 * m)) :=
        Nat.mul_le_mul hrows (Nat.add_le_add_left hline _)

/-- Half a line, rounded up, holds half of the pixels of a line unless the line is one longer than a
multiple of 32. -/
theorem half_le_alignUp (hw : w % 32 ≠ 1) : w ≤ 2 * alignUp 16 (w / 2) := by
  have hle := le_alignUp (by decide : 0 < 16) (w / 2)
  obtain ⟨m, hm⟩ := dvd_alignUp 16 (w / 2)
  omega

theorem alignUp_half (hw : w % 32 = 1) : 2 * alignUp 16 (w / 2) + 1 = w := by
  rw [alignUp_of_dvd (by decide) (by omega)]
  omega

theorem implementationDefined_fits_iff (hh : 2 ∣ h) :
    w * h + w * h / 2 ≤ alignUp 64 (h * w) + h * alignUp 16 (w / 2) ↔
      (w % 32 = 1 → h / 2 ≤ alignUp 64 (h * w) - h * w) := by
  obtain ⟨k, rfl⟩ := hh
  have hluma := le_alignUp (by decide : 0 < 64) (2 * k * w)
  rw [half_mul ⟨k, rfl⟩, Nat.mul_div_cancel_left k (by decide), Nat.mul_comm w (2 * k)]
  by_cases hw : w % 32 = 1
  · have hhalf := alignUp_half hw
    have hchroma : w * k = 2 * k * alignUp 16 (w / 2) + k := by
      calc w * k = (2 * alignUp 16 (w / 2) + 1) * k := by rw [hhalf]
        _ = 2 * k * alignUp 16 (w / 2) + k := by ring
    simp only [hw, forall_const]
    omega
  · have hchroma : w * k ≤ 2 * k * alignUp 16 (w / 2) :=
      calc w * k ≤ 2 * alignUp 16 (w / 2) * k := Nat.mul_le_mul_right k (half_le_alignUp hw)
        _ = 2 * k * alignUp 16 (w / 2) := by ring
    exact ⟨fun _ hw' => absurd hw' hw, fun _ => by omega⟩

/-! ### Three planes -/

theorem yCbCr420P_fits_iff (hh : 2 ∣ h) :
    w * h + w * h / 4 + w * h / 4 ≤ size420P w h ↔
      (w % 32 = 1 → 2 * (h / 4) ≤ alignUp 64 (h * w) - h * w +
        (alignUp 64 (h / 2 * alignUp 16 (w / 2)) - h / 2 * alignUp 16 (w / 2))) := by
  obtain ⟨k, rfl⟩ := hh
  have hluma := le_alignUp (by decide : 0 < 64) (2 * k * w)
  have hchroma := le_alignUp (by decide : 0 < 64) (k * alignUp 16 (w / 2))
  have hquarter : w * (2 * k) / 4 = w * k / 2 := by
    rw [Nat.mul_left_comm, Nat.mul_div_mul_left _ 2 (by decide : 0 < 2)]
  have hrows : 2 * k / 4 = k / 2 := by omega
  rw [size420P, hquarter, hrows, Nat.mul_div_cancel_left k (by decide), Nat.mul_comm w (2 * k)]
  by_cases hw : w % 32 = 1
  · have hhalf := alignUp_half hw
    have hpixels : w * k = 2 * (k * alignUp 16 (w / 2)) + k := by
      calc w * k = (2 * alignUp 16 (w / 2) + 1) * k := by rw [hhalf]
        _ = 2 * (k * alignUp 16 (w / 2)) + k := by ring
    simp only [hw, forall_const]
    omega
  · have hpixels : w * k ≤ 2 * (k * alignUp 16 (w / 2)) :=
      calc w * k ≤ 2 * alignUp 16 (w / 2) * k := Nat.mul_le_mul_right k (half_le_alignUp hw)
        _ = 2 * (k * alignUp 16 (w / 2)) := by ring
    exact ⟨fun _ hw' => absurd hw' hw, fun _ => by omega⟩

theorem yv12_fits (hh : 2 ∣ h) : alignUp 16 w * h + alignUp 16 w * h / 4 + alignUp 16 w * h / 4 ≤
    size420P (alignUp 16 w) h := by
  refine (yCbCr420P_fits_iff hh).mpr fun hw => ?_
  have := dvd_alignUp 16 w
  omega

end Arithmetic

/-! ## The buffers of `alloc_device_alloc` -/

/-- The formats whose pixels share their colours in squares of two by two. -/
def PixelFormat.IsYuv : PixelFormat → Prop
  | .implementationDefined | .yCrCb420SP | .yCbCr420SP | .yCbCr420P | .yCbCr422I | .yv12 => True
  | _ => False

/-- If memory is asked for with `gralloc_alloc_buffer`, nothing wrapped on the way to its size, and
the GSP finds its planes within the buffer. -/
def LargeEnough (w h : Int32) (format : PixelFormat) (usage : Usage) : Prop :=
  ∀ (bits16 : Bool) (alloc : Allocator) (pHandle pStride : Bool) (size : UInt32),
    (allocDeviceAlloc bits16 alloc pHandle pStride w h format usage).val.request =
        some (.buffer, size) →
      (allocDeviceAlloc bits16 alloc pHandle pStride w h format usage).wrapped = false ∧
        ∀ hnd, (allocDeviceAlloc bits16 alloc pHandle pStride w h format usage).val.handle =
            some hnd →
          w ≤ hnd.stride ∧ PlanesFit (planesOf hnd) size.toNat

/-- The same of the calculation of a layout. -/
def LayoutEnough (w h : Int32) (format : PixelFormat) (usage : Usage) (t : Tracked Layout) : Prop :=
  t.wrapped = false ∧ ∀ bits16 shareFd,
    w ≤ (handleOf bits16 w h format usage t.val shareFd).stride ∧
      PlanesFit (planesOf (handleOf bits16 w h format usage t.val shareFd)) t.val.size.toNat

/-- The widths and heights for which the size of a buffer of the format is enough. -/
def Fits (format : PixelFormat) (w h : Nat) : Prop :=
  match format with
  | .rgba8888 | .rgbx8888 | .bgra8888 =>
    alignUp 8 (w * 4) < 2 ^ 31 ∧ alignUp 8 (w * 4) * h < 2 ^ 32
  | .rgb888 => alignUp 8 (w * 3) < 2 ^ 31 ∧ alignUp 8 (w * 3) * h < 2 ^ 32
  | .rgb565 => alignUp 8 (w * 2) < 2 ^ 31 ∧ alignUp 8 (w * 2) * h < 2 ^ 32
  | .blob => alignUp 16 w < 2 ^ 31 ∧ w * h < 2 ^ 31
  | .yCrCb420SP | .yCbCr420SP =>
    alignUp 16 w < 2 ^ 31 ∧ alignUp 16 h < 2 ^ 31 ∧
      alignUp 16 h * (alignUp 16 w + alignUp 16 (alignUp 16 w / 2)) < 2 ^ 32
  | .yv12 => alignUp 16 w < 2 ^ 31 ∧ size420P (alignUp 16 w) h < 2 ^ 32
  | .implementationDefined =>
    alignUp 64 (h * w) + h * alignUp 16 (w / 2) < 2 ^ 32 ∧
      (w % 32 = 1 → h / 2 ≤ alignUp 64 (h * w) - h * w)
  | .yCbCr420P =>
    size420P w h < 2 ^ 32 ∧
      (w % 32 = 1 → 2 * (h / 4) ≤ alignUp 64 (h * w) - h * w +
        (alignUp 64 (h / 2 * alignUp 16 (w / 2)) - h / 2 * alignUp 16 (w / 2)))
  | .yCbCr422I | .other _ => True

section Allocation

variable {w h : Int32} {format : PixelFormat} {usage : Usage} {calculation : Tracked Layout}

theorem allocLayout_request (bits16 : Bool) (alloc : Allocator) (layout : Layout) :
    (allocLayout bits16 alloc w h format usage layout).request =
      some (if usage.hwFb then .framebuffer else .buffer, layout.size) := by
  unfold allocLayout
  dsimp only
  split <;> rfl

/-- A handle is made for the layout. -/
theorem allocLayout_handle {bits16 : Bool} {alloc : Allocator} {layout : Layout}
    {hnd : PrivateHandle}
    (hhnd : (allocLayout bits16 alloc w h format usage layout).handle = some hnd) :
    ∃ shareFd, hnd = handleOf bits16 w h format usage layout shareFd := by
  unfold allocLayout at hhnd
  dsimp only at hhnd
  split at hhnd
  · cases hhnd
  · rename_i shareFd _
    exact ⟨shareFd, (Option.some.inj hhnd).symm⟩

/-- A call that is not turned away. -/
theorem allocDeviceAlloc_eq (hw : 1 ≤ w) (hh : 1 ≤ h) (bits16 : Bool) (alloc : Allocator) :
    allocDeviceAlloc bits16 alloc true true w h format usage =
      match layoutOf format w h with
      | none => pure .invalid
      | some calculation => do
        return allocLayout bits16 alloc w h format usage (← calculation) := by
  have hguard : ¬(w < 1 ∨ h < 1) := by
    rw [not_or, Int32.not_lt, Int32.not_lt]
    exact ⟨hw, hh⟩
  unfold allocDeviceAlloc
  rw [if_neg hguard]
  rfl

/-- A call with a missing pointer asks for nothing. -/
theorem allocDeviceAlloc_pointers {pHandle pStride : Bool} {bits16 : Bool} {alloc : Allocator}
    {source : Source} {size : UInt32}
    (hreq : (allocDeviceAlloc bits16 alloc pHandle pStride w h format usage).val.request =
      some (source, size)) : pHandle = true ∧ pStride = true := by
  cases pHandle
  · cases hreq
  · cases pStride
    · cases hreq
    · exact ⟨rfl, rfl⟩

/-- What `LargeEnough` says about the calculation of the size. -/
theorem largeEnough_iff_layout (hw : 1 ≤ w) (hh : 1 ≤ h) (husage : usage.hwFb = false) :
    LargeEnough w h format usage ↔ ∀ calculation, layoutOf format w h = some calculation →
      LayoutEnough w h format usage calculation := by
  constructor
  · intro hlarge calculation hcalc
    -- an allocator that succeeds
    have hcall : ∀ bits16 shareFd, calculation.wrapped = false ∧ ∀ hnd,
        (allocLayout bits16 (fun _ _ _ => .ok shareFd) w h format usage calculation.val).handle =
          some hnd → w ≤ hnd.stride ∧ PlanesFit (planesOf hnd) calculation.val.size.toNat := by
      intro bits16 shareFd
      have hlarge := hlarge bits16 (fun _ _ _ => .ok shareFd) true true calculation.val.size
      rw [allocDeviceAlloc_eq hw hh, hcalc] at hlarge
      have hreq : (allocLayout bits16 (fun _ _ _ => .ok shareFd) w h format usage
          calculation.val).request = some (.buffer, calculation.val.size) := by
        rw [allocLayout_request, husage]
        rfl
      obtain ⟨hwrapped, hplanes⟩ := hlarge hreq
      exact ⟨(Bool.or_false _).symm.trans hwrapped, hplanes⟩
    exact ⟨(hcall false 0).1, fun bits16 shareFd => (hcall bits16 shareFd).2 _ rfl⟩
  · intro hlayout bits16 alloc pHandle pStride size hreq
    obtain ⟨rfl, rfl⟩ := allocDeviceAlloc_pointers hreq
    rw [allocDeviceAlloc_eq hw hh] at hreq ⊢
    cases hcalc : layoutOf format w h with
    | none =>
      rw [hcalc] at hreq
      cases hreq
    | some calculation =>
      rw [hcalc] at hreq
      obtain ⟨hwrapped, hplanes⟩ := hlayout calculation hcalc
      have hsize : size = calculation.val.size := by
        have hsome := (allocLayout_request bits16 alloc calculation.val).symm.trans hreq
        exact (congrArg Prod.snd (Option.some.inj hsome)).symm
      subst hsize
      refine ⟨(Bool.or_false _).trans hwrapped, fun hnd hhnd => ?_⟩
      obtain ⟨shareFd, rfl⟩ := allocLayout_handle hhnd
      exact hplanes bits16 shareFd

/-- The planes of a picture with a stride and a height, as numbers. -/
def framePlanes (format : PixelFormat) (stride h : Nat) : List Plane :=
  let cnt := stride * h
  match format with
  | .rgba8888 | .rgbx8888 | .bgra8888 => [⟨0, cnt * 4⟩]
  | .rgb888 => [⟨0, cnt * 3⟩]
  | .rgb565 => [⟨0, cnt * 2⟩]
  | .yCrCb420SP | .yCbCr420SP | .implementationDefined => [⟨0, cnt⟩, ⟨cnt, cnt / 2⟩]
  | .yv12 => [⟨0, cnt⟩, ⟨cnt, cnt / 4⟩, ⟨cnt + cnt / 4, cnt / 4⟩]
  | .yCbCr420P => [⟨0, cnt⟩, ⟨cnt, cnt / 4⟩, ⟨cnt, cnt / 4⟩]
  | .blob | .yCbCr422I | .other _ => []

/-- The offsets do not wrap where the picture is small enough. -/
theorem planesOf_handleOf {layout : Layout} {m n : Nat} (husage : usage.hwFb = false)
    (hstride : layout.stride.toNat = m) (hh : h.toInt = n)
    (hlt : format = .blob ∨ m * n < 2 ^ 32) (hyv12 : format = .yv12 → m * n + m * n / 4 < 2 ^ 32)
    (bits16 : Bool) (shareFd : Int32) :
    planesOf (handleOf bits16 w h format usage layout shareFd) = framePlanes format m n := by
  have hpixelStride : layout.stride.toInt32.toUInt32.toNat = m := hstride
  have hheight : h.toUInt32.toNat = n := toNat_toUInt32 hh
  rcases hlt with rfl | hlt
  · simp only [planesOf, handleOf, husage, Bool.false_eq_true, if_false, framePlanes]
  have hcnt : (layout.stride.toInt32.toUInt32 * h.toUInt32).toNat = m * n := by
    rw [toNat_mul_of_lt (by rw [hpixelStride, hheight]; omega), hpixelStride, hheight]
  have hquarter : ((layout.stride.toInt32.toUInt32 * h.toUInt32) >>> 2).toNat = m * n / 4 := by
    rw [UInt32.toNat_shiftRight, hcnt]
    exact Nat.shiftRight_eq_div_pow _ 2
  by_cases hformat : format = .yv12
  · have huv : (layout.stride.toInt32.toUInt32 * h.toUInt32 +
        (layout.stride.toInt32.toUInt32 * h.toUInt32) >>> 2).toNat = m * n + m * n / 4 := by
      rw [toNat_add_of_lt (by rw [hcnt, hquarter]; exact hyv12 hformat), hcnt, hquarter]
    subst hformat
    simp only [planesOf, handleOf, husage, gspImageLayerConfig, hpixelStride, hheight, hcnt, huv,
      Bool.false_eq_true, if_false, framePlanes]
  cases format
  case yv12 => exact absurd rfl hformat
  all_goals
    simp only [planesOf, handleOf, husage, gspImageLayerConfig, hpixelStride, hheight, hcnt,
      Bool.false_eq_true, if_false, framePlanes]

/-- A size that comes out right, and the planes in it. -/
theorem enough_iff_of_comes {p q : Prop} {k m n z : Nat} (hcomes : Comes calculation p m z)
    (husage : usage.hwFb = false) (hw : w.toInt = k) (hh : h.toInt = n) (hstride : k ≤ m)
    (hroom : p → m < 2 ^ 31) (hlt : p → format = .blob ∨ m * n < 2 ^ 32)
    (hyv12 : p → format = .yv12 → m * n + m * n / 4 < 2 ^ 32)
    (hfit : PlanesFit (framePlanes format m n) z ↔ q) :
    LayoutEnough w h format usage calculation ↔ p ∧ q := by
  rw [LayoutEnough, hcomes.iff]
  refine and_congr_right fun hp => ?_
  obtain ⟨hm, hz⟩ := hcomes.val hp
  have hle : w ≤ calculation.val.stride.toInt32 := by
    rw [Int32.le_iff_toInt_le, hw, toInt_of_toUInt32 hm (hroom hp)]
    omega
  rw [← hfit]
  constructor
  · intro hall
    have hplanes := (hall false 0).2
    rwa [planesOf_handleOf husage hm hh (hlt hp) (hyv12 hp), hz] at hplanes
  · intro hplanes bits16 shareFd
    rw [planesOf_handleOf husage hm hh (hlt hp) (hyv12 hp), hz]
    exact ⟨hle, hplanes⟩

/-- One plane of `c` bytes a pixel. -/
theorem rgb_enough_iff {c k n : Nat} {bpp : Int32} (hbpp : bpp.toInt = c) (hc : 2 ≤ c)
    (husage : usage.hwFb = false) (hw : w.toInt = k) (hh : h.toInt = n)
    (hplanes : ∀ m n, framePlanes format m n = [⟨0, m * n * c⟩]) (hyv12 : format ≠ .yv12) :
    LayoutEnough w h format usage (layoutRgb bpp w h) ↔
      alignUp 8 (k * c) < 2 ^ 31 ∧ alignUp 8 (k * c) * n < 2 ^ 32 := by
  have hfits := @rgb_fits k n c
  have hfit : PlanesFit (framePlanes format (alignUp 8 (k * c) / c) n) (alignUp 8 (k * c) * n) ↔
      True := by
    rw [hplanes, planesFit_one]
    exact iff_true_intro hfits
  have hdouble : alignUp 8 (k * c) / c * n * 2 ≤ alignUp 8 (k * c) / c * n * c :=
    Nat.mul_le_mul_left _ hc
  rw [enough_iff_of_comes (comes_layoutRgb hw hh hbpp) husage hw hh
    (le_stride_rgb (by omega)) (fun hp => Nat.lt_of_le_of_lt (Nat.div_le_self _ _) hp.1)
    (fun hp => .inr (by omega)) (fun _ hformat => absurd hformat hyv12) hfit, and_true]

/-- A framebuffer is no business of `gralloc_alloc_buffer`. -/
theorem largeEnough_of_hwFb (hw : 1 ≤ w) (hh : 1 ≤ h) (husage : usage.hwFb = true) :
    LargeEnough w h format usage := by
  intro bits16 alloc pHandle pStride size hreq
  obtain ⟨rfl, rfl⟩ := allocDeviceAlloc_pointers hreq
  rw [allocDeviceAlloc_eq hw hh] at hreq
  cases hcalc : layoutOf format w h with
  | none =>
    rw [hcalc] at hreq
    cases hreq
  | some calculation =>
    rw [hcalc] at hreq
    have hsome := (allocLayout_request bits16 alloc calculation.val).symm.trans hreq
    rw [husage] at hsome
    cases hsome

/-- Two planes of lines and rows in multiples of 16. -/
theorem sp_enough_iff {k n : Nat} (husage : usage.hwFb = false) (hw : w.toInt = k) (hh : h.toInt = n)
    (heven : 2 ∣ n)
    (hplanes : ∀ m n, framePlanes format m n = [⟨0, m * n⟩, ⟨m * n, m * n / 2⟩])
    (hyv12 : format ≠ .yv12) :
    LayoutEnough w h format usage (layout420SP w h) ↔
      alignUp 16 k < 2 ^ 31 ∧ alignUp 16 n < 2 ^ 31 ∧
        alignUp 16 n * (alignUp 16 k + alignUp 16 (alignUp 16 k / 2)) < 2 ^ 32 := by
  have hfits := @sp_fits k n heven
  have hfit : PlanesFit (framePlanes format (alignUp 16 k) n)
      (alignUp 16 n * (alignUp 16 k + alignUp 16 (alignUp 16 k / 2))) ↔ True := by
    rw [hplanes, planesFit_two]
    exact iff_true_intro hfits
  rw [enough_iff_of_comes (comes_layout420SP hw hh) husage hw hh
    (le_alignUp (by decide) k) (fun hp => hp.1) (fun hp => .inr (by omega))
    (fun _ hformat => absurd hformat hyv12) hfit, and_true]

theorem blob_enough_iff {k n : Nat} (husage : usage.hwFb = false) (hw : w.toInt = k)
    (hh : h.toInt = n) :
    LayoutEnough w h .blob usage (layoutBlob w h) ↔
      alignUp 16 k < 2 ^ 31 ∧ k * n < 2 ^ 31 := by
  have hfit : PlanesFit (framePlanes .blob (alignUp 16 k) n) (k * n) ↔ True :=
    iff_true_intro ⟨nofun, Nat.zero_le _⟩
  rw [enough_iff_of_comes (comes_layoutBlob hw hh) husage hw hh
    (le_alignUp (by decide) k) (fun hp => hp.1) (fun _ => .inl rfl) nofun hfit, and_true]

theorem implementationDefined_enough_iff {k n : Nat} (husage : usage.hwFb = false)
    (hw : w.toInt = k) (hh : h.toInt = n) (heven : 2 ∣ n) :
    LayoutEnough w h .implementationDefined usage (layoutImplementationDefined w h) ↔
      alignUp 64 (n * k) + n * alignUp 16 (k / 2) < 2 ^ 32 ∧
        (k % 32 = 1 → n / 2 ≤ alignUp 64 (n * k) - n * k) := by
  have hfit : PlanesFit (framePlanes .implementationDefined k n)
      (alignUp 64 (n * k) + n * alignUp 16 (k / 2)) ↔
        (k % 32 = 1 → n / 2 ≤ alignUp 64 (n * k) - n * k) :=
    planesFit_two.trans (implementationDefined_fits_iff heven)
  refine enough_iff_of_comes (comes_layoutImplementationDefined hw hh) husage hw hh (Nat.le_refl k)
    (fun _ => ?_) (fun hp => .inr ?_) nofun hfit
  · have := w.toInt_lt
    omega
  · have := le_alignUp (by decide : 0 < 64) (n * k)
    rw [Nat.mul_comm]
    omega

/-- Three planes. -/
theorem planar_enough_iff {k n : Nat} (husage : usage.hwFb = false)
    (hw : w.toInt = k) (hh : h.toInt = n) (heven : 2 ∣ n) :
    LayoutEnough w h .yCbCr420P usage (layout420P w.toUInt32 h) ↔
      size420P k n < 2 ^ 32 ∧
        (k % 32 = 1 → 2 * (n / 4) ≤ alignUp 64 (n * k) - n * k +
          (alignUp 64 (n / 2 * alignUp 16 (k / 2)) - n / 2 * alignUp 16 (k / 2))) := by
  have hlt : k < 2 ^ 31 := by
    have := w.toInt_lt
    omega
  have hfit := (planesFit_three (Nat.le_add_right _ _)).trans (@yCbCr420P_fits_iff k n heven)
  refine enough_iff_of_comes (comes_layout420P (toNat_toUInt32 hw) hlt hh) husage hw hh
    (Nat.le_refl k) (fun _ => hlt) (fun hp => .inr ?_) nofun hfit
  have := le_alignUp (by decide : 0 < 64) (n * k)
  unfold size420P at hp
  rw [Nat.mul_comm]
  omega

theorem yv12_enough_iff {k n : Nat} (husage : usage.hwFb = false)
    (hw : w.toInt = k) (hh : h.toInt = n) (heven : 2 ∣ n) :
    LayoutEnough w h .yv12 usage (layoutYv12 w h) ↔
      alignUp 16 k < 2 ^ 31 ∧ size420P (alignUp 16 k) n < 2 ^ 32 := by
  have hfits := @yv12_fits k n heven
  have hfit : PlanesFit (framePlanes .yv12 (alignUp 16 k) n) (size420P (alignUp 16 k) n) ↔ True :=
    (planesFit_three (Nat.le_refl _)).trans (iff_true_intro hfits)
  rw [enough_iff_of_comes (comes_layoutYv12 hw hh) husage hw hh
    (le_alignUp (by decide) k) (fun hp => hp.1) (fun hp => .inr (by omega))
    (fun hp _ => by omega) hfit, and_true]

end Allocation

end SprdHal.Gralloc
