import SprdHal.Gralloc.Pages

/-!
# What is on the display (`framebuffer_device.cpp`, `alloc_device.cpp`)

The display scans out the page that was posted last while the clients draw into the others. Nothing
locks the page on display against its client, a page that is freed on display can be handed out
again, and a buffer outside the framebuffer is always copied to the first page.
-/

namespace SprdHal.Gralloc

open SprdHal.Lib

section Display

variable (fb : FrameBuffer) (s : PrivateModule)

/-- The bytes that are scanned out. -/
def PrivateModule.shown (o : Nat) : UInt8 :=
  s.memory (s.yoffset.toNat * fb.lineLength.toNat + o)

/-- The display shows the frame that was posted last. -/
def ShowsPosted : Prop := ∀ o < fb.bufferSize.toNat, s.shown fb o = s.posted o

/-- The buffer whose page is scanned out. -/
def OnDisplay (b : Buffer) : Prop :=
  ∃ v ∈ b.base, (fb.offset v).toNat = s.yoffset.toNat * fb.lineLength.toNat

instance (b : Buffer) : Decidable (OnDisplay fb s b) :=
  inferInstanceAs (Decidable (∃ v ∈ b.base, _))

/-- A buffer for the framebuffer is not larger than a page. -/
def FitsPage : GrallocEvent → Prop
  | .alloc w h format usage ion _ =>
    match (s.allocOutcome fb w h format usage ion).request with
    | some (.framebuffer, size) => size.toNat ≤ fb.bufferSize.toNat
    | _ => True
  | _ => True

/-- Nothing is drawn into the buffer on display, and a buffer outside the framebuffer is posted only
while the first page is on display; unless the bytes are those of the frame. -/
def KeepsFrame : GrallocEvent → Prop
  | .write key o value => ∀ b ∈ s.buffers, b.key = key → OnDisplay fb s b → o < b.size.toNat →
      s.posted o = value
  | .post key _ => ∀ b ∈ s.buffers, b.key = key → b.base = none → s.counted = true →
      s.yoffset = 0 ∨ ∀ o < fb.bufferSize.toNat, s.contents key o = s.posted o
  | _ => True

instance : ∀ e, Decidable (FitsPage fb s e)
  | .alloc w h format usage ion _ =>
    match hreq : (s.allocOutcome fb w h format usage ion).request with
    | some (.framebuffer, size) =>
      decidable_of_iff (size.toNat ≤ fb.bufferSize.toNat) (by simp only [FitsPage, hreq])
    | some (.buffer, _) | none => isTrue (by simp only [FitsPage, hreq])
  | .free _ | .write .. | .post .. => isTrue trivial

instance : ∀ e, Decidable (KeepsFrame fb s e)
  | .write key o value => inferInstanceAs (Decidable (∀ b ∈ s.buffers, b.key = key →
      OnDisplay fb s b → o < b.size.toNat → s.posted o = value))
  | .post key _ => inferInstanceAs (Decidable (∀ b ∈ s.buffers, b.key = key → b.base = none →
      s.counted = true → s.yoffset = 0 ∨ ∀ o < fb.bufferSize.toNat, s.contents key o = s.posted o))
  | .alloc .. | .free _ => isTrue trivial

/-- The buffers in the framebuffer are not larger than their pages. -/
def SizesOk : Prop := ∀ b ∈ s.buffers, b.base.isSome → b.size.toNat ≤ fb.bufferSize.toNat

end Display

variable {fb : FrameBuffer} {s : PrivateModule} {key : Nat}

theorem SizesOk.step (h : SizesOk fb s) (e : GrallocEvent) (hfits : FitsPage fb s e) :
    SizesOk fb ((gralloc fb).step s e).1 := by
  cases e with
  | alloc w height format usage ion key =>
    show SizesOk fb (s.alloc fb w height format usage ion key)
    rcases s.alloc_cases fb key w height format usage ion with
      heq | ⟨size, heq⟩ | ⟨m, vaddr, size, -, hreq, heq⟩
    · rwa [heq]
    · rw [heq]
      intro b hb hbase
      rcases List.mem_cons.mp hb with rfl | hb
      · cases hbase
      · exact h b hb hbase
    · rw [heq]
      intro b hb hbase
      rcases List.mem_cons.mp hb with rfl | hb
      · rwa [FitsPage, hreq] at hfits
      · exact h b hb hbase
  | free key =>
    show SizesOk fb (s.allocDeviceFree fb key).1
    unfold PrivateModule.allocDeviceFree
    split
    · exact h
    · dsimp only
      split
      all_goals exact fun b hb => h b (List.mem_filter.mp hb).1
  | write key o value =>
    show SizesOk fb (s.write fb key o value)
    unfold PrivateModule.write
    split
    · exact h
    · split
      · split
        all_goals exact h
      · exact h
  | post key errno =>
    show SizesOk fb (s.fbPost fb key errno).1
    unfold PrivateModule.fbPost
    split
    · exact h
    · split
      · exact h
      · split
        · split
          all_goals exact h
        · exact h

/-- The page that is scanned out. -/
theorem PagesOk.scan_page (h : PagesOk fb s) :
    ∃ k < fb.count, s.yoffset.toNat * fb.lineLength.toNat = k * fb.bufferSize.toNat ∧
      (s.yoffset = 0 ↔ k = 0) := by
  obtain ⟨k, hk, hscan⟩ := h.scan
  refine ⟨k, hk, ?_, ?_⟩
  · rw [hscan, fb.toNat_bufferSize, Nat.mul_assoc, Nat.mul_comm fb.yres.toNat]
  · rw [← UInt32.toNat_inj, hscan, UInt32.toNat_zero, Nat.mul_eq_zero]
    exact or_iff_left (Nat.ne_of_gt fb.yres_pos)

theorem onDisplay_iff {b : Buffer} {i k : Nat} (hi : i < fb.count)
    (hbase : b.base = some (fb.page i))
    (hk : s.yoffset.toNat * fb.lineLength.toNat = k * fb.bufferSize.toNat) :
    OnDisplay fb s b ↔ i = k := by
  constructor
  · rintro ⟨v, hv, hoff⟩
    rw [hbase] at hv
    cases hv
    rw [fb.toNat_offset_page hi, hk] at hoff
    exact Nat.eq_of_mul_eq_mul_right fb.bufferSize_pos hoff
  · rintro rfl
    exact ⟨_, hbase, by rw [fb.toNat_offset_page hi, hk]⟩

/-- A write into a page changes the display at one byte if the page is on display, and else not. -/
theorem shown_write (h : PagesOk fb s) (hsizes : SizesOk fb s) (hshows : ShowsPosted fb s)
    {b : Buffer} (hb : b ∈ s.buffers) {i : Nat} (hi : i < fb.count)
    (hbase : b.base = some (fb.page i)) {o : Nat} (ho : o < b.size.toNat) (value : UInt8) :
    ShowsPosted fb
        { s with
          memory := Function.update s.memory ((fb.offset (fb.page i)).toNat + o) value } ↔
      (OnDisplay fb s b → s.posted o = value) := by
  obtain ⟨k, hk, hscan, -⟩ := h.scan_page
  have hsize : o < fb.bufferSize.toNat :=
    Nat.lt_of_lt_of_le ho (hsizes b hb (by rw [hbase]; rfl))
  rw [onDisplay_iff hi hbase hscan, fb.toNat_offset_page hi]
  have hold : ∀ p < fb.bufferSize.toNat, s.memory (k * fb.bufferSize.toNat + p) = s.posted p := by
    intro p hp
    rw [← hscan]
    exact hshows p hp
  simp only [ShowsPosted, PrivateModule.shown, hscan, Function.update_apply]
  by_cases hik : i = k
  · subst hik
    constructor
    · intro hall _
      rw [← hall o hsize, if_pos rfl]
    · intro hsame p hp
      split
      · rename_i heq
        rw [← hsame rfl, show p = o by omega]
      · exact hold p hp
  · refine iff_of_true (fun p hp => ?_) (fun heq => absurd heq hik)
    -- the two pages do not meet
    have hne : k * fb.bufferSize.toNat + p ≠ i * fb.bufferSize.toNat + o := by
      rcases Nat.lt_or_gt_of_ne hik with hlt | hgt
      · have hle := fb.succ_mul_le hlt
        omega
      · have hle := fb.succ_mul_le hgt
        omega
    rw [if_neg hne]
    exact hold p hp

theorem showsPosted_write (h : PagesOk fb s) (hsizes : SizesOk fb s) (hshows : ShowsPosted fb s)
    (key o : Nat) (value : UInt8) :
    ShowsPosted fb (s.write fb key o value) ↔ KeepsFrame fb s (.write key o value) := by
  unfold PrivateModule.write
  cases hfind : s.find key with
  | none =>
    refine iff_of_true hshows fun b hb hkey => ?_
    rw [← hkey, h.find_eq hb] at hfind
    cases hfind
  | some b =>
    obtain ⟨hb, rfl⟩ := PrivateModule.find_some hfind
    have hkeeps : KeepsFrame fb s (.write b.key o value) ↔
        (OnDisplay fb s b → o < b.size.toNat → s.posted o = value) := by
      constructor
      · exact fun hall => hall b hb rfl
      · intro hone c hc hkey
        rwa [h.eq_of_key hc hb hkey]
    rw [hkeeps]
    dsimp only
    split
    · rename_i ho
      split
      · rename_i vaddr hbase
        obtain ⟨i, hi, rfl⟩ := h.pages b hb vaddr hbase
        rw [shown_write h hsizes hshows hb hi hbase ho]
        exact forall_congr' fun _ => ⟨fun hsame _ => hsame, fun hsame => hsame ho⟩
      · rename_i hbase
        refine iff_of_true hshows ?_
        rintro ⟨v, hv, -⟩
        cases hbase.symm.trans hv
    · rename_i ho
      exact iff_of_true hshows fun _ hlt => absurd hlt ho

theorem showsPosted_fbPost (h : PagesOk fb s) (hshows : ShowsPosted fb s) (key : Nat)
    (errno : Option Int32) :
    ShowsPosted fb (s.fbPost fb key errno).1 ↔ KeepsFrame fb s (.post key errno) := by
  unfold PrivateModule.fbPost
  cases hfind : s.find key with
  | none =>
    refine iff_of_true hshows fun b hb hkey => ?_
    rw [← hkey, h.find_eq hb] at hfind
    cases hfind
  | some b =>
    obtain ⟨hb, rfl⟩ := PrivateModule.find_some hfind
    have hkeeps : KeepsFrame fb s (.post b.key errno) ↔ (b.base = none → s.counted = true →
        s.yoffset = 0 ∨ ∀ o < fb.bufferSize.toNat, s.contents b.key o = s.posted o) := by
      constructor
      · exact fun hall => hall b hb rfl
      · intro hone c hc hkey
        rwa [h.eq_of_key hc hb hkey]
    rw [hkeeps]
    dsimp only
    split
    · rename_i hcounted
      exact iff_of_true hshows fun _ htrue => absurd (hcounted.symm.trans htrue) Bool.false_ne_true
    · rename_i hcounted
      split
      · rename_i vaddr hbase
        have hnone : ¬b.base = none := by
          rw [hbase]
          exact Option.some_ne_none _
        split
        · exact iff_of_true hshows fun heq => absurd heq hnone
        · refine iff_of_true (fun o _ => ?_) fun heq => absurd heq hnone
          obtain ⟨i, hi, rfl⟩ := h.pages b hb vaddr hbase
          simp only [PrivateModule.shown, fb.line_page hi, fb.toNat_offset_page hi,
            fb.toNat_bufferSize, Nat.mul_assoc, Nat.mul_comm fb.yres.toNat]
      · rename_i hbase
        obtain ⟨k, hk, hscan, hzero⟩ := h.scan_page
        rw [forall_prop_of_true hbase, forall_prop_of_true (Bool.not_eq_false _ ▸ hcounted), hzero]
        simp only [ShowsPosted, PrivateModule.shown, hscan]
        by_cases hk0 : k = 0
        · subst hk0
          refine iff_of_true (fun o ho => ?_) (.inl rfl)
          rw [Nat.zero_mul, Nat.zero_add, if_pos ho]
        · rw [or_iff_right hk0]
          refine forall₂_congr fun o ho => ?_
          have hle := fb.succ_mul_le (Nat.pos_of_ne_zero hk0)
          rw [if_neg (by omega), ← hshows o ho, PrivateModule.shown, hscan]
          exact eq_comm

theorem showsPosted_step (h : PagesOk fb s) (hsizes : SizesOk fb s) (hshows : ShowsPosted fb s)
    (e : GrallocEvent) : ShowsPosted fb ((gralloc fb).step s e).1 ↔ KeepsFrame fb s e := by
  cases e with
  | alloc w height format usage ion key =>
    refine iff_of_true ?_ trivial
    show ShowsPosted fb (s.alloc fb w height format usage ion key)
    rcases s.alloc_cases fb key w height format usage ion with
      heq | ⟨size, heq⟩ | ⟨m, vaddr, size, -, -, heq⟩
    · rwa [heq]
    · rw [heq]
      exact hshows
    · rw [heq]
      exact hshows
  | free key =>
    refine iff_of_true ?_ trivial
    show ShowsPosted fb (s.allocDeviceFree fb key).1
    unfold PrivateModule.allocDeviceFree
    split
    · exact hshows
    · dsimp only
      split
      all_goals exact hshows
  | write key o value => exact showsPosted_write h hsizes hshows key o value
  | post key errno => exact showsPosted_fbPost h hshows key errno

/-- The first frame is skipped; then one buffer is posted while the other one is drawn. -/
def doubleBuffered : List GrallocEvent :=
  [allocPage 1, allocPage 2, .post 1 none, .post 2 none, .write 1 0 7, .post 1 none, .write 2 5 8]

end SprdHal.Gralloc
