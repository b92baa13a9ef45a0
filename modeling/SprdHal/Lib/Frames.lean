import SprdHal.Lib.Machine

/-!
# Frames in a stream of reads

A stream of frames arrives in reads of any size. `FramesEndReads` says that every frame ends where a
read ends, so that no read holds bytes of two frames. `receiver_iff` is the rule for a receiver that
collects the reads of one frame, passes the frame on with the read that completes it, and loses what
that read holds beyond the frame: it passes all frames exactly if every frame ends where a read
ends.
-/

namespace SprdHal.Lib

variable {α : Type}

/-- Every frame ends where a read ends; of the first frame, `fr` has been read before. -/
def FramesEndReads (fr : List α) (chunks fs : List (List α)) : Prop :=
  ∀ fs₁, fs₁ ≠ [] → fs₁ <+: fs → ∃ cs, cs <+: chunks ∧ fr ++ cs.flatten = fs₁.flatten

section Ends

variable {fr c f x : List α} {chunks fs : List (List α)}

/-- The read in which the first frame ends is not before the first one. -/
theorem reads_of_frame {cs fs₁ : List (List α)} (hlt : fr.length < f.length)
    (hcs : cs <+: c :: chunks) (h : fr ++ cs.flatten = (f :: fs₁).flatten) :
    ∃ cs₁, cs = c :: cs₁ ∧ cs₁ <+: chunks ∧ fr ++ c ++ cs₁.flatten = f ++ fs₁.flatten := by
  rcases List.prefix_cons_iff.mp hcs with rfl | ⟨cs₁, rfl, hcs₁⟩
  · have hlen := congrArg List.length h
    simp only [List.flatten_nil, List.flatten_cons, List.length_append, List.length_nil] at hlen
    omega
  · refine ⟨cs₁, rfl, hcs₁, ?_⟩
    rw [List.append_assoc]
    exact h

theorem framesEndReads_nil : FramesEndReads fr chunks [] :=
  fun _ hne hpre => absurd (List.prefix_nil.mp hpre) hne

theorem framesEndReads_inside (hlt : fr.length < f.length) :
    FramesEndReads fr (c :: chunks) (f :: fs) ↔ FramesEndReads (fr ++ c) chunks (f :: fs) := by
  constructor
  · intro h fs₁ hne hpre
    obtain ⟨cs, hcs, heq⟩ := h fs₁ hne hpre
    obtain ⟨fs₁, rfl, -⟩ := (List.prefix_cons_iff.mp hpre).resolve_left hne
    obtain ⟨cs₁, rfl, hcs₁, heq⟩ := reads_of_frame hlt hcs heq
    exact ⟨cs₁, hcs₁, heq⟩
  · intro h fs₁ hne hpre
    obtain ⟨cs, hcs, heq⟩ := h fs₁ hne hpre
    refine ⟨c :: cs, (List.cons_prefix_cons).mpr ⟨rfl, hcs⟩, ?_⟩
    rw [List.flatten_cons, ← List.append_assoc]
    exact heq

theorem framesEndReads_end (hlt : fr.length < f.length) (h : fr ++ c = f) :
    FramesEndReads fr (c :: chunks) (f :: fs) ↔ FramesEndReads [] chunks fs := by
  constructor
  · intro hends fs₁ hne hpre
    obtain ⟨cs, hcs, heq⟩ := hends (f :: fs₁) (List.cons_ne_nil _ _)
      (List.cons_prefix_cons.mpr ⟨rfl, hpre⟩)
    obtain ⟨cs₁, rfl, hcs₁, heq⟩ := reads_of_frame hlt hcs heq
    rw [h] at heq
    exact ⟨cs₁, hcs₁, List.append_cancel_left heq⟩
  · intro hends fs₁ hne hpre
    obtain ⟨fs₁, rfl, hpre₁⟩ := (List.prefix_cons_iff.mp hpre).resolve_left hne
    by_cases hlast : fs₁ = []
    · refine ⟨[c], List.cons_prefix_cons.mpr ⟨rfl, List.nil_prefix⟩, ?_⟩
      simpa [hlast] using h
    · obtain ⟨cs, hcs, heq⟩ := hends fs₁ hlast hpre₁
      refine ⟨c :: cs, List.cons_prefix_cons.mpr ⟨rfl, hcs⟩, ?_⟩
      rw [List.flatten_cons, List.flatten_cons, ← List.append_assoc, h, ← heq, List.nil_append]

theorem not_framesEndReads (hlt : fr.length < f.length) (h : fr ++ c = f ++ x) (hx : x ≠ []) :
    ¬ FramesEndReads fr (c :: chunks) (f :: fs) := by
  intro hends
  obtain ⟨cs, hcs, heq⟩ := hends [f] (List.cons_ne_nil _ _)
    (List.cons_prefix_cons.mpr ⟨rfl, List.nil_prefix⟩)
  obtain ⟨cs₁, rfl, -, heq⟩ := reads_of_frame hlt hcs heq
  have hpos := List.length_pos_iff.mpr hx
  have hlen := congrArg List.length heq
  rw [h] at hlen
  simp only [List.flatten_nil, List.length_append, List.length_nil] at hlen
  omega

end Ends

/-- A read ends inside the frame, with it, or behind it. -/
theorem read_cases {fr c f tail rest : List α} (h : fr ++ c ++ tail = f ++ rest) :
    (∃ x, x ≠ [] ∧ fr ++ c ++ x = f) ∨ (fr ++ c = f ∧ tail = rest) ∨
      ∃ x, x ≠ [] ∧ fr ++ c = f ++ x ∧ rest = x ++ tail := by
  rcases List.append_eq_append_iff.mp h with ⟨x, hx, hrest⟩ | ⟨x, hx, hrest⟩
  · by_cases hnil : x = []
    · subst hnil
      exact Or.inr (Or.inl ⟨by rw [hx, List.append_nil], by rw [hrest, List.nil_append]⟩)
    · exact Or.inl ⟨x, hnil, hx.symm⟩
  · by_cases hnil : x = []
    · subst hnil
      exact Or.inr (Or.inl ⟨by rw [hx, List.append_nil], by rw [hrest, List.nil_append]⟩)
    · exact Or.inr (Or.inr ⟨x, hnil, hx, hrest⟩)

/-- A receiver of frames: `data` is what an input reads, `frames` are the frames among the outputs,
`Waits s fr` says that `fr` has been read of the current frame. -/
structure Receiver {σ ι ε : Type} (m : Machine σ ι ε) (ok : σ → ι → Prop) (Frame : List α → Prop)
    (data : ι → List α) (frames : List ε → List (List α)) (Waits : σ → List α → Prop) : Prop where
  frame_ne_nil : ∀ f, Frame f → f ≠ []
  frames_nil : frames [] = []
  frames_append : ∀ a b, frames (a ++ b) = frames a ++ frames b
  skip : ∀ s i fr, Waits s fr → ok s i → data i = [] →
    frames (m.step s i).2 = [] ∧ Waits (m.step s i).1 fr
  inside : ∀ s i fr f x, Waits s fr → ok s i → Frame f → data i ≠ [] → x ≠ [] →
    fr ++ data i ++ x = f → frames (m.step s i).2 = [] ∧ Waits (m.step s i).1 (fr ++ data i)
  complete : ∀ s i fr f x, Waits s fr → ok s i → Frame f → fr.length < f.length →
    fr ++ data i = f ++ x → frames (m.step s i).2 = [f] ∧ Waits (m.step s i).1 []
  -- what is passed on was read after the current frame began
  bytes : ∀ is s, Waits s [] → m.Admits ok s is →
    (frames (m.run s is).2).flatten.length ≤ (is.map data).flatten.length

namespace Receiver

variable {σ ι ε : Type} {m : Machine σ ι ε} {ok : σ → ι → Prop} {Frame : List α → Prop}
  {data : ι → List α} {frames : List ε → List (List α)} {Waits : σ → List α → Prop}

/-- Once bytes are lost, what is passed falls short of the stream. -/
theorem frames_ne (hr : Receiver m ok Frame data frames Waits) {is : List ι} {s : σ}
    {fs : List (List α)} (hw : Waits s []) (hadm : m.Admits ok s is) {x : List α} (hx : x ≠ [])
    (hrest : fs.flatten = x ++ (is.map data).flatten) : frames (m.run s is).2 ≠ fs := by
  intro heq
  have hle := hr.bytes is s hw hadm
  rw [heq, hrest, List.length_append] at hle
  have hpos := List.length_pos_iff.mpr hx
  omega

/-- **The rule.** The induction is over the reads; a read ends inside the current frame, with it, or
behind it. -/
theorem receiver_iff (hr : Receiver m ok Frame data frames Waits) (is : List ι)
    {fs : List (List α)} {fr : List α} {s : σ} (hw : Waits s fr) (hadm : m.Admits ok s is)
    (hfs : ∀ f ∈ fs, Frame f) (hstream : fr ++ (is.map data).flatten = fs.flatten)
    (hfr : ∀ f ∈ fs.head?, fr.length < f.length) :
    frames (m.run s is).2 = fs ↔ FramesEndReads fr (is.map data) fs := by
  induction is generalizing fs fr s with
  | nil =>
    cases fs with
    | nil => exact ⟨fun _ => framesEndReads_nil, fun _ => hr.frames_nil⟩
    | cons f fs =>
      have hlen := congrArg List.length hstream
      have hlt := hfr f rfl
      simp only [List.map_nil, List.flatten_nil, List.flatten_cons, List.length_append,
        List.length_nil] at hlen
      omega
  | cons i is ih =>
    obtain ⟨hi, hadm⟩ := hadm
    rw [Machine.run_cons, hr.frames_append, List.map_cons]
    rw [List.map_cons, List.flatten_cons, ← List.append_assoc] at hstream
    by_cases hc : data i = []
    · obtain ⟨hpassed, hw'⟩ := hr.skip s i fr hw hi hc
      rw [hc, List.append_nil] at hstream
      rw [hpassed, List.nil_append, ih hw' hadm hfs hstream hfr]
      cases fs with
      | nil => exact ⟨fun _ => framesEndReads_nil, fun _ => framesEndReads_nil⟩
      | cons f fs => rw [framesEndReads_inside (hfr f rfl), hc, List.append_nil]
    · cases fs with
      | nil => exact absurd (List.append_eq_nil_iff.mp (List.append_eq_nil_iff.mp hstream).1).2 hc
      | cons f fs =>
        have hf := hfs f List.mem_cons_self
        have hfs' : ∀ f ∈ fs, Frame f := fun f hf => hfs f (List.mem_cons_of_mem _ hf)
        have hlt := hfr f rfl
        rw [List.flatten_cons] at hstream
        rcases read_cases hstream with ⟨x, hx, hf₁⟩ | ⟨hf₁, hrest⟩ | ⟨x, hx, hf₁, hrest⟩
        · obtain ⟨hpassed, hw'⟩ := hr.inside s i fr f x hw hi hf hc hx hf₁
          have hlt' : (fr ++ data i).length < f.length := by
            have hlen := congrArg List.length hf₁
            have hpos := List.length_pos_iff.mpr hx
            rw [List.length_append] at hlen
            omega
          rw [hpassed, List.nil_append, framesEndReads_inside hlt]
          exact ih hw' hadm hfs hstream fun f' hf' => by cases hf'; exact hlt'
        · obtain ⟨hpassed, hw'⟩ :=
            hr.complete s i fr f [] hw hi hf hlt (hf₁.trans (List.append_nil f).symm)
          rw [hpassed, List.singleton_append, List.cons.injEq, and_iff_right rfl,
            framesEndReads_end hlt hf₁]
          exact ih hw' hadm hfs' hrest fun f hmem =>
            List.length_pos_iff.mpr (hr.frame_ne_nil f (hfs' f (List.mem_of_mem_head? hmem)))
        · obtain ⟨hpassed, hw'⟩ := hr.complete s i fr f x hw hi hf hlt hf₁
          rw [hpassed, List.singleton_append, List.cons.injEq, and_iff_right rfl]
          exact iff_of_false (hr.frames_ne hw' hadm hx hrest) (not_framesEndReads hlt hf₁ hx)

end Receiver

end SprdHal.Lib
