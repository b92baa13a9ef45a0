import Mathlib.Data.List.Pairwise
import Mathlib.Tactic.Common

/-!
# Regions of a memory

A region of a memory has a start, or lies elsewhere. Regions that are placed one behind the other up
to the first one that does not fit (`fill`) are inside the memory and apart from each other, and they
are apart from everything in front of them.
-/

namespace SprdHal.Lib

/-- A region; `start` is `none` if it does not lie in the memory. -/
structure Region where
  start : Option Nat
  len : Nat
  deriving DecidableEq, Repr

namespace Region

def Inside (size : Nat) (r : Region) : Prop := ∀ n ∈ r.start, n + r.len ≤ size

/-- No byte lies in both. -/
def Apart (r s : Region) : Prop :=
  ∀ m ∈ r.start, ∀ n ∈ s.start, r.len = 0 ∨ s.len = 0 ∨ m + r.len ≤ n ∨ n + s.len ≤ m

def Behind (m : Nat) (r : Region) : Prop := ∀ n ∈ r.start, m ≤ n

theorem inside_some {size n len : Nat} : Inside size ⟨some n, len⟩ ↔ n + len ≤ size := by
  simp [Inside]

theorem inside_none {size len : Nat} : Inside size ⟨none, len⟩ := by
  simp [Inside]

theorem Apart.symm {r s : Region} (h : r.Apart s) : s.Apart r := by
  intro n hn m hm
  rcases h m hm n hn with hr | hs | hle | hle
  · exact .inr (.inl hr)
  · exact .inl hs
  · exact .inr (.inr (.inr hle))
  · exact .inr (.inr (.inl hle))

theorem apart_none_left {len : Nat} (s : Region) : Apart ⟨none, len⟩ s := by
  simp [Apart]

theorem Inside.mono {r : Region} {m n : Nat} (h : r.Inside m) (hmn : m ≤ n) : r.Inside n :=
  fun k hk => Nat.le_trans (h k hk) hmn

theorem Behind.mono {r : Region} {m n : Nat} (h : r.Behind n) (hmn : m ≤ n) : r.Behind m :=
  fun k hk => Nat.le_trans hmn (h k hk)

/-- What ends before `m` is apart from what is behind `m`. -/
theorem apart_of_behind {r s : Region} {m : Nat} (hr : r.Inside m) (hs : s.Behind m) : r.Apart s :=
  fun k hk n hn => .inr (.inr (.inl (Nat.le_trans (hr k hk) (hs n hn))))

end Region

/-! ## Filling a memory -/

/-- The regions of the given lengths, placed from `m` on. -/
def fill (size : Nat) : Nat → List Nat → List Region
  | _, [] => []
  | m, len :: lens =>
    if m + len ≤ size then ⟨some m, len⟩ :: fill size (m + len) lens
    else (len :: lens).map (⟨none, ·⟩)

/-- The end of the regions that are placed. -/
def fillEnd (size : Nat) : Nat → List Nat → Nat
  | m, [] => m
  | m, len :: lens => if m + len ≤ size then fillEnd size (m + len) lens else m

theorem le_fillEnd (size : Nat) (lens : List Nat) : ∀ m, m ≤ fillEnd size m lens := by
  induction lens with
  | nil => exact fun m => Nat.le_refl m
  | cons len lens ih =>
    intro m
    unfold fillEnd
    split
    · exact Nat.le_trans (Nat.le_add_right m len) (ih _)
    · exact Nat.le_refl m

theorem fillEnd_le {size : Nat} (lens : List Nat) : ∀ m ≤ size, fillEnd size m lens ≤ size := by
  induction lens with
  | nil => exact fun m hm => hm
  | cons len lens ih =>
    intro m hm
    unfold fillEnd
    split
    · next hfits => exact ih _ hfits
    · exact hm

theorem fill_behind (size : Nat) (lens : List Nat) :
    ∀ m, ∀ r ∈ fill size m lens, r.Behind m := by
  induction lens with
  | nil => simp [fill]
  | cons len lens ih =>
    intro m r hr
    unfold fill at hr
    split at hr
    · rcases List.mem_cons.mp hr with rfl | hr
      · simp [Region.Behind]
      · exact (ih _ r hr).mono (Nat.le_add_right m len)
    · obtain ⟨k, -, rfl⟩ := List.mem_map.mp hr
      simp [Region.Behind]

theorem fill_inside_end (size : Nat) (lens : List Nat) :
    ∀ m, ∀ r ∈ fill size m lens, r.Inside (fillEnd size m lens) := by
  induction lens with
  | nil => simp [fill]
  | cons len lens ih =>
    intro m r hr
    unfold fill at hr
    unfold fillEnd
    split at hr
    · next hfits =>
      rw [if_pos hfits]
      rcases List.mem_cons.mp hr with rfl | hr
      · exact Region.inside_some.mpr (le_fillEnd size lens _)
      · exact ih _ r hr
    · obtain ⟨k, -, rfl⟩ := List.mem_map.mp hr
      exact Region.inside_none

theorem fill_pairwise (size : Nat) (lens : List Nat) :
    ∀ m, (fill size m lens).Pairwise Region.Apart := by
  induction lens with
  | nil => simp [fill]
  | cons len lens ih =>
    intro m
    unfold fill
    split
    · refine List.pairwise_cons.mpr ⟨fun s hs => ?_, ih _⟩
      exact Region.apart_of_behind (Region.inside_some.mpr (Nat.le_refl _))
        (fill_behind size lens _ s hs)
    · refine List.Pairwise.map (R := fun _ _ => True) _ (fun _ _ _ => ?_)
        (List.pairwise_of_forall fun _ _ => trivial)
      exact Region.apart_none_left _

end SprdHal.Lib
