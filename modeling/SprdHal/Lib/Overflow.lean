import SprdHal.Lib.Words

/-!
# Arithmetic that keeps track of overflow

A calculation with machine words returns a value and says whether one of its operations wrapped.
`Tracked.Exactly t p post` says under which condition none did, and what the value is then: the
condition of a calculation is put together from those of its operations by `Exactly.bind`.
-/

namespace SprdHal.Lib

/-- The value of a calculation, and whether one of its operations wrapped. -/
structure Tracked (α : Type) where
  val : α
  wrapped : Bool
deriving DecidableEq

namespace Tracked

variable {α β : Type}

instance : Monad Tracked where
  pure a := ⟨a, false⟩
  bind t f := ⟨(f t.val).val, t.wrapped || (f t.val).wrapped⟩

/-- A sum of unsigned words. -/
def addU (x y : UInt32) : Tracked UInt32 :=
  ⟨x + y, decide ((x + y).toNat ≠ x.toNat + y.toNat)⟩

/-- A product of unsigned words. -/
def mulU (x y : UInt32) : Tracked UInt32 :=
  ⟨x * y, decide ((x * y).toNat ≠ x.toNat * y.toNat)⟩

/-- A sum of signed words. -/
def addS (x y : Int32) : Tracked Int32 :=
  ⟨x + y, decide ((x + y).toInt ≠ x.toInt + y.toInt)⟩

/-- A product of signed words. -/
def mulS (x y : Int32) : Tracked Int32 :=
  ⟨x * y, decide ((x * y).toInt ≠ x.toInt * y.toInt)⟩

/-- No operation wraps exactly if `p` holds, and the value is as `post` says then. -/
structure Exactly (t : Tracked α) (p : Prop) (post : α → Prop) : Prop where
  iff : t.wrapped = false ↔ p
  val : p → post t.val

namespace Exactly

variable {t : Tracked α} {f : α → Tracked β} {p q : Prop} {post post' : α → Prop}
  {postB : β → Prop} {m n : Nat}

theorem pure {a : α} (h : post a) : Exactly (pure a : Tracked α) True post :=
  ⟨⟨fun _ => trivial, fun _ => rfl⟩, fun _ => h⟩

theorem bind (ht : Exactly t p post) (hf : ∀ a, post a → Exactly (f a) q postB) :
    Exactly (t >>= f) (p ∧ q) postB := by
  refine ⟨?_, fun hpq => (hf _ (ht.val hpq.1)).val hpq.2⟩
  have hwrapped : (t >>= f).wrapped = (t.wrapped || (f t.val).wrapped) := rfl
  rw [hwrapped, Bool.or_eq_false_iff, ht.iff]
  exact and_congr_right fun hp => (hf _ (ht.val hp)).iff

theorem congr (ht : Exactly t p post) (hpq : p ↔ q) (hpost : q → ∀ a, post a → post' a) :
    Exactly t q post' :=
  ⟨ht.iff.trans hpq, fun hq => hpost hq _ (ht.val (hpq.mpr hq))⟩

theorem addU {x y : UInt32} (hx : x.toNat = m) (hy : y.toNat = n) :
    Exactly (Tracked.addU x y) (m + n < 2 ^ 32) (fun z => z.toNat = m + n) := by
  subst hx hy
  have hlt : x.toNat + y.toNat < 2 ^ 32 ↔ (x + y).toNat = x.toNat + y.toNat :=
    ⟨toNat_add_of_lt, fun h => h ▸ (x + y).toNat_lt⟩
  exact ⟨decide_eq_false_iff_not.trans (not_not.trans hlt.symm), hlt.mp⟩

theorem mulU {x y : UInt32} (hx : x.toNat = m) (hy : y.toNat = n) :
    Exactly (Tracked.mulU x y) (m * n < 2 ^ 32) (fun z => z.toNat = m * n) := by
  subst hx hy
  have hlt : x.toNat * y.toNat < 2 ^ 32 ↔ (x * y).toNat = x.toNat * y.toNat :=
    ⟨toNat_mul_of_lt, fun h => h ▸ (x * y).toNat_lt⟩
  exact ⟨decide_eq_false_iff_not.trans (not_not.trans hlt.symm), hlt.mp⟩

theorem addS {x y : Int32} (hx : x.toInt = m) (hy : y.toInt = n) :
    Exactly (Tracked.addS x y) (m + n < 2 ^ 31) (fun z => z.toInt = (m + n : Nat)) := by
  have hlt : m + n < 2 ^ 31 ↔ (x + y).toInt = x.toInt + y.toInt := by
    rw [hx, hy]
    constructor
    · intro h
      rw [Int32.toInt_add, hx, hy]
      exact Int.bmod_eq_of_le (by omega) (by omega)
    · intro h
      have := (x + y).toInt_lt
      omega
  refine ⟨decide_eq_false_iff_not.trans (not_not.trans hlt.symm), fun h => ?_⟩
  have hval : (x + y).toInt = (m + n : Nat) := by
    rw [hlt.mp h, hx, hy, Int.natCast_add]
  exact hval

theorem mulS {x y : Int32} (hx : x.toInt = m) (hy : y.toInt = n) :
    Exactly (Tracked.mulS x y) (m * n < 2 ^ 31) (fun z => z.toInt = (m * n : Nat)) := by
  have hprod : x.toInt * y.toInt = (m * n : Nat) := by rw [hx, hy, Int.natCast_mul]
  have hlt : m * n < 2 ^ 31 ↔ (x * y).toInt = x.toInt * y.toInt := by
    rw [hprod]
    constructor
    · intro h
      rw [Int32.toInt_mul, hprod]
      exact Int.bmod_eq_of_le (by omega) (by omega)
    · intro h
      have := (x * y).toInt_lt
      omega
  refine ⟨decide_eq_false_iff_not.trans (not_not.trans hlt.symm), fun h => ?_⟩
  have hval : (x * y).toInt = (m * n : Nat) := (hlt.mp h).trans hprod
  exact hval

end Exactly

end Tracked

/-! ## Rounding up -/

/-- The least multiple of `b` from `n` on. -/
def alignUp (b n : Nat) : Nat := (n + (b - 1)) / b * b

theorem le_alignUp {b : Nat} (hb : 0 < b) (n : Nat) : n ≤ alignUp b n := by
  have := Nat.div_add_mod (n + (b - 1)) b
  have := Nat.mod_lt (n + (b - 1)) hb
  rw [alignUp, Nat.mul_comm]
  omega

theorem alignUp_lt {b : Nat} (hb : 0 < b) (n : Nat) : alignUp b n < n + b := by
  have := Nat.div_mul_le_self (n + (b - 1)) b
  unfold alignUp
  omega

theorem dvd_alignUp (b n : Nat) : b ∣ alignUp b n := Nat.dvd_mul_left _ _

theorem alignUp_of_dvd {b n : Nat} (hb : 0 < b) (h : b ∣ n) : alignUp b n = n := by
  obtain ⟨c, rfl⟩ := h
  rw [alignUp, Nat.mul_add_div hb, Nat.div_eq_of_lt (by omega), Nat.add_zero, Nat.mul_comm]

/-- What is rounded up stays below a multiple of `b` if nothing is carried past it. -/
theorem alignUp_lt_iff {b c : Nat} (hb : 0 < b) (hc : b ∣ c) (n : Nat) :
    alignUp b n < c ↔ n + (b - 1) < c := by
  obtain ⟨d, rfl⟩ := hc
  rw [alignUp, Nat.mul_comm b d, Nat.mul_lt_mul_right hb, Nat.div_lt_iff_lt_mul hb]

/-- A signed word that is not negative, as an unsigned one. -/
theorem toNat_toUInt32 {x : Int32} {n : Nat} (h : x.toInt = n) : x.toUInt32.toNat = n := by
  have hle : 0 ≤ x := by
    rw [Int32.le_iff_toInt_le, h]
    exact Int.natCast_nonneg n
  rw [Int32.toNat_toUInt32_of_le hle, Int32.toNatClampNeg, h, Int.toNat_natCast]

theorem toInt_of_toUInt32 {x : Int32} {n : Nat} (h : x.toUInt32.toNat = n) (hn : n < 2 ^ 31) :
    x.toInt = n := by
  have hint : x.toInt = x.toBitVec.toInt := rfl
  have hbits : x.toBitVec.toNat = n := h
  rw [hint, BitVec.toInt_eq_toNat_of_lt (by omega), hbits]

end SprdHal.Lib
