import SprdHal.Nvitem.Fs

/-!
# What the checksum of an image detects

`calc_checksum` adds the 16-bit words of an image in a 32-bit accumulator and folds the sum twice.
Two things are lost on the way. The accumulator wraps, which drops a carry of weight `2^32`, and the
fold keeps the sum modulo 65535 only, except that it tells 0 from its multiples. Since `2^32` is 1
modulo 65535, a dropped carry moves the folded sum by one; a byte, low or high in its word, moves it
by less than 65535. The two can cancel in one case only, and there one of the sums is 0.
-/

namespace SprdHal.Nvitem

/-- The sum of the words of an image, before any wrap. -/
def wordSum : List UInt8 → Nat
  | a :: b :: dat => a.toNat + 256 * b.toNat + wordSum dat
  | [a] => a.toNat
  | [] => 0

theorem toNat_word (a b : UInt8) :
    (a.toUInt32 ||| (b.toUInt32 <<< 8)).toNat = a.toNat + 256 * b.toNat := by
  have ha := a.toNat_lt
  have hb := b.toNat_lt
  have hshift : b.toNat <<< 8 = 256 * b.toNat := by rw [Nat.shiftLeft_eq]; omega
  have hor : a.toNat ||| b.toNat <<< 8 = b.toNat <<< 8 + a.toNat := by
    rw [Nat.or_comm]
    exact (Nat.shiftLeft_add_eq_or_of_lt (by omega) _).symm
  rw [UInt32.toNat_or, UInt32.toNat_shiftLeft, UInt8.toNat_toUInt32, UInt8.toNat_toUInt32]
  have hmod : b.toNat <<< (UInt32.toNat 8 % 32) % 4294967296 = b.toNat <<< 8 := by
    show b.toNat <<< 8 % 4294967296 = b.toNat <<< 8
    rw [hshift]
    omega
  rw [hmod, hor, hshift]
  omega

/-- The accumulator is the sum of the words, as far as 32 bits go. -/
theorem toNat_checksumLoop (chkSum : UInt32) (dat : List UInt8) :
    (checksumLoop chkSum dat).toNat = (chkSum.toNat + wordSum dat) % 4294967296 := by
  fun_induction checksumLoop chkSum dat with
  | case1 chkSum a b dat ih =>
    rw [ih, UInt32.toNat_add, toNat_word, wordSum]
    omega
  | case2 chkSum a =>
    rw [UInt32.toNat_add, UInt8.toNat_toUInt32, wordSum]
  | case3 chkSum =>
    have := chkSum.toNat_lt
    rw [wordSum]
    omega

/-- The two folds of a sum of 32 bits. -/
def fold16 (n : Nat) : Nat :=
  let t := n / 65536 + n % 65536
  (t + t / 65536) % 65536

theorem toNat_calcChecksum (dat : List UInt8) :
    (calcChecksum dat).toNat = 65535 - fold16 (wordSum dat % 4294967296) := by
  have hs : (checksumLoop 0 dat).toNat = wordSum dat % 4294967296 := by
    rw [toNat_checksumLoop, UInt32.toNat_zero, Nat.zero_add]
  have hlt := (checksumLoop 0 dat).toNat_lt
  unfold calcChecksum fold16
  rw [← hs]
  generalize checksumLoop 0 dat = w at hlt
  have hhigh : ∀ v : UInt32, (v >>> 16).toNat = v.toNat / 65536 := fun v => by
    rw [UInt32.toNat_shiftRight]
    exact Nat.shiftRight_eq_div_pow _ 16
  have hlow : (w &&& 0xffff).toNat = w.toNat % 65536 := by
    rw [UInt32.toNat_and]
    exact Nat.and_two_pow_sub_one_eq_mod _ 16
  simp only [UInt32.toNat_toUInt16, UInt32.toNat_not, UInt32.toNat_add, hhigh, hlow, UInt32.size]
  omega

/-- **The fold of a sum**: it is the sum modulo 65535, and only the sum 0 folds to 0. -/
theorem fold16_spec {n : Nat} (hn : n < 4294967296) :
    fold16 n % 65535 = n % 65535 ∧ fold16 n ≤ 65535 ∧ (fold16 n = 0 ↔ n = 0) := by
  have hq : n / 65536 ≤ 65535 := by omega
  have hr : n % 65536 ≤ 65535 := by omega
  generalize ht : n / 65536 + n % 65536 = t
  have hle : t ≤ 131070 := by omega
  have hfold : fold16 n = t ∧ t < 65536 ∨ fold16 n + 65535 = t ∧ 65536 ≤ t := by
    unfold fold16
    simp only [ht]
    have hc : t / 65536 = 0 ∨ t / 65536 = 1 := by omega
    rcases hc with hc | hc <;> rw [hc] <;> omega
  have hcut : n = t + 65535 * (n / 65536) := by omega
  have hmod : n % 65535 = t % 65535 := by rw [hcut, Nat.add_mul_mod_self_left]
  rw [hmod]
  omega

/-- Two sums that differ by what one byte can contribute never fold to the same value. -/
theorem fold16_ne {n d : Nat} (hd : 0 < d) (hlt : d < 65535) :
    fold16 (n % 4294967296) ≠ fold16 ((n + d) % 4294967296) := by
  intro he
  obtain ⟨h1, -, hz1⟩ := fold16_spec (Nat.mod_lt n (by decide : 4294967296 > 0))
  obtain ⟨h2, -, hz2⟩ := fold16_spec (Nat.mod_lt (n + d) (by decide : 4294967296 > 0))
  rw [he] at h1 hz1
  have hres := h1.symm.trans h2
  have hzero := hz1.symm.trans hz2
  have hwrap : (n + d) % 4294967296 = n % 4294967296 + d ∨
      (n + d) % 4294967296 + 4294967296 = n % 4294967296 + d := by omega
  have hm := Nat.mod_lt n (by decide : 4294967296 > 0)
  generalize n % 4294967296 = m at hres hzero hwrap hm
  generalize (n + d) % 4294967296 = m' at hres hzero hwrap
  clear h1 h2 hz1 hz2 he
  -- without a dropped carry the residues differ by `d`, with one by `d - 1`
  omega

/-! ## One byte of an image -/

/-- A byte goes into the sum with the weight of its place in its word. -/
theorem wordSum_byte (pre post : List UInt8) :
    ∃ base weight, (weight = 1 ∨ weight = 256) ∧
      ∀ b : UInt8, wordSum (pre ++ b :: post) = base + weight * b.toNat := by
  fun_induction wordSum pre with
  | case1 x y pre ih =>
    obtain ⟨base, weight, hw, h⟩ := ih
    refine ⟨x.toNat + 256 * y.toNat + base, weight, hw, fun b => ?_⟩
    rw [List.cons_append, List.cons_append, wordSum, h]
    omega
  | case2 x =>
    refine ⟨x.toNat + wordSum post, 256, Or.inr rfl, fun b => ?_⟩
    rw [List.cons_append, List.nil_append, wordSum]
    omega
  | case3 =>
    cases post with
    | nil => exact ⟨0, 1, Or.inl rfl, fun b => by rw [List.nil_append, wordSum]; omega⟩
    | cons y post =>
      refine ⟨256 * y.toNat + wordSum post, 1, Or.inl rfl, fun b => ?_⟩
      rw [List.nil_append, wordSum]
      omega

theorem calcChecksum_lt_byte (pre post : List UInt8) {b b' : UInt8} (h : b.toNat < b'.toNat) :
    calcChecksum (pre ++ b :: post) ≠ calcChecksum (pre ++ b' :: post) := by
  intro he
  obtain ⟨base, weight, hw, hsum⟩ := wordSum_byte pre post
  have hb' := b'.toNat_lt
  have hfold : fold16 (wordSum (pre ++ b :: post) % 4294967296) =
      fold16 (wordSum (pre ++ b' :: post) % 4294967296) := by
    have hn := congrArg UInt16.toNat he
    rw [toNat_calcChecksum, toNat_calcChecksum] at hn
    have h1 := (fold16_spec (Nat.mod_lt (wordSum (pre ++ b :: post))
      (by decide : 4294967296 > 0))).2.1
    have h2 := (fold16_spec (Nat.mod_lt (wordSum (pre ++ b' :: post))
      (by decide : 4294967296 > 0))).2.1
    omega
  have hdiff : wordSum (pre ++ b' :: post) =
      wordSum (pre ++ b :: post) + weight * (b'.toNat - b.toNat) := by
    rw [hsum, hsum]
    rcases hw with rfl | rfl <;> omega
  rw [hdiff] at hfold
  refine fold16_ne ?_ ?_ hfold
  · rcases hw with rfl | rfl <;> omega
  · rcases hw with rfl | rfl <;> omega

theorem calcChecksum_byte (pre post : List UInt8) {b b' : UInt8} (h : b ≠ b') :
    calcChecksum (pre ++ b :: post) ≠ calcChecksum (pre ++ b' :: post) := by
  have hne : b.toNat ≠ b'.toNat := fun e => h (UInt8.toNat_inj.mp e)
  rcases Nat.lt_or_gt_of_ne hne with hlt | hlt
  · exact calcChecksum_lt_byte pre post hlt
  · exact (calcChecksum_lt_byte pre post hlt).symm

/-- Lists of one length that differ at one index only are cut there. -/
theorem cut_at_difference {α : Type} {x y : List α} (hlen : x.length = y.length)
    (h : ∃! k : Nat, x[k]? ≠ y[k]?) :
    ∃ pre b b' post, x = pre ++ b :: post ∧ y = pre ++ b' :: post ∧ b ≠ b' := by
  obtain ⟨k, hk, huniq⟩ := h
  have hx : k < x.length := by
    by_contra hge
    exact hk (by rw [List.getElem?_eq_none (by omega), List.getElem?_eq_none (by omega)])
  have hsame : ∀ j, j ≠ k → x[j]? = y[j]? := fun j hj =>
    Classical.byContradiction fun hne => hj (huniq j hne)
  have hpre : x.take k = y.take k := List.ext_getElem? fun j => by
    by_cases hj : j < k
    · rw [List.getElem?_take_of_lt hj, List.getElem?_take_of_lt hj, hsame j (by omega)]
    · rw [List.getElem?_eq_none (by simp; omega), List.getElem?_eq_none (by simp; omega)]
  have hpost : x.drop (k + 1) = y.drop (k + 1) := List.ext_getElem? fun j => by
    rw [List.getElem?_drop, List.getElem?_drop, hsame _ (by omega)]
  refine ⟨x.take k, x[k], y[k], x.drop (k + 1), ?_, ?_, fun e => hk ?_⟩
  · rw [List.getElem_cons_drop, List.take_append_drop]
  · rw [hpre, hpost, List.getElem_cons_drop, List.take_append_drop]
  · rw [List.getElem?_eq_getElem hx, List.getElem?_eq_getElem (by omega), e]

/-- **Every single-byte corruption of an image is detected**, whatever the length of the image. -/
theorem checksum_detects_byte {x y : List UInt8} (hlen : x.length = y.length)
    (h : ∃! k : Nat, x[k]? ≠ y[k]?) :
    calcChecksum x ≠ calcChecksum y ∧ chkNVEcc y (calcChecksum x) = false := by
  obtain ⟨pre, b, b', post, rfl, rfl, hb⟩ := cut_at_difference hlen h
  have hne := calcChecksum_byte pre post hb
  exact ⟨hne, beq_eq_false_iff_ne.mpr hne.symm⟩

theorem checksum_detects_last_byte :
    calcChecksum [0xff, 0xff, 1] ≠ calcChecksum [0xff, 0xff, 2] ∧
      chkNVEcc [0xff, 0xff, 2] (calcChecksum [0xff, 0xff, 1]) = false :=
  checksum_detects_byte rfl ⟨2, by decide, fun k hk => by
    by_contra hne
    have hcases : k = 0 ∨ k = 1 ∨ 3 ≤ k := by omega
    rcases hcases with rfl | rfl | hge
    · exact hk rfl
    · exact hk rfl
    · exact hk (by rw [List.getElem?_eq_none hge, List.getElem?_eq_none hge])⟩

end SprdHal.Nvitem
