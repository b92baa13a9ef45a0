import SprdHal.Audio.NvLine

/-!
# Reading a written line of the equalizer

The keys of the equalizer have no separator, so they are searched in every part of the path on its
own. The mode and the band are read off the line; the letter `q` is searched behind the digit of the
band, because the key of the bands has one itself (`bandItem_written`).
-/

namespace SprdHal.Audio

open SprdHal.Lib

theorem occurs_self_append (k rest : Text) : occurs k (k ++ rest) = true := by
  rw [occurs_iff]
  exact (List.prefix_append k rest).isInfix

/-- A key of the equalizer in the name, behind `EQ_`. -/
theorem eqKeys_name {name : Text} (hname : NameOk name) :
    occurs eqControlKey ("EQ_".toList ++ name) = false ∧
      occurs eqModeKey ("EQ_".toList ++ name) = false :=
  ⟨hname.control, hname.mode⟩

section Eq

variable {k : Text} (hk : KeyOk k) (hsep : '\\' ∉ k)

include hsep

/-- A key without a separator is in a part of the line, or it is in none. -/
theorem occurs_eqLine (name rest : Text) :
    occurs k (lineHead .eq name ++ '\\' :: rest) =
      (occurs k "%audio".toList || (occurs k ("EQ_".toList ++ name) || occurs k rest)) := by
  have hline : lineHead .eq name ++ '\\' :: rest =
      "%audio".toList ++ '\\' :: (("EQ_".toList ++ name) ++ '\\' :: rest) := List.append_assoc ..
  rw [hline, occurs_append_cons hsep, occurs_append_cons hsep]

include hk

theorem occurs_modeLine (i : Int) (p : Text) (v : Nat) :
    occurs k (eqModeKey ++ (indexDigits i ++ '\\' :: (p ++ '=' :: valueLine v))) =
      (occurs k eqModeKey || occurs k p) := by
  rw [occurs_index hk hsep]
  exact congrArg (occurs k eqModeKey || ·) (occurs_written hk p none 0 v)

theorem occurs_bandLine (i : Int) (p : Text) (v : Nat) :
    occurs k (eqBandKey ++ (indexDigits i ++ '\\' :: (p ++ '=' :: valueLine v))) =
      (occurs k eqBandKey || occurs k p) := by
  rw [occurs_index hk hsep]
  exact congrArg (occurs k eqBandKey || ·) (occurs_written hk p none 0 v)

end Eq

theorem eqControlKey_ok : KeyOk eqControlKey ∧ '\\' ∉ eqControlKey := by decide

theorem eqModeKey_ok : KeyOk eqModeKey ∧ '\\' ∉ eqModeKey := by decide

theorem eqBandKey_ok : KeyOk eqBandKey ∧ '\\' ∉ eqBandKey := by decide

theorem eqModeKeys_ok : ∀ k ∈ eqModeKeys, KeyOk k.1 ∧ '\\' ∉ k.1 := by decide

/-- The keys of the members of a band. -/
theorem bandKeys_ok (x : BandItem) : KeyOk x.path ∧ '\\' ∉ x.path := by cases x <;> decide

/-- The modes and the bands have one digit, which is no 0. -/
theorem smallDigits : ∀ n < 8, (Nat.toDigits 10 (n + 1)).length = 1 ∧
    (Nat.toDigits 10 (n + 1)).all isOneToNine = true := by decide

theorem indexDigits_small {i : Int} (h0 : 0 ≤ i) (hi : i < 8) :
    (indexDigits (i + 1)).length = 1 ∧ ∀ c ∈ indexDigits (i + 1), isOneToNine c = true := by
  have hnat : (i + 1).toNat = i.toNat + 1 := by omega
  unfold indexDigits
  rw [hnat]
  obtain ⟨hone, hdigits⟩ := smallDigits i.toNat (by omega)
  exact ⟨hone, List.all_eq_true.1 hdigits⟩

/-- **The member of a band in a written line.** -/
theorem bandItem_written {nvLine a : Text} {i : Int} (x : BandItem) (v : Nat) (rest : Text)
    (h0 : 0 ≤ i) (hi : i < 8)
    (hbuf : nvLine = (a ++ (eqBandKey ++ (indexDigits (i + 1) ++
      '\\' :: (x.path ++ '=' :: valueLine v)))) ++ '\x00' :: rest) :
    bandItem nvLine (a ++ (eqBandKey ++ (indexDigits (i + 1) ++
        '\\' :: (x.path ++ '=' :: valueLine v))))
      (eqBandKey ++ (indexDigits (i + 1) ++ '\\' :: (x.path ++ '=' :: valueLine v))) = some x := by
  have hlen : (eqBandKey ++ indexDigits (i + 1)).length = 9 := by
    rw [List.length_append, (indexDigits_small h0 hi).1]
    rfl
  have hkeys : ∀ y : BandItem, y ≠ .q → occurs y.path (eqBandKey ++ (indexDigits (i + 1) ++
      '\\' :: (x.path ++ '=' :: valueLine v))) = occurs y.path x.path := by
    intro y hy
    have hfront : occurs y.path eqBandKey = false := by
      cases y with
      | q => exact absurd rfl hy
      | fo => decide
      | boostdB => decide
      | gaindB => decide
    rw [occurs_bandLine (bandKeys_ok y).1 (bandKeys_ok y).2, hfront, Bool.false_or]
  have hletter : occurs BandItem.q.path ('\\' :: (x.path ++ '=' :: valueLine v)) =
      occurs BandItem.q.path x.path := by
    have hsplit := occurs_append_cons (a := []) (b := x.path ++ '=' :: valueLine v)
      (bandKeys_ok .q).2
    refine hsplit.trans ?_
    exact occurs_written (bandKeys_ok .q).1 x.path none 0 v
  -- 9 characters behind the start of the key the rest of the path begins
  have hbehind : ∀ q, q = eqBandKey ++ (indexDigits (i + 1) ++
      '\\' :: (x.path ++ '=' :: valueLine v)) →
      cstr (((a ++ q) ++ '\x00' :: rest).drop ((a ++ q).length - q.length + 9)) =
        '\\' :: (x.path ++ '=' :: valueLine v) := by
    rintro q rfl
    have hnul : '\x00' ∉ '\\' :: (x.path ++ '=' :: valueLine v) := by
      have hpath : '\x00' ∉ x.path := by cases x <;> decide
      intro h
      rcases List.mem_cons.1 h with h | h
      · exact absurd h (by decide)
      · rcases List.mem_append.1 h with h | h
        · exact hpath h
        · rcases List.mem_cons.1 h with h | h
          · exact absurd h (by decide)
          · exact not_mem_valueLine (by decide) v h
    rw [List.length_append, Nat.add_sub_cancel, ← List.append_assoc eqBandKey, List.append_assoc a,
      ← List.drop_drop, List.drop_left, List.append_assoc, ← hlen, List.drop_left]
    exact cstr_append_nul hnul
  have hfo := hkeys .fo (by decide)
  have hboost := hkeys .boostdB (by decide)
  have hgain := hkeys .gaindB (by decide)
  subst hbuf
  generalize hq : eqBandKey ++ (indexDigits (i + 1) ++ '\\' :: (x.path ++ '=' :: valueLine v)) = q
    at hfo hboost hgain
  unfold bandItem
  rw [hbehind q hq.symm]
  show (if occurs BandItem.fo.path q = true then some BandItem.fo else
    if occurs BandItem.q.path ('\\' :: (x.path ++ '=' :: valueLine v)) = true then some BandItem.q else
    if occurs BandItem.boostdB.path q = true then some BandItem.boostdB else
    if occurs BandItem.gaindB.path q = true then some BandItem.gaindB else none) = some x
  rw [hletter, hfo, hboost, hgain]
  cases x <;> decide

section Written

variable {m : ModeItem} (hm : NameOk m.name) (s : Reader)

include hm

/-- The equalizer's keys are looked for behind the name. -/
theorem occurs_eqControl (rest : Text) :
    occurs eqControlKey (lineHead .eq m.name ++ '\\' :: rest) = occurs eqControlKey rest := by
  have hhead : occurs eqControlKey "%audio".toList = false := by decide
  rw [occurs_eqLine eqControlKey_ok.2, hhead, (eqKeys_name hm).1, Bool.false_or, Bool.false_or]

theorem occurs_eqMode (rest : Text) :
    occurs eqModeKey (lineHead .eq m.name ++ '\\' :: rest) = occurs eqModeKey rest := by
  have hhead : occurs eqModeKey "%audio".toList = false := by decide
  rw [occurs_eqLine eqModeKey_ok.2, hhead, (eqKeys_name hm).2, Bool.false_or, Bool.false_or]

theorem strstr_eqModeKey (rest : Text) :
    strstr eqModeKey (lineHead .eq m.name ++ '\\' :: (eqModeKey ++ rest)) =
      some (eqModeKey ++ rest) := by
  have hclosed : occurs eqModeKey eqModeKey.dropLast = false := by decide
  rw [← List.singleton_append, ← List.append_assoc]
  apply strstr_first (by decide)
  rw [List.append_assoc, List.singleton_append, occurs_eqMode hm, hclosed]

omit hm in
theorem strstr_eqBandKey (i : Int) (rest : Text) :
    strstr eqBandKey (eqModeKey ++ (indexDigits i ++ '\\' :: (eqBandKey ++ rest))) =
      some (eqBandKey ++ rest) := by
  have hclosed : occurs eqBandKey eqModeKey = false ∧ occurs eqBandKey eqBandKey.dropLast = false := by
    decide
  have hline : eqModeKey ++ (indexDigits i ++ '\\' :: (eqBandKey ++ rest)) =
      (eqModeKey ++ (indexDigits i ++ ['\\'])) ++ (eqBandKey ++ rest) := by
    rw [List.append_assoc, List.append_assoc, List.singleton_append]
  rw [hline]
  apply strstr_first (by decide)
  rw [List.append_assoc, List.append_assoc, List.singleton_append,
    occurs_index eqBandKey_ok.1 eqBandKey_ok.2, hclosed.1, hclosed.2]
  rfl

theorem reads_eqControl (v : Nat) : Reads s (nvline m .eqControl v) .eqControl v := by
  refine ⟨nvline m .eqControl v, ?_, valueText_nvline hm _ v⟩
  have hkey : occurs eqControlKey (nvline m .eqControl v) = true :=
    (occurs_eqControl hm _).trans (occurs_self_append _ _)
  show (s.eqReading _).target = _
  unfold Reader.eqReading
  rw [if_pos hkey]
  rfl

theorem reads_eqMode {i : Int} (x : EqModeItem) (v : Nat) (h0 : 0 ≤ i) (hi : i < 6) :
    Reads s (nvline m (.eqMode i x) v) (.eqMode i x) v := by
  obtain ⟨hok, hvalue⟩ := indexDigits_ok (i := i + 1) (by omega) (by omega)
  have hnonzero := (indexDigits_small h0 (by omega)).2
  have hline : nvline m (.eqMode i x) v = lineHead .eq m.name ++ '\\' :: (eqModeKey ++
      (indexDigits (i + 1) ++ '\\' :: (x.path ++ '=' :: valueLine v))) := by
    show lineHead .eq m.name ++ '\\' :: ((eqModeKey ++ (indexDigits (i + 1) ++ '\\' :: x.path)) ++
      '=' :: valueLine v) = _
    rw [List.append_assoc, List.append_assoc, List.cons_append]
  have hcontrol : occurs eqControlKey (nvline m (.eqMode i x) v) = false := by
    have hclosed : occurs eqControlKey eqModeKey = false ∧ occurs eqControlKey x.path = false := by
      cases x <;> decide
    rw [hline, occurs_eqControl hm, occurs_modeLine eqControlKey_ok.1 eqControlKey_ok.2, hclosed.1,
      hclosed.2]
    rfl
  have hkey : firstKey eqModeKeys (eqModeKey ++ (indexDigits (i + 1) ++
      '\\' :: (x.path ++ '=' :: valueLine v))) = some x := by
    have hfirst : firstKey eqModeKeys x.path = some x := by cases x <;> decide
    have hfront : ∀ k ∈ eqModeKeys, occurs k.1 eqModeKey = false := by decide
    rw [← hfirst]
    apply firstKey_congr
    intro k hk
    obtain ⟨hkey, hsep⟩ := eqModeKeys_ok k hk
    rw [occurs_modeLine hkey hsep, hfront k hk, Bool.false_or]
  refine ⟨nvline m (.eqMode i x) v, ?_, valueText_nvline hm _ v⟩
  show (s.eqReading _).target = _
  unfold Reader.eqReading
  rw [if_neg (by rw [hcontrol]; decide), hline, strstr_eqModeKey hm]
  dsimp only
  rw [hkey]
  dsimp only
  rw [List.drop_left, scanIndex_digits (indexDigits_ne_nil _) hnonzero (by decide), hok.atoi_eq,
    hvalue, Int.add_sub_cancel]
  rfl

theorem reads_eqBand {i b : Int} (x : BandItem) (v : Nat) (h0 : 0 ≤ i) (hi : i < 6) (h0' : 0 ≤ b)
    (hb : b < 8) {rest : Text} (hbuf : s.nvLine = nvline m (.eqBand i b x) v ++ '\x00' :: rest) :
    Reads s (nvline m (.eqBand i b x) v) (.eqBand i b x) v := by
  obtain ⟨hok, hvalue⟩ := indexDigits_ok (i := i + 1) (by omega) (by omega)
  obtain ⟨hok', hvalue'⟩ := indexDigits_ok (i := b + 1) (by omega) (by omega)
  have hnonzero := (indexDigits_small h0 (by omega)).2
  generalize hw : (Field.eqBand i b x).ivalue v = w
  have hline : nvline m (.eqBand i b x) v = lineHead .eq m.name ++ '\\' :: (eqModeKey ++
      (indexDigits (i + 1) ++ '\\' :: (eqBandKey ++ (indexDigits (b + 1) ++
        '\\' :: (x.path ++ '=' :: valueLine w))))) := by
    rw [← hw]
    show lineHead .eq m.name ++ '\\' :: ((eqModeKey ++ (indexDigits (i + 1) ++ '\\' ::
      (eqBandKey ++ (indexDigits (b + 1) ++ '\\' :: x.path)))) ++ '=' :: _) = _
    rw [List.append_assoc, List.append_assoc, List.cons_append, List.append_assoc,
      List.append_assoc, List.cons_append]
  have hcontrol : occurs eqControlKey (nvline m (.eqBand i b x) v) = false := by
    have hclosed : (occurs eqControlKey eqModeKey = false ∧ occurs eqControlKey eqBandKey = false) ∧
        occurs eqControlKey x.path = false := by
      cases x <;> decide
    rw [hline, occurs_eqControl hm, occurs_index eqControlKey_ok.1 eqControlKey_ok.2,
      occurs_bandLine eqControlKey_ok.1 eqControlKey_ok.2, hclosed.1.1, hclosed.1.2, hclosed.2]
    rfl
  have hmode : firstKey eqModeKeys (eqModeKey ++ (indexDigits (i + 1) ++ '\\' :: (eqBandKey ++
      (indexDigits (b + 1) ++ '\\' :: (x.path ++ '=' :: valueLine w))))) = none := by
    have hclosed : ∀ k ∈ eqModeKeys, (occurs k.1 eqModeKey = false ∧ occurs k.1 eqBandKey = false) ∧
        occurs k.1 x.path = false := by
      cases x <;> decide
    apply firstKey_eq_none
    intro k hk
    obtain ⟨hkey, hsep⟩ := eqModeKeys_ok k hk
    obtain ⟨⟨hfront, hband⟩, hback⟩ := hclosed k hk
    rw [occurs_index hkey hsep, occurs_bandLine hkey hsep, hfront, hband, hback]
    rfl
  have hitem : bandItem s.nvLine (nvline m (.eqBand i b x) v) (eqBandKey ++
      (indexDigits (b + 1) ++ '\\' :: (x.path ++ '=' :: valueLine w))) = some x := by
    have hpre : nvline m (.eqBand i b x) v = (lineHead .eq m.name ++ '\\' :: (eqModeKey ++
        (indexDigits (i + 1) ++ ['\\']))) ++ (eqBandKey ++ (indexDigits (b + 1) ++
          '\\' :: (x.path ++ '=' :: valueLine w))) := by
      rw [hline, List.append_assoc, List.cons_append, List.append_assoc, List.append_assoc,
        List.singleton_append]
    rw [hpre] at hbuf ⊢
    exact bandItem_written x w rest h0' hb hbuf
  refine ⟨nvline m (.eqBand i b x) v, ?_, valueText_nvline hm _ v⟩
  show (s.eqReading _).target = _
  unfold Reader.eqReading
  rw [if_neg (by rw [hcontrol]; decide)]
  have hp : strstr eqModeKey (nvline m (.eqBand i b x) v) = some (eqModeKey ++
      (indexDigits (i + 1) ++ '\\' :: (eqBandKey ++ (indexDigits (b + 1) ++
        '\\' :: (x.path ++ '=' :: valueLine w))))) := by
    rw [hline]
    exact strstr_eqModeKey hm _
  rw [hp]
  dsimp only
  rw [hmode]
  dsimp only
  rw [strstr_eqBandKey]
  dsimp only
  rw [hitem]
  dsimp only
  rw [List.drop_left, List.drop_left, scanIndex_digits (indexDigits_ne_nil _) hnonzero (by decide),
    scanIndex_digits (indexDigits_ne_nil _) hok'.digits (by decide), hok.atoi_eq, hok'.toShort_eq,
    hvalue, hvalue', Int.add_sub_cancel, Int.add_sub_cancel]
  rfl

theorem reads_extendArray (k v : Nat) :
    Reads s (nvline m (.extendArray k) v) (.extendArray k) v := by
  have hkey : KeyOk extendArrayKey ∧ '\\' ∉ extendArrayKey := by decide
  have hpath : ∀ j : Text, (KeyOk j ∧ '\\' ∉ j) → ∀ w, occurs j ("extendArray\\extendArray".toList ++
      (elementBracket (some .extendArray) k ++ '=' :: valueLine w)) =
        occurs j "extendArray\\extendArray".toList :=
    fun j hj w => occurs_written hj.1 _ _ _ w
  have hline : nvline m (.extendArray k) v = lineHead .eq m.name ++ '\\' ::
      ("extendArray\\extendArray".toList ++
        (elementBracket (some .extendArray) k ++ '=' :: valueLine v)) := by
    show lineHead .eq m.name ++ '\\' :: (("extendArray\\extendArray".toList ++
      elementBracket (some .extendArray) k) ++ '=' :: _) = _
    rw [List.append_assoc]
    rfl
  have hclosed : (occurs eqControlKey "extendArray\\extendArray".toList = false ∧
      occurs eqModeKey "extendArray\\extendArray".toList = false) ∧
      occurs extendArrayKey "extendArray\\extendArray".toList = true := by decide
  have hcontrol : occurs eqControlKey (nvline m (.extendArray k) v) = false := by
    rw [hline, occurs_eqControl hm, hpath _ eqControlKey_ok, hclosed.1.1]
  have hmode : strstr eqModeKey (nvline m (.extendArray k) v) = none := by
    rw [← Option.not_isSome_iff_eq_none]
    show ¬ occurs eqModeKey _ = true
    rw [hline, occurs_eqMode hm, hpath _ eqModeKey_ok, hclosed.1.2]
    decide
  have hextend : occurs extendArrayKey (nvline m (.extendArray k) v) = true := by
    rw [hline, occurs_eqLine hkey.2, hpath _ hkey, hclosed.2, Bool.or_true, Bool.or_true]
  refine ⟨nvline m (.extendArray k) v, ?_, valueText_nvline hm _ v⟩
  show (s.eqReading _).target = _
  unfold Reader.eqReading
  rw [if_neg (by rw [hcontrol]; decide), hmode]
  dsimp only
  unfold Reader.extendReading
  rw [if_pos hextend]
  rfl

/-- **Every written line is read as the one of its field and its value.** -/
theorem reads_nvline {f : Field} (hf : f.InRange) (v : Nat) {rest : Text}
    (hbuf : s.nvLine = nvline m f v ++ '\x00' :: rest) : Reads s (nvline m f v) f v := by
  cases f with
  | arm x k => exact reads_arm hm s x k v
  | app j x k => exact reads_app hm s x k v hf.1.1 hf.1.2
  | eqControl => exact reads_eqControl hm s v
  | eqMode i x => exact reads_eqMode hm s x v hf.1 hf.2
  | eqBand i b x => exact reads_eqBand hm s x v hf.1.1 hf.1.2 hf.2.1 hf.2.2 hbuf
  | extendArray k => exact reads_extendArray hm s k v

end Written

end SprdHal.Audio
