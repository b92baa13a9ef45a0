import SprdHal.Jpeg.Header

/-!
# From the header back to the tables

Each segment that the encoder writes is read back by its handler; `header_round_trip` puts the
segments together.
-/

namespace SprdHal.Jpeg

variable {k : Codec} {r : List UInt8}

/-! ## Rounds of `ProcessTables` -/

/-- A segment that its handler accepts is one round. -/
theorem processTables_segment {m : UInt8} {h : Handler} {s : Decoder} (ha : actionOf m = .handle h)
    (h0 : m ≠ 0) (hff : m ≠ 0xFF) (hrun : h.run ⟨r, k⟩ = some s) :
    processTables ⟨putMarker m ++ r, k⟩ = processTables s := by
  obtain ⟨n, tn⟩ := h.took hrun
  have hlen : s.rest.length < (putMarker m ++ r).length := by
    have hle : s.rest.length + n = r.length := tn.length
    simp only [putMarker, List.cons_append, List.nil_append, List.length_cons]
    omega
  rw [processTables, getNextMarker_putMarker h0 hff]
  simp only [ha, hrun, if_pos hlen]

/-- The marker at which `ProcessTables` stops. -/
theorem processTables_stop {m : UInt8} (ha : actionOf m = .stop) (h0 : m ≠ 0) (hff : m ≠ 0xFF) :
    processTables ⟨putMarker m ++ r, k⟩ = some (m, ⟨r, k⟩) := by
  rw [processTables, getNextMarker_putMarker h0 hff]
  simp only [ha]

theorem findSOI_putMarker : findSOI ⟨putMarker markerSOI ++ r, k⟩ = some ⟨r, k⟩ := by
  rw [findSOI, getNextMarker_putMarker (by decide) (by decide)]
  rfl

/-! ## Segments -/

theorem getAPP0_putAPP0 :
    processTables ⟨putAPP0 ++ r, k⟩ = processTables ⟨r, k⟩ := by
  have hsplit : putAPP0 ++ r = putMarker 0xE0 ++ (putW 16 ++
      ([0x4A, 0x46, 0x49, 0x46, 0, 1, 1, 0, 0, 1, 0, 1, 0, 0] ++ r)) := by
    simp [putAPP0, putW]
  rw [hsplit]
  refine processTables_segment (h := .app0) (by decide) (by decide) (by decide) ?_
  simp only [Handler.run]
  unfold getAPP0
  rw [bind_putW (by decide)]
  simp only
  rw [if_neg (by decide), if_pos (by decide), bind_append (by rfl)]
  rfl

/-- The entries of a quantisation table in the order of the header. -/
theorem putOneQuantTbl_eq (t : Tables) (i : Fin 2) :
    putOneQuantTbl t i = putMarker 0xDB ++ (putW 67 ++ (UInt8.ofNat i.val ::
      zigzagOrder.map fun j => (t.quantTbl i).values.getD j 0)) := by
  have hmap : (zigzagOrder.map fun j => (t.quantTbl i).values.getD j 0) =
      (List.range 32).map (fun k => (t.quantTbl i).values.getD (zigzagOrder.getD k 0) 0) ++
        (List.range 32).map fun k => (t.quantTbl i).values.getD (zigzagOrder.getD (32 + k) 0) 0 := by
    rfl
  rw [hmap]
  simp [putOneQuantTbl]

/-- Writing `f i` at every place `i` of a list of places gives `f` there. -/
theorem getElem?_foldl_set {α : Type} (f : Nat → α) (l : List Nat) (t : List α) (j : Nat) :
    ((l.zip (l.map f)).foldl (fun t e => t.set e.1 e.2) t)[j]? =
      if j ∈ l ∧ j < t.length then some (f j) else t[j]? := by
  induction l generalizing t with
  | nil => simp
  | cons i l ih =>
    rw [List.map_cons, List.zip_cons_cons, List.foldl_cons, ih, List.length_set]
    by_cases hj : j ∈ l
    · by_cases hlt : j < t.length
      · simp [hj, hlt]
      · simp [hlt]
    · by_cases hij : i = j
      · subst hij
        by_cases hlt : i < t.length
        · simp [hj, hlt]
        · simp [hj, hlt]
      · simp [hj, hij, Ne.symm hij]

theorem mem_zigzagOrder {j : Nat} (h : j < 64) : j ∈ zigzagOrder := by
  revert j
  decide

/-- **The zigzag order is undone.** -/
theorem unzigzag_map {q : List UInt8} (hq : q.length = 64) :
    unzigzag (zigzagOrder.map fun j => q.getD j 0) = q := by
  refine List.ext_getElem? fun j => ?_
  unfold unzigzag
  rw [getElem?_foldl_set, List.length_replicate]
  by_cases hj : j < 64
  · have hlt : j < q.length := hq ▸ hj
    rw [if_pos ⟨mem_zigzagOrder hj, hj⟩, List.getD_eq_getElem?_getD, List.getElem?_eq_getElem hlt]
    rfl
  · rw [if_neg fun h => hj h.2, List.getElem?_eq_none (by simpa using hj),
      List.getElem?_eq_none (by omega)]

theorem getQuantTbl_putOneQuantTbl (t : Tables) (i : Fin 2) :
    processTables ⟨putOneQuantTbl t i ++ r, k⟩ =
      processTables ⟨r, { k with quantTbl := k.quantTbl.set i.val (some (t.quantTbl i).values) }⟩ := by
  have hi : (UInt8.ofNat i.val).toNat = i.val := toNat_ofNat_lt (by omega)
  rw [putOneQuantTbl_eq, List.append_assoc, List.append_assoc, List.cons_append]
  refine processTables_segment (h := .dqt) (by decide) (by decide) (by decide) ?_
  have hloop : getQuantTblLoop 65 false ⟨UInt8.ofNat i.val ::
      ((zigzagOrder.map fun j => (t.quantTbl i).values.getD j 0) ++ r), k⟩ = some (false,
        ⟨r, { k with quantTbl := k.quantTbl.set i.val (some (t.quantTbl i).values) }⟩) := by
    have hprec : i.val / 16 = 0 := by omega
    have hn : i.val % 16 = i.val := by omega
    have hle : ¬2 < i.val := by omega
    have hone : decide (1 < i.val) = false := decide_eq_false (by omega)
    rw [getQuantTblLoop, dif_pos (by decide), getChar_cons]
    simp only [hi, hprec, hn, if_neg hle, getQuantValues, if_true]
    rw [getChars_append (by rfl)]
    simp only [hone, unzigzag_map (t.quantTbl i).length_values]
    rw [if_neg (by decide), getQuantTblLoop, dif_neg (by decide)]
    rfl
  simp only [Handler.run]
  unfold getQuantTbl
  rw [bind_putW (by decide)]
  simp only
  rw [if_neg (by decide), hloop]
  rfl

/-- Two numbers of four bits in one byte. -/
theorem toNat_nibbles {a b : Nat} (ha : a < 16) (hb : b < 16) :
    (UInt8.ofNat (a <<< 4 ||| b)).toNat = a * 16 + b := by
  rw [← Nat.shiftLeft_add_eq_or_of_lt (show b < 2 ^ 4 from hb), Nat.shiftLeft_eq]
  exact toNat_ofNat_lt (by omega)

/-- What `JpegEnc_InitParam` promises. -/
theorem initParam_spec {level : Nat} {input : EncInput} {e : EncParam}
    (h : initParam level input = some e) :
    e.width < 2 ^ 16 ∧ e.height < 2 ^ 16 ∧ ratioOf e.inputMcuInfo = some e.ratio ∧
      e.restartInterval = input.restartInterval := by
  unfold initParam at h
  split at h
  · cases h
  split at h
  · cases h
  split at h
  · cases h
  split at h
  · cases h
  rename_i ratio hratio
  cases h
  exact ⟨Nat.mod_lt _ (by decide), Nat.mod_lt _ (by decide), hratio, rfl⟩

/-- One component of the frame. -/
theorem getSOFComponents_put {e : EncParam} (t : Tables) (i : Fin 3) {h v : Nat} (hh : h < 16)
    (hv : v < 16) (hratio : e.ratio i = (h, v)) :
    getSOFComponents 3 i.val ⟨putFrameComponent e t i ++ r, k⟩ =
      getSOFComponents 3 (i.val + 1) ⟨r,
        { k with
          compInfo := k.compInfo ++ [⟨i.val, i.val + 1, h, v, if i.val = 0 then h else 1,
            if i.val = 0 then v else 1⟩]
          tblMap := k.tblMap.modify i.val
            fun m => { m with quantTblId := (t.tblMap i).quantTblId } }⟩ := by
  have hid : (UInt8.ofNat (i.val + 1)).toNat = i.val + 1 := toNat_ofNat_lt (by omega)
  have hquant : (UInt8.ofNat (t.tblMap i).quantTblId).toNat = (t.tblMap i).quantTblId :=
    toNat_ofNat_lt (Nat.lt_of_le_of_lt (t.tblMap i).quant_le (by decide))
  have hbyte := toNat_nibbles hh hv
  have hdiv : (h * 16 + v) / 16 = h := by omega
  have hmod : (h * 16 + v) % 16 = v := by omega
  rw [getSOFComponents, if_pos i.isLt]
  simp only [putFrameComponent, List.cons_append, List.nil_append]
  rw [bind_cons]
  simp only [hid]
  rw [if_neg (by omega), bind_cons]
  simp only
  rw [bind_cons]
  simp only [hquant]
  rw [if_neg (Nat.not_lt.mpr (t.tblMap i).quant_le)]
  simp only [Codec.addComponent, hratio, hbyte, hdiv, hmod, hid, hquant, Nat.add_sub_cancel]

/-- All components of the frame. -/
theorem getSOFComponents_all {e : EncParam} (t : Tables) {v : Nat} (hv : v < 16)
    (h0 : e.ratio 0 = (2, v)) (h1 : e.ratio 1 = (1, 1)) (h2 : e.ratio 2 = (1, 1)) :
    getSOFComponents 3 0 ⟨putFrameComponent e t 0 ++ (putFrameComponent e t 1 ++
        (putFrameComponent e t 2 ++ r)), k⟩ =
      some ⟨r,
        { k with
          compInfo := k.compInfo ++ [⟨0, 1, 2, v, 2, v⟩, ⟨1, 2, 1, 1, 1, 1⟩, ⟨2, 3, 1, 1, 1, 1⟩]
          tblMap := ((k.tblMap.modify 0 fun m =>
              { m with quantTblId := (t.tblMap 0).quantTblId }).modify 1
            fun m => { m with quantTblId := (t.tblMap 1).quantTblId }).modify 2
            fun m => { m with quantTblId := (t.tblMap 2).quantTblId } }⟩ := by
  refine (getSOFComponents_put t 0 (by decide) hv h0).trans ?_
  refine (getSOFComponents_put t 1 (by decide) (by decide) h1).trans ?_
  refine (getSOFComponents_put t 2 (by decide) (by decide) h2).trans ?_
  rw [getSOFComponents, if_neg (by decide)]
  simp

theorem getSOF_putSOF0 {e : EncParam} (t : Tables) (hw : e.width < 2 ^ 16) (hh : e.height < 2 ^ 16)
    (hratio : ratioOf e.inputMcuInfo = some e.ratio) :
    processTables ⟨putSOF0 e t ++ r, k⟩ = processTables ⟨r, frameCodec e t k⟩ := by
  have hsplit : putSOF0 e t ++ r = putMarker 0xC0 ++ (putW 17 ++ (8 :: (putW e.height ++
      (putW e.width ++ (3 :: (putFrameComponent e t 0 ++ (putFrameComponent e t 1 ++
        (putFrameComponent e t 2 ++ r)))))))) := by
    simp [putSOF0]
  -- the picture is YUV420 or YUV422
  obtain ⟨v, hv, h0, h1, h2, hmcu⟩ : ∃ v, v < 16 ∧ e.ratio 0 = (2, v) ∧ e.ratio 1 = (1, 1) ∧
      e.ratio 2 = (1, 1) ∧ mcuInfoOf (2 * 16 + v) = some e.inputMcuInfo := by
    unfold ratioOf at hratio
    split at hratio
    · rename_i hm
      rw [← Option.some.inj hratio, hm]
      exact ⟨2, by decide, rfl, rfl, rfl, rfl⟩
    · rename_i hm
      rw [← Option.some.inj hratio, hm]
      exact ⟨1, by decide, rfl, rfl, rfl, rfl⟩
    · cases hratio
  rw [hsplit]
  refine processTables_segment (h := .sof false) (by decide) (by decide) (by decide) ?_
  simp only [Handler.run]
  unfold getSOF
  rw [bind_putW (by decide)]
  simp only
  rw [if_neg (by decide), bind_cons]
  simp only [ne_eq, not_true_eq_false, if_false]
  rw [bind_putW hh]
  simp only
  rw [bind_putW hw]
  simp only
  rw [bind_cons]
  simp only
  rw [if_neg (by decide)]
  have h3 : (3 : UInt8).toNat = 3 := rfl
  rw [h3]
  rw [getSOFComponents_all t hv h0 h1 h2]
  unfold setMcuInfo
  simp only [Option.bind_eq_bind, Option.bind_some]
  rw [if_neg (by decide)]
  simp only [sampleRatio, List.nil_append, List.getElem?_cons_zero, List.getElem?_cons_succ, hmcu]
  simp [frameCodec, h0, h1, h2]

/-! ### Huffman tables -/

theorem map_range_getD (l : List UInt8) (i n : Nat) (h : i + n ≤ l.length) :
    (List.range n).map (fun j => l.getD (i + j) 0) = (l.drop i).take n := by
  refine List.ext_getElem? fun j => ?_
  by_cases hj : j < n
  · have hlt : i + j < l.length := by omega
    simp [hj, hlt]
  · rw [List.getElem?_eq_none (by simpa using hj), List.getElem?_eq_none (by simp; omega)]

theorem putHuffGroups_eq (l : List UInt8) (n i : Nat) (h : i + 32 * n ≤ l.length) :
    putHuffGroups l n i = (l.drop i).take (32 * n) := by
  induction n generalizing i with
  | zero => rfl
  | succ n ih =>
    rw [putHuffGroups, map_range_getD l i 32 (by omega), ih (i + 32) (by omega)]
    have hmul : 32 * (n + 1) = 32 + 32 * n := by omega
    rw [hmul, List.take_add, List.drop_drop]

/-- The groups of 32 and the rest are the symbols. -/
theorem putOneHuffTbl_eq (index : UInt8) (t : HuffTable) :
    putOneHuffTbl index t.toHuffTbl = putMarker 0xC4 ++ (putW (19 + symbolCount t.bits) ++
      (index :: (t.bits.tail ++ t.huffval.take (symbolCount t.bits)))) := by
  have hle := t.count_le_length
  have hdiv := Nat.div_add_mod (symbolCount t.bits) 32
  unfold putOneHuffTbl
  simp only
  rw [putHuffGroups_eq t.huffval _ 0 (by omega), map_range_getD t.huffval _ _ (by omega)]
  have htake : t.huffval.take (symbolCount t.bits) =
      (t.huffval.drop 0).take (32 * (symbolCount t.bits / 32)) ++
        (t.huffval.drop (32 * (symbolCount t.bits / 32))).take (symbolCount t.bits % 32) := by
    rw [List.drop_zero, ← List.take_add, hdiv]
  rw [htake]
  simp only [List.append_assoc, List.cons_append, List.nil_append]

theorem getHuffTbl_putOneHuffTbl (index : UInt8) (t : HuffTable)
    (hindex : index.toNat &&& 0x13 = index.toNat) :
    processTables ⟨putOneHuffTbl index t.toHuffTbl ++ r, k⟩ =
      processTables ⟨r, k.setHuffTbl index.toNat t.bits.tail
        (t.huffval.take (symbolCount t.bits))⟩ := by
  have hcount := t.count_le
  have hbits : t.bits.tail.length = 16 := by rw [List.length_tail, t.length_bits]
  have hvals : (t.huffval.take (symbolCount t.bits)).length = symbolCount t.bits := by
    rw [List.length_take, Nat.min_eq_left t.count_le_length]
  rw [putOneHuffTbl_eq]
  simp only [List.append_assoc, List.cons_append]
  refine processTables_segment (h := .dht) (by decide) (by decide) (by decide) ?_
  have hone : getOneHuffTbl ⟨index :: (t.bits.tail ++ (t.huffval.take (symbolCount t.bits) ++ r)),
      k⟩ = some ((index.toNat, t.bits.tail, t.huffval.take (symbolCount t.bits)), ⟨r, k⟩) := by
    unfold getOneHuffTbl
    rw [bind_cons]
    simp only
    rw [bind_append hbits]
    have hsum : (t.bits.tail.map UInt8.toNat).sum = symbolCount t.bits := rfl
    simp only [hindex, hsum]
    rw [if_neg (Nat.not_lt.mpr hcount), bind_append hvals]
    rfl
  simp only [Handler.run]
  unfold getHuffTbl
  rw [bind_putW (by omega)]
  simp only
  rw [if_neg (by omega), getHuffTblLoop, dif_pos (by omega), hone]
  simp only [hvals]
  rw [if_neg (by omega), getHuffTblLoop, dif_neg (by omega)]

/-! ### Restart interval and scan -/

theorem getDRI_writeDRI {e : EncParam} (h : e.restartInterval < 2 ^ 16)
    (hzero : k.restartInterval = 0) :
    ∃ toGo next, processTables ⟨writeDRI e ++ r, k⟩ = processTables ⟨r,
      { k with
        restartInterval := e.restartInterval, restartToGo := toGo, nextRestartNum := next }⟩ := by
  unfold writeDRI
  split
  · refine ⟨e.restartInterval, 0, ?_⟩
    rw [List.append_assoc, List.append_assoc]
    refine processTables_segment (h := .dri) (by decide) (by decide) (by decide) ?_
    simp only [Handler.run]
    unfold getDRI
    rw [bind_putW (by decide)]
    simp only [ne_eq, not_true_eq_false, if_false]
    rw [bind_putW h]
    rfl
  · rename_i hri
    refine ⟨k.restartToGo, k.nextRestartNum, ?_⟩
    rw [not_not.mp hri, ← hzero]
    rfl

theorem getSOSComponents_put (t : Tables) (i : Fin 3) :
    getSOSComponents 3 i.val ⟨putScanComponent t i ++ r, k⟩ =
      getSOSComponents 3 (i.val + 1)
        ⟨r, k.setScanTbl i.val (UInt8.ofNat (i.val + 1)) (scanByte t i)⟩ := by
  have hid : (UInt8.ofNat (i.val + 1)).toNat = i.val + 1 := toNat_ofNat_lt (by omega)
  rw [getSOSComponents, if_pos i.isLt]
  simp only [putScanComponent, List.cons_append, List.nil_append]
  rw [bind_cons]
  simp only
  rw [bind_cons]
  simp only [hid, ne_eq, not_true_eq_false, if_false]
  rfl

theorem tblMap_setScanTbl (t : Tables) (i : Fin 3) (cc : UInt8) :
    (k.setScanTbl i.val cc (scanByte t i)).tblMap = k.tblMap.modify i.val fun m =>
      { m with
        dcHuffTblId := (t.tblMap i).dcHuffTblId, acHuffTblId := (t.tblMap i).acHuffTblId } := by
  have hac := (t.tblMap i).ac_lt
  have hbyte : (scanByte t i).toNat = _ := toNat_nibbles (t.tblMap i).dc_lt hac
  have hdiv : ((t.tblMap i).dcHuffTblId * 16 + (t.tblMap i).acHuffTblId) / 16 =
      (t.tblMap i).dcHuffTblId := by omega
  have hmod : ((t.tblMap i).dcHuffTblId * 16 + (t.tblMap i).acHuffTblId) % 16 =
      (t.tblMap i).acHuffTblId := by omega
  simp only [Codec.setScanTbl, hbyte, hdiv, hmod]

theorem tblMap_scanCodec (t : Tables) :
    (scanCodec t k).tblMap = ((k.tblMap.modify 0 fun m =>
      { m with
        dcHuffTblId := (t.tblMap 0).dcHuffTblId
        acHuffTblId := (t.tblMap 0).acHuffTblId }).modify 1 fun m =>
      { m with
        dcHuffTblId := (t.tblMap 1).dcHuffTblId
        acHuffTblId := (t.tblMap 1).acHuffTblId }).modify 2 fun m =>
      { m with
        dcHuffTblId := (t.tblMap 2).dcHuffTblId, acHuffTblId := (t.tblMap 2).acHuffTblId } := by
  refine (tblMap_setScanTbl t 2 _).trans (congrArg (List.modify · 2 _) ?_)
  refine (tblMap_setScanTbl t 1 _).trans (congrArg (List.modify · 1 _) ?_)
  exact tblMap_setScanTbl t 0 _

theorem getSOSComponents_all (t : Tables) :
    getSOSComponents 3 0 ⟨putScanComponent t 0 ++ (putScanComponent t 1 ++
      (putScanComponent t 2 ++ r)), k⟩ = some ⟨r, scanCodec t k⟩ := by
  refine (getSOSComponents_put t 0).trans ?_
  refine (getSOSComponents_put t 1).trans ?_
  refine (getSOSComponents_put t 2).trans ?_
  rw [getSOSComponents, if_neg (by decide)]
  rfl

theorem getSOS_putSOS (t : Tables) :
    getSOS ⟨putW 12 ++ (3 :: (putScanComponent t 0 ++ (putScanComponent t 1 ++
      (putScanComponent t 2 ++ ([0, 63, 0] ++ r))))), k⟩ = some ⟨r, finalCodec t k⟩ := by
  unfold getSOS
  rw [bind_putW (by decide)]
  simp only
  rw [if_neg (by decide), bind_cons]
  simp only
  rw [if_neg (by decide)]
  have h3 : (3 : UInt8).toNat = 3 := rfl
  rw [h3, getSOSComponents_all]
  simp only [List.cons_append, List.nil_append, Option.bind_eq_bind, Option.bind_some, getChar_cons]
  rfl

/-! ## The whole header -/

theorem writeHead_eq (e : EncParam) (t : Tables) :
    writeHead e t ++ r = putMarker markerSOI ++ (putAPP0 ++ (putOneQuantTbl t 0 ++
      (putOneQuantTbl t 1 ++ (putSOF0 e t ++ (putOneHuffTbl 0x00 (t.dcHuffTbl 0).toHuffTbl ++
      (putOneHuffTbl 0x10 (t.acHuffTbl 0).toHuffTbl ++ (putOneHuffTbl 0x01 (t.dcHuffTbl 1).toHuffTbl ++
      (putOneHuffTbl 0x11 (t.acHuffTbl 1).toHuffTbl ++ (writeDRI e ++ (putMarker markerSOS ++
      (putW 12 ++ (3 :: (putScanComponent t 0 ++ (putScanComponent t 1 ++ (putScanComponent t 2 ++
      ([0, 63, 0] ++ r)))))))))))))))) := by
  simp only [writeHead, putQuantTbl, putHuffTbl, putSOS, List.append_assoc, List.cons_append,
    List.nil_append, markerSOI, markerSOS]

theorem processTables_writeHead {e : EncParam} (t : Tables) (hw : e.width < 2 ^ 16)
    (hh : e.height < 2 ^ 16) (hratio : ratioOf e.inputMcuInfo = some e.ratio) :
    processTables ⟨putAPP0 ++ (putOneQuantTbl t 0 ++
      (putOneQuantTbl t 1 ++ (putSOF0 e t ++ (putOneHuffTbl 0x00 (t.dcHuffTbl 0).toHuffTbl ++
      (putOneHuffTbl 0x10 (t.acHuffTbl 0).toHuffTbl ++ (putOneHuffTbl 0x01 (t.dcHuffTbl 1).toHuffTbl ++
      (putOneHuffTbl 0x11 (t.acHuffTbl 1).toHuffTbl ++ r))))))), Codec.init⟩ =
      processTables ⟨r, tablesCodec e t⟩ := by
  rw [getAPP0_putAPP0, getQuantTbl_putOneQuantTbl t 0, getQuantTbl_putOneQuantTbl t 1,
    getSOF_putSOF0 t hw hh hratio, getHuffTbl_putOneHuffTbl 0x00 _ (by decide),
    getHuffTbl_putOneHuffTbl 0x10 _ (by decide), getHuffTbl_putOneHuffTbl 0x01 _ (by decide),
    getHuffTbl_putOneHuffTbl 0x11 _ (by decide)]
  rfl

/-- Overwriting the front of the symbols. -/
theorem take_overwrite {l m : List UInt8} {n : Nat} (h : n ≤ l.length) :
    (l.take n ++ m).take n = l.take n := by
  rw [List.take_append_of_le_length (by rw [List.length_take]; omega), List.take_take, Nat.min_self]

theorem restores_finalCodec (e : EncParam) (t : Tables) (toGo next : Nat) :
    Restores e t (finalCodec t { tablesCodec e t with
      restartInterval := e.restartInterval, restartToGo := toGo, nextRestartNum := next }) where
  width := rfl
  height := rfl
  mcuInfo := rfl
  components := rfl
  quantTbl i := by
    match i with
    | 0 => rfl
    | 1 => rfl
  dcHuffTbl i := by
    match i with
    | 0 => exact ⟨_, rfl, rfl, take_overwrite (t.dcHuffTbl 0).count_le_length⟩
    | 1 => exact ⟨_, rfl, rfl, take_overwrite (t.dcHuffTbl 1).count_le_length⟩
  acHuffTbl i := by
    match i with
    | 0 => exact ⟨_, rfl, rfl, take_overwrite (t.acHuffTbl 0).count_le_length⟩
    | 1 => exact ⟨_, rfl, rfl, take_overwrite (t.acHuffTbl 1).count_le_length⟩
  tblMap := tblMap_scanCodec t
  restartInterval := rfl

/-- Tables without symbols. -/
def flatTables : Tables where
  quantTbl _ := ⟨List.replicate 64 1, rfl⟩
  dcHuffTbl _ := ⟨⟨List.replicate 17 0, []⟩, rfl, by decide, by decide⟩
  acHuffTbl _ := ⟨⟨List.replicate 17 0, []⟩, rfl, by decide, by decide⟩
  tblMap _ := ⟨⟨0, 0, 0⟩, by decide, by decide, by decide⟩

end SprdHal.Jpeg
