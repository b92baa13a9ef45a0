import SprdHal.Jpeg.Segments

/-!
# Accesses of a part of the header parser

`Bounded` says of a part of the parser how much memory it takes, and under which condition its accesses
are inside the tables. Parts are put together by `Bounded.then`, `Bounded.seq` and `Bounded.past`.
-/

namespace SprdHal.Jpeg

/-- What is true of the codec between two segments. -/
structure Codec.Wf (codec : Codec) : Prop where
  compInfo : codec.compInfo.length = codec.numComponents
  quantTbl : codec.quantTbl.length = 3

/-- A part of the parser takes `n` bytes of memory, and its accesses are inside the tables exactly if
`C` holds and there is enough memory. -/
structure Bounded {α : Type} (s : Parser) (out : List Access × Option (α × Parser)) (C : Prop)
    (n : Nat) (Q : α → Parser → Prop) : Prop where
  inside : s.used ≤ s.total → ((∀ a ∈ out.1, a.Inside) ↔ C ∧ s.used + n ≤ s.total)
  after : C → ∀ a s', out.2 = some (a, s') → s'.used = s.used + n ∧ s'.total = s.total ∧ Q a s'

section Bounded

variable {α β : Type} {s s' : Parser} {m : Checked α} {f : α → Checked β} {C C' : Prop} {n n' : Nat}
  {Q : α → Parser → Prop} {Q' : β → Parser → Prop} {a : α} {l : List Access}

theorem bounded_none (hC : C) : Bounded s ([], none) C 0 Q :=
  ⟨fun hle => ⟨fun _ => ⟨hC, hle⟩, fun _ => nofun⟩, fun _ => nofun⟩

theorem bounded_some (hC : C) (hQ : Q a s) : Bounded s ([], some (a, s)) C 0 Q := by
  refine ⟨fun hle => ⟨fun _ => ⟨hC, hle⟩, fun _ => nofun⟩, fun _ a s' h => ?_⟩
  cases h
  exact ⟨rfl, rfl, hQ⟩

/-- A part that uses an index outside. -/
theorem bounded_bad {out : List Access × Option (α × Parser)} (hC : ¬C) {a : Access}
    (ha : a ∈ out.1) (hbad : ¬a.Inside) : Bounded s out C n Q :=
  ⟨fun _ => ⟨fun h => absurd (h a ha) hbad, fun h => absurd h.1 hC⟩, fun h => absurd h hC⟩

theorem Bounded.imp {out : List Access × Option (α × Parser)} {P : α → Parser → Prop}
    (h : Bounded s out C n P) (hC : C ↔ C') (hn : n = n') (hQ : ∀ a s', P a s' → Q a s') :
    Bounded s out C' n' Q := by
  subst hn
  refine ⟨fun hle => (h.inside hle).trans (and_congr_left' hC), fun hc a s' hrun => ?_⟩
  obtain ⟨hused, htotal, hP⟩ := h.after (hC.mpr hc) a s' hrun
  exact ⟨hused, htotal, hQ a s' hP⟩

/-- Behind a part that may fail nothing is outside. -/
theorem Bounded.then (h : Bounded s (m s) C n Q)
    (hf : ∀ a s', Q a s' → Bounded s' (f a s') True 0 Q') : Bounded s ((m >>= f) s) C n Q' := by
  cases hrun : m s with
  | mk l x =>
    rw [hrun] at h
    cases x with
    | none =>
      rw [Checked.bind_stop hrun]
      exact ⟨h.inside, fun _ => nofun⟩
    | some x =>
      obtain ⟨a, s'⟩ := x
      rw [Checked.bind_run hrun]
      constructor
      · intro hle
        simp only [List.forall_mem_append]
        refine ⟨fun hall => (h.inside hle).mp hall.1, fun hC => ⟨(h.inside hle).mpr hC, ?_⟩⟩
        obtain ⟨hused, htotal, hQ⟩ := h.after hC.1 a s' rfl
        have hle' : s'.used ≤ s'.total := by omega
        exact ((hf a s' hQ).inside hle').mpr ⟨trivial, hle'⟩
      · intro hC b s'' hout
        obtain ⟨hused, htotal, hQ⟩ := h.after hC a s' rfl
        obtain ⟨hused', htotal', hQ'⟩ := (hf a s' hQ).after trivial b s'' hout
        exact ⟨by omega, by omega, hQ'⟩

/-- Two parts, the first of which does not fail. -/
theorem Bounded.seq (hrun : m s = (l, some (a, s'))) (h : Bounded s (m s) C n Q)
    (hf : Q a s' → Bounded s' (f a s') C' n' Q') :
    Bounded s ((m >>= f) s) (C ∧ C') (n + n') Q' := by
  rw [hrun] at h
  rw [Checked.bind_run hrun]
  constructor
  · intro hle
    simp only [List.forall_mem_append]
    rw [h.inside hle]
    constructor
    · rintro ⟨⟨hC, hfit⟩, hall⟩
      obtain ⟨hused, htotal, hQ⟩ := h.after hC a s' rfl
      obtain ⟨hC', hfit'⟩ := ((hf hQ).inside (by omega)).mp hall
      exact ⟨⟨hC, hC'⟩, by omega⟩
    · rintro ⟨⟨hC, hC'⟩, hfit⟩
      obtain ⟨hused, htotal, hQ⟩ := h.after hC a s' rfl
      exact ⟨⟨hC, by omega⟩, ((hf hQ).inside (by omega)).mpr ⟨hC', by omega⟩⟩
  · rintro ⟨hC, hC'⟩ b s'' hout
    obtain ⟨hused, htotal, hQ⟩ := h.after hC a s' rfl
    obtain ⟨hused', htotal', hQ'⟩ := (hf hQ).after hC' b s'' hout
    exact ⟨by omega, by omega, hQ'⟩

/-- In front of a part nothing is outside. -/
theorem Bounded.past (hrun : m s = (l, some (a, s'))) (h : Bounded s (m s) True 0 Q)
    (hf : Q a s' → Bounded s' (f a s') C' n' Q') : Bounded s ((m >>= f) s) C' n' Q' :=
  (h.seq hrun hf).imp (Iff.of_eq (true_and C')) (Nat.zero_add n') fun _ _ h => h

theorem bounded_accesses_iff (hl : (∀ a ∈ l, a.Inside) ↔ C) :
    Bounded s (Checked.accesses l s) C 0 (fun _ s' => s' = s) := by
  refine ⟨fun hle => hl.trans (and_iff_left hle).symm, fun _ a s' h => ?_⟩
  cases h
  exact ⟨rfl, rfl, rfl⟩

theorem bounded_accesses (hl : ∀ a ∈ l, a.Inside) :
    Bounded s (Checked.accesses l s) True 0 (fun _ s' => s' = s) :=
  bounded_accesses_iff (iff_of_true hl trivial)

theorem bounded_index {table : Table} {i bound : Nat} (h : i < bound) :
    Bounded s (Checked.accesses [.index table i bound] s) True 0 (fun _ s' => s' = s) :=
  bounded_accesses (List.forall_mem_singleton.mpr h)

theorem bounded_alloc {size : Nat} (hpos : 0 < size) :
    Bounded s (Checked.alloc size s) True ((size + 3) / 4 * 4)
      (fun _ s' => s' = { s with used := s.used + (size + 3) / 4 * 4 }) := by
  refine ⟨fun hle => ?_, fun _ a s' h => ?_⟩
  · show (∀ a ∈ [Access.alloc ((size + 3) / 4 * 4) s.used s.total], a.Inside) ↔ _
    rw [List.forall_mem_singleton]
    show 0 < (size + 3) / 4 * 4 ∧ _ ↔ _
    exact and_congr_left' (iff_of_true (by omega) trivial)
  · cases h
    exact ⟨rfl, rfl, rfl⟩

theorem bounded_update (g : Codec → Codec) :
    Bounded s (Checked.update g s) True 0
      (fun _ s' => s' = { s with decoder := { s.decoder with codec := g s.decoder.codec } }) := by
  refine ⟨fun hle => iff_of_true nofun ⟨trivial, hle⟩, fun _ a s' h => ?_⟩
  cases h
  exact ⟨rfl, rfl, rfl⟩

/-- A part that only reads. -/
theorem bounded_lift (g : Decoder → Option (α × Decoder)) :
    Bounded s (Checked.lift g s) True 0 (fun a s' => g s.decoder = some (a, s'.decoder) ∧
      s'.huffTblMalloced = s.huffTblMalloced) := by
  refine ⟨fun hle => iff_of_true nofun ⟨trivial, hle⟩, fun _ a s' h => ?_⟩
  obtain ⟨⟨a', d⟩, hrun, heq⟩ := Option.map_eq_some_iff.mp h
  cases heq
  exact ⟨rfl, rfl, hrun, rfl⟩

end Bounded

/-! ## Reading -/

/-- From `s` to `s'` these bytes have been read, and nothing else has been done. -/
structure Parser.Read (s : Parser) (bytes : List UInt8) (s' : Parser) : Prop where
  rest : s.decoder.rest = bytes ++ s'.decoder.rest
  codec : s'.decoder.codec = s.decoder.codec
  huffTblMalloced : s'.huffTblMalloced = s.huffTblMalloced

/-- The parser with `rest` still to be read. -/
def Parser.behind (s : Parser) (rest : List UInt8) : Parser :=
  { s with decoder := { s.decoder with rest := rest } }

section Reading

variable {s s' s'' : Parser} {bytes bytes' : List UInt8} {c : UInt8} {r : List UInt8}

theorem Parser.Read.trans (h : s.Read bytes s') (h' : s'.Read bytes' s'') :
    s.Read (bytes ++ bytes') s'' := by
  refine ⟨?_, h'.codec.trans h.codec, h'.huffTblMalloced.trans h.huffTblMalloced⟩
  rw [h.rest, h'.rest, List.append_assoc]

theorem rest_behind (s : Parser) (r : List UInt8) : (s.behind r).decoder.rest = r := rfl

theorem getChar_none (h : s.decoder.rest = []) : Checked.getChar s = ([], none) := by
  simp [Checked.getChar, Checked.lift, Decoder.getChar, h]

theorem getChar_run (h : s.decoder.rest = c :: r) :
    Checked.getChar s = ([], some (c, s.behind r)) := by
  simp [Checked.getChar, Checked.lift, Decoder.getChar, h, Parser.behind]

theorem getShortWord_run {a b : UInt8} (h : s.decoder.rest = a :: b :: r) :
    Checked.getShortWord s = ([], some (a.toNat * 256 + b.toNat, s.behind r)) := by
  simp [Checked.getShortWord, Checked.lift, Decoder.getShortWord, Decoder.getChar, h,
    Parser.behind]

theorem Bounded.of_behind {α : Type} {out : List Access × Option (α × Parser)} {C : Prop} {n : Nat}
    {Q : α → Parser → Prop} (h : Bounded (s.behind r) out C n Q) : Bounded s out C n Q :=
  ⟨h.inside, h.after⟩

theorem Bounded.of_decoder {α : Type} {out : List Access × Option (α × Parser)} {C : Prop} {n : Nat}
    {Q : α → Parser → Prop} {d : Decoder} (h : Bounded { s with decoder := d } out C n Q) :
    Bounded s out C n Q :=
  ⟨h.inside, h.after⟩

theorem bounded_getChar :
    Bounded s (Checked.getChar s) True 0 (fun c s' => s.Read [c] s') := by
  cases hr : s.decoder.rest with
  | nil =>
    rw [getChar_none hr]
    exact bounded_none trivial
  | cons a r =>
    rw [getChar_run hr]
    refine ⟨fun hle => iff_of_true nofun ⟨trivial, hle⟩, fun _ w s' h => ?_⟩
    cases h
    exact ⟨rfl, rfl, hr, rfl, rfl⟩

theorem getShortWord_none (h : s.decoder.rest.length < 2) :
    Checked.getShortWord s = ([], none) := by
  cases hr : s.decoder.rest with
  | nil => simp [Checked.getShortWord, Checked.lift, Decoder.getShortWord, Decoder.getChar, hr]
  | cons a r =>
    cases r with
    | nil => simp [Checked.getShortWord, Checked.lift, Decoder.getShortWord, Decoder.getChar, hr]
    | cons b r =>
      rw [hr, List.length_cons, List.length_cons] at h
      omega

/-- A length, if there are two bytes. -/
theorem two_or_short (rest : List UInt8) : rest.length < 2 ∨ ∃ a b r, rest = a :: b :: r := by
  match rest with
  | [] | [_] => exact .inl (by simp)
  | a :: b :: r => exact .inr ⟨a, b, r, rfl⟩

theorem bounded_getShortWord :
    Bounded s (Checked.getShortWord s) True 0
      (fun w s' => ∃ a b : UInt8, w = a.toNat * 256 + b.toNat ∧ s.Read [a, b] s') := by
  rcases two_or_short s.decoder.rest with hshort | ⟨a, b, r, hr⟩
  · rw [getShortWord_none hshort]
    exact bounded_none trivial
  · rw [getShortWord_run hr]
    refine ⟨fun hle => iff_of_true nofun ⟨trivial, hle⟩, fun _ w s' h => ?_⟩
    cases h
    exact ⟨rfl, rfl, a, b, rfl, hr, rfl, rfl⟩

end Reading

end SprdHal.Jpeg
