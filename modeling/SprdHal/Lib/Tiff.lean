import Mathlib.Algebra.Ring.Nat
import SprdHal.Lib.Bytes

/-!
# TIFF directories

A reader of big-endian TIFF data. A directory is a count, that many entries of 12 bytes and the offset
of the next directory. An entry is a tag, a type, a count and four bytes: the value, left-justified,
if it fits there, else the offset of the value.

What the reader finds depends on a few bytes only. `Has t o bs` says that the bytes `bs` are at offset
`o` of `t`; it is kept by a patch somewhere else, and the results about the reader ask for nothing but
such facts.
-/

namespace SprdHal.Lib

/-! ## Big-endian words -/

/-- The two bytes of a word. -/
def beShort (w : UInt16) : List UInt8 := [UInt8.ofNat (w.toNat / 256), UInt8.ofNat w.toNat]

/-- The four bytes of a long word. -/
def beLong (l : UInt32) : List UInt8 :=
  [UInt8.ofNat (l.toNat / 16777216), UInt8.ofNat (l.toNat / 65536), UInt8.ofNat (l.toNat / 256),
    UInt8.ofNat l.toNat]

@[simp] theorem length_beShort (w : UInt16) : (beShort w).length = 2 := rfl

@[simp] theorem length_beLong (l : UInt32) : (beLong l).length = 4 := rfl

/-- The word of two bytes. -/
def ofBytes2 (a b : UInt8) : UInt16 := UInt16.ofNat (a.toNat * 256 + b.toNat)

/-- The long word of four bytes. -/
def ofBytes4 (a b c d : UInt8) : UInt32 :=
  UInt32.ofNat (a.toNat * 16777216 + b.toNat * 65536 + c.toNat * 256 + d.toNat)

/-- The words of a row of bytes. -/
def shortsOf : List UInt8 → List UInt16
  | a :: b :: r => ofBytes2 a b :: shortsOf r
  | _ => []

/-- The long words of a row of bytes. -/
def longsOf : List UInt8 → List UInt32
  | a :: b :: c :: d :: r => ofBytes4 a b c d :: longsOf r
  | _ => []

/-- Neighbours as pairs. -/
def pairsOf {α : Type} : List α → List (α × α)
  | a :: b :: r => (a, b) :: pairsOf r
  | _ => []

theorem shortsOf_beShort_append (w : UInt16) (r : List UInt8) :
    shortsOf (beShort w ++ r) = w :: shortsOf r := by
  have hw := w.toNat_lt
  have h : ofBytes2 (UInt8.ofNat (w.toNat / 256)) (UInt8.ofNat w.toNat) = w := by
    apply UInt16.toNat_inj.mp
    simp only [ofBytes2, UInt16.toNat_ofNat', UInt8.toNat_ofNat']
    omega
  simp only [beShort, List.cons_append, List.nil_append, shortsOf, h]

theorem longsOf_beLong_append (l : UInt32) (r : List UInt8) :
    longsOf (beLong l ++ r) = l :: longsOf r := by
  have hl := l.toNat_lt
  have h : ofBytes4 (UInt8.ofNat (l.toNat / 16777216)) (UInt8.ofNat (l.toNat / 65536))
      (UInt8.ofNat (l.toNat / 256)) (UInt8.ofNat l.toNat) = l := by
    apply UInt32.toNat_inj.mp
    simp only [ofBytes4, UInt32.toNat_ofNat', UInt8.toNat_ofNat']
    omega
  simp only [beLong, List.cons_append, List.nil_append, longsOf, h]

theorem shortsOf_flatMap_beShort (ws : List UInt16) : shortsOf (ws.flatMap beShort) = ws := by
  induction ws with
  | nil => rfl
  | cons w ws ih => rw [List.flatMap_cons, shortsOf_beShort_append, ih]

theorem longsOf_flatMap_beLong (ls : List UInt32) : longsOf (ls.flatMap beLong) = ls := by
  induction ls with
  | nil => rfl
  | cons l ls ih => rw [List.flatMap_cons, longsOf_beLong_append, ih]

/-! ## Types and values -/

/-- The types of values. -/
inductive TiffType
  | byte | ascii | short | long | rational | undefined | slong | srational
  deriving DecidableEq, Repr

namespace TiffType

def code : TiffType → UInt16
  | byte => 1
  | ascii => 2
  | short => 3
  | long => 4
  | rational => 5
  | undefined => 7
  | slong => 9
  | srational => 10

def ofCode (c : UInt16) : Option TiffType :=
  if c = 1 then some byte
  else if c = 2 then some ascii
  else if c = 3 then some short
  else if c = 4 then some long
  else if c = 5 then some rational
  else if c = 7 then some undefined
  else if c = 9 then some slong
  else if c = 10 then some srational
  else none

/-- The bytes of one value. -/
def size : TiffType → Nat
  | byte => 1
  | ascii => 1
  | short => 2
  | long => 4
  | rational => 8
  | undefined => 1
  | slong => 4
  | srational => 8

theorem ofCode_code (t : TiffType) : ofCode t.code = some t := by
  cases t <;> rfl

end TiffType

/-- What an entry holds. -/
inductive TiffValue
  | bytes (l : List UInt8)
  | shorts (l : List UInt16)
  | longs (l : List UInt32)
  | slongs (l : List Int32)
  | rationals (l : List (UInt32 × UInt32))
  | srationals (l : List (Int32 × Int32))
  deriving DecidableEq, Repr

/-- The values in a row of bytes. -/
def TiffType.decode (t : TiffType) (raw : List UInt8) : TiffValue :=
  match t with
  | byte => .bytes raw
  | ascii => .bytes raw
  | undefined => .bytes raw
  | short => .shorts (shortsOf raw)
  | long => .longs (longsOf raw)
  | slong => .slongs ((longsOf raw).map UInt32.toInt32)
  | rational => .rationals (pairsOf (longsOf raw))
  | srational => .srationals (pairsOf ((longsOf raw).map UInt32.toInt32))

/-- An entry as it is understood. -/
structure TiffItem where
  tag : UInt16
  type : TiffType
  value : TiffValue
  deriving DecidableEq, Repr

/-! ## The reader -/

/-- `n` bytes at offset `o`. -/
def bytesAt (t : List UInt8) (o n : Nat) : Option (List UInt8) :=
  if o + n ≤ t.length then some ((t.drop o).take n) else none

def shortAt (t : List UInt8) (o : Nat) : Option UInt16 :=
  (bytesAt t o 2).bind fun bs => (shortsOf bs).head?

def longAt (t : List UInt8) (o : Nat) : Option UInt32 :=
  (bytesAt t o 4).bind fun bs => (longsOf bs).head?

/-- The bytes of the value of an entry: in the entry itself if they fit, else where it says. -/
def readRaw (t : List UInt8) (o n : Nat) : Option (List UInt8) :=
  if n ≤ 4 then bytesAt t (o + 8) n
  else (longAt t (o + 8)).bind fun p => bytesAt t p.toNat n

/-- An entry. -/
def readItem (t : List UInt8) (o : Nat) : Option TiffItem := do
  let tag ← shortAt t o
  let code ← shortAt t (o + 2)
  let type ← TiffType.ofCode code
  let count ← longAt t (o + 4)
  let raw ← readRaw t o (count.toNat * type.size)
  return ⟨tag, type, type.decode raw⟩

/-- The entries of a directory. -/
def readItems (t : List UInt8) (o : Nat) : Nat → Option (List TiffItem)
  | 0 => some []
  | n + 1 => do
    let item ← readItem t o
    let items ← readItems t (o + 12) n
    return item :: items

/-- A directory: its entries and the offset of the next one. -/
def readDir (t : List UInt8) (o : Nat) : Option (List TiffItem × UInt32) := do
  let n ← shortAt t o
  let items ← readItems t (o + 2) n.toNat
  let next ← longAt t (o + 2 + 12 * n.toNat)
  return (items, next)

/-! ## Bytes at a place -/

section Has

variable {t t' : List UInt8} {o d : Nat} {a b bs : List UInt8}

/-- The bytes `bs` are at offset `o` of `t`. -/
def Has (t : List UInt8) (o : Nat) (bs : List UInt8) : Prop :=
  ∀ k, k < bs.length → t[o + k]? = bs[k]?

theorem Has.congr (h : Has t o bs) (hs : ∀ k, o ≤ k → k < o + bs.length → t'[k]? = t[k]?) :
    Has t' o bs := by
  intro k hk
  rw [hs (o + k) (Nat.le_add_right o k) (Nat.add_lt_add_left hk o)]
  exact h k hk

theorem has_append : Has t o (a ++ b) ↔ Has t o a ∧ Has t (o + a.length) b := by
  constructor
  · intro h
    refine ⟨fun k hk => ?_, fun k hk => ?_⟩
    · rw [h k (by rw [List.length_append]; omega), List.getElem?_append_left hk]
    · rw [Nat.add_assoc, h (a.length + k) (by rw [List.length_append]; omega),
        List.getElem?_append_right (Nat.le_add_right _ _), Nat.add_sub_cancel_left]
  · rintro ⟨ha, hb⟩ k hk
    by_cases hka : k < a.length
    · rw [ha k hka, List.getElem?_append_left hka]
    · rw [List.length_append] at hk
      have hkb := hb (k - a.length) (by omega)
      have he : o + a.length + (k - a.length) = o + k := by omega
      rw [he] at hkb
      rw [hkb, List.getElem?_append_right (by omega)]

/-- A patch is where it was put. -/
theorem has_patch (h : o + bs.length ≤ t.length) : Has (patch t o bs) o bs := by
  intro k hk
  have hlt : o + k < t.length := by omega
  rw [getElem?_patch, List.getElem?_eq_getElem hlt, Option.map_some, if_pos (Nat.le_add_right o k),
    Nat.add_sub_cancel_left, List.getD_eq_getElem?_getD, List.getElem?_eq_getElem hk]
  rfl

theorem Has.take (h : Has t o bs) (n : Nat) : Has t o (bs.take n) := by
  intro k hk
  rw [List.length_take] at hk
  rw [h k (by omega), List.getElem?_take_of_lt (by omega)]

/-- The bytes at a place behind `d` are the same without the first `d` bytes. -/
theorem bytesAt_of_has (h : Has t (d + o) bs) (hlen : d + o + bs.length ≤ t.length) :
    bytesAt (t.drop d) o bs.length = some bs := by
  unfold bytesAt
  rw [if_pos (by rw [List.length_drop]; omega), List.drop_drop]
  congr 1
  refine List.ext_getElem? fun k => ?_
  by_cases hk : k < bs.length
  · rw [List.getElem?_take_of_lt hk, List.getElem?_drop, h k hk]
  · rw [List.getElem?_eq_none (by rw [List.length_take]; omega), List.getElem?_eq_none (by omega)]

theorem Has.le_length (h : Has t o bs) (hne : bs ≠ []) : o + bs.length ≤ t.length := by
  have hpos := List.length_pos_iff.mpr hne
  have hlast := h (bs.length - 1) (by omega)
  rw [List.getElem?_eq_getElem (l := bs) (by omega)] at hlast
  obtain ⟨hlt, -⟩ := List.getElem?_eq_some_iff.mp hlast
  omega

theorem shortAt_of_has {w : UInt16} (h : Has t (d + o) (beShort w)) :
    shortAt (t.drop d) o = some w := by
  have hb := bytesAt_of_has h (h.le_length (List.cons_ne_nil _ _))
  have hs := shortsOf_beShort_append w []
  rw [List.append_nil] at hs
  unfold shortAt
  rw [length_beShort] at hb
  rw [hb, Option.bind_some, hs]
  rfl

theorem longAt_of_has {l : UInt32} (h : Has t (d + o) (beLong l)) :
    longAt (t.drop d) o = some l := by
  have hb := bytesAt_of_has h (h.le_length (List.cons_ne_nil _ _))
  have hs := longsOf_beLong_append l []
  rw [List.append_nil] at hs
  unfold longAt
  rw [length_beLong] at hb
  rw [hb, Option.bind_some, hs]
  rfl

end Has

/-! ## What makes the reader find an entry -/

section ItemAt

variable {t t' : List UInt8} {d o lo lo' hi hi' : Nat} {item : TiffItem} {items : List TiffItem}

/-- An entry at offset `o` of `t`, which has its TIFF header at `d`. A value that does not fit into the
entry lies between `lo` and `hi`. -/
def ItemAt (t : List UInt8) (d o lo hi : Nat) (item : TiffItem) : Prop :=
  ∃ (count : UInt32) (field raw : List UInt8), field.length = 4 ∧
    Has t o (beShort item.tag ++ beShort item.type.code ++ beLong count ++ field) ∧
    raw.length = count.toNat * item.type.size ∧ item.value = item.type.decode raw ∧
    (raw.length ≤ 4 → field.take raw.length = raw) ∧
    (4 < raw.length → ∃ p : UInt32, field = beLong p ∧ lo ≤ d + p.toNat ∧
      d + p.toNat + raw.length ≤ hi ∧ Has t (d + p.toNat) raw)

theorem ItemAt.congr (h : ItemAt t d o lo hi item)
    (he : ∀ k, o ≤ k → k < o + 12 → t'[k]? = t[k]?)
    (hv : ∀ k, lo ≤ k → k < hi → t'[k]? = t[k]?) (hlo : lo' ≤ lo) (hle : hi ≤ hi') :
    ItemAt t' d o lo' hi' item := by
  obtain ⟨count, field, raw, hf, hhas, hraw, hval, hin, hout⟩ := h
  refine ⟨count, field, raw, hf, hhas.congr fun k h1 h2 => ?_, hraw, hval, hin, fun h4 => ?_⟩
  · refine he k h1 ?_
    simp only [List.length_append, length_beShort, length_beLong, hf] at h2
    omega
  · obtain ⟨p, hp, h1, h2, h3⟩ := hout h4
    refine ⟨p, hp, Nat.le_trans hlo h1, Nat.le_trans h2 hle, h3.congr fun k h5 h6 => hv k ?_ ?_⟩
    · exact Nat.le_trans h1 h5
    · exact Nat.lt_of_lt_of_le h6 h2

theorem readItem_of_itemAt (h : ItemAt t d (d + o) lo hi item) :
    readItem (t.drop d) o = some item := by
  obtain ⟨count, field, raw, hf, hhas, hraw, hval, hin, hout⟩ := h
  rw [has_append, has_append, has_append] at hhas
  obtain ⟨⟨⟨htag, hcode⟩, hcount⟩, hfield⟩ := hhas
  simp only [List.length_append, length_beShort, length_beLong] at hcode hcount hfield
  rw [Nat.add_assoc d] at hcode hcount hfield
  have hrawAt : readRaw (t.drop d) o raw.length = some raw := by
    unfold readRaw
    split
    · rename_i h4
      have hlen := hfield.le_length (by intro h0; rw [h0] at hf; cases hf)
      have hb := bytesAt_of_has (hfield.take raw.length)
        (by rw [List.length_take]; omega)
      rw [hin h4] at hb
      exact hb
    · rename_i h4
      obtain ⟨p, hp, -, -, hraw'⟩ := hout (Nat.lt_of_not_le h4)
      rw [hp] at hfield
      rw [longAt_of_has hfield, Option.bind_some]
      exact bytesAt_of_has hraw' (hraw'.le_length (by intro h0; rw [h0] at h4; exact h4 (by decide)))
  unfold readItem
  rw [shortAt_of_has htag, Option.bind_eq_bind, Option.bind_some, shortAt_of_has hcode,
    Option.bind_eq_bind, Option.bind_some, TiffType.ofCode_code, Option.bind_eq_bind,
    Option.bind_some, longAt_of_has hcount, Option.bind_eq_bind, Option.bind_some, ← hraw, hrawAt,
    Option.bind_some, ← hval]
  rfl

/-- Entries one behind the other. -/
def ItemsAt (t : List UInt8) (d o lo hi : Nat) (items : List TiffItem) : Prop :=
  ∀ k item, items[k]? = some item → ItemAt t d (o + 12 * k) lo hi item

theorem ItemsAt.congr (h : ItemsAt t d o lo hi items)
    (he : ∀ k, o ≤ k → k < o + 12 * items.length → t'[k]? = t[k]?)
    (hv : ∀ k, lo ≤ k → k < hi → t'[k]? = t[k]?) (hlo : lo' ≤ lo) (hle : hi ≤ hi') :
    ItemsAt t' d o lo' hi' items := by
  intro k item hk
  obtain ⟨hlt, -⟩ := List.getElem?_eq_some_iff.mp hk
  exact (h k item hk).congr (fun j h1 h2 => he j (by omega) (by omega)) hv hlo hle

theorem ItemsAt.snoc (h : ItemsAt t d o lo hi items)
    (hx : ItemAt t d (o + 12 * items.length) lo hi item) :
    ItemsAt t d o lo hi (items ++ [item]) := by
  intro k x hk
  by_cases hlt : k < items.length
  · rw [List.getElem?_append_left hlt] at hk
    exact h k x hk
  · have hk' : k = items.length := by
      obtain ⟨hlt', -⟩ := List.getElem?_eq_some_iff.mp hk
      rw [List.length_append, List.length_singleton] at hlt'
      omega
    subst hk'
    rw [List.getElem?_append_right (Nat.le_refl _), Nat.sub_self] at hk
    cases hk
    exact hx

/-- One entry is written again. -/
theorem ItemsAt.set (h : ItemsAt t d o lo hi items) {j : Nat}
    (he : ∀ k, o ≤ k → k < o + 12 * items.length → k < o + 12 * j ∨ o + 12 * j + 12 ≤ k →
      t'[k]? = t[k]?)
    (hv : ∀ k, lo ≤ k → k < hi → t'[k]? = t[k]?) (hle : hi ≤ hi')
    (hx : ItemAt t' d (o + 12 * j) lo hi' item) : ItemsAt t' d o lo hi' (items.set j item) := by
  intro k x hk
  obtain ⟨hlt, -⟩ := List.getElem?_eq_some_iff.mp hk
  rw [List.length_set] at hlt
  by_cases hkj : j = k
  · subst hkj
    rw [List.getElem?_set_self hlt] at hk
    cases hk
    exact hx
  · rw [List.getElem?_set_ne hkj] at hk
    exact (h k x hk).congr (fun i h1 h2 => he i (by omega) (by omega) (by omega)) hv (Nat.le_refl _)
      hle

theorem readItems_of_itemsAt (h : ItemsAt t d (d + o) lo hi items) :
    readItems (t.drop d) o items.length = some items := by
  induction items generalizing o with
  | nil => rfl
  | cons item items ih =>
    have hhead := h 0 item rfl
    have htail : ItemsAt t d (d + (o + 12)) lo hi items := by
      intro k x hk
      have hx := h (k + 1) x hk
      have he : d + o + 12 * (k + 1) = d + (o + 12) + 12 * k := by omega
      rw [he] at hx
      exact hx
    rw [List.length_cons, readItems, readItem_of_itemAt (o := o) hhead, Option.bind_eq_bind,
      Option.bind_some, ih htail]
    rfl

/-- A directory at offset `o`, with its values before `hi`. -/
structure DirAt (t : List UInt8) (d o hi : Nat) (items : List TiffItem) (next : UInt32) : Prop where
  count : Has t o (beShort (UInt16.ofNat items.length))
  entries : ItemsAt t d (o + 2) o hi items
  next : Has t (o + 2 + 12 * items.length) (beLong next)
  inside : o + 2 + 12 * items.length + 4 ≤ hi
  small : items.length < 2 ^ 16

theorem DirAt.congr {next : UInt32} (h : DirAt t d o hi items next)
    (hs : ∀ k, o ≤ k → k < hi → t'[k]? = t[k]?) : DirAt t' d o hi items next := by
  have hin := h.inside
  refine ⟨h.count.congr fun k h1 h2 => hs k h1 ?_, ?_, h.next.congr fun k h1 h2 => hs k ?_ ?_,
    hin, h.small⟩
  · rw [length_beShort] at h2
    omega
  · exact h.entries.congr (fun k h1 h2 => hs k (by omega) (by omega)) hs (Nat.le_refl _)
      (Nat.le_refl _)
  · omega
  · rw [length_beLong] at h2
    omega

/-- **A directory is read as it was described.** -/
theorem readDir_of_dirAt {next : UInt32} (h : DirAt t d (d + o) hi items next) :
    readDir (t.drop d) o = some (items, next) := by
  have hsmall : (UInt16.ofNat items.length).toNat = items.length := by
    rw [UInt16.toNat_ofNat']
    exact Nat.mod_eq_of_lt h.small
  have hitems := h.entries
  have hnext := h.next
  rw [Nat.add_assoc d] at hitems hnext
  rw [Nat.add_assoc d] at hnext
  unfold readDir
  rw [shortAt_of_has h.count, Option.bind_eq_bind, Option.bind_some, hsmall,
    readItems_of_itemsAt hitems, Option.bind_eq_bind, Option.bind_some, longAt_of_has hnext]
  rfl

end ItemAt

/-! ## Tables of entries -/

/-- An entry that may be there. -/
structure Row where
  present : Bool
  item : TiffItem

/-- The entries that are there. -/
def shown (rows : List Row) : List TiffItem :=
  rows.filterMap fun r => if r.present then some r.item else none

/-- The same entry, if it is there. -/
def Row.Same (a b : Row) : Prop := a.present = b.present ∧ (a.present = true → a.item = b.item)

section Rows

variable {a b : Row} {rows rows' : List Row}

theorem shown_cons (a : Row) (rows : List Row) :
    shown (a :: rows) = if a.present then a.item :: shown rows else shown rows := by
  unfold shown
  rw [List.filterMap_cons]
  cases a.present with
  | true => rfl
  | false => rfl

theorem shown_append (rows rows' : List Row) : shown (rows ++ rows') = shown rows ++ shown rows' :=
  List.filterMap_append

theorem tag_mem_of_mem_shown {item : TiffItem} (h : item ∈ shown rows) :
    item.tag ∈ rows.map fun r => r.item.tag := by
  obtain ⟨r, hr, hitem⟩ := List.mem_filterMap.mp h
  split at hitem
  · cases hitem
    exact List.mem_map_of_mem hr
  · cases hitem

theorem shown_of_same (h : List.Forall₂ Row.Same rows rows') : shown rows = shown rows' := by
  induction h with
  | nil => rfl
  | @cons a b rows rows' hab _ ih =>
    rw [shown_cons, shown_cons, ih, ← hab.1]
    cases hp : a.present with
    | true => rw [hab.2 hp]
    | false => rfl

/-- **Two tables with the same column of tags show the same entries, in whatever order, only if they
agree row by row.** -/
theorem perm_shown_iff
    (htags : (rows.map fun r => r.item.tag) = rows'.map fun r => r.item.tag)
    (hnodup : (rows'.map fun r => r.item.tag).Nodup) :
    (shown rows).Perm (shown rows') ↔ List.Forall₂ Row.Same rows rows' := by
  refine ⟨fun hperm => ?_, fun h => by rw [shown_of_same h]⟩
  induction rows generalizing rows' with
  | nil =>
    cases rows' with
    | nil => exact .nil
    | cons b rows' => cases htags
  | cons a rows ih =>
    cases rows' with
    | nil => cases htags
    | cons b rows' =>
      rw [List.map_cons, List.map_cons] at htags
      rw [List.map_cons] at hnodup
      obtain ⟨htag, htail⟩ := List.cons.inj htags
      obtain ⟨hnot, hnodup'⟩ := List.nodup_cons.mp hnodup
      rw [shown_cons, shown_cons] at hperm
      -- an entry with the first tag can only be that of the first row
      have hnota : ∀ item ∈ shown rows, item.tag ≠ b.item.tag := fun item hi he =>
        hnot (he ▸ htail ▸ tag_mem_of_mem_shown hi)
      have hnotb : ∀ item ∈ shown rows', item.tag ≠ b.item.tag := fun item hi he =>
        hnot (he ▸ tag_mem_of_mem_shown hi)
      cases ha : a.present with
      | true =>
        rw [ha, if_pos rfl] at hperm
        have hmem := hperm.subset List.mem_cons_self
        cases hb : b.present with
        | true =>
          rw [hb, if_pos rfl] at hmem hperm
          rcases List.mem_cons.mp hmem with heq | hmem
          · rw [heq] at hperm
            exact .cons ⟨ha.trans hb.symm, fun _ => heq⟩
              (ih htail hnodup' (List.perm_cons _ |>.mp hperm))
          · exact absurd htag (hnotb _ hmem)
        | false =>
          rw [hb] at hmem
          exact absurd htag (hnotb _ hmem)
      | false =>
        rw [ha, if_neg Bool.false_ne_true] at hperm
        cases hb : b.present with
        | true =>
          rw [hb, if_pos rfl] at hperm
          exact absurd rfl (hnota _ (hperm.symm.subset List.mem_cons_self))
        | false =>
          rw [hb, if_neg Bool.false_ne_true] at hperm
          exact .cons ⟨ha.trans hb.symm, fun h => by rw [ha] at h; cases h⟩
            (ih htail hnodup' hperm)

end Rows

end SprdHal.Lib
