import SprdHal.Jpeg.Access
import SprdHal.Jpeg.Framing

/-!
# What the segments of a JPEG header ask for

The handlers of the header parser trust most of what they read. Here is what in the bytes of a segment
takes a handler outside of a table (`Handler.Harmless`), and the memory that it takes
(`Handler.demand`).
-/

namespace SprdHal.Jpeg

/-! ## What a segment asks for -/

/-- The number of components of a frame header that is good enough for them to be set up. -/
def frameComponents : List UInt8 → Option Nat
  | l1 :: l0 :: precision :: _ :: _ :: _ :: _ :: n :: _ =>
    if precision = 8 ∧ l1.toNat * 256 + l0.toNat = n.toNat * 3 + 8 then some n.toNat else none
  | _ => none

/-- The number of the first component, from number `i` of `n` on, that is not in its place. -/
def scanComponents (n : Nat) : Nat → List UInt8 → Nat
  | i, cc :: _ :: rest => if i < n ∧ cc.toNat = i + 1 then scanComponents n (i + 1) rest else i
  | i, _ => i

/-- The number of components of a scan header that are in their place. -/
def scanHeader : List UInt8 → Nat
  | l1 :: l0 :: n :: rest =>
    if l1.toNat * 256 + l0.toNat = n.toNat * 2 + 6 then scanComponents n.toNat 0 rest else 0
  | _ => 0

/-- The Huffman tables of a segment: class and number, and how many symbols the stream has of it. -/
def huffTables (length : Nat) (rest : List UInt8) : List (Nat × Nat) :=
  if _ : 0 < length then
    match rest with
    | [] => []
    | c :: rest =>
      let count := ((rest.take 16).map UInt8.toNat).sum
      if rest.length < 16 ∨ 256 < count then []
      else
        (c.toNat &&& 0x13, min count (rest.length - 16)) ::
          if rest.length - 16 < count ∨ length < 1 + 16 + count then []
          else huffTables (length - (1 + 16 + count)) (rest.drop (16 + count))
  else []
termination_by length
decreasing_by omega

/-- The numbers of the quantisation tables of a segment for which memory is taken, and whether the
segment has all of them. -/
def quantTables (length : Nat) (rest : List UInt8) : List Nat × Bool :=
  if _ : 0 < length then
    match rest with
    | [] => ([], false)
    | c :: rest =>
      let prec := c.toNat / 16
      let n := c.toNat % 16
      let size := if prec = 0 then 64 else 128
      if 2 < n then ([], false)
      else if rest.length < size ∨ length < 64 + 1 + 64 * prec then ([n], false)
      else
        let tables := quantTables (length - (64 + 1 + 64 * prec)) (rest.drop size)
        (n :: tables.1, tables.2)
  else ([], true)
termination_by length
decreasing_by omega

/-- The body of a segment after its length. -/
def huffSegment (bytes : List UInt8) : List (Nat × Nat) :=
  huffTables (lengthField bytes - 2) (bytes.drop 2)

def quantSegment (bytes : List UInt8) : List Nat × Bool :=
  if lengthField bytes < 2 then ([], false)
  else quantTables (lengthField bytes - 2) (bytes.drop 2)

/-- `quant_tbl[n]` is not `NULL`. -/
def Codec.hasQuantTbl (codec : Codec) (n : Nat) : Prop := codec.quantTbl[n]?.join.isSome = true

/-- A frame has a component, no more than three components of a scan are in their place, no Huffman
table has more symbols than the default table, and the first chroma table is there if the second one
is. -/
def Handler.Harmless (h : Handler) (s : Decoder) : Prop :=
  match h with
  | .sof _ => frameComponents s.rest ≠ some 0
  | .sos => scanHeader s.rest ≤ 3
  | .dht => ∀ t ∈ huffSegment s.rest, t.2 ≤ Checked.defaultSymbols t.1
  | .dqt =>
    (quantSegment s.rest).2 = true → 2 ∈ (quantSegment s.rest).1 →
      1 ∈ (quantSegment s.rest).1 ∨ s.codec.hasQuantTbl 1
  | .skip | .dri | .app0 => True

/-- The memory that a handler takes; `malloced` says whether the Huffman tables have theirs. -/
def Handler.demand (malloced : Bool) (rest : List UInt8) : Handler → Nat
  | .sof _ => (frameComponents rest).getD 0 * 16
  | .dht => if malloced then 0 else 4 * (20 + 260 + 20 + 260)
  | .dqt => (quantSegment rest).1.length * 64
  | .sos | .skip | .dri | .app0 => 0

/-- The segments that are handled, up to the first that fails or SOS, with the decoder before each. -/
def segmentsFrom (s : Decoder) : List (Handler × Decoder) :=
  match s.getNextMarker with
  | none => []
  | some (c, s') =>
    match actionOf c with
    | .stop => if c = markerSOS then [(.sos, s')] else []
    | .error => []
    | .handle h =>
      (h, s') ::
        match h.run s' with
        | none => []
        | some s'' => if s''.rest.length < s.rest.length then segmentsFrom s'' else []
termination_by s.rest.length

def segments (s : Decoder) : List (Handler × Decoder) :=
  match findSOI s with
  | none => []
  | some s' => segmentsFrom s'

/-- The memory that is taken for the segments. -/
def memory : Bool → List (Handler × Decoder) → Nat
  | _, [] => 0
  | malloced, (h, s) :: segs =>
    h.demand malloced s.rest + memory (malloced || decide (h = .dht)) segs

end SprdHal.Jpeg
