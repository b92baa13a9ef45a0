import Mathlib.Data.List.TakeWhile
import SprdHal.Isp.ParamFile
import SprdHal.Lib.Follows

/-!
# Which files are scanned to the end (`isp_param_file_update.c`)

None of the scanning loops looks for the end of the text. A loop stops inside the text if the
character that it waits for is there: the end of a comment, the brace behind a table, a digit. What
the loops wait for depends on the text alone; `paramParse` is the load without the memory, and the
load follows it as long as `malloc` succeeds (`follows_loadTables`). `Scannable` says of a text, search
by search, that what is waited for is there and that the numbers of a table fit the temporary
buffer; these are the texts that no load leaves (`para_parser_inside_iff`).
-/

namespace SprdHal.Isp

open SprdHal.Lib

/-! ## What the loops wait for -/

/-- Two bytes that begin a comment. -/
def OpensComment (c d : UInt8) : Prop := c = 0x2f ∧ (d = 0x2a ∨ d = 0x2f)

/-- The characters that end a comment with `//`. -/
def IsNewline (c : UInt8) : Prop := c = 0x0d ∨ c = 0x0a

/-- Up to the first zero byte every comment has an end. -/
inductive CommentsClosed : Text → Prop
  | nil : CommentsClosed []
  | last (c : UInt8) : CommentsClosed [c]
  | zero (d : UInt8) (cs : Text) : CommentsClosed (0 :: d :: cs)
  | code {c d : UInt8} {cs : Text} (hc : ¬OpensComment c d) (h : CommentsClosed (d :: cs)) :
    CommentsClosed (c :: d :: cs)
  | block (body : Text) {cs : Text} (hfirst : ∀ a b, body ++ [0x2a] ≠ a ++ 0x2a :: 0x2f :: b)
    (h : CommentsClosed cs) : CommentsClosed (0x2f :: 0x2a :: (body ++ 0x2a :: 0x2f :: cs))
  | line (body : Text) {c : UInt8} {cs : Text} (hbody : ∀ b ∈ body, ¬IsNewline b)
    (hc : IsNewline c) (h : CommentsClosed cs) :
    CommentsClosed (0x2f :: 0x2f :: (body ++ c :: cs))

/-- The end of a table is there: a brace, or a semicolon where one is looked for. -/
def TableEnds (semicolon : Bool) (p : Text) : Prop :=
  0x7d ∈ p ∨ semicolon = true ∧ 0x3b ∈ p.tail

/-- The numbers of a table before its end. -/
def numbersIn (semicolon : Bool) (p : Text) : Nat :=
  ((scanNumbers semicolon (p.length + 1) p 0).map (·.1)).getD 0

/-- The table ends, and its numbers fit a buffer for `size` of them. -/
def TableFits (semicolon : Bool) (size : Nat) (p : Text) : Prop :=
  TableEnds semicolon p ∧ numbersIn semicolon p ≤ size

/-- What lies behind the first brace. -/
def behindBrace (p : Text) : Text := (p.dropWhile (· != 0x7d)).tail

/-- There are `n` numbers. -/
def HasNumbers : Nat → Text → Prop
  | 0, _ => True
  | n + 1, p => (∃ c ∈ p, isDigit c = true) ∧ HasNumbers n (strtolEnd (p.dropWhile (!isDigit ·)))

/-- There are `n` numbers that begin with `0x`, with four bytes behind each but the last one. -/
def HasGrids : Nat → Text → Prop
  | 0, _ => True
  | n + 1, p => ∃ q, strstr (ascii "0x") p = some q ∧
    (n = 0 ∨ 4 ≤ (strtolEnd q).length ∧ HasGrids n ((strtolEnd q).drop 4))

/-- The field `len` of the AWB map is there, or a brace in its place. -/
def HasAwbLen (p : Text) : Prop := p.head? = some 0x7d ∨ ∃ c ∈ p.tail, isDigit c = true

/-! ## Comments -/

theorem blankComments_block {body cs : Text}
    (hfirst : ∀ a b, body ++ [0x2a] ≠ a ++ 0x2a :: 0x2f :: b) :
    (blankComments .block (body ++ 0x2a :: 0x2f :: cs)).isSome =
      (blankComments .code cs).isSome := by
  induction body with
  | nil => simp [blankComments]
  | cons c body ih =>
    have hrest : ∀ a b, body ++ [0x2a] ≠ a ++ 0x2a :: 0x2f :: b :=
      fun a b h => hfirst (c :: a) b (congrArg (c :: ·) h)
    obtain ⟨d, ds, hds⟩ : ∃ d ds, body ++ 0x2a :: 0x2f :: cs = d :: ds :=
      List.exists_cons_of_ne_nil (by simp)
    have hnot : ¬(c = 0x2a ∧ d = 0x2f) := by
      rintro ⟨rfl, rfl⟩
      cases body with
      | nil => exact absurd (List.cons.inj hds).1 (by decide)
      | cons d body => exact hfirst [] (body ++ [0x2a]) (by rw [(List.cons.inj hds).1]; rfl)
    rw [List.cons_append, hds, blankComments, if_neg hnot, Option.isSome_map, ← hds]
    exact ih hrest

theorem blankComments_line {body cs : Text} {c : UInt8} (hbody : ∀ b ∈ body, ¬IsNewline b)
    (hc : IsNewline c) :
    (blankComments .line (body ++ c :: cs)).isSome = (blankComments .code cs).isSome := by
  induction body with
  | nil =>
    have hc' : c = 0x0d ∨ c = 0x0a := hc
    rw [List.nil_append, blankComments, if_pos hc', Option.isSome_map]
  | cons b body ih =>
    have hb : ¬(b = 0x0d ∨ b = 0x0a) := hbody b List.mem_cons_self
    rw [List.cons_append, blankComments, if_neg hb, Option.isSome_map]
    exact ih fun b' hb' => hbody b' (List.mem_cons_of_mem _ hb')

/-- A comment that is passed over has an end. -/
theorem exists_block_end {cs : Text} (h : (blankComments .block cs).isSome) :
    ∃ body rest, cs = body ++ 0x2a :: 0x2f :: rest ∧
      (∀ a b, body ++ [0x2a] ≠ a ++ 0x2a :: 0x2f :: b) ∧ (blankComments .code rest).isSome := by
  induction cs with
  | nil => cases h
  | cons c cs ih =>
    cases cs with
    | nil => cases h
    | cons d ds =>
      by_cases hend : c = 0x2a ∧ d = 0x2f
      · rw [blankComments, if_pos hend, Option.isSome_map] at h
        obtain ⟨rfl, rfl⟩ := hend
        refine ⟨[], ds, rfl, fun a b hab => ?_, h⟩
        have hlen := congrArg List.length hab
        simp only [List.nil_append, List.length_append, List.length_cons, List.length_nil] at hlen
        omega
      · rw [blankComments, if_neg hend, Option.isSome_map] at h
        obtain ⟨body, rest, hds, hfirst, hrest⟩ := ih h
        refine ⟨c :: body, rest, congrArg (c :: ·) hds, fun a b hab => ?_, hrest⟩
        cases a with
        | nil =>
          obtain ⟨hc, htail⟩ := List.cons.inj hab
          cases body with
          | nil => exact absurd (List.cons.inj htail).1 (by decide)
          | cons x body =>
            exact hend ⟨hc, (List.cons.inj hds).1.trans (List.cons.inj htail).1⟩
        | cons x a => exact hfirst a b (List.cons.inj hab).2

theorem exists_line_end {cs : Text} (h : (blankComments .line cs).isSome) :
    ∃ body c rest, cs = body ++ c :: rest ∧ (∀ b ∈ body, ¬IsNewline b) ∧ IsNewline c ∧
      (blankComments .code rest).isSome := by
  induction cs with
  | nil => cases h
  | cons c cs ih =>
    by_cases hc : c = 0x0d ∨ c = 0x0a
    · rw [blankComments, if_pos hc, Option.isSome_map] at h
      exact ⟨[], c, cs, rfl, fun _ hb => absurd hb List.not_mem_nil, hc, h⟩
    · rw [blankComments, if_neg hc, Option.isSome_map] at h
      obtain ⟨body, c', rest, rfl, hbody, hc', hrest⟩ := ih h
      exact ⟨c :: body, c', rest, rfl, List.forall_mem_cons.mpr ⟨hc, hbody⟩, hc', hrest⟩

theorem CommentsClosed.isSome {p : Text} (h : CommentsClosed p) :
    (blankComments .code p).isSome := by
  induction h with
  | nil => rfl
  | last c => rfl
  | zero d cs =>
    rw [blankComments, if_pos rfl]
    rfl
  | @code c d cs hc _ ih =>
    have hblock : ¬(c = 0x2f ∧ d = 0x2a) := fun h => hc ⟨h.1, Or.inl h.2⟩
    have hline : ¬(c = 0x2f ∧ d = 0x2f) := fun h => hc ⟨h.1, Or.inr h.2⟩
    rw [blankComments]
    split
    · rfl
    · rw [Option.isSome_map]
      exact ih
  | block body hfirst _ ih =>
    rw [blankComments, if_neg (by decide), if_pos ⟨rfl, rfl⟩, Option.isSome_map,
      blankComments_block hfirst]
    exact ih
  | line body hbody hc _ ih =>
    rw [blankComments, if_neg (by decide), if_neg (by decide), if_pos ⟨rfl, rfl⟩, Option.isSome_map,
      blankComments_line hbody hc]
    exact ih

/-- **The loop over the comments** stays in the text if all comments are closed. -/
theorem blankComments_isSome_iff (p : Text) :
    (blankComments .code p).isSome ↔ CommentsClosed p := by
  refine ⟨fun h => ?_, CommentsClosed.isSome⟩
  -- on the length: what lies behind a comment is shorter
  obtain ⟨n, hn⟩ : ∃ n, p.length ≤ n := ⟨_, Nat.le_refl _⟩
  induction n generalizing p with
  | zero =>
    rw [List.eq_nil_of_length_eq_zero (Nat.le_zero.mp hn)]
    exact .nil
  | succ n ih =>
    match p with
    | [] => exact .nil
    | [c] => exact .last c
    | c :: d :: cs =>
      rw [blankComments] at h
      split at h
      · rename_i hzero
        rw [hzero]
        exact .zero d cs
      split at h
      · rename_i hblock
        obtain ⟨rfl, rfl⟩ := hblock
        rw [Option.isSome_map] at h
        obtain ⟨body, rest, rfl, hfirst, hrest⟩ := exists_block_end h
        refine .block body hfirst (ih rest hrest ?_)
        simp only [List.length_cons, List.length_append] at hn
        omega
      split at h
      · rename_i hline
        obtain ⟨rfl, rfl⟩ := hline
        rw [Option.isSome_map] at h
        obtain ⟨body, c, rest, rfl, hbody, hc, hrest⟩ := exists_line_end h
        refine .line body hbody hc (ih rest hrest ?_)
        simp only [List.length_cons, List.length_append] at hn
        omega
      · rename_i hblock hline
        rw [Option.isSome_map] at h
        refine .code (fun hopen => ?_) (ih (d :: cs) h ?_)
        · rcases hopen with ⟨hc, hd | hd⟩
          · exact hblock ⟨hc, hd⟩
          · exact hline ⟨hc, hd⟩
        · rw [List.length_cons] at hn
          omega

/-! ## Numbers -/

/-- `strtol` reads digits, and the `x` of a number in base 16. -/
theorem exists_strtolEnd (p : Text) :
    ∃ number, p = number ++ strtolEnd p ∧ ∀ c ∈ number, isHexDigit c = true ∨ isX c = true := by
  have hwhile : ∀ (f : UInt8 → Bool) (q : Text), (∀ c, f c = true → isHexDigit c = true) →
      ∃ number, q = number ++ q.dropWhile f ∧ ∀ c ∈ number, isHexDigit c = true :=
    fun f q hf => ⟨q.takeWhile f, List.takeWhile_append_dropWhile.symm,
      fun c hc => hf c (List.mem_takeWhile_imp hc)⟩
  have hdigit : ∀ c, isDigit c = true → isHexDigit c = true := by
    intro c hc
    rw [isHexDigit, hc, Bool.true_or, Bool.true_or]
  rw [strtolEnd]
  split
  · rename_i hx
    split
    · rename_i hzero
      -- `0x` and the digits behind it
      match p with
      | [] => cases hx
      | [_] => cases hx
      | c :: d :: cs =>
        obtain ⟨number, hcs, hall⟩ := hwhile isHexDigit cs fun _ => id
        have hc : c = 0x30 := Option.some.inj hzero.1
        have hd : isX d = true := hx
        refine ⟨c :: d :: number, congrArg (c :: d :: ·) hcs, ?_⟩
        rw [List.forall_mem_cons, List.forall_mem_cons, hc]
        exact ⟨Or.inl (by decide), Or.inr hd, fun b hb => Or.inl (hall b hb)⟩
    · obtain ⟨number, hp, hall⟩ := hwhile isHexDigit p fun _ => id
      exact ⟨number, hp, fun c hc => Or.inl (hall c hc)⟩
  · obtain ⟨number, hp, hall⟩ := hwhile isDigit p hdigit
    exact ⟨number, hp, fun c hc => Or.inl (hall c hc)⟩

theorem strtolEnd_length_le (p : Text) : (strtolEnd p).length ≤ p.length := by
  obtain ⟨number, hp, -⟩ := exists_strtolEnd p
  have hlen := congrArg List.length hp
  rw [List.length_append] at hlen
  omega

/-- What is not a part of a number is not passed over. -/
theorem mem_strtolEnd {c : UInt8} (hhex : isHexDigit c = false) (hx : isX c = false) (p : Text) :
    c ∈ strtolEnd p ↔ c ∈ p := by
  obtain ⟨number, hp, hall⟩ := exists_strtolEnd p
  rw [iff_comm]
  nth_rewrite 1 [hp]
  rw [List.mem_append, or_iff_right]
  intro hc
  rcases hall c hc with h | h
  · rw [hhex] at h
    cases h
  · rw [hx] at h
    cases h

theorem behindBrace_strtolEnd (p : Text) : behindBrace (strtolEnd p) = behindBrace p := by
  obtain ⟨number, hp, hall⟩ := exists_strtolEnd p
  have hskip : p.dropWhile (· != 0x7d) = (strtolEnd p).dropWhile (· != 0x7d) := by
    nth_rewrite 1 [hp]
    refine List.dropWhile_append_of_pos fun c hc => bne_iff_ne.mpr ?_
    rintro rfl
    exact absurd (hall 0x7d hc) (by decide)
  rw [behindBrace, behindBrace, hskip]

/-- A round of the loop over a table goes on behind the character, or behind the number there. -/
def roundEnd (cs : Text) : Text := if cs.head?.any isDigit then strtolEnd cs else cs

theorem roundEnd_length_le (cs : Text) : (roundEnd cs).length ≤ cs.length := by
  rw [roundEnd]
  split
  · exact strtolEnd_length_le cs
  · exact Nat.le_refl _

theorem mem_roundEnd {c : UInt8} (hhex : isHexDigit c = false) (hx : isX c = false) (cs : Text) :
    c ∈ roundEnd cs ↔ c ∈ cs := by
  rw [roundEnd]
  split
  · exact mem_strtolEnd hhex hx cs
  · exact Iff.rfl

theorem behindBrace_roundEnd (cs : Text) : behindBrace (roundEnd cs) = behindBrace cs := by
  rw [roundEnd]
  split
  · exact behindBrace_strtolEnd cs
  · rfl

/-! ## Tables -/

/-- A round that does not begin with the brace. -/
theorem scanNumbers_round (semicolon : Bool) (fuel cnt : Nat) {c : UInt8} {cs : Text}
    (hc : c ≠ 0x7d) :
    ∃ cnt', scanNumbers semicolon (fuel + 1) (c :: cs) cnt =
      if semicolon ∧ (roundEnd cs).head? = some 0x3b then some (cnt', roundEnd cs)
      else scanNumbers semicolon fuel (roundEnd cs) cnt' :=
  ⟨_, by rw [scanNumbers, if_neg hc]; rfl⟩

/-- **The loop over the numbers** finds the end of the table if it is there. -/
theorem scanNumbers_isSome_iff (semicolon : Bool) {fuel : Nat} {p : Text} (cnt : Nat)
    (hfuel : p.length < fuel) :
    (scanNumbers semicolon fuel p cnt).isSome ↔ TableEnds semicolon p := by
  induction fuel generalizing p cnt with
  | zero => omega
  | succ fuel ih =>
    cases p with
    | nil => simp [scanNumbers, TableEnds]
    | cons c cs =>
      by_cases hc : c = 0x7d
      · simp [scanNumbers, TableEnds, hc]
      · obtain ⟨cnt', hround⟩ := scanNumbers_round semicolon fuel cnt hc
        have hbrace : 0x7d ∈ roundEnd cs ↔ 0x7d ∈ cs := mem_roundEnd (by decide) (by decide) cs
        have hsemi : 0x3b ∈ roundEnd cs ↔ 0x3b ∈ cs := mem_roundEnd (by decide) (by decide) cs
        have hends : TableEnds semicolon (c :: cs) ↔ 0x7d ∈ roundEnd cs ∨
            semicolon = true ∧ 0x3b ∈ roundEnd cs := by
          rw [TableEnds, List.mem_cons, or_iff_right (Ne.symm hc), List.tail_cons, hbrace, hsemi]
        rw [hround, hends]
        split
        · rename_i hstop
          exact iff_of_true rfl (Or.inr ⟨hstop.1, List.mem_of_head? hstop.2⟩)
        · rename_i hgo
          have hlen := roundEnd_length_le cs
          rw [ih cnt' (by rw [List.length_cons] at hfuel; omega), TableEnds]
          refine or_congr_right (and_congr_right fun hs => ⟨List.mem_of_mem_tail, fun hmem => ?_⟩)
          cases hr : roundEnd cs with
          | nil => rw [hr] at hmem; cases hmem
          | cons d ds =>
            rw [hr] at hmem hgo
            exact (List.mem_cons.mp hmem).resolve_left fun hd => hgo ⟨hs, congrArg some hd.symm⟩

/-- Without the semicolon the loop ends behind the brace. -/
theorem scanNumbers_rest {fuel : Nat} {p q : Text} {cnt n : Nat}
    (h : scanNumbers false fuel p cnt = some (n, q)) : q = behindBrace p := by
  induction fuel generalizing p cnt with
  | zero => cases h
  | succ fuel ih =>
    cases p with
    | nil => cases h
    | cons c cs =>
      by_cases hc : c = 0x7d
      · rw [scanNumbers, if_pos hc] at h
        rw [hc, ← (Prod.mk.inj (Option.some.inj h)).2]
        rfl
      · obtain ⟨cnt', hround⟩ := scanNumbers_round false fuel cnt hc
        have hskip : behindBrace (c :: cs) = behindBrace cs := by
          rw [behindBrace, List.dropWhile_cons, if_pos (bne_iff_ne.mpr hc), behindBrace]
        rw [hround, if_neg (fun hs => Bool.false_ne_true hs.1)] at h
        rw [hskip, ih h, behindBrace_roundEnd]

/-- The numbers of a table that ends. -/
theorem exists_scanNumbers {semicolon : Bool} {p : Text} (h : TableEnds semicolon p) :
    ∃ q, scanNumbers semicolon (p.length + 1) p 0 = some (numbersIn semicolon p, q) := by
  obtain ⟨⟨n, q⟩, hscan⟩ := Option.isSome_iff_exists.mp
    ((scanNumbers_isSome_iff semicolon 0 (Nat.lt_succ_self _)).mpr h)
  refine ⟨q, ?_⟩
  rw [numbersIn, hscan]
  rfl

theorem scanTable_ne_none_iff (semicolon : Bool) (size : Nat) (p : Text) :
    scanTable semicolon size p ≠ none ↔ TableFits semicolon size p := by
  rw [scanTable]
  by_cases hends : TableEnds semicolon p
  · obtain ⟨q, hscan⟩ := exists_scanNumbers hends
    rw [hscan]
    show (if size < numbersIn semicolon p then none else some (numbersIn semicolon p, q)) ≠ none ↔ _
    split
    · rename_i hlt
      exact iff_of_false (fun h => h rfl) fun h => absurd h.2 (Nat.not_le.mpr hlt)
    · rename_i hle
      exact iff_of_true (fun h => Option.some_ne_none _ h) ⟨hends, Nat.not_lt.mp hle⟩
  · have hnone : scanNumbers semicolon (p.length + 1) p 0 = none := by
      rw [← Option.not_isSome_iff_eq_none, scanNumbers_isSome_iff semicolon 0 (Nat.lt_succ_self _)]
      exact hends
    rw [hnone]
    exact iff_of_false (fun h => h rfl) fun h => hends h.1

/-- What the scan of a table gives. -/
theorem exists_scanTable {semicolon : Bool} {size : Nat} {p : Text} {r : Nat × Text}
    (h : scanTable semicolon size p = some r) :
    r.1 = numbersIn semicolon p ∧ scanNumbers semicolon (p.length + 1) p 0 = some r := by
  have hends : TableEnds semicolon p :=
    ((scanTable_ne_none_iff semicolon size p).mp (h ▸ Option.some_ne_none _)).1
  obtain ⟨q, hscan⟩ := exists_scanNumbers hends
  rw [scanTable, hscan] at h
  change (if size < numbersIn semicolon p then none else some (numbersIn semicolon p, q)) = _ at h
  split at h
  · cases h
  · rw [← Option.some.inj h]
    exact ⟨rfl, hscan⟩

/-- Without a semicolon. -/
theorem scanTable_eq {size : Nat} {p : Text} {r : Nat × Text}
    (h : scanTable false size p = some r) : r = (numbersIn false p, behindBrace p) := by
  obtain ⟨hcount, hscan⟩ := exists_scanTable h
  exact Prod.ext hcount (scanNumbers_rest hscan)

/-! ## Single numbers -/

/-- What lies behind `n` numbers. -/
def behindNumbers : Nat → Text → Text
  | 0, p => p
  | n + 1, p => behindNumbers n (strtolEnd (p.dropWhile (!isDigit ·)))

theorem exists_digit_iff (p : Text) :
    (∃ c ∈ p, isDigit c = true) ↔ p.dropWhile (!isDigit ·) ≠ [] := by
  rw [ne_eq, List.dropWhile_eq_nil_iff]
  simp

theorem nextNumber_eq {p : Text} (h : ∃ c ∈ p, isDigit c = true) :
    nextNumber p = some (strtolEnd (p.dropWhile (!isDigit ·))) := by
  obtain ⟨c, cs, hcs⟩ := List.exists_cons_of_ne_nil ((exists_digit_iff p).mp h)
  rw [nextNumber, hcs]

theorem nextNumber_none {p : Text} (h : ¬∃ c ∈ p, isDigit c = true) : nextNumber p = none := by
  rw [exists_digit_iff, ne_eq, not_not] at h
  rw [nextNumber, h]

theorem nextNumber_ne_none_iff (p : Text) :
    nextNumber p ≠ none ↔ ∃ c ∈ p, isDigit c = true := by
  by_cases h : ∃ c ∈ p, isDigit c = true
  · rw [nextNumber_eq h]
    exact iff_of_true (Option.some_ne_none _) h
  · rw [nextNumber_none h]
    exact iff_of_false (fun hne => hne rfl) h

/-- **The loops over single numbers** stay in the text if the numbers are there. -/
theorem nextNumbers_eq (n : Nat) (p : Text) :
    (HasNumbers n p → nextNumbers n p = some (behindNumbers n p)) ∧
      (¬HasNumbers n p → nextNumbers n p = none) := by
  induction n generalizing p with
  | zero => exact ⟨fun _ => rfl, fun h => absurd trivial h⟩
  | succ n ih =>
    by_cases hdigit : ∃ c ∈ p, isDigit c = true
    · rw [nextNumbers, nextNumber_eq hdigit, Option.bind_some, HasNumbers, and_iff_right hdigit]
      exact ih _
    · rw [nextNumbers, nextNumber_none hdigit, Option.bind_none]
      exact ⟨fun h => absurd h.1 hdigit, fun _ => rfl⟩

theorem nextNumbers_ne_none_iff (n : Nat) (p : Text) : nextNumbers n p ≠ none ↔ HasNumbers n p := by
  by_cases h : HasNumbers n p
  · rw [(nextNumbers_eq n p).1 h]
    exact iff_of_true (Option.some_ne_none _) h
  · rw [(nextNumbers_eq n p).2 h]
    exact iff_of_false (fun hne => hne rfl) h

theorem advance_ne_none_iff (n : Nat) (p : Text) : advance n p ≠ none ↔ n ≤ p.length := by
  rw [advance]
  split
  · rename_i hlt
    exact iff_of_false (fun h => h rfl) (Nat.not_le.mpr hlt)
  · rename_i hle
    exact iff_of_true (Option.some_ne_none _) (Nat.not_lt.mp hle)

theorem advance_eq {n : Nat} {p q : Text} (h : advance n p = some q) : q = p.drop n := by
  rw [advance] at h
  split at h
  · cases h
  · exact (Option.some.inj h).symm

theorem scanGrids_ne_none_iff (n : Nat) (p : Text) : scanGrids n p ≠ none ↔ HasGrids n p := by
  induction n generalizing p with
  | zero => exact iff_of_true (Option.some_ne_none _) trivial
  | succ n ih =>
    rw [scanGrids, HasGrids]
    cases hfind : strstr (ascii "0x") p with
    | none => simp
    | some q =>
      by_cases hn : n = 0
      · simp [hn]
      · simp only [Option.some.injEq, exists_eq_left', hn, false_or]
        rw [← ih, ← advance_ne_none_iff]
        cases hadv : advance 4 (strtolEnd q) with
        | none => simp
        | some r => simp [advance_eq hadv]

theorem scanAwbLen_ne_none_iff (p : Text) : scanAwbLen p ≠ none ↔ HasAwbLen p := by
  cases p with
  | nil => simp [scanAwbLen, HasAwbLen]
  | cons c cs =>
    rw [scanAwbLen, HasAwbLen, List.head?_cons, List.tail_cons, Option.some.injEq]
    split
    · rename_i hc
      exact iff_of_true (Option.some_ne_none _) (Or.inl hc)
    · rename_i hc
      rw [nextNumber_ne_none_iff, or_iff_right hc]

/-! ## The load without the memory -/

abbrev Parse := Except Trap

/-- A scan. -/
def inText {α : Type} : Option α → Parse α
  | some a => .ok a
  | none => .error .overrun

section Parse

variable (name : Text)

def lncParse (p : Text) (ij : Fin 8 × Fin 9) : Parse Text :=
  match strstr (lncLookupStr name ij.1 ij.2) p with
  | none => .ok p
  | some q => do
    let (_, p) ← inText (scanTable false 65536 (q.drop (lncLookupStr name ij.1 ij.2).length))
    return p

/-- A table that must be there and not be empty. -/
def requiredParse (size : Nat) (p pat : Text) : Parse Text :=
  match strstr pat p with
  | none => .error .updateError
  | some q => do
    let (cnt, p) ← inText (scanTable false size (q.drop pat.length))
    if 1 < cnt then return p else .error .updateError

def awbMapParse (p : Text) : Parse Unit :=
  match strstr (awbMapLookupStr name) p with
  | none => .error .updateError
  | some q => do
    let p ← inText (advance 8 (q.drop (awbMapLookupStr name).length))
    let _ ← inText (scanTable true 6160 p)

def aeIndexesParse (p : Text) (_ : Fin 4) : Parse Text :=
  match strstr (aegInfoLookupStr name) p with
  | none => .error .updateError
  | some q => do
    let p ← inText (advance 4 (q.drop (aegInfoLookupStr name).length))
    inText (nextNumbers 12 p)

def fixInfoParse (text : Text) : Parse Unit :=
  match strstr (fixInfoLookupStr name) text with
  | none => .error .updateError
  | some q => do
    let p ← (List.finRange 4).foldlM (aeIndexesParse name) q
    let _ ← inText (scanGrids 72 p)
    match strstr (awbMapLookupStr name) q with
    | none => .error .updateError
    | some r => do
      let _ ← inText (scanAwbLen (r.drop (awbMapLookupStr name).length))

/-- The tables of a load. -/
def paramParse (text : Text) : Parse Unit := do
  let text ← inText (blankComments .code text)
  let _ ← lncIndexes.foldlM (lncParse name) text
  let _ ← ((List.finRange 4).map (aesLookupStr name)).foldlM (requiredParse 1544) text
  let _ ← ((List.finRange 4).map (aegLookupStr name)).foldlM (requiredParse 1552) text
  let _ ← requiredParse 1088 text (aeWeightLookupStr name)
  let _ ← requiredParse 5056 text (tuneInfoLookupStr name)
  awbMapParse name text
  fixInfoParse name text

end Parse

/-! ### The load follows -/

/-- No call of `malloc` fails. -/
def RawPara.Plenty (w : RawPara) : Prop := w.mallocs = []

/-- With `malloc` that does not fail, the load does as the parse; else it may go to `update_error`. -/
abbrev Parses {α β : Type} (g : α → β) (x : Load α) (r : Parse β) : Prop :=
  Follows RawPara.Plenty .updateError g x r

section Follow

variable (name : Text) (fix : Addr)

theorem parses_malloc : Parses (fun _ => ()) mallocOrFail (.ok ()) := by
  intro w
  cases hms : w.mallocs with
  | nil =>
    have hw : mallocOrFail w = .ok (.block w.blocks)
        { w with mallocs := w.mallocs.tail, blocks := w.blocks + 1 } := by
      simp only [mallocOrFail, hms]
    have hkeep : { w with mallocs := w.mallocs.tail, blocks := w.blocks + 1 }.Plenty :=
      congrArg List.tail hms
    exact Or.inl ⟨_, fun _ => hkeep, Follows.map_ok hw⟩
  | cons m ms =>
    have hno : ¬w.Plenty := fun h => List.cons_ne_nil m ms (hms.symm.trans h)
    cases m with
    | false =>
      refine Or.inr ⟨hno, { w with mallocs := ms }, ?_⟩
      simp only [mallocOrFail, hms]
    | true =>
      have hw : mallocOrFail w = .ok (.block w.blocks)
          { w with mallocs := w.mallocs.tail, blocks := w.blocks + 1 } := by
        simp only [mallocOrFail, hms]
      exact Or.inl ⟨_, fun h => absurd h hno, Follows.map_ok hw⟩

theorem parses_scan {α : Type} (r : Option α) : Parses id (scan r) (inText r) := by
  cases r with
  | none => exact Follows.throw _
  | some a => exact Follows.pure a

theorem parses_setStatus (u : UpdateStatus → UpdateStatus) :
    Parses (fun _ => ()) (setStatus u) (.ok ()) :=
  Follows.modify fun _ h => h

theorem parses_setFix (u : FixInfo → FixInfo) : Parses (fun _ => ()) (setFix fix u) (.ok ()) := by
  refine Follows.modify fun w h => ?_
  cases fix <;> exact h

/-- A step that cannot fail, and the rest. -/
theorem Parses.seq {α β γ : Type} {x : Load α} {f : α → Load β} {g : β → γ} {r : Parse γ}
    (hx : Parses (fun _ => ()) x (.ok ())) (hf : ∀ a, Parses g (f a) r) : Parses g (x >>= f) r :=
  Follows.bind (h := fun _ => r) hx hf

/-- A scan, and the rest. -/
theorem Parses.scan {α β γ : Type} {o : Option α} {f : α → Load β} {g : β → γ} {h : α → Parse γ}
    (hf : ∀ a, Parses g (f a) (h a)) : Parses g (scan o >>= f) (inText o >>= h) :=
  Follows.bind (parses_scan o) hf

theorem parses_lncTable (p : Text) (ij : Fin 8 × Fin 9) :
    Parses id (lncTable name fix p ij) (lncParse name p ij) := by
  unfold lncTable lncParse
  cases strstr (lncLookupStr name ij.1 ij.2) p with
  | none => exact Parses.seq (parses_setFix _ _) fun _ => Follows.pure p
  | some q =>
    refine Parses.scan fun r => Follows.ite_same ?_ ?_
    · exact Parses.seq parses_malloc fun _ => Parses.seq (parses_setStatus _) fun _ =>
        Parses.seq (parses_setFix _ _) fun _ => Follows.pure r.2
    · exact Parses.seq (parses_setFix _ _) fun _ => Follows.pure r.2

theorem parses_requiredTable (pat : Text) (size : Nat) (store : Addr → UpdateStatus → UpdateStatus)
    (set : Addr → FixInfo → FixInfo) (p : Text) :
    Parses Prod.snd (requiredTable fix pat size store set p) (requiredParse size p pat) := by
  unfold requiredTable requiredParse
  cases strstr pat p with
  | none => exact Follows.throw _
  | some q =>
    refine Parses.scan fun r => Follows.ite ?_ (Follows.throw _)
    exact Parses.seq parses_malloc fun a => Parses.seq (parses_setStatus _) fun _ =>
      Parses.seq (parses_setFix _ _) fun _ => Follows.pure (a, r.2)

theorem parses_aesTable (p : Text) (i : Fin 4) :
    Parses id (aesTable name fix p i) (requiredParse 1544 p (aesLookupStr name i)) :=
  Follows.bind_pure (parses_requiredTable fix _ _ _ _ p) fun _ => rfl

theorem parses_aegTable (p : Text) (i : Fin 4) :
    Parses id (aegTable name fix p i) (requiredParse 1552 p (aegLookupStr name i)) :=
  Follows.bind_pure (parses_requiredTable fix _ _ _ _ p) fun _ => rfl

theorem parses_aesTables (text : Text) :
    Parses id ((List.finRange 4).foldlM (aesTable name fix) text)
      (((List.finRange 4).map (aesLookupStr name)).foldlM (requiredParse 1544) text) := by
  rw [List.foldlM_map]
  exact Follows.foldlM (parses_aesTable name fix) _ text

theorem parses_aegTables (text : Text) :
    Parses id ((List.finRange 4).foldlM (aegTable name fix) text)
      (((List.finRange 4).map (aegLookupStr name)).foldlM (requiredParse 1552) text) := by
  rw [List.foldlM_map]
  exact Follows.foldlM (parses_aegTable name fix) _ text

theorem parses_awbMapTable (p : Text) :
    Parses id (awbMapTable name fix p) (awbMapParse name p) := by
  unfold awbMapTable awbMapParse
  cases strstr (awbMapLookupStr name) p with
  | none => exact Follows.throw _
  | some q =>
    refine Parses.scan fun p => Parses.scan fun r => Follows.ite_same ?_ (Follows.pure ())
    exact Parses.seq parses_malloc fun _ => Parses.seq (parses_setStatus _) fun _ =>
      parses_setFix _ _

theorem parses_aeIndexes (p : Text) (i : Fin 4) :
    Parses id (aeIndexes name p i) (aeIndexesParse name p i) := by
  unfold aeIndexes aeIndexesParse
  cases strstr (aegInfoLookupStr name) p with
  | none => exact Follows.throw _
  | some q => exact Parses.scan fun p => parses_scan _

theorem parses_fixInfoFields (text : Text) :
    Parses id (fixInfoFields name text) (fixInfoParse name text) := by
  unfold fixInfoFields fixInfoParse
  cases strstr (fixInfoLookupStr name) text with
  | none => exact Follows.throw _
  | some q =>
    refine Follows.bind (Follows.foldlM (parses_aeIndexes name) _ q) fun p =>
      Parses.scan fun _ => ?_
    cases strstr (awbMapLookupStr name) q with
    | none => exact Follows.throw _
    | some r => exact Parses.scan fun _ => Follows.pure ()

/-- **The load follows the parse.** -/
theorem follows_loadTables (text : Text) :
    Parses (fun _ => ()) (loadTables name fix text) (paramParse name text) := by
  unfold loadTables paramParse
  refine Parses.scan fun text => Parses.seq parses_malloc fun _ => ?_
  refine Follows.bind (Follows.foldlM (parses_lncTable name fix) _ text) fun _ =>
    Parses.seq parses_malloc fun _ => ?_
  refine Follows.bind (parses_aesTables name fix text) fun _ => Parses.seq parses_malloc fun _ => ?_
  refine Follows.bind (parses_aegTables name fix text) fun _ => Parses.seq parses_malloc fun _ => ?_
  refine Follows.bind (parses_requiredTable fix _ _ _ _ text) fun _ =>
    Parses.seq parses_malloc fun _ => ?_
  refine Follows.bind (parses_requiredTable fix _ _ _ _ text) fun r =>
    Parses.seq parses_malloc fun _ => ?_
  refine Follows.bind (parses_awbMapTable name fix text) fun _ => ?_
  exact Follows.bind_pure (parses_fixInfoFields name text) fun _ => rfl

theorem follows_load (b : BuiltIn) (text : Text) :
    Parses (fun _ => ()) (load b name text) (paramParse name text) := by
  unfold load
  refine Parses.seq parses_malloc fun fix => Parses.seq (parses_setStatus _) fun _ => ?_
  have hget : Parses (fun _ => ()) get (.ok ()) := Follows.of_ok fun w => ⟨w, w, rfl, rfl, id⟩
  refine Parses.seq hget fun w => Parses.seq (parses_setFix _ _) fun _ => ?_
  exact Follows.bind_pure (follows_loadTables name fix text) fun _ => rfl

end Follow

/-! ## The texts that no load leaves -/

/-- The parse does not leave the text. -/
def Inside {α : Type} (r : Parse α) : Prop := r ≠ .error .overrun

section Inside

variable {α β : Type}

theorem inside_ok (a : α) : Inside (.ok a : Parse α) := fun h => by cases h

theorem inside_updateError : Inside (.error .updateError : Parse α) := fun h => by cases h

theorem inside_inText (o : Option α) : Inside (inText o) ↔ o ≠ none := by
  cases o with
  | none => exact iff_of_false (fun h => h rfl) fun h => h rfl
  | some a => exact iff_of_true (inside_ok a) (Option.some_ne_none a)

theorem inside_bind {r : Parse α} {h : α → Parse β} :
    Inside (r >>= h) ↔ Inside r ∧ ∀ a, r = .ok a → Inside (h a) := by
  cases r with
  | ok a =>
    show Inside (h a) ↔ _
    simp [inside_ok]
  | error e =>
    show Inside (.error e) ↔ _
    simp [Inside]

theorem inside_inText_bind {o : Option α} {h : α → Parse β} :
    Inside (inText o >>= h) ↔ o ≠ none ∧ ∀ a, o = some a → Inside (h a) := by
  rw [inside_bind, inside_inText]
  refine and_congr_right fun _ => forall_congr' fun a => ?_
  cases o with
  | none => simp [inText]
  | some a' => simp [inText]

end Inside

section Scannable

variable (name : Text)

/-- The lens tables that are there, one behind the other. -/
def LncScans : List (Fin 8 × Fin 9) → Text → Prop
  | [], _ => True
  | ij :: ijs, p =>
    match strstr (lncLookupStr name ij.1 ij.2) p with
    | none => LncScans ijs p
    | some q =>
      let table := q.drop (lncLookupStr name ij.1 ij.2).length
      TableFits false 65536 table ∧ LncScans ijs (behindBrace table)

/-- The tables that must be there, up to the first one that is missing or empty; then `next`. -/
def RequiredScans (size : Nat) (next : Prop) : List Text → Text → Prop
  | [], _ => next
  | pat :: pats, p => ∀ q, strstr pat p = some q →
    let table := q.drop pat.length
    TableFits false size table ∧
      (1 < numbersIn false table → RequiredScans size next pats (behindBrace table))

/-- The indexes of the exposure tables, if their names are there; then `next`. -/
def IndexScans (next : Text → Prop) : Nat → Text → Prop
  | 0, p => next p
  | n + 1, p => ∀ q, strstr (aegInfoLookupStr name) p = some q →
    let table := q.drop (aegInfoLookupStr name).length
    4 ≤ table.length ∧ HasNumbers 12 (table.drop 4) ∧
      IndexScans next n (behindNumbers 12 (table.drop 4))

/-- The fields of the fix structure that are not pointers. -/
def FixScans (text : Text) : Prop := ∀ q, strstr (fixInfoLookupStr name) text = some q →
  IndexScans name
    (fun p => HasGrids 72 p ∧ ∀ r, strstr (awbMapLookupStr name) q = some r →
      HasAwbLen (r.drop (awbMapLookupStr name).length)) 4 q

/-- The AWB map; then `next`. -/
def AwbScans (next : Prop) (text : Text) : Prop :=
  ∀ q, strstr (awbMapLookupStr name) text = some q →
    let table := q.drop (awbMapLookupStr name).length
    8 ≤ table.length ∧ TableFits true 6160 (table.drop 8) ∧ next

/-- Search by search, what the loops wait for is in the text, and the numbers fit. -/
def Scannable (text : Text) : Prop :=
  CommentsClosed text ∧ ∀ t, blankComments .code text = some t →
    LncScans name lncIndexes t ∧
    RequiredScans 1544 (RequiredScans 1552 (RequiredScans 1088 (RequiredScans 5056
      (AwbScans name (FixScans name t) t)
      [tuneInfoLookupStr name] t) [aeWeightLookupStr name] t)
      ((List.finRange 4).map (aegLookupStr name)) t)
      ((List.finRange 4).map (aesLookupStr name)) t

variable {name} {α : Type}

/-- A scan of a table, and what depends on its end. -/
theorem inside_scanTable {size : Nat} {p : Text} {h : Nat × Text → Parse α} :
    Inside (inText (scanTable false size p) >>= h) ↔
      TableFits false size p ∧ Inside (h (numbersIn false p, behindBrace p)) := by
  rw [inside_inText_bind, scanTable_ne_none_iff]
  refine and_congr_right fun hfits => ⟨fun hall => ?_, fun hin r hr => ?_⟩
  · obtain ⟨r, hscan⟩ :=
      Option.ne_none_iff_exists'.mp ((scanTable_ne_none_iff false size p).mpr hfits)
    rw [← scanTable_eq hscan]
    exact hall r hscan
  · rw [scanTable_eq hr]
    exact hin

/-- A pointer that is moved on. -/
theorem inside_advance {n : Nat} {p : Text} {h : Text → Parse α} :
    Inside (inText (advance n p) >>= h) ↔ n ≤ p.length ∧ Inside (h (p.drop n)) := by
  rw [inside_inText_bind, advance_ne_none_iff]
  refine and_congr_right fun hlen => ?_
  have hadv : advance n p = some (p.drop n) := by rw [advance, if_neg (Nat.not_lt.mpr hlen)]
  simp only [hadv, Option.some.injEq, forall_eq']

theorem inside_lnc (ijs : List (Fin 8 × Fin 9)) (p : Text) (next : Parse α) :
    Inside (ijs.foldlM (lncParse name) p >>= fun _ => next) ↔
      LncScans name ijs p ∧ Inside next := by
  induction ijs generalizing p with
  | nil => exact (and_iff_right trivial).symm
  | cons ij ijs ih =>
    rw [List.foldlM_cons, bind_assoc, lncParse, LncScans]
    cases strstr (lncLookupStr name ij.1 ij.2) p with
    | none => exact ih p
    | some q =>
      rw [bind_assoc]
      refine inside_scanTable.trans ?_
      rw [and_assoc]
      exact and_congr_right fun _ => ih _

theorem inside_required {size : Nat} {pat p : Text} {h : Text → Parse α} :
    Inside (requiredParse size p pat >>= h) ↔ ∀ q, strstr pat p = some q →
      TableFits false size (q.drop pat.length) ∧
        (1 < numbersIn false (q.drop pat.length) →
          Inside (h (behindBrace (q.drop pat.length)))) := by
  rw [requiredParse]
  cases strstr pat p with
  | none => exact iff_of_true inside_updateError fun q hq => by cases hq
  | some q =>
    rw [bind_assoc]
    refine inside_scanTable.trans ?_
    have hcount : ∀ (n : Nat) (r : Text),
        Inside ((if 1 < n then .ok r else .error .updateError : Parse Text) >>= h) ↔
          (1 < n → Inside (h r)) := by
      intro n r
      split
      · rename_i hn
        exact ⟨fun hin _ => hin, fun hin => hin hn⟩
      · rename_i hn
        exact iff_of_true inside_updateError fun h => absurd h hn
    simp only [Option.some.injEq, forall_eq']
    exact and_congr_right fun _ => hcount _ _

theorem inside_required_one (size : Nat) (pat p : Text) (next : Parse α) :
    Inside (requiredParse size p pat >>= fun _ => next) ↔
      RequiredScans size (Inside next) [pat] p :=
  inside_required

theorem inside_requireds (size : Nat) (pats : List Text) (p : Text) (next : Parse α) :
    Inside (pats.foldlM (requiredParse size) p >>= fun _ => next) ↔
      RequiredScans size (Inside next) pats p := by
  induction pats generalizing p with
  | nil => exact Iff.rfl
  | cons pat pats ih =>
    rw [List.foldlM_cons, bind_assoc, inside_required, RequiredScans]
    refine forall_congr' fun q => forall_congr' fun _ => and_congr_right fun _ =>
      forall_congr' fun _ => ih _

theorem inside_aeIndexes (is : List (Fin 4)) (p : Text) (h : Text → Parse α) :
    Inside (is.foldlM (aeIndexesParse name) p >>= h) ↔
      IndexScans name (fun q => Inside (h q)) is.length p := by
  induction is generalizing p with
  | nil => exact Iff.rfl
  | cons i is ih =>
    rw [List.foldlM_cons, bind_assoc, aeIndexesParse, List.length_cons, IndexScans]
    cases strstr (aegInfoLookupStr name) p with
    | none => exact iff_of_true inside_updateError fun q hq => by cases hq
    | some q =>
      simp only [Option.some.injEq, forall_eq']
      rw [bind_assoc, inside_advance, inside_inText_bind, nextNumbers_ne_none_iff]
      refine and_congr_right fun _ => ?_
      refine and_congr_right fun hnumbers => ?_
      simp only [(nextNumbers_eq 12 _).1 hnumbers, Option.some.injEq, forall_eq']
      exact ih _

theorem inside_fixInfo (text : Text) : Inside (fixInfoParse name text) ↔ FixScans name text := by
  rw [fixInfoParse, FixScans]
  cases strstr (fixInfoLookupStr name) text with
  | none => exact iff_of_true inside_updateError fun q hq => by cases hq
  | some q =>
    simp only [Option.some.injEq, forall_eq']
    rw [inside_aeIndexes, List.length_finRange]
    refine iff_of_eq (congrArg (fun next => IndexScans name next 4 q) (funext fun p => propext ?_))
    rw [inside_inText_bind, scanGrids_ne_none_iff]
    refine and_congr_right fun hgrids => ?_
    obtain ⟨r, hr⟩ :=
      Option.ne_none_iff_exists'.mp ((scanGrids_ne_none_iff 72 p).mpr hgrids)
    simp only [hr, Option.some.injEq, forall_eq']
    cases strstr (awbMapLookupStr name) q with
    | none => exact iff_of_true inside_updateError fun q hq => by cases hq
    | some r =>
      simp only [Option.some.injEq, forall_eq']
      rw [inside_inText_bind, scanAwbLen_ne_none_iff]
      exact and_iff_left fun _ _ => inside_ok _

theorem inside_awbMap (text : Text) (next : Parse α) :
    Inside (awbMapParse name text >>= fun _ => next) ↔ AwbScans name (Inside next) text := by
  rw [awbMapParse, AwbScans]
  cases strstr (awbMapLookupStr name) text with
  | none => exact iff_of_true inside_updateError fun q hq => by cases hq
  | some q =>
    simp only [Option.some.injEq, forall_eq']
    rw [bind_assoc, inside_advance]
    refine and_congr_right fun _ => ?_
    rw [bind_assoc, inside_inText_bind, scanTable_ne_none_iff]
    refine and_congr_right fun hfits => ?_
    obtain ⟨r, hr⟩ := Option.ne_none_iff_exists'.mp ((scanTable_ne_none_iff _ _ _).mpr hfits)
    simp only [hr, Option.some.injEq, forall_eq']
    exact Iff.rfl

/-- **The parse** stays in the text if the text is scannable. -/
theorem inside_paramParse (text : Text) :
    Inside (paramParse name text) ↔ Scannable name text := by
  rw [paramParse, Scannable, inside_inText_bind, ← blankComments_isSome_iff,
    Option.isSome_iff_ne_none]
  refine and_congr_right fun _ => forall_congr' fun t => forall_congr' fun _ => ?_
  rw [inside_lnc]
  refine and_congr_right fun _ => ?_
  rw [inside_requireds, inside_requireds, inside_required_one, inside_required_one, inside_awbMap,
    inside_fixInfo]

end Scannable

/-! ## The parser -/

/-- A file of which everything can be read. -/
def readableFile (text : Text) : FileSeen := ⟨true, 1, true, true, true, [], text⟩

/-- With enough memory, a load of a text that is left by the parse has no result. -/
theorem load_readableFile (b : BuiltIn) {name text : Text} {w : RawPara}
    (htime : w.status.updataFileTime = 0) (h : paramParse name text = .error .overrun) :
    w.ispRawParaUpdateFromFile b name (some (readableFile text)) = none := by
  have hload : ∀ s : RawPara, s.Plenty → ∃ s', load b name text s = .error .overrun s' := by
    intro s hs
    rcases (follows_load name b text).cases s with ⟨a, s', -, hr, -⟩ | ⟨e, s', hl, hr, -⟩ | ⟨hno, -⟩
    · cases h.symm.trans hr
    · cases h.symm.trans hr
      exact ⟨s', hl⟩
    · exact absurd hs hno
  obtain ⟨s', hs'⟩ := hload { w with
    status := { w.status with
      tuneInfoTableOrgAddr := w.tunePtr, fixInfoTableOrgAddr := w.fixPtr, updataFileTime := 1 }
    mallocs := [] } rfl
  unfold RawPara.ispRawParaUpdateFromFile RawPara.loadFile
  simp only [readableFile, htime, ne_eq, not_true_eq_false, false_and, if_false, if_true,
    Bool.true_eq_false, hs']

/-- **The parser is total** on the texts that are scannable, and on no others: whatever the sensor
has loaded before, whichever calls of `stat`, `malloc`, `ftell` and `fread` fail. -/
theorem para_parser_inside_iff (b : BuiltIn) (name text : Text) :
    (∀ (w : RawPara) (f : FileSeen), f.text = text →
      w.ispRawParaUpdateFromFile b name (some f) ≠ none) ↔ Scannable name text := by
  rw [← inside_paramParse]
  constructor
  · intro hall hoverrun
    exact hall (.init fun _ => b.fix) (readableFile text) rfl (load_readableFile b rfl hoverrun)
  · rintro hinside w f rfl hnone
    unfold RawPara.ispRawParaUpdateFromFile RawPara.loadFile at hnone
    simp only at hnone
    split at hnone
    · cases hnone
    split at hnone
    · cases hnone
    split at hnone
    · cases hnone
    split at hnone
    · cases hnone
    split at hnone
    · cases hnone
    split at hnone
    · cases hnone
    · cases hnone
    · rename_i heq
      have hne : Trap.overrun ≠ .updateError := by decide
      exact hinside ((follows_load name b f.text).error hne heq)

/-- The comment is not closed. -/
theorem para_parser_leaves_text : ∃ (w : RawPara) (f : FileSeen), f.text = ascii "/*" ∧
    w.ispRawParaUpdateFromFile sampleBuiltIn (ascii "x") (some f) = none :=
  ⟨sampleInit, readableFile (ascii "/*"), rfl, load_readableFile _ rfl (by decide)⟩

-- the sample is scannable
example : Scannable (ascii "x") sampleText := by
  apply (inside_paramParse sampleText).mp
  have hok : (match paramParse (ascii "x") sampleText with
      | .ok _ => true
      | .error _ => false) = true := by
    decide +kernel
  intro hoverrun
  rw [hoverrun] at hok
  cases hok

end SprdHal.Isp
