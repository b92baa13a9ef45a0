import SprdHal.Lib.Machine
import SprdHal.Ril.Refnotify

/-!
# The reads of refnotify (`refnotify.c`)

Where the two reads of the main loop put their bytes, for any length field and for all results of
`read`. A header is read into the first fifteen bytes of `buf` at most, but the length field, which
the modem chooses, is compared neither with `sizeof(buf)` nor with what the handler of the command
reads behind the header, and a `read` that returns 0 is made again.
-/

namespace SprdHal.Ril

open SprdHal.Lib

/-- `REF_PSFREQ_CMD` and so on, in the order of the source -/
inductive RefCmd
  | psfreq | settime | setdate | gettime | getdate | autodloader | sleep | wake | reset
  deriving DecidableEq, Repr

def RefCmd.ofCode (cmdType : UInt32) : Option RefCmd :=
  [RefCmd.psfreq, .settime, .setdate, .gettime, .getdate, .autodloader, .sleep, .wake,
    .reset][cmdType.toNat]?

/-- `pcmd->cmd_type` -/
def cmdType (buf : List UInt8) : Option RefCmd := RefCmd.ofCode (leWord buf 0)

/-- The size of what the handler of a command reads behind the header: `sizeof(struct ref_time)` and
`sizeof(struct ref_date)`. -/
def payloadSize : Option RefCmd → Nat
  | some .settime => 3
  | some .setdate => 6
  | _ => 0

/-- What `read` returns: -1 with `EINTR` or with another error, or a number of bytes. -/
inductive ReadResult
  | eintr
  | error
  | data (bs : List UInt8)
  deriving DecidableEq

/-- A read of the main loop, made with `numRead` bytes in `buf`. -/
inductive ReadCall
  | header (numRead : Nat)
  | content (numRead : Nat) (length : UInt32)
  deriving DecidableEq

namespace ReadCall

/-- The read puts its bytes at `pbuf + numRead`. -/
def numRead : ReadCall → Nat
  | .header n => n
  | .content n _ => n

/-- The number of bytes asked for. -/
def size : ReadCall → Nat
  | .header _ => headerSize
  | .content n length => (length - UInt32.ofNat n).toNat

end ReadCall

/-- The next read of the loop. -/
def Refnotify.call (s : Refnotify) : ReadCall :=
  if s.header then .header s.got.length else .content s.got.length (leWord s.got 4)

/-- What the main loop does: a read, and the call of `RefNotify_DoCmd` with the bytes received. -/
inductive MainAct
  | read (call : ReadCall)
  | doCmd (received : Nat) (buf : List UInt8)
  deriving DecidableEq

/-- The main loop; `none` is after its `exit`. -/
def refnotifyMain : Machine (Option Refnotify) ReadResult MainAct where
  step
    | none, _ => (none, [])
    | some s, .eintr => (some s, [.read s.call])
    | some _, .error => (none, [])
    | some s, .data bs =>
      (some (s.step (.data bs)).1,
        (s.step (.data bs)).2.map (.doCmd (s.got ++ bs).length) ++
          [.read (s.step (.data bs)).1.call])

/-- `read` returns at most what it was asked for. -/
def AtMost (s : Option Refnotify) : ReadResult → Prop
  | .data bs => ∃ loop, s = some loop ∧ bs.length ≤ loop.call.size
  | _ => s.isSome

/-! ## What the loop is meant to keep -/

/-- All that the loop does while the reads return `results`. -/
def mainLog (results : List ReadResult) : List MainAct :=
  .read Refnotify.init.call :: (refnotifyMain.run (some .init) results).2

/-- The reads stay in `buf`, no subtraction wraps, handlers get what they read, and the end of the
stream does not make the loop spin. -/
structure ReceivesSafely (results : List ReadResult) : Prop where
  inside : ∀ call, .read call ∈ mainLog results → call.numRead + call.size ≤ bufSize
  noWrap : ∀ n length, .read (.content n length) ∈ mainLog results → n ≤ length.toNat
  payload : ∀ received buf, .doCmd received buf ∈ mainLog results →
    headerSize + payloadSize (cmdType buf) ≤ received
  noSpin : ∀ pre, pre ++ [.data []] <+: results →
    ∃ n, (refnotifyMain.run (some .init) (pre ++ List.replicate n (.data []))).1 ≠
      (refnotifyMain.run (some .init) pre).1

/-- A header that has been read has a length of at most `sizeof(buf)`, and a message that has been
read has the payload of its command. -/
def WellFormed : Option Refnotify → ReadResult → Prop
  | some s, .data bs =>
    headerSize ≤ (s.got ++ bs).length →
      cmdLength (s.got ++ bs) ≤ bufSize ∧
        (cmdLength (s.got ++ bs) ≤ (s.got ++ bs).length →
          headerSize + payloadSize (cmdType (s.got ++ bs)) ≤ (s.got ++ bs).length)
  | _, _ => True

instance : ∀ s r, Decidable (WellFormed s r)
  | none, .eintr | none, .error | none, .data _ | some _, .eintr | some _, .error =>
    inferInstanceAs (Decidable True)
  | some s, .data bs => inferInstanceAs (Decidable (headerSize ≤ (s.got ++ bs).length →
      cmdLength (s.got ++ bs) ≤ bufSize ∧
        (cmdLength (s.got ++ bs) ≤ (s.got ++ bs).length →
          headerSize + payloadSize (cmdType (s.got ++ bs)) ≤ (s.got ++ bs).length)))

/-! ## One read -/

section Step

/-- At `readheader` the header is incomplete, at `readcontent` a message that fits. -/
structure Receiving (s : Refnotify) : Prop where
  sound : s.smashed = false
  header : s.header = true → s.got.length < headerSize
  content : s.header = false →
    headerSize ≤ s.got.length ∧ s.got.length < cmdLength s.got ∧ cmdLength s.got ≤ bufSize

/-- What the loop does is as it should be. -/
def MainAct.Safe : MainAct → Prop
  | .read call => call.numRead + call.size ≤ bufSize ∧
      ∀ n length, call = .content n length → n ≤ length.toNat
  | .doCmd received buf => headerSize + payloadSize (cmdType buf) ≤ received

theorem content_size {n : Nat} {length : UInt32} (h : n ≤ length.toNat) :
    (ReadCall.content n length).size = length.toNat - n := by
  have hlt := length.toNat_lt
  have hn : (UInt32.ofNat n).toNat = n :=
    UInt32.toNat_ofNat_of_lt' (Nat.lt_of_le_of_lt h hlt)
  change (length - UInt32.ofNat n).toNat = length.toNat - n
  rw [UInt32.toNat_sub_of_le _ _ (by rw [UInt32.le_iff_toNat_le, hn]; exact h), hn]

theorem Receiving.call_safe {s : Refnotify} (h : Receiving s) : MainAct.Safe (.read s.call) := by
  unfold Refnotify.call
  cases hh : s.header with
  | true =>
    have := h.header hh
    rw [if_pos rfl]
    refine ⟨?_, nofun⟩
    simp only [ReadCall.numRead, ReadCall.size]
    unfold headerSize bufSize at *
    omega
  | false =>
    obtain ⟨-, hlt, hle⟩ := h.content hh
    have hle' : s.got.length ≤ (leWord s.got 4).toNat := Nat.le_of_lt hlt
    rw [if_neg Bool.false_ne_true]
    refine ⟨?_, ?_⟩
    · rw [content_size hle', ReadCall.numRead]
      change cmdLength s.got ≤ bufSize at hle
      unfold cmdLength at hle hlt
      omega
    · rintro n length heq
      obtain ⟨rfl, rfl⟩ := ReadCall.content.inj heq
      exact hle'

/-- A complete header whose length field is too large makes the next read leave `buf`. -/
theorem content_unsafe {got : List UInt8} (hlt : got.length < cmdLength got)
    (hbig : bufSize < cmdLength got) : ¬MainAct.Safe (.read (.content got.length (leWord got 4))) := by
  rintro ⟨hin, -⟩
  rw [content_size (Nat.le_of_lt hlt), ReadCall.numRead] at hin
  unfold cmdLength at hlt hbig
  omega

/-- The command is in the part of the buffer that was received. -/
theorem cmdType_buf {got : List UInt8} (h : headerSize ≤ got.length) :
    cmdType (Refnotify.buf got) = cmdType got := by
  unfold cmdType Refnotify.buf
  rw [leWord_append _ (Nat.le_trans (by decide) h)]

variable {s : Refnotify} {bs : List UInt8}

theorem received_le_bufSize (h : Receiving s) (hle : bs.length ≤ s.call.size) :
    (s.got ++ bs).length ≤ bufSize := by
  have := h.call_safe.1
  have hn : s.call.numRead = s.got.length := by
    unfold Refnotify.call
    split <;> rfl
  rw [List.length_append]
  omega

/-- What one read of data leads to, by how much of the message has been received. -/
theorem step_data_cases (h : Receiving s) (hle : bs.length ≤ s.call.size) :
    (s.got ++ bs).length < headerSize ∧ s.step (.data bs) = (⟨true, s.got ++ bs, false⟩, []) ∨
      headerSize ≤ (s.got ++ bs).length ∧ (s.got ++ bs).length < cmdLength (s.got ++ bs) ∧
        s.step (.data bs) = (⟨false, s.got ++ bs, false⟩, []) ∨
      headerSize ≤ (s.got ++ bs).length ∧ cmdLength (s.got ++ bs) ≤ (s.got ++ bs).length ∧
        s.step (.data bs) = (.init, [Refnotify.buf (s.got ++ bs)]) := by
  have hbuf : ¬bufSize < (s.got ++ bs).length := Nat.not_lt.mpr (received_le_bufSize h hle)
  have hhead : s.header = false → headerSize ≤ (s.got ++ bs).length := by
    intro hh
    have := (h.content hh).1
    rw [List.length_append]
    omega
  unfold Refnotify.step
  simp only [h.sound, Bool.false_eq_true, false_or, if_neg hbuf]
  by_cases hshort : (s.got ++ bs).length < headerSize
  · have hh : s.header = true := by
      by_contra hh
      exact absurd (hhead (by simpa using hh)) (Nat.not_le.mpr hshort)
    exact .inl ⟨hshort, by rw [if_pos ⟨hh, hshort⟩, hh]⟩
  · rw [if_neg fun hc => hshort hc.2]
    by_cases hpart : (s.got ++ bs).length < cmdLength (s.got ++ bs)
    · exact .inr (.inl ⟨Nat.not_lt.mp hshort, hpart, if_pos hpart⟩)
    · exact .inr (.inr ⟨Nat.not_lt.mp hshort, Nat.not_lt.mp hpart, if_neg hpart⟩)

theorem receiving_init : Receiving .init := ⟨rfl, fun _ => by decide, nofun⟩

/-- What a read of data makes the loop do is safe exactly if the message is well formed so far. -/
theorem safe_data_iff (h : Receiving s) (hle : bs.length ≤ s.call.size) :
    (∀ act ∈ (refnotifyMain.step (some s) (.data bs)).2, act.Safe) ↔
      WellFormed (some s) (.data bs) := by
  simp only [refnotifyMain, List.forall_mem_append, List.forall_mem_map, List.forall_mem_singleton,
    WellFormed]
  obtain ⟨hshort, hstep⟩ | ⟨hhead, hpart, hstep⟩ | ⟨hhead, hdone, hstep⟩ := step_data_cases h hle
  · rw [hstep]
    constructor
    · exact fun _ hc => absurd hc (Nat.not_le.mpr hshort)
    · intro _
      refine ⟨nofun, ?_⟩
      exact Receiving.call_safe (s := ⟨true, s.got ++ bs, false⟩) ⟨rfl, fun _ => hshort, nofun⟩
  · rw [hstep]
    constructor
    · rintro ⟨-, hsafe⟩ -
      refine ⟨?_, fun hc => absurd hc (Nat.not_le.mpr hpart)⟩
      by_contra hbig
      exact content_unsafe hpart (Nat.not_le.mp hbig) hsafe
    · intro hwf
      refine ⟨nofun, ?_⟩
      exact Receiving.call_safe (s := ⟨false, s.got ++ bs, false⟩)
        ⟨rfl, nofun, fun _ => ⟨hhead, hpart, (hwf hhead).1⟩⟩
  · rw [hstep, List.forall_mem_singleton]
    have hcmd := cmdType_buf hhead
    have hle' := received_le_bufSize h hle
    constructor
    · rintro ⟨hpay, -⟩ -
      refine ⟨Nat.le_trans hdone hle', fun _ => ?_⟩
      rw [← hcmd]
      exact hpay
    · intro hwf
      refine ⟨?_, receiving_init.call_safe⟩
      have hpay := (hwf hhead).2 hdone
      rw [← hcmd] at hpay
      exact hpay

theorem receiving_data (h : Receiving s) (hle : bs.length ≤ s.call.size)
    (hwf : WellFormed (some s) (.data bs)) : Receiving (s.step (.data bs)).1 := by
  obtain ⟨hshort, hstep⟩ | ⟨hhead, hpart, hstep⟩ | ⟨-, -, hstep⟩ := step_data_cases h hle
  · rw [hstep]
    exact ⟨rfl, fun _ => hshort, nofun⟩
  · rw [hstep]
    exact ⟨rfl, nofun, fun _ => ⟨hhead, hpart, (hwf hhead).1⟩⟩
  · rw [hstep]
    exact receiving_init

/-- A result of 0 leaves the loop where it was. -/
theorem step_end_of_stream (h : Receiving s) : (s.step (.data [])).1 = s := by
  rcases s with ⟨header, got, smashed⟩
  obtain rfl : smashed = false := h.sound
  obtain ⟨hshort, hstep⟩ | ⟨hhead, -, hstep⟩ | ⟨hhead, hdone, -⟩ :=
    @step_data_cases ⟨header, got, false⟩ [] h (Nat.zero_le _)
  · rw [List.append_nil] at hshort hstep
    rw [hstep]
    cases header with
    | true => rfl
    | false => exact absurd (h.content rfl).1 (Nat.not_le.mpr hshort)
  · rw [List.append_nil] at hhead hstep
    rw [hstep]
    cases header with
    | true => exact absurd (h.header rfl) (Nat.not_lt.mpr hhead)
    | false => rfl
  · rw [List.append_nil] at hhead hdone
    cases header with
    | true => exact absurd (h.header rfl) (Nat.not_lt.mpr hhead)
    | false => exact absurd (h.content rfl).2.1 (Nat.not_lt.mpr hdone)

end Step

/-! ## Runs -/

/-- A loop that has not ended is receiving a message. -/
def Sound (s : Option Refnotify) : Prop := ∀ loop, s = some loop → Receiving loop

theorem safe_iff_wellFormed (s : Option Refnotify) (r : ReadResult) (hs : Sound s)
    (hr : AtMost s r) :
    (∀ act ∈ (refnotifyMain.step s r).2, act.Safe) ↔ WellFormed s r := by
  cases r with
  | data bs =>
    obtain ⟨loop, rfl, hle⟩ := hr
    exact safe_data_iff (hs loop rfl) hle
  | eintr =>
    obtain ⟨loop, rfl⟩ := Option.isSome_iff_exists.mp hr
    refine ⟨fun _ => trivial, fun _ => ?_⟩
    exact List.forall_mem_singleton.mpr (hs loop rfl).call_safe
  | error =>
    obtain ⟨loop, rfl⟩ := Option.isSome_iff_exists.mp hr
    exact ⟨fun _ => trivial, fun _ => nofun⟩

theorem sound_step (s : Option Refnotify) (r : ReadResult) (hs : Sound s) (hr : AtMost s r)
    (hwf : WellFormed s r) : Sound (refnotifyMain.step s r).1 := by
  cases r with
  | data bs =>
    obtain ⟨loop, rfl, hle⟩ := hr
    intro loop' heq
    rw [← Option.some.inj heq]
    exact receiving_data (hs loop rfl) hle hwf
  | eintr =>
    obtain ⟨loop, rfl⟩ := Option.isSome_iff_exists.mp hr
    exact hs
  | error =>
    obtain ⟨loop, rfl⟩ := Option.isSome_iff_exists.mp hr
    exact nofun

theorem sound_init : Sound (some .init) := by
  intro loop heq
  rw [← Option.some.inj heq]
  exact receiving_init

theorem sound_run {results : List ReadResult}
    (hlegal : refnotifyMain.Admits AtMost (some .init) results)
    (hwf : refnotifyMain.Admits WellFormed (some .init) results) :
    Sound (refnotifyMain.run (some .init) results).1 := by
  have hstep : ∀ (s : Option Refnotify) (log : List MainAct) (r : ReadResult), Sound s →
      AtMost s r ∧ WellFormed s r → Sound (refnotifyMain.step s r).1 :=
    fun s _ r hs hr => sound_step s r hs hr.1 hr.2
  exact refnotifyMain.run_induction (P := fun s _ => Sound s) hstep results _ [] sound_init
    (hlegal.and hwf)

theorem replicate_end_of_stream {s : Refnotify} (h : Receiving s) (n : Nat) :
    (refnotifyMain.run (some s) (List.replicate n (.data []))).1 = some s := by
  induction n with
  | zero => rfl
  | succ n ih =>
    have hstep : (refnotifyMain.step (some s) (.data [])).1 = some s :=
      congrArg some (step_end_of_stream h)
    rw [List.replicate_succ, Machine.run_cons, hstep]
    exact ih

/-- **Safe reception.** Over all results of `read`, the loop stays in its buffer, hands complete
payloads to the handlers and does not spin exactly if no read returns 0 and every header and every
message is well formed. -/
theorem receivesSafely_iff (results : List ReadResult)
    (hlegal : refnotifyMain.Admits AtMost (some .init) results) :
    ReceivesSafely results ↔
      .data [] ∉ results ∧ refnotifyMain.Admits WellFormed (some .init) results := by
  have hsafe := refnotifyMain.outputs_safe_iff_of_legal safe_iff_wellFormed sound_step results
    (some .init) sound_init hlegal
  have hlog : (∀ act ∈ mainLog results, act.Safe) ↔
      refnotifyMain.Admits WellFormed (some .init) results := by
    rw [← hsafe, mainLog, List.forall_mem_cons]
    exact and_iff_right receiving_init.call_safe
  constructor
  · intro h
    have hwf : refnotifyMain.Admits WellFormed (some .init) results := by
      rw [← hlog]
      rintro (call | ⟨received, buf⟩) hmem
      · exact ⟨h.inside call hmem, fun n length heq => h.noWrap n length (heq ▸ hmem)⟩
      · exact h.payload received buf hmem
    refine ⟨fun hmem => ?_, hwf⟩
    obtain ⟨pre, post, rfl⟩ := List.append_of_mem hmem
    obtain ⟨n, hn⟩ := h.noSpin pre ⟨post, by simp⟩
    obtain ⟨hpre, ⟨loop, hloop, -⟩, -⟩ := (refnotifyMain.admits_append _ _ _).mp hlegal
    have hsound := sound_run hpre ((refnotifyMain.admits_append _ _ _).mp hwf).1
    rw [Machine.run_append, hloop] at hn
    exact hn (replicate_end_of_stream (hsound loop hloop) n)
  · rintro ⟨hzero, hwf⟩
    have hall := hlog.mpr hwf
    refine ⟨fun call hmem => (hall _ hmem).1, fun n length hmem => (hall _ hmem).2 n length rfl,
      fun received buf hmem => hall _ hmem, fun pre hpre => ?_⟩
    exact absurd (hpre.subset (List.mem_append_right _ (List.mem_singleton_self _))) hzero

/-- A time of 1:02:03 in two reads, and a reset. -/
theorem receivesSafely_iff_settime :
    ReceivesSafely [.data [1, 0, 0, 0, 11, 0, 0, 0], .eintr, .data [3, 2, 1],
        .data [8, 0, 0, 0, 8, 0, 0, 0]] ↔
      .data [] ∉ [ReadResult.data [1, 0, 0, 0, 11, 0, 0, 0], .eintr, .data [3, 2, 1],
        .data [8, 0, 0, 0, 8, 0, 0, 0]] ∧
      refnotifyMain.Admits WellFormed (some .init) [.data [1, 0, 0, 0, 11, 0, 0, 0], .eintr,
        .data [3, 2, 1], .data [8, 0, 0, 0, 8, 0, 0, 0]] :=
  receivesSafely_iff _ ⟨⟨_, rfl, by decide⟩, rfl, ⟨_, rfl, by decide⟩, ⟨_, rfl, by decide⟩, trivial⟩

/-- A length of 129 lets the modem write behind `buf`, a time without its three bytes is set from
the cleared buffer, and a closed device is read for ever. -/
theorem not_receivesSafely :
    ¬ReceivesSafely [.data [0, 0, 0, 0, 129, 0, 0, 0]] ∧
    ¬ReceivesSafely [.data [1, 0, 0, 0, 8, 0, 0, 0]] ∧
    ¬ReceivesSafely [.data []] := by
  refine ⟨fun h => ?_, fun h => ?_, fun h => ?_⟩
  · have hin := h.inside (.content 8 129) (by decide)
    exact absurd hin (by decide)
  · have hpay := h.payload 8 (Refnotify.buf [1, 0, 0, 0, 8, 0, 0, 0]) (by decide)
    exact absurd hpay (by decide)
  · obtain ⟨n, hn⟩ := h.noSpin [] (List.prefix_refl _)
    exact hn (replicate_end_of_stream receiving_init n)

end SprdHal.Ril
