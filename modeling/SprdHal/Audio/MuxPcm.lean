import Mathlib.Algebra.Ring.Int.Defs
import Mathlib.Algebra.Ring.Nat
import Mathlib.Data.Int.Order.Basic
import Mathlib.Data.List.Basic
import SprdHal.Lib.Machine
import SprdHal.Lib.Returns

/-!
# Sound cards behind the multiplexer (`audio_mux_pcm.c`)

The voice processor is reached through three devices for each sound card: commands and their answers
go through the control device, samples through the playback and the capture device. A card is taken
by one `mux_pcm_open` for each direction, a bit of the card's `state`, and given back by
`mux_pcm_close`.

Each call is given what the devices answer to its system calls, as one list for the control device
and one for the playback or capture device. A call whose list ends waits.
-/

namespace SprdHal.Audio

open SprdHal.Lib

/-! ## Devices -/

/-- The outcome of one system call: the value returned, whether `errno` is `EAGAIN` or `EINTR`,
whether `select` has set the descriptor, and the bytes that `read` stores. -/
structure Outcome where
  ret : Int
  again : Bool
  isSet : Bool
  data : List UInt8

/-- Memory relative to the start of a buffer. -/
abbrev Memory := Int → UInt8

def Memory.store (m : Memory) (pos : Int) (data : List UInt8) : Memory :=
  fun k => if pos ≤ k then data.getD (k - pos).toNat (m k) else m k

/-- `unsigned int` of the four bytes at `pos`. -/
def Memory.word (m : Memory) (pos : Int) : Nat :=
  (m pos).toNat + 256 * ((m (pos + 1)).toNat + 256 * ((m (pos + 2)).toNat +
    256 * (m (pos + 3)).toNat))

/-- The loop of `mux_read`. What `read` returns is put into an unsigned number, so that an error
counts as -1 bytes read. -/
def muxReadLoop (bytesToRead : Nat) (mem : Memory) (pos : Int) (bytes : Nat) :
    List Outcome → Option (Int × Memory × List Outcome)
  | [] => if bytes = 0 then some (Int.bmod bytesToRead (2 ^ 32), mem, []) else none
  | sel :: o =>
    if bytes = 0 then
      some (Int.bmod bytesToRead (2 ^ 32), mem, sel :: o)
    else if sel.ret < 0 then
      some (Int.bmod (bytesToRead - bytes) (2 ^ 32), mem, o)
    else if sel.ret = 0 then
      some (-1, mem, o)
    else if sel.isSet = false then
      muxReadLoop bytesToRead mem pos bytes o
    else
      match o with
      | [] => none
      | rd :: o =>
        let bytesRead : Nat := Int.toNat (rd.ret % 2 ^ 32)
        let mem := mem.store pos rd.data
        if 0 < bytesRead then
          muxReadLoop bytesToRead mem (Int.bmod (pos + bytesRead) (2 ^ 32))
            ((bytes + 2 ^ 32 - bytesRead) % 2 ^ 32) o
        else if rd.again = false ∨ bytesRead = 0 then
          some (-1, mem, o)
        else
          muxReadLoop bytesToRead mem pos bytes o

/-- `mux_read` into a cleared buffer. -/
def muxRead (fd : Int) (bytes : Nat) (o : List Outcome) : Option (Int × Memory × List Outcome) :=
  if fd < 0 then some (0, fun _ => 0, o) else muxReadLoop bytes (fun _ => 0) 0 bytes o

/-- `mux_pipe_clear`. A `mux_read` that returns 0 without a system call is repeated for ever. -/
def muxPipeClear (fd : Int) (o : List Outcome) : Option (List Outcome) :=
  match muxRead fd 1024 o with
  | none => none
  | some (ret, _, rest) =>
    if ret ≠ 0 then some rest
    else if rest.length < o.length then muxPipeClear fd rest
    else none
termination_by o.length

/-! ## Cards and streams -/

def muxPcmIn : BitVec 32 := 0x1
def muxPcmOut : BitVec 32 := 0x2

/-- `PCM_IN` of tinyalsa. -/
def pcmIn : BitVec 32 := 0x10000000

def saudioCmdOpen : Nat := 0x1
def saudioCmdClose : Nat := 0x2
def saudioCmdStart : Nat := 0x4
def saudioCmdStop : Nat := 0x8
def saudioCmdReceive : Nat := 0x40

def audioPlayback : Nat := 0
def audioCapture : Nat := 1

def audioPlaybackBuffer : Int := 1024 * 3

/-- `struct mux_snd_card`; `lock` says whether the mutex is held. -/
structure MuxSndCard where
  ctlFd : Int
  state : BitVec 32
  lock : Bool
  ctlFile : Option String
  playbackFile : Option String
  captureFile : Option String
  cardId : Nat

/-- `struct mux_pcm`; `fd` and `flags` are those of `dummy_pcm`, and a card is known by its place in
`g_snd_card`. -/
structure MuxPcm where
  fd : Int
  flags : BitVec 32
  lock : Bool
  muxFd : Int
  streamType : Nat
  state : Nat
  bytesWritten : Int
  card : Option Nat

/-- `g_snd_card`. The table has three entries, but only two are filled in. -/
def gSndCard : List MuxSndCard :=
  [⟨0, 0, false, some "/dev/spimux24", some "/dev/spimux25", some "/dev/spimux26", 1⟩,
    ⟨0, 0, false, some "/dev/spimux27", some "/dev/spimux28", some "/dev/spimux29", 2⟩,
    ⟨0, 0, false, none, none, none, 0⟩]

/-- `audio_mux_ctrl_mutex`, the cards, and the streams returned by `mux_pcm_open` and not closed
yet. -/
structure World where
  mutex : Bool
  cards : List MuxSndCard
  pcms : List (Option MuxPcm)

/-- What the devices answer during one call. -/
structure Devices where
  ctlOpen : Int
  dataOpen : Int
  ctl : List Outcome
  data : List Outcome

/-- `open`; there is no file without a name. -/
def openFile (file : Option String) (ret : Int) : Int := if file.isNone then -1 else ret

/-- `saudio_wait_common_cmd` -/
def saudioWaitCommonCmd (muxFd : Int) (cmd subcmd : Nat) (o : List Outcome) :
    Option (Int × List Outcome) :=
  match muxRead muxFd 16 o with
  | none => none
  | some (bytesRead, common, rest) =>
    if bytesRead ≠ 16 then some (-1, rest)
    else if subcmd ≠ 0 then
      some (if common.word 0 = cmd ∧ common.word 4 = subcmd then 0 else -1, rest)
    else
      some (if common.word 0 = cmd then Int.bmod (common.word 8) (2 ^ 32) else -1, rest)

/-- `saudio_send_common_cmd` to the control device of a card: the result, the lock and the rest of
the answers. The lock stays held when the answer is cut short. -/
def saudioSendCommonCmd (card : MuxSndCard) (cmd : Nat) (ctl : List Outcome) :
    Except Stop (Int × Bool × List Outcome) :=
  if card.ctlFd < 0 then .ok (-1, card.lock, ctl)
  else if card.lock then .error .blocked
  else
    match ctl with
    | [] => .error .waiting
    | wr :: ctl =>
      if wr.ret < 0 then .ok (wr.ret, false, ctl)
      else
        match muxRead card.ctlFd 16 ctl with
        | none => .error .waiting
        | some (result, common, ctl) =>
          if result ≠ 16 then .ok (-1, true, ctl)
          else .ok (if common.word 0 = cmd <<< 16 % 2 ^ 32 then 0 else -1, false, ctl)

/-- The device of a stream. -/
def MuxSndCard.dataFile (c : MuxSndCard) (streamType : Nat) : Option String :=
  if streamType = audioPlayback then c.playbackFile else c.captureFile

def subCmd (flags : BitVec 32) : Nat :=
  if flags &&& pcmIn ≠ 0 then audioCapture else audioPlayback

def muxFlags (flags : BitVec 32) : BitVec 32 := if flags &&& pcmIn ≠ 0 then muxPcmIn else muxPcmOut

namespace World

/-- The last entry of `g_snd_card` with the given number. -/
def cardIndex (w : World) (cardId : Nat) : Option Nat :=
  w.cards.zipIdx.foldl (fun card c => if c.1.cardId = cardId then some c.2 else card) none

def setCard (w : World) (i : Nat) (card : MuxSndCard) : World :=
  { w with cards := w.cards.set i card }

/-- A card behind a pointer. -/
def card (w : World) (p : Option Nat) : Except Stop (Nat × MuxSndCard) :=
  match p with
  | none => .error .crashed
  | some i =>
    match w.cards[i]? with
    | none => .error .crashed
    | some c => .ok (i, c)

/-- `saudio_send_common_cmd` -/
def send (w : World) (pcm : MuxPcm) (cmd : Nat) (ctl : List Outcome) :
    Except Stop (Int × World × List Outcome) := do
  let (i, card) ← w.card pcm.card
  let (ret, lock, ctl) ← saudioSendCommonCmd card cmd ctl
  return (ret, w.setCard i { card with lock := lock }, ctl)

/-- `mux_snd_card_get`. The mutex stays held when there is no such card. -/
def muxSndCardGet (w : World) (cardId : Nat) (flags : BitVec 32) (ctlOpen : Int) :
    Except Stop (Option Nat × World) :=
  if w.mutex then .error .blocked
  else
    match w.cardIndex cardId with
    | none => .ok (none, { w with mutex := true })
    | some i =>
      match w.cards[i]? with
      | none => .error .crashed
      | some card =>
        let card' := if card.ctlFd ≤ 0 then
            { card with
              ctlFd := openFile card.ctlFile ctlOpen
              lock := if openFile card.ctlFile ctlOpen ≤ 0 then card.lock else false }
          else card
        if card'.ctlFd ≤ 0 then .ok (none, w.setCard i card')
        else if card'.state &&& muxFlags flags ≠ 0 then .ok (none, w.setCard i card')
        else .ok (some i, w.setCard i { card' with state := card'.state ||| muxFlags flags })

/-- `mux_snd_card_release` -/
def muxSndCardRelease (w : World) (p : Option Nat) (flags : BitVec 32) : Except Stop World :=
  match p with
  | none => .ok w
  | some i => do
    if w.mutex then .error .blocked
    let (i, card) ← w.card (some i)
    return w.setCard i { card with state := card.state &&& ~~~(muxFlags flags) }

end World

/-- `pthread_mutex_lock` of a stream's lock. -/
def MuxPcm.lockPcm (pcm : MuxPcm) : Except Stop MuxPcm :=
  if pcm.lock then .error .blocked else .ok { pcm with lock := true }

def MuxPcm.unlockPcm (pcm : MuxPcm) : MuxPcm := { pcm with lock := false }

/-! ## The calls -/

namespace World

/-- `mux_pcm_open`. On an error the flags of the stream stay 0. -/
def muxPcmOpen (w : World) (cardId : Nat) (flags : BitVec 32) (dev : Devices) :
    Except Stop (MuxPcm × World) := do
  let (card, w) ← w.muxSndCardGet cardId flags dev.ctlOpen
  match card with
  | none => return (⟨-1, 0, false, 0, 0, 0, 0, none⟩, w)
  | some i =>
    let (_, c) ← w.card (some i)
    let pcm : MuxPcm := ⟨0, 0, false, openFile (c.dataFile (subCmd flags)) dev.dataOpen,
      subCmd flags, 0, 0, some i⟩
    if pcm.muxFd ≤ 0 then
      return ({ pcm with fd := -1 }, w)
    let _ ← await (muxPipeClear pcm.muxFd dev.data)
    let (ret, w, _) ← w.send pcm saudioCmdOpen dev.ctl
    if ret ≠ 0 then
      return ({ pcm with fd := -1 }, w)
    return ({ pcm with fd := pcm.muxFd, flags := flags }, w)

/-- `START` on the first use of a stream. -/
def start (w : World) (pcm : MuxPcm) (ctl : List Outcome) :
    Except Stop (Int × MuxPcm × World) := do
  let pcm ← pcm.lockPcm
  if pcm.state = 0 then
    let (ret, w, _) ← w.send { pcm with state := 1 } saudioCmdStart ctl
    return (ret, { pcm with state := 1 }, w)
  else
    return (0, pcm, w)

end World

/-- The loop of `mux_write_wait_response`: the bytes that are still waited for. -/
def muxWriteWaitResponse (muxFd : Int) (streamType : Nat) (bytesToWait : Nat) (ret : Int)
    (o : List Outcome) : Option (Int × Nat × List Outcome) :=
  if bytesToWait = 0 then some (if ret < 0 then ret else 0, 0, o)
  else
    match saudioWaitCommonCmd muxFd (saudioCmdReceive <<< 16) streamType o with
    | none => none
    | some (ret, rest) =>
      if ret < 0 then some (ret, bytesToWait, rest)
      else if rest.length < o.length then
        if ret ≤ bytesToWait then
          muxWriteWaitResponse muxFd streamType (bytesToWait - ret.toNat) ret rest
        else
          muxWriteWaitResponse muxFd streamType bytesToWait (-1) rest
      else none
termination_by o.length

/-- The loop of `mux_pcm_write`: the result, what is left and `bytes_written`. -/
def muxPcmWriteLoop (muxFd : Int) (streamType : Nat) (ret left bytesWritten : Int) :
    List Outcome → Option (Int × Int × Int)
  | [] => if left = 0 then some (ret, left, bytesWritten) else none
  | wr :: o =>
    if left = 0 then some (ret, left, bytesWritten)
    else if 0 < wr.ret then
      if audioPlaybackBuffer ≤ bytesWritten + wr.ret then
        match muxWriteWaitResponse muxFd streamType (bytesWritten + wr.ret).toNat 0 o with
        | none => none
        | some (ret, bytesToWait, rest) =>
          if ret ≠ 0 then some (ret, left - wr.ret, bytesToWait)
          else if rest.length < (wr :: o).length then
            muxPcmWriteLoop muxFd streamType ret (left - wr.ret) bytesToWait rest
          else none
      else muxPcmWriteLoop muxFd streamType ret (left - wr.ret) (bytesWritten + wr.ret) o
    else if wr.again = false ∨ ret = 0 then some (ret, left, bytesWritten)
    else muxPcmWriteLoop muxFd streamType ret left bytesWritten o
termination_by o => o.length
decreasing_by
  · assumption
  · exact Nat.lt_succ_self _
  · exact Nat.lt_succ_self _

/-- The loop of `mux_pcm_read`: what is left. -/
def muxPcmReadLoop (muxFd : Int) (bytes : Int) (o : List Outcome) : Option Int :=
  if bytes = 0 then some 0
  else
    match muxRead muxFd (bytes % 2 ^ 32).toNat o with
    | none => none
    | some (bytesRead, _, rest) =>
      if bytesRead < 0 then some bytes
      else if rest.length < o.length then muxPcmReadLoop muxFd (bytes - bytesRead) rest
      else none
termination_by o.length

namespace World

/-- `mux_pcm_write` -/
def muxPcmWrite (w : World) (pcm : MuxPcm) (count : Nat) (dev : Devices) :
    Except Stop (Int × MuxPcm × World) := do
  if 0 < pcm.muxFd then
    let (ret, pcm', w) ← w.start pcm dev.ctl
    if ret ≠ 0 then
      return (0, pcm'.unlockPcm, w)
    let data ← await (if pcm.state = 0 then muxPipeClear pcm.muxFd dev.data else some dev.data)
    let (ret, left, bytesWritten) ← await (muxPcmWriteLoop pcm.muxFd pcm.streamType ret
      (Int.bmod count (2 ^ 32)) pcm.bytesWritten data)
    return (if ret < 0 then -1 else count - left,
      { pcm'.unlockPcm with bytesWritten := bytesWritten }, w)
  else
    return (0, pcm, w)

/-- `mux_pcm_read` -/
def muxPcmRead (w : World) (pcm : MuxPcm) (count : Nat) (dev : Devices) :
    Except Stop (Int × MuxPcm × World) := do
  let bytes : Int := Int.bmod count (2 ^ 32)
  if 0 < pcm.muxFd then
    let (ret, pcm', w) ← w.start pcm dev.ctl
    if ret ≠ 0 then
      return (-1, pcm'.unlockPcm, w)
    let bytes ← await (muxPcmReadLoop pcm.muxFd bytes dev.data)
    return (if bytes = 0 then 0 else -1, pcm'.unlockPcm, w)
  else
    return (if bytes = 0 then 0 else -1, pcm, w)

/-- `STOP` of a stream that was used. -/
def stop (w : World) (pcm : MuxPcm) (ctl : List Outcome) :
    Except Stop (Int × World × List Outcome) :=
  if pcm.state = 1 then w.send pcm saudioCmdStop ctl else .ok (0, w, ctl)

/-- `mux_pcm_close`. The card is not released when a command fails. -/
def muxPcmClose (w : World) (pcm : MuxPcm) (dev : Devices) : Except Stop World := do
  if 0 < pcm.muxFd then
    let pcm ← pcm.lockPcm
    let (ret, w, ctl) ← w.stop pcm dev.ctl
    if ret ≠ 0 then
      return w
    let (ret, w, _) ← w.send pcm saudioCmdClose ctl
    if ret ≠ 0 then
      return w
    w.muxSndCardRelease pcm.card pcm.flags
  else
    w.muxSndCardRelease pcm.card pcm.flags

end World

/-- A call. A stream is known by the number of the call of `mux_pcm_open` that returned it. -/
inductive MuxCall
  | open (cardId : Nat) (flags : BitVec 32) (dev : Devices)
  | write (h : Nat) (count : Nat) (dev : Devices)
  | read (h : Nat) (count : Nat) (dev : Devices)
  | close (h : Nat) (dev : Devices)

/-- One call. Streams that do not exist or are closed are not passed to it. -/
def World.call (w : World) : MuxCall → Except Stop World
  | .open cardId flags dev => do
    let (pcm, w) ← w.muxPcmOpen cardId flags dev
    return { w with pcms := w.pcms ++ [some pcm] }
  | .write h count dev =>
    match w.pcms[h]? with
    | some (some pcm) => do
      let (_, pcm, w) ← w.muxPcmWrite pcm count dev
      return { w with pcms := w.pcms.set h (some pcm) }
    | _ => .ok w
  | .read h count dev =>
    match w.pcms[h]? with
    | some (some pcm) => do
      let (_, pcm, w) ← w.muxPcmRead pcm count dev
      return { w with pcms := w.pcms.set h (some pcm) }
    | _ => .ok w
  | .close h dev =>
    match w.pcms[h]? with
    | some (some pcm) => do
      let w ← w.muxPcmClose pcm dev
      return { w with pcms := w.pcms.set h none }
    | _ => .ok w

/-- A sequence of calls. After a call that does not return there is no next one. -/
def muxCalls : Machine (Except Stop World) MuxCall Unit where
  step s c := (s >>= (·.call c), [])

def muxInit : World := ⟨false, gSndCard, []⟩

end SprdHal.Audio
