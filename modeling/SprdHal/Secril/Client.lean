import Mathlib.Data.BitVec
import Mathlib.Data.List.FinRange
import SprdHal.Lib.Bytes
import SprdHal.Lib.Machine

/-!
# The secril client (`secril-client.cpp`)

A request takes a token, a single bit of `token_pool`, and a record of the token and the request id
in `history`; the response carries the token, and the request id of its record selects the handler
that is called. `GetMute` asks for its handler to be removed after the answer, by a flag of the
client.

A response is a parcel, here the bytes that follow the response type. What a call does outside of
the client, a request written to the socket or a handler that is called, is an event.
-/

namespace SprdHal.Secril

open SprdHal.Lib

abbrev Word := BitVec 32

/-- `TOKEN_POOL_SIZE` -/
abbrev Slot := Fin 32

/-- `REQ_POOL_SIZE` -/
abbrev HandlerSlot := Fin 32

/-- `REQ_GET_CALL_MUTE` -/
def reqGetCallMute : Word := 106

/-- `RIL_CLIENT_ERR_*` -/
inductive RilClientErr
  | success | again | inval | io | resource | unknown
  deriving DecidableEq, Repr

structure ReqHistory where
  token : Word
  id : Word
  deriving DecidableEq

/-- A handler is NULL in an empty slot. -/
structure ReqRespHandler (H : Type) where
  id : Word
  handler : Option H
  deriving DecidableEq

/-- `RilClientPrv`, less the socket, its reader and the handlers of unsolicited responses. -/
structure RilClientPrv (H : Type) where
  tokenPool : Word
  history : Slot → ReqHistory
  reqHandlers : HandlerSlot → ReqRespHandler H
  errCb : Bool
  bDelHandler : Bool

/-- What the outside sees. -/
inductive Event (H : Type)
  | sent (token id : Word)
  | handler (h : H) (data : Option (List UInt8)) (len : Word)
  | error (err : Word)
  deriving DecidableEq

/-- Whether the header and the body of a request can be written. -/
structure Writes where
  header : Bool
  body : Bool
  deriving DecidableEq

/-! ## Tokens -/

/-- The token of bit `i`. -/
def bit (i : Nat) : Word := BitVec.twoPow 32 i

/-- `AllocateToken`: the pool and the token, 0 when there is none. -/
def allocateToken (pool : Word) : Word × Word :=
  if pool = BitVec.allOnes 32 then (pool, 0)
  else
    match (List.finRange 32).find? fun i : Fin 32 => pool &&& bit i = 0 with
    | some i => (pool ||| bit i, bit i)
    | none => (pool, 0)

/-- `FreeToken` -/
def freeToken (pool token : Word) : Word := pool &&& ~~~token

/-- `IsValidToken` -/
def isValidToken (pool token : Word) : Bool := token ≠ 0 ∧ pool &&& token = token

/-- The first record that carries a token. -/
def findToken (history : Slot → ReqHistory) (token : Word) : Option Slot :=
  (List.finRange 32).find? fun k => (history k).token = token

/-- `RecordReqHistory`: the first record without a token is taken. -/
def recordReqHistory (history : Slot → ReqHistory) (token id : Word) :
    Option (Slot → ReqHistory) :=
  (findToken history 0).map fun k => Function.update history k ⟨token, id⟩

/-- `ClearReqHistory` -/
def clearReqHistory (history : Slot → ReqHistory) (token : Word) : Slot → ReqHistory :=
  match findToken history token with
  | some k => Function.update history k ⟨0, 0⟩
  | none => history

/-! ## Handlers -/

section Handlers

variable {H : Type}

/-- `match_slot`: the last slot of an id. -/
def matchSlot (hs : HandlerSlot → ReqRespHandler H) (id : Word) : Option HandlerSlot :=
  (List.finRange 32).reverse.find? fun j => (hs j).id = id

/-- `first_empty_slot` -/
def firstEmptySlot (hs : HandlerSlot → ReqRespHandler H) : Option HandlerSlot :=
  (List.finRange 32).find? fun j => (hs j).id = 0

/-- `RegisterRequestCompleteHandler`; without a handler it unregisters. -/
def registerRequestCompleteHandler (hs : HandlerSlot → ReqRespHandler H) (id : Word) :
    Option H → RilClientErr × (HandlerSlot → ReqRespHandler H)
  | none =>
    match matchSlot hs id with
    | some j => (.success, Function.update hs j ⟨0, none⟩)
    | none => (.success, hs)
  | some h =>
    match matchSlot hs id, firstEmptySlot hs with
    | some j, _ => (.success, Function.update hs j ⟨(hs j).id, some h⟩)
    | none, some j => (.success, Function.update hs j ⟨id, some h⟩)
    | none, none => (.resource, hs)

/-- The first handler slot of an id. -/
def findHandler (hs : HandlerSlot → ReqRespHandler H) (id : Word) : Option HandlerSlot :=
  (List.finRange 32).find? fun j => (hs j).id = id

/-- `FindReqHandler`: the first record of the token whose id has a slot, and its handler. -/
def findReqHandler (s : RilClientPrv H) (token : Word) : Option (Word × Option H) :=
  (List.finRange 32).findSome? fun k =>
    if (s.history k).token = token then
      (findHandler s.reqHandlers (s.history k).id).map fun j =>
        ((s.reqHandlers j).id, (s.reqHandlers j).handler)
    else none

end Handlers

/-! ## Parcels -/

/-- `Parcel::readInt32` -/
def readInt32 (p : List UInt8) : Option (Word × List UInt8) :=
  if 4 ≤ p.length then some ((leWord p 0).toBitVec, p.drop 4) else none

/-- `Parcel::readInplace`: NULL when the data, padded to a multiple of four, is not all there. -/
def readInplace (p : List UInt8) (len : Word) : Option (List UInt8) :=
  if (len.toNat + 3) / 4 * 4 ≤ p.length then some (p.take len.toNat) else none

namespace RilClientPrv

variable {H : Type}

/-- The client of `OpenClient_RILD`. -/
def openClient (errCb : Bool) : RilClientPrv H :=
  ⟨0, fun _ => ⟨0, 0⟩, fun _ => ⟨0, none⟩, errCb, false⟩

/-- Give a token back: the `error` exits. -/
def release (s : RilClientPrv H) (token : Word) : RilClientPrv H :=
  { s with
    tokenPool := freeToken s.tokenPool token
    history := clearReqHistory s.history token }

/-- `SendOemRequestHookRaw` -/
def sendOemRequestHookRaw (s : RilClientPrv H) (reqId : Word) (w : Writes) :
    RilClientErr × RilClientPrv H × List (Event H) :=
  let (pool, token) := allocateToken s.tokenPool
  if token = 0 then (.again, s, [])
  else
    let s := { s with tokenPool := pool }
    match recordReqHistory s.history token reqId with
    | none => (.unknown, s.release token, [])
    | some history =>
      let s := { s with history }
      if w.header ∧ w.body then (.success, s, [.sent token reqId])
      else (.unknown, s.release token, [])

/-- `RegisterRequestCompleteHandler` on the client. -/
def register (s : RilClientPrv H) (id : Word) (h : Option H) : RilClientPrv H :=
  { s with reqHandlers := (registerRequestCompleteHandler s.reqHandlers id h).2 }

/-- `processSolicited` -/
def processSolicited (s : RilClientPrv H) (p : List UInt8) :
    RilClientErr × RilClientPrv H × List (Event H) :=
  match readInt32 p with
  | none => (.io, s, [])
  | some (token, p) =>
    if ¬isValidToken s.tokenPool token then (.inval, s, [])
    else
      match readInt32 p with
      | none => (.io, s.release token, [])
      | some (err, p) =>
        if err ≠ 0 then
          (.success, s.release token, if s.errCb then [.error err] else [])
        else
          -- a missing length field counts as length 0
          let (len, p) := (readInt32 p).getD (0, p)
          let data := if len ≠ 0 then readInplace p len else none
          match findReqHandler s token with
          | some (reqId, some h) =>
            let s' := if s.bDelHandler then { s.register reqId none with bDelHandler := false } else s
            (.success, s'.release token, [.handler h data len])
          | _ => (.success, s.release token, [])

/-- `GetMute` of a connected client. -/
def getMute (s : RilClientPrv H) (h : Option H) (w : Writes) :
    RilClientErr × RilClientPrv H × List (Event H) :=
  let s := { s with bDelHandler := true }
  let (ret, s, es) := (s.register reqGetCallMute h).sendOemRequestHookRaw reqGetCallMute w
  if ret ≠ .success then (ret, s.register reqGetCallMute none, es) else (ret, s, es)

/-- `SetCallVolume`, `SetCallAudioPath`, `SetCallClockSync`, `SetVideoCallClockSync`,
`SetCallRecord`, `SetMute`, `SetTwoMicControl`, `SetDhaSolution` and `SetLoopbackTest` of a
connected client, which differ in the request id and in the data sent. -/
def command (s : RilClientPrv H) (id : Word) (w : Writes) :
    RilClientErr × RilClientPrv H × List (Event H) :=
  let (ret, s, es) := (s.register id none).sendOemRequestHookRaw id w
  if ret ≠ .success then (ret, s.register id none, es) else (ret, s, es)

end RilClientPrv

/-- A call on the client. `invoke` is `InvokeOemRequestHookRaw`. -/
inductive Op (H : Type)
  | register (id : Word) (h : Option H)
  | invoke (id : Word) (w : Writes)
  | command (id : Word) (w : Writes)
  | getMute (h : Option H) (w : Writes)
  | processSolicited (p : List UInt8)

/-- The client and all calls on it. -/
def client (H : Type) : Machine (RilClientPrv H) (Op H) (Event H) where
  step s
    | .register id h => (s.register id h, [])
    | .invoke id w => (s.sendOemRequestHookRaw id w).2
    | .command id w => (s.command id w).2
    | .getMute h w => (s.getMute h w).2
    | .processSolicited p => (s.processSolicited p).2

end SprdHal.Secril
