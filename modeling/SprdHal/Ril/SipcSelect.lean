import SprdHal.Lib.Search
import SprdHal.Ril.ModemRecovery

/-!
# The event loop of a SIPC modem (`modemd_sipc.c`)

`detect_sipc_modem` waits in `select` for its assert and its watchdog device and reads the one that
is ready, the assert device first. `select` replaces the set that it is given by the descriptors
that are ready, and the loop does not build the set anew: a device that was quiet when the other
one had an event is not watched any more.
-/

namespace SprdHal.Ril

open SprdHal.Lib

/-- `assert_fd` and `watchdog_fd` -/
inductive Source
  | assert | watchdog
  deriving DecidableEq, Repr

/-- An `fd_set` over the two descriptors. -/
abbrev FdSet := Source → Bool

/-- What the message in `buf`, a string, reports; `Modem Reset` is looked for first. -/
def sipcEvent (buf : List Char) : Option SipcEvent :=
  let buf := buf.takeWhile (· ≠ '\x00')
  if occurs "Modem Reset".toList buf then some .reset
  else if occurs "Modem Assert".toList buf ∨ occurs "wdtirq".toList buf then
    some (if occurs "wdtirq".toList buf then .wdtirq else .assert)
  else none

/-- `detect_sipc_modem` in its call of `select`: the set that the call was made with, the descriptor
that was read last (`fd`, -1 at first), and the messages that the devices have. -/
structure SipcSelect where
  rfds : FdSet
  fd : Option Source
  pending : Source → List (List Char)

/-- What the loop does: a read of a descriptor after `select` reported a set, with the message or
with an error, and the handling of an event. -/
inductive LoopAct
  | read (reported : FdSet) (fd : Source) (buf : Option (List Char))
  | handle (e : SipcEvent)

inductive LoopInput
  /-- a message becomes readable -/
  | arrives (d : Source) (buf : List Char)
  /-- `select` returns `EINTR` and is called again -/
  | eintr
  /-- `select` returns if a descriptor of its set is readable, and the loop goes round; the read
  returns a message or nothing -/
  | turn (readOk : Bool)
  deriving DecidableEq

namespace SipcSelect

variable (s : SipcSelect)

/-- The first call of `select`: `FD_ZERO` and both `FD_SET`. -/
def init : SipcSelect := ⟨fun _ => true, none, fun _ => []⟩

/-- The set that `select` leaves. -/
def ready : FdSet := fun d => s.rfds d && !(s.pending d).isEmpty

/-- The descriptor to read; it stays the one of the last turn where none is in the set. -/
def chooseFd : Option Source :=
  if s.ready .assert then some .assert else if s.ready .watchdog then some .watchdog else s.fd

def step : LoopInput → SipcSelect × List LoopAct
  | .arrives d buf => ({ s with pending := Function.update s.pending d (s.pending d ++ [buf]) }, [])
  | .eintr => (s, [])
  | .turn readOk =>
    if s.ready .assert ∨ s.ready .watchdog then
      let s' := { s with rfds := s.ready, fd := s.chooseFd }
      match s.chooseFd with
      | none => (s', [])
      | some d =>
        match readOk, s.pending d with
        | true, buf :: rest =>
          ({ s' with pending := Function.update s.pending d rest },
            .read s.ready d (some buf) :: (sipcEvent buf).toList.map .handle)
        | _, _ => (s', [.read s.ready d none])
    else (s, [])

end SipcSelect

def detectSipcModem : Machine SipcSelect LoopInput LoopAct where
  step := SipcSelect.step

/-! ## What the loop is meant to do -/

def handled (log : List LoopAct) : List SipcEvent :=
  log.filterMap fun | .handle e => some e | .read .. => none

/-- The messages that were read from a device. -/
def readFrom (d : Source) (log : List LoopAct) : List (List Char) :=
  log.filterMap fun
    | .read _ fd buf => if fd = d then buf else none
    | .handle _ => none

def arrived (d : Source) (inputs : List LoopInput) : List (List Char) :=
  inputs.filterMap fun
    | .arrives src buf => if src = d then some buf else none
    | _ => none

/-- The messages that wait to be read, in the order in which they are read if no other comes. -/
def SipcSelect.backlog (s : SipcSelect) : List (List Char) :=
  s.pending .assert ++ s.pending .watchdog

/-- No event source is dropped: both descriptors are watched, what was read was just reported ready,
a message that arrived was read or still waits, and the next turns handle what waits. -/
structure NothingDropped (inputs : List LoopInput) : Prop where
  watched : ∀ d, (detectSipcModem.run .init inputs).1.rfds d = true
  reported : ∀ set d buf, .read set d buf ∈ (detectSipcModem.run .init inputs).2 → set d = true
  kept : ∀ d, readFrom d (detectSipcModem.run .init inputs).2 ++
    (detectSipcModem.run .init inputs).1.pending d = arrived d inputs
  drained : ∀ s, s = (detectSipcModem.run .init inputs).1 →
    handled (detectSipcModem.run s (List.replicate s.backlog.length (.turn true))).2 =
      s.backlog.filterMap sipcEvent

/-- When `select` returns, both devices have a message. -/
def BothReady (s : SipcSelect) : LoopInput → Prop
  | .turn _ => (∀ d, s.pending d ≠ []) ∨ (∀ d, s.pending d = [])
  | _ => True

/-! ## One turn -/

namespace SipcSelect

variable {s : SipcSelect}

theorem pending_of_ready {d : Source} (h : s.ready d = true) : s.pending d ≠ [] := by
  intro hnil
  simp [ready, hnil] at h

theorem chooseFd_ready (h : s.ready .assert = true ∨ s.ready .watchdog = true) :
    ∃ d, s.chooseFd = some d ∧ s.ready d = true := by
  unfold chooseFd
  by_cases ha : s.ready .assert = true
  · exact ⟨.assert, if_pos ha, ha⟩
  · have hw : s.ready .watchdog = true := h.resolve_left ha
    refine ⟨.watchdog, ?_, hw⟩
    rw [if_neg ha, if_pos hw]

/-- A turn: `select` waits on, or a ready descriptor is read, in vain or with a message. -/
theorem step_turn_cases (s : SipcSelect) (readOk : Bool) :
    (∀ d, s.ready d = false) ∧ s.step (.turn readOk) = (s, []) ∨
    ∃ d, s.chooseFd = some d ∧ s.ready d = true ∧
      (readOk = false ∧ s.step (.turn readOk) =
          ({ s with rfds := s.ready, fd := some d }, [.read s.ready d none]) ∨
        readOk = true ∧ ∃ buf rest, s.pending d = buf :: rest ∧ s.step (.turn readOk) =
          ({ rfds := s.ready, fd := some d, pending := Function.update s.pending d rest },
            .read s.ready d (some buf) :: (sipcEvent buf).toList.map .handle)) := by
  by_cases h : s.ready .assert = true ∨ s.ready .watchdog = true
  · right
    obtain ⟨d, hfd, hd⟩ := chooseFd_ready h
    refine ⟨d, hfd, hd, ?_⟩
    obtain ⟨buf, rest, hp⟩ := List.exists_cons_of_ne_nil (pending_of_ready hd)
    simp only [step, if_pos h, hfd]
    cases readOk with
    | false => exact .inl ⟨rfl, rfl⟩
    | true => exact .inr ⟨rfl, buf, rest, hp, by simp only [hp]⟩
  · left
    refine ⟨fun d => ?_, if_neg h⟩
    rw [not_or] at h
    cases d with
    | assert => simpa using h.1
    | watchdog => simpa using h.2

/-- `select` is called again with the set that it left. -/
theorem rfds_step_turn (readOk : Bool) :
    (∀ d, s.ready d = false) ∧ (s.step (.turn readOk)).1.rfds = s.rfds ∨
      (∃ d, s.ready d = true) ∧ (s.step (.turn readOk)).1.rfds = s.ready := by
  obtain ⟨hnone, h⟩ | ⟨d, -, hd, ⟨-, h⟩ | ⟨-, buf, rest, -, h⟩⟩ := s.step_turn_cases readOk
  · exact .inl ⟨hnone, by rw [h]⟩
  · exact .inr ⟨⟨d, hd⟩, by rw [h]⟩
  · exact .inr ⟨⟨d, hd⟩, by rw [h]⟩

theorem reported_step (i : LoopInput) {set : FdSet} {d : Source} {buf : Option (List Char)}
    (hmem : .read set d buf ∈ (s.step i).2) : set d = true := by
  cases i with
  | arrives src msg => exact absurd hmem List.not_mem_nil
  | eintr => exact absurd hmem List.not_mem_nil
  | turn readOk =>
    obtain ⟨-, h⟩ | ⟨fd, -, hfd, ⟨-, h⟩ | ⟨-, msg, rest, -, h⟩⟩ := s.step_turn_cases readOk
    · rw [h] at hmem
      exact absurd hmem List.not_mem_nil
    · rw [h, List.mem_singleton] at hmem
      obtain ⟨rfl, rfl, -⟩ := LoopAct.read.inj hmem
      exact hfd
    · rw [h, List.mem_cons] at hmem
      rcases hmem with hmem | hmem
      · obtain ⟨rfl, rfl, -⟩ := LoopAct.read.inj hmem
        exact hfd
      · simp at hmem

@[simp] theorem readFrom_handle (d : Source) (es : List SipcEvent) :
    readFrom d (es.map .handle) = [] := by
  simp [readFrom, List.filterMap_map]

/-- A message is read once, in its turn. -/
theorem kept_step (i : LoopInput) (d : Source) :
    readFrom d (s.step i).2 ++ (s.step i).1.pending d = s.pending d ++ arrived d [i] := by
  cases i with
  | arrives src msg =>
    by_cases hd : src = d
    · subst hd
      simp [step, readFrom, arrived]
    · simp [step, readFrom, arrived, hd, Function.update_of_ne (Ne.symm hd)]
  | eintr => simp [step, readFrom, arrived]
  | turn readOk =>
    have hnone : arrived d [.turn readOk] = [] := rfl
    rw [hnone, List.append_nil]
    obtain ⟨-, h⟩ | ⟨fd, -, -, ⟨-, h⟩ | ⟨-, msg, rest, hp, h⟩⟩ := s.step_turn_cases readOk
    · rw [h]
      rfl
    · rw [h]
      simp [readFrom]
    · rw [h]
      have hread : readFrom d (.read s.ready fd (some msg) :: (sipcEvent msg).toList.map .handle) =
          (if fd = d then [msg] else []) ++ readFrom d ((sipcEvent msg).toList.map .handle) := by
        split <;> simp_all [readFrom]
      rw [hread, readFrom_handle, List.append_nil]
      by_cases hd : fd = d
      · subst hd
        simp [hp]
      · simp [hd, Function.update_of_ne (Ne.symm hd)]

/-- Every device with a message is watched. -/
def Covers (s : SipcSelect) : Prop := ∀ d, s.pending d ≠ [] → s.rfds d = true

theorem Covers.ready (h : s.Covers) {d : Source} (hd : s.pending d ≠ []) : s.ready d = true := by
  simp [SipcSelect.ready, h d hd, hd]

/-- The next message is read and handled, and what is left is still watched. -/
theorem drain_step (h : s.Covers) {buf : List Char} {rest : List (List Char)}
    (hb : s.backlog = buf :: rest) :
    handled (s.step (.turn true)).2 = (sipcEvent buf).toList ∧
      (s.step (.turn true)).1.backlog = rest ∧ (s.step (.turn true)).1.Covers := by
  have hhandled : ∀ (set : FdSet) (d : Source) (msg : List Char),
      handled (.read set d (some msg) :: (sipcEvent msg).toList.map .handle) =
        (sipcEvent msg).toList := by
    intro set d msg
    simp [handled, List.filterMap_map]
  have hready : s.ready .assert = true ∨ s.ready .watchdog = true := by
    by_cases ha : s.pending .assert = []
    · refine .inr (h.ready fun hw => ?_)
      rw [backlog, ha, hw] at hb
      exact nomatch hb
    · exact .inl (h.ready ha)
  obtain ⟨hnone, -⟩ | ⟨d, hfd, hd, ⟨hok, -⟩ | ⟨-, msg, more, hp, hstep⟩⟩ :=
    s.step_turn_cases true
  · simp [hnone] at hready
  · exact nomatch hok
  rw [hstep, hhandled]
  have hcovers : ∀ d', Function.update s.pending d more d' ≠ [] → s.ready d' = true := by
    intro d' hne
    by_cases hdd : d' = d
    · rw [hdd]
      exact hd
    · rw [Function.update_of_ne hdd] at hne
      exact h.ready hne
  -- the assert device is read first
  by_cases ha : s.pending .assert = []
  · have hw : d = .watchdog := by
      cases d with
      | assert => exact absurd ha (pending_of_ready hd)
      | watchdog => rfl
    subst hw
    rw [backlog, ha, List.nil_append, hp] at hb
    obtain ⟨rfl, rfl⟩ := List.cons.inj hb
    refine ⟨rfl, ?_, hcovers⟩
    simp [backlog, Function.update_of_ne, ha]
  · have hfd' : s.chooseFd = some .assert := if_pos (h.ready ha)
    obtain rfl : d = .assert := Option.some.inj (hfd.symm.trans hfd')
    rw [backlog, hp, List.cons_append] at hb
    obtain ⟨rfl, rfl⟩ := List.cons.inj hb
    refine ⟨rfl, ?_, hcovers⟩
    simp [backlog, Function.update_of_ne]

end SipcSelect

/-! ## Runs -/

open SipcSelect

theorem reported_run (inputs : List LoopInput) (s : SipcSelect) {set : FdSet} {d : Source}
    {buf : Option (List Char)} (hmem : .read set d buf ∈ (detectSipcModem.run s inputs).2) :
    set d = true := by
  induction inputs generalizing s with
  | nil => exact absurd hmem List.not_mem_nil
  | cons i inputs ih =>
    rw [Machine.run_cons, List.mem_append] at hmem
    rcases hmem with hmem | hmem
    · exact reported_step i hmem
    · exact ih _ hmem

theorem kept_run (inputs : List LoopInput) (s : SipcSelect) (d : Source) :
    readFrom d (detectSipcModem.run s inputs).2 ++ (detectSipcModem.run s inputs).1.pending d =
      s.pending d ++ arrived d inputs := by
  induction inputs generalizing s with
  | nil => simp [readFrom, arrived]
  | cons i inputs ih =>
    have hcons : arrived d (i :: inputs) = arrived d [i] ++ arrived d inputs :=
      List.filterMap_append (l := [i])
    have happ : ∀ a b : List LoopAct, readFrom d (a ++ b) = readFrom d a ++ readFrom d b :=
      fun a b => List.filterMap_append
    rw [Machine.run_cons, happ, List.append_assoc, ih, ← List.append_assoc, hcons,
      ← List.append_assoc]
    exact congrArg (· ++ arrived d inputs) (kept_step i d)

theorem drain_run (n : Nat) (s : SipcSelect) (h : s.Covers) (hn : s.backlog.length = n) :
    handled (detectSipcModem.run s (List.replicate n (.turn true))).2 =
      s.backlog.filterMap sipcEvent := by
  induction n generalizing s with
  | zero =>
    rw [List.length_eq_zero_iff.mp hn]
    rfl
  | succ n ih =>
    obtain ⟨buf, rest, hb⟩ := List.exists_cons_of_length_eq_add_one hn
    obtain ⟨hnow, hrest, hcov⟩ := drain_step h hb
    have hlater := ih (s.step (.turn true)).1 hcov (by rw [hrest]; simpa [hb] using hn)
    have happ : ∀ a b : List LoopAct, handled (a ++ b) = handled a ++ handled b :=
      fun a b => List.filterMap_append
    rw [List.replicate_succ, Machine.run_cons, happ]
    rw [hrest] at hlater
    have hnow' : handled (detectSipcModem.step s (.turn true)).2 = (sipcEvent buf).toList := hnow
    have hlater' : handled (detectSipcModem.run (detectSipcModem.step s (.turn true)).1
        (List.replicate n (.turn true))).2 = rest.filterMap sipcEvent := hlater
    rw [hnow', hlater', hb, List.filterMap_cons]
    cases sipcEvent buf <;> rfl

/-- A turn leaves both devices watched exactly if both or none have a message. -/
theorem watched_step_iff (s : SipcSelect) (i : LoopInput) (h : ∀ d, s.rfds d = true) :
    (∀ d, (detectSipcModem.step s i).1.rfds d = true) ↔ BothReady s i := by
  cases i with
  | arrives d buf => exact ⟨fun _ => trivial, fun _ => h⟩
  | eintr => exact ⟨fun _ => trivial, fun _ => h⟩
  | turn readOk =>
    have hready : ∀ d, s.ready d = true ↔ s.pending d ≠ [] := by
      intro d
      simp [SipcSelect.ready, h d]
    unfold BothReady
    rcases s.rfds_step_turn readOk with ⟨hnone, hrfds⟩ | ⟨⟨d', hd'⟩, hrfds⟩
    · have hidle : ∀ d, s.pending d = [] := by
        intro d
        rw [← not_not (a := s.pending d = []), ← Ne, ← hready d, hnone d]
        exact Bool.false_ne_true
      refine ⟨fun _ => .inr hidle, fun _ d => ?_⟩
      exact (congrFun hrfds d).trans (h d)
    · constructor
      · refine fun hall => .inl fun d => (hready d).mp ?_
        exact (congrFun hrfds d).symm.trans (hall d)
      · intro hboth d
        have hall := hboth.resolve_right fun hn => (hready d').mp hd' (hn d')
        exact (congrFun hrfds d).trans ((hready d).mpr (hall d))

/-- **Watching both devices.** No event source is dropped in the course of a run exactly if both
devices are readable whenever `select` returns. -/
theorem nothingDropped_iff (inputs : List LoopInput) :
    (∀ pre, pre <+: inputs → NothingDropped pre) ↔
      detectSipcModem.Admits BothReady .init inputs := by
  have hgood := @Machine.states_good_iff _ _ _ detectSipcModem _ (fun s => ∀ d, s.rfds d = true)
    watched_step_iff inputs .init fun _ => rfl
  rw [← hgood]
  constructor
  · exact fun h pre hpre => (h pre hpre).watched
  · intro h pre hpre
    refine ⟨h pre hpre, fun set d buf hmem => reported_run pre _ hmem, fun d => ?_, ?_⟩
    · exact kept_run pre .init d
    · rintro s rfl
      exact drain_run _ _ (fun d _ => h pre hpre d) rfl

/-- After a watchdog interrupt while the assert device is quiet, the assert that follows is not
handled. -/
theorem assert_dropped :
    ¬ ∀ inputs pre, pre <+: inputs → NothingDropped pre := by
  intro h
  have hdrop := h [.arrives .watchdog "wdtirq".toList, .turn true,
    .arrives .assert "Modem Assert".toList] _ (List.prefix_refl _)
  have hdrained := hdrop.drained _ rfl
  exact absurd hdrained (by decide)

end SprdHal.Ril
