import CellVisor.Mailbox.Mailbox
import CellVisor.Proofs.Sim.Prompt

/-!
# CellVisor.Proofs.Mailbox.Lockstep

The simulated cores answer as cores do that serve a mailbox, when each of these gets to look at its
slot before it is asked.

* `Signalling`, `Signalling.run`: a way to signal cores, and what it answers to a list of requests.
* `Matched`: when a simulated core and a station are in the same place. `Matched.post`,
  `Matched.poll`, `Matched.write` and `Matched.proceed`: what is done to both leaves them so.
* `served_alike`: each request is answered alike, and `lockstep`: so is every list of them.
-/

namespace CellVisor

/-! ## Stations of a mailbox -/

namespace Mailbox

/-- A core that gets to look at its slot: a parked one goes on if it is to thaw, any other parks if
it is to freeze. -/
def Station.attend (station : Station) : Station :=
  if station.isParked then station.release else station.park station.target.frame

def schedule (mailbox : Mailbox) (core : UInt32) : Mailbox :=
  if mailbox.isParked core then mailbox.wake core else mailbox.park core (mailbox.frame core)

section Stations

variable {mailbox : Mailbox} {core : UInt32}

theorem station?_eq_none : mailbox.station? core = none ↔ maxCores ≤ core.toNat := by
  unfold station?
  split
  · rename_i h
    simp only [reduceCtorEq, false_iff]
    omega
  · rename_i h
    simp only [true_iff]
    omega

theorem lt_of_station? {station : Station} (h : mailbox.station? core = some station) :
    core.toNat < maxCores := by
  refine Nat.lt_of_not_le fun outside => ?_
  rw [station?_eq_none.2 outside] at h
  cases h

theorem station?_modify (mailbox : Mailbox) (core other : UInt32) (change : Station → Station) :
    (mailbox.modify core change).station? other =
      if other = core then (mailbox.station? core).map change else mailbox.station? other := by
  cases hstation : mailbox.station? core with
  | none =>
    have hmodify : mailbox.modify core change = mailbox := by simp only [modify, hstation]
    rw [hmodify]
    split
    · rename_i hother
      rw [hother, hstation, Option.map_none]
    · rfl
  | some station =>
    have hmodify : mailbox.modify core change =
        { mailbox with stations := mailbox.stations.insert core (change station) } := by
      simp only [modify, hstation]
    rw [hmodify, station?, Table.getD_insert]
    by_cases hother : other = core
    · rw [if_pos hother, if_pos hother, hother, if_pos (lt_of_station? hstation), Option.map_some]
    · rw [if_neg hother, if_neg hother, station?]

theorem station?_schedule (mailbox : Mailbox) (core other : UInt32) :
    (mailbox.schedule core).station? other =
      if other = core then (mailbox.station? core).map Station.attend
      else mailbox.station? other := by
  have hparked : mailbox.isParked core = (mailbox.station? core).any Station.isParked := rfl
  have hframe : mailbox.frame core =
    ((mailbox.station? core).map fun station => station.target.frame).getD {} := rfl
  unfold schedule wake park
  cases hstation : mailbox.station? core with
  | none =>
    rw [hstation] at hparked
    rw [if_neg (by simp [hparked]), station?_modify, hstation]
    rfl
  | some station =>
    rw [hstation, Option.any_some] at hparked
    rw [hstation, Option.map_some, Option.getD_some] at hframe
    rw [hparked, hframe, Option.map_some, Station.attend]
    split
    · rw [station?_modify, hstation, Option.map_some]
    · rw [station?_modify, hstation, Option.map_some]

end Stations
end Mailbox

/-! ## Ways to signal cores -/

/-- What there is to do with the cores of a machine, and what is to be seen of them. -/
structure Signalling (S : Type) where
  post : UInt32 → Signal → S → Bool × S
  poll : UInt32 → Signal → S → Bool × S
  context : S → UInt32 → Context
  setContext : UInt32 → Context → S → S
  isParked : S → UInt32 → Bool
  /-- The registers of a core that runs. -/
  frame : S → UInt32 → Context
  setFrame : UInt32 → Context → S → S

def SimMachine.signalling : Signalling SimMachine where
  post core signal machine :=
    match signalCore core signal machine with
    | .ok next => (true, next)
    | .error _ => (false, machine)
  poll := acknowledged
  context := context
  setContext := setContext
  isParked := isParked
  frame := context
  setFrame := setContext

/-- A core gets to look at its slot whenever it is asked for an acknowledgment. -/
def Mailbox.signalling : Signalling Mailbox where
  post core signal mailbox := mailbox.post core signal
  poll core signal mailbox :=
    ((mailbox.schedule core).acknowledged core signal, mailbox.schedule core)
  context := context
  setContext core context mailbox := mailbox.setContext core context
  isParked := isParked
  frame := frame
  setFrame core frame mailbox :=
    mailbox.modify core fun station => { station with target := { station.target with frame } }

namespace Signalling

inductive Request
  | post (core : UInt32) (signal : Signal)
  /-- Asks a core for the signal that was posted to it last. -/
  | poll (core : UInt32)
  | read (core : UInt32)
  | write (core : UInt32) (context : Context)
  /-- The guest on a core goes on, to where the registers are these. -/
  | proceed (core : UInt32) (frame : Context)
  deriving Repr, DecidableEq

inductive Answer
  | posted (accepted : Bool)
  /-- With the registers that the core has reloaded, if it was parked and has gone on. -/
  | polled (acknowledged : Bool) (reloaded : Option Context)
  | read (context : Context)
  | silent
  deriving Repr, DecidableEq

/-- The signal that was posted last to each core, once a request is made. -/
def Request.note (posted : UInt32 → Option Signal) : Request → UInt32 → Option Signal
  | post core signal => fun other => if other = core then some signal else posted other
  | poll _ | read _ | write _ _ | proceed _ _ => posted

section Serve

variable {S : Type} (signalling : Signalling S)

/-- The registers that a core has reloaded, if it was parked and has gone on since. -/
def reloaded? (before after : S) (core : UInt32) : Option Context :=
  if signalling.isParked before core ∧ ¬ signalling.isParked after core then
    some (signalling.frame after core)
  else none

/-- The contexts of parked cores are there to be read and written, and only the guests of the others
go on. A core to which nothing was posted is not asked. -/
def serve (posted : UInt32 → Option Signal) : Request → S → Answer × S
  | .post core signal, state =>
    (.posted (signalling.post core signal state).1, (signalling.post core signal state).2)
  | .poll core, state =>
    match posted core with
    | none => (.silent, state)
    | some signal =>
      let next := (signalling.poll core signal state).2
      (.polled (signalling.poll core signal state).1 (signalling.reloaded? state next core), next)
  | .read core, state =>
    if signalling.isParked state core then (.read (signalling.context state core), state)
    else (.silent, state)
  | .write core context, state =>
    (.silent, if signalling.isParked state core then signalling.setContext core context state
      else state)
  | .proceed core frame, state =>
    (.silent, if signalling.isParked state core then state
      else signalling.setFrame core frame state)

/-- The answers to a list of requests, and the state that they lead to. -/
def run (posted : UInt32 → Option Signal) : List Request → S → List Answer × S
  | [], state => ([], state)
  | request :: rest, state =>
    let served := signalling.serve posted request state
    let later := run (request.note posted) rest served.2
    (served.1 :: later.1, later.2)

end Serve
end Signalling

/-! ## Cores in the same place -/

/-- The core answers whenever it is asked for a signal that is for it. -/
structure Sim.Core.Ready (core : Core) : Prop extends core.Prompt where
  unheld : core.holdoff = 0

/-- A simulated core and a station are in the same place, after the signal that was posted last.
There is no station for a core outside the range, which is never signalled. -/
inductive Matched : Sim.Core → Option Mailbox.Station → Option Signal → Prop
  | outside {core : Sim.Core} {posted : Option Signal} (running : core.parked = false)
      (quiet : core.request = none) : Matched core none posted
  | unasked {core : Sim.Core} {context : Context} (ready : core.Ready)
      (running : core.parked = false) (quiet : core.request = none) :
      Matched core (some ⟨⟨none, none, context⟩, ⟨.running, core.context⟩⟩) none
  | thawed {core : Sim.Core} {context : Context} (ready : core.Ready)
      (running : core.parked = false) (answered : core.request = some ⟨.thaw, true⟩) :
      Matched core (some ⟨⟨none, some .thaw, context⟩, ⟨.running, core.context⟩⟩) (some .thaw)
  | running {core : Sim.Core} {context : Context} {signal : Signal} (ready : core.Ready)
      (running : core.parked = false) (asked : core.request = some ⟨signal, false⟩) :
      Matched core (some ⟨⟨some signal, none, context⟩, ⟨.running, core.context⟩⟩) (some signal)
  | frozen {core : Sim.Core} {frame : Context} (ready : core.Ready)
      (parked : core.parked = true) (answered : core.request = some ⟨.freeze, true⟩) :
      Matched core (some ⟨⟨some .freeze, some .freeze, core.context⟩, ⟨.waiting, frame⟩⟩)
        (some .freeze)
  | parked {core : Sim.Core} {frame : Context} {signal : Signal} (ready : core.Ready)
      (parked : core.parked = true) (asked : core.request = some ⟨signal, false⟩) :
      Matched core (some ⟨⟨some signal, none, core.context⟩, ⟨.waiting, frame⟩⟩) (some signal)

section Matched

variable {core : Sim.Core} {station : Mailbox.Station} {signal : Signal} {posted : Option Signal}

namespace Sim.Core

theorem Ready.post (h : core.Ready) (signal : Signal) : (core.post signal).Ready :=
  ⟨h.toPrompt.post signal, h.undelayed⟩

theorem Ready.setContext (h : core.Ready) (context : Context) :
    ({ core with context } : Core).Ready := ⟨⟨h.responsive, h.undelayed⟩, h.unheld⟩

theorem Ready.answer_eq (h : core.Ready) {acknowledged : Bool}
    (request : core.request = some ⟨signal, acknowledged⟩) :
    core.answer signal =
      if acknowledged then .before else if core.heeds signal then .now else .pending := by
  unfold answer
  rw [if_neg (by simp [h.responsive, h.unheld]), request]
  simp

theorem Ready.asked_of_ne_now (h : core.Ready) (answer : core.answer signal ≠ .now) :
    core.asked signal = core := by
  unfold asked
  rw [if_neg (by simp [h.unheld])]
  split
  · contradiction
  · rfl

theorem Ready.asked_of_now (h : core.Ready) (answer : core.answer signal = .now) :
    (core.asked signal).Ready := by
  refine ⟨h.toPrompt.asked signal, ?_⟩
  rw [Core.asked_of_now answer]
  exact h.unheld

end Sim.Core

namespace Matched

/-- What is posted to a core outside the range does not reach it. -/
theorem refused (h : Matched core none posted) (signal : Signal) :
    Matched core none (some signal) := by
  cases h with
  | outside running quiet => exact .outside running quiet

theorem post (h : Matched core (some station) posted) (signal : Signal) :
    Matched (core.post signal) (some { station with slot := station.slot.post signal })
      (some signal) := by
  cases h with
  | unasked ready running | thawed ready running | running ready running =>
    exact .running (ready.post signal) running rfl
  | frozen ready parked | parked ready parked => exact .parked (ready.post signal) parked rfl

/-- A core that is asked for the signal that was posted to it last answers as the core of the
station does, once that has looked at its slot. -/
theorem poll {station : Option Mailbox.Station} (h : Matched core station (some signal)) :
    Matched (core.asked signal) (station.map Mailbox.Station.attend) (some signal) ∧
      decide (core.answer signal ≠ .pending) =
        (station.map Mailbox.Station.attend).any fun station =>
          station.slot.acknowledged signal := by
  cases h with
  | outside running quiet =>
    have hanswer : core.answer signal = .pending := by
      unfold Sim.Core.answer
      rw [quiet]
      split <;> rfl
    have hnow : core.answer signal ≠ .now := by simp [hanswer]
    refine ⟨.outside ?_ ?_, by simp [hanswer]⟩
    · rw [Sim.Core.parked_asked, if_neg hnow, running]
    · rw [Sim.Core.request_asked_of_ne hnow, quiet]
  | thawed ready running answered =>
    have hanswer := ready.answer_eq answered
    rw [ready.asked_of_ne_now (by simp [hanswer]), hanswer]
    exact ⟨.thawed ready running answered, rfl⟩
  | frozen ready parked answered =>
    have hanswer := ready.answer_eq answered
    rw [ready.asked_of_ne_now (by simp [hanswer]), hanswer]
    exact ⟨.frozen ready parked answered, rfl⟩
  | running ready running asked =>
    have hanswer := ready.answer_eq asked
    -- a running core parks on a freeze, and neither side sees a thaw
    cases signal with
    | freeze =>
      have hnow : core.answer .freeze = .now := by simpa [Sim.Core.heeds, running] using hanswer
      have hready := ready.asked_of_now hnow
      rw [Sim.Core.asked_of_now hnow] at hready ⊢
      rw [hnow]
      exact ⟨.frozen hready rfl rfl, rfl⟩
    | thaw =>
      have hpending : core.answer .thaw = .pending := by
        simpa [Sim.Core.heeds, running] using hanswer
      rw [ready.asked_of_ne_now (by simp [hpending]), hpending]
      exact ⟨.running ready running asked, rfl⟩
  | parked ready parked asked =>
    have hanswer := ready.answer_eq asked
    -- a parked core goes on at a thaw, and waits where it is frozen again
    cases signal with
    | freeze =>
      have hpending : core.answer .freeze = .pending := by
        simpa [Sim.Core.heeds, parked] using hanswer
      rw [ready.asked_of_ne_now (by simp [hpending]), hpending]
      exact ⟨.parked ready parked asked, rfl⟩
    | thaw =>
      have hnow : core.answer .thaw = .now := by simpa [Sim.Core.heeds, parked] using hanswer
      have hready := ready.asked_of_now hnow
      rw [Sim.Core.asked_of_now hnow] at hready ⊢
      rw [hnow]
      exact ⟨.thawed hready rfl rfl, rfl⟩

theorem write (h : Matched core (some station) posted) (parked : core.parked = true)
    (context : Context) :
    Matched { core with context } (some { station with slot := station.slot.setContext context })
      posted := by
  cases h with
  | unasked _ running | thawed _ running | running _ running =>
    cases running.symm.trans parked
  | frozen ready parked answered => exact .frozen (ready.setContext context) parked answered
  | parked ready parked asked => exact .parked (ready.setContext context) parked asked

theorem proceed (h : Matched core (some station) posted) (running : core.parked = false)
    (frame : Context) :
    Matched { core with context := frame }
      (some { station with target := { station.target with frame } }) posted := by
  cases h with
  | frozen _ parked | parked _ parked =>
    cases running.symm.trans parked
  | unasked ready running quiet => exact .unasked (ready.setContext frame) running quiet
  | thawed ready running answered => exact .thawed (ready.setContext frame) running answered
  | running ready running asked => exact .running (ready.setContext frame) running asked

variable {station : Option Mailbox.Station}

theorem isParked_eq (h : Matched core station posted) :
    core.parked = station.any Mailbox.Station.isParked := by
  cases h with
  | outside running | unasked _ running | thawed _ running | running _ running => exact running
  | frozen _ parked | parked _ parked => exact parked

theorem context_eq (h : Matched core station posted) (parked : core.parked = true) :
    core.context = (station.map fun station => station.slot.context).getD {} := by
  cases h with
  | outside running | unasked _ running | thawed _ running | running _ running =>
    cases running.symm.trans parked
  | frozen | parked => rfl

theorem frame_eq (h : Matched core station posted) (inside : station ≠ none)
    (running : core.parked = false) :
    core.context = (station.map fun station => station.target.frame).getD {} := by
  cases h with
  | outside => exact absurd rfl inside
  | frozen _ parked | parked _ parked =>
    cases running.symm.trans parked
  | unasked | thawed | running => rfl

end Matched

end Matched

/-! ## Machines that answer alike -/

/-- Every simulated core is in the same place as the station of that core. -/
def Follows (machine : SimMachine) (mailbox : Mailbox) (posted : UInt32 → Option Signal) : Prop :=
  ∀ core, Matched (machine.core core) (mailbox.station? core) (posted core)

section Follows

variable {machine next : SimMachine} {mailbox after : Mailbox} {posted : UInt32 → Option Signal}
  {id : UInt32}

theorem Follows.isParked_eq (h : Follows machine mailbox posted) (core : UInt32) :
    machine.isParked core = mailbox.isParked core := (h core).isParked_eq

theorem Follows.context_eq (h : Follows machine mailbox posted) {core : UInt32}
    (parked : machine.isParked core = true) : machine.context core = mailbox.context core :=
  (h core).context_eq parked

theorem Follows.frame_eq (h : Follows machine mailbox posted) {core : UInt32}
    (inside : core.toNat < maxCores) (running : machine.isParked core = false) :
    machine.context core = mailbox.frame core := by
  refine (h core).frame_eq (fun outside => ?_) running
  have hrange := Mailbox.station?_eq_none.1 outside
  omega

/-- A parked core is one of those that the mailbox has. -/
theorem Follows.inside (h : Follows machine mailbox posted) {core : UInt32}
    (parked : machine.isParked core = true) : core.toNat < maxCores := by
  refine Nat.lt_of_not_le fun outside => ?_
  have hstation := (h core).isParked_eq
  rw [Mailbox.station?_eq_none.2 outside] at hstation
  cases hstation.symm.trans parked

/-- What changes one core on both sides keeps them together, if that core is in the same place
again. -/
theorem Follows.update (h : Follows machine mailbox posted) {core : Sim.Core}
    {station : Option Mailbox.Station} {latest : UInt32 → Option Signal}
    (cores : ∀ other, next.core other = if other = id then core else machine.core other)
    (stations : ∀ other, after.station? other =
      if other = id then station else mailbox.station? other)
    (signals : ∀ other, other ≠ id → latest other = posted other)
    (matched : Matched core station (latest id)) : Follows next after latest := by
  intro other
  rw [cores, stations]
  by_cases hother : other = id
  · rw [if_pos hother, if_pos hother, hother]
    exact matched
  · rw [if_neg hother, if_neg hother, signals other hother]
    exact h other

end Follows

namespace Signalling

section Alike

variable {machine : SimMachine} {mailbox : Mailbox} {posted : UInt32 → Option Signal}

theorem post_of_outside {core : UInt32} (outside : maxCores ≤ core.toNat) (signal : Signal)
    (machine : SimMachine) :
    SimMachine.signalling.post core signal machine = (false, machine) := by
  have hrefused : SimMachine.signalCore core signal machine =
    .error (.config .coreOutsideMailbox) := if_pos outside
  simp only [SimMachine.signalling, hrefused]

theorem post_of_inside {core : UInt32} (inside : core.toNat < maxCores) (signal : Signal)
    (machine : SimMachine) :
    ∃ next, SimMachine.signalling.post core signal machine = (true, next) ∧
      ∀ other, next.core other =
        if other = core then (machine.core core).post signal else machine.core other := by
  obtain ⟨next, hposted⟩ := SimMachine.signalCore_of_lt inside signal machine
  exact ⟨next, by simp only [SimMachine.signalling, hposted],
    SimMachine.core_of_signalCore hposted⟩

theorem post_alike (h : Follows machine mailbox posted) (core : UInt32) (signal : Signal) :
    (SimMachine.signalling.post core signal machine).1 =
        (Mailbox.signalling.post core signal mailbox).1 ∧
      Follows (SimMachine.signalling.post core signal machine).2
        (Mailbox.signalling.post core signal mailbox).2
        ((Request.post core signal).note posted) := by
  have hstations := fun other => mailbox.station?_modify core other fun station =>
    { station with slot := station.slot.post signal }
  have hsignals : ∀ other, other ≠ core →
      (Request.post core signal).note posted other = posted other := fun _ hother => if_neg hother
  have hlatest : (Request.post core signal).note posted core = some signal := if_pos rfl
  have hcore := h core
  have haccepted : (Mailbox.signalling.post core signal mailbox).1 =
    (mailbox.station? core).isSome := rfl
  cases hstation : mailbox.station? core with
  | none =>
    rw [post_of_outside (Mailbox.station?_eq_none.1 hstation), haccepted, hstation]
    rw [hstation] at hcore hstations
    have hcores : ∀ other, machine.core other =
        if other = core then machine.core core else machine.core other := by
      intro other
      split
      · rename_i hother
        rw [hother]
      · rfl
    refine ⟨rfl, h.update hcores hstations hsignals ?_⟩
    rw [hlatest]
    exact hcore.refused signal
  | some station =>
    obtain ⟨next, hposted, hcores⟩ :=
      post_of_inside (Mailbox.lt_of_station? hstation) signal machine
    rw [hposted, haccepted, hstation]
    rw [hstation] at hcore hstations
    refine ⟨rfl, h.update hcores hstations hsignals ?_⟩
    rw [hlatest]
    exact hcore.post signal

theorem poll_alike (h : Follows machine mailbox posted) {core : UInt32} {signal : Signal}
    (latest : posted core = some signal) :
    (SimMachine.signalling.poll core signal machine).1 =
        (Mailbox.signalling.poll core signal mailbox).1 ∧
      Follows (SimMachine.signalling.poll core signal machine).2
        (Mailbox.signalling.poll core signal mailbox).2 posted := by
  have hcore := h core
  rw [latest] at hcore
  obtain ⟨hmatched, hanswer⟩ := hcore.poll
  constructor
  · show (SimMachine.acknowledged core signal machine).1 =
      (mailbox.schedule core).acknowledged core signal
    rw [SimMachine.acknowledged_fst, hanswer, Mailbox.acknowledged, Mailbox.station?_schedule,
      if_pos rfl]
  · refine h.update (SimMachine.core_acknowledged core signal machine)
      (mailbox.station?_schedule core) (fun _ _ => rfl) ?_
    rw [latest]
    exact hmatched

theorem write_alike (h : Follows machine mailbox posted) {core : UInt32}
    (parked : machine.isParked core = true) (context : Context) :
    Follows (SimMachine.signalling.setContext core context machine)
      (Mailbox.signalling.setContext core context mailbox) posted := by
  have hcore := h core
  refine h.update (SimMachine.core_modifyCore machine core · _) (mailbox.station?_modify core · _)
    (fun _ _ => rfl) ?_
  cases hstation : mailbox.station? core with
  | none =>
    rw [hstation] at hcore
    cases hcore with
    | outside running => cases running.symm.trans parked
  | some station =>
    rw [hstation] at hcore
    exact hcore.write parked context

theorem proceed_alike (h : Follows machine mailbox posted) {core : UInt32}
    (running : machine.isParked core = false) (frame : Context) :
    Follows (SimMachine.signalling.setFrame core frame machine)
      (Mailbox.signalling.setFrame core frame mailbox) posted := by
  have hcore := h core
  refine h.update (SimMachine.core_modifyCore machine core · _) (mailbox.station?_modify core · _)
    (fun _ _ => rfl) ?_
  cases hstation : mailbox.station? core with
  | none =>
    rw [hstation] at hcore
    cases hcore with
    | outside running quiet => exact .outside running quiet
  | some station =>
    rw [hstation] at hcore
    exact hcore.proceed running frame

theorem reloaded_alike {next : SimMachine} {after : Mailbox} {latest : UInt32 → Option Signal}
    (h : Follows machine mailbox posted) (later : Follows next after latest) (core : UInt32) :
    SimMachine.signalling.reloaded? machine next core =
      Mailbox.signalling.reloaded? mailbox after core := by
  show (if machine.isParked core ∧ ¬ next.isParked core then some (next.context core) else none) =
    if mailbox.isParked core ∧ ¬ after.isParked core then some (after.frame core) else none
  rw [← h.isParked_eq, ← later.isParked_eq]
  split
  · rename_i hleft
    rw [later.frame_eq (h.inside hleft.1) (Bool.not_eq_true _ ▸ hleft.2)]
  · rfl

/-- A request is answered alike, and leaves every core in the same place on both sides. -/
theorem served_alike (h : Follows machine mailbox posted) (request : Request) :
    (SimMachine.signalling.serve posted request machine).1 =
        (Mailbox.signalling.serve posted request mailbox).1 ∧
      Follows (SimMachine.signalling.serve posted request machine).2
        (Mailbox.signalling.serve posted request mailbox).2 (request.note posted) := by
  have hparked : ∀ core, SimMachine.signalling.isParked machine core =
    Mailbox.signalling.isParked mailbox core := h.isParked_eq
  cases request with
  | post core signal =>
    obtain ⟨haccepted, hfollows⟩ := post_alike h core signal
    exact ⟨congrArg Answer.posted haccepted, hfollows⟩
  | poll core =>
    simp only [serve]
    cases hlatest : posted core with
    | none => exact ⟨rfl, h⟩
    | some signal =>
      obtain ⟨hanswer, hfollows⟩ := poll_alike h hlatest
      dsimp only
      rw [hanswer, reloaded_alike h hfollows core]
      exact ⟨rfl, hfollows⟩
  | read core =>
    simp only [serve, hparked core]
    split
    · rename_i parked
      exact ⟨congrArg Answer.read (h.context_eq ((hparked core).trans parked)), h⟩
    · exact ⟨rfl, h⟩
  | write core context =>
    simp only [serve, hparked core]
    refine ⟨trivial, ?_⟩
    split
    · rename_i parked
      exact write_alike h ((hparked core).trans parked) context
    · exact h
  | proceed core frame =>
    simp only [serve, hparked core]
    refine ⟨trivial, ?_⟩
    split
    · exact h
    · rename_i running
      exact proceed_alike h ((hparked core).trans (Bool.not_eq_true _ ▸ running)) frame

theorem run_alike (h : Follows machine mailbox posted) (requests : List Request) :
    (SimMachine.signalling.run posted requests machine).1 =
        (Mailbox.signalling.run posted requests mailbox).1 ∧
      ∃ latest, Follows (SimMachine.signalling.run posted requests machine).2
        (Mailbox.signalling.run posted requests mailbox).2 latest := by
  induction requests generalizing machine mailbox posted with
  | nil => exact ⟨rfl, posted, h⟩
  | cons request rest ih =>
    obtain ⟨hanswer, hfollows⟩ := served_alike h request
    obtain ⟨hanswers, hlast⟩ := ih hfollows
    simp only [run]
    rw [hanswer, hanswers]
    exact ⟨rfl, hlast⟩

/-- Nothing is posted yet: every core runs, and a core of the mailbox with the same registers as the
simulated one, which answers without delay. -/
structure Fresh (machine : SimMachine) (mailbox : Mailbox) : Prop where
  cores : ∀ core, machine.core core = { context := machine.context core }
  stations : ∀ core, core.toNat < maxCores →
    ∃ context, mailbox.station? core = some ⟨{ context }, { frame := machine.context core }⟩

theorem Fresh.follows (h : Fresh machine mailbox) : Follows machine mailbox fun _ => none := by
  intro core
  cases hstation : mailbox.station? core with
  | none =>
    rw [h.cores core]
    exact .outside rfl rfl
  | some station =>
    obtain ⟨context, hfresh⟩ := h.stations core (Mailbox.lt_of_station? hstation)
    rw [← hstation, hfresh, h.cores core]
    exact .unasked ⟨⟨rfl, rfl⟩, rfl⟩ rfl rfl

/-- Simulated cores follow the protocol of the mailbox. Whatever is posted, asked, read and written,
in whatever order and on whatever cores, the simulated machine and a mailbox whose cores get to look
at their slots before they are asked give the same answers: signals are accepted and acknowledged
alike, and the same contexts are handed over and reloaded. They end with the same cores parked, with
the same contexts, and with the same registers on the cores that run. -/
theorem lockstep (fresh : Fresh machine mailbox) (requests : List Request) :
    let simulated := SimMachine.signalling.run (fun _ => none) requests machine
    let served := Mailbox.signalling.run (fun _ => none) requests mailbox
    simulated.1 = served.1 ∧ ∀ core,
      simulated.2.isParked core = served.2.isParked core ∧
      (simulated.2.isParked core = true →
        simulated.2.context core = served.2.context core) ∧
      (core.toNat < maxCores → simulated.2.isParked core = false →
        simulated.2.context core = served.2.frame core) := by
  obtain ⟨hanswers, latest, hfollows⟩ := run_alike fresh.follows requests
  exact ⟨hanswers, fun core =>
    ⟨hfollows.isParked_eq core, hfollows.context_eq, hfollows.frame_eq⟩⟩

theorem fresh_ofCores : Fresh (.ofCores 4) {} where
  cores _ := rfl
  stations _ inside := ⟨{}, if_pos inside⟩

/-- A core is frozen, frozen again in vain, given another context and thawed; a core that runs does
not heed a thaw, and there is no core 32. -/
theorem lockstep_round :
    Fresh (.ofCores 4) {} ∧
      (SimMachine.signalling.run (fun _ => none)
        [.proceed 0 { rip := 0x1000 }, .post 0 .freeze, .poll 0, .read 0, .post 0 .freeze, .poll 0,
          .write 0 { rip := 0x2000 }, .post 0 .thaw, .poll 0, .post 1 .thaw, .poll 1,
          .post 32 .freeze, .poll 32] (.ofCores 4)).1 =
        [.silent, .posted true, .polled true none, .read { rip := 0x1000 }, .posted true,
          .polled false none, .silent, .posted true, .polled true (some { rip := 0x2000 }),
          .posted true, .polled false none, .posted false, .polled false none] :=
  ⟨fresh_ofCores, (lockstep fresh_ofCores _).1.trans (by decide +kernel)⟩

end Alike

end Signalling
end CellVisor
