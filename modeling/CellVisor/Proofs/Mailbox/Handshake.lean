import CellVisor.Mailbox.Slot
import Mathlib.Logic.Relation

/-!
# CellVisor.Proofs.Mailbox.Handshake

The control core and one other core talk through their slot for any number of rounds, with their
accesses in any order. The control core keeps to the rules: it posts a freeze at first or after it
has observed the thaw, a thaw after it has observed the freeze, and replaces the context in between.
The other core may be interrupted and enter its park routine at any time.

* `Session`, `Step`: where the two are, and one access of either.
* `Phase`: the places that they can be at together, and `phase_step`: every access keeps to them.
* `handshake`: what the control core may rely on whenever it looks at the slot, what the other core
  goes on with, and that neither waits for ever.
-/

namespace CellVisor
namespace Mailbox

/-! ## The two sides -/

/-- What the two sides have done that matters to the other. -/
inductive Mark
  | published (signal : Signal)
  /-- The control core has seen the acknowledgment that it waits for. -/
  | observed (signal : Signal)
  | replaced (context : Context)
  /-- The other core is inside its park routine, and was interrupted with `frame`. -/
  | entered (frame : Context)
  | acked (signal : Signal)
  /-- The other core has returned from its park routine with `frame`. -/
  | left (frame : Context)
  deriving Repr, DecidableEq

/-- Where the control core is in a round. -/
inductive Control
  | free
  /-- It has cleared the acknowledgment, and has not published its request. -/
  | posting (signal : Signal)
  | awaiting (signal : Signal)
  /-- It has observed the freeze, so it reads and replaces the context as it likes. -/
  | holding
  deriving Repr, DecidableEq

namespace Control

/-- What it may post. -/
def next? : Control → Option Signal
  | free => some .freeze
  | holding => some .thaw
  | posting _ | awaiting _ => none

/-- Where it is once it has observed the acknowledgment of a signal. -/
def observed : Signal → Control
  | .freeze => holding
  | .thaw => free

end Control

/-- What is learnt from the next access of the other core. -/
def Station.marks (station : Station) : List Mark :=
  match station.target.stage with
  | .running => if station.slot.freezeRequested then [.entered station.target.frame] else []
  | .stored => [.acked .freeze]
  | .cleared => [.left station.target.frame, .acked .thaw]
  | .entered | .waiting | .released | .reloaded => []

/-- The two sides, and what they have done, the latest first. -/
structure Session where
  station : Station := {}
  control : Control := .free
  history : List Mark := []
  deriving Repr, DecidableEq

/-- One access of either side. The control core also looks for acknowledgments in vain, looks again
for those it has observed, and reads contexts: that changes nothing. -/
inductive Step : Session → Session → Prop
  | clear {station : Station} {control : Control} {history : List Mark} {signal : Signal}
      (may : control.next? = some signal) :
      Step ⟨station, control, history⟩
        ⟨{ station with slot := station.slot.clearAck }, .posting signal, history⟩
  | publish {station : Station} {history : List Mark} {signal : Signal} :
      Step ⟨station, .posting signal, history⟩
        ⟨{ station with slot := station.slot.publish signal }, .awaiting signal,
          .published signal :: history⟩
  | observe {station : Station} {history : List Mark} {signal : Signal}
      (acknowledged : station.slot.acknowledged signal = true) :
      Step ⟨station, .awaiting signal, history⟩
        ⟨station, .observed signal, .observed signal :: history⟩
  | replace {station : Station} {history : List Mark} (context : Context) :
      Step ⟨station, .holding, history⟩
        ⟨{ station with slot := station.slot.setContext context }, .holding,
          .replaced context :: history⟩
  | interrupt {slot : Slot} {control : Control} {history : List Mark} {last : Context}
      (frame : Context) :
      Step ⟨⟨slot, ⟨.running, last⟩⟩, control, history⟩
        ⟨Station.step ⟨slot, ⟨.running, frame⟩⟩, control,
          Station.marks ⟨slot, ⟨.running, frame⟩⟩ ++ history⟩
  | advance {station : Station} {control : Control} {history : List Mark}
      (inside : station.target.stage ≠ .running) :
      Step ⟨station, control, history⟩ ⟨station.step, control, station.marks ++ history⟩

/-! ## What the history tells -/

/-- The last request was to `signal`. -/
def Requested (signal : Signal) (history : List Mark) : Prop :=
  ∃ since before, history = since ++ .published signal :: before ∧
    ∀ other, .published other ∉ since

/-- The last request was to `signal`, and it has been acknowledged since it was published. -/
def Answered (signal : Signal) (history : List Mark) : Prop :=
  ∃ since before, history = since ++ .published signal :: before ∧
    (∀ other, .published other ∉ since) ∧ .acked signal ∈ since

/-- The registers with which the other core was interrupted last. -/
def interrupted? : List Mark → Option Context
  | [] => none
  | .entered frame :: _ => some frame
  | _ :: earlier => interrupted? earlier

/-- The last context that the control core has stored since it observed the last freeze. -/
def replaced? : List Mark → Option Context
  | [] => none
  | .observed .freeze :: _ => none
  | .replaced context :: _ => some context
  | _ :: earlier => replaced? earlier

/-- What the other core is to go on with. -/
def resumption? (history : List Mark) : Option Context :=
  (replaced? history).or (interrupted? history)

/-- The other core does what it was requested to do last, and returns with what it is to go on with;
an acknowledgment that is observed is one of that request. -/
def Mark.Fits (earlier : List Mark) : Mark → Prop
  | published _ => True
  | observed signal => Answered signal earlier
  | replaced _ => Answered .freeze earlier
  | entered _ => Requested .freeze earlier
  | acked signal => Requested signal earlier
  | left frame => Answered .thaw earlier ∧ resumption? earlier = some frame

section History

variable {signal : Signal} {mark : Mark} {history : List Mark}

theorem requested_published (signal : Signal) (history : List Mark) :
    Requested signal (.published signal :: history) := ⟨[], history, rfl, by simp⟩

theorem Requested.cons (h : Requested signal history) (hmark : ∀ other, mark ≠ .published other) :
    Requested signal (mark :: history) := by
  obtain ⟨since, before, rfl, hlast⟩ := h
  refine ⟨mark :: since, before, rfl, fun other hmem => ?_⟩
  rcases List.mem_cons.1 hmem with rfl | hmem
  · exact hmark other rfl
  · exact hlast other hmem

theorem Requested.acked (h : Requested signal history) :
    Answered signal (.acked signal :: history) := by
  obtain ⟨since, before, rfl, hlast⟩ := h
  exact ⟨.acked signal :: since, before, rfl, by simpa using hlast, List.mem_cons_self⟩

theorem Answered.cons (h : Answered signal history) (hmark : ∀ other, mark ≠ .published other) :
    Answered signal (mark :: history) := by
  obtain ⟨since, before, rfl, hlast, hacked⟩ := h
  refine ⟨mark :: since, before, rfl, fun other hmem => ?_, List.mem_cons_of_mem mark hacked⟩
  rcases List.mem_cons.1 hmem with rfl | hmem
  · exact hmark other rfl
  · exact hlast other hmem

end History

/-! ## Where the two sides can be -/

/-- The places that the two sides can be at together. -/
inductive Phase : Session → Prop
  | free {ack : Option Signal} {context frame : Context} {history : List Mark}
      (answered : ∀ signal, ack = some signal → signal = .thaw ∧ Answered signal history) :
      Phase ⟨⟨⟨none, ack, context⟩, ⟨.running, frame⟩⟩, .free, history⟩
  | freezing {context frame : Context} {history : List Mark} :
      Phase ⟨⟨⟨none, none, context⟩, ⟨.running, frame⟩⟩, .posting .freeze, history⟩
  | requested {context frame : Context} {history : List Mark}
      (requested : Requested .freeze history) :
      Phase ⟨⟨⟨some .freeze, none, context⟩, ⟨.running, frame⟩⟩, .awaiting .freeze, history⟩
  | entered {context frame : Context} {history : List Mark}
      (requested : Requested .freeze history) (interrupted : interrupted? history = some frame) :
      Phase ⟨⟨⟨some .freeze, none, context⟩, ⟨.entered, frame⟩⟩, .awaiting .freeze, history⟩
  | stored {frame : Context} {history : List Mark}
      (requested : Requested .freeze history) (interrupted : interrupted? history = some frame) :
      Phase ⟨⟨⟨some .freeze, none, frame⟩, ⟨.stored, frame⟩⟩, .awaiting .freeze, history⟩
  | frozen {frame : Context} {history : List Mark}
      (answered : Answered .freeze history) (interrupted : interrupted? history = some frame) :
      Phase
        ⟨⟨⟨some .freeze, some .freeze, frame⟩, ⟨.waiting, frame⟩⟩, .awaiting .freeze, history⟩
  | held {context frame : Context} {history : List Mark}
      (answered : Answered .freeze history) (resumes : resumption? history = some context) :
      Phase ⟨⟨⟨some .freeze, some .freeze, context⟩, ⟨.waiting, frame⟩⟩, .holding, history⟩
  | thawing {context frame : Context} {history : List Mark}
      (resumes : resumption? history = some context) :
      Phase ⟨⟨⟨some .freeze, none, context⟩, ⟨.waiting, frame⟩⟩, .posting .thaw, history⟩
  | released {stage : Stage} {context frame : Context} {history : List Mark}
      (place : stage = .waiting ∨ stage = .released)
      (requested : Requested .thaw history) (resumes : resumption? history = some context) :
      Phase ⟨⟨⟨some .thaw, none, context⟩, ⟨stage, frame⟩⟩, .awaiting .thaw, history⟩
  | reloaded {context frame : Context} {history : List Mark}
      (requested : Requested .thaw history) (resumes : resumption? history = some frame) :
      Phase ⟨⟨⟨some .thaw, none, context⟩, ⟨.reloaded, frame⟩⟩, .awaiting .thaw, history⟩
  | cleared {context frame : Context} {history : List Mark}
      (requested : Requested .thaw history) (resumes : resumption? history = some frame) :
      Phase ⟨⟨⟨none, none, context⟩, ⟨.cleared, frame⟩⟩, .awaiting .thaw, history⟩
  | thawed {context frame : Context} {history : List Mark} (answered : Answered .thaw history) :
      Phase ⟨⟨⟨none, some .thaw, context⟩, ⟨.running, frame⟩⟩, .awaiting .thaw, history⟩

theorem phase_step {before after : Session} (h : Phase before) (step : Step before after) :
    Phase after := by
  cases step with
  | clear may =>
    cases h with
    | free =>
      cases may
      exact .freezing
    | held answered resumes =>
      cases may
      exact .thawing resumes
    | _ => cases may
  | publish =>
    cases h with
    | freezing => exact .requested (requested_published _ _)
    | thawing resumes => exact .released (.inl rfl) (requested_published _ _) resumes
  | observe acknowledged =>
    -- everywhere else the acknowledgment is still clear
    cases h with
    | frozen answered interrupted => exact .held (answered.cons nofun) interrupted
    | thawed answered =>
      refine .free fun signal hsignal => ?_
      cases hsignal
      exact ⟨rfl, answered.cons nofun⟩
    | _ => cases of_decide_eq_true acknowledged
  | replace context =>
    cases h with
    | held answered => exact .held (answered.cons nofun) rfl
  | interrupt frame =>
    -- a core that is kicked parks only where a freeze is published
    cases h with
    | free answered => exact .free answered
    | freezing => exact .freezing
    | requested requested => exact .entered (requested.cons nofun) rfl
    | thawed answered => exact .thawed answered
    | released place => rcases place with h | h <;> cases h
  | advance inside =>
    cases h with
    | free | freezing | requested | thawed => exact absurd rfl inside
    | entered requested interrupted => exact .stored requested interrupted
    | stored requested interrupted => exact .frozen requested.acked interrupted
    | frozen answered interrupted => exact .frozen answered interrupted
    | held answered resumes => exact .held answered resumes
    | thawing resumes => exact .thawing resumes
    | released place requested resumes =>
      rcases place with rfl | rfl
      · exact .released (.inr rfl) requested resumes
      · exact .reloaded requested resumes
    | reloaded requested resumes => exact .cleared requested resumes
    | cleared requested => exact .thawed (requested.acked.cons nofun)

/-! ## What was told -/

/-- What is acknowledged is the last request, and it was acknowledged since it was published. -/
theorem answered_of_acknowledged {session : Session} {signal : Signal} (h : Phase session)
    (acknowledged : session.station.slot.acknowledged signal = true) :
    Answered signal session.history := by
  have hack : session.station.slot.ack = some signal := of_decide_eq_true acknowledged
  cases h with
  | free answered => exact (answered signal hack).2
  | frozen answered | held answered | thawed answered => cases hack; exact answered
  | _ => cases hack

/-- Everything that was done fits what had been done before. -/
def Consistent (history : List Mark) : Prop :=
  ∀ mark earlier, mark :: earlier <:+ history → mark.Fits earlier

theorem Consistent.cons {history : List Mark} {mark : Mark} (h : Consistent history)
    (fits : mark.Fits history) : Consistent (mark :: history) := by
  intro last earlier hsuffix
  rcases List.suffix_cons_iff.1 hsuffix with heq | hsuffix
  · cases heq
    exact fits
  · exact h last earlier hsuffix

theorem consistent_step {before after : Session} (h : Phase before)
    (consistent : Consistent before.history) (step : Step before after) :
    Consistent after.history := by
  cases step with
  | clear => exact consistent
  | publish => exact consistent.cons trivial
  | replace =>
    cases h with
    | held answered => exact consistent.cons answered
  | observe acknowledged =>
    exact consistent.cons (answered_of_acknowledged h acknowledged)
  | interrupt frame =>
    cases h with
    | free | freezing | thawed => exact consistent
    | requested requested => exact consistent.cons requested
    | released place => rcases place with h | h <;> cases h
  | advance inside =>
    cases h with
    | free | freezing | requested | thawed => exact absurd rfl inside
    | stored requested => exact consistent.cons requested
    | cleared requested resumes =>
      have hacked : Consistent (.acked .thaw :: _) := consistent.cons requested
      exact hacked.cons ⟨requested.acked, resumes⟩
    | released place => rcases place with rfl | rfl <;> exact consistent
    | entered | frozen | held | thawing | reloaded => exact consistent

/-! ## What they may rely on -/

/-- What the control core may rely on wherever it looks at the slot, and the other core with it. -/
structure Safe (session : Session) : Prop where
  /-- No acknowledgment is left over from an earlier request. -/
  current : ∀ signal, session.station.slot.acknowledged signal = true →
    Answered signal session.history
  /-- A core that has acknowledged a freeze is inside its park routine. -/
  inside : session.station.slot.acknowledged .freeze = true → session.station.isParked = true
  /-- The context of a freeze that is observed is that with which the core was interrupted. -/
  interrupted : session.control = .awaiting .freeze →
    session.station.slot.acknowledged .freeze = true →
      session.station.slot.context = session.station.target.frame ∧
        interrupted? session.history = some session.station.slot.context
  /-- Until the thaw is published the core stays inside, and finds the context as it was left. -/
  held : session.control = .holding ∨ session.control = .posting .thaw →
    session.station.isParked = true ∧
      resumption? session.history = some session.station.slot.context
  /-- A core that has acknowledged a thaw goes on with its guest, and no request is outstanding. -/
  outside : session.station.slot.acknowledged .thaw = true →
    session.station.target.stage = .running ∧ session.station.slot.request = none
  /-- At every time in the past the core did what it was requested to do last, it was that request
  which was observed as acknowledged, and the core returned with the context stored last, or with
  its own registers where none was. -/
  consistent : Consistent session.history
  /-- The core answers by itself, so the control core does not wait for ever. -/
  answers : ∀ signal, session.control = .awaiting signal →
    (Station.steps 4 session.station).slot.acknowledged signal = true

theorem safe_of_phase {session : Session} (h : Phase session)
    (consistent : Consistent session.history) : Safe session where
  current _ := answered_of_acknowledged h
  inside acknowledged := by
    have hack : session.station.slot.ack = some .freeze := of_decide_eq_true acknowledged
    cases h with
    | free answered => cases (answered _ hack).1
    | frozen | held => rfl
    | _ => cases hack
  interrupted waits acknowledged := by
    have hack : session.station.slot.ack = some .freeze := of_decide_eq_true acknowledged
    cases h with
    | frozen _ interrupted => exact ⟨rfl, interrupted⟩
    | free | freezing | held | thawing | released | reloaded | cleared | thawed => cases waits
    | requested | entered | stored => cases hack
  held place := by
    cases h with
    | held _ resumes => exact ⟨rfl, resumes⟩
    | thawing resumes => exact ⟨rfl, resumes⟩
    | _ => rcases place with place | place <;> cases place
  outside acknowledged := by
    have hack : session.station.slot.ack = some .thaw := of_decide_eq_true acknowledged
    cases h with
    | free | thawed => exact ⟨rfl, rfl⟩
    | _ => cases hack
  consistent := consistent
  answers signal waits := by
    cases h with
    | free | freezing | held | thawing => cases waits
    | released place => rcases place with rfl | rfl <;> cases waits <;> rfl
    | requested | entered | stored | frozen | reloaded | cleared | thawed => cases waits; rfl

/-- For any number of rounds, in whatever order the accesses of the two sides come: what the control
core observes is the answer to its last request, a core it has frozen is inside its park routine and
has handed over the registers it was interrupted with, and the core goes on with what the control
core has stored last since, or with those registers where it has stored nothing. -/
theorem handshake {session : Session} (reachable : Relation.ReflTransGen Step {} session) :
    Safe session := by
  have hinvariant : Phase session ∧ Consistent session.history := by
    induction reachable with
    | refl => exact ⟨.free nofun, by simp [Consistent]⟩
    | tail _ step ih => exact ⟨phase_step ih.1 step, consistent_step ih.1 ih.2 step⟩
  exact safe_of_phase hinvariant.1 hinvariant.2

/-- A core is interrupted at one place, and is thawed to go on at another. -/
theorem handshake_round :
    ∃ session, Relation.ReflTransGen Step {} session ∧ Safe session ∧
      session.history = [.observed .thaw, .left { rip := 0x2000 }, .acked .thaw, .published .thaw,
        .replaced { rip := 0x2000 }, .observed .freeze, .acked .freeze,
        .entered { rip := 0x1000 }, .published .freeze] := by
  have hfrozen : Relation.ReflTransGen Step {}
      ⟨⟨⟨some .freeze, some .freeze, { rip := 0x1000 }⟩, ⟨.waiting, { rip := 0x1000 }⟩⟩, .holding,
        [.observed .freeze, .acked .freeze, .entered { rip := 0x1000 }, .published .freeze]⟩ :=
    (((((Relation.ReflTransGen.single (.clear rfl)).tail .publish).tail
      (.interrupt { rip := 0x1000 })).tail (.advance nofun)).tail (.advance nofun)).tail
      (.observe rfl)
  have hthawed : Relation.ReflTransGen Step {}
      ⟨⟨⟨none, some .thaw, { rip := 0x2000 }⟩, ⟨.running, { rip := 0x2000 }⟩⟩, .free, _⟩ :=
    (((((((hfrozen.tail (.replace { rip := 0x2000 })).tail (.clear rfl)).tail .publish).tail
      (.advance nofun)).tail (.advance nofun)).tail (.advance nofun)).tail (.advance nofun)).tail
      (.observe rfl)
  exact ⟨_, hthawed, handshake hthawed, rfl⟩

end Mailbox
end CellVisor
