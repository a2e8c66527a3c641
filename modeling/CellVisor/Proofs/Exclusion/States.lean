import CellVisor.Proofs.Image.Copy
import CellVisor.Proofs.Operation

/-!
# CellVisor.Proofs.Exclusion.States

At most one cell runs, at every moment of an operation. Each change of a state is announced by a
notice, so the notices of an operation tell through which states it goes.

* `Notice.follow`: the states after a notice.
* `tracked_hibernate`, `tracked_resume`, `tracked_switch`: the notices of each operation lead from
  the states before it to those after it, and at no moment between do both cells run.
-/

namespace CellVisor

def Cells.states (cells : Cells) : PerCell CellState := .of cells.state

def BothRun (states : PerCell CellState) : Prop :=
  states.linux = .running ∧ states.windows = .running

namespace Notice

/-- The states of both cells after a notice. -/
def follow (states : PerCell CellState) : Notice → PerCell CellState
  | cellEntered id _ target => states.set id target
  | cellFailed id _ => states.set id .error
  | _ => states

def Silent (notice : Notice) : Prop := ∀ states, follow states notice = states

end Notice

/-- The notices `log` lead from the states `before` to `after`, and at no moment, after any first
part of them, do both cells run. -/
structure Tracked (before : PerCell CellState) (log : List Notice) (after : PerCell CellState) :
    Prop where
  leads : log.foldl Notice.follow before = after
  apart : ∀ seen, seen <+: log → ¬ BothRun (seen.foldl Notice.follow before)

namespace Tracked

variable {before middle after : PerCell CellState} {first second log : List Notice}

theorem finish (h : Tracked before log after) : ¬ BothRun after := by
  rw [← h.leads]
  exact h.apart log (List.prefix_refl log)

theorem nil (h : ¬ BothRun before) : Tracked before [] before where
  leads := rfl
  apart := by
    intro seen hseen
    rw [List.prefix_nil.1 hseen]
    exact h

theorem append (h : Tracked before first middle) (h' : Tracked middle second after) :
    Tracked before (first ++ second) after where
  leads := by rw [List.foldl_append, h.leads, h'.leads]
  apart := by
    intro seen hseen
    rcases List.prefix_or_prefix_of_prefix hseen (List.prefix_append first second) with
      hshort | ⟨rest, rfl⟩
    · exact h.apart seen hshort
    · rw [List.foldl_append, h.leads]
      exact h'.apart rest ((List.prefix_append_right_inj first).1 hseen)

theorem cons {notice : Notice} (h : ¬ BothRun before)
    (h' : Tracked (notice.follow before) log after) : Tracked before (notice :: log) after where
  leads := h'.leads
  apart := by
    intro seen hseen
    rcases List.prefix_cons_iff.1 hseen with rfl | ⟨rest, rfl, hrest⟩
    · exact h
    · exact h'.apart rest hrest

theorem silent (h : ¬ BothRun before) (hsilent : ∀ notice ∈ log, notice.Silent) :
    Tracked before log before := by
  induction log with
  | nil => exact nil h
  | cons notice rest ih =>
    obtain ⟨hnotice, hrest⟩ := List.forall_mem_cons.1 hsilent
    refine cons h ?_
    rw [hnotice]
    exact ih hrest

end Tracked

/-! ## The parts of an operation -/

section Parts

variable {M : Type} [Machine M]

theorem silent_rendezvous (barrier : Barrier) (cores : CoreRange) (signal : Signal) :
    Action.Says Notice.Silent (barrier.rendezvous cores signal : Action M Unit) := by
  intro machine
  have hcourse := Barrier.rendezvous_cases barrier cores signal machine
  generalize barrier.rendezvous cores signal machine = reply at hcourse ⊢
  cases hcourse with
  | tooWide | refused | clockless | halted => simp
  | answered | timedOut =>
    intro notice h
    rw [List.mem_singleton] at h
    rw [h]
    exact fun _ => rfl

theorem silent_copy (target source size block : UInt64) :
    Action.Says Notice.Silent (Image.copy target source size block : Action M UInt32) := by
  intro machine notice h
  rw [Image.log_copy] at h
  cases h

theorem silent_loaded {cells : Cells} {id : CellId} {machine loaded : M} {log : List Notice}
    (load : Host.Loaded cells id machine loaded log) : ∀ notice ∈ log, notice.Silent := by
  cases load with
  | image _ copy => exact (silent_copy _ _ _ _).of_eq copy
  | start =>
    intro notice h
    rw [List.mem_singleton] at h
    rw [h]
    exact fun _ => rfl

end Parts

section Set

variable {states : PerCell CellState} {id : CellId}

theorem not_bothRun_set {target : CellState} (h : target ≠ .running) :
    ¬ BothRun (states.set id target) := by
  intro hboth
  cases id with
  | linux => exact h hboth.1
  | windows => exact h hboth.2

theorem not_bothRun_set_running (h : states.get id.other ≠ .running) :
    ¬ BothRun (states.set id .running) := by
  intro hboth
  cases id with
  | linux => exact h hboth.2
  | windows => exact h hboth.1

theorem states_set (cells : Cells) (id : CellId) (cell : Cell) :
    (cells.set id cell).states = cells.states.set id cell.state := by
  cases id <;> rfl

theorem states_moveTo (cells : Cells) (id : CellId) (target : CellState) :
    (cells.moveTo id target).states = cells.states.set id target := states_set _ _ _

theorem states_savedOn {M : Type} [Machine M] (cells : Cells) (id : CellId) (machine : M) :
    (cells.set id ((cells.get id).savedOn machine)).states = cells.states := by
  cases id <;> rfl

end Set

/-! ## Operations -/

section Operations

variable {M : Type} [Machine M] {host : Host M}

theorem tracked_failure {states : PerCell CellState} {id : CellId} (h : ¬ BothRun states)
    {notice : Notice} (hnotice : notice.Silent) (source : CellState) :
    Tracked states [notice, .cellFailed id source] (states.set id .error) := by
  refine .cons h ?_
  rw [hnotice]
  exact .cons h (.nil (not_bothRun_set (by simp)))

theorem tracked_hibernate (id : CellId) (h : ¬ BothRun host.cells.states) :
    Tracked host.cells.states (Host.hibernate id host).log
      (Host.hibernate id host).state.cells.states := by
  have hcases := Host.hibernate_cases id host
  generalize Host.hibernate id host = reply at hcases ⊢
  cases hcases with
  | refused => exact .nil h
  | freezeHalted _ freeze => exact .silent h ((silent_rendezvous _ _ _).of_eq freeze)
  | unfrozen _ freeze | crowded _ freeze =>
    rw [states_moveTo]
    exact (Tracked.silent h ((silent_rendezvous _ _ _).of_eq freeze)).append
      (tracked_failure h (fun _ => rfl) _)
  | copyHalted _ freeze _ copy =>
    rw [states_savedOn]
    exact (Tracked.silent h ((silent_rendezvous _ _ _).of_eq freeze)).append
      (.silent h ((silent_copy _ _ _ _).of_eq copy))
  | uncopied _ freeze _ copy =>
    rw [states_set]
    exact ((Tracked.silent h ((silent_rendezvous _ _ _).of_eq freeze)).append
      (.silent h ((silent_copy _ _ _ _).of_eq copy))).append (tracked_failure h (fun _ => rfl) _)
  | hibernated _ freeze _ copy =>
    have hslept : ¬ BothRun (host.cells.states.set id .hibernated) :=
      not_bothRun_set (by simp)
    rw [states_set]
    exact ((Tracked.silent h ((silent_rendezvous _ _ _).of_eq freeze)).append
      (.silent h ((silent_copy _ _ _ _).of_eq copy))).append (.cons h (.cons hslept (.nil hslept)))

theorem tracked_resume (id : CellId) (h : ¬ BothRun host.cells.states) :
    Tracked host.cells.states (Host.resume id host).log
      (Host.resume id host).state.cells.states := by
  have hcases := Host.resume_cases id host
  generalize Host.resume id host = reply at hcases ⊢
  cases hcases with
  | refused | coreless => exact .nil h
  | contended => exact .cons h (.nil h)
  | copyHalted _ _ copy => exact .silent h ((silent_copy _ _ _ _).of_eq copy)
  | uncopied _ _ copy =>
    rw [states_moveTo]
    exact (Tracked.silent h ((silent_copy _ _ _ _).of_eq copy)).append
      (tracked_failure h (fun _ => rfl) _)
  | thawHalted _ load thaw =>
    exact (Tracked.silent h (silent_loaded load)).append
      (.silent h ((silent_rendezvous _ _ _).of_eq thaw))
  | unthawed _ load thaw =>
    rw [states_moveTo]
    exact ((Tracked.silent h (silent_loaded load)).append
      (.silent h ((silent_rendezvous _ _ _).of_eq thaw))).append
      (tracked_failure h (fun _ => rfl) _)
  | resumed ready load thaw =>
    have hget : host.cells.states.get id.other = host.cells.state id.other := PerCell.get_of _ _
    have hwoke : ¬ BothRun (host.cells.states.set id .running) := by
      refine not_bothRun_set_running ?_
      rw [hget]
      exact ready.alone
    rw [states_moveTo]
    exact ((Tracked.silent h (silent_loaded load)).append
      (.silent h ((silent_rendezvous _ _ _).of_eq thaw))).append
      (.cons h (.cons hwoke (.nil hwoke)))

theorem tracked_switch {shared : SharedHost M} (h : ¬ BothRun shared.host.cells.states) :
    Tracked shared.host.cells.states (SharedHost.switch shared).log
      (SharedHost.switch shared).state.host.cells.states := by
  have hfirst := tracked_hibernate shared.coordinator.active h
  have hcases := SharedHost.switch_cases shared
  generalize SharedHost.switch shared = reply at hcases ⊢
  cases hcases with
  | refused => exact .cons h (.nil h)
  | targetless => exact .nil h
  | hibernateHalted _ hibernate =>
    rw [hibernate] at hfirst
    exact .cons h hfirst
  | aborted _ hibernate =>
    rw [hibernate] at hfirst
    exact .cons h (hfirst.append (.cons hfirst.finish (.nil hfirst.finish)))
  | resumeHalted _ hibernate resume | uncounted _ hibernate resume
  | clockless _ hibernate resume =>
    rw [hibernate] at hfirst
    have hsecond := tracked_resume shared.coordinator.active.other hfirst.finish
    rw [resume] at hsecond
    exact .cons h (hfirst.append hsecond)
  | failed _ hibernate resume | completed _ hibernate resume =>
    rw [hibernate] at hfirst
    have hsecond := tracked_resume shared.coordinator.active.other hfirst.finish
    rw [resume] at hsecond
    exact .cons h (hfirst.append
      (hsecond.append (.cons hsecond.finish (.nil hsecond.finish))))

end Operations
end CellVisor
