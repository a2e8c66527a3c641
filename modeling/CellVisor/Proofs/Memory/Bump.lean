import CellVisor.Memory.Bump
import CellVisor.Proofs.Action
import CellVisor.Proofs.Config.Layout

/-!
# CellVisor.Proofs.Memory.Bump

What a bump allocator hands out in any run of requests. The cursor carries it all: what has been
handed out ends at it or before, and what will be handed out begins at it or after.

* `alignUp?_eq_some`, `place?_eq_some_iff`: where the next block is.
* `allocateAligned_cases`: how an allocation ends.
* `Ledger`: an allocator and the answers that it has given; `serve` takes the next request.
* `Lawful`: what the allocator of a region and its answers have in common, which every request keeps
  (`settled_serve`).
* `run_accounted`: the blocks of a run are inside the region, aligned, in order and apart, and the
  statistics count them.
-/

namespace CellVisor
namespace Bump

/-! ## One request -/

theorem alignUp?_eq_some {address align base : UInt64} (power : Word.isPowerOfTwo align = true)
    (h : alignUp? address align = some base) :
    address.toNat ≤ base.toNat ∧ base.toNat < address.toNat + align.toNat ∧
      base.toNat % align.toNat = 0 := by
  have hpos := Word.pos_of_isPowerOfTwo power
  unfold alignUp? at h
  split at h
  · rename_i haligned
    cases h
    have hmod := congrArg UInt64.toNat haligned
    rw [UInt64.toNat_mod, UInt64.toNat_zero] at hmod
    omega
  · obtain ⟨sum, hsum, rfl⟩ := Option.map_eq_some_iff.1 h
    have hpred := Word.toNat_pred_of_isPowerOfTwo power
    have htotal := Word.toNat_add? hsum
    have hlow := Nat.mod_lt sum.toNat hpos
    rw [Word.toNat_and_not_pred power]
    refine ⟨by omega, by omega, ?_⟩
    exact Nat.mod_eq_zero_of_dvd (Nat.dvd_sub_mod sum.toNat)

theorem place?_eq_some_iff {bump : Bump} {size align base next : UInt64} :
    bump.place? size align = some (base, next) ↔
      alignUp? bump.cursor align = some base ∧ base.toNat + size.toNat = next.toNat ∧
        next ≤ bump.stop := by
  unfold place?
  cases alignUp? bump.cursor align with
  | none => simp
  | some first =>
    simp only [Option.some.injEq, ← Word.add?_eq_some_iff]
    constructor
    · intro h
      cases hsum : Word.add? first size with
      | none =>
        rw [hsum] at h
        cases h
      | some sum =>
        rw [hsum] at h
        dsimp only at h
        split at h
        · rename_i hstop
          cases h
          exact ⟨rfl, hsum, hstop⟩
        · cases h
    · rintro ⟨rfl, hsum, hstop⟩
      rw [hsum]
      exact if_pos hstop

/-- How a request for `size` bytes with this alignment ends. -/
inductive Allocation (size align : UInt64) (bump : Bump) : Reply Bump UInt64 → Prop
  | empty (zero : size = 0) :
      Allocation size align bump ⟨.error (.config .zeroSizedAllocation), bump, []⟩
  | unaligned (nonzero : size ≠ 0) (power : ¬ Word.isPowerOfTwo align = true) :
      Allocation size align bump ⟨.error (.config .alignmentNotPowerOfTwo), bump, []⟩
  | refused {failures : UInt64} (full : bump.place? size align = none)
      (count : Word.add? bump.failures 1 = some failures) :
      Allocation size align bump
        ⟨.error .resourceExhausted, { bump with failures },
          [.allocationRefused size (bump.stop - bump.cursor)]⟩
  /-- There is one refusal more than a word counts. -/
  | uncounted (full : bump.place? size align = none)
      (count : Word.add? bump.failures 1 = none) :
      Allocation size align bump ⟨.fault .overflow, bump, []⟩
  | placed {base next allocations : UInt64} (nonzero : size ≠ 0)
      (power : Word.isPowerOfTwo align = true) (room : bump.place? size align = some (base, next))
      (count : Word.add? bump.allocations 1 = some allocations) :
      Allocation size align bump ⟨.ok base, { bump with cursor := next, allocations }, []⟩
  /-- There is one block more than a word counts. -/
  | overrun {base next : UInt64} (nonzero : size ≠ 0) (power : Word.isPowerOfTwo align = true)
      (room : bump.place? size align = some (base, next))
      (count : Word.add? bump.allocations 1 = none) :
      Allocation size align bump ⟨.fault .overflow, bump, []⟩

theorem allocateAligned_cases (size align : UInt64) (bump : Bump) :
    Allocation size align bump (allocateAligned size align bump) := by
  unfold allocateAligned
  split
  · rename_i zero
    exact .empty zero
  · rename_i nonzero
    split
    · rename_i power
      exact .unaligned nonzero (by simpa using power)
    · rename_i power
      dsimp only
      rw [Action.bind_of_ok (Action.get_apply bump), Reply.after_nil]
      cases room : bump.place? size align with
      | none =>
        cases count : Word.add? bump.failures 1 with
        | none => exact .uncounted room count
        | some failures => exact .refused room count
      | some place =>
        cases count : Word.add? bump.allocations 1 with
        | none => exact .overrun nonzero (by simpa using power) room count
        | some allocations => exact .placed nonzero (by simpa using power) room count

/-! ## Ledgers -/

/-- A call of an allocator. -/
inductive Request
  | allocate (size : UInt64)
  | allocateAligned (size align : UInt64)
  | free (address size : UInt64)
  deriving Repr, DecidableEq

namespace Request

def size : Request → UInt64
  | allocate size | allocateAligned size _ | free _ size => size

/-- Every address will do where no alignment is asked for. -/
def align : Request → UInt64
  | allocateAligned _ align => align
  | allocate _ | free _ _ => 1

end Request

/-- A request for memory, and the address or the error that it was answered with. -/
structure Entry where
  request : Request
  answer : Except Error UInt64

/-- Memory that has been handed out. -/
structure Block extends Extent where
  align : UInt64
  deriving Repr, DecidableEq

namespace Entry

def block? (entry : Entry) : Option Block :=
  match entry.answer with
  | .ok base => some ⟨⟨base, entry.request.size⟩, entry.request.align⟩
  | .error _ => none

/-- The memory had run out. -/
def refused (entry : Entry) : Bool :=
  match entry.answer with
  | .error .resourceExhausted => true
  | _ => false

end Entry

/-- The state of an allocator, and its answers so far in the order of the requests. -/
structure Ledger (σ : Type) where
  state : σ
  entries : List Entry := []

namespace Ledger

variable {σ : Type}

/-- What has been handed out, the first first. -/
def blocks (ledger : Ledger σ) : List Block := ledger.entries.filterMap Entry.block?

/-- How often the memory had run out. -/
def refusals (ledger : Ledger σ) : Nat := ledger.entries.countP Entry.refused

/-- Enters what a request for memory is answered with. -/
def enter (request : Request) (entries : List Entry) (reply : Reply σ UInt64) :
    Reply (Ledger σ) Unit :=
  match reply.outcome with
  | .ok base => ⟨.ok (), ⟨reply.state, entries ++ [⟨request, .ok base⟩]⟩, reply.log⟩
  | .error error => ⟨.ok (), ⟨reply.state, entries ++ [⟨request, .error error⟩]⟩, reply.log⟩
  | .fault fault => ⟨.fault fault, ⟨reply.state, entries⟩, reply.log⟩

def record (request : Request) (action : Action σ UInt64) : Action (Ledger σ) Unit :=
  fun ledger => enter request ledger.entries (action ledger.state)

/-- Makes a change that nobody waits for. -/
def change (step : σ → σ) : Action (Ledger σ) Unit :=
  Action.update fun ledger => { ledger with state := step ledger.state }

section Append

variable (state : σ) (ledger : Ledger σ) (entry : Entry)

theorem blocks_append :
    (⟨state, ledger.entries ++ [entry]⟩ : Ledger σ).blocks =
      ledger.blocks ++ entry.block?.toList := by
  unfold blocks
  rw [List.filterMap_append]
  cases h : entry.block? <;> simp [h]

theorem refusals_append :
    (⟨state, ledger.entries ++ [entry]⟩ : Ledger σ).refusals =
      ledger.refusals + entry.refused.toNat := by
  unfold refusals
  rw [List.countP_append]
  cases h : entry.refused <;> simp [h]

end Append
end Ledger

/-- Takes a request, and enters the answer if memory is asked for. -/
def serve : Request → Action (Ledger Bump) Unit
  | .allocate size => Ledger.record (.allocate size) (allocate size)
  | .allocateAligned size align =>
    Ledger.record (.allocateAligned size align) (allocateAligned size align)
  | .free address size => Ledger.change (free address size)

/-! ## What an allocator and its answers have in common -/

/-- The blocks that the allocator of a region has handed out are apart and in order, inside the
region and before the cursor, and it has counted them and its refusals. -/
structure Lawful (extent : Extent) (bump : Bump) (blocks : List Block) (refusals : Nat) :
    Prop where
  start : bump.start = extent.base
  stop : bump.stop = extent.stop
  base_le : extent.base.toNat ≤ bump.cursor.toNat
  le_stop : bump.cursor.toNat ≤ extent.stop.toNat
  handed : ∀ block ∈ blocks,
    0 < block.size.toNat ∧ extent.base.toNat ≤ block.base.toNat ∧
      block.base.toNat + block.size.toNat ≤ bump.cursor.toNat ∧
      block.base.toNat % block.align.toNat = 0
  ordered : blocks.Pairwise fun a b => a.base.toNat + a.size.toNat ≤ b.base.toNat
  allocations : bump.allocations.toNat = blocks.length
  failures : bump.failures.toNat = refusals
  /-- Each block has taken a byte at least. -/
  few : blocks.length ≤ bump.cursor.toNat - extent.base.toNat

theorem lawful_ofExtent (extent : Extent) : Lawful extent (.ofExtent extent) [] 0 where
  start := rfl
  stop := rfl
  base_le := Nat.le_refl _
  le_stop := by
    have hbase := extent.base.toNat_lt_size
    show extent.base.toNat ≤ _
    rw [Extent.toNat_stop]
    omega
  handed := by
    intro block h
    cases h
  ordered := .nil
  allocations := rfl
  failures := rfl
  few := Nat.zero_le _

namespace Lawful

variable {extent : Extent} {bump : Bump} {blocks : List Block} {refusals : Nat}

/-- The next block begins where the others have ended. -/
theorem placed (h : Lawful extent bump blocks refusals) {size align base next allocations : UInt64}
    (nonzero : size ≠ 0) (power : Word.isPowerOfTwo align = true)
    (room : bump.place? size align = some (base, next))
    (count : Word.add? bump.allocations 1 = some allocations) :
    Lawful extent { bump with cursor := next, allocations } (blocks ++ [⟨⟨base, size⟩, align⟩])
      refusals := by
  obtain ⟨hbase, hnext, hstop⟩ := place?_eq_some_iff.1 room
  obtain ⟨hcursor, -, haligned⟩ := alignUp?_eq_some power hbase
  have hsize := Word.ne_zero_iff.1 nonzero
  have hlow := h.base_le
  have hfew := h.few
  rw [h.stop, UInt64.le_iff_toNat_le] at hstop
  constructor
  case start => exact h.start
  case stop => exact h.stop
  case base_le =>
    show extent.base.toNat ≤ next.toNat
    omega
  case le_stop => exact hstop
  case handed =>
    intro block hblock
    rcases List.mem_append.1 hblock with hblock | hblock
    · have hhanded := h.handed block hblock
      dsimp only
      omega
    · rw [List.mem_singleton.1 hblock]
      dsimp only
      omega
  case ordered =>
    refine List.pairwise_append.2 ⟨h.ordered, List.pairwise_singleton _ _, ?_⟩
    -- every other block ends at the old cursor or before, and the new one does not begin before it
    intro block hblock other hother
    have hhanded := h.handed block hblock
    rw [List.mem_singleton.1 hother]
    dsimp only
    omega
  case allocations =>
    rw [List.length_append, List.length_singleton, ← h.allocations]
    exact Word.toNat_add? count
  case failures => exact h.failures
  case few =>
    rw [List.length_append, List.length_singleton]
    dsimp only
    omega

theorem refused (h : Lawful extent bump blocks refusals) {failures : UInt64}
    (count : Word.add? bump.failures 1 = some failures) :
    Lawful extent { bump with failures } blocks (refusals + 1) :=
  { h with
    failures := by
      rw [← h.failures]
      exact Word.toNat_add? count }

/-- There are fewer blocks than bytes before the cursor, so the blocks can be counted. -/
theorem count_ne_none (h : Lawful extent bump blocks refusals) {size align base next : UInt64}
    (nonzero : size ≠ 0) (power : Word.isPowerOfTwo align = true)
    (room : bump.place? size align = some (base, next)) :
    Word.add? bump.allocations 1 ≠ none := by
  obtain ⟨hbase, hnext, -⟩ := place?_eq_some_iff.1 room
  obtain ⟨hcursor, -⟩ := alignUp?_eq_some power hbase
  have hsize := Word.ne_zero_iff.1 nonzero
  have hallocations := h.allocations
  have hfew := h.few
  have hend := next.toNat_lt_size
  rw [ne_eq, Word.add?_eq_none_iff, UInt64.toNat_one]
  omega

/-- The two differences that the statistics form do not wrap. -/
theorem toNat_stats (h : Lawful extent bump blocks refusals) :
    bump.stats.used.toNat = bump.cursor.toNat - extent.base.toNat ∧
      bump.stats.remaining.toNat = extent.stop.toNat - bump.cursor.toNat := by
  unfold stats
  rw [h.start, h.stop, UInt64.toNat_sub_of_le _ _ (UInt64.le_iff_toNat_le.2 h.base_le),
    UInt64.toNat_sub_of_le _ _ (UInt64.le_iff_toNat_le.2 h.le_stop)]
  exact ⟨rfl, rfl⟩

end Lawful

/-! ## Runs -/

theorem serve_cases (request : Request) (ledger : Ledger Bump) :
    serve request ledger = ⟨.ok (), ledger, []⟩ ∨
      ∃ reply, Allocation request.size request.align ledger.state reply ∧
        serve request ledger = Ledger.enter request ledger.entries reply := by
  cases request with
  | allocate size => exact .inr ⟨_, allocateAligned_cases size 1 ledger.state, rfl⟩
  | allocateAligned size align => exact .inr ⟨_, allocateAligned_cases size align _, rfl⟩
  | free address size => exact .inl rfl

/-- The ledger agrees with the allocator of the region. -/
def Ledger.Settled (extent : Extent) (ledger : Ledger Bump) : Prop :=
  Lawful extent ledger.state ledger.blocks ledger.refusals

theorem Ledger.settled_append {extent : Extent} {ledger : Ledger Bump} {state : Bump}
    {entry : Entry} :
    Ledger.Settled extent ⟨state, ledger.entries ++ [entry]⟩ ↔
      Lawful extent state (ledger.blocks ++ entry.block?.toList)
        (ledger.refusals + entry.refused.toNat) := by
  unfold Settled
  rw [blocks_append, refusals_append]

theorem settled_fresh (extent : Extent) :
    Ledger.Settled extent ⟨.ofExtent extent, []⟩ := lawful_ofExtent extent

theorem settled_serve (extent : Extent) (request : Request) :
    Action.Keeps (Ledger.Settled extent) (serve request) := by
  intro ledger h
  rcases serve_cases request ledger with hserve | ⟨reply, hcases, hserve⟩
  · rw [hserve]
    exact h
  · have hlawful : Lawful extent ledger.state ledger.blocks ledger.refusals := h
    rw [hserve]
    cases hcases with
    | uncounted | overrun => exact h
    | empty | unaligned =>
      exact Ledger.settled_append.2 (by simpa [Entry.block?, Entry.refused] using hlawful)
    | refused full count =>
      have hrefused := hlawful.refused count
      exact Ledger.settled_append.2 (by simpa [Entry.block?, Entry.refused] using hrefused)
    | placed nonzero power room count =>
      exact Ledger.settled_append.2 (hlawful.placed nonzero power room count)

/-- Only a refusal that cannot be counted halts. -/
theorem halted_of_serve {extent : Extent} {request : Request} {ledger : Ledger Bump}
    (h : ledger.Settled extent) {fault : Fault}
    (halted : (serve request ledger).outcome = .fault fault) :
    (serve request ledger).state = ledger ∧ ledger.refusals + 1 = UInt64.size ∧
      ledger.state.place? request.size request.align = none := by
  rcases serve_cases request ledger with hserve | ⟨reply, hcases, hserve⟩
  · rw [hserve] at halted
    cases halted
  · rw [hserve] at halted ⊢
    cases hcases with
    | empty | unaligned | refused | placed => cases halted
    | uncounted full count =>
      have hfailures := h.failures
      have hsize := ledger.state.failures.toNat_lt_size
      rw [Word.add?_eq_none_iff, UInt64.toNat_one] at count
      exact ⟨rfl, by omega, full⟩
    | overrun nonzero power room count => exact absurd count (h.count_ne_none nonzero power room)

/-- A request that is answered with an error moves nothing. -/
theorem unmoved_of_serve {request : Request} {ledger : Ledger Bump} {error : Error}
    (h : (serve request ledger).state.entries = ledger.entries ++ [⟨request, .error error⟩]) :
    (serve request ledger).state.state.cursor = ledger.state.cursor ∧
      (serve request ledger).state.state.allocations = ledger.state.allocations := by
  rcases serve_cases request ledger with hserve | ⟨reply, hcases, hserve⟩
  · rw [hserve]
    exact ⟨rfl, rfl⟩
  · rw [hserve] at h ⊢
    cases hcases with
    | empty | unaligned | refused | uncounted | overrun => exact ⟨rfl, rfl⟩
    | placed => simp [Ledger.enter] at h

/-- The requests of a list, one after the other, to the allocator of a region. -/
def run (extent : Extent) (requests : List Request) : Reply (Ledger Bump) Unit :=
  Action.attemptEach serve requests ⟨.ofExtent extent, []⟩

theorem settled_run (extent : Extent) (requests : List Request) :
    (run extent requests).state.Settled extent :=
  Action.keeps_attemptEach (settled_serve extent) requests _ (settled_fresh extent)

/-- Whatever is asked of the allocator of a region, every request is answered, unless one does not
fit after as many refusals as a word counts. The cursor stays inside the region; the blocks are
inside it too, aligned as requested, in the order of the requests and apart. The bytes used and left
add up to the region, and the counters say how many blocks there are and how often the memory had
run out. An error leaves the cursor and the count of the blocks as they were, and a release leaves
everything as it was. -/
theorem run_accounted (extent : Extent) (requests : List Request) :
    let ledger := (run extent requests).state
    let bump := ledger.state
    ((run extent requests).outcome = .ok () ∨
        ∃ earlier request later, requests = earlier ++ request :: later ∧
          (run extent earlier).outcome = .ok () ∧ (run extent earlier).state = ledger ∧
          ledger.refusals + 1 = UInt64.size ∧
          bump.place? request.size request.align = none) ∧
      (bump.start = extent.base ∧ bump.stop = extent.stop) ∧
      (bump.start ≤ bump.cursor ∧ bump.cursor ≤ bump.stop) ∧
      (∀ block ∈ ledger.blocks,
        extent.base.toNat ≤ block.base.toNat ∧
          block.base.toNat + block.size.toNat ≤ extent.stop.toNat ∧
          block.base % block.align = 0) ∧
      (ledger.blocks.Pairwise fun a b => a.base < b.base ∧ a.toExtent.Apart b.toExtent) ∧
      bump.stats.used.toNat + bump.stats.remaining.toNat =
        extent.stop.toNat - extent.base.toNat ∧
      bump.stats.allocations.toNat = ledger.blocks.length ∧
      bump.stats.failures.toNat = ledger.refusals ∧
      bump.stats.allocations ≤ bump.stats.used ∧
      (∀ request error,
        (serve request ledger).state.entries = ledger.entries ++ [⟨request, .error error⟩] →
          (serve request ledger).state.state.cursor = bump.cursor ∧
            (serve request ledger).state.state.allocations = bump.allocations) ∧
      ∀ address size, (serve (.free address size) ledger).state = ledger := by
  intro ledger bump
  have h : Lawful extent bump ledger.blocks ledger.refusals := settled_run extent requests
  obtain ⟨hused, hremaining⟩ := h.toNat_stats
  have hbase := h.base_le
  have hstop := h.le_stop
  refine ⟨?answered, ⟨h.start, h.stop⟩, ?cursor, ?inside, ?ordered, by omega, h.allocations,
    h.failures, ?counted, fun _ _ => unmoved_of_serve, fun _ _ => rfl⟩
  case answered =>
    refine (Action.ends_attemptEach serve requests _).imp_right ?_
    rintro ⟨earlier, request, later, fault, hrequests, hearlier, halted, hstate⟩
    obtain ⟨hsame, hcount, hfull⟩ := halted_of_serve (settled_run extent earlier) halted
    have hledger : (run extent earlier).state = ledger := hsame.symm.trans hstate
    rw [hledger] at hcount hfull
    exact ⟨earlier, request, later, hrequests, hearlier, hledger, hcount, hfull⟩
  case cursor =>
    rw [h.start, h.stop, UInt64.le_iff_toNat_le, UInt64.le_iff_toNat_le]
    exact ⟨hbase, hstop⟩
  case inside =>
    intro block hblock
    obtain ⟨-, hlow, hhigh, haligned⟩ := h.handed block hblock
    refine ⟨hlow, Nat.le_trans hhigh hstop, UInt64.toNat_inj.1 ?_⟩
    rw [UInt64.toNat_mod, haligned, UInt64.toNat_zero]
  case ordered =>
    refine h.ordered.imp_of_mem ?_
    intro a b ha _ hab
    have hpos := (h.handed a ha).1
    refine ⟨UInt64.lt_iff_toNat_lt.2 ?_, .inl hab⟩
    omega
  case counted =>
    rw [UInt64.le_iff_toNat_le, hused]
    show bump.allocations.toNat ≤ _
    rw [h.allocations]
    exact h.few

/-- The second block begins at the next page. No alignment is three. -/
example :
    (run ⟨0x1000, 0x2000⟩
        [.allocate 1, .allocateAligned 0x10 0x1000, .allocateAligned 0x10 3]).state.blocks =
      [⟨⟨0x1000, 1⟩, 1⟩, ⟨⟨0x2000, 0x10⟩, 0x1000⟩] := by
  decide

end Bump
end CellVisor
