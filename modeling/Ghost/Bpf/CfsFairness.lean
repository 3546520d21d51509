import Ghost.Bpf.CfsMetering
import Ghost.Bpf.CfsStatistics

/-!
# Fairness of the CFS run queue

The virtual runtime of a thread grows by its charges as long as the minimum that is added when a
thread is put back equals what the thread owes when it leaves the CPU. The minimum itself never
decreases.
-/

set_option autoImplicit false

namespace Ghost.Bpf

open Lib

section Runs

variable {state : MeteredCpu}

namespace MeteredCpu

private theorem initial_inOrder (starts : meteredCpu.initial state) : state.InOrder := by
  obtain ⟨isInitial, isEmpty⟩ := starts
  obtain ⟨items, books⟩ := CfsCpu.initial_inOrder isInitial
  obtain ⟨-, noCurrent, noPcpu, -, -, -, -⟩ := isInitial
  constructor
  · constructor
    · exact ⟨items, books.queue⟩
    · exact noPcpu.trans noCurrent.symm
    · exact fun isSet => absurd noCurrent isSet
    · rw [isEmpty]
      exact fun gtid isPlaced => absurd rfl isPlaced
  · intro gtid thread placed _ isPlaced
    rw [isEmpty] at isPlaced
    cases isPlaced

/-- A step is what its event makes of the state. -/
theorem meters_of_step (inOrder : state.InOrder) {event : CfsEvent} {next : MeteredCpu}
    (moved : meteredCpu.step state event next) :
    next.Seated ∧ ((∀ gtid, next.Accounted gtid) ↔ state.Charges event) := by
  obtain ⟨stays, ⟨sends, isCpu⟩, isAccounts⟩ := moved
  obtain ⟨cpu, accounts⟩ := next
  dsimp only at isCpu isAccounts
  have isAfter : state.after event = ⟨cpu, accounts⟩ := after_eq isCpu.symm isAccounts.symm
  have meters := inOrder.meters stays sends
  rw [← isAfter]
  exact ⟨meters.seated, meters.accounted_iff⟩

end MeteredCpu

end Runs

/-- The minimum never decreases; and in every run whose events charge what is due, each thread
has been charged for the intervals for which it ran since it was placed. An event after which
this still holds is one that charges what is due. -/
theorem vruntime_accounted (state : MeteredCpu) :
    (∀ event next, meteredCpu.step state event next →
      Advances state.cpu.cfs.minVruntime next.cpu.cfs.minVruntime) ∧
    ((meteredCpu.restrict MeteredCpu.Charges).Reachable state →
      (∀ gtid, state.Accounted gtid) ∧
      ∀ event next, meteredCpu.step state event next →
        ((∀ gtid, next.Accounted gtid) ↔ state.Charges event)) := by
  constructor
  · intro event next moved
    obtain ⟨-, ⟨-, isCpu⟩, -⟩ := moved
    rw [isCpu]
    exact state.cpu.handle_advances event
  · intro reachable
    have inOrder : state.InOrder := by
      apply reachable.invariant MeteredCpu.InOrder
      · exact fun first starts => MeteredCpu.initial_inOrder starts
      · intro first event next inOrder moved
        obtain ⟨charges, moved⟩ := moved
        obtain ⟨seated, accounted_iff⟩ := MeteredCpu.meters_of_step inOrder moved
        exact ⟨seated, accounted_iff.mpr charges⟩
    exact ⟨inOrder.accounted, fun event next moved => (MeteredCpu.meters_of_step inOrder moved).2⟩

/-! ## A thread that yields -/

def freshMeteredCpu : MeteredCpu := ⟨freshCpu, .empty⟩

def announceFirst : CfsEvent := .new 1 0 1 false false 10 11

def wakeFirst : CfsEvent := .wakeup 1 2 12 13

/-- The first thread runs from 20 on. -/
def firstRuns : MeteredCpu :=
  ((freshMeteredCpu.after announceFirst).after wakeFirst).after pickThread

def announceSecond : CfsEvent := .new 2 1 1 false false 22 23

def wakeSecond : CfsEvent := .wakeup 2 2 29 30

def firstYields (now : BitVec 64) : CfsEvent := .yield 1 3 now (now + 1)

theorem MeteredCpu.after_reachable {state : MeteredCpu}
    (reachable : (meteredCpu.restrict MeteredCpu.Charges).Reachable state) (event : CfsEvent)
    (charges : state.Charges event) (stays : event.Stays) (sends : state.cpu.Sends event) :
    (meteredCpu.restrict MeteredCpu.Charges).Reachable (state.after event) := by
  have moved : meteredCpu.step state event (state.after event) := ⟨stays, ⟨sends, rfl⟩, rfl⟩
  exact reachable.step ⟨charges, moved⟩

private theorem placed_absent {gtid : BitVec 64} (different : gtid ≠ 1) :
    ((freshMeteredCpu.after announceFirst).after wakeFirst).cpu.phase gtid = .absent := by
  have announced : (freshMeteredCpu.after announceFirst).cpu.phase gtid = .absent :=
    Function.update_of_ne different ..
  have woken : ((freshMeteredCpu.after announceFirst).after wakeFirst).cpu.phase gtid =
      (freshMeteredCpu.after announceFirst).cpu.phase gtid := Function.update_of_ne different ..
  exact woken.trans announced

private theorem firstRuns_absent {gtid : BitVec 64} (different : gtid ≠ 1) :
    firstRuns.cpu.phase gtid = .absent := by
  have started : firstRuns.cpu.phase gtid =
      ((freshMeteredCpu.after announceFirst).after wakeFirst).cpu.phase gtid :=
    Function.update_of_ne different ..
  exact started.trans (placed_absent different)

theorem firstRuns_reachable : (meteredCpu.restrict MeteredCpu.Charges).Reachable firstRuns := by
  have fresh : (meteredCpu.restrict MeteredCpu.Charges).Reachable freshMeteredCpu :=
    ⟨freshMeteredCpu, [], ⟨freshCpu_initial, rfl⟩, .nil _⟩
  have announced := MeteredCpu.after_reachable fresh announceFirst trivial trivial
    (.inl ⟨rfl, fun _ present => absurd rfl present⟩)
  have woken := MeteredCpu.after_reachable announced wakeFirst trivial trivial rfl
  have idle : ((freshMeteredCpu.after announceFirst).after wakeFirst).cpu.Sends pickThread := by
    rintro ⟨gtid, runs⟩
    by_cases isFirst : gtid = 1
    · rw [isFirst] at runs
      cases runs
    · rw [placed_absent isFirst] at runs
      cases runs
  exact MeteredCpu.after_reachable woken pickThread trivial trivial idle

/-- The first thread is charged for ten units when the second one wakes up, and so many is the
minimum then; it runs for another ten. -/
theorem firstRuns_charged :
    (((firstRuns.after announceSecond).after wakeSecond).after
      (firstYields 40)).accounts.placed 1 = some 0 ∧
    (((firstRuns.after announceSecond).after wakeSecond).after
      (firstYields 40)).accounts.charges 1 = [20] ∧
    MeteredCpu.Accounted (((firstRuns.after announceSecond).after wakeSecond).after
      (firstYields 40)) 1 := by
  refine ⟨by decide +kernel, by decide +kernel, ((vruntime_accounted _).2 ?_).1 1⟩
  have isNew : firstRuns.cpu.Sends announceSecond := by
    refine .inl ⟨firstRuns_absent (by decide), ?_⟩
    intro other present
    by_cases isFirst : other = 1
    · rw [isFirst]
      decide +kernel
    · exact absurd (firstRuns_absent isFirst) present
  have announced := MeteredCpu.after_reachable firstRuns_reachable announceSecond trivial trivial
    isNew
  have woken := MeteredCpu.after_reachable announced wakeSecond trivial trivial rfl
  refine MeteredCpu.after_reachable woken (firstYields 40) ?_ trivial rfl
  intro thread owns _
  have isThread : ((firstRuns.after announceSecond).after wakeSecond).cpu.cfs.gtidToThread 1 =
      some ⟨0, by decide⟩ := by
    decide +kernel
  obtain rfl := Option.some.inj (isThread.symm.trans owns)
  decide +kernel

/-- A thread that yields is not charged for the time for which it ran. -/
theorem firstYields_uncharged :
    meteredCpu.Reachable (firstRuns.after (firstYields 30)) ∧
    ¬ MeteredCpu.Accounted (firstRuns.after (firstYields 30)) 1 := by
  constructor
  · have moved : meteredCpu.step firstRuns (firstYields 30) (firstRuns.after (firstYields 30)) :=
      ⟨trivial, ⟨rfl, rfl⟩, rfl⟩
    exact firstRuns_reachable.of_restrict.step moved
  · intro accounted
    have grown := accounted ⟨0, by decide⟩ 0 (by decide +kernel) (by decide +kernel)
    revert grown
    decide +kernel

end Ghost.Bpf
