import Ghost.Bpf.CfsQueue
import Mathlib.Data.BitVec

/-!
# Virtual runtimes

What a thread is charged between two placements by `place_entity`, against the intervals for
which it ran. The minimum of a run queue only advances. A thread that leaves the CPU is no longer
the current one when it is enqueued: its last stretch is not charged, and it is renormalised by
the minimum, which nothing took off.
-/

set_option autoImplicit false

namespace Ghost.Bpf

open Lib

/-! ## Charges -/

theorem Cfs.calcDeltaFair_zero (thread : CfsThread) : Cfs.calcDeltaFair 0#64 thread = 0#64 := by
  unfold Cfs.calcDeltaFair Cfs.calcDelta
  split
  · exact BitVec.zero_mul
  · rfl

/-- Charges add up, for one weight. -/
theorem Cfs.calcDeltaFair_add (delta more : BitVec 64) {thread thread' : CfsThread}
    (sameWeight : thread'.weight = thread.weight) :
    Cfs.calcDeltaFair (delta + more) thread' =
      Cfs.calcDeltaFair delta thread + Cfs.calcDeltaFair more thread := by
  unfold Cfs.calcDeltaFair Cfs.calcDelta
  rw [sameWeight]
  split
  · exact BitVec.add_mul
  · rfl

/-- What the charges of a thread depend on stays the same. -/
structure CfsThread.Unmoved (before after : CfsThread) : Prop where
  vruntime : after.vruntime = before.vruntime
  ranAt : after.ranAt = before.ranAt
  weight : after.weight = before.weight

/-- A thread is charged up to a later `ran_at`. -/
structure CfsThread.Charged (before after : CfsThread) : Prop where
  vruntime : after.vruntime =
    before.vruntime + Cfs.calcDeltaFair (after.ranAt - before.ranAt) before
  weight : after.weight = before.weight

theorem CfsThread.Unmoved.charged {before after : CfsThread} (unmoved : before.Unmoved after) :
    before.Charged after := by
  refine ⟨?_, unmoved.weight⟩
  rw [unmoved.vruntime, unmoved.ranAt, BitVec.sub_self, Cfs.calcDeltaFair_zero, BitVec.add_zero]

/-- In the order of `max_vruntime`. -/
def Advances (old new : BitVec 64) : Prop := 0 ≤ (new - old).toInt

private theorem Advances.refl (old : BitVec 64) : Advances old old := by
  rw [Advances, BitVec.sub_self]
  decide

private theorem Advances.of_eq {old new : BitVec 64} (same : new = old) : Advances old new :=
  same ▸ Advances.refl old

private theorem advances_maxVruntime (maximum vruntime : BitVec 64) :
    Advances maximum (Cfs.maxVruntime maximum vruntime) := by
  unfold Cfs.maxVruntime
  split
  · next later => exact later.le
  · exact .refl maximum

namespace Cfs

variable {cfs : Cfs} {thread elem : cfsMaxGtids.Elem} {gtid now : BitVec 64}

theorem setThread_self (store : CfsThread → CfsThread) :
    (cfs.setThread thread store).threads thread = store (cfs.threads thread) :=
  Function.update_self ..

theorem setThread_of_ne (store : CfsThread → CfsThread) (different : elem ≠ thread) :
    (cfs.setThread thread store).threads elem = cfs.threads elem :=
  Function.update_of_ne different ..

theorem setThread_unmoved {store : CfsThread → CfsThread}
    (keeps : (cfs.threads thread).Unmoved (store (cfs.threads thread)))
    (elem : cfsMaxGtids.Elem) :
    (cfs.threads elem).Unmoved ((cfs.setThread thread store).threads elem) := by
  by_cases same : elem = thread
  · rw [same, setThread_self]
    exact keeps
  · rw [setThread_of_ne _ same]
    exact ⟨rfl, rfl, rfl⟩

private theorem updateMinVruntime_threads :
    (cfs.updateMinVruntime thread).threads = cfs.threads := by
  unfold updateMinVruntime
  split <;> rfl

private theorem updateMinVruntime_pcpuCurrent :
    (cfs.updateMinVruntime thread).pcpuCurrent = cfs.pcpuCurrent := by
  unfold updateMinVruntime
  split <;> rfl

private theorem updateMinVruntime_advances :
    Advances cfs.minVruntime (cfs.updateMinVruntime thread).minVruntime := by
  unfold updateMinVruntime
  split
  · exact advances_maxVruntime _ _
  · exact .refl _

/-! ## Accounting for the current thread -/

section UpdateCurr

variable {curr : Option cfsMaxGtids.Elem}

private theorem updateCurr_pcpuCurrent :
    (cfs.updateCurr now curr).pcpuCurrent = cfs.pcpuCurrent := by
  cases curr with
  | none => rfl
  | some curr =>
      simp only [updateCurr]
      split
      · rfl
      · exact updateMinVruntime_pcpuCurrent

private theorem updateCurr_advances :
    Advances cfs.minVruntime (cfs.updateCurr now curr).minVruntime := by
  cases curr with
  | none => exact .refl _
  | some curr =>
      simp only [updateCurr]
      split
      · exact .refl _
      · exact updateMinVruntime_advances

private theorem updateCurr_of_ne (different : curr ≠ some elem) :
    (cfs.updateCurr now curr).threads elem = cfs.threads elem := by
  cases curr with
  | none => rfl
  | some curr =>
      simp only [updateCurr]
      split
      · rfl
      · rw [updateMinVruntime_threads, setThread_of_ne]
        exact fun same => different (congrArg some same.symm)

private theorem updateCurr_charged :
    (cfs.threads elem).Charged ((cfs.updateCurr now (some elem)).threads elem) := by
  simp only [updateCurr]
  split
  · exact CfsThread.Unmoved.charged ⟨rfl, rfl, rfl⟩
  · rw [updateMinVruntime_threads, setThread_self]
    exact ⟨rfl, rfl⟩

end UpdateCurr

/-! ## Enqueueing -/

/-- What an enqueue does to the charges of the threads, its own apart. -/
structure Enqueues (cfs cfs' : Cfs) (thread : cfsMaxGtids.Elem)
    (curr : Option cfsMaxGtids.Elem) : Prop where
  others : ∀ elem, elem ≠ thread → curr ≠ some elem →
    (cfs.threads elem).Unmoved (cfs'.threads elem)
  charged : ∀ elem, elem ≠ thread → curr = some elem →
    (cfs.threads elem).Charged (cfs'.threads elem)
  advances : Advances cfs.minVruntime cfs'.minVruntime
  pcpuCurrent : cfs'.pcpuCurrent = cfs.pcpuCurrent

section Enqueue

variable {curr : Option cfsMaxGtids.Elem}

/-- `if (!thread->weight)`. -/
def weighed (cfs : Cfs) (thread : cfsMaxGtids.Elem) : Cfs :=
  cfs.setThread thread fun thread =>
    { thread with weight := if thread.weight = 0 then NICE_0_LOAD else thread.weight }

def renormalised (cfs : Cfs) (thread : cfsMaxGtids.Elem) (renorm : Bool) : Cfs :=
  if renorm then cfs.setThread thread fun thread =>
    { thread with vruntime := thread.vruntime + cfs.minVruntime }
  else cfs

/-- The thread is counted, placed after a wakeup, and linked. -/
def settled (cfs : Cfs) (thread : cfsMaxGtids.Elem) (wakeup : Bool) : Cfs :=
  let cfs := { cfs with
    weight := cfs.weight + (cfs.threads thread).weight
    nrRunning := cfs.nrRunning + 1 }
  let cfs := if wakeup then cfs.placeEntity thread false else cfs
  if wakeup then { cfs with lists := cfs.lists.insertTail () thread }
  else { cfs with lists := cfs.lists.insertHead () thread }

/-- The thread is renormalised before or after the current one is charged. -/
theorem enqueueEntity_eq (cfs : Cfs) (now gtid : BitVec 64) (thread : cfsMaxGtids.Elem)
    (flags : BitVec 32) : ∃ early late : Bool,
    cfs.enqueueEntity now curr gtid thread flags =
      ((((cfs.weighed thread).renormalised thread early).updateCurr now curr).renormalised thread
        late).settled thread (flags &&& ENQUEUE_WAKEUP ≠ 0) ∧
    (flags = 0 → late = !early) := by
  refine ⟨_, _, rfl, ?_⟩
  rintro rfl
  cases decide ((cfs.weighed thread).current = gtid) <;> rfl

/-- Only one thread is stored to. -/
structure Stores (cfs cfs' : Cfs) (thread : cfsMaxGtids.Elem) : Prop where
  others : ∀ elem, elem ≠ thread → cfs'.threads elem = cfs.threads elem
  minVruntime : cfs'.minVruntime = cfs.minVruntime
  pcpuCurrent : cfs'.pcpuCurrent = cfs.pcpuCurrent

private theorem Stores.trans {cfs' cfs'' : Cfs} (stores : cfs.Stores cfs' thread)
    (stores' : cfs'.Stores cfs'' thread) : cfs.Stores cfs'' thread :=
  ⟨fun elem different => (stores'.others elem different).trans (stores.others elem different),
    stores'.minVruntime.trans stores.minVruntime, stores'.pcpuCurrent.trans stores.pcpuCurrent⟩

theorem setThread_stores (store : CfsThread → CfsThread) :
    cfs.Stores (cfs.setThread thread store) thread :=
  ⟨fun _ different => setThread_of_ne store different, rfl, rfl⟩

private theorem renormalised_stores (renorm : Bool) :
    cfs.Stores (cfs.renormalised thread renorm) thread := by
  unfold renormalised
  split
  · exact setThread_stores _
  · exact ⟨fun _ _ => rfl, rfl, rfl⟩

private theorem settled_stores (wakeup : Bool) : cfs.Stores (cfs.settled thread wakeup) thread := by
  cases wakeup with
  | false => exact ⟨fun _ _ => rfl, rfl, rfl⟩
  | true =>
      refine ⟨?_, rfl, rfl⟩
      intro elem different
      simp only [settled, placeEntity, if_true]
      exact setThread_of_ne _ different

/-- Its own thread is stored to before and after the current one is charged. -/
theorem Stores.enqueues {before after : Cfs} (stores : cfs.Stores before thread)
    (stores' : (before.updateCurr now curr).Stores after thread) :
    cfs.Enqueues after thread curr := by
  constructor
  · intro elem different notCurrent
    rw [stores'.others elem different, updateCurr_of_ne notCurrent, stores.others elem different]
    exact ⟨rfl, rfl, rfl⟩
  · rintro elem different rfl
    rw [stores'.others elem different, ← stores.others elem different]
    exact updateCurr_charged
  · rw [stores'.minVruntime, ← stores.minVruntime]
    exact updateCurr_advances
  · rw [stores'.pcpuCurrent, updateCurr_pcpuCurrent, stores.pcpuCurrent]

private theorem enqueueEntity_enqueues (cfs : Cfs) (now gtid : BitVec 64)
    (thread : cfsMaxGtids.Elem)
    (flags : BitVec 32) :
    cfs.Enqueues (cfs.enqueueEntity now curr gtid thread flags) thread curr := by
  obtain ⟨early, late, isEntity, -⟩ := @enqueueEntity_eq curr cfs now gtid thread flags
  rw [isEntity]
  exact Stores.enqueues ((setThread_stores _).trans (renormalised_stores early))
    ((renormalised_stores late).trans (settled_stores _))

/-- Without a current thread a thread that does not wake up is renormalised, and no more. -/
theorem enqueueEntity_vruntime (cfs : Cfs) (now gtid : BitVec 64) (thread : cfsMaxGtids.Elem) :
    ((cfs.enqueueEntity now none gtid thread 0).threads thread).vruntime =
      (cfs.threads thread).vruntime + cfs.minVruntime := by
  obtain ⟨early, late, isEntity, once⟩ := @enqueueEntity_eq none cfs now gtid thread 0
  rw [isEntity, once rfl]
  cases early <;> simp [settled, renormalised, weighed, updateCurr, setThread, ENQUEUE_WAKEUP]

theorem Stores.then_enqueues {before after : Cfs} (stores : cfs.Stores before thread)
    (enqueues : before.Enqueues after thread curr) : cfs.Enqueues after thread curr := by
  constructor
  · intro elem different notCurrent
    rw [← stores.others elem different]
    exact enqueues.others elem different notCurrent
  · intro elem different isCurrent
    rw [← stores.others elem different]
    exact enqueues.charged elem different isCurrent
  · rw [← stores.minVruntime]
    exact enqueues.advances
  · exact enqueues.pcpuCurrent.trans stores.pcpuCurrent

private theorem Enqueues.then_stores {before after : Cfs}
    (enqueues : cfs.Enqueues before thread curr)
    (stores : before.Stores after thread) : cfs.Enqueues after thread curr := by
  constructor
  · intro elem different notCurrent
    rw [stores.others elem different]
    exact enqueues.others elem different notCurrent
  · intro elem different isCurrent
    rw [stores.others elem different]
    exact enqueues.charged elem different isCurrent
  · rw [stores.minVruntime]
    exact enqueues.advances
  · exact stores.pcpuCurrent.trans enqueues.pcpuCurrent

private theorem Stores.unmoves {cfs' : Cfs} (stores : cfs.Stores cfs' thread) :
    cfs.Enqueues cfs' thread curr := by
  have unmoved : ∀ elem, elem ≠ thread → (cfs.threads elem).Unmoved (cfs'.threads elem) := by
    intro elem different
    rw [stores.others elem different]
    exact ⟨rfl, rfl, rfl⟩
  exact ⟨fun elem different _ => unmoved elem different,
    fun elem different _ => (unmoved elem different).charged,
    .of_eq stores.minVruntime, stores.pcpuCurrent⟩

theorem enqueueTask_enqueues (known : cfs.gtidToThread gtid = some thread) (now : BitVec 64)
    (taskBarrier flags : BitVec 32) :
    cfs.Enqueues (cfs.enqueueTask now gtid taskBarrier flags) thread cfs.getCurrent := by
  unfold enqueueTask
  rw [known]
  exact (setThread_stores _).then_enqueues (enqueueEntity_enqueues _ _ _ _ _)

theorem enqueueTask_vruntime (known : cfs.gtidToThread gtid = some thread)
    (stopped : cfs.pcpuCurrent = 0) (now : BitVec 64) (taskBarrier : BitVec 32) :
    ((cfs.enqueueTask now gtid taskBarrier 0).threads thread).vruntime =
      (cfs.threads thread).vruntime + cfs.minVruntime := by
  have noCurrent : cfs.getCurrent = none := if_pos stopped
  unfold enqueueTask
  rw [known, noCurrent]
  dsimp only
  rw [enqueueEntity_vruntime, setThread_self]
  rfl

private theorem enqueueTask_unknown (unknown : cfs.gtidToThread gtid = none) (now : BitVec 64)
    (taskBarrier flags : BitVec 32) : cfs.enqueueTask now gtid taskBarrier flags = cfs := by
  unfold enqueueTask
  rw [unknown]

private theorem enqueueTask_advances (cfs : Cfs) (now gtid : BitVec 64)
    (taskBarrier flags : BitVec 32) :
    Advances cfs.minVruntime (cfs.enqueueTask now gtid taskBarrier flags).minVruntime := by
  cases known : cfs.gtidToThread gtid with
  | none =>
      rw [enqueueTask_unknown known]
      exact .refl _
  | some thread => exact (enqueueTask_enqueues known now taskBarrier flags).advances

end Enqueue

/-- The index of its status word may be too large. -/
theorem handleNew_unindexed {index : BitVec 32} {after : Cfs}
    (unmapped : cfs.swLookup gtid = none)
    (isAfter : after = { cfs with swLookup := Function.update cfs.swLookup gtid (some index) })
    (unknown : after.gtidToThread gtid = none) (seqnum : BitVec 32) (runnable : Bool)
    (now later : BitVec 64) :
    cfs.handleNew gtid index seqnum runnable false now later = after := by
  unfold handleNew
  rw [unmapped]
  simp only [Option.isSome_none, Bool.or_self, Bool.false_eq_true, if_false]
  rw [← isAfter, unknown]

/-- A thread that becomes known may be enqueued at once. -/
theorem handleNew_enqueues {index : BitVec 32} {after : Cfs}
    (unmapped : cfs.swLookup gtid = none)
    (isAfter : after = { cfs with swLookup := Function.update cfs.swLookup gtid (some index) })
    (owns : after.gtidToThread gtid = some thread) (sameCurrent : after.getCurrent = cfs.getCurrent)
    (seqnum : BitVec 32) (runnable : Bool) (now later : BitVec 64) :
    cfs.Enqueues (cfs.handleNew gtid index seqnum runnable false now later) thread
      cfs.getCurrent := by
  have stores : cfs.Stores (after.setThread thread fun thread =>
      { thread with gtid := gtid, taskBarrier := seqnum.setWidth 64, ranUntil := now })
      thread := by
    rw [isAfter]
    exact ⟨fun _ different => setThread_of_ne _ different, rfl, rfl⟩
  unfold handleNew
  rw [unmapped]
  simp only [Option.isSome_none, Bool.or_self, Bool.false_eq_true, if_false]
  rw [← isAfter, owns]
  dsimp only
  rw [← sameCurrent]
  cases runnable with
  | false => exact stores.unmoves
  | true =>
      have enqueues := @enqueueTask_enqueues (after.setThread thread fun thread =>
        { thread with gtid := gtid, taskBarrier := seqnum.setWidth 64, ranUntil := now }) thread
        gtid owns later seqnum 0
      rw [if_pos rfl]
      exact (stores.then_enqueues enqueues).then_stores (setThread_stores _)

/-! ## The minimum only advances -/

section Handlers

private theorem handleNew_advances (cfs : Cfs) (gtid : BitVec 64) (index seqnum : BitVec 32)
    (runnable full : Bool) (now later : BitVec 64) :
    Advances cfs.minVruntime
      (cfs.handleNew gtid index seqnum runnable full now later).minVruntime := by
  unfold handleNew
  split
  · exact .refl _
  · dsimp only
    split
    · exact .refl _
    · split
      · exact enqueueTask_advances _ later gtid seqnum 0
      · exact .refl _

private theorem handleWakeup_advances (cfs : Cfs) (gtid : BitVec 64) (seqnum : BitVec 32)
    (now later : BitVec 64) :
    Advances cfs.minVruntime (cfs.handleWakeup gtid seqnum now later).minVruntime := by
  unfold handleWakeup
  split
  · exact .refl _
  · exact enqueueTask_advances _ later gtid seqnum ENQUEUE_WAKEUP

private theorem handlePutPrev_advances (cfs : Cfs) (gtid : BitVec 64) (seqnum : BitVec 32)
    (now later : BitVec 64) :
    Advances cfs.minVruntime (cfs.handlePutPrev gtid seqnum now later).minVruntime := by
  unfold handlePutPrev
  split
  · exact .refl _
  · exact enqueueTask_advances _ later gtid seqnum 0

private theorem handleOnCpu_minVruntime (cfs : Cfs) (gtid cpuSeqnum now : BitVec 64) :
    (cfs.handleOnCpu gtid cpuSeqnum now).minVruntime = cfs.minVruntime := by
  unfold handleOnCpu
  split <;> rfl

private theorem handleBlocked_minVruntime (cfs : Cfs) (gtid now : BitVec 64) :
    (cfs.handleBlocked gtid now).minVruntime = cfs.minVruntime := by
  unfold handleBlocked
  split <;> rfl

private theorem handleDead_minVruntime (cfs : Cfs) (gtid : BitVec 64) :
    (cfs.handleDead gtid).minVruntime = cfs.minVruntime := by
  unfold handleDead
  split <;> rfl

private theorem removeTaskFromRq_minVruntime (cfs : Cfs) (thread : cfsMaxGtids.Elem) :
    (cfs.removeTaskFromRq thread).minVruntime = cfs.minVruntime := by
  unfold removeTaskFromRq
  split
  · dsimp only
    split <;> rfl
  · rfl

private theorem handleDeparted_minVruntime (cfs : Cfs) (gtid : BitVec 64) (wasCurrent : Bool) :
    (cfs.handleDeparted gtid wasCurrent).minVruntime = cfs.minVruntime := by
  have stopped : (if wasCurrent = true then cfs.taskStopped else cfs).minVruntime =
      cfs.minVruntime := by
    split <;> rfl
  unfold handleDeparted
  dsimp only
  split
  · exact stopped
  · exact (removeTaskFromRq_minVruntime _ _).trans stopped

private theorem pickNextTask_minVruntime {picked : cfsMaxGtids.Elem × Cfs}
    (picks : cfs.pickNextTask = some picked) : picked.2.minVruntime = cfs.minVruntime := by
  unfold pickNextTask at picks
  split at picks
  · cases picks
  · cases picks
    rfl

private theorem runFailed_advances (cfs : Cfs) (gtid taskBarrier later : BitVec 64)
    (err : RunError) :
    Advances cfs.minVruntime (cfs.runFailed gtid taskBarrier later err).minVruntime := by
  cases err with
  | ENOENT => exact .refl _
  | ESTALE => exact .refl _
  | EBUSY => exact enqueueTask_advances _ _ _ _ _
  | other => exact enqueueTask_advances _ _ _ _ _

end Handlers

end Cfs

private theorem CfsCpu.pnt_advances (cpu : CfsCpu) (ctx : Cfs.PntCtx)
    (result : Except Cfs.RunError Unit)
    (cpuSeqnum now later : BitVec 64) :
    Advances cpu.cfs.minVruntime (cpu.pnt ctx result cpuSeqnum now later).cfs.minVruntime := by
  unfold CfsCpu.pnt
  split
  · exact .refl _
  · cases picks : cpu.cfs.pickNextTask with
    | none => exact .refl _
    | some picked =>
        rw [← Cfs.pickNextTask_minVruntime picks]
        cases result with
        | ok => exact .of_eq (Cfs.handleOnCpu_minVruntime _ _ _ _)
        | error err => exact Cfs.runFailed_advances _ _ _ _ _

/-- Whatever the kernel announces, `min_vruntime` does not decrease. -/
theorem CfsCpu.handle_advances (cpu : CfsCpu) (event : CfsEvent) :
    Advances cpu.cfs.minVruntime (cpu.handle event).cfs.minVruntime := by
  cases event with
  | new gtid index seqnum runnable full now later =>
      unfold handle
      dsimp only
      split <;> exact Cfs.handleNew_advances _ _ _ _ _ _ _ _
  | wakeup gtid seqnum now later => exact Cfs.handleWakeup_advances _ _ _ _ _
  | preempt gtid seqnum now later => exact Cfs.handlePutPrev_advances _ _ _ _ _
  | yield gtid seqnum now later => exact Cfs.handlePutPrev_advances _ _ _ _ _
  | blocked gtid now => exact .of_eq (Cfs.handleBlocked_minVruntime cpu.cfs gtid now)
  | dead gtid => exact .of_eq (Cfs.handleDead_minVruntime cpu.cfs gtid)
  | departed gtid wasCurrent =>
      exact .of_eq (Cfs.handleDeparted_minVruntime cpu.cfs gtid wasCurrent)
  | pnt ctx result cpuSeqnum now later => exact cpu.pnt_advances ctx result cpuSeqnum now later

end Ghost.Bpf
