import Ghost.Topology.CpuSets
import Ghost.O1.Scheduler
import Ghost.Fifo.Scheduler
import Mathlib.Data.Int.CardIntervalMod

/-!
# Assigning CPUs in turn

`AssignCpu` of the O(1) and the FIFO scheduler. The cursor is an iterator of the CPU
list that outlives the call. It runs off the end of the list and is restarted from
there, and the models of the two schedulers keep its index instead.
-/

set_option autoImplicit false

namespace Ghost.Topology

/-- The iterators `static` in `AssignCpu`. -/
structure Statics where
  begin : CpuMap.Iter
  stop : CpuMap.Iter
  next : CpuMap.Iter

/-- They are initialized by the first call. -/
def Statics.init (cpus : CpuMap) : Statics where
  begin := cpus.begin
  stop := cpus.end'
  next := cpus.end'

/-- The body of `AssignCpu` in both schedulers; iterators are compared by their ids. -/
def assignNext (cpus : CpuMap) (statics : Option Statics) : Cpu × Statics :=
  let statics := statics.getD (.init cpus)
  let next := if statics.next.id = statics.stop.id then statics.begin else statics.next
  (next.cpu, { statics with next := cpus.findNextSetBit (next.id + 1) })

def O1Scheduler.assignCpu (cpus : CpuMap) (statics : Option Statics) : Cpu × Statics :=
  assignNext cpus statics

def FifoScheduler.assignCpu (cpus : CpuMap) (statics : Option Statics) : Cpu × Statics :=
  assignNext cpus statics

/-- The results of `k` calls. -/
def assigned (assign : Option Statics → Cpu × Statics) : Nat → Option Statics → List Cpu
  | 0, _ => []
  | k + 1, statics => (assign statics).1 :: assigned assign k (some (assign statics).2)

variable {cpus : CpuMap}

/-! ## The cursor -/

/-- An iterator at the set CPU of index `i`, or behind the last one. -/
def CpuMap.Iter.At (cpus : CpuMap) (i : Nat) (it : CpuMap.Iter) : Prop :=
  ∃ id, cpus.Found id it ∧
    (List.range' id (cpus.numCpus - id)).filter cpus.isSet = cpus.setCpus.drop i

open CpuMap (Iter cpuOf)

private theorem CpuMap.begin_at (within : cpus.Within) : cpus.begin.At cpus 0 := by
  refine ⟨0, cpus.findNextSetBit_found within 0, ?_⟩
  rw [Nat.sub_zero, ← List.range_eq_range', List.drop_zero]
  rfl

private theorem CpuMap.end'_at (within : cpus.Within) : cpus.end'.At cpus cpus.setCpus.length := by
  refine ⟨cpus.numCpus, cpus.findNextSetBit_found within cpus.numCpus, ?_⟩
  rw [Nat.sub_self, List.drop_length]
  rfl

/-- On a CPU of the list the iterator goes to the next one. -/
theorem CpuMap.Iter.At.next (within : cpus.Within) {i : Nat} {it : Iter} (standing : it.At cpus i)
    (inRange : i < cpus.setCpus.length) :
    it.id ≠ cpus.numCpus ∧ it.cpu = .rep cpus.setCpus[i] ∧
      (cpus.findNextSetBit (it.id + 1)).At cpus (i + 1) := by
  obtain ⟨id, found, rest⟩ := standing
  rw [List.drop_eq_getElem_cons inRange] at rest
  rcases found with ⟨after, before, set, isCpu, skipped⟩ | ⟨-, skipped⟩
  · rw [Lib.filter_range'_first after before skipped set] at rest
    obtain ⟨here, later⟩ := List.cons.inj rest
    refine ⟨before.ne, ?_, it.id + 1, cpus.findNextSetBit_found within _, later⟩
    rw [isCpu, here]
  · rw [Lib.filter_range'_none skipped] at rest
    cases rest

private theorem CpuMap.Iter.At.stopped {i : Nat} {it : Iter} (standing : it.At cpus i)
    (outOfRange : cpus.setCpus.length ≤ i) : it.id = cpus.numCpus := by
  obtain ⟨id, found, rest⟩ := standing
  rw [List.drop_eq_nil_of_le outOfRange] at rest
  rcases found with ⟨after, before, set, -, skipped⟩ | ⟨isStop, -⟩
  · rw [Lib.filter_range'_first after before skipped set] at rest
    cases rest
  · rw [isStop]
    rfl

/-! ## One call -/

/-- The statics with the cursor at index `i`. -/
structure Statics.At (cpus : CpuMap) (i : Nat) (statics : Statics) : Prop where
  begin : statics.begin = cpus.begin
  stop : statics.stop = cpus.end'
  next : statics.next.At cpus i
  inRange : i ≤ cpus.setCpus.length

private theorem Statics.init_at (within : cpus.Within) :
    (Statics.init cpus).At cpus cpus.setCpus.length where
  begin := rfl
  stop := rfl
  next := CpuMap.end'_at within
  inRange := le_rfl

/-- Where a call finds the cursor, after a restart. -/
def restarted (length i : Nat) : Nat := if i = length then 0 else i

private theorem restarted_lt {length i : Nat} (nonempty : 0 < length) (inRange : i ≤ length) :
    restarted length i < length := by
  unfold restarted
  split
  · exact nonempty
  · omega

/-- A call assigns the CPU at the cursor and moves the cursor past it. -/
theorem Statics.At.assignNext (within : cpus.Within) (nonempty : 0 < cpus.setCpus.length)
    {i : Nat} {statics : Statics} (standing : statics.At cpus i) :
    (Topology.assignNext cpus (some statics)).1 = cpuOf cpus.setCpus[restarted cpus.setCpus.length i]? ∧
      (Topology.assignNext cpus (some statics)).2.At cpus (restarted cpus.setCpus.length i + 1) := by
  have small := restarted_lt nonempty standing.inRange
  have advanced : (if statics.next.id = statics.stop.id then statics.begin else statics.next).At cpus
      (restarted cpus.setCpus.length i) := by
    rw [standing.stop, CpuMap.end'_eq_stop within, standing.begin]
    unfold restarted
    by_cases behind : i = cpus.setCpus.length
    · rw [if_pos behind, if_pos (show _ = cpus.stop.id from standing.next.stopped behind.ge)]
      exact CpuMap.begin_at within
    · have inList : i < cpus.setCpus.length := lt_of_le_of_ne standing.inRange behind
      have before : statics.next.id ≠ cpus.stop.id := (standing.next.next within inList).1
      rw [if_neg behind, if_neg before]
      exact standing.next
  obtain ⟨-, isCpu, next⟩ := advanced.next within small
  refine ⟨?_, standing.begin, standing.stop, next, small⟩
  rw [List.getElem?_eq_getElem small]
  exact isCpu

private theorem assignNext_none : assignNext cpus none = assignNext cpus (some (.init cpus)) := rfl

/-! ## The cursor of the schedulers' models -/

/-- A list of the CPU ids of `cpus()` in ascending order. -/
def Lists (cpus : CpuMap) (ids : List O1.CpuId) : Prop := ids.map Fin.val = cpus.setCpus

private theorem Statics.At.assignNext_listed (within : cpus.Within) {ids : List O1.CpuId}
    (lists : Lists cpus ids) {i : Nat} {statics : Statics} (standing : statics.At cpus i)
    {cpu : O1.CpuId} (listed : ids[restarted ids.length i]? = some cpu) :
    (Topology.assignNext cpus (some statics)).1 = .rep cpu.val ∧
      (Topology.assignNext cpus (some statics)).2.At cpus (restarted ids.length i + 1) := by
  have sameLength : ids.length = cpus.setCpus.length := by rw [← lists, List.length_map]
  have nonempty : 0 < cpus.setCpus.length := by
    rw [← sameLength]
    exact Nat.zero_lt_of_lt (List.getElem?_eq_some_iff.mp listed).1
  obtain ⟨isCpu, next⟩ := standing.assignNext within nonempty
  rw [← sameLength] at isCpu next
  refine ⟨?_, next⟩
  rw [isCpu, ← lists, List.getElem?_map, listed]
  rfl

/-- The index that the model of the O(1) scheduler keeps is that of the iterator. -/
theorem O1Scheduler.assignCpu_simulated (within : cpus.Within) {ids : List O1.CpuId}
    (lists : Lists cpus ids) {scheduler next : O1.O1Scheduler} {cpu : O1.CpuId} {statics : Statics}
    (standing : statics.At cpus scheduler.nextCpu)
    (result : scheduler.assignCpu ids = .ok (cpu, next)) :
    (assignCpu cpus (some statics)).1 = .rep cpu.val ∧
      (assignCpu cpus (some statics)).2.At cpus next.nextCpu := by
  unfold O1.O1Scheduler.assignCpu at result
  dsimp only at result
  split at result
  · next listed =>
      cases result
      exact standing.assignNext_listed within lists listed
  · cases result

theorem FifoScheduler.assignCpu_simulated (within : cpus.Within) {ids : List O1.CpuId}
    (lists : Lists cpus ids) {scheduler next : Fifo.FifoScheduler} {cpu : O1.CpuId}
    {statics : Statics} (standing : statics.At cpus scheduler.nextCpu)
    (result : scheduler.assignCpu ids = .ok (cpu, next)) :
    (assignCpu cpus (some statics)).1 = .rep cpu.val ∧
      (assignCpu cpus (some statics)).2.At cpus next.nextCpu := by
  unfold Fifo.FifoScheduler.assignCpu at result
  dsimp only at result
  split at result
  · next listed =>
      cases result
      exact standing.assignNext_listed within lists listed
  · cases result

/-! ## Every call -/

/-- The cursor before call `k`. -/
theorem restarted_mod {length i k : Nat} (inRange : i ≤ length)
    (calls : i % length = k % length) : restarted length i = k % length := by
  unfold restarted
  split
  · next behind =>
      rw [behind, Nat.mod_self] at calls
      exact calls
  · next inside =>
      rw [← calls, Nat.mod_eq_of_lt (lt_of_le_of_ne inRange inside)]

private theorem assigned_from (within : cpus.Within) (nonempty : 0 < cpus.setCpus.length)
    (calls : Nat)
    {k i : Nat} {statics : Statics} (standing : statics.At cpus i)
    (reached : i % cpus.setCpus.length = k % cpus.setCpus.length) :
    assigned (assignNext cpus) calls (some statics) =
      (List.range' k calls).map fun call => cpuOf cpus.setCpus[call % cpus.setCpus.length]? := by
  induction calls generalizing k i statics with
  | zero => rfl
  | succ calls ih =>
      obtain ⟨isCpu, next⟩ := standing.assignNext within nonempty
      rw [restarted_mod standing.inRange reached] at isCpu next
      have reached' : (k % cpus.setCpus.length + 1) % cpus.setCpus.length =
          (k + 1) % cpus.setCpus.length := Nat.mod_add_mod ..
      rw [assigned, isCpu, ih next reached', List.range'_succ, List.map_cons]

private theorem assigned_eq (within : cpus.Within) (nonempty : 0 < cpus.setCpus.length) (k : Nat) :
    assigned (assignNext cpus) k none =
      (List.range k).map fun call => cpuOf cpus.setCpus[call % cpus.setCpus.length]? := by
  have started : assigned (assignNext cpus) k none =
      assigned (assignNext cpus) k (some (.init cpus)) := by
    cases k with
    | zero => rfl
    | succ k => rw [assigned, assigned, assignNext_none]
  have reached : cpus.setCpus.length % cpus.setCpus.length = 0 % cpus.setCpus.length := by
    rw [Nat.mod_self, Nat.zero_mod]
  rw [started, assigned_from within nonempty k (Statics.init_at within) reached,
    List.range_eq_range']

/-! ## Fairness -/

/-- The calls among the first `k` that assign one CPU are those of one residue. -/
theorem count_cyclic {ids : List Nat} (distinct : ids.Nodup) {i : Nat} (inRange : i < ids.length)
    (k : Nat) :
    ((List.range k).map fun call => cpuOf ids[call % ids.length]?).count (.rep ids[i]) =
      k.count (· ≡ i [MOD ids.length]) := by
  have same : ∀ call, cpuOf ids[call % ids.length]? = .rep ids[i] ↔ call ≡ i [MOD ids.length] := by
    intro call
    have small : call % ids.length < ids.length := Nat.mod_lt _ (Nat.zero_lt_of_lt inRange)
    rw [List.getElem?_eq_getElem small]
    constructor
    · intro equal
      have index := (distinct.getElem_inj_iff).mp (Cpu.rep.inj equal)
      exact index.trans (Nat.mod_eq_of_lt inRange).symm
    · intro residue
      have index : call % ids.length = i := Eq.trans residue (Nat.mod_eq_of_lt inRange)
      simp only [index]
      rfl
  rw [List.count, List.countP_map, Nat.count]
  apply List.countP_congr
  intro call _
  rw [Function.comp_apply, beq_iff_eq, same, decide_eq_true_eq]

/-- The residues are spread evenly. -/
theorem count_residue_even {length : Nat} (nonempty : 0 < length) (i k : Nat) :
    k.count (· ≡ i [MOD length]) = k / length ∨
      k.count (· ≡ i [MOD length]) = (k + length - 1) / length := by
  rw [Nat.count_modEq_card _ nonempty]
  split
  · next smaller =>
      have divided := Nat.div_add_mod k length
      have rounded : k + length - 1 = length * (k / length + 1) + (k % length - 1) := by
        rw [Nat.mul_succ]
        omega
      have rest : k % length - 1 < length := (Nat.sub_le ..).trans_lt (Nat.mod_lt k nonempty)
      rw [rounded, Nat.mul_add_div nonempty, Nat.div_eq_of_lt rest]
      exact .inr rfl
  · exact .inl rfl

/-- Every sequence of calls goes through the CPUs of `cpus()` in ascending order, again
and again. -/
theorem assignCpu_roundRobin (within : cpus.Within) (nonempty : cpus.setCpus ≠ [])
    {assign : CpuMap → Option Statics → Cpu × Statics}
    (scheduler : assign = O1Scheduler.assignCpu ∨ assign = FifoScheduler.assignCpu) (k : Nat) :
    assigned (assign cpus) k none =
        (List.range k).map (fun call => cpuOf cpus.setCpus[call % cpus.setCpus.length]?) ∧
      (∀ id ∈ cpus.setCpus,
        (assigned (assign cpus) k none).count (.rep id) = k / cpus.setCpus.length ∨
        (assigned (assign cpus) k none).count (.rep id) =
          (k + cpus.setCpus.length - 1) / cpus.setCpus.length) ∧
      ∀ cpu ∈ assigned (assign cpus) k none,
        cpu.valid = true ∧ ∃ id, cpu = .rep id ∧ id < cpus.numCpus ∧ cpus.isSet id = true := by
  have isNext : assign = assignNext := by
    rcases scheduler with rfl | rfl <;> rfl
  have positive : 0 < cpus.setCpus.length := List.length_pos_of_ne_nil nonempty
  rw [isNext, assigned_eq within positive k]
  refine ⟨rfl, ?_, ?_⟩
  · intro id member
    obtain ⟨i, inRange, rfl⟩ := List.getElem_of_mem member
    have distinct : cpus.setCpus.Nodup := List.nodup_range.filter _
    rw [count_cyclic distinct inRange]
    exact count_residue_even positive i k
  · intro cpu member
    obtain ⟨call, -, rfl⟩ := List.mem_map.mp member
    have inRange := Nat.mod_lt call positive
    rw [List.getElem?_eq_getElem inRange]
    have isMember := List.getElem_mem inRange
    refine ⟨rfl, _, rfl, ?_⟩
    exact CpuMap.mem_setCpus.mp isMember

/-- The last CPU is the last bit of the final word. -/
theorem assignCpu_roundRobin_full_word :
    let cpus : CpuMap := ⟨64, by decide, fun n => if n.val = 0 then 0x8000000000000005 else 0⟩
    cpus.Within ∧ assigned (O1Scheduler.assignCpu cpus) 5 none =
      [.rep 0, .rep 2, .rep 63, .rep 0, .rep 2] := by
  intro cpus
  have within : cpus.Within := by
    unfold CpuMap.Within MAX_CPUS
    decide +kernel
  have isList : cpus.setCpus = [0, 2, 63] := by decide +kernel
  have nonempty : cpus.setCpus ≠ [] := by simp [isList]
  have results := (assignCpu_roundRobin within nonempty (.inl rfl) 5).1
  rw [isList] at results
  exact ⟨within, results⟩

end Ghost.Topology
