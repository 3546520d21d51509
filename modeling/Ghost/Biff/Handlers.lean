import Ghost.Biff.Kernel

/-!
# What the handlers do to the queue

The effect of a message on `sw_lookup` and on `global_rq`, and that of `biff_pnt`.
-/

set_option autoImplicit false

namespace Ghost.Biff

open Lib

section Handlers

variable {Core Gtid : Type} [DecidableEq Core] [DecidableEq Gtid] {maps : Maps Core Gtid}
  {gtid other : Gtid} {now : BitVec 64} {seqnum : BitVec 32} {msg : Msg Core Gtid}

/-- The handlers find the task. -/
def Maps.Known (maps : Maps Core Gtid) (gtid : Gtid) : Prop := maps.gtidToSwd gtid ≠ none

omit [DecidableEq Core] in
theorem Maps.gtidToSwd_congr {maps' : Maps Core Gtid}
    (same : maps'.swLookup.lookup gtid = maps.swLookup.lookup gtid) :
    maps'.gtidToSwd gtid = maps.gtidToSwd gtid := by
  unfold Maps.gtidToSwd
  rw [same]

private theorem lookup_filter_ne (entries : List (Gtid × TaskSwInfo)) :
    (entries.filter fun entry => decide (entry.1 ≠ gtid)).lookup other =
      if other = gtid then none else entries.lookup other := by
  induction entries with
  | nil => simp
  | cons entry entries ih =>
      obtain ⟨name, swi⟩ := entry
      by_cases isName : name = gtid
      · subst isName
        rw [List.filter_cons_of_neg (by simp), ih]
        by_cases same : other = name
        · rw [if_pos same, if_pos same]
        · rw [if_neg same, if_neg same, List.lookup_cons, beq_false_of_ne same]
      · rw [List.filter_cons_of_pos (by simpa using isName), List.lookup_cons, List.lookup_cons, ih]
        by_cases same : other = name
        · subst same
          simp [isName]
        · rw [beq_false_of_ne same]

/-- The kernel has as many status words as `sw_data` has entries. -/
def Maps.Valid (maps : Maps Core Gtid) : Prop :=
  ∀ gtid swi, maps.swLookup.lookup gtid = some swi → swi.index.toNat < biffMaxGtids

omit [DecidableEq Core] in
private theorem Maps.Valid.known_iff (valid : maps.Valid) :
    maps.Known gtid ↔ (maps.swLookup.lookup gtid).isSome = true := by
  unfold Maps.Known Maps.gtidToSwd
  cases found : maps.swLookup.lookup gtid with
  | none => simp
  | some swi => simp [valid gtid swi found]

/-- A message whose handler only enqueues the task, if it is known. -/
def Msg.Wakes (gtid : Gtid) : Msg Core Gtid → Prop
  | .taskWakeup name | .taskPreempt name _ | .taskYield name _ => name = gtid
  | _ => False

/-- A message whose handler touches neither `sw_lookup` nor the queue. -/
def Msg.Quiet : Msg Core Gtid → Prop
  | .taskOnCpu .. | .taskBlocked .. | .taskSwitchto _ | .unhandled _ | .cpuAvailable _
  | .cpuBusy _ => True
  | _ => False

/-- A message whose handler forgets the task. -/
def Msg.Forgets (gtid : Gtid) : Msg Core Gtid → Prop
  | .taskDead name | .taskDeparted name _ _ => name = gtid
  | _ => False

omit [DecidableEq Core] [DecidableEq Gtid] in
theorem Maps.enqueueTask_swLookup :
    (maps.enqueueTask gtid seqnum).swLookup = maps.swLookup := by
  unfold Maps.enqueueTask
  split <;> rfl

omit [DecidableEq Core] [DecidableEq Gtid] in
theorem Maps.enqueueTask_globalRq (room : maps.globalRq.length < biffMaxGtids) :
    (maps.enqueueTask gtid seqnum).globalRq = maps.globalRq ++ [⟨gtid, seqnum⟩] := by
  unfold Maps.enqueueTask
  rw [if_pos room]
  rfl

theorem Maps.send_wakes (wakes : msg.Wakes gtid) :
    (maps.biffMsgSend now seqnum msg).swLookup = maps.swLookup ∧
      (maps.Known gtid → maps.globalRq.length < biffMaxGtids →
        (maps.biffMsgSend now seqnum msg).globalRq = maps.globalRq ++ [⟨gtid, seqnum⟩]) ∧
      (¬maps.Known gtid → (maps.biffMsgSend now seqnum msg).globalRq = maps.globalRq) := by
  cases msg with
  | taskWakeup name =>
      obtain rfl := wakes
      simp only [Maps.biffMsgSend, Maps.handleWakeup, Maps.Known]
      cases maps.gtidToSwd name with
      | none => simp
      | some swd =>
          refine ⟨Maps.enqueueTask_swLookup, fun _ room => ?_, by simp⟩
          exact Maps.enqueueTask_globalRq room
  | taskPreempt name cpu =>
      obtain rfl := wakes
      simp only [Maps.biffMsgSend, Maps.handlePreempt, Maps.handleStopped, Maps.Known]
      cases maps.gtidToSwd name with
      | none => simp
      | some swd =>
          refine ⟨Maps.enqueueTask_swLookup, fun _ room => ?_, by simp⟩
          exact Maps.enqueueTask_globalRq room
  | taskYield name cpu =>
      obtain rfl := wakes
      simp only [Maps.biffMsgSend, Maps.handleYield, Maps.handleStopped, Maps.Known]
      cases maps.gtidToSwd name with
      | none => simp
      | some swd =>
          refine ⟨Maps.enqueueTask_swLookup, fun _ room => ?_, by simp⟩
          exact Maps.enqueueTask_globalRq room
  | _ => cases wakes

theorem Maps.send_quiet (quiet : msg.Quiet) :
    (maps.biffMsgSend now seqnum msg).swLookup = maps.swLookup ∧
      (maps.biffMsgSend now seqnum msg).globalRq = maps.globalRq := by
  cases msg with
  | taskOnCpu name cpu cpuSeqnum =>
      simp only [Maps.biffMsgSend, Maps.handleOnCpu]
      cases maps.gtidToSwd name <;> exact ⟨rfl, rfl⟩
  | taskBlocked name cpu =>
      simp only [Maps.biffMsgSend, Maps.handleBlocked]
      cases maps.gtidToSwd name <;> exact ⟨rfl, rfl⟩
  | taskSwitchto name =>
      simp only [Maps.biffMsgSend, Maps.handleSwitchto]
      cases maps.gtidToSwd name <;> exact ⟨rfl, rfl⟩
  | unhandled name => exact ⟨rfl, rfl⟩
  | cpuAvailable cpu => exact ⟨rfl, rfl⟩
  | cpuBusy cpu => exact ⟨rfl, rfl⟩
  | _ => cases quiet

theorem Maps.send_forgets (forgets : msg.Forgets gtid) :
    (∀ other, (maps.biffMsgSend now seqnum msg).swLookup.lookup other =
        if other = gtid then none else maps.swLookup.lookup other) ∧
      (maps.biffMsgSend now seqnum msg).globalRq = maps.globalRq := by
  cases msg with
  | taskDead name =>
      obtain rfl := forgets
      exact ⟨fun other => lookup_filter_ne _, rfl⟩
  | taskDeparted name cpu wasCurrent =>
      obtain rfl := forgets
      simp only [Maps.biffMsgSend, Maps.handleDeparted]
      cases wasCurrent <;> exact ⟨fun other => lookup_filter_ne _, rfl⟩
  | _ => cases forgets

theorem Maps.send_new {parent : Option Gtid} {runnable : Bool} {swInfo : TaskSwInfo}
    (valid : maps.Valid) (isValid : swInfo.index.toNat < biffMaxGtids)
    (roomy : maps.swLookup.length < biffMaxGtids) (unknown : ¬maps.Known gtid) :
    (maps.biffMsgSend now seqnum (.taskNew gtid parent runnable swInfo)).swLookup =
        (gtid, swInfo) :: maps.swLookup ∧
      (maps.globalRq.length < biffMaxGtids →
        (maps.biffMsgSend now seqnum (.taskNew gtid parent runnable swInfo)).globalRq =
          maps.globalRq ++ if runnable then [⟨gtid, seqnum⟩] else []) := by
  rw [valid.known_iff] at unknown
  have inserted : maps.updateNoexist gtid swInfo =
      some { maps with swLookup := (gtid, swInfo) :: maps.swLookup } := by
    unfold Maps.updateNoexist
    rw [if_neg]
    intro full
    obtain found | tooMany := full
    · exact unknown found
    · omega
  have found : Maps.gtidToSwd { maps with swLookup := (gtid, swInfo) :: maps.swLookup } gtid =
      some swInfo.index.toNat := by
    unfold Maps.gtidToSwd
    rw [List.lookup_cons_self]
    exact if_pos isValid
  simp only [Maps.biffMsgSend, Maps.handleNew, inserted, found]
  cases runnable with
  | true => exact ⟨Maps.enqueueTask_swLookup, fun room => Maps.enqueueTask_globalRq room⟩
  | false => exact ⟨rfl, fun _ => (List.append_nil _).symm⟩

/-- A task that is known is not enqueued again. -/
theorem Maps.send_new_known {parent : Option Gtid} {runnable : Bool} {swInfo : TaskSwInfo}
    (valid : maps.Valid) (known : maps.Known gtid) :
    maps.biffMsgSend now seqnum (.taskNew gtid parent runnable swInfo) = maps := by
  rw [valid.known_iff] at known
  have exists_ : maps.updateNoexist gtid swInfo = none := by
    unfold Maps.updateNoexist
    exact if_pos (.inl known)
  simp only [Maps.biffMsgSend, Maps.handleNew, exists_]

omit [DecidableEq Core] in
theorem Maps.valid_congr {maps' : Maps Core Gtid} (valid : maps.Valid)
    (same : maps'.swLookup = maps.swLookup) : maps'.Valid := by
  intro name swi found
  rw [same] at found
  exact valid name swi found

end Handlers

end Ghost.Biff
