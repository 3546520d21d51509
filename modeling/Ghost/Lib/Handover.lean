import Mathlib.Tactic

/-!
# Handing keys over between agents

Letters about keys wait in the boxes of agents, those about one key in the box of
the agent to which the key is routed. A letter carries a ticket, and the tickets of
a key increase. An agent that takes in a letter marks the key with its ticket at
once, or it opens the letter, routes the key to another agent, and marks the key
only after that. The late mark is still in order as long as nobody takes in a
letter about the key in between.
-/

set_option autoImplicit false

namespace Ghost.Lib

structure Letter (Key : Type) where
  key : Key
  ticket : Nat

/-- A letter that an agent is busy with. -/
structure OpenLetter (Key : Type) where
  letter : Letter Key
  /-- Its ticket has not been marked yet. -/
  late : Bool
  /-- Its key has been routed to another agent. -/
  routed : Bool

structure Office (Key Agent : Type) where
  /-- The ticket that a key is marked with, if the key is known. -/
  marks : Key → Option Nat
  latest : Key → Nat
  route : Key → Agent
  /-- Oldest first. -/
  boxes : Agent → List (Letter Key)
  busy : Agent → Option (OpenLetter Key)

namespace Office

variable {Key Agent : Type} [DecidableEq Key] [DecidableEq Agent]

/-- Nobody who has routed the key on has yet to mark it. -/
def Undisturbed (office : Office Key Agent) (key : Key) : Prop :=
  ∀ agent task, office.busy agent = some task → task.late = true → task.routed = true →
    task.letter.key ≠ key

inductive Step : Office Key Agent → Office Key Agent → Prop
  | send {office : Office Key Agent} (letter : Letter Key) :
      office.latest letter.key < letter.ticket →
      Step office { office with
        latest := Function.update office.latest letter.key letter.ticket
        boxes := Function.update office.boxes (office.route letter.key)
          (office.boxes (office.route letter.key) ++ [letter]) }
  /-- The letter is thrown away. -/
  | drop {office : Office Key Agent} {agent : Agent} {letter : Letter Key}
      {rest : List (Letter Key)} :
      office.boxes agent = letter :: rest →
      Step office { office with boxes := Function.update office.boxes agent rest }
  | arrive {office : Office Key Agent} {agent : Agent} {letter : Letter Key}
      {rest : List (Letter Key)} :
      office.boxes agent = letter :: rest → office.marks letter.key = none →
      Step office { office with
        marks := Function.update office.marks letter.key (some letter.ticket)
        boxes := Function.update office.boxes agent rest }
  /-- The key is marked, or it is forgotten. -/
  | take {office : Office Key Agent} {agent : Agent} {letter : Letter Key}
      {rest : List (Letter Key)} (mark : Option Nat) :
      office.busy agent = none → office.boxes agent = letter :: rest →
      office.Undisturbed letter.key → mark = none ∨ mark = some letter.ticket →
      Step office { office with
        marks := Function.update office.marks letter.key mark
        boxes := Function.update office.boxes agent rest }
  | openMarked {office : Office Key Agent} {agent : Agent} {letter : Letter Key}
      {rest : List (Letter Key)} :
      office.boxes agent = letter :: rest → office.marks letter.key = none →
      Step office { office with
        marks := Function.update office.marks letter.key (some letter.ticket)
        boxes := Function.update office.boxes agent rest
        busy := Function.update office.busy agent (some ⟨letter, false, false⟩) }
  | openLate {office : Office Key Agent} {agent : Agent} {letter : Letter Key}
      {rest : List (Letter Key)} :
      office.busy agent = none → office.boxes agent = letter :: rest →
      office.Undisturbed letter.key → office.marks letter.key ≠ none →
      Step office { office with
        boxes := Function.update office.boxes agent rest
        busy := Function.update office.busy agent (some ⟨letter, true, false⟩) }
  /-- Only the last letter about a key can have it routed. -/
  | route {office : Office Key Agent} {agent : Agent} {letter : Letter Key} {late : Bool}
      (target : Agent) :
      office.busy agent = some ⟨letter, late, false⟩ →
      office.latest letter.key = letter.ticket →
      Step office { office with
        route := Function.update office.route letter.key target
        busy := Function.update office.busy agent (some ⟨letter, late, true⟩) }
  | close {office : Office Key Agent} {agent : Agent} {letter : Letter Key} {routed : Bool} :
      office.busy agent = some ⟨letter, false, routed⟩ →
      Step office { office with busy := Function.update office.busy agent none }
  | mark {office : Office Key Agent} {agent : Agent} {letter : Letter Key} {routed : Bool} :
      office.busy agent = some ⟨letter, true, routed⟩ →
      Step office { office with
        marks := Function.update office.marks letter.key (some letter.ticket)
        busy := Function.update office.busy agent none }

/-- A letter that has been taken out of its box before all others that wait. -/
structure Due (office : Office Key Agent) (letter : Letter Key) : Prop where
  sent : letter.ticket ≤ office.latest letter.key
  first : ∀ agent, ∀ other ∈ office.boxes agent, other.key = letter.key →
    letter.ticket < other.ticket

structure Orderly (office : Office Key Agent) : Prop where
  home : ∀ agent, ∀ letter ∈ office.boxes agent, office.route letter.key = agent
  sorted : ∀ agent, (office.boxes agent).Pairwise fun letter later =>
    later.key = letter.key → letter.ticket < later.ticket
  sent : ∀ agent, ∀ letter ∈ office.boxes agent, letter.ticket ≤ office.latest letter.key
  ahead : ∀ agent, ∀ letter ∈ office.boxes agent, ∀ mark, office.marks letter.key = some mark →
    mark < letter.ticket
  marked : ∀ key mark, office.marks key = some mark → mark ≤ office.latest key
  due : ∀ agent task, office.busy agent = some task → office.Due task.letter
  own : ∀ agent task, office.busy agent = some task → task.routed = false →
    office.route task.letter.key = agent
  pending : ∀ agent task, office.busy agent = some task → task.late = true →
    ∃ mark, office.marks task.letter.key = some mark ∧ mark < task.letter.ticket
  alone : ∀ agent agent' task task', office.busy agent = some task →
    office.busy agent' = some task' → task.late = true → task'.late = true →
    task.letter.key = task'.letter.key → agent = agent'

/-- No letter is about the key that is still to be marked. -/
def Unopened (office : Office Key Agent) (key : Key) : Prop :=
  ∀ agent task, office.busy agent = some task → task.late = true → task.letter.key ≠ key

namespace Orderly

variable {office next : Office Key Agent} {agent : Agent} {letter : Letter Key}
variable {rest : List (Letter Key)}

/-! ## What the steps consist of -/

omit [DecidableEq Key] in
theorem pop (orderly : office.Orderly) (waiting : office.boxes agent = letter :: rest) :
    { office with boxes := Function.update office.boxes agent rest }.Orderly := by
  have remains : ∀ other, ∀ later ∈ Function.update office.boxes agent rest other,
      later ∈ office.boxes other := by
    intro other later among
    by_cases same : other = agent
    · rw [same, Function.update_self] at among
      rw [same, waiting]
      exact List.mem_cons_of_mem letter among
    · rwa [Function.update_of_ne same] at among
  constructor
  case home => exact fun other later among => orderly.home other later (remains other later among)
  case sorted =>
    intro other
    by_cases same : other = agent
    · have sorted := orderly.sorted agent
      rw [waiting, List.pairwise_cons] at sorted
      simpa only [same, Function.update_self] using sorted.2
    · simpa only [Function.update_of_ne same] using orderly.sorted other
  case sent => exact fun other later among => orderly.sent other later (remains other later among)
  case ahead => exact fun other later among => orderly.ahead other later (remains other later among)
  case marked => exact orderly.marked
  case due =>
    intro other task busy
    obtain ⟨sent, first⟩ := orderly.due other task busy
    exact ⟨sent, fun box later among => first box later (remains box later among)⟩
  case own => exact orderly.own
  case pending => exact orderly.pending
  case alone => exact orderly.alone

omit [DecidableEq Key] in
theorem pop_due (orderly : office.Orderly) (waiting : office.boxes agent = letter :: rest) :
    { office with boxes := Function.update office.boxes agent rest }.Due letter := by
  have among : letter ∈ office.boxes agent := waiting ▸ List.mem_cons_self
  constructor
  case sent => exact orderly.sent agent letter among
  case first =>
    intro other later waits sameKey
    have popped := (orderly.pop waiting).home other later waits
    obtain rfl : other = agent := by
      rw [← popped, ← orderly.home agent letter among]
      exact congrArg office.route sameKey
    have sorted := orderly.sorted other
    rw [waiting, List.pairwise_cons] at sorted
    simp only [Function.update_self] at waits
    exact sorted.1 later waits sameKey

omit [DecidableEq Agent] in
theorem write (orderly : office.Orderly) (due : office.Due letter)
    (unopened : office.Unopened letter.key) {mark : Option Nat}
    (ticket : mark = none ∨ mark = some letter.ticket) :
    { office with marks := Function.update office.marks letter.key mark }.Orderly := by
  have written : ∀ key value, Function.update office.marks letter.key mark key = some value →
      (key = letter.key ∧ value = letter.ticket) ∨ office.marks key = some value := by
    intro key value isValue
    by_cases same : key = letter.key
    · rw [same, Function.update_self] at isValue
      rcases ticket with none | some
      · cases none.symm.trans isValue
      · exact .inl ⟨same, (Option.some.inj (some.symm.trans isValue)).symm⟩
    · rw [Function.update_of_ne same] at isValue
      exact .inr isValue
  constructor
  case home => exact orderly.home
  case sorted => exact orderly.sorted
  case sent => exact orderly.sent
  case ahead =>
    intro other later among value isValue
    rcases written later.key value isValue with ⟨sameKey, rfl⟩ | kept
    · exact due.first other later among sameKey
    · exact orderly.ahead other later among value kept
  case marked =>
    intro key value isValue
    rcases written key value isValue with ⟨rfl, rfl⟩ | kept
    · exact due.sent
    · exact orderly.marked key value kept
  case due =>
    intro other task busy
    obtain ⟨sent, first⟩ := orderly.due other task busy
    exact ⟨sent, first⟩
  case own => exact orderly.own
  case pending =>
    intro other task busy late
    have kept := Function.update_of_ne (unopened other task busy late) mark office.marks
    obtain ⟨value, isValue, behind⟩ := orderly.pending other task busy late
    exact ⟨value, kept.trans isValue, behind⟩
  case alone => exact orderly.alone

omit [DecidableEq Key] in
theorem release (orderly : office.Orderly) (agent : Agent) :
    { office with busy := Function.update office.busy agent none }.Orderly := by
  have remains : ∀ other task, Function.update office.busy agent none other = some task →
      office.busy other = some task := by
    intro other task busy
    by_cases same : other = agent
    · rw [same, Function.update_self] at busy
      cases busy
    · rwa [Function.update_of_ne same] at busy
  constructor
  case home => exact orderly.home
  case sorted => exact orderly.sorted
  case sent => exact orderly.sent
  case ahead => exact orderly.ahead
  case marked => exact orderly.marked
  case due =>
    intro other task busy
    obtain ⟨sent, first⟩ := orderly.due other task (remains other task busy)
    exact ⟨sent, first⟩
  case own => exact fun other task busy => orderly.own other task (remains other task busy)
  case pending => exact fun other task busy => orderly.pending other task (remains other task busy)
  case alone =>
    intro other other' task task' busy busy'
    exact orderly.alone other other' task task' (remains other task busy) (remains other' task' busy')

omit [DecidableEq Key] in
theorem occupy (orderly : office.Orderly) {task : OpenLetter Key} (due : office.Due task.letter)
    (own : task.routed = false → office.route task.letter.key = agent)
    (pending : task.late = true → office.Unopened task.letter.key ∧
      ∃ mark, office.marks task.letter.key = some mark ∧ mark < task.letter.ticket) :
    { office with busy := Function.update office.busy agent (some task) }.Orderly := by
  have either : ∀ other opened, Function.update office.busy agent (some task) other = some opened →
      (other = agent ∧ opened = task) ∨ office.busy other = some opened := by
    intro other opened busy
    by_cases same : other = agent
    · rw [same, Function.update_self] at busy
      exact .inl ⟨same, (Option.some.inj busy).symm⟩
    · rw [Function.update_of_ne same] at busy
      exact .inr busy
  constructor
  case home => exact orderly.home
  case sorted => exact orderly.sorted
  case sent => exact orderly.sent
  case ahead => exact orderly.ahead
  case marked => exact orderly.marked
  case due =>
    intro other opened busy
    rcases either other opened busy with ⟨-, rfl⟩ | before
    · exact ⟨due.sent, due.first⟩
    · obtain ⟨sent, first⟩ := orderly.due other opened before
      exact ⟨sent, first⟩
  case own =>
    intro other opened busy unrouted
    rcases either other opened busy with ⟨rfl, rfl⟩ | before
    · exact own unrouted
    · exact orderly.own other opened before unrouted
  case pending =>
    intro other opened busy late
    rcases either other opened busy with ⟨-, rfl⟩ | before
    · exact (pending late).2
    · exact orderly.pending other opened before late
  case alone =>
    intro other other' opened opened' busy busy' late late' sameKey
    rcases either other opened busy with ⟨rfl, rfl⟩ | before
    · rcases either other' opened' busy' with ⟨rfl, -⟩ | before'
      · rfl
      · exact absurd sameKey.symm ((pending late).1 other' opened' before' late')
    · rcases either other' opened' busy' with ⟨rfl, rfl⟩ | before'
      · exact absurd sameKey ((pending late').1 other opened before late)
      · exact orderly.alone other other' opened opened' before before' late late' sameKey

omit [DecidableEq Agent] in
theorem reroute (orderly : office.Orderly) {key : Key} (target : Agent)
    (empty : ∀ agent, ∀ letter ∈ office.boxes agent, letter.key ≠ key)
    (free : ∀ agent task, office.busy agent = some task → task.routed = false →
      task.letter.key ≠ key) :
    { office with route := Function.update office.route key target }.Orderly := by
  constructor
  case home =>
    intro agent letter among
    have kept := Function.update_of_ne (empty agent letter among) target office.route
    exact kept.trans (orderly.home agent letter among)
  case sorted => exact orderly.sorted
  case sent => exact orderly.sent
  case ahead => exact orderly.ahead
  case marked => exact orderly.marked
  case due =>
    intro agent task busy
    obtain ⟨sent, first⟩ := orderly.due agent task busy
    exact ⟨sent, first⟩
  case own =>
    intro agent task busy unrouted
    have kept := Function.update_of_ne (free agent task busy unrouted) target office.route
    exact kept.trans (orderly.own agent task busy unrouted)
  case pending => exact orderly.pending
  case alone => exact orderly.alone

theorem send (orderly : office.Orderly) (newer : office.latest letter.key < letter.ticket) :
    { office with
      latest := Function.update office.latest letter.key letter.ticket
      boxes := Function.update office.boxes (office.route letter.key)
        (office.boxes (office.route letter.key) ++ [letter]) }.Orderly := by
  have grows : ∀ key, office.latest key ≤
      Function.update office.latest letter.key letter.ticket key := by
    intro key
    by_cases same : key = letter.key
    · rw [same, Function.update_self]
      exact newer.le
    · rw [Function.update_of_ne same]
  have either : ∀ agent, ∀ other ∈ Function.update office.boxes (office.route letter.key)
      (office.boxes (office.route letter.key) ++ [letter]) agent,
      (other = letter ∧ agent = office.route letter.key) ∨ other ∈ office.boxes agent := by
    intro agent other among
    by_cases same : agent = office.route letter.key
    · rw [same, Function.update_self, List.mem_append, List.mem_singleton] at among
      rw [same]
      exact among.symm.imp (fun new => ⟨new, rfl⟩) id
    · rw [Function.update_of_ne same] at among
      exact .inr among
  constructor
  case home =>
    intro agent other among
    rcases either agent other among with ⟨rfl, rfl⟩ | before
    · rfl
    · exact orderly.home agent other before
  case sorted =>
    intro agent
    by_cases same : agent = office.route letter.key
    · have appended : (office.boxes (office.route letter.key) ++ [letter]).Pairwise
          fun letter later => later.key = letter.key → letter.ticket < later.ticket := by
        rw [List.pairwise_append]
        refine ⟨orderly.sorted _, List.pairwise_singleton _ _, ?_⟩
        intro other among new isNew sameKey
        obtain rfl := List.mem_singleton.mp isNew
        have sent := orderly.sent _ other among
        rw [← sameKey] at sent
        exact Nat.lt_of_le_of_lt sent newer
      simpa only [same, Function.update_self] using appended
    · simpa only [Function.update_of_ne same] using orderly.sorted agent
  case sent =>
    intro agent other among
    rcases either agent other among with ⟨rfl, -⟩ | before
    · exact (Function.update_self other.key other.ticket office.latest).ge
    · exact (orderly.sent agent other before).trans (grows other.key)
  case ahead =>
    intro agent other among mark isMark
    rcases either agent other among with ⟨rfl, -⟩ | before
    · exact Nat.lt_of_le_of_lt (orderly.marked _ mark isMark) newer
    · exact orderly.ahead agent other before mark isMark
  case marked => exact fun key mark isMark => (orderly.marked key mark isMark).trans (grows key)
  case due =>
    intro agent task busy
    obtain ⟨sent, first⟩ := orderly.due agent task busy
    refine ⟨sent.trans (grows task.letter.key), ?_⟩
    intro box other among sameKey
    rcases either box other among with ⟨rfl, -⟩ | before
    · rw [← sameKey] at sent
      exact Nat.lt_of_le_of_lt sent newer
    · exact first box other before sameKey
  case own => exact orderly.own
  case pending => exact orderly.pending
  case alone => exact orderly.alone

/-! ## Steps -/

omit [DecidableEq Key] [DecidableEq Agent] in
/-- Nobody has to mark a key of which a letter can be taken in undisturbed. -/
theorem unopened (orderly : office.Orderly) (idle : office.busy agent = none)
    (home : office.route letter.key = agent) (undisturbed : office.Undisturbed letter.key) :
    office.Unopened letter.key := by
  intro other task busy late sameKey
  cases routed : task.routed with
  | true => exact undisturbed other task busy late routed sameKey
  | false =>
      have own := orderly.own other task busy routed
      rw [sameKey, home] at own
      rw [own, busy] at idle
      cases idle

omit [DecidableEq Key] [DecidableEq Agent] in
theorem unopened_of_unknown (orderly : office.Orderly) {key : Key}
    (unknown : office.marks key = none) : office.Unopened key := by
  intro agent task busy late sameKey
  obtain ⟨mark, isMark, -⟩ := orderly.pending agent task busy late
  rw [sameKey, unknown] at isMark
  cases isMark

/-- The letter that is routed was the last one about its key, so none waits. -/
theorem redirect (orderly : office.Orderly) {late : Bool} (target : Agent)
    (busy : office.busy agent = some ⟨letter, late, false⟩)
    (fresh : office.latest letter.key = letter.ticket) :
    { office with
      route := Function.update office.route letter.key target
      busy := Function.update office.busy agent (some ⟨letter, late, true⟩) }.Orderly := by
  have due := orderly.due agent _ busy
  have own := orderly.own agent _ busy rfl
  have others : ∀ other task, Function.update office.busy agent none other = some task →
      other ≠ agent ∧ office.busy other = some task := by
    intro other task isTask
    by_cases same : other = agent
    · rw [same, Function.update_self] at isTask
      cases isTask
    · rw [Function.update_of_ne same] at isTask
      exact ⟨same, isTask⟩
  have empty : ∀ box, ∀ other ∈ office.boxes box, other.key ≠ letter.key := by
    intro box other among sameKey
    have later := due.first box other among sameKey
    have sent := orderly.sent box other among
    rw [sameKey, fresh] at sent
    exact absurd sent later.not_ge
  have free : ∀ other task, Function.update office.busy agent none other = some task →
      task.routed = false → task.letter.key ≠ letter.key := by
    intro other task isTask unrouted sameKey
    obtain ⟨differs, isTask⟩ := others other task isTask
    have home := orderly.own other task isTask unrouted
    rw [sameKey] at home
    exact differs (home.symm.trans own)
  have rerouted := (orderly.release agent).reroute target empty free
  have occupied := @occupy _ _ _ _ agent rerouted ⟨letter, late, true⟩ ⟨due.sent, due.first⟩
    (fun unrouted => nomatch unrouted)
  simp only [Function.update_idem] at occupied
  apply occupied
  intro isLate
  constructor
  · intro other task isTask isLate' sameKey
    obtain ⟨differs, isTask⟩ := others other task isTask
    exact differs (orderly.alone other agent task _ isTask busy isLate' isLate sameKey)
  · obtain ⟨mark, isMark, behind⟩ := orderly.pending agent _ busy isLate
    exact ⟨mark, isMark, behind⟩

theorem step (orderly : office.Orderly) (moved : Step office next) : next.Orderly := by
  cases moved with
  | send letter newer => exact orderly.send newer
  | drop waiting => exact orderly.pop waiting
  | arrive waiting unknown =>
      have popped := orderly.pop waiting
      exact popped.write (orderly.pop_due waiting) (popped.unopened_of_unknown unknown) (.inr rfl)
  | @take agent letter rest mark idle waiting undisturbed ticket =>
      have home := orderly.home agent letter (waiting ▸ List.mem_cons_self)
      have unopened := orderly.unopened idle home undisturbed
      exact (orderly.pop waiting).write (orderly.pop_due waiting) unopened ticket
  | @openMarked agent letter rest waiting unknown =>
      have home := orderly.home agent letter (waiting ▸ List.mem_cons_self)
      have popped := orderly.pop waiting
      have due := orderly.pop_due waiting
      have written := popped.write due (popped.unopened_of_unknown unknown) (.inr rfl)
      exact written.occupy ⟨due.sent, due.first⟩ (fun _ => home) (fun late => nomatch late)
  | @openLate agent letter rest idle waiting undisturbed known =>
      have among : letter ∈ office.boxes agent := waiting ▸ List.mem_cons_self
      have home := orderly.home agent letter among
      have unopened := orderly.unopened idle home undisturbed
      obtain ⟨mark, isMark⟩ := Option.ne_none_iff_exists'.mp known
      have behind := orderly.ahead agent letter among mark isMark
      exact (orderly.pop waiting).occupy (orderly.pop_due waiting) (fun _ => home)
        fun _ => ⟨unopened, mark, isMark, behind⟩
  | @route agent letter late target busy fresh => exact orderly.redirect target busy fresh
  | @close agent letter routed busy => exact orderly.release agent
  | @mark agent letter routed busy =>
      have due := orderly.due agent _ busy
      refine (orderly.release agent).write ⟨due.sent, due.first⟩ ?_ (.inr rfl)
      intro other task isTask late sameKey
      by_cases same : other = agent
      · simp only [same, Function.update_self] at isTask
        cases isTask
      · simp only [Function.update_of_ne same] at isTask
        exact same (orderly.alone other agent task _ isTask busy late rfl sameKey)

/-- Marks never decrease as long as their key is known. All that a step can write is the
ticket of a letter that is ahead of the mark. -/
theorem step_marks (orderly : office.Orderly) (moved : Step office next) {key : Key}
    {before after : Nat} (was : office.marks key = some before)
    (becomes : next.marks key = some after) : before ≤ after := by
  have written : ∀ (letter : Letter Key) (mark : Option Nat),
      mark = none ∨ mark = some letter.ticket →
      (∀ mark, office.marks letter.key = some mark → mark < letter.ticket) →
      Function.update office.marks letter.key mark key = some after → before ≤ after := by
    intro letter mark ticket ahead isAfter
    by_cases same : key = letter.key
    · rw [same, Function.update_self] at isAfter
      rcases ticket with none | some
      · cases none.symm.trans isAfter
      · cases some.symm.trans isAfter
        exact (ahead before (same ▸ was)).le
    · rw [Function.update_of_ne same, was] at isAfter
      exact (Option.some.inj isAfter).le
  have kept : office.marks key = some after → before ≤ after := fun isAfter =>
    (Option.some.inj (was.symm.trans isAfter)).le
  cases moved with
  | send letter newer => exact kept becomes
  | drop waiting => exact kept becomes
  | @arrive agent letter rest waiting unknown =>
      exact written letter _ (.inr rfl) (orderly.ahead agent letter (waiting ▸ List.mem_cons_self))
        becomes
  | @take agent letter rest mark idle waiting undisturbed ticket =>
      exact written letter _ ticket (orderly.ahead agent letter (waiting ▸ List.mem_cons_self))
        becomes
  | @openMarked agent letter rest waiting unknown =>
      exact written letter _ (.inr rfl) (orderly.ahead agent letter (waiting ▸ List.mem_cons_self))
        becomes
  | openLate idle waiting undisturbed known => exact kept becomes
  | route target busy fresh => exact kept becomes
  | close busy => exact kept becomes
  | @mark agent letter routed busy =>
      refine written letter _ (.inr rfl) ?_ becomes
      intro mark isMark
      obtain ⟨mark', isMark', behind⟩ := orderly.pending agent _ busy rfl
      cases isMark.symm.trans isMark'
      exact behind

end Orderly

end Office

end Ghost.Lib
