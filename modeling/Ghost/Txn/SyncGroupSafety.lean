import Ghost.Txn.SyncGroup

/-!
# Sync-group ownership is a lock

The owner of a request is the one agent that stands between taking and releasing
it, and a request without an owner is committed.
-/

set_option autoImplicit false

namespace Ghost.Txn.SyncGroup

open Lib

section Places

variable {Cpu : Type}

/-- The ownership has been found or taken. -/
def owns : OpenPc → Bool
  | .getOwner | .takeOwnership | .checkNotOwned => false
  | _ => true

/-- The requests that an agent owns, by where it stands. -/
def Place.held : Place Cpu → List Cpu
  | .idle _ => []
  | .between opened _ => opened
  | .opening opened cpu _ _ pc => if owns pc then opened ++ [cpu] else opened
  | .committing _ _ unreleased => unreleased
  | .failing cpus _ _ => cpus
  | .completing cpus _ _ _ => cpus
  | .releasing _ todo _ => todo
  | .dead => []
  | .errored cpus => cpus

/-- What an agent relies on. -/
def Place.Expects (owner : Int) (reqs : Cpu → RunRequest) : Place Cpu → Prop
  | .idle _ => True
  | .between opened todo => (opened ++ todo).Nodup
  | .opening opened cpu todo options pc =>
      (opened ++ cpu :: todo).Nodup ∧ options.syncGroupOwner = owner ∧ pc ≠ .checkNotOwned ∧
        (owns pc = true → isCommitted (reqs cpu).state)
  | .committing _ uncommitted unreleased => uncommitted ⊆ unreleased ∧
      ∀ cpu ∈ unreleased, cpu ∉ uncommitted → isCommitted (reqs cpu).state
  | .failing cpus uncommitted failed => cpus.Nodup ∧ uncommitted ⊆ cpus ∧
      (∀ cpu ∈ cpus, cpu ∉ uncommitted → isCommitted (reqs cpu).state) ∧
      (failed = true → ∃ cpu ∈ cpus, cpu ∉ uncommitted ∧ (reqs cpu).state ≠ State.complete)
  | .completing cpus todo _ failureDetected => cpus.Nodup ∧ todo ⊆ cpus ∧
      (∀ cpu ∈ cpus, isCommitted (reqs cpu).state) ∧
      (failureDetected = true ∨ ∃ cpu ∈ todo, (reqs cpu).state ≠ State.complete)
  | .releasing _ todo _ => todo.Nodup ∧ ∀ cpu ∈ todo, isCommitted (reqs cpu).state
  | .dead => False
  | .errored _ => True

private theorem Place.Expects.frame {owner : Int} {reqs reqs' : Cpu → RunRequest}
    {place : Place Cpu}
    (expects : place.Expects owner reqs) (same : ∀ cpu ∈ place.held, reqs' cpu = reqs cpu) :
    place.Expects owner reqs' := by
  cases place with
  | opening opened cpu todo options pc =>
      obtain ⟨distinct, isOwner, notOther, committed⟩ := expects
      refine ⟨distinct, isOwner, notOther, fun owned => ?_⟩
      rw [same cpu (by simp [Place.held, owned])]
      exact committed owned
  | committing cpus uncommitted unreleased =>
      obtain ⟨subset, committed⟩ := expects
      refine ⟨subset, fun cpu member done => ?_⟩
      rw [same cpu member]
      exact committed cpu member done
  | failing cpus uncommitted failed =>
      obtain ⟨distinct, subset, committed, failure⟩ := expects
      refine ⟨distinct, subset, fun cpu member done => ?_, fun isFailed => ?_⟩
      · rw [same cpu member]
        exact committed cpu member done
      · obtain ⟨cpu, member, done, incomplete⟩ := failure isFailed
        exact ⟨cpu, member, done, same cpu member ▸ incomplete⟩
  | completing cpus todo pc failureDetected =>
      obtain ⟨distinct, subset, committed, failure⟩ := expects
      refine ⟨distinct, subset, fun cpu member => ?_, failure.imp_right ?_⟩
      · rw [same cpu member]
        exact committed cpu member
      · rintro ⟨cpu, member, incomplete⟩
        exact ⟨cpu, member, same cpu (subset member) ▸ incomplete⟩
  | releasing cpus todo pc =>
      obtain ⟨distinct, committed⟩ := expects
      refine ⟨distinct, fun cpu member => ?_⟩
      rw [same cpu member]
      exact committed cpu member
  | _ => exact expects

end Places

/-! ## The invariant -/

variable {Agent Cpu : Type} {owners : Agent → Int}

structure Locked (owners : Agent → Int) (system : System Agent Cpu) : Prop where
  held : ∀ agent cpu, cpu ∈ (system.places agent).held →
    (system.reqs cpu).syncGroupOwner = owners agent
  owned : ∀ cpu, (system.reqs cpu).syncGroupOwned → ∃ agent, cpu ∈ (system.places agent).held
  free : ∀ cpu, ¬(system.reqs cpu).syncGroupOwned → isCommitted (system.reqs cpu).state
  expects : ∀ agent, (system.places agent).Expects (owners agent) system.reqs

section Steps

variable [DecidableEq Agent] [DecidableEq Cpu] {system : System Agent Cpu} {agent : Agent}
  {cpu : Cpu}

/-- A step that stores into one request, which was the agent's own or free. -/
structure Stores (owners : Agent → Int) (system : System Agent Cpu) (agent : Agent) (cpu : Cpu)
    (req : RunRequest) (place : Place Cpu) : Prop where
  before : (system.reqs cpu).syncGroupOwned → (system.reqs cpu).syncGroupOwner = owners agent
  others : ∀ other, other ≠ cpu → (other ∈ place.held ↔ other ∈ (system.places agent).held)
  held : cpu ∈ place.held → req.syncGroupOwner = owners agent
  owned : req.syncGroupOwned → cpu ∈ place.held
  free : ¬req.syncGroupOwned → isCommitted req.state
  expects : place.Expects (owners agent) (store system.reqs cpu req)

private theorem Locked.stores (locked : Locked owners system) (distinct : Function.Injective owners)
    (valid : ∀ agent, owners agent ≠ kSyncGroupNotOwned)
    {req : RunRequest} {place : Place Cpu} (stores : Stores owners system agent cpu req place) :
    Locked owners ⟨store system.reqs cpu req, Function.update system.places agent place⟩ := by
  have apart : ∀ other, other ≠ agent → cpu ∉ (system.places other).held := by
    intro other ne member
    have isOwner := locked.held other cpu member
    have owned : (system.reqs cpu).syncGroupOwned := by
      intro free
      exact valid other (isOwner.symm.trans free)
    exact ne (distinct (isOwner.symm.trans (stores.before owned)))
  constructor
  · intro other cpu' member
    by_cases isAgent : other = agent
    · subst isAgent
      simp only [Function.update_self] at member
      by_cases isCpu : cpu' = cpu
      · subst isCpu
        simpa [store] using stores.held member
      · simpa [store, isCpu] using locked.held other cpu' ((stores.others cpu' isCpu).mp member)
    · simp only [Function.update_of_ne isAgent] at member
      have isCpu : cpu' ≠ cpu := by
        rintro rfl
        exact apart other isAgent member
      simpa [store, isCpu] using locked.held other cpu' member
  · intro cpu' owned
    by_cases isCpu : cpu' = cpu
    · subst isCpu
      simp only [store, Function.update_self] at owned
      exact ⟨agent, by simpa using stores.owned owned⟩
    · simp only [store, Function.update_of_ne isCpu] at owned
      obtain ⟨other, member⟩ := locked.owned cpu' owned
      refine ⟨other, ?_⟩
      by_cases isAgent : other = agent
      · subst isAgent
        simpa using (stores.others cpu' isCpu).mpr member
      · simpa [isAgent] using member
  · intro cpu' free
    by_cases isCpu : cpu' = cpu
    · subst isCpu
      simp only [store, Function.update_self] at free ⊢
      exact stores.free free
    · simp only [store, Function.update_of_ne isCpu] at free ⊢
      exact locked.free cpu' free
  · intro other
    by_cases isAgent : other = agent
    · subst isAgent
      simpa using stores.expects
    · simp only [Function.update_of_ne isAgent]
      apply (locked.expects other).frame
      intro cpu' member
      have isCpu : cpu' ≠ cpu := by
        rintro rfl
        exact apart other isAgent member
      simp [store, isCpu]

omit [DecidableEq Cpu] in
private theorem Locked.moves (locked : Locked owners system) {place : Place Cpu}
    (same : ∀ cpu, cpu ∈ place.held ↔ cpu ∈ (system.places agent).held)
    (expects : place.Expects (owners agent) system.reqs) :
    Locked owners ⟨system.reqs, Function.update system.places agent place⟩ := by
  have held : ∀ other cpu, cpu ∈ (Function.update system.places agent place other).held ↔
      cpu ∈ (system.places other).held := by
    intro other cpu
    by_cases isAgent : other = agent
    · subst isAgent
      simpa using same cpu
    · simp [isAgent]
  constructor
  · intro other cpu member
    exact locked.held other cpu ((held other cpu).mp member)
  · intro cpu owned
    obtain ⟨other, member⟩ := locked.owned cpu owned
    exact ⟨other, (held other cpu).mpr member⟩
  · exact locked.free
  · intro other
    by_cases isAgent : other = agent
    · subst isAgent
      simpa using expects
    · simpa [isAgent] using locked.expects other

omit [DecidableEq Agent] [DecidableEq Cpu] in
private theorem Locked.owned_of_held (locked : Locked owners system)
    (valid : ∀ agent, owners agent ≠ kSyncGroupNotOwned)
    (member : cpu ∈ (system.places agent).held) : (system.reqs cpu).syncGroupOwned := by
  intro free
  exact valid agent ((locked.held agent cpu member).symm.trans free)

private theorem Locked.storesOwn (locked : Locked owners system)
    (distinct : Function.Injective owners)
    (valid : ∀ agent, owners agent ≠ kSyncGroupNotOwned) {req : RunRequest} {place : Place Cpu}
    (member : cpu ∈ (system.places agent).held)
    (same : ∀ other, other ∈ place.held ↔ other ∈ (system.places agent).held)
    (sameOwner : req.syncGroupOwner = (system.reqs cpu).syncGroupOwner)
    (expects : place.Expects (owners agent) (store system.reqs cpu req)) :
    Locked owners ⟨store system.reqs cpu req, Function.update system.places agent place⟩ := by
  have isOwner := locked.held agent cpu member
  have owned := locked.owned_of_held valid member
  apply locked.stores distinct valid
  constructor
  · exact fun _ => isOwner
  · exact fun other _ => same other
  · exact fun _ => sameOwner.trans isOwner
  · exact fun _ => (same cpu).mpr member
  · intro free
    exact absurd (fun same => owned (sameOwner.symm.trans same)) free
  · exact expects

private theorem Locked.storesNotOwned (locked : Locked owners system)
    (distinct : Function.Injective owners)
    (valid : ∀ agent, owners agent ≠ kSyncGroupNotOwned) {place : Place Cpu}
    (member : cpu ∈ (system.places agent).held)
    (others : ∀ other, other ≠ cpu → (other ∈ place.held ↔ other ∈ (system.places agent).held))
    (gone : cpu ∉ place.held) (committed : isCommitted (system.reqs cpu).state)
    (expects : place.Expects (owners agent) system.reqs) :
    Locked owners
      ⟨store system.reqs cpu { system.reqs cpu with syncGroupOwner := kSyncGroupNotOwned },
        Function.update system.places agent place⟩ := by
  apply locked.stores distinct valid
  constructor
  · exact fun _ => locked.held agent cpu member
  · exact others
  · intro member'
    exact absurd member' gone
  · intro owned
    exact absurd rfl owned
  · exact fun _ => committed
  · apply expects.frame
    intro other member'
    have ne : other ≠ cpu := by
      rintro rfl
      exact gone member'
    simp [store, ne]

/-! ## The agent's code -/

section Code

variable (locked : Locked owners system) (distinct : Function.Injective owners)
  (valid : ∀ agent, owners agent ≠ kSyncGroupNotOwned)
include locked distinct valid

private theorem Locked.opens {opened todo : List Cpu} {options : RunRequestOptions} {pc : OpenPc}
    (isPlace : system.places agent = .opening opened cpu todo options pc) (spurious : Bool) :
    Locked owners
      ⟨store system.reqs cpu (openAccess options (system.reqs cpu) spurious pc).1,
        Function.update system.places agent
          ((openAccess options (system.reqs cpu) spurious pc).2.elim
            (fun pc => .opening opened cpu todo options pc)
            (fun _ => .between (opened ++ [cpu]) todo) .dead .dead)⟩ := by
  have expects := locked.expects agent
  rw [isPlace] at expects
  obtain ⟨nodup, isOwner, notOther, committed⟩ := expects
  have fresh : cpu ∉ opened := by
    intro member
    exact (List.disjoint_of_nodup_append nodup) member List.mem_cons_self
  have unchanged : store system.reqs cpu (system.reqs cpu) = system.reqs :=
    Function.update_eq_self cpu system.reqs
  cases pc with
  | getOwner =>
      have held : (system.places agent).held = opened := by rw [isPlace]; rfl
      simp only [openAccess]
      split_ifs with free other
      · rw [unchanged]
        apply locked.moves
        · simp [isPlace, Goes.elim, Place.held, owns]
        · exact ⟨nodup, isOwner, by simp, by simp [owns]⟩
      · rw [unchanged]
        apply locked.moves
        · simp [isPlace, Goes.elim, Place.held, owns]
        · exact ⟨nodup, isOwner, by simp, by simp [owns]⟩
      · exfalso
        rw [not_not, isOwner] at other
        obtain ⟨agent', member⟩ := locked.owned cpu free
        have same := distinct ((locked.held agent' cpu member).symm.trans other)
        rw [same, held] at member
        exact fresh member
  | takeOwnership =>
      have held : (system.places agent).held = opened := by rw [isPlace]; rfl
      simp only [openAccess]
      split_ifs with free
      · apply locked.stores distinct valid
        constructor
        · exact fun owned => absurd free.1 owned
        · intro other ne
          simp [isPlace, Goes.elim, Place.held, owns, ne]
        · exact fun _ => isOwner
        · intro _
          simp [Goes.elim, Place.held, owns]
        · intro notOwned
          exact absurd (not_not.mp notOwned) (isOwner ▸ valid agent)
        · refine ⟨nodup, isOwner, by simp, fun _ => ?_⟩
          simpa [store] using locked.free cpu (not_not.mpr free.1)
      · rw [unchanged]
        apply locked.moves
        · simp [isPlace, Goes.elim, Place.held, owns]
        · exact ⟨nodup, isOwner, by simp, by simp [owns]⟩
  | checkNotOwned => exact absurd rfl notOther
  | checkOwned =>
      have held : (system.places agent).held = opened ++ [cpu] := by rw [isPlace]; rfl
      have owned := locked.owned_of_held valid (show cpu ∈ (system.places agent).held by simp [held])
      simp only [openAccess, if_pos owned]
      rw [unchanged]
      apply locked.moves
      · simp [isPlace, Goes.elim, Place.held, owns]
      · exact ⟨nodup, isOwner, by simp, fun _ => committed rfl⟩
  | checkCommitted =>
      have held : (system.places agent).held = opened ++ [cpu] := by rw [isPlace]; rfl
      simp only [openAccess, if_pos (committed rfl)]
      rw [unchanged]
      apply locked.moves
      · simp [isPlace, Goes.elim, Place.held, owns]
      · exact ⟨nodup, isOwner, by simp, fun _ => committed rfl⟩
  | checkAllowed =>
      have held : (system.places agent).held = opened ++ [cpu] := by rw [isPlace]; rfl
      have owned := locked.owned_of_held valid (show cpu ∈ (system.places agent).held by simp [held])
      simp only [openAccess, if_pos owned]
      rw [unchanged]
      apply locked.moves
      · simp [isPlace, Goes.elim, Place.held, owns]
      · exact ⟨nodup, isOwner, by simp, fun _ => committed rfl⟩
  | storeReady =>
      have held : (system.places agent).held = opened ++ [cpu] := by rw [isPlace]; rfl
      apply locked.storesOwn distinct valid (show cpu ∈ (system.places agent).held by simp [held])
      · simp [isPlace, openAccess, Goes.elim, Place.held, owns]
      · rfl
      · simpa [openAccess, Goes.elim, Place.Expects] using nodup
  | storeAllowTxnTargetOnCpu =>
      have held : (system.places agent).held = opened ++ [cpu] := by rw [isPlace]; rfl
      apply locked.storesOwn distinct valid (show cpu ∈ (system.places agent).held by simp [held])
      · cases allowed : options.allowTxnTargetOnCpu <;>
          simp [isPlace, openAccess, Goes.elim, Place.held, owns, allowed]
      · rfl
      · refine ⟨nodup, isOwner, ?_, fun _ => ?_⟩
        · split <;> simp
        · simpa [store, openAccess] using committed rfl
  | _ =>
      have held : (system.places agent).held = opened ++ [cpu] := by rw [isPlace]; rfl
      apply locked.storesOwn distinct valid (show cpu ∈ (system.places agent).held by simp [held])
      · simp [isPlace, openAccess, Goes.elim, Place.held, owns]
      · rfl
      · refine ⟨nodup, isOwner, by simp, fun _ => ?_⟩
        simpa [store, openAccess, RunRequest.store] using committed rfl

omit distinct valid in
/-- One access of `CompleteRunRequest` in the loop of `CommitSyncRequests`. -/
theorem Locked.completes {cpus todo : List Cpu} {pc : CompletePc} {failureDetected : Bool}
    (isPlace : system.places agent = .completing cpus todo pc failureDetected)
    {spurious online : Bool} {effect : Effect Cpu}
    (accessed : access system.reqs spurious online (system.places agent) = some effect) :
    Locked owners ⟨effect.reqs, Function.update system.places agent effect.place⟩ := by
  have expects := locked.expects agent
  rw [isPlace] at expects accessed
  obtain ⟨nodup, subset, committed, failure⟩ := expects
  cases todo with
  | nil =>
      simp only [List.not_mem_nil, false_and, exists_false, or_false] at failure
      simp only [access, failure, if_true, Option.some.injEq] at accessed
      subst accessed
      apply locked.moves
      · simp [isPlace, Place.held]
      · exact ⟨nodup, committed⟩
  | cons cpu todo =>
      have member : cpu ∈ cpus := subset List.mem_cons_self
      have later : todo ⊆ cpus := fun other isLater => subset (List.mem_cons_of_mem _ isLater)
      simp only [access, Option.some.injEq] at accessed
      subst accessed
      cases pc with
      | wait =>
          simp only [completeAccess, if_pos (committed cpu member)]
          apply locked.moves
          · simp [isPlace, Goes.elim, Place.held]
          · exact ⟨nodup, subset, committed, failure⟩
      | loadState =>
          simp only [completeAccess]
          split
          · rename_i success isSuccess
            apply locked.moves
            · simp [isPlace, Goes.elim, Place.held]
            · refine ⟨nodup, later, committed, ?_⟩
              rcases failure with detected | ⟨failed, isMember, incomplete⟩
              · simp [detected]
              · rcases List.mem_cons.mp isMember with rfl | isLater
                · have isFalse : success = false := by
                    by_contra isTrue
                    rw [Bool.eq_true_of_not_eq_false isTrue] at isSuccess
                    exact incomplete (completion_eq_true.mp isSuccess)
                  simp [isFalse]
                · exact .inr ⟨failed, isLater, incomplete⟩
          · apply locked.moves
            · simp [isPlace, Goes.elim, Place.held]
            · trivial

private theorem Locked.releases {cpus todo : List Cpu} {pc : ReleasePc}
    (isPlace : system.places agent = .releasing cpus todo pc)
    {spurious online : Bool} {effect : Effect Cpu}
    (accessed : access system.reqs spurious online (system.places agent) = some effect) :
    Locked owners ⟨effect.reqs, Function.update system.places agent effect.place⟩ := by
  have expects := locked.expects agent
  rw [isPlace] at expects accessed
  obtain ⟨nodup, committed⟩ := expects
  cases todo with
  | nil =>
      simp only [access, Option.some.injEq] at accessed
      subst accessed
      apply locked.moves
      · simp [isPlace, Place.held]
      · trivial
  | cons cpu todo =>
      have member : cpu ∈ (system.places agent).held := by simp [isPlace, Place.held]
      have owned := locked.owned_of_held valid member
      have here := committed cpu List.mem_cons_self
      cases pc with
      | checkCommitted =>
          simp only [access, if_pos here, Option.some.injEq] at accessed
          subst accessed
          apply locked.moves
          · simp [isPlace, Place.held]
          · exact ⟨nodup, committed⟩
      | checkOwned =>
          simp only [access, if_pos owned, Option.some.injEq] at accessed
          subst accessed
          apply locked.moves
          · simp [isPlace, Place.held]
          · exact ⟨nodup, committed⟩
      | store =>
          simp only [access, Option.some.injEq] at accessed
          subst accessed
          rw [List.nodup_cons] at nodup
          apply locked.storesNotOwned distinct valid member
          · intro other ne
            simp [isPlace, Place.held, ne]
          · exact nodup.1
          · exact here
          · exact ⟨nodup.2, fun other isLater => committed other (List.mem_cons_of_mem _ isLater)⟩

/-! ## The kernel -/

private theorem Locked.commits {cpus uncommitted unreleased : List Cpu} {action : Action Cpu}
    (isPlace : system.places agent = .committing cpus uncommitted unreleased)
    {effect : Effect Cpu} (acted : kernel system.reqs (system.places agent) action = some effect) :
    Locked owners ⟨effect.reqs, Function.update system.places agent effect.place⟩ := by
  have expects := locked.expects agent
  rw [isPlace] at expects acted
  obtain ⟨subset, committed⟩ := expects
  cases action with
  | claim cpu number =>
      simp only [kernel, Option.ite_none_right_eq_some, Option.some.injEq] at acted
      obtain ⟨⟨pending, _⟩, rfl⟩ := acted
      apply locked.storesOwn distinct valid
      · simpa [isPlace, Place.held] using subset pending
      · simp [isPlace, Place.held]
      · rfl
      · refine ⟨subset, fun other member done => ?_⟩
        have ne : other ≠ cpu := by
          rintro rfl
          exact done pending
        simpa [store, ne] using committed other member done
  | commit cpu result =>
      simp only [kernel, Option.ite_none_right_eq_some, Option.some.injEq] at acted
      obtain ⟨⟨pending, isResult⟩, rfl⟩ := acted
      apply locked.storesOwn distinct valid
      · simpa [isPlace, Place.held] using subset pending
      · simp [isPlace, Place.held]
      · rfl
      · refine ⟨fun other member => subset (List.mem_of_mem_filter member), ?_⟩
        intro other member done
        by_cases ne : other = cpu
        · subst ne
          simp only [store, Function.update_self, isResult]
          decide
        · simp only [store, Function.update_of_ne ne]
          apply committed other member
          intro pending'
          exact done (List.mem_filter.mpr ⟨pending', by simpa using ne⟩)
  | release cpu =>
      simp only [kernel, Option.ite_none_right_eq_some, Option.some.injEq] at acted
      obtain ⟨⟨member, done⟩, rfl⟩ := acted
      apply locked.storesNotOwned distinct valid
      · simpa [isPlace, Place.held] using member
      · intro other ne
        simp [isPlace, Place.held, ne]
      · simp [Place.held]
      · exact committed cpu member done
      · constructor
        · intro other pending
          refine List.mem_filter.mpr ⟨subset pending, ?_⟩
          have ne : other ≠ cpu := by
            rintro rfl
            exact done pending
          simpa using ne
        · intro other member' done'
          exact committed other (List.mem_of_mem_filter member') done'
  | return_ =>
      cases uncommitted with
      | cons cpu rest => simp [kernel] at acted
      | nil =>
          cases unreleased with
          | cons cpu rest => simp [kernel] at acted
          | nil =>
              simp only [kernel, Option.some.injEq] at acted
              subst acted
              apply locked.moves
              · simp [isPlace, Place.held]
              · trivial
  | _ => simp [kernel] at acted

private theorem Locked.fails {cpus uncommitted : List Cpu} {failed : Bool} {action : Action Cpu}
    (isPlace : system.places agent = .failing cpus uncommitted failed)
    {effect : Effect Cpu} (acted : kernel system.reqs (system.places agent) action = some effect) :
    Locked owners ⟨effect.reqs, Function.update system.places agent effect.place⟩ := by
  have expects := locked.expects agent
  rw [isPlace] at expects acted
  obtain ⟨nodup, subset, committed, failure⟩ := expects
  cases action with
  | claim cpu number =>
      simp only [kernel, Option.ite_none_right_eq_some, Option.some.injEq] at acted
      obtain ⟨⟨pending, _⟩, rfl⟩ := acted
      have apart : ∀ other, other ∉ uncommitted → other ≠ cpu := by
        rintro other done rfl
        exact done pending
      apply locked.storesOwn distinct valid
      · simpa [isPlace, Place.held] using subset pending
      · simp [isPlace, Place.held]
      · rfl
      · refine ⟨nodup, subset, fun other member done => ?_, fun isFailed => ?_⟩
        · simpa [store, apart other done] using committed other member done
        · obtain ⟨other, member, done, incomplete⟩ := failure isFailed
          exact ⟨other, member, done, by simpa [store, apart other done] using incomplete⟩
  | commit cpu result =>
      simp only [kernel, Option.ite_none_right_eq_some, Option.some.injEq] at acted
      obtain ⟨⟨pending, isResult⟩, rfl⟩ := acted
      apply locked.storesOwn distinct valid
      · simpa [isPlace, Place.held] using subset pending
      · simp [isPlace, Place.held]
      · rfl
      · refine ⟨nodup, fun other member => subset (List.mem_of_mem_filter member), ?_, ?_⟩
        · intro other member done
          by_cases same : other = cpu
          · subst same
            simpa [store] using isResult
          · simp only [store, Function.update_of_ne same]
            apply committed other member
            intro pending'
            exact done (List.mem_filter.mpr ⟨pending', by simpa using same⟩)
        · intro isFailed
          by_cases incomplete : result = State.complete
          · have wasFailed : failed = true := by simpa [incomplete] using isFailed
            obtain ⟨other, member, done, incomplete'⟩ := failure wasFailed
            have ne : other ≠ cpu := by
              rintro rfl
              exact done pending
            refine ⟨other, member, fun pending' => done (List.mem_of_mem_filter pending'), ?_⟩
            simpa [store, ne] using incomplete'
          · exact ⟨cpu, subset pending, by simp, by simpa [store] using incomplete⟩
  | return_ =>
      cases uncommitted with
      | cons cpu rest => simp [kernel] at acted
      | nil =>
          cases failed with
          | false => simp [kernel] at acted
          | true =>
              simp only [kernel, Option.some.injEq] at acted
              subst acted
              obtain ⟨cpu, member, _, incomplete⟩ := failure rfl
              apply locked.moves
              · simp [isPlace, Place.held]
              · refine ⟨nodup, fun _ isMember => isMember, ?_, .inr ⟨cpu, member, incomplete⟩⟩
                exact fun other member => committed other member List.not_mem_nil
  | _ => simp [kernel] at acted

private theorem Locked.act {action : Action Cpu} {effect : Effect Cpu}
    (acted : act (owners agent) system.reqs (system.places agent) action = some effect) :
    Locked owners ⟨effect.reqs, Function.update system.places agent effect.place⟩ := by
  have expects := locked.expects agent
  have inKernel : kernel system.reqs (system.places agent) action = some effect →
      Locked owners ⟨effect.reqs, Function.update system.places agent effect.place⟩ := by
    intro acted
    cases isPlace : system.places agent with
    | committing cpus uncommitted unreleased => exact locked.commits distinct valid isPlace acted
    | failing cpus uncommitted failed => exact locked.fails distinct valid isPlace acted
    | _ => simp [kernel, isPlace] at acted
  cases action with
  | start cpus =>
      cases isPlace : system.places agent <;>
        simp only [SyncGroup.act, isPlace, reduceCtorEq, Option.ite_none_right_eq_some,
          Option.some.injEq] at acted
      obtain ⟨nodup, rfl⟩ := acted
      apply locked.moves
      · simp [isPlace, Place.held]
      · simpa [Place.Expects] using nodup
  | open_ options =>
      cases isPlace : system.places agent with
      | between opened todo =>
          cases todo with
          | nil => simp [SyncGroup.act, isPlace] at acted
          | cons cpu todo =>
              simp only [SyncGroup.act, isPlace, Option.ite_none_right_eq_some,
                Option.some.injEq] at acted
              obtain ⟨isOwner, rfl⟩ := acted
              rw [isPlace] at expects
              have begins : options.begin = .getOwner := if_pos (isOwner ▸ valid agent)
              rw [begins]
              apply locked.moves
              · simp [isPlace, Place.held, owns]
              · exact ⟨expects, isOwner, by simp, by simp [owns]⟩
      | _ => simp [SyncGroup.act, isPlace] at acted
  | syncCommit success =>
      cases isPlace : system.places agent with
      | between opened todo =>
          cases todo with
          | cons cpu todo => simp [SyncGroup.act, isPlace] at acted
          | nil =>
              simp only [SyncGroup.act, isPlace, Option.some.injEq] at acted
              subst acted
              rw [isPlace] at expects
              cases success with
              | true =>
                  apply locked.moves
                  · simp [isPlace, Place.held]
                  · exact ⟨fun _ member => member, fun cpu member done => absurd member done⟩
              | false =>
                  apply locked.moves
                  · simp [isPlace, Place.held]
                  · refine ⟨by simpa [Place.Expects] using expects, fun _ member => member,
                      fun cpu member done => absurd member done, ?_⟩
                    simp
      | _ => simp [SyncGroup.act, isPlace] at acted
  | access spurious online =>
      cases isPlace : system.places agent with
      | opening opened cpu todo options pc =>
          simp only [SyncGroup.act, isPlace, access, Option.some.injEq] at acted
          subst acted
          exact locked.opens distinct valid isPlace spurious
      | completing cpus todo pc failureDetected => exact locked.completes isPlace acted
      | releasing cpus todo pc => exact locked.releases distinct valid isPlace acted
      | _ => simp [SyncGroup.act, isPlace, access] at acted
  | claim cpu number => exact inKernel acted
  | commit cpu result => exact inKernel acted
  | release cpu => exact inKernel acted
  | return_ => exact inKernel acted

end Code

/-! ## Who writes a request -/

/-- Before it has the ownership, `Open` changes at most the owner of a free request. -/
theorem openAccess_unowned {options : RunRequestOptions} {req : RunRequest} {spurious : Bool}
    {pc : OpenPc} (notYet : owns pc = false) :
    (openAccess options req spurious pc).1 = req ∨
      ¬req.syncGroupOwned ∧ (openAccess options req spurious pc).1.fields = req.fields := by
  cases pc with
  | getOwner =>
      simp only [openAccess]
      split_ifs <;> exact .inl rfl
  | takeOwnership =>
      simp only [openAccess]
      split_ifs with free
      · exact .inr ⟨not_not.mpr free.1, rfl⟩
      · exact .inl rfl
  | checkNotOwned => exact .inl rfl
  | _ => simp [owns] at notYet

/-- What an agent may do to a request: nothing, or anything to its own, or take a
free one. -/
def Touches (system : System Agent Cpu) (agent : Agent) (reqs : Cpu → RunRequest) (cpu : Cpu) :
    Prop :=
  reqs cpu = system.reqs cpu ∨ cpu ∈ (system.places agent).held ∨
    ¬(system.reqs cpu).syncGroupOwned ∧ (reqs cpu).fields = (system.reqs cpu).fields

omit [DecidableEq Agent] in
private theorem Touches.store_of_held {stored : Cpu} {req : RunRequest}
    (member : stored ∈ (system.places agent).held) (cpu : Cpu) :
    Touches system agent (store system.reqs stored req) cpu := by
  by_cases isStored : cpu = stored
  · subst isStored
    exact .inr (.inl member)
  · left
    simp [store, isStored]

omit [DecidableEq Agent] in
private theorem Locked.access_touches {spurious online : Bool} {effect : Effect Cpu}
    (accessed : access system.reqs spurious online (system.places agent) = some effect)
    (cpu : Cpu) : Touches system agent effect.reqs cpu := by
  cases isPlace : system.places agent with
  | opening opened target todo options pc =>
      simp only [isPlace, access, Option.some.injEq] at accessed
      subst accessed
      cases isOwner : owns pc with
      | true =>
          apply Touches.store_of_held
          simp [isPlace, Place.held, isOwner]
      | false =>
          by_cases isTarget : cpu = target
          · subst isTarget
            have unowned :=
              @openAccess_unowned options (system.reqs cpu) spurious pc isOwner
            rcases unowned with same | taken
            · left
              simpa [store] using same
            · right
              right
              simpa [store] using taken
          · left
            simp [store, isTarget]
  | completing cpus todo pc failureDetected =>
      left
      cases todo <;>
        · simp only [isPlace, access, Option.some.injEq] at accessed
          subst accessed
          rfl
  | releasing cpus todo pc =>
      cases todo with
      | nil =>
          simp only [isPlace, access, Option.some.injEq] at accessed
          subst accessed
          exact .inl rfl
      | cons target todo =>
          cases pc with
          | store =>
              simp only [isPlace, access, Option.some.injEq] at accessed
              subst accessed
              apply Touches.store_of_held
              simp [isPlace, Place.held]
          | _ =>
              simp only [isPlace, access, Option.some.injEq] at accessed
              subst accessed
              exact .inl rfl
  | _ => simp [isPlace, access] at accessed

omit [DecidableEq Agent] in
private theorem Locked.kernel_touches (locked : Locked owners system) {action : Action Cpu}
    {effect : Effect Cpu} (acted : kernel system.reqs (system.places agent) action = some effect)
    (cpu : Cpu) : Touches system agent effect.reqs cpu := by
  have expects := locked.expects agent
  cases isPlace : system.places agent with
  | committing cpus uncommitted unreleased =>
      rw [isPlace] at acted expects
      cases action with
      | claim target number =>
          simp only [kernel, Option.ite_none_right_eq_some, Option.some.injEq] at acted
          obtain ⟨⟨pending, _⟩, rfl⟩ := acted
          apply Touches.store_of_held
          simpa [isPlace, Place.held] using expects.1 pending
      | commit target result =>
          simp only [kernel, Option.ite_none_right_eq_some, Option.some.injEq] at acted
          obtain ⟨⟨pending, _⟩, rfl⟩ := acted
          apply Touches.store_of_held
          simpa [isPlace, Place.held] using expects.1 pending
      | release target =>
          simp only [kernel, Option.ite_none_right_eq_some, Option.some.injEq] at acted
          obtain ⟨⟨member, _⟩, rfl⟩ := acted
          apply Touches.store_of_held
          simpa [isPlace, Place.held] using member
      | return_ =>
          cases uncommitted <;> cases unreleased <;> simp [kernel] at acted
          subst acted
          exact .inl rfl
      | _ => simp [kernel] at acted
  | failing cpus uncommitted failed =>
      rw [isPlace] at acted expects
      cases action with
      | claim target number =>
          simp only [kernel, Option.ite_none_right_eq_some, Option.some.injEq] at acted
          obtain ⟨⟨pending, _⟩, rfl⟩ := acted
          apply Touches.store_of_held
          simpa [isPlace, Place.held] using expects.2.1 pending
      | commit target result =>
          simp only [kernel, Option.ite_none_right_eq_some, Option.some.injEq] at acted
          obtain ⟨⟨pending, _⟩, rfl⟩ := acted
          apply Touches.store_of_held
          simpa [isPlace, Place.held] using expects.2.1 pending
      | return_ =>
          cases uncommitted <;> cases failed <;> simp [kernel] at acted
          subst acted
          exact .inl rfl
      | _ => simp [kernel] at acted
  | _ => simp [isPlace, kernel] at acted

omit [DecidableEq Agent] in
/-- An agent's step leaves the requests of others alone, and writes the fields only
of its own. -/
theorem Locked.touches (locked : Locked owners system) {action : Action Cpu}
    {effect : Effect Cpu}
    (acted : SyncGroup.act (owners agent) system.reqs (system.places agent) action = some effect)
    (cpu : Cpu) : Touches system agent effect.reqs cpu := by
  cases action with
  | start cpus =>
      left
      cases isPlace : system.places agent <;>
        simp only [SyncGroup.act, isPlace, reduceCtorEq, Option.ite_none_right_eq_some,
          Option.some.injEq] at acted
      obtain ⟨_, rfl⟩ := acted
      rfl
  | open_ options =>
      left
      cases isPlace : system.places agent with
      | between opened todo =>
          cases todo with
          | nil => simp [SyncGroup.act, isPlace] at acted
          | cons target todo =>
              simp only [SyncGroup.act, isPlace, Option.ite_none_right_eq_some,
                Option.some.injEq] at acted
              obtain ⟨_, rfl⟩ := acted
              rfl
      | _ => simp [SyncGroup.act, isPlace] at acted
  | syncCommit success =>
      left
      cases isPlace : system.places agent with
      | between opened todo =>
          cases todo with
          | cons target todo => simp [SyncGroup.act, isPlace] at acted
          | nil =>
              simp only [SyncGroup.act, isPlace, Option.some.injEq] at acted
              subst acted
              rfl
      | _ => simp [SyncGroup.act, isPlace] at acted
  | access spurious online => exact Locked.access_touches acted cpu
  | claim target number => exact locked.kernel_touches acted cpu
  | commit target result => exact locked.kernel_touches acted cpu
  | release target => exact locked.kernel_touches acted cpu
  | return_ => exact locked.kernel_touches acted cpu

/-! ## The lock -/

omit [DecidableEq Agent] [DecidableEq Cpu] in
theorem Locked.initial (initial : system.Initial) : Locked owners system := by
  obtain ⟨free, idle⟩ := initial
  constructor
  · intro agent cpu member
    simp [idle agent, Place.held] at member
  · intro cpu owned
    exact absurd (free cpu).2 owned
  · intro cpu _
    exact (free cpu).1
  · intro agent
    rw [idle agent]
    trivial

theorem locked_of_reachable (distinct : Function.Injective owners)
    (valid : ∀ agent, owners agent ≠ kSyncGroupNotOwned)
    (reachable : (syncGroups owners).Reachable system) : Locked owners system := by
  apply reachable.invariant
  · intro state initial
    exact Locked.initial initial
  · intro state label next locked moved
    obtain ⟨effect, acted, rfl⟩ := moved
    exact locked.act distinct valid acted

omit [DecidableEq Agent] [DecidableEq Cpu] in
/-- The owner word names exactly the agent that holds the request. -/
theorem Locked.owner_iff (locked : Locked owners system) (distinct : Function.Injective owners)
    (valid : ∀ agent, owners agent ≠ kSyncGroupNotOwned) (agent : Agent) (cpu : Cpu) :
    (system.reqs cpu).syncGroupOwner = owners agent ↔ cpu ∈ (system.places agent).held := by
  constructor
  · intro isOwner
    have owned : (system.reqs cpu).syncGroupOwned := by
      intro free
      exact valid agent (isOwner.symm.trans free)
    obtain ⟨other, member⟩ := locked.owned cpu owned
    have same := distinct ((locked.held other cpu member).symm.trans isOwner)
    exact same ▸ member
  · exact locked.held agent cpu

/-- The next access of the agent stores one of the fields of a request. -/
def Place.StoresField : Place Cpu → Cpu → Prop
  | .opening _ target _ _ pc, cpu => cpu = target ∧
      pc ∈ [.storeAgentBarrier, .storeGtid, .storeTaskBarrier, .storeRunFlags, .storeCommitFlags]
  | _, _ => False

omit [DecidableEq Cpu] in
private theorem Place.StoresField.held {place : Place Cpu} (stores : place.StoresField cpu) :
    cpu ∈ place.held := by
  cases place with
  | opening opened target todo options pc =>
      obtain ⟨rfl, isStore⟩ := stores
      have isOwner : owns pc = true := by
        simp only [List.mem_cons, List.not_mem_nil, or_false] at isStore
        rcases isStore with rfl | rfl | rfl | rfl | rfl <;> rfl
      simp [Place.held, isOwner]
  | _ => cases stores

/-- For any agents with distinct ids: two agents never both own a request, and the
owner word of a request is the id of an agent if and only if that agent owns it; the
fields of a request are stored only by its owner, and whatever else a step changes in
an owned request is done by or for the owner; no `CHECK` fails; and between two groups
an agent owns nothing. -/
theorem sync_group_lock (owners : Agent → Int) (distinct : Function.Injective owners)
    (valid : ∀ agent, owners agent ≠ kSyncGroupNotOwned) (system : System Agent Cpu)
    (reachable : (syncGroups owners).Reachable system) :
    (∀ cpu agent other, cpu ∈ (system.places agent).held → cpu ∈ (system.places other).held →
      agent = other) ∧
    (∀ cpu agent, (system.reqs cpu).syncGroupOwner = owners agent ↔
      cpu ∈ (system.places agent).held) ∧
    (∀ cpu agent, (system.places agent).StoresField cpu →
      (system.reqs cpu).syncGroupOwner = owners agent) ∧
    (∀ agent action next, (syncGroups owners).step system (agent, action) next → ∀ cpu,
      ((next.reqs cpu).fields ≠ (system.reqs cpu).fields ∨
        (system.reqs cpu).syncGroupOwned ∧ next.reqs cpu ≠ system.reqs cpu) →
      (system.reqs cpu).syncGroupOwner = owners agent) ∧
    (∀ agent, system.places agent ≠ .dead) ∧
    ∀ agent last, system.places agent = .idle last →
      ∀ cpu ∈ last, (system.reqs cpu).syncGroupOwner ≠ owners agent := by
  have locked := locked_of_reachable distinct valid reachable
  refine ⟨?_, fun cpu agent => locked.owner_iff distinct valid agent cpu, ?_, ?_, ?_, ?_⟩
  · intro cpu agent other member member'
    exact distinct ((locked.held agent cpu member).symm.trans (locked.held other cpu member'))
  · intro cpu agent stores
    exact locked.held agent cpu stores.held
  · intro agent action next moved cpu changed
    obtain ⟨effect, acted, rfl⟩ := moved
    rcases locked.touches acted cpu with same | member | ⟨free, sameFields⟩
    · rcases changed with other | ⟨_, other⟩
      · exact absurd (congrArg RunRequest.fields same) other
      · exact absurd same other
    · exact locked.held agent cpu member
    · rcases changed with other | ⟨owned, _⟩
      · exact absurd sameFields other
      · exact absurd owned free
  · intro agent isDead
    have expects := locked.expects agent
    rw [isDead] at expects
    exact expects
  · intro agent last isIdle cpu _ isOwner
    have member := (locked.owner_iff distinct valid agent cpu).mp isOwner
    simp [isIdle, Place.held] at member

end Steps

/-! ## A run -/

section Run

def unopened : System Bool Nat where
  reqs _ := ⟨State.complete, ⟨0, 0, 0, 0, 0⟩, kSyncGroupNotOwned, false⟩
  places _ := .idle []

def ids (agent : Bool) : Int := if agent then 1 else 2

def perform (system : System Bool Nat) (label : Bool × Action Nat) : Option (System Bool Nat) :=
  (act (ids label.1) system.reqs (system.places label.1) label.2).map fun effect =>
    ⟨effect.reqs, Function.update system.places label.1 effect.place⟩

def replay (labels : List (Bool × Action Nat)) : System Bool Nat :=
  (labels.foldlM perform unopened).getD unopened

theorem replay_reachable {labels : List (Bool × Action Nat)}
    (possible : labels.foldlM perform unopened = some (replay labels)) :
    (syncGroups ids).Reachable (replay labels) := by
  have complete : isCommitted State.complete := by decide
  refine ⟨unopened, labels, ⟨fun _ => ⟨complete, rfl⟩, fun _ => rfl⟩, ?_⟩
  apply Machine.Run.of_foldlM_some _ possible
  intro state label next performed
  obtain ⟨effect, acted, rfl⟩ := Option.map_eq_some_iff.mp performed
  exact ⟨effect, acted, rfl⟩

def turns (n : Nat) (agent : Bool) (spurious : Bool) : List (Bool × Action Nat) :=
  List.replicate n (agent, .access spurious true)

/-- A group of two CPUs, while another agent finds that one of them is owned. -/
def waiting : List (Bool × Action Nat) :=
  List.flatten [[(true, .start [0, 1]), (true, .open_ { syncGroupOwner := 1 })], turns 11 true false,
    [(true, .open_ { syncGroupOwner := 1 })], turns 11 true false,
    [(false, .start [1]), (false, .open_ { syncGroupOwner := 2 })], turns 1 false false]

/-- The kernel commits one CPU of the group and fails with the other, so that the agent releases
both. The CAS of the other agent fails spuriously, and then takes the CPU. -/
def contended : List (Bool × Action Nat) :=
  List.flatten [waiting, [(true, .syncCommit false), (true, .claim 0 3),
    (true, .commit 0 State.complete), (true, .commit 1 State.targetStale), (true, .return_)],
    turns 12 true false, turns 2 false true, turns 2 false false]

theorem sync_group_lock_contended :
    ((syncGroups ids).Reachable (replay waiting) ∧
      (replay waiting).places false = .opening [] 1 [] { syncGroupOwner := 2 } .getOwner ∧
      1 ∉ ((replay waiting).places false).held) ∧
    (syncGroups ids).Reachable (replay contended) ∧
      (replay contended).places true = .idle [0, 1] ∧
      ((replay contended).reqs 1).syncGroupOwner ≠ ids true ∧
      1 ∈ ((replay contended).places false).held := by
  have distinct : Function.Injective ids := by decide
  have reachable : (syncGroups ids).Reachable (replay waiting) := replay_reachable rfl
  have reachable' : (syncGroups ids).Reachable (replay contended) := replay_reachable rfl
  have lock := sync_group_lock ids distinct (by decide) (replay waiting) reachable
  have lock' := sync_group_lock ids distinct (by decide) (replay contended) reachable'
  refine ⟨⟨reachable, rfl, fun held => ?_⟩, reachable', rfl, ?_, (lock'.2.1 1 false).mp rfl⟩
  · have isFalse : ((replay waiting).reqs 1).syncGroupOwner = ids false := (lock.2.1 1 false).mpr held
    exact absurd isFalse (by decide)
  · exact lock'.2.2.2.2.2 true [0, 1] rfl 1 (List.mem_cons_of_mem _ List.mem_cons_self)

end Run

end Ghost.Txn.SyncGroup
