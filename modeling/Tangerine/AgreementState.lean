import Tangerine.Types

/-!
# The agreement state machine

`core/agreement-state.go` drives one round of Byzantine agreement through eight states.
Each state's `nextState` reads the shared `agreementData` (whether the node leads, the
period, the lock value), may ask the receiver for a block and for the leader's block
hash, proposes votes to the receiver, and names the state that follows.

The collaborators are outside the machine and may answer anything at every step, so a
step is modelled as a function of what it reads (`AgreementEnv`): one value per field,
read once in the step. `preCommitState` reads `lockValue` twice, under one read lock,
and sees one value. A step returns the next state and the calls it made to the receiver,
in order, or an error: `nextState`'s Go signature allows one.

A run from `newFastState` walks the schedule `stateAt` (Fast, FastVote, Initial,
PreCommit, Commit, Forward, then PullVote forever), and the votes it proposes are, step
by step, those of `expectedVotes`, the description of the votes given with the machine:
an optional Fast and an optional Init vote, then exactly one PreCom and one Com vote.
-/

/-- `agreementStateType`. -/
inductive AgreementStateType
  | fast
  | fastVote
  | initial
  | preCommit
  | commit
  | forward
  | pullVote
  | sleep
deriving DecidableEq, Repr

namespace AgreementStateType

/-- `clocks()`: how many clock ticks the state lasts. -/
def clocks : AgreementStateType → ℕ
  | fast => 0
  | fastVote => 3
  | initial => 0
  | preCommit => 2
  | commit => 2
  | forward => 4
  | pullVote => 4
  | sleep => 65536

end AgreementStateType

/-- What one `nextState` may read from `agreementData` and its collaborators. -/
structure AgreementEnv where
  /-- `a.isLeader`. -/
  isLeader : Bool
  /-- What `a.recv.ProposeBlock()` returns. -/
  proposeBlock : Hash
  /-- `a.period`. -/
  period : UInt64
  /-- `a.lockValue`. -/
  lockValue : Hash
  /-- What `a.leader.leaderBlockHash()` returns. -/
  leaderBlockHash : Hash

/-- A call of `nextState` to the receiver. -/
inductive RecvCall
  /-- `recv.ProposeBlock()`. -/
  | proposeBlock
  /-- `recv.ProposeVote(vote)`. -/
  | proposeVote (vote : Vote)
deriving DecidableEq

/-- The votes among the receiver calls, in order. -/
def proposedVotes (calls : List RecvCall) : List Vote :=
  calls.filterMap fun
    | .proposeBlock => none
    | .proposeVote v => some v

@[simp] theorem proposedVotes_nil : proposedVotes [] = [] := rfl

@[simp] theorem proposedVotes_append (l₁ l₂ : List RecvCall) :
    proposedVotes (l₁ ++ l₂) = proposedVotes l₁ ++ proposedVotes l₂ :=
  List.filterMap_append _ _ _

@[simp] theorem proposedVotes_proposeBlock (l : List RecvCall) :
    proposedVotes (.proposeBlock :: l) = proposedVotes l := rfl

@[simp] theorem proposedVotes_proposeVote (v : Vote) (l : List RecvCall) :
    proposedVotes (.proposeVote v :: l) = v :: proposedVotes l := rfl

open AgreementStateType

/-- `nextState` of each state: the state that follows and the calls to the receiver. -/
def nextState : AgreementStateType → AgreementEnv →
    Except Error (AgreementStateType × List RecvCall)
  | fast, e =>
    .ok (fastVote, if e.isLeader then
      .proposeBlock :: if e.proposeBlock ≠ Hash.zero
        then [.proposeVote (newVote VoteType.fast e.proposeBlock e.period)] else []
      else [])
  | fastVote, _ => .ok (initial, [])
  | initial, e =>
    .ok (preCommit, if !e.isLeader
      then [.proposeBlock, .proposeVote (newVote VoteType.init e.proposeBlock e.period)]
      else [])
  | preCommit, e =>
    .ok (commit, [.proposeVote (newVote VoteType.preCom
      (if e.lockValue = Hash.skip ∨ e.lockValue = Hash.zero then e.leaderBlockHash
        else e.lockValue) e.period)])
  | commit, e => .ok (forward, [.proposeVote (newVote VoteType.com e.lockValue e.period)])
  | forward, _ => .ok (pullVote, [])
  | pullVote, _ => .ok (pullVote, [])
  | sleep, _ => .ok (sleep, [])

/-- Repeated `nextState` from a state, one environment per step: the states visited,
the first included, and the receiver calls of all steps. -/
def runSteps : List AgreementEnv → AgreementStateType →
    Except Error (List AgreementStateType × List RecvCall)
  | [], s => .ok ([s], [])
  | e :: envs, s => do
    let (s', calls) ← nextState s e
    let (states, calls') ← runSteps envs s'
    return (s :: states, calls ++ calls')

/-! ## The schedule of a run -/

/-- The state after `i` steps from `newFastState`. -/
def stateAt : ℕ → AgreementStateType
  | 0 => fast
  | 1 => fastVote
  | 2 => initial
  | 3 => preCommit
  | 4 => commit
  | 5 => forward
  | _ + 6 => pullVote

/-- The votes proposed at step `i` of a run from `newFastState`, as the machine is
described: at Fast a Fast vote for the proposed block, if the node leads and the hash is
not null; at Initial an Init vote for the proposed block, if the node does not lead; at
PreCommit a PreCom vote for the lock value, or for the leader's block if the lock is
SKIP or null; at Commit a Com vote for the lock value; nothing else. Each carries the
period of its step. -/
def expectedVotes : ℕ → AgreementEnv → List Vote
  | 0, e => if e.isLeader ∧ e.proposeBlock ≠ Hash.zero
      then [newVote VoteType.fast e.proposeBlock e.period] else []
  | 2, e => if e.isLeader then [] else [newVote VoteType.init e.proposeBlock e.period]
  | 3, e => [newVote VoteType.preCom
      (if e.lockValue = Hash.skip ∨ e.lockValue = Hash.zero then e.leaderBlockHash
        else e.lockValue) e.period]
  | 4, e => [newVote VoteType.com e.lockValue e.period]
  | _, _ => []

/-- **One step follows the schedule** and proposes the expected votes. -/
theorem nextState_stateAt (i : ℕ) (e : AgreementEnv) :
    ∃ calls, nextState (stateAt i) e = .ok (stateAt (i + 1), calls) ∧
      proposedVotes calls = expectedVotes i e := by
  match i with
  | 0 => by_cases hl : e.isLeader <;> by_cases hp : e.proposeBlock = Hash.zero <;>
      simp [stateAt, nextState, expectedVotes, hl, hp]
  | 2 => cases hl : e.isLeader <;> simp [stateAt, nextState, expectedVotes, hl]
  | 1 | 3 | 4 | 5 | _ + 6 => exact ⟨_, rfl, rfl⟩

/-- **A run from any point of the schedule follows it**: it visits the next states of
the schedule and proposes, step by step, the expected votes. -/
theorem runSteps_stateAt (envs : List AgreementEnv) (i : ℕ) :
    ∃ calls, runSteps envs (stateAt i) =
        .ok ((List.range' i (envs.length + 1)).map stateAt, calls) ∧
      proposedVotes calls = (envs.enumFrom i).flatMap fun p => expectedVotes p.1 p.2 := by
  induction envs generalizing i with
  | nil => exact ⟨[], rfl, rfl⟩
  | cons e envs ih =>
    obtain ⟨calls, hstep, hv⟩ := nextState_stateAt i e
    obtain ⟨calls', hrun, hv'⟩ := ih (i + 1)
    refine ⟨calls ++ calls', ?_, by simp [hv, hv']⟩
    simp only [runSteps, hstep, hrun, bind, Except.bind, pure, Except.pure]
    rfl

/-- **Runs of the agreement machine.** Whatever the collaborators answer at each step, a
run of any length from `newFastState` never fails, visits Fast, FastVote, Initial,
PreCommit, Commit, Forward and then PullVote forever, and proposes exactly the expected
votes, in order: an optional Fast vote, an optional Init vote, one PreCom vote and one
Com vote, each with the period of its step, and nothing after. -/
theorem agreement_run_schedule (envs : List AgreementEnv) :
    ∃ calls, runSteps envs fast =
        .ok ((List.range (envs.length + 1)).map stateAt, calls) ∧
      proposedVotes calls = envs.enum.flatMap fun p => expectedVotes p.1 p.2 := by
  rw [List.range_eq_range']
  exact runSteps_stateAt envs 0
