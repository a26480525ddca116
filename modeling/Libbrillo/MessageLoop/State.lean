import Libbrillo.MessageLoop.TaskId
import Mathlib.Logic.Function.Basic

namespace Chromeos

-- A `base::Closure`: `none` is the null closure, any other value an opaque callback.
abbrev Closure := Option Nat

structure DelayedTask where
  closure : Closure
  deriving DecidableEq, Repr

structure IOTask where
  taskId : TaskId
  persistent : Bool
  closure : Closure
  deriving DecidableEq, Repr

inductive WatchMode
  | kWatchRead
  | kWatchWrite
  -- any other value the enum can hold
  | other (value : Int)
  deriving DecidableEq, Repr

inductive Mode
  | watchRead
  | watchWrite
  deriving DecidableEq, Repr

-- a descriptor watch registered with the base loop through an `IOTask`'s `fd_watcher`
structure Watch where
  fd : Int
  mode : Mode
  persistent : Bool
  deriving DecidableEq, Repr

inductive Drive
  | runOnce (mayBlock : Bool)
  | run
  deriving DecidableEq, Repr

/-- A call in progress, innermost first: the base loop driven by `RunOnce` or `Run` (with
whether `QuitNow` was called on it), or a scheduler closure running inside
`OnRanPostedTask(taskId)` or `OnFileReady`. -/
inductive Frame
  | drive (how : Drive) (quit : Bool)
  | ranPostedTask (taskId : TaskId)
  | fileReady
  deriving DecidableEq, Repr

/-- `BaseMessageLoop` with the parts of its `base::MessageLoopForIO` it talks to: the
`OnRanPostedTask(taskId)` callbacks posted and not yet run, counted by id, the registered
descriptor watches, and the calls in progress. -/
structure State where
  lastId : TaskId
  delayedTasks : TaskId → Option DelayedTask
  ioTasks : TaskId → Option IOTask
  runOnce : Bool
  postedTasks : TaskId → Nat
  watches : TaskId → Option Watch
  stack : List Frame

namespace State

def initial : State where
  lastId := kTaskIdNull
  delayedTasks := fun _ => none
  ioTasks := fun _ => none
  runOnce := false
  postedTasks := fun _ => 0
  watches := fun _ => none
  stack := []

-- the two `find` calls of `NextTaskId`
def taken (s : State) (t : TaskId) : Bool :=
  (s.delayedTasks t).isSome || (s.ioTasks t).isSome

/-- `NextTaskId`: the id it returns and leaves in `last_id_`, or `none` when every non-null id
is taken and the loop never ends. -/
def nextTaskId (s : State) : Option (State × TaskId) :=
  (nextTaskIdLoop s.taken (2 ^ 64) s.lastId).map fun res => ({ s with lastId := res }, res)

theorem nextTaskId_spec {s s' : State} {t : TaskId} (next : s.nextTaskId = some (s', t)) :
    s' = { s with lastId := t } ∧ t ≠ kTaskIdNull ∧ s.delayedTasks t = none ∧
      s.ioTasks t = none := by
  simp only [nextTaskId, Option.map_eq_some', Prod.mk.injEq] at next
  obtain ⟨res, found, rfl, rfl⟩ := next
  obtain ⟨nonNull, free⟩ := nextTaskIdLoop_free found
  exact ⟨rfl, nonNull, by simpa [taken] using free⟩

theorem nextTaskId_none {s : State} (exhausted : s.nextTaskId = none) :
    ∀ t, t ≠ kTaskIdNull → s.taken t = true := by
  intro t nonNull
  by_contra free
  obtain ⟨k, -, bound, runs, -⟩ :=
    nextTaskIdLoop_first_free s.lastId ⟨t, nonNull, by simpa using free⟩
  rw [nextTaskId, runs, if_pos bound] at exhausted
  cases exhausted

theorem nextTaskId_of_free_succ {s : State} (free : Free s.taken (s.lastId + 1)) :
    s.nextTaskId = some ({ s with lastId := s.lastId + 1 }, s.lastId + 1) := by
  have found : nextTaskIdLoop s.taken (2 ^ 64) s.lastId = some (s.lastId + BitVec.ofNat 64 1) :=
    @nextTaskIdLoop_of_first 64 s.taken (2 ^ 64) 1 s.lastId (by decide) Nat.one_le_two_pow free
      (fun j pos lt => by omega)
  simp only [nextTaskId, found]
  rfl

/-- `NextTaskId` returns, and leaves in `last_id_`, the first id after `last_id_` in the
wrapping order that is not null and a key of neither store; it gets there after exactly as
many turns as that id is away, at most `2^64`. -/
theorem nextTaskId_first_free (s : State) (exists_free : ∃ t, Free s.taken t) :
    ∃ k, 0 < k ∧ k ≤ 2 ^ 64 ∧
      (∀ fuel, nextTaskIdLoop s.taken fuel s.lastId =
        if k ≤ fuel then some (s.lastId + BitVec.ofNat 64 k) else none) ∧
      s.nextTaskId =
        some ({ s with lastId := s.lastId + BitVec.ofNat 64 k }, s.lastId + BitVec.ofNat 64 k) ∧
      Free s.taken (s.lastId + BitVec.ofNat 64 k) ∧
      ∀ j, 0 < j → j < k → ¬ Free s.taken (s.lastId + BitVec.ofNat 64 j) := by
  obtain ⟨k, positive, bound, runs, free, before⟩ :=
    nextTaskIdLoop_first_free s.lastId exists_free
  refine ⟨k, positive, bound, runs, ?_, free, before⟩
  rw [nextTaskId, runs, if_pos bound]
  rfl

-- `last_id_` at the largest id and id `1` held: the loop wraps to the null id, skips it and
-- `1`, and returns `2` at its third turn
def wrapPastNull : State :=
  { initial with
    lastId := BitVec.allOnes 64
    delayedTasks := fun t => if t = 1 then some ⟨none⟩ else none }

theorem nextTaskId_first_free_wrapPastNull :
    (∃ t, Free wrapPastNull.taken t) ∧ ∃ k, 0 < k ∧ k ≤ 2 ^ 64 ∧
      (∀ fuel, nextTaskIdLoop wrapPastNull.taken fuel wrapPastNull.lastId =
        if k ≤ fuel then some (wrapPastNull.lastId + BitVec.ofNat 64 k) else none) ∧
      wrapPastNull.nextTaskId =
        some ({ wrapPastNull with lastId := wrapPastNull.lastId + BitVec.ofNat 64 k },
          wrapPastNull.lastId + BitVec.ofNat 64 k) ∧
      Free wrapPastNull.taken (wrapPastNull.lastId + BitVec.ofNat 64 k) ∧
      ∀ j, 0 < j → j < k → ¬ Free wrapPastNull.taken (wrapPastNull.lastId + BitVec.ofNat 64 j) :=
  ⟨⟨2, by decide, rfl⟩, nextTaskId_first_free wrapPastNull ⟨2, by decide, rfl⟩⟩

example : wrapPastNull.nextTaskId = some ({ wrapPastNull with lastId := 2 }, 2) := rfl

-- A state where only `last_id_` itself is free: every other non-null id is a delayed task.
def wrapState : State :=
  { initial with
    lastId := 5
    delayedTasks := fun t => if t = 0 ∨ t = 5 then none else some ⟨none⟩ }

/-- From `wrapState` the loop needs all `2^64` turns: `2^64 - 1` turns find nothing, and the
id it returns is `last_id_` itself. -/
theorem nextTaskId_full_turn :
    Free wrapState.taken 5 ∧ nextTaskIdLoop wrapState.taken (2 ^ 64 - 1) wrapState.lastId = none ∧
      wrapState.nextTaskId = some ({ wrapState with lastId := 5 }, 5) := by
  have takenIff : ∀ t, wrapState.taken t = false ↔ t = 0 ∨ t = 5 := by
    intro t
    simp only [wrapState, taken, initial]
    split <;> simp_all
  have free : Free wrapState.taken 5 := ⟨by decide, (takenIff 5).mpr (.inr rfl)⟩
  have short : nextTaskIdLoop wrapState.taken (2 ^ 64 - 1) wrapState.lastId = none := by
    refine nextTaskIdLoop_of_none_free fun j pos le ⟨nonNull, notTaken⟩ => ?_
    rcases (takenIff _).mp notTaken with zero | same
    · exact nonNull zero
    · have wraps : BitVec.ofNat 64 j = 0 := by
        simpa [wrapState, initial] using same
      have := congrArg BitVec.toNat wraps
      simp at this
      omega
  refine ⟨free, short, ?_⟩
  obtain ⟨k, -, bound, runs, -, -⟩ := nextTaskIdLoop_first_free wrapState.lastId ⟨5, free⟩
  have full : k = 2 ^ 64 := by
    by_contra short'
    have := runs (2 ^ 64 - 1)
    rw [if_pos (by omega), short] at this
    cases this
  rw [nextTaskId, runs, if_pos bound, full]
  rfl

end State

end Chromeos
