import Libbrillo.MessageLoop.State

namespace Chromeos

inductive Source
  | delayed
  | io
  deriving DecidableEq, Repr

/-- What one step reports: the id `PostDelayedTask` or `WatchFileDescriptor` returned, what
`CancelTask(t)` returned, a scheduler closure starting to run, `OnRanPostedTask(t)` erasing its
record, what `RunOnce` returned, or nothing. -/
inductive Out
  | taskId (t : TaskId)
  | cancelled (t : TaskId) (ok : Bool)
  | started (t : TaskId) (source : Source)
  | erased (t : TaskId)
  | ranOnce (ran : Bool)
  | done
  deriving DecidableEq, Repr

/-- Where the code would fail a `DCHECK`, touch a destroyed record, run a null closure, or
never return. -/
inductive Fault
  | missingDelayedTask
  | duplicateIOTask
  | missingIOTask
  | nullClosure
  | taskIdsExhausted
  deriving DecidableEq, Repr

/-- The scheduler calls a client or a running closure can make, and what the base loop can do
while it is driven: run a posted `OnRanPostedTask(taskId)`, report readiness on the watch of
`taskId`, or return from `Run`/`RunUntilIdle`. The `Bool` arguments are the base loop's
answers: whether it accepted the posted task, and whether the watch was registered. -/
inductive Event
  | postDelayedTask (task : Closure) (accepted : Bool)
  | watchFileDescriptor (fd : Int) (mode : WatchMode) (persistent : Bool) (task : Closure)
      (scheduled : Bool)
  | cancelTask (taskId : TaskId)
  | breakLoop
  | runOnce (mayBlock : Bool)
  | run
  | closureReturns
  | runPostedTask (taskId : TaskId)
  | fileReady (taskId : TaskId)
  | loopReturns
  deriving DecidableEq, Repr

inductive Outcome
  | ok (s : State) (out : Out)
  | fault (f : Fault)
  | disabled

def emplace {α : Type} (m : TaskId → Option α) (key : TaskId) (value : α) : TaskId → Option α :=
  if (m key).isSome then m else Function.update m key (some value)

def quitNow : List Frame → List Frame
  | [] => []
  | .drive how _ :: rest => .drive how true :: rest
  | .ranPostedTask t :: rest => .ranPostedTask t :: quitNow rest
  | .fileReady :: rest => .fileReady :: quitNow rest

def clientTurn : List Frame → Bool
  | .drive .. :: _ => false
  | _ => true

def baseMode : WatchMode → Option Mode
  | .kWatchRead => some .watchRead
  | .kWatchWrite => some .watchWrite
  | .other _ => none

namespace State

def postDelayedTask (s : State) (task : Closure) (accepted : Bool) :
    Except Fault (State × TaskId) :=
  match s.nextTaskId with
  | none => .error .taskIdsExhausted
  | some (s, taskId) =>
    if accepted then
      .ok ({ s with
        postedTasks := Function.update s.postedTasks taskId (s.postedTasks taskId + 1)
        delayedTasks := emplace s.delayedTasks taskId ⟨task⟩ }, taskId)
    else .ok (s, kTaskIdNull)

def watchFileDescriptor (s : State) (fd : Int) (mode : WatchMode) (persistent : Bool)
    (task : Closure) (scheduled : Bool) : Except Fault (State × TaskId) :=
  if fd < 0 then .ok (s, kTaskIdNull) else
  match baseMode mode with
  | none => .ok (s, kTaskIdNull)
  | some base =>
    match s.nextTaskId with
    | none => .error .taskIdsExhausted
    | some (s, taskId) =>
      if (s.ioTasks taskId).isSome then .error .duplicateIOTask else
      let s := { s with ioTasks := Function.update s.ioTasks taskId (some ⟨taskId, persistent, task⟩) }
      if scheduled then
        .ok ({ s with watches := Function.update s.watches taskId (some ⟨fd, base, persistent⟩) },
          taskId)
      else .ok ({ s with ioTasks := Function.update s.ioTasks taskId none }, kTaskIdNull)

def cancelTask (s : State) (taskId : TaskId) : State × Bool :=
  if taskId = kTaskIdNull then (s, false) else
  match s.delayedTasks taskId with
  | none =>
    match s.ioTasks taskId with
    | none => (s, false)
    | some _ =>
      ({ s with
        ioTasks := Function.update s.ioTasks taskId none
        watches := Function.update s.watches taskId none }, true)
  | some task =>
    if task.closure.isNone then (s, false) else
    ({ s with delayedTasks := Function.update s.delayedTasks taskId (some { task with closure := none }) },
      true)

def breakLoop (s : State) : State := { s with stack := quitNow s.stack }

/-- `~BaseMessageLoop` calls `StopWatchingFileDescriptor` on the watcher of every record of
`io_tasks_`: the watches the base loop keeps. -/
def destroy (s : State) : TaskId → Option Watch :=
  fun t => if (s.ioTasks t).isSome then none else s.watches t

def runOnceBegin (s : State) (mayBlock : Bool) : State :=
  { s with runOnce := true, stack := .drive (.runOnce mayBlock) false :: s.stack }

def runOnceEnd (s : State) : State × Bool :=
  if !s.runOnce then (s, true) else ({ s with runOnce := false }, false)

def runBegin (s : State) : State := { s with stack := .drive .run false :: s.stack }

def onRanPostedTask (s : State) (taskId : TaskId) : Except Fault (State × Out) :=
  match s.delayedTasks taskId with
  | none => .error .missingDelayedTask
  | some task =>
    match task.closure with
    | some _ =>
      .ok ({ s with
        delayedTasks := Function.update s.delayedTasks taskId (some { task with closure := none })
        stack := .ranPostedTask taskId :: s.stack }, .started taskId .delayed)
    | none => .ok ({ s with delayedTasks := Function.update s.delayedTasks taskId none }, .erased taskId)

def quitIfRunOnce (s : State) : State :=
  if s.runOnce then { s with runOnce := false, stack := quitNow s.stack } else s

def onRanPostedTaskEnd (s : State) (taskId : TaskId) : State :=
  let s := s.quitIfRunOnce
  { s with delayedTasks := Function.update s.delayedTasks taskId none }

def onFileReady (s : State) (task : IOTask) : Except Fault (State × Out) :=
  match task.closure with
  | none => .error .nullClosure
  | some _ =>
    let s := if task.persistent then s else
      { s with
        ioTasks := Function.update s.ioTasks task.taskId none
        watches := Function.update s.watches task.taskId none }
    .ok ({ s with stack := .fileReady :: s.stack }, .started task.taskId .io)

def dropOneShot (watches : TaskId → Option Watch) (taskId : TaskId) (watch : Watch) :
    TaskId → Option Watch :=
  if watch.persistent then watches else Function.update watches taskId none

/-- The base loop reporting readiness on `watch`, the watch of `taskId`; the delegate is the
record under `taskId`, which runs `OnFileReady`. -/
def fileReady (s : State) (taskId : TaskId) (watch : Watch) : Outcome :=
  match s.ioTasks taskId with
  | none => .fault .missingIOTask
  | some task =>
    match { s with watches := dropOneShot s.watches taskId watch }.onFileReady task with
    | .ok (s, out) => .ok s out
    | .error f => .fault f

def step (s : State) : Event → Outcome
  | .postDelayedTask task accepted =>
    if clientTurn s.stack then
      match s.postDelayedTask task accepted with
      | .ok (s, t) => .ok s (.taskId t)
      | .error f => .fault f
    else .disabled
  | .watchFileDescriptor fd mode persistent task scheduled =>
    if clientTurn s.stack then
      match s.watchFileDescriptor fd mode persistent task scheduled with
      | .ok (s, t) => .ok s (.taskId t)
      | .error f => .fault f
    else .disabled
  | .cancelTask t =>
    if clientTurn s.stack then .ok (s.cancelTask t).1 (.cancelled t (s.cancelTask t).2)
    else .disabled
  | .breakLoop => if clientTurn s.stack then .ok s.breakLoop .done else .disabled
  | .runOnce mayBlock => if clientTurn s.stack then .ok (s.runOnceBegin mayBlock) .done else .disabled
  | .run => if clientTurn s.stack then .ok s.runBegin .done else .disabled
  | .closureReturns =>
    match s.stack with
    | .ranPostedTask t :: rest => .ok ({ s with stack := rest }.onRanPostedTaskEnd t) (.erased t)
    | .fileReady :: rest => .ok { s with stack := rest }.quitIfRunOnce .done
    | _ => .disabled
  | .runPostedTask t =>
    match s.stack with
    | .drive _ false :: _ =>
      if 0 < s.postedTasks t then
        match { s with postedTasks := Function.update s.postedTasks t (s.postedTasks t - 1) }.onRanPostedTask t with
        | .ok (s, out) => .ok s out
        | .error f => .fault f
      else .disabled
    | _ => .disabled
  | .fileReady t =>
    match s.stack, s.watches t with
    | .drive _ false :: _, some watch => s.fileReady t watch
    | _, _ => .disabled
  | .loopReturns =>
    match s.stack with
    | .drive (.runOnce mayBlock) quit :: rest =>
      if quit || !mayBlock then
        .ok ({ s with stack := rest }.runOnceEnd).1 (.ranOnce ({ s with stack := rest }.runOnceEnd).2)
      else .disabled
    | .drive .run true :: rest => .ok { s with stack := rest } .done
    | _ => .disabled

def exec : State → List Event → Option (State × List Out)
  | s, [] => some (s, [])
  | s, e :: es =>
    match s.step e with
    | .ok s' out => (exec s' es).map fun r => (r.1, out :: r.2)
    | _ => none

section Inversion

variable {s s' : State} {out : Out}

theorem step_postDelayedTask {task : Closure} {accepted : Bool}
    (h : s.step (.postDelayedTask task accepted) = .ok s' out) :
    ∃ t, s.postDelayedTask task accepted = .ok (s', t) ∧ out = .taskId t := by
  simp only [step] at h
  split at h
  · split at h
    · rename_i posted
      cases h
      exact ⟨_, posted, rfl⟩
    · cases h
  · cases h

theorem step_watchFileDescriptor {fd : Int} {mode : WatchMode} {persistent : Bool}
    {task : Closure} {scheduled : Bool}
    (h : s.step (.watchFileDescriptor fd mode persistent task scheduled) = .ok s' out) :
    ∃ t, s.watchFileDescriptor fd mode persistent task scheduled = .ok (s', t) ∧
      out = .taskId t := by
  simp only [step] at h
  split at h
  · split at h
    · rename_i watched
      cases h
      exact ⟨_, watched, rfl⟩
    · cases h
  · cases h

theorem step_cancelTask {t : TaskId} (h : s.step (.cancelTask t) = .ok s' out) :
    s' = (s.cancelTask t).1 ∧ out = .cancelled t (s.cancelTask t).2 := by
  simp only [step] at h
  split at h
  · cases h
    exact ⟨rfl, rfl⟩
  · cases h

theorem step_client {e : Event} (h : s.step e = .ok s' out)
    (client : e = .breakLoop ∨ (∃ mayBlock, e = .runOnce mayBlock) ∨ e = .run) :
    clientTurn s.stack ∧ out = .done ∧
      (e = .breakLoop → s' = s.breakLoop) ∧ (∀ mayBlock, e = .runOnce mayBlock → s' = s.runOnceBegin mayBlock) ∧
      (e = .run → s' = s.runBegin) := by
  rcases client with rfl | ⟨mayBlock, rfl⟩ | rfl <;> simp only [step] at h <;> split at h <;>
    first | (cases h; simp_all) | cases h

theorem step_control {e : Event} (h : s.step e = .ok s' out)
    (control : e = .breakLoop ∨ (∃ mayBlock, e = .runOnce mayBlock) ∨ e = .run) :
    s'.delayedTasks = s.delayedTasks ∧ s'.ioTasks = s.ioTasks ∧ s'.postedTasks = s.postedTasks ∧
      s'.watches = s.watches ∧ out = .done := by
  obtain ⟨-, rfl, broke, began, ran⟩ := step_client h control
  rcases control with rfl | ⟨mayBlock, rfl⟩ | rfl
  · rw [broke rfl]
    exact ⟨rfl, rfl, rfl, rfl, rfl⟩
  · rw [began mayBlock rfl]
    exact ⟨rfl, rfl, rfl, rfl, rfl⟩
  · rw [ran rfl]
    exact ⟨rfl, rfl, rfl, rfl, rfl⟩

theorem step_closureReturns (h : s.step .closureReturns = .ok s' out) :
    (∃ t rest, s.stack = .ranPostedTask t :: rest ∧
      s' = { s with stack := rest }.onRanPostedTaskEnd t ∧ out = .erased t) ∨
    (∃ rest, s.stack = .fileReady :: rest ∧ s' = { s with stack := rest }.quitIfRunOnce ∧
      out = .done) := by
  simp only [step] at h
  split at h <;> cases h
  · exact .inl ⟨_, _, ‹_›, rfl, rfl⟩
  · exact .inr ⟨_, ‹_›, rfl, rfl⟩

theorem step_runPostedTask {t : TaskId} (h : s.step (.runPostedTask t) = .ok s' out) :
    ∃ how rest, s.stack = .drive how false :: rest ∧ 0 < s.postedTasks t ∧
      { s with postedTasks := Function.update s.postedTasks t (s.postedTasks t - 1) }.onRanPostedTask t =
        .ok (s', out) := by
  simp only [step] at h
  split at h
  · rename_i how rest top
    split at h
    · split at h
      · cases h
        exact ⟨how, rest, top, ‹_›, ‹_›⟩
      · cases h
    · cases h
  · cases h

theorem step_fileReady {t : TaskId} (h : s.step (.fileReady t) = .ok s' out) :
    ∃ how rest watch, s.stack = .drive how false :: rest ∧ s.watches t = some watch ∧
      s.fileReady t watch = .ok s' out := by
  simp only [step] at h
  split at h
  · exact ⟨_, _, _, ‹_›, ‹_›, h⟩
  · cases h

theorem step_loopReturns (h : s.step .loopReturns = .ok s' out) :
    (∃ mayBlock quit rest, s.stack = .drive (.runOnce mayBlock) quit :: rest ∧
      (quit = true ∨ mayBlock = false) ∧ s' = ({ s with stack := rest }.runOnceEnd).1 ∧
      out = .ranOnce ({ s with stack := rest }.runOnceEnd).2) ∨
    (∃ rest, s.stack = .drive .run true :: rest ∧ s' = { s with stack := rest } ∧ out = .done) := by
  simp only [step] at h
  split at h
  · split at h
    · rename_i top returns
      cases h
      exact .inl ⟨_, _, _, top, by simpa using returns, rfl, rfl⟩
    · cases h
  · cases h
    exact .inr ⟨_, ‹_›, rfl, rfl⟩
  · cases h

theorem onRanPostedTask_ok {t : TaskId} (h : s.onRanPostedTask t = .ok (s', out)) :
    ∃ task, s.delayedTasks t = some task ∧
      ((task.closure.isSome ∧ out = .started t .delayed ∧ s' = { s with
          delayedTasks := Function.update s.delayedTasks t (some { task with closure := none })
          stack := .ranPostedTask t :: s.stack }) ∨
        (task.closure = none ∧ out = .erased t ∧
          s' = { s with delayedTasks := Function.update s.delayedTasks t none })) := by
  unfold onRanPostedTask at h
  split at h
  · cases h
  · rename_i task found
    refine ⟨task, found, ?_⟩
    split at h <;> cases h
    · exact .inl ⟨by simp [‹task.closure = _›], rfl, rfl⟩
    · exact .inr ⟨‹_›, rfl, rfl⟩

theorem onFileReady_ok {task : IOTask} (h : s.onFileReady task = .ok (s', out)) :
    task.closure.isSome ∧ out = .started task.taskId .io ∧
      s' = { s with
        ioTasks := if task.persistent then s.ioTasks else Function.update s.ioTasks task.taskId none
        watches := if task.persistent then s.watches else Function.update s.watches task.taskId none
        stack := .fileReady :: s.stack } := by
  unfold onFileReady at h
  split at h
  · cases h
  · rename_i closure
    cases h
    refine ⟨by simp [closure], rfl, ?_⟩
    cases task.persistent <;> rfl

theorem fileReady_ok {t : TaskId} {watch : Watch} (h : s.fileReady t watch = .ok s' out) :
    ∃ task, s.ioTasks t = some task ∧
      { s with watches := dropOneShot s.watches t watch }.onFileReady task = .ok (s', out) := by
  unfold fileReady at h
  split at h
  · cases h
  · rename_i task found
    refine ⟨task, found, ?_⟩
    split at h <;> cases h
    assumption

end Inversion

theorem exec_cons {s s'' : State} {e : Event} {es : List Event} {outs : List Out}
    (run : s.exec (e :: es) = some (s'', outs)) :
    ∃ s' out rest, s.step e = .ok s' out ∧ s'.exec es = some (s'', rest) ∧ outs = out :: rest := by
  simp only [exec] at run
  split at run
  · rename_i s' out stepped
    obtain ⟨⟨s₂, rest⟩, tail, same⟩ := Option.map_eq_some'.mp run
    cases same
    exact ⟨s', out, rest, stepped, tail, rfl⟩
  · cases run

inductive Reachable : State → Prop
  | initial : Reachable initial
  | step {s s' : State} {e : Event} {out : Out} : Reachable s → s.step e = .ok s' out → Reachable s'

theorem Reachable.exec {s s' : State} {es : List Event} {outs : List Out} (reachable : Reachable s)
    (run : s.exec es = some (s', outs)) : Reachable s' := by
  induction es generalizing s outs with
  | nil =>
    cases run
    exact reachable
  | cons e es ih =>
    obtain ⟨s₁, out, rest, stepped, tail, -⟩ := exec_cons run
    exact ih (reachable.step stepped) tail

end State

end Chromeos
