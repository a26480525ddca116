import Libbrillo.MessageLoop.Invariant

namespace Chromeos

def Frame.running : Frame → Bool
  | .drive .. => false
  | _ => true

theorem quitNow_running {frame : Frame} (running : frame.running) (rest : List Frame) :
    quitNow (frame :: rest) = frame :: quitNow rest := by
  cases frame <;> first | rfl | cases running

def Out.isStarted : Out → Bool
  | .started .. => true
  | _ => false

namespace State

variable {s s' : State} {e : Event} {out : Out}

theorem cancelTask_control (t : TaskId) :
    (s.cancelTask t).1.stack = s.stack ∧ (s.cancelTask t).1.runOnce = s.runOnce := by
  unfold State.cancelTask
  repeat' split
  all_goals exact ⟨rfl, rfl⟩

theorem call_control (h : s.step e = .ok s' out)
    (call : (∃ task accepted, e = .postDelayedTask task accepted) ∨
      (∃ fd mode persistent task scheduled,
        e = .watchFileDescriptor fd mode persistent task scheduled) ∨
      ∃ t, e = .cancelTask t) :
    s'.stack = s.stack ∧ s'.runOnce = s.runOnce ∧ out.isStarted = false ∧
      ∀ ran, out ≠ .ranOnce ran := by
  rcases call with ⟨task, accepted, rfl⟩ | ⟨fd, mode, persistent, task, scheduled, rfl⟩ | ⟨t, rfl⟩
  · obtain ⟨r, posted, rfl⟩ := step_postDelayedTask h
    obtain ⟨v, -, -, -, -, result⟩ := postDelayedTask_ok posted
    cases accepted <;> simp only [Bool.false_eq_true, ite_false, ite_true] at result <;>
      obtain ⟨-, rfl⟩ := result <;> exact ⟨rfl, rfl, rfl, by simp⟩
  · obtain ⟨r, watched, rfl⟩ := step_watchFileDescriptor h
    rcases watchFileDescriptor_ok watched with ⟨-, v, rfl, -⟩ | ⟨-, -, -, -, -, -, -, -, rfl⟩ <;>
      exact ⟨rfl, rfl, rfl, by simp⟩
  · obtain ⟨rfl, rfl⟩ := step_cancelTask h
    exact ⟨(cancelTask_control t).1, (cancelTask_control t).2, rfl, by simp⟩

/-- Where a `RunOnce(mayBlock)` entered from outside any loop can be, having started `started`
closures, while no closure drives the loop: waiting on the base loop, running its one closure,
quitting after it, or returned. -/
def RunOnceSegment (mayBlock : Bool) (started : Nat) (s : State) : Prop :=
  (s.stack = [.drive (.runOnce mayBlock) false] ∧ s.runOnce = true ∧ started = 0) ∨
  (∃ frame quit, frame.running ∧ s.stack = [frame, .drive (.runOnce mayBlock) quit] ∧
    s.runOnce = true ∧ started = 1) ∨
  (s.stack = [.drive (.runOnce mayBlock) true] ∧ s.runOnce = false ∧ started = 1) ∨
  (s.stack = [] ∧ s.runOnce = false ∧ started ≤ 1)

theorem RunOnceSegment.control {mayBlock : Bool} {n : Nat} (segment : RunOnceSegment mayBlock n s)
    (stack : s'.stack = s.stack) (runOnce : s'.runOnce = s.runOnce) :
    RunOnceSegment mayBlock n s' := by
  unfold RunOnceSegment
  rw [stack, runOnce]
  exact segment

theorem RunOnceSegment.of_drive {mayBlock : Bool} {n : Nat} {how : Drive} {quit : Bool}
    {rest : List Frame} (segment : RunOnceSegment mayBlock n s)
    (top : s.stack = .drive how quit :: rest) :
    how = .runOnce mayBlock ∧ rest = [] ∧
      (quit = false ∧ s.runOnce = true ∧ n = 0 ∨ quit = true ∧ s.runOnce = false ∧ n = 1) := by
  rcases segment with ⟨stack, flag, rfl⟩ | ⟨frame, quit', running, stack, -, -⟩ |
    ⟨stack, flag, rfl⟩ | ⟨stack, -, -⟩ <;> rw [stack] at top <;>
    simp only [List.cons.injEq, Frame.drive.injEq, reduceCtorEq, false_and] at top
  · obtain ⟨⟨rfl, rfl⟩, rfl⟩ := top
    exact ⟨rfl, rfl, .inl ⟨rfl, flag, rfl⟩⟩
  · obtain ⟨rfl, -⟩ := top
    cases running
  · obtain ⟨⟨rfl, rfl⟩, rfl⟩ := top
    exact ⟨rfl, rfl, .inr ⟨rfl, flag, rfl⟩⟩

theorem RunOnceSegment.of_running {mayBlock : Bool} {n : Nat} {frame : Frame}
    {rest : List Frame} (segment : RunOnceSegment mayBlock n s) (top : s.stack = frame :: rest)
    (running : frame.running) :
    (∃ quit, rest = [.drive (.runOnce mayBlock) quit]) ∧ s.runOnce = true ∧ n = 1 := by
  rcases segment with ⟨stack, -, -⟩ | ⟨frame', quit, -, stack, flag, rfl⟩ |
    ⟨stack, -, -⟩ | ⟨stack, -, -⟩ <;> rw [stack] at top <;>
    simp only [List.cons.injEq, reduceCtorEq, false_and] at top
  · obtain ⟨rfl, rfl⟩ := top
    cases running
  · exact ⟨⟨quit, top.2.symm⟩, flag, rfl⟩
  · obtain ⟨rfl, rfl⟩ := top
    cases running

theorem RunOnceSegment.step {mayBlock : Bool} {n : Nat} (segment : RunOnceSegment mayBlock n s)
    (h : s.step e = .ok s' out) (noDrive : e ≠ .run ∧ ∀ b, e ≠ .runOnce b) :
    RunOnceSegment mayBlock (n + if out.isStarted then 1 else 0) s' ∧
      (∀ ran, out = .ranOnce ran → ran = (n == 1) ∧ s'.stack = []) ∧
      (s.stack = [] → out.isStarted = false ∧ s'.stack = []) := by
  cases e with
  | runOnce mayBlock => exact absurd rfl (noDrive.2 mayBlock)
  | run => exact absurd rfl noDrive.1
  | breakLoop =>
    obtain ⟨client, rfl, broke, -, -⟩ := step_client h (.inl rfl)
    rw [broke rfl]
    refine ⟨?_, by simp, fun empty => ⟨rfl, by simp [State.breakLoop, empty, quitNow]⟩⟩
    rcases segment with ⟨stack, -, -⟩ | ⟨frame, quit, running, stack, flag, rfl⟩ |
      ⟨stack, -, -⟩ | ⟨stack, flag, bound⟩ <;>
      try simp only [stack, clientTurn, Bool.false_eq_true] at client
    · refine .inr (.inl ⟨frame, true, running, ?_, flag, rfl⟩)
      simp only [State.breakLoop, stack, quitNow_running running]
      rfl
    · exact .inr (.inr (.inr ⟨by simp [State.breakLoop, stack, quitNow], flag, bound⟩))
  | closureReturns =>
    rcases step_closureReturns h with ⟨t, rest, top, rfl, rfl⟩ | ⟨rest, top, rfl, rfl⟩
    all_goals
      obtain ⟨⟨quit, rfl⟩, flag, rfl⟩ := segment.of_running top rfl
      refine ⟨.inr (.inr (.inl ⟨?_, ?_, rfl⟩)), by simp, by simp [top]⟩ <;>
        simp [State.onRanPostedTaskEnd, quitIfRunOnce_eq, flag, quitNow]
  | runPostedTask t =>
    obtain ⟨how, rest, top, -, ran⟩ := step_runPostedTask h
    obtain ⟨rfl, rfl, ⟨-, flag, rfl⟩ | ⟨⟨⟩, -, -⟩⟩ := segment.of_drive top
    obtain ⟨task, -, ⟨-, rfl, rfl⟩ | ⟨-, rfl, rfl⟩⟩ := onRanPostedTask_ok ran
    · exact ⟨.inr (.inl ⟨.ranPostedTask t, false, rfl, by simp [top], flag, rfl⟩), by simp,
        by simp [top]⟩
    · exact ⟨.inl ⟨top, flag, rfl⟩, by simp, by simp [top]⟩
  | fileReady t =>
    obtain ⟨how, rest, watch, top, -, ran⟩ := step_fileReady h
    obtain ⟨rfl, rfl, ⟨-, flag, rfl⟩ | ⟨⟨⟩, -, -⟩⟩ := segment.of_drive top
    obtain ⟨task, -, ran⟩ := fileReady_ok ran
    obtain ⟨-, rfl, rfl⟩ := onFileReady_ok ran
    exact ⟨.inr (.inl ⟨.fileReady, false, rfl, by simp [top], flag, rfl⟩), by simp,
      by simp [top]⟩
  | loopReturns =>
    rcases step_loopReturns h with ⟨mayBlock', quit, rest, top, -, rfl, rfl⟩ |
      ⟨rest, top, rfl, rfl⟩
    · obtain ⟨-, rfl, ⟨-, flag, rfl⟩ | ⟨-, flag, rfl⟩⟩ := segment.of_drive top <;>
        simp only [runOnceEnd_eq, flag] <;>
        exact ⟨.inr (.inr (.inr ⟨rfl, rfl, by simp [Out.isStarted]⟩)), by simp, by simp [top]⟩
    · obtain ⟨⟨⟩, -, -⟩ := segment.of_drive top
  | _ =>
    obtain ⟨stack, runOnce, notStarted, notReturned⟩ := call_control h (by simp)
    rw [notStarted]
    exact ⟨segment.control stack runOnce, fun ran same => absurd same (notReturned ran),
      fun empty => ⟨rfl, stack.trans empty⟩⟩

theorem RunOnceSegment.le_one {mayBlock : Bool} {n : Nat}
    (segment : RunOnceSegment mayBlock n s) : n ≤ 1 := by
  rcases segment with ⟨-, -, rfl⟩ | ⟨-, -, -, -, -, rfl⟩ | ⟨-, -, rfl⟩ | ⟨-, -, bound⟩ <;> omega

theorem RunOnceSegment.runOnce_false {mayBlock : Bool} {n : Nat}
    (segment : RunOnceSegment mayBlock n s) (inactive : runOnceActive s.stack = false) :
    s.runOnce = false := by
  rcases segment with ⟨stack, -, -⟩ | ⟨frame, quit, running, stack, -, -⟩ | ⟨-, flag, -⟩ |
    ⟨-, flag, -⟩
  · simp [stack, runOnceActive] at inactive
  · cases frame <;> simp_all [runOnceActive, Frame.running]
  all_goals exact flag

theorem RunOnceSegment.not_waiting {mayBlock : Bool} (segment : RunOnceSegment mayBlock 1 s) :
    (∃ frame quit, frame.running ∧ s.stack = [frame, .drive (.runOnce mayBlock) quit]) ∨
      s.stack = [.drive (.runOnce mayBlock) true] ∨ s.stack = [] := by
  rcases segment with ⟨-, -, ⟨⟩⟩ | ⟨frame, quit, running, stack, -, -⟩ | ⟨stack, -, -⟩ | ⟨stack, -, -⟩
  · exact .inl ⟨frame, quit, running, stack⟩
  · exact .inr (.inl stack)
  · exact .inr (.inr stack)

theorem RunOnceSegment.run {mayBlock : Bool} {n : Nat} {events : List Event} {outs : List Out}
    {s₂ : State} (segment : RunOnceSegment mayBlock n s)
    (noDrive : ∀ e ∈ events, e ≠ .run ∧ ∀ b, e ≠ .runOnce b)
    (run : s.exec events = some (s₂, outs)) :
    RunOnceSegment mayBlock (n + outs.countP Out.isStarted) s₂ ∧
      (∀ ran, .ranOnce ran ∈ outs → ran = (n + outs.countP Out.isStarted == 1) ∧ s₂.stack = []) ∧
      (s.stack = [] → outs.countP Out.isStarted = 0 ∧ s₂.stack = []) := by
  induction events generalizing s n outs with
  | nil =>
    cases run
    exact ⟨segment, by simp, fun empty => ⟨rfl, empty⟩⟩
  | cons e events ih =>
    obtain ⟨s', out, rest, stepped, tail, rfl⟩ := exec_cons run
    obtain ⟨segment', returned, quiet⟩ := segment.step stepped (noDrive e (.head _))
    obtain ⟨segment₂, returned₂, quiet₂⟩ :=
      ih segment' (fun e mem => noDrive e (.tail _ mem)) tail
    have total : n + (out :: rest).countP Out.isStarted =
        n + (if out.isStarted then 1 else 0) + rest.countP Out.isStarted := by
      rw [List.countP_cons]
      omega
    rw [total]
    refine ⟨segment₂, fun ran mem => ?_, fun empty => ?_⟩
    · rcases List.mem_cons.mp mem with rfl | mem
      · obtain ⟨rfl, empty⟩ := returned ran rfl
        obtain ⟨none, stays⟩ := quiet₂ empty
        simp [Out.isStarted, none, stays]
      · exact returned₂ ran mem
    · obtain ⟨notStarted, empty'⟩ := quiet empty
      obtain ⟨none, stays⟩ := quiet₂ empty'
      simp [List.countP_cons, notStarted, none, stays]

theorem closure_return_keeps_loops {s s' : State} {out : Out} (reachable : Reachable s)
    (inactive : runOnceActive s.stack = false) (h : s.step .closureReturns = .ok s' out) :
    s'.stack = s.stack.tail ∧ s'.runOnce = false := by
  have flag := reachable.invariant.run_once inactive
  rcases step_closureReturns h with ⟨t, rest, top, rfl, -⟩ | ⟨rest, top, rfl, -⟩ <;>
    simp [State.onRanPostedTaskEnd, quitIfRunOnce_eq, flag, top]

/-- `RunOnce(may_block)` called from outside any loop, with closures that post, watch, cancel
and call `BreakLoop` but never drive the loop, in any order of the base loop's deliveries:
it starts at most one scheduler closure (consumed notifications of cancelled tasks do not
count); once it started one, the base loop is running it, told to quit, or returned, and waits
for no more work (under `RunOnce(false)` this quits the base loop's `RunUntilIdle`); it returns
true exactly when it started one, with `run_once_` false and no call in progress. And
`run_once_` is false whenever no `RunOnce` is in progress, so under `Run()` a closure returning
quits no loop. -/
theorem runOnce_runs_at_most_one {s s₁ s₂ : State} {mayBlock : Bool} {out : Out}
    {events : List Event} {outs : List Out} (outside : s.stack = [])
    (began : s.step (.runOnce mayBlock) = .ok s₁ out)
    (noDrive : ∀ e ∈ events, e ≠ .run ∧ ∀ b, e ≠ .runOnce b)
    (run : s₁.exec events = some (s₂, outs)) :
    outs.countP Out.isStarted ≤ 1 ∧
      (outs.countP Out.isStarted = 1 →
        (∃ frame quit, frame.running ∧ s₂.stack = [frame, .drive (.runOnce mayBlock) quit]) ∨
          s₂.stack = [.drive (.runOnce mayBlock) true] ∨ s₂.stack = []) ∧
      (∀ ran, .ranOnce ran ∈ outs →
        ran = (outs.countP Out.isStarted == 1) ∧ s₂.runOnce = false ∧ s₂.stack = []) ∧
      (runOnceActive s₂.stack = false → s₂.runOnce = false) ∧
      ∀ {r r' : State} {o : Out}, Reachable r → runOnceActive r.stack = false →
        r.step .closureReturns = .ok r' o → r'.stack = r.stack.tail ∧ r'.runOnce = false := by
  obtain ⟨-, -, -, begin, -⟩ := step_client began (.inr (.inl ⟨mayBlock, rfl⟩))
  have segment : RunOnceSegment mayBlock 0 s₁ := by
    rw [begin mayBlock rfl]
    exact .inl ⟨by simp [runOnceBegin, outside], rfl, rfl⟩
  obtain ⟨segment₂, returned, -⟩ := segment.run noDrive run
  rw [Nat.zero_add] at segment₂ returned
  refine ⟨segment₂.le_one, fun once => (once ▸ segment₂).not_waiting, fun ran mem => ?_,
    segment₂.runOnce_false, closure_return_keeps_loops⟩
  obtain ⟨same, empty⟩ := returned ran mem
  exact ⟨same, segment₂.runOnce_false (by simp [empty, runOnceActive]), empty⟩

-- delayed tasks `1` and `2` posted and `1` cancelled, outside any loop
def cancelledFirst : State :=
  { initial with
    lastId := 2
    delayedTasks := Function.update (Function.update (Function.update initial.delayedTasks
      1 (some ⟨some 1⟩)) 2 (some ⟨some 2⟩)) 1 (some ⟨none⟩)
    postedTasks := Function.update (Function.update initial.postedTasks 1 1) 2 1 }

theorem runOnce_runs_at_most_one_cancelledFirst :
    initial.exec [.postDelayedTask (some 1) true, .postDelayedTask (some 2) true, .cancelTask 1] =
      some (cancelledFirst, [.taskId 1, .taskId 2, .cancelled 1 true]) ∧
    cancelledFirst.stack = [] ∧
    cancelledFirst.step (.runOnce true) = .ok (cancelledFirst.runOnceBegin true) .done ∧
    (∀ e ∈ [Event.runPostedTask 1, .runPostedTask 2, .closureReturns, .loopReturns],
      e ≠ .run ∧ ∀ b, e ≠ .runOnce b) ∧
    ∃ s₂, (cancelledFirst.runOnceBegin true).exec
        [.runPostedTask 1, .runPostedTask 2, .closureReturns, .loopReturns] =
        some (s₂, [.erased 1, .started 2 .delayed, .erased 2, .ranOnce true]) ∧
      [Out.erased 1, .started 2 .delayed, .erased 2, .ranOnce true].countP Out.isStarted ≤ 1 ∧
      ([Out.erased 1, .started 2 .delayed, .erased 2, .ranOnce true].countP Out.isStarted = 1 →
        (∃ frame quit, frame.running ∧ s₂.stack = [frame, .drive (.runOnce true) quit]) ∨
          s₂.stack = [.drive (.runOnce true) true] ∨ s₂.stack = []) ∧
      (∀ ran, .ranOnce ran ∈ [Out.erased 1, .started 2 .delayed, .erased 2, .ranOnce true] →
        ran = ([Out.erased 1, .started 2 .delayed, .erased 2, .ranOnce true].countP
          Out.isStarted == 1) ∧ s₂.runOnce = false ∧ s₂.stack = []) ∧
      (runOnceActive s₂.stack = false → s₂.runOnce = false) ∧
      ∀ {r r' : State} {o : Out}, Reachable r → runOnceActive r.stack = false →
        r.step .closureReturns = .ok r' o → r'.stack = r.stack.tail ∧ r'.runOnce = false := by
  have began : cancelledFirst.step (.runOnce true) = .ok (cancelledFirst.runOnceBegin true) .done :=
    rfl
  have noDrive : ∀ e ∈ [Event.runPostedTask 1, .runPostedTask 2, .closureReturns, .loopReturns],
      e ≠ .run ∧ ∀ b, e ≠ .runOnce b := by simp
  refine ⟨rfl, rfl, began, noDrive, _, rfl, ?_⟩
  exact @runOnce_runs_at_most_one _ _ _ _ _
    [.runPostedTask 1, .runPostedTask 2, .closureReturns, .loopReturns] _ rfl began noDrive rfl

/-- The base loop's `RunUntilIdle` runs only inside `RunOnce(false)`, with `run_once_` set: the
first closure it dispatches makes it quit. -/
theorem runUntilIdle_quits_after_closure :
    Reachable initialPosted ∧ initialPosted.stack = [] ∧
      ∃ s, initialPosted.exec [.runOnce false, .runPostedTask 1, .closureReturns] =
          some (s, [.done, .started 1 .delayed, .erased 1]) ∧
        s.stack = [.drive (.runOnce false) true] ∧ s.runOnce = false :=
  ⟨.step .initial (show initial.step (.postDelayedTask (some 1) true) =
      .ok initialPosted (.taskId 1) from rfl), rfl, _, rfl, rfl, rfl⟩

-- an outer `RunOnce(true)` whose `run_once_` was cleared: waiting on the base loop, or running
-- one closure
def LostRunOnce (s : State) : Prop :=
  s.runOnce = false ∧ (s.stack = [.drive (.runOnce true) false] ∨
    ∃ frame, frame.running ∧ s.stack = [frame, .drive (.runOnce true) false])

theorem LostRunOnce.of_drive {how : Drive} {quit : Bool} {rest : List Frame}
    (lost : LostRunOnce s) (top : s.stack = .drive how quit :: rest) :
    how = .runOnce true ∧ quit = false ∧ rest = [] := by
  rcases lost with ⟨-, stack | ⟨frame, running, stack⟩⟩ <;> rw [stack] at top <;>
    simp only [List.cons.injEq, Frame.drive.injEq] at top
  · exact ⟨top.1.1.symm, top.1.2.symm, top.2.symm⟩
  · obtain ⟨rfl, -⟩ := top
    cases running

theorem LostRunOnce.of_running {frame : Frame} {rest : List Frame} (lost : LostRunOnce s)
    (top : s.stack = frame :: rest) (running : frame.running) :
    rest = [.drive (.runOnce true) false] := by
  rcases lost with ⟨-, stack | ⟨frame', -, stack⟩⟩ <;> rw [stack] at top <;>
    simp only [List.cons.injEq] at top
  · obtain ⟨rfl, -⟩ := top
    cases running
  · exact top.2.symm

theorem LostRunOnce.step (lost : LostRunOnce s) (h : s.step e = .ok s' out)
    (noDrive : e ≠ .run ∧ (∀ b, e ≠ .runOnce b) ∧ e ≠ .breakLoop) :
    LostRunOnce s' ∧ ∀ ran, out ≠ .ranOnce ran := by
  have flag := lost.1
  cases e with
  | runOnce b => exact absurd rfl (noDrive.2.1 b)
  | run => exact absurd rfl noDrive.1
  | breakLoop => exact absurd rfl noDrive.2.2
  | closureReturns =>
    rcases step_closureReturns h with ⟨t, rest, top, rfl, rfl⟩ | ⟨rest, top, rfl, rfl⟩
    all_goals
      have below := lost.of_running top rfl
      exact ⟨⟨by simp [State.onRanPostedTaskEnd, quitIfRunOnce_eq],
        .inl (by simp [State.onRanPostedTaskEnd, quitIfRunOnce_eq, flag, below])⟩, by simp⟩
  | runPostedTask t =>
    obtain ⟨how, rest, top, -, ran⟩ := step_runPostedTask h
    obtain ⟨rfl, -, rfl⟩ := lost.of_drive top
    obtain ⟨task, -, ⟨-, rfl, rfl⟩ | ⟨-, rfl, rfl⟩⟩ := onRanPostedTask_ok ran
    · exact ⟨⟨flag, .inr ⟨.ranPostedTask t, rfl, by simp [top]⟩⟩, by simp⟩
    · exact ⟨⟨flag, .inl top⟩, by simp⟩
  | fileReady t =>
    obtain ⟨how, rest, watch, top, -, ran⟩ := step_fileReady h
    obtain ⟨rfl, -, rfl⟩ := lost.of_drive top
    obtain ⟨task, -, ran⟩ := fileReady_ok ran
    obtain ⟨-, rfl, rfl⟩ := onFileReady_ok ran
    exact ⟨⟨flag, .inr ⟨.fileReady, rfl, by simp [top]⟩⟩, by simp⟩
  | loopReturns =>
    rcases step_loopReturns h with ⟨mayBlock, quit, rest, top, returns, -, -⟩ | ⟨rest, top, -, -⟩
    · obtain ⟨⟨⟩, rfl, -⟩ := lost.of_drive top
      simp at returns
    · obtain ⟨⟨⟩, -, -⟩ := lost.of_drive top
  | _ =>
    obtain ⟨stack, runOnce, -, notReturned⟩ := call_control h (by simp)
    refine ⟨⟨runOnce.trans flag, ?_⟩, notReturned⟩
    rw [stack]
    exact lost.2

theorem LostRunOnce.run {events : List Event} {outs : List Out} {s₂ : State}
    (lost : LostRunOnce s) (noDrive : ∀ e ∈ events, e ≠ .run ∧ (∀ b, e ≠ .runOnce b) ∧ e ≠ .breakLoop)
    (run : s.exec events = some (s₂, outs)) : LostRunOnce s₂ ∧ ∀ ran, .ranOnce ran ∉ outs := by
  induction events generalizing s outs with
  | nil =>
    cases run
    exact ⟨lost, by simp⟩
  | cons e events ih =>
    obtain ⟨s', out, rest, stepped, tail, rfl⟩ := exec_cons run
    obtain ⟨lost', quiet⟩ := lost.step stepped (noDrive e (.head _))
    obtain ⟨lost₂, quiet₂⟩ := ih lost' (fun e mem => noDrive e (.tail _ mem)) tail
    refine ⟨lost₂, fun ran mem => ?_⟩
    rcases List.mem_cons.mp mem with same | later
    · exact quiet ran same.symm
    · exact quiet₂ ran later

/-- `RunOnce(false)` called, and returning, in a closure that runs under an outer
`RunOnce(true)` clears `run_once_`. From then on, as long as closures neither drive the loop nor
call `BreakLoop`, the outer `RunOnce(true)` never returns: no closure's return tells its base
loop to quit, and it goes on dispatching closure after closure. The bound of one closure needs
closures that do not drive the loop. -/
theorem nested_runOnce_lets_outer_run_again {s s₁ s₂ : State} {frame : Frame} {outs₁ : List Out}
    {events : List Event} {outs : List Out}
    (top : s.stack = [frame, .drive (.runOnce true) false]) (running : frame.running)
    (nested : s.exec [.runOnce false, .loopReturns] = some (s₁, outs₁))
    (noDrive : ∀ e ∈ events, e ≠ .run ∧ (∀ b, e ≠ .runOnce b) ∧ e ≠ .breakLoop)
    (run : s₁.exec events = some (s₂, outs)) :
    s₂.runOnce = false ∧
      (s₂.stack = [.drive (.runOnce true) false] ∨
        ∃ frame, frame.running ∧ s₂.stack = [frame, .drive (.runOnce true) false]) ∧
      ∀ ran, .ranOnce ran ∉ outs := by
  obtain ⟨s', o, rest, began, returned, -⟩ := exec_cons nested
  obtain ⟨-, -, -, begin, -⟩ := step_client began (.inr (.inl ⟨false, rfl⟩))
  obtain rfl := begin false rfl
  obtain ⟨s'', o', rest', returned, done, -⟩ := exec_cons returned
  cases done
  have lost : LostRunOnce s₁ := by
    rcases step_loopReturns returned with ⟨mayBlock, quit, rest, below, -, rfl, -⟩ |
      ⟨rest, below, -, -⟩ <;>
      simp only [runOnceBegin, List.cons.injEq, Frame.drive.injEq, reduceCtorEq, false_and] at below
    obtain ⟨-, rfl⟩ := below
    exact ⟨by simp [runOnceEnd_eq], .inr ⟨frame, running, by simp [runOnceEnd_eq, top]⟩⟩
  obtain ⟨⟨flag, stack⟩, quiet⟩ := lost.run noDrive run
  exact ⟨flag, stack, quiet⟩

-- under `RunOnce(true)`, the closure of delayed task `1` runs while task `2` waits
def runningFirst : State :=
  { initial with
    lastId := 2
    delayedTasks := Function.update (Function.update (Function.update initial.delayedTasks
      1 (some ⟨some 1⟩)) 2 (some ⟨some 2⟩)) 1 (some ⟨none⟩)
    postedTasks := Function.update (Function.update (Function.update initial.postedTasks 1 1) 2 1) 1 0
    runOnce := true
    stack := [.ranPostedTask 1, .drive (.runOnce true) false] }

theorem nested_runOnce_lets_outer_run_again_runningFirst :
    initial.exec [.postDelayedTask (some 1) true, .postDelayedTask (some 2) true, .runOnce true,
        .runPostedTask 1] = some (runningFirst, [.taskId 1, .taskId 2, .done, .started 1 .delayed]) ∧
      runningFirst.stack = [.ranPostedTask 1, .drive (.runOnce true) false] ∧
      ∃ s₁ s₂, runningFirst.exec [.runOnce false, .loopReturns] =
          some (s₁, [.done, .ranOnce false]) ∧
        (∀ e ∈ [Event.closureReturns, .runPostedTask 2, .closureReturns],
          e ≠ .run ∧ (∀ b, e ≠ .runOnce b) ∧ e ≠ .breakLoop) ∧
        s₁.exec [.closureReturns, .runPostedTask 2, .closureReturns] =
          some (s₂, [.erased 1, .started 2 .delayed, .erased 2]) ∧
        s₂.runOnce = false ∧
        (s₂.stack = [.drive (.runOnce true) false] ∨
          ∃ frame, frame.running ∧ s₂.stack = [frame, .drive (.runOnce true) false]) ∧
        ∀ ran, .ranOnce ran ∉ [Out.erased 1, .started 2 .delayed, .erased 2] := by
  have noDrive : ∀ e ∈ [Event.closureReturns, .runPostedTask 2, .closureReturns],
      e ≠ .run ∧ (∀ b, e ≠ .runOnce b) ∧ e ≠ .breakLoop := by simp
  refine ⟨rfl, rfl, _, _, rfl, noDrive, rfl, ?_⟩
  exact @nested_runOnce_lets_outer_run_again runningFirst _ _ (.ranPostedTask 1) _
    [.closureReturns, .runPostedTask 2, .closureReturns] _ rfl rfl rfl noDrive rfl

end State

end Chromeos
