import Libbrillo.MessageLoop.Invariant
import Libbrillo.MessageLoop.TaskLife

namespace Chromeos

namespace State

variable {s s' : State} {e : Event} {out : Out} {t : TaskId}

theorem cancelTask_delayedTasks_other {u : TaskId} (other : t ≠ u) :
    (s.cancelTask u).1.delayedTasks t = s.delayedTasks t := by
  unfold State.cancelTask
  repeat' split
  all_goals simp [Function.update_noteq other]

theorem cancelTask_ioTasks_other {u : TaskId} (other : t ≠ u) :
    (s.cancelTask u).1.ioTasks t = s.ioTasks t := by
  unfold State.cancelTask
  repeat' split
  all_goals simp [Function.update_noteq other]

theorem cancelTask_of_delayed {task : DelayedTask} (nonNull : t ≠ kTaskIdNull)
    (found : s.delayedTasks t = some task) :
    s.cancelTask t = if task.closure.isNone then (s, false) else
      ({ s with delayedTasks := Function.update s.delayedTasks t (some ⟨none⟩) }, true) := by
  simp [State.cancelTask, nonNull, found]

theorem cancelTask_of_io {task : IOTask} (nonNull : t ≠ kTaskIdNull)
    (noDelayed : s.delayedTasks t = none) (found : s.ioTasks t = some task) :
    s.cancelTask t = ({ s with
      ioTasks := Function.update s.ioTasks t none
      watches := Function.update s.watches t none }, true) := by
  simp [State.cancelTask, nonNull, noDelayed, found]

theorem cancelTask_of_absent (noDelayed : s.delayedTasks t = none) (noIOTask : s.ioTasks t = none) :
    s.cancelTask t = (s, false) := by
  simp [State.cancelTask, noDelayed, noIOTask]

/-- What is held under `t`: its delayed task, or else its watch record. By the invariant at most
one of the two stores holds `t`. -/
def record (s : State) (t : TaskId) : Option TaskRecord :=
  match s.delayedTasks t with
  | some task => some (.delayed task)
  | none => (s.ioTasks t).map .watch

theorem record_of_delayed {task : DelayedTask} (found : s.delayedTasks t = some task) :
    s.record t = some (.delayed task) := by
  simp [record, found]

theorem record_of_io {task : IOTask} (noDelayed : s.delayedTasks t = none)
    (found : s.ioTasks t = some task) : s.record t = some (.watch task) := by
  simp [record, noDelayed, found]

theorem record_of_absent (noDelayed : s.delayedTasks t = none) (noIOTask : s.ioTasks t = none) :
    s.record t = none := by
  simp [record, noDelayed, noIOTask]

theorem record_eq_delayed {task : DelayedTask} (held : s.record t = some (.delayed task)) :
    s.delayedTasks t = some task := by
  unfold record at held
  split at held
  · cases held
    assumption
  · cases io : s.ioTasks t <;> simp [io] at held

theorem record_eq_watch {task : IOTask} (held : s.record t = some (.watch task)) :
    s.delayedTasks t = none ∧ s.ioTasks t = some task := by
  unfold record at held
  split at held
  · cases held
  · rename_i noDelayed
    cases io : s.ioTasks t <;> simp_all

theorem record_eq_none (held : s.record t = none) : s.delayedTasks t = none ∧ s.ioTasks t = none := by
  unfold record at held
  split at held
  · cases held
  · rename_i noDelayed
    exact ⟨noDelayed, by simpa using held⟩

theorem record_isSome (held : (s.record t).isSome) :
    (s.delayedTasks t).isSome ∨ (s.ioTasks t).isSome := by
  unfold record at held
  split at held
  · exact .inl (by simp [*])
  · exact .inr (by simpa using held)

theorem Invariant.issued (inv : Invariant s) {u : TaskId} (h : s.step e = .ok s' (.taskId u)) :
    s.record u = none ∧ (u ≠ kTaskIdNull → (s'.record u).isSome) := by
  cases e with
  | postDelayedTask closure accepted =>
    obtain ⟨r, posted, same⟩ := step_postDelayedTask h
    cases same
    obtain ⟨v, -, -, noDelayed, noIOTask, result⟩ := postDelayedTask_ok posted
    cases accepted <;> simp only [Bool.false_eq_true, ite_false, ite_true] at result <;>
      obtain ⟨rfl, rfl⟩ := result
    · exact ⟨record_of_absent inv.null_delayed inv.null_io, fun nonNull => absurd rfl nonNull⟩
    · exact ⟨record_of_absent noDelayed noIOTask, fun _ => by simp [record]⟩
  | watchFileDescriptor fd mode persistent closure scheduled =>
    obtain ⟨r, watched, same⟩ := step_watchFileDescriptor h
    cases same
    rcases watchFileDescriptor_ok watched with ⟨rfl, -⟩ |
      ⟨-, -, -, -, -, -, noDelayed, noIOTask, rfl⟩
    · exact ⟨record_of_absent inv.null_delayed inv.null_io, fun nonNull => absurd rfl nonNull⟩
    · exact ⟨record_of_absent noDelayed noIOTask, fun _ => by simp [record, noDelayed]⟩
  | cancelTask => cases (step_cancelTask h).2
  | breakLoop | runOnce _ | run => cases (step_client h (by simp)).2.1
  | closureReturns =>
    rcases step_closureReturns h with ⟨_, _, _, _, same⟩ | ⟨_, _, _, same⟩ <;> cases same
  | runPostedTask =>
    obtain ⟨-, -, -, -, ran⟩ := step_runPostedTask h
    obtain ⟨_, -, ⟨-, same, -⟩ | ⟨-, same, -⟩⟩ := onRanPostedTask_ok ran <;> cases same
  | fileReady =>
    obtain ⟨-, -, watch, -, -, ran⟩ := step_fileReady h
    obtain ⟨_, -, ran⟩ := fileReady_ok ran
    obtain ⟨-, same, -⟩ := onFileReady_ok ran
    cases same
  | loopReturns =>
    rcases step_loopReturns h with ⟨_, _, _, _, _, _, same⟩ | ⟨_, _, _, same⟩ <;> cases same

def ActsOn (t : TaskId) (s : State) (e : Event) : Prop :=
  e = .cancelTask t ∨ e = .runPostedTask t ∨ e = .fileReady t ∨
    (e = .closureReturns ∧ s.stack.head? = some (.ranPostedTask t))

theorem Invariant.step_other (inv : Invariant s) (h : s.step e = .ok s' out)
    (quiet : ¬ ActsOn t s e) (fresh : out ≠ .taskId t) :
    s'.delayedTasks t = s.delayedTasks t ∧ s'.ioTasks t = s.ioTasks t ∧ out.about t = false := by
  simp only [ActsOn, not_or, not_and] at quiet
  obtain ⟨notCancel, notRun, notReady, notEnd⟩ := quiet
  cases e with
  | postDelayedTask closure accepted =>
    obtain ⟨u, posted, rfl⟩ := step_postDelayedTask h
    have quiet : (Out.taskId u).about t = false := by simpa [Out.about] using fresh
    obtain ⟨v, -, -, -, -, result⟩ := postDelayedTask_ok posted
    cases accepted <;> simp only [Bool.false_eq_true, ite_false, ite_true] at result <;>
      obtain ⟨rfl, rfl⟩ := result
    · exact ⟨rfl, rfl, quiet⟩
    · have other : t ≠ u := fun same => fresh (by rw [same])
      exact ⟨by simp [Function.update_noteq other], rfl, quiet⟩
  | watchFileDescriptor fd mode persistent closure scheduled =>
    obtain ⟨u, watched, rfl⟩ := step_watchFileDescriptor h
    have quiet : (Out.taskId u).about t = false := by simpa [Out.about] using fresh
    rcases watchFileDescriptor_ok watched with ⟨-, v, rfl, -⟩ | ⟨-, -, -, -, -, -, -, -, rfl⟩
    · exact ⟨rfl, rfl, quiet⟩
    · have other : t ≠ u := fun same => fresh (by rw [same])
      exact ⟨rfl, by simp [Function.update_noteq other], quiet⟩
  | cancelTask u =>
    obtain ⟨rfl, rfl⟩ := step_cancelTask h
    have other : t ≠ u := fun same => notCancel (by rw [same])
    exact ⟨cancelTask_delayedTasks_other other, cancelTask_ioTasks_other other,
      by simp [Out.about, Ne.symm other]⟩
  | breakLoop | runOnce _ | run =>
    obtain ⟨delayed, io, -, -, rfl⟩ := step_control h (by simp)
    exact ⟨congrFun delayed t, congrFun io t, rfl⟩
  | closureReturns =>
    rcases step_closureReturns h with ⟨u, rest, top, rfl, rfl⟩ | ⟨rest, top, rfl, rfl⟩
    · have other : t ≠ u := fun same => notEnd rfl (by simp [top, same])
      rw [State.onRanPostedTaskEnd, quitIfRunOnce_eq]
      exact ⟨by simp [Function.update_noteq other], rfl, by simp [Out.about, Ne.symm other]⟩
    · rw [quitIfRunOnce_eq]
      exact ⟨rfl, rfl, rfl⟩
  | runPostedTask u =>
    obtain ⟨-, -, -, -, ran⟩ := step_runPostedTask h
    have other : t ≠ u := fun same => notRun (by rw [same])
    obtain ⟨task', -, ⟨-, rfl, rfl⟩ | ⟨-, rfl, rfl⟩⟩ := onRanPostedTask_ok ran <;>
      exact ⟨by simp [Function.update_noteq other], rfl, by simp [Out.about, Ne.symm other]⟩
  | fileReady u =>
    obtain ⟨-, -, watch, -, -, ran⟩ := step_fileReady h
    obtain ⟨task', found', ran⟩ := fileReady_ok ran
    obtain ⟨-, rfl, rfl⟩ := onFileReady_ok ran
    have other : t ≠ u := fun same => notReady (by rw [same])
    rw [inv.io_task_id u task' found']
    refine ⟨rfl, ?_, by simp [Out.about, Ne.symm other]⟩
    dsimp only
    split <;> simp [Function.update_noteq other]
  | loopReturns =>
    rcases step_loopReturns h with ⟨-, -, rest, -, -, rfl, rfl⟩ | ⟨rest, -, rfl, rfl⟩
    · rw [runOnceEnd_eq]
      exact ⟨rfl, rfl, rfl⟩
    · exact ⟨rfl, rfl, rfl⟩

theorem Invariant.cancelTask_record (inv : Invariant s) {ok : Bool}
    (cancelled : s.cancelTask t = (s', ok)) :
    TaskStep t (.cancelled t ok) (s.record t) (s'.record t) := by
  cases found : s.delayedTasks t with
  | some task =>
    have nonNull : t ≠ kTaskIdNull := fun zero => by simp [zero, inv.null_delayed] at found
    rw [cancelTask_of_delayed nonNull found] at cancelled
    rw [record_of_delayed found]
    obtain ⟨_ | c⟩ := task
    · simp only [Option.isNone_none, ite_true, Prod.mk.injEq] at cancelled
      obtain ⟨rfl, rfl⟩ := cancelled
      rw [record_of_delayed found]
      exact .cancelUsed
    · simp only [Option.isNone_some, Bool.false_eq_true, ite_false, Prod.mk.injEq] at cancelled
      obtain ⟨after, rfl⟩ := cancelled
      have cleared : s'.delayedTasks t = some ⟨none⟩ := by rw [← after]; simp
      rw [record_of_delayed cleared]
      exact .cancelDelayed
  | none =>
    cases io : s.ioTasks t with
    | some w =>
      have nonNull : t ≠ kTaskIdNull := fun zero => by simp [zero, inv.null_io] at io
      rw [cancelTask_of_io nonNull found io, Prod.mk.injEq] at cancelled
      obtain ⟨after, rfl⟩ := cancelled
      have noDelayed : s'.delayedTasks t = none := by rw [← after]; exact found
      have noIOTask : s'.ioTasks t = none := by rw [← after]; simp
      rw [record_of_io found io, record_of_absent noDelayed noIOTask]
      exact .cancelWatch
    | none =>
      rw [cancelTask_of_absent found io, Prod.mk.injEq] at cancelled
      obtain ⟨rfl, rfl⟩ := cancelled
      rw [record_of_absent found io]
      exact .cancelMissing

theorem Invariant.runPostedTask_record (inv : Invariant s)
    (h : s.step (.runPostedTask t) = .ok s' out) :
    TaskStep t out (s.record t) (s'.record t) := by
  obtain ⟨-, -, -, -, ran⟩ := step_runPostedTask h
  obtain ⟨⟨_ | c⟩, found, ⟨live, rfl, after⟩ | ⟨null, rfl, after⟩⟩ := onRanPostedTask_ok ran <;>
    change s.delayedTasks t = some _ at found
  · simp at live
  · have noIOTask : s.ioTasks t = none := (inv.disjoint t).resolve_left (by simp [found])
    have gone : s'.delayedTasks t = none := by rw [after]; simp
    have noIOTask' : s'.ioTasks t = none := by rw [after]; exact noIOTask
    rw [record_of_delayed found, record_of_absent gone noIOTask']
    exact .erase
  · have cleared : s'.delayedTasks t = some ⟨none⟩ := by rw [after]; simp
    rw [record_of_delayed found, record_of_delayed cleared]
    exact .startDelayed
  · simp at null

theorem Invariant.fileReady_record (inv : Invariant s) (h : s.step (.fileReady t) = .ok s' out) :
    TaskStep t out (s.record t) (s'.record t) := by
  obtain ⟨-, -, watch, -, -, ran⟩ := step_fileReady h
  obtain ⟨task, found, ran⟩ := fileReady_ok ran
  obtain ⟨-, rfl, after⟩ := onFileReady_ok ran
  have noDelayed : s.delayedTasks t = none := (inv.disjoint t).resolve_right (by simp [found])
  have noDelayed' : s'.delayedTasks t = none := by rw [after]; exact noDelayed
  rw [inv.io_task_id t task found, record_of_io noDelayed found]
  rw [inv.io_task_id t task found] at after
  cases persistent : task.persistent
  · have gone : s'.ioTasks t = none := by rw [after]; simp [persistent]
    rw [record_of_absent noDelayed' gone]
    exact .startOneShot persistent
  · have kept : s'.ioTasks t = some task := by rw [after]; simp [persistent, found]
    rw [record_of_io noDelayed' kept]
    exact .startPersistent persistent

theorem Invariant.closureReturns_record (inv : Invariant s)
    (h : s.step .closureReturns = .ok s' out) (top : s.stack.head? = some (.ranPostedTask t)) :
    TaskStep t out (s.record t) (s'.record t) := by
  rcases step_closureReturns h with ⟨u, rest, running, after, rfl⟩ | ⟨rest, running, -, -⟩ <;>
    simp only [running, List.head?_cons, Option.some.injEq, Frame.ranPostedTask.injEq,
      reduceCtorEq] at top
  subst top
  have cleared := inv.running_cleared u (by simp [running])
  have noIOTask : s.ioTasks u = none := (inv.disjoint u).resolve_left (by simp [cleared])
  have gone : s'.delayedTasks u = none := by
    rw [after, State.onRanPostedTaskEnd, quitIfRunOnce_eq]
    simp
  have noIOTask' : s'.ioTasks u = none := by
    rw [after, State.onRanPostedTaskEnd, quitIfRunOnce_eq]
    exact noIOTask
  rw [record_of_delayed cleared, record_of_absent gone noIOTask']
  exact .erase

theorem Invariant.step_record (inv : Invariant s) (h : s.step e = .ok s' out) (t : TaskId) :
    TaskStep t out (s.record t) (s'.record t) := by
  by_cases fresh : out = .taskId t
  · subst fresh
    obtain ⟨before, recorded⟩ := inv.issued h
    rw [before]
    by_cases null : t = kTaskIdNull
    · have inv' := inv.step h
      rw [record_of_absent (by rw [null]; exact inv'.null_delayed) (by rw [null]; exact inv'.null_io)]
      exact .reject null
    · obtain ⟨r, after⟩ := Option.isSome_iff_exists.mp (recorded null)
      rw [after]
      exact .issue null
  by_cases acts : ActsOn t s e
  · rcases acts with rfl | rfl | rfl | ⟨rfl, top⟩
    · obtain ⟨after, rfl⟩ := step_cancelTask h
      exact inv.cancelTask_record (by rw [after])
    · exact inv.runPostedTask_record h
    · exact inv.fileReady_record h
    · exact inv.closureReturns_record h top
  · obtain ⟨delayed, io, quiet⟩ := inv.step_other h acts fresh
    have same : s'.record t = s.record t := by simp only [record, delayed, io]
    rw [same]
    exact .quiet quiet

theorem Reachable.taskRun {es : List Event} {s₂ : State} {outs : List Out} (reachable : Reachable s)
    (run : s.exec es = some (s₂, outs)) (t : TaskId) : TaskRun t (s.record t) outs (s₂.record t) := by
  induction es generalizing s outs with
  | nil =>
    cases run
    exact .nil
  | cons e es ih =>
    obtain ⟨s₁, o, rest, stepped, tail, rfl⟩ := exec_cons run
    exact .cons (reachable.invariant.step_record stepped t) (ih (reachable.step stepped) tail)

/-- From any reachable state, every step moves what is held under each id along the per-task
life `TaskStep`, under the report the step makes. -/
theorem step_refines_task_life {s s' : State} {e : Event} {out : Out} (reachable : Reachable s)
    (h : s.step e = .ok s' out) (t : TaskId) : TaskStep t out (s.record t) (s'.record t) :=
  reachable.invariant.step_record h t

theorem step_refines_task_life_initialPosted :
    Reachable initial ∧
      initial.step (.postDelayedTask (some 1) true) = .ok initialPosted (.taskId 1) ∧
      TaskStep 1 (.taskId 1) (initial.record 1) (initialPosted.record 1) := by
  have posted : initial.step (.postDelayedTask (some 1) true) = .ok initialPosted (.taskId 1) := rfl
  exact ⟨.initial, posted, step_refines_task_life .initial posted 1⟩

/-- A delayed task posted with a live closure, from any reachable state, and any run after it,
with calls from closures and nested loops: until `OnRanPostedTask(t)` erases it, `t` stays a
delayed task and its closure runs, plus `CancelTask(t)` returns true, at most once in all; the
erasing step comes after exactly one of them. Once no `OnRanPostedTask(t)` is posted or running,
and `t` was not handed out again, the record is gone and exactly one of them happened. -/
theorem delayed_task_used_once {s s₁ s₂ : State} {task : Closure} {t : TaskId}
    {events : List Event} {outs : List Out} (reachable : Reachable s) (live : task.isSome)
    (posted : s.step (.postDelayedTask task true) = .ok s₁ (.taskId t))
    (run : s₁.exec events = some (s₂, outs)) :
    t ≠ kTaskIdNull ∧
      (Out.erased t ∉ outs → delayedUses t outs ≤ 1 ∧ (s₂.delayedTasks t).isSome) ∧
      (∀ pre, outs = pre ++ [.erased t] → Out.erased t ∉ pre →
        delayedUses t pre = 1 ∧ s₂.delayedTasks t = none) ∧
      (Out.taskId t ∉ outs → s₂.postedTasks t = 0 → .ranPostedTask t ∉ s₂.stack →
        delayedUses t outs = 1 ∧ s₂.delayedTasks t = none) := by
  obtain ⟨r, accepted, same⟩ := step_postDelayedTask posted
  cases same
  obtain ⟨v, -, nonNull, -, -, rfl, after⟩ := postDelayedTask_ok accepted
  have found : s₁.delayedTasks t = some ⟨task⟩ := by rw [after]; simp
  have reachable₂ := (reachable.step posted).exec run
  have life := (reachable.step posted).taskRun run t
  rw [record_of_delayed found] at life
  have phase := life.delayed (.inl ⟨live, rfl⟩)
  refine ⟨nonNull, fun absent => ?_, fun pre split notIn => ?_, fun fresh idle notRunning => ?_⟩
  · obtain ⟨task₂, held, uses⟩ := phase.1 absent
    exact ⟨by omega, by simp [record_eq_delayed held]⟩
  · obtain ⟨uses, gone⟩ := phase.2 pre split notIn
    exact ⟨by simpa using uses, (record_eq_none gone).1⟩
  · have none₂ := reachable₂.invariant.delayed_none_of_quiet idle notRunning
    rcases life.delayed_fresh (.inl ⟨live, rfl⟩) fresh with ⟨task₂, held⟩ | ⟨-, uses⟩
    · simp [record_eq_delayed held] at none₂
    · exact ⟨by simpa using uses, none₂⟩

theorem delayed_task_used_once_initialPosted :
    Reachable initial ∧ (some 1 : Closure).isSome ∧
      initial.step (.postDelayedTask (some 1) true) = .ok initialPosted (.taskId 1) ∧
      ∃ s₂, initialPosted.exec [.run, .runPostedTask 1, .cancelTask 1, .closureReturns] =
          some (s₂, [.done, .started 1 .delayed, .cancelled 1 false, .erased 1]) ∧
        s₂.postedTasks 1 = 0 ∧ Frame.ranPostedTask 1 ∉ s₂.stack ∧
        (1 : TaskId) ≠ kTaskIdNull ∧
        (Out.erased 1 ∉ [.done, .started 1 .delayed, .cancelled 1 false, .erased 1] →
          delayedUses 1 [.done, .started 1 .delayed, .cancelled 1 false, .erased 1] ≤ 1 ∧
            (s₂.delayedTasks 1).isSome) ∧
        (∀ pre, [.done, .started 1 .delayed, .cancelled 1 false, .erased 1] = pre ++ [.erased 1] →
          Out.erased 1 ∉ pre → delayedUses 1 pre = 1 ∧ s₂.delayedTasks 1 = none) ∧
        (Out.taskId 1 ∉ [.done, .started 1 .delayed, .cancelled 1 false, .erased 1] →
          s₂.postedTasks 1 = 0 → Frame.ranPostedTask 1 ∉ s₂.stack →
          delayedUses 1 [.done, .started 1 .delayed, .cancelled 1 false, .erased 1] = 1 ∧
            s₂.delayedTasks 1 = none) := by
  have posted : initial.step (.postDelayedTask (some 1) true) = .ok initialPosted (.taskId 1) := rfl
  have live : (some 1 : Closure).isSome := rfl
  refine ⟨.initial, live, posted, _, rfl, rfl, by decide, ?_⟩
  exact @delayed_task_used_once _ _ _ _ _ [.run, .runPostedTask 1, .cancelTask 1, .closureReturns]
    _ .initial live posted rfl

/-- A watch registered from any reachable state, and any later run with calls from closures and
nested loops, until `t` is handed out again: a one-shot watch's closure starts at most once, and
when it does the record and its watch are already gone; a persistent watch's closure starts only
while its record is in place; `CancelTask(t)` returns true at most once, and after it nothing of
the watch runs. -/
theorem watch_lifecycle {s s₁ s₂ : State} {fd : Int} {mode : WatchMode} {persistent : Bool}
    {task : Closure} {t : TaskId} {events : List Event} {outs : List Out}
    (reachable : Reachable s)
    (registered : s.step (.watchFileDescriptor fd mode persistent task true) = .ok s₁ (.taskId t))
    (nonNull : t ≠ kTaskIdNull) (run : s₁.exec events = some (s₂, outs))
    (fresh : Out.taskId t ∉ outs) :
    ((∀ o ∈ outs, ¬ Retires persistent t o) ∧ s₂.ioTasks t = some ⟨t, persistent, task⟩ ∧
        (s₂.watches t).isSome) ∨
      ∃ pre o post, outs = pre ++ o :: post ∧ (∀ o' ∈ pre, ¬ Retires persistent t o') ∧
        Retires persistent t o ∧ Out.started t .io ∉ post ∧ Out.cancelled t true ∉ post ∧
        s₂.delayedTasks t = none ∧ s₂.ioTasks t = none ∧ s₂.watches t = none := by
  have reachable₁ := reachable.step registered
  have watched₂ := (reachable₁.exec run).invariant.watched t
  have held : s₁.record t = some (.watch ⟨t, persistent, task⟩) := by
    obtain ⟨r, watched, same⟩ := step_watchFileDescriptor registered
    cases same
    rcases watchFileDescriptor_ok watched with ⟨rfl, -⟩ | ⟨_, -, -, -, -, -, noDelayed, -, after⟩
    · exact absurd rfl nonNull
    · have found : s₁.ioTasks t = some ⟨t, persistent, task⟩ := by rw [after]; simp
      exact record_of_io (by rw [after]; exact noDelayed) found
  have life := reachable₁.taskRun run t
  rw [held] at life
  rcases life.watch fresh with
    ⟨none, held₂⟩ | ⟨pre, o, post, split, before, retires, notStarted, notCancelled, gone⟩
  · obtain ⟨-, found₂⟩ := record_eq_watch held₂
    refine .inl ⟨none, found₂, ?_⟩
    rw [found₂] at watched₂
    cases registered₂ : s₂.watches t <;> simp_all
  · obtain ⟨noDelayed, noIOTask⟩ := record_eq_none gone
    refine .inr ⟨pre, o, post, split, before, retires, notStarted, notCancelled, noDelayed,
      noIOTask, ?_⟩
    rw [noIOTask] at watched₂
    cases registered₂ : s₂.watches t <;> simp_all

-- descriptor `0` watched for reading, once, with the closure `1`, under id `1`
def initialWatched : State :=
  { initial with
    lastId := 1
    ioTasks := Function.update initial.ioTasks 1 (some ⟨1, false, some 1⟩)
    watches := Function.update initial.watches 1 (some ⟨0, .watchRead, false⟩) }

theorem watch_lifecycle_initialWatched :
    Reachable initial ∧
      initial.step (.watchFileDescriptor 0 .kWatchRead false (some 1) true) =
        .ok initialWatched (.taskId 1) ∧
      (1 : TaskId) ≠ kTaskIdNull ∧
      ∃ s₂, initialWatched.exec [.run, .fileReady 1, .cancelTask 1, .closureReturns] =
          some (s₂, [.done, .started 1 .io, .cancelled 1 false, .done]) ∧
        Out.taskId 1 ∉ [.done, .started 1 .io, .cancelled 1 false, .done] ∧
        (((∀ o ∈ [Out.done, .started 1 .io, .cancelled 1 false, .done], ¬ Retires false 1 o) ∧
            s₂.ioTasks 1 = some ⟨1, false, some 1⟩ ∧ (s₂.watches 1).isSome) ∨
          ∃ pre o post, [Out.done, .started 1 .io, .cancelled 1 false, .done] = pre ++ o :: post ∧
            (∀ o' ∈ pre, ¬ Retires false 1 o') ∧ Retires false 1 o ∧ Out.started 1 .io ∉ post ∧
            Out.cancelled 1 true ∉ post ∧ s₂.delayedTasks 1 = none ∧ s₂.ioTasks 1 = none ∧
            s₂.watches 1 = none) := by
  have registered : initial.step (.watchFileDescriptor 0 .kWatchRead false (some 1) true) =
      .ok initialWatched (.taskId 1) := rfl
  have nonNull : (1 : TaskId) ≠ kTaskIdNull := by decide
  have fresh : Out.taskId 1 ∉ [Out.done, .started 1 .io, .cancelled 1 false, .done] := by decide
  refine ⟨.initial, registered, nonNull, _, rfl, fresh, ?_⟩
  exact @watch_lifecycle _ _ _ _ _ _ _ _ [.run, .fileReady 1, .cancelTask 1, .closureReturns] _
    .initial registered nonNull rfl fresh

/-- No accepted delayed task is lost: while its closure is live, its one `OnRanPostedTask` call
is still posted with the base loop, so whenever the client's own `Run` or `RunOnce` drives the
base loop, with no closure running below it, and it is not quitting, that call can run, and it
starts the closure and clears it. -/
theorem live_delayed_task_runs {s : State} {t : TaskId} {c : Nat} {how : Drive}
    (reachable : Reachable s) (live : s.delayedTasks t = some ⟨some c⟩)
    (driving : s.stack = [.drive how false]) :
    s.postedTasks t = 1 ∧
      s.step (.runPostedTask t) = .ok { s with
        postedTasks := Function.update s.postedTasks t 0
        delayedTasks := Function.update s.delayedTasks t (some ⟨none⟩)
        stack := .ranPostedTask t :: s.stack } (.started t .delayed) := by
  have posted := reachable.invariant.live_posted live
  exact ⟨posted, by simp [step, driving, posted, onRanPostedTask, live]⟩

def runningPosted : State := initialPosted.runBegin

theorem reachable_runningPosted : Reachable runningPosted :=
  .step (.step .initial (show initial.step (.postDelayedTask (some 1) true) =
    .ok initialPosted (.taskId 1) from rfl))
    (show initialPosted.step .run = .ok runningPosted .done from rfl)

theorem live_delayed_task_runs_runningPosted :
    Reachable runningPosted ∧ runningPosted.delayedTasks 1 = some ⟨some 1⟩ ∧
      runningPosted.stack = [.drive .run false] ∧
      runningPosted.postedTasks 1 = 1 ∧
      runningPosted.step (.runPostedTask 1) = .ok { runningPosted with
        postedTasks := Function.update runningPosted.postedTasks 1 0
        delayedTasks := Function.update runningPosted.delayedTasks 1 (some ⟨none⟩)
        stack := .ranPostedTask 1 :: runningPosted.stack } (.started 1 .delayed) := by
  exact ⟨reachable_runningPosted, rfl, rfl, live_delayed_task_runs reachable_runningPosted rfl rfl⟩

/-- No registered watch is lost: its watch stays with the base loop, so whenever the client's own
`Run` or `RunOnce` drives the base loop, with no closure running below it, and it is not
quitting, the descriptor's readiness can be reported; with a live closure that starts the
closure, touches no delayed task, and retires the record and watch of a one-shot watch only. -/
theorem registered_watch_runs {s : State} {t : TaskId} {task : IOTask} {c : Nat} {how : Drive}
    (reachable : Reachable s) (registered : s.ioTasks t = some task)
    (live : task.closure = some c) (driving : s.stack = [.drive how false]) :
    ∃ s', s.step (.fileReady t) = .ok s' (.started t .io) ∧ s'.stack = .fileReady :: s.stack ∧
      s'.delayedTasks = s.delayedTasks ∧
      s'.ioTasks t = (if task.persistent then some task else none) ∧
      (s'.watches t).isSome = task.persistent := by
  have inv := reachable.invariant
  have watched := inv.watched t
  rw [registered, Option.map_some'] at watched
  obtain ⟨watch, found, same⟩ := Option.map_eq_some'.mp watched
  simp only [step, driving, found, fileReady, registered, onFileReady, live,
    inv.io_task_id t task registered]
  cases persistent : task.persistent
  · exact ⟨_, rfl, rfl, rfl, by simp, by simp⟩
  · exact ⟨_, rfl, rfl, rfl, by simp [registered], by simp [dropOneShot, same, persistent, found]⟩

def runningWatched : State := initialWatched.runBegin

theorem reachable_runningWatched : Reachable runningWatched :=
  .step (.step .initial
    (show initial.step (.watchFileDescriptor 0 .kWatchRead false (some 1) true) =
      .ok initialWatched (.taskId 1) from rfl))
    (show initialWatched.step .run = .ok runningWatched .done from rfl)

theorem registered_watch_runs_runningWatched :
    Reachable runningWatched ∧ runningWatched.ioTasks 1 = some ⟨1, false, some 1⟩ ∧
      (⟨1, false, some 1⟩ : IOTask).closure = some 1 ∧ runningWatched.stack = [.drive .run false] ∧
      ∃ s', runningWatched.step (.fileReady 1) = .ok s' (.started 1 .io) ∧
        s'.stack = .fileReady :: runningWatched.stack ∧
        s'.delayedTasks = runningWatched.delayedTasks ∧
        s'.ioTasks 1 =
          (if (⟨1, false, some 1⟩ : IOTask).persistent then some ⟨1, false, some 1⟩ else none) ∧
        (s'.watches 1).isSome = (⟨1, false, some 1⟩ : IOTask).persistent := by
  exact ⟨reachable_runningWatched, rfl, rfl, rfl,
    registered_watch_runs reachable_runningWatched rfl rfl rfl⟩


/-- Destroying the loop in any reachable state leaves the base loop with no watch of it: every
watch the base loop holds belongs to a record of `io_tasks_`, whose watcher the destructor
stops, so no readiness is reported to a destroyed record. -/
theorem destroy_leaves_no_watch {s : State} (reachable : Reachable s) :
    s.destroy = fun _ => none := by
  funext t
  cases io : s.ioTasks t with
  | none => simpa [destroy, io] using reachable.invariant.watched t
  | some task => simp [destroy, io]

theorem destroy_leaves_no_watch_runningWatched :
    Reachable runningWatched ∧ runningWatched.watches 1 = some ⟨0, .watchRead, false⟩ ∧
      runningWatched.destroy = fun _ => none :=
  ⟨reachable_runningWatched, rfl, destroy_leaves_no_watch reachable_runningWatched⟩

/-- No id is handed out while anything of an earlier task is left under it: when
`PostDelayedTask` or `WatchFileDescriptor` returns a non-null id from a reachable state, no
delayed task, watch record or watch is held under it, no `OnRanPostedTask` call for it is
posted or running, and the step leaves a record under it. -/
theorem task_id_not_reused_while_held {s s' : State} {e : Event} {t : TaskId}
    (reachable : Reachable s) (nonNull : t ≠ kTaskIdNull) (issued : s.step e = .ok s' (.taskId t)) :
    s.delayedTasks t = none ∧ s.ioTasks t = none ∧ s.watches t = none ∧ s.postedTasks t = 0 ∧
      .ranPostedTask t ∉ s.stack ∧ ((s'.delayedTasks t).isSome ∨ (s'.ioTasks t).isSome) := by
  have inv := reachable.invariant
  obtain ⟨free, held⟩ := inv.issued issued
  obtain ⟨noDelayed, noIOTask⟩ := record_eq_none free
  have quiet : s.postedTasks t + s.stack.count (.ranPostedTask t) = 0 := by
    simpa [noDelayed] using inv.notified t
  exact ⟨noDelayed, noIOTask, by simpa [noIOTask] using inv.watched t, by omega,
    List.count_eq_zero.mp (by omega), record_isSome (held nonNull)⟩

def idleAt (k : TaskId) : State := { initial with lastId := k }

-- watch a descriptor (id `1`), cancel the watch, and let the base loop reject `2^64 - 2`
-- posts: `last_id_` comes back to the largest id, one turn before `1` again
def wrapEvents : List Event :=
  .watchFileDescriptor 0 .kWatchRead false (some 1) true :: .cancelTask 1 ::
    List.replicate (2 ^ 64 - 2) (.postDelayedTask none false)

theorem initialWatched_cancelTask : initialWatched.cancelTask 1 = (idleAt 1, true) := by
  have io : Function.update initial.ioTasks 1 none = initial.ioTasks :=
    Function.update_eq_self_iff.mpr rfl
  have watches : Function.update initial.watches 1 none = initial.watches :=
    Function.update_eq_self_iff.mpr rfl
  rw [cancelTask_of_io (by decide) rfl rfl]
  simp only [initialWatched, Function.update_idem, io, watches]
  rfl

theorem exec_wrapEvents : initial.exec wrapEvents = some (idleAt (1 + BitVec.ofNat 64 (2 ^ 64 - 2)),
    .taskId 1 :: .cancelled 1 true :: List.replicate (2 ^ 64 - 2) (.taskId kTaskIdNull)) := by
  have watched : initial.step (.watchFileDescriptor 0 .kWatchRead false (some 1) true) =
      .ok initialWatched (.taskId 1) := rfl
  have cancelled : initialWatched.step (.cancelTask 1) = .ok (idleAt 1) (.cancelled 1 true) := by
    simp only [step, initialWatched_cancelTask]
    rfl
  rw [wrapEvents, exec, watched]
  dsimp only
  rw [exec, cancelled]
  dsimp only
  rw [@exec_rejected_posts (idleAt 1) (fun _ => rfl) rfl (2 ^ 64 - 2) (by decide)]
  rfl

theorem task_id_not_reused_while_held_wrapEvents :
    Reachable (idleAt (1 + BitVec.ofNat 64 (2 ^ 64 - 2))) ∧ (1 : TaskId) ≠ kTaskIdNull ∧
      (idleAt (1 + BitVec.ofNat 64 (2 ^ 64 - 2))).step (.postDelayedTask (some 1) true) =
        .ok initialPosted (.taskId 1) ∧
      (idleAt (1 + BitVec.ofNat 64 (2 ^ 64 - 2))).delayedTasks 1 = none ∧
      (idleAt (1 + BitVec.ofNat 64 (2 ^ 64 - 2))).ioTasks 1 = none ∧
      (idleAt (1 + BitVec.ofNat 64 (2 ^ 64 - 2))).watches 1 = none ∧
      (idleAt (1 + BitVec.ofNat 64 (2 ^ 64 - 2))).postedTasks 1 = 0 ∧
      Frame.ranPostedTask 1 ∉ (idleAt (1 + BitVec.ofNat 64 (2 ^ 64 - 2))).stack ∧
      ((initialPosted.delayedTasks 1).isSome ∨ (initialPosted.ioTasks 1).isSome) := by
  have reachable := Reachable.initial.exec exec_wrapEvents
  have posted : (idleAt (1 + BitVec.ofNat 64 (2 ^ 64 - 2))).step (.postDelayedTask (some 1) true) =
      .ok initialPosted (.taskId 1) := rfl
  exact ⟨reachable, by decide, posted, task_id_not_reused_while_held reachable (by decide) posted⟩

end State

end Chromeos
