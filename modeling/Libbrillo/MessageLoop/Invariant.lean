import Libbrillo.MessageLoop.Registration

namespace Chromeos

def runOnceActive : List Frame → Bool
  | [] => false
  | .drive (.runOnce _) _ :: _ => true
  | _ :: rest => runOnceActive rest

@[simp] theorem count_quitNow (stack : List Frame) (t : TaskId) :
    (quitNow stack).count (.ranPostedTask t) = stack.count (.ranPostedTask t) := by
  induction stack using quitNow.induct <;> simp_all [quitNow, List.count_cons]

@[simp] theorem mem_quitNow (stack : List Frame) (t : TaskId) :
    .ranPostedTask t ∈ quitNow stack ↔ .ranPostedTask t ∈ stack := by
  simp only [← List.count_pos_iff, count_quitNow]

@[simp] theorem runOnceActive_quitNow (stack : List Frame) :
    runOnceActive (quitNow stack) = runOnceActive stack := by
  induction stack using quitNow.induct with
  | case2 how quit rest => cases how <;> rfl
  | _ => simp_all [quitNow, runOnceActive]

namespace State

/-- What holds in every reachable state. Each key of `delayed_tasks_` has exactly one
`OnRanPostedTask` call for it, posted to the base loop or in progress, and no other id has one;
while it is in progress the record's closure is null. Each key of `io_tasks_` has a watch of the
same persistence, and no other id has one. Outside `RunOnce`, `run_once_` is clear. -/
structure Invariant (s : State) : Prop where
  null_delayed : s.delayedTasks kTaskIdNull = none
  null_io : s.ioTasks kTaskIdNull = none
  disjoint : ∀ t, s.delayedTasks t = none ∨ s.ioTasks t = none
  notified : ∀ t, s.postedTasks t + s.stack.count (.ranPostedTask t) =
    if (s.delayedTasks t).isSome then 1 else 0
  running_cleared : ∀ t, .ranPostedTask t ∈ s.stack → s.delayedTasks t = some ⟨none⟩
  watched : ∀ t, (s.watches t).map Watch.persistent = (s.ioTasks t).map IOTask.persistent
  io_task_id : ∀ t task, s.ioTasks t = some task → task.taskId = t
  run_once : runOnceActive s.stack = false → s.runOnce = false

theorem initial_invariant : Invariant initial where
  null_delayed := rfl
  null_io := rfl
  disjoint _ := .inl rfl
  notified _ := rfl
  running_cleared _ := by simp [initial]
  watched _ := rfl
  io_task_id _ _ := by simp [initial]
  run_once _ := rfl

section Preservation

variable {s s' : State}

theorem quitIfRunOnce_eq :
    s.quitIfRunOnce = { s with runOnce := false, stack := if s.runOnce then quitNow s.stack else s.stack } := by
  obtain ⟨_, _, _, runOnce, _, _, _⟩ := s
  cases runOnce <;> rfl

theorem runOnceEnd_eq : s.runOnceEnd = ({ s with runOnce := false }, !s.runOnce) := by
  obtain ⟨_, _, _, runOnce, _, _, _⟩ := s
  cases runOnce <;> rfl

@[simp] theorem count_ite_quitNow (quit : Bool) (stack : List Frame) (t : TaskId) :
    (if quit then quitNow stack else stack).count (.ranPostedTask t) = stack.count (.ranPostedTask t) := by
  split <;> simp

theorem Invariant.lastId (inv : Invariant s) (t : TaskId) : Invariant { s with lastId := t } :=
  ⟨inv.null_delayed, inv.null_io, inv.disjoint, inv.notified, inv.running_cleared, inv.watched,
    inv.io_task_id, inv.run_once⟩

theorem Invariant.restack (inv : Invariant s) (stack : List Frame) (runOnce : Bool)
    (count : ∀ t, stack.count (.ranPostedTask t) = s.stack.count (.ranPostedTask t))
    (runOnceOk : runOnceActive stack = false → runOnce = false) :
    Invariant { s with stack, runOnce } where
  null_delayed := inv.null_delayed
  null_io := inv.null_io
  disjoint := inv.disjoint
  notified t := by rw [← inv.notified t, count]
  running_cleared t running := inv.running_cleared t <| by
    rw [← List.count_pos_iff, ← count]
    exact List.count_pos_iff.mpr running
  watched := inv.watched
  io_task_id := inv.io_task_id
  run_once := runOnceOk

theorem Invariant.idle (inv : Invariant s) {t : TaskId} (absent : s.delayedTasks t = none) :
    s.postedTasks t = 0 ∧ s.stack.count (.ranPostedTask t) = 0 := by
  have := inv.notified t
  simp only [absent, Option.isSome_none, Bool.false_eq_true, ite_false] at this
  omega

theorem Invariant.not_running (inv : Invariant s) {t : TaskId} (absent : s.delayedTasks t = none) :
    .ranPostedTask t ∉ s.stack := by
  rw [← List.count_pos_iff, (inv.idle absent).2]
  exact Nat.lt_irrefl 0

theorem Invariant.postDelayedTask (inv : Invariant s) {task : Closure} {accepted : Bool}
    {r : TaskId} (posted : s.postDelayedTask task accepted = .ok (s', r)) : Invariant s' := by
  obtain ⟨t, -, nonNull, noDelayed, noIOTask, result⟩ := postDelayedTask_ok posted
  cases accepted <;> simp only [Bool.false_eq_true, ite_false, ite_true] at result <;>
    obtain ⟨-, rfl⟩ := result
  · exact inv.lastId t
  obtain ⟨idlePosted, idleRunning⟩ := inv.idle noDelayed
  refine ⟨?_, inv.null_io, fun u => ?_, fun u => ?_, fun u running => ?_, inv.watched,
    inv.io_task_id, inv.run_once⟩
  · simpa [Function.update_noteq (Ne.symm nonNull)] using inv.null_delayed
  all_goals by_cases same : u = t
  · subst same
    exact .inr noIOTask
  · simpa [Function.update_noteq same] using inv.disjoint u
  · subst same
    simp [idlePosted, idleRunning]
  · simpa [Function.update_noteq same] using inv.notified u
  · subst same
    exact absurd running (inv.not_running noDelayed)
  · simpa [Function.update_noteq same] using inv.running_cleared u running

theorem Invariant.watchFileDescriptor (inv : Invariant s) {fd : Int} {mode : WatchMode}
    {persistent : Bool} {task : Closure} {scheduled : Bool} {r : TaskId}
    (watched : s.watchFileDescriptor fd mode persistent task scheduled = .ok (s', r)) :
    Invariant s' := by
  rcases watchFileDescriptor_ok watched with ⟨-, t, rfl, -⟩ |
    ⟨base, -, -, -, -, nonNull, noDelayed, noIOTask, rfl⟩
  · exact inv.lastId t
  refine ⟨inv.null_delayed, ?_, fun u => ?_, inv.notified, inv.running_cleared, fun u => ?_,
    fun u record found => ?_, inv.run_once⟩
  · simpa [Function.update_noteq (Ne.symm nonNull)] using inv.null_io
  all_goals by_cases same : u = r
  · subst same
    exact .inl noDelayed
  · simpa [Function.update_noteq same] using inv.disjoint u
  · subst same
    simp
  · simpa [Function.update_noteq same] using inv.watched u
  · subst same
    simp only [Function.update_same, Option.some.injEq] at found
    rw [← found]
  · exact inv.io_task_id u record (by simpa [Function.update_noteq same] using found)

theorem Invariant.eraseIOTask (inv : Invariant s) (t : TaskId) :
    Invariant { s with
      ioTasks := Function.update s.ioTasks t none
      watches := Function.update s.watches t none } := by
  refine ⟨inv.null_delayed, ?_, fun u => ?_, inv.notified, inv.running_cleared, fun u => ?_,
    fun u record found => ?_, inv.run_once⟩
  · by_cases zero : kTaskIdNull = t <;> simp [Function.update_apply, zero, inv.null_io]
  all_goals by_cases same : u = t
  · subst same
    exact .inr (by simp)
  · simpa [Function.update_noteq same] using inv.disjoint u
  · subst same
    simp
  · simpa [Function.update_noteq same] using inv.watched u
  · subst same
    simp at found
  · exact inv.io_task_id u record (by simpa [Function.update_noteq same] using found)

theorem Invariant.cancelTask (inv : Invariant s) (t : TaskId) : Invariant (s.cancelTask t).1 := by
  unfold State.cancelTask
  split
  · exact inv
  rename_i nonNull
  split
  · split
    · exact inv
    · exact inv.eraseIOTask t
  · rename_i record found
    split
    · exact inv
    have noIOTask : s.ioTasks t = none := (inv.disjoint t).resolve_left (by simp [found])
    refine ⟨?_, inv.null_io, fun u => ?_, fun u => ?_, fun u running => ?_, inv.watched,
      inv.io_task_id, inv.run_once⟩
    · simpa [Function.update_noteq (Ne.symm nonNull)] using inv.null_delayed
    all_goals by_cases same : u = t
    · exact .inr (same ▸ noIOTask)
    · simpa [Function.update_noteq same] using inv.disjoint u
    · subst same
      simpa [found] using inv.notified u
    · simpa [Function.update_noteq same] using inv.notified u
    · subst same
      simp
    · simpa [Function.update_noteq same] using inv.running_cleared u running

theorem Invariant.onRanPostedTaskEnd (inv : Invariant s) {t : TaskId} {rest : List Frame}
    (top : s.stack = .ranPostedTask t :: rest) :
    Invariant ({ s with stack := rest }.onRanPostedTaskEnd t) := by
  have cleared := inv.running_cleared t (by simp [top])
  have alone : s.postedTasks t = 0 ∧ rest.count (.ranPostedTask t) = 0 := by
    have := inv.notified t
    simp only [top, List.count_cons_self, cleared, Option.isSome_some, ite_true] at this
    omega
  have count : ∀ u, u ≠ t → rest.count (.ranPostedTask u) = s.stack.count (.ranPostedTask u) := by
    intro u other
    simp [top, List.count_cons, Ne.symm other]
  rw [State.onRanPostedTaskEnd, quitIfRunOnce_eq]
  refine ⟨?_, inv.null_io, fun u => ?_, fun u => ?_, fun u running => ?_, inv.watched,
    inv.io_task_id, fun _ => rfl⟩
  · by_cases zero : kTaskIdNull = t <;> simp [Function.update_apply, zero, inv.null_delayed]
  all_goals by_cases same : u = t
  · subst same
    exact .inl (by simp)
  · simpa [Function.update_noteq same] using inv.disjoint u
  · subst same
    simp [alone]
  · simpa [Function.update_noteq same, count u same] using inv.notified u
  · subst same
    have : rest.count (.ranPostedTask u) ≠ 0 := by
      rw [← count_ite_quitNow s.runOnce]
      exact (List.count_pos_iff.mpr running).ne'
    exact absurd alone.2 this
  · have inRest : .ranPostedTask u ∈ s.stack := by
      rw [← List.count_pos_iff, ← count u same, ← count_ite_quitNow s.runOnce]
      exact List.count_pos_iff.mpr running
    simpa [Function.update_noteq same] using inv.running_cleared u inRest

theorem Invariant.runPostedTask (inv : Invariant s) {t : TaskId} {out : Out}
    (pending : 0 < s.postedTasks t)
    (ran : { s with postedTasks := Function.update s.postedTasks t (s.postedTasks t - 1) }.onRanPostedTask t =
      .ok (s', out)) : Invariant s' := by
  obtain ⟨task, found, ⟨-, -, rfl⟩ | ⟨-, -, rfl⟩⟩ := onRanPostedTask_ok ran <;>
    change s.delayedTasks t = some task at found
  all_goals
    have total := inv.notified t
    simp only [found, Option.isSome_some, ite_true] at total
    have nonNull : kTaskIdNull ≠ t := fun zero => by simp [← zero, inv.null_delayed] at found
  · refine ⟨by simpa [Function.update_noteq nonNull] using inv.null_delayed, inv.null_io,
      fun u => ?_, fun u => ?_, fun u running => ?_, inv.watched, inv.io_task_id,
      fun idle => inv.run_once (by simpa [runOnceActive] using idle)⟩
    all_goals by_cases same : u = t
    · subst same
      exact .inr ((inv.disjoint u).resolve_left (by simp [found]))
    · simpa [Function.update_noteq same] using inv.disjoint u
    · subst same
      simp
      omega
    · simpa [Function.update_noteq same, List.count_cons, Ne.symm same] using inv.notified u
    · subst same
      simp
    · have inStack : .ranPostedTask u ∈ s.stack := by simpa [same] using running
      simpa [Function.update_noteq same] using inv.running_cleared u inStack
  · have idle : s.stack.count (.ranPostedTask t) = 0 := by omega
    refine ⟨by simpa [Function.update_noteq nonNull] using inv.null_delayed, inv.null_io,
      fun u => ?_, fun u => ?_, fun u running => ?_, inv.watched, inv.io_task_id, inv.run_once⟩
    all_goals by_cases same : u = t
    · subst same
      exact .inl (by simp)
    · simpa [Function.update_noteq same] using inv.disjoint u
    · subst same
      simp
      omega
    · simpa [Function.update_noteq same] using inv.notified u
    · subst same
      exact absurd (List.count_pos_iff.mpr (show .ranPostedTask u ∈ s.stack from running))
        (by omega)
    · simpa [Function.update_noteq same] using inv.running_cleared u running

theorem Invariant.fileReady (inv : Invariant s) {t : TaskId} {watch : Watch} {out : Out}
    (registered : s.watches t = some watch) (ran : s.fileReady t watch = .ok s' out) :
    Invariant s' := by
  obtain ⟨task, found, ran⟩ := fileReady_ok ran
  obtain ⟨-, -, rfl⟩ := onFileReady_ok ran
  have ownId := inv.io_task_id t task found
  have samePersistence : watch.persistent = task.persistent := by
    simpa [registered, found] using inv.watched t
  have pushed : ∀ s : State, Invariant s → Invariant { s with stack := .fileReady :: s.stack } :=
    fun s inv => inv.restack _ s.runOnce (by simp [List.count_cons])
      (fun idle => inv.run_once (by simpa [runOnceActive] using idle))
  cases persistent : task.persistent
  · have dropped : dropOneShot s.watches t watch = Function.update s.watches t none := by
      simp [dropOneShot, samePersistence, persistent]
    simpa [ownId, dropped] using pushed _ (inv.eraseIOTask t)
  · have kept : dropOneShot s.watches t watch = s.watches := by
      simp [dropOneShot, samePersistence, persistent]
    simpa [kept] using pushed s inv

theorem Invariant.step (inv : Invariant s) {e : Event} {out : Out} (h : s.step e = .ok s' out) :
    Invariant s' := by
  cases e with
  | postDelayedTask task accepted =>
    obtain ⟨t, posted, -⟩ := step_postDelayedTask h
    exact inv.postDelayedTask posted
  | watchFileDescriptor fd mode persistent task scheduled =>
    obtain ⟨t, watched, -⟩ := step_watchFileDescriptor h
    exact inv.watchFileDescriptor watched
  | cancelTask t =>
    obtain ⟨rfl, -⟩ := step_cancelTask h
    exact inv.cancelTask t
  | breakLoop =>
    obtain ⟨-, -, broke, -, -⟩ := step_client h (.inl rfl)
    rw [broke rfl]
    exact inv.restack _ s.runOnce (by simp) (fun idle => inv.run_once (by simpa using idle))
  | runOnce mayBlock =>
    obtain ⟨-, -, -, began, -⟩ := step_client h (.inr (.inl ⟨mayBlock, rfl⟩))
    rw [began mayBlock rfl]
    exact inv.restack _ true (by simp [List.count_cons]) (by simp [runOnceActive])
  | run =>
    obtain ⟨-, -, -, -, began⟩ := step_client h (.inr (.inr rfl))
    rw [began rfl]
    exact inv.restack _ s.runOnce (by simp [List.count_cons])
      (fun idle => inv.run_once (by simpa [runOnceActive] using idle))
  | closureReturns =>
    rcases step_closureReturns h with ⟨t, rest, top, rfl, -⟩ | ⟨rest, top, rfl, -⟩
    · exact inv.onRanPostedTaskEnd top
    · rw [quitIfRunOnce_eq]
      exact inv.restack _ false (by simp [top, List.count_cons]) (fun _ => rfl)
  | runPostedTask t =>
    obtain ⟨-, -, -, pending, ran⟩ := step_runPostedTask h
    exact inv.runPostedTask pending ran
  | fileReady t =>
    obtain ⟨-, -, watch, -, registered, ran⟩ := step_fileReady h
    exact inv.fileReady registered ran
  | loopReturns =>
    rcases step_loopReturns h with ⟨mayBlock, quit, rest, top, -, rfl, -⟩ | ⟨rest, top, rfl, -⟩
    · rw [runOnceEnd_eq]
      exact inv.restack _ false (by simp [top, List.count_cons]) (fun _ => rfl)
    · exact inv.restack rest s.runOnce (by simp [top, List.count_cons])
        (fun idle => inv.run_once (by simpa [top, runOnceActive] using idle))

/-- From a state satisfying the invariant, a step can only fail by running a null watch closure
or by `NextTaskId` finding no free id. -/
theorem Invariant.step_fault (inv : Invariant s) {e : Event} {f : Fault} (h : s.step e = .fault f) :
    f = .nullClosure ∨ f = .taskIdsExhausted := by
  cases e with
  | postDelayedTask task accepted =>
    simp only [State.step] at h
    split at h
    · split at h
      · cases h
      · cases h
        exact .inr (postDelayedTask_error ‹_›).1
    · cases h
  | watchFileDescriptor fd mode persistent task scheduled =>
    simp only [State.step] at h
    split at h
    · split at h
      · cases h
      · cases h
        exact .inr (watchFileDescriptor_error ‹_›).1
    · cases h
  | runPostedTask t =>
    simp only [State.step] at h
    split at h
    · split at h
      · rename_i pending
        split at h
        · cases h
        · rename_i failed
          cases h
          unfold onRanPostedTask at failed
          split at failed
          · rename_i absent
            have := (inv.idle absent).1
            omega
          · split at failed <;> cases failed
      · cases h
    · cases h
  | fileReady t =>
    simp only [State.step] at h
    split at h
    · rename_i watch _ registered
      unfold State.fileReady at h
      split at h
      · rename_i absent
        simpa [registered, absent] using inv.watched t
      · split at h
        · cases h
        · rename_i failed
          cases h
          unfold onFileReady at failed
          split at failed
          · cases failed
            exact .inl rfl
          · cases failed
    · cases h
  | _ => simp only [State.step] at h; repeat (first | cases h | split at h)

end Preservation

theorem Reachable.invariant {s : State} (reachable : Reachable s) : Invariant s := by
  induction reachable with
  | initial => exact initial_invariant
  | step _ h ih => exact ih.step h

theorem Invariant.delayed_none_of_quiet {s : State} (inv : Invariant s) {t : TaskId}
    (idle : s.postedTasks t = 0) (notRunning : .ranPostedTask t ∉ s.stack) :
    s.delayedTasks t = none := by
  have notified := inv.notified t
  rw [idle, List.count_eq_zero.mpr notRunning] at notified
  cases found : s.delayedTasks t <;> simp_all

theorem Invariant.live_posted {s : State} (inv : Invariant s) {t : TaskId} {c : Nat}
    (live : s.delayedTasks t = some ⟨some c⟩) : s.postedTasks t = 1 := by
  have idle : s.stack.count (.ranPostedTask t) = 0 :=
    List.count_eq_zero.mpr fun running => by simp [inv.running_cleared t running] at live
  simpa [live, idle] using inv.notified t

/-- The scheduler's invariant: in every reachable state the two stores have disjoint keys and
neither holds the null id; each delayed task has exactly one `OnRanPostedTask` call posted or
running and every posted call names a delayed task; each watch record has its watch. Hence the
`DCHECK`s of `OnRanPostedTask` and `WatchFileDescriptor` never fail and readiness is never
reported for a destroyed record. -/
theorem reachable_invariant {s : State} (reachable : Reachable s) :
    Invariant s ∧ (∀ t, 0 < s.postedTasks t → (s.delayedTasks t).isSome ∧ s.postedTasks t = 1) ∧
      (∀ t, (s.ioTasks t).isSome → (s.watches t).isSome) ∧
      ∀ e f, s.step e = .fault f → f ≠ .missingDelayedTask ∧ f ≠ .duplicateIOTask ∧
        f ≠ .missingIOTask := by
  have inv := reachable.invariant
  refine ⟨inv, fun t pending => ?_, fun t record => ?_, fun e f failed => ?_⟩
  · have := inv.notified t
    split at this
    · exact ⟨‹_›, by omega⟩
    · omega
  · have same := congrArg Option.isSome (inv.watched t)
    simp only [Option.isSome_map'] at same
    rwa [same]
  · rcases inv.step_fault failed with rfl | rfl <;> simp

-- two posts, a persistent watch and a failed subscription, then under `Run` the first posted
-- task runs, cancels the second and returns, and the watch reports readiness
def busyRun : List Event :=
  [.postDelayedTask (some 1) true, .postDelayedTask (some 2) true,
    .watchFileDescriptor 0 .kWatchRead true (some 3) true,
    .watchFileDescriptor 5 .kWatchWrite false (some 4) false, .run, .runPostedTask 1,
    .cancelTask 2, .closureReturns, .fileReady 3]

theorem reachable_invariant_busyRun :
    ∃ s, initial.exec busyRun =
      some (s, [.taskId 1, .taskId 2, .taskId 3, .taskId kTaskIdNull, .done, .started 1 .delayed,
        .cancelled 2 true, .erased 1, .started 3 .io]) ∧
    s.stack = [.fileReady, .drive .run false] ∧ s.delayedTasks 1 = none ∧
    s.delayedTasks 2 = some ⟨none⟩ ∧ s.postedTasks 2 = 1 ∧ s.ioTasks 3 = some ⟨3, true, some 3⟩ ∧
    s.ioTasks 4 = none ∧ Reachable s ∧
    Invariant s ∧ (∀ t, 0 < s.postedTasks t → (s.delayedTasks t).isSome ∧ s.postedTasks t = 1) ∧
      (∀ t, (s.ioTasks t).isSome → (s.watches t).isSome) ∧
      ∀ e f, s.step e = .fault f → f ≠ .missingDelayedTask ∧ f ≠ .duplicateIOTask ∧
        f ≠ .missingIOTask := by
  refine ⟨_, rfl, rfl, rfl, rfl, rfl, rfl, rfl, ?_⟩
  have reachable := @Reachable.exec _ _ busyRun _ .initial rfl
  exact ⟨reachable, reachable_invariant reachable⟩

end State

end Chromeos
