import Libbrillo.MessageLoop.Operations

namespace Chromeos

namespace State

variable {s s' : State} {task : Closure} {accepted scheduled persistent : Bool} {fd : Int}
  {mode : WatchMode} {r : TaskId}

theorem emplace_of_none {α : Type} {m : TaskId → Option α} {key : TaskId} (value : α)
    (absent : m key = none) : emplace m key value = Function.update m key (some value) := by
  simp [emplace, absent]

theorem postDelayedTask_ok (posted : s.postDelayedTask task accepted = .ok (s', r)) :
    ∃ t, s.nextTaskId = some ({ s with lastId := t }, t) ∧ t ≠ kTaskIdNull ∧
      s.delayedTasks t = none ∧ s.ioTasks t = none ∧
      if accepted then r = t ∧ s' = { s with
          lastId := t
          postedTasks := Function.update s.postedTasks t (s.postedTasks t + 1)
          delayedTasks := Function.update s.delayedTasks t (some ⟨task⟩) }
      else r = kTaskIdNull ∧ s' = { s with lastId := t } := by
  unfold postDelayedTask at posted
  split at posted
  · cases posted
  · rename_i s₁ t next
    obtain ⟨rfl, nonNull, noDelayed, noIOTask⟩ := nextTaskId_spec next
    refine ⟨t, next, nonNull, noDelayed, noIOTask, ?_⟩
    cases accepted <;> simp only [ite_true, ite_false, Bool.false_eq_true] at posted ⊢ <;>
      cases posted
    · exact ⟨rfl, rfl⟩
    · exact ⟨rfl, by rw [emplace_of_none _ noDelayed]⟩

theorem watchFileDescriptor_ok
    (watched : s.watchFileDescriptor fd mode persistent task scheduled = .ok (s', r)) :
    (r = kTaskIdNull ∧ ∃ t, s' = { s with lastId := t } ∧
        (¬ fd < 0 → (baseMode mode).isSome → scheduled = false ∧ s.nextTaskId = some (s', t))) ∨
      ∃ base, baseMode mode = some base ∧ ¬ fd < 0 ∧ scheduled = true ∧
        s.nextTaskId = some ({ s with lastId := r }, r) ∧ r ≠ kTaskIdNull ∧
        s.delayedTasks r = none ∧ s.ioTasks r = none ∧
        s' = { s with
          lastId := r
          ioTasks := Function.update s.ioTasks r (some ⟨r, persistent, task⟩)
          watches := Function.update s.watches r (some ⟨fd, base, persistent⟩) } := by
  unfold watchFileDescriptor at watched
  split at watched
  · cases watched
    exact .inl ⟨rfl, s.lastId, rfl, fun nonNegative => absurd ‹fd < 0› nonNegative⟩
  rename_i nonNegative
  split at watched
  · cases watched
    exact .inl ⟨rfl, s.lastId, rfl, fun _ some => by simp_all⟩
  rename_i base modeIs
  split at watched
  · cases watched
  rename_i s₁ t next
  obtain ⟨rfl, nonNull, noDelayed, noIOTask⟩ := nextTaskId_spec next
  simp only [noIOTask, Option.isSome_none, Bool.false_eq_true, ite_false] at watched
  cases scheduled <;> simp only [ite_true, ite_false, Bool.false_eq_true] at watched <;>
    cases watched
  · have restored : Function.update (Function.update s.ioTasks t (some ⟨t, persistent, task⟩)) t none =
        s.ioTasks := by
      rw [Function.update_idem, ← noIOTask, Function.update_eq_self]
    refine .inl ⟨rfl, t, ?_, fun _ _ => ⟨rfl, ?_⟩⟩ <;> rw [restored]
    exact next
  · exact .inr ⟨base, modeIs, nonNegative, rfl, next, nonNull, noDelayed, noIOTask, rfl⟩

theorem postDelayedTask_error {f : Fault} (failed : s.postDelayedTask task accepted = .error f) :
    f = .taskIdsExhausted ∧ s.nextTaskId = none := by
  unfold postDelayedTask at failed
  split at failed
  · cases failed
    exact ⟨rfl, ‹_›⟩
  · split at failed <;> cases failed

theorem watchFileDescriptor_error {f : Fault}
    (failed : s.watchFileDescriptor fd mode persistent task scheduled = .error f) :
    f = .taskIdsExhausted ∧ s.nextTaskId = none := by
  unfold watchFileDescriptor at failed
  split at failed
  · cases failed
  split at failed
  · cases failed
  split at failed
  · cases failed
    exact ⟨rfl, ‹_›⟩
  rename_i next
  obtain ⟨rfl, -, -, noIOTask⟩ := nextTaskId_spec next
  simp only [noIOTask, Option.isSome_none, Bool.false_eq_true, ite_false] at failed
  split at failed <;> cases failed

/-- A `PostDelayedTask` the base loop rejects, and a `WatchFileDescriptor` rejected for a
negative descriptor, an unknown mode or a failed registration, return the null id and change
nothing but `last_id_`; the one exception is a state where every non-null id is taken, where
`NextTaskId` never returns. -/
theorem rejected_registration_changes_only_last_id (s : State) (task : Closure) (fd : Int)
    (mode : WatchMode) (persistent scheduled : Bool)
    (rejected : fd < 0 ∨ baseMode mode = none ∨ scheduled = false) :
    ((∃ lastId, s.postDelayedTask task false = .ok ({ s with lastId }, kTaskIdNull)) ∨
      ((∀ t, t ≠ kTaskIdNull → s.taken t = true) ∧
        s.postDelayedTask task false = .error .taskIdsExhausted)) ∧
    ((∃ lastId, s.watchFileDescriptor fd mode persistent task scheduled =
        .ok ({ s with lastId }, kTaskIdNull)) ∨
      ((∀ t, t ≠ kTaskIdNull → s.taken t = true) ∧
        s.watchFileDescriptor fd mode persistent task scheduled = .error .taskIdsExhausted)) := by
  constructor
  · cases posted : s.postDelayedTask task false with
    | error f =>
      obtain ⟨rfl, exhausted⟩ := postDelayedTask_error posted
      exact .inr ⟨nextTaskId_none exhausted, rfl⟩
    | ok result =>
      obtain ⟨s', r⟩ := result
      obtain ⟨t, -, -, -, -, rfl, rfl⟩ := postDelayedTask_ok posted
      exact .inl ⟨t, rfl⟩
  · cases watched : s.watchFileDescriptor fd mode persistent task scheduled with
    | error f =>
      obtain ⟨rfl, exhausted⟩ := watchFileDescriptor_error watched
      exact .inr ⟨nextTaskId_none exhausted, rfl⟩
    | ok result =>
      obtain ⟨s', r⟩ := result
      rcases watchFileDescriptor_ok watched with ⟨rfl, t, rfl, -⟩ | ⟨base, modeIs, nonNegative, rfl, -⟩
      · exact .inl ⟨t, rfl⟩
      · simp [modeIs, nonNegative] at rejected

-- one delayed task held under id `1`, its `OnRanPostedTask(1)` posted
def initialPosted : State :=
  { initial with
    lastId := 1
    delayedTasks := Function.update initial.delayedTasks 1 (some ⟨some 1⟩)
    postedTasks := Function.update initial.postedTasks 1 1 }

theorem rejected_registration_initialPosted :
    (3 < 0 ∨ baseMode .kWatchRead = none ∨ false = false) ∧
    ((∃ lastId, initialPosted.postDelayedTask (some 2) false =
        .ok ({ initialPosted with lastId }, kTaskIdNull)) ∨
      ((∀ t, t ≠ kTaskIdNull → initialPosted.taken t = true) ∧
        initialPosted.postDelayedTask (some 2) false = .error .taskIdsExhausted)) ∧
    ((∃ lastId, initialPosted.watchFileDescriptor 3 .kWatchRead false (some 2) false =
        .ok ({ initialPosted with lastId }, kTaskIdNull)) ∨
      ((∀ t, t ≠ kTaskIdNull → initialPosted.taken t = true) ∧
        initialPosted.watchFileDescriptor 3 .kWatchRead false (some 2) false =
          .error .taskIdsExhausted)) :=
  ⟨.inr (.inr rfl),
    rejected_registration_changes_only_last_id initialPosted (some 2) 3 .kWatchRead false false
      (.inr (.inr rfl))⟩

theorem exec_rejected_posts (idle : ∀ t, s.taken t = false) (turn : clientTurn s.stack = true)
    (n : Nat) (room : s.lastId.toNat + n < 2 ^ 64) :
    s.exec (List.replicate n (.postDelayedTask none false)) =
      some ({ s with lastId := s.lastId + BitVec.ofNat 64 n },
        List.replicate n (.taskId kTaskIdNull)) := by
  induction n generalizing s with
  | zero => simp [exec]
  | succ n ih =>
    have free : Free s.taken (s.lastId + 1) := ⟨by bv_omega, idle _⟩
    have stepped : s.step (.postDelayedTask none false) =
        .ok { s with lastId := s.lastId + 1 } (.taskId kTaskIdNull) := by
      simp [step, turn, postDelayedTask, nextTaskId_of_free_succ free]
    have rest := @ih { s with lastId := s.lastId + 1 } idle turn (by bv_omega)
    rw [List.replicate_succ, exec, stepped]
    dsimp only
    rw [rest, Option.map_some', candidate_succ]
    rfl

end State

end Chromeos
