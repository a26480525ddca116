import Libbrillo.MessageLoop.Operations

namespace Chromeos

inductive TaskRecord
  | delayed (task : DelayedTask)
  | watch (task : IOTask)
  deriving DecidableEq, Repr

def Out.about (t : TaskId) : Out → Bool
  | .taskId u | .cancelled u _ | .started u _ | .erased u => u == t
  | .ranOnce _ | .done => false

theorem Out.ne_of_about {out : Out} {t : TaskId} (quiet : out.about t = false) :
    out ≠ .erased t ∧ (∀ ok, out ≠ .cancelled t ok) ∧ ∀ source, out ≠ .started t source := by
  refine ⟨?_, fun _ => ?_, fun _ => ?_⟩ <;> rintro rfl <;> simp [Out.about] at quiet

/-- The life of the record under one id `t`, as the scheduler's reports show it: how a step
reporting `out` may change what is held under `t`. An id is handed out only while nothing is
held under it. A delayed task's closure is used up once, by running or by a cancel that returns
true, and the emptied record goes only when its timer notification is consumed. A watch goes
with a cancel that returns true, or as the first step of its firing when it is not persistent.
A report about another id changes nothing under `t`. -/
inductive TaskStep (t : TaskId) : Out → Option TaskRecord → Option TaskRecord → Prop
  | quiet {out : Out} {r : Option TaskRecord} : out.about t = false → TaskStep t out r r
  | reject : t = kTaskIdNull → TaskStep t (.taskId t) none none
  | issue {r : TaskRecord} : t ≠ kTaskIdNull → TaskStep t (.taskId t) none (some r)
  | cancelDelayed {c : Nat} :
      TaskStep t (.cancelled t true) (some (.delayed ⟨some c⟩)) (some (.delayed ⟨none⟩))
  | cancelUsed : TaskStep t (.cancelled t false) (some (.delayed ⟨none⟩)) (some (.delayed ⟨none⟩))
  | cancelWatch {w : IOTask} : TaskStep t (.cancelled t true) (some (.watch w)) none
  | cancelMissing : TaskStep t (.cancelled t false) none none
  | startDelayed {c : Nat} :
      TaskStep t (.started t .delayed) (some (.delayed ⟨some c⟩)) (some (.delayed ⟨none⟩))
  | erase : TaskStep t (.erased t) (some (.delayed ⟨none⟩)) none
  | startOneShot {w : IOTask} : w.persistent = false →
      TaskStep t (.started t .io) (some (.watch w)) none
  | startPersistent {w : IOTask} : w.persistent = true →
      TaskStep t (.started t .io) (some (.watch w)) (some (.watch w))

inductive TaskRun (t : TaskId) : Option TaskRecord → List Out → Option TaskRecord → Prop
  | nil {r : Option TaskRecord} : TaskRun t r [] r
  | cons {r r₁ r₂ : Option TaskRecord} {out : Out} {outs : List Out} :
      TaskStep t out r r₁ → TaskRun t r₁ outs r₂ → TaskRun t r (out :: outs) r₂

-- How often a run used up the delayed task `t`: its closure starting, and `CancelTask(t)`
-- returning true.
def delayedUses (t : TaskId) (outs : List Out) : Nat :=
  outs.count (.started t .delayed) + outs.count (.cancelled t true)

/-- The reports that end a watch registration: `CancelTask(t)` returning true, and the closure
of a one-shot watch starting. -/
def Retires (persistent : Bool) (t : TaskId) (o : Out) : Prop :=
  o = .cancelled t true ∨ (persistent = false ∧ o = .started t .io)

section Runs

variable {t : TaskId} {outs : List Out} {r : Option TaskRecord}

theorem delayedUses_cons_use {o : Out} (use : o = .started t .delayed ∨ o = .cancelled t true)
    (outs : List Out) : delayedUses t (o :: outs) = delayedUses t outs + 1 := by
  rcases use with rfl | rfl <;> simp [delayedUses, List.count_cons] <;> omega

theorem delayedUses_cons_other {o : Out} (started : o ≠ .started t .delayed)
    (cancelled : o ≠ .cancelled t true) (outs : List Out) :
    delayedUses t (o :: outs) = delayedUses t outs := by
  simp [delayedUses, List.count_cons, started, cancelled]

theorem eq_append_singleton_of_cons {o x : Out} {rest pre : List Out} (other : o ≠ x)
    (split : o :: rest = pre ++ [x]) : ∃ pre', pre = o :: pre' ∧ rest = pre' ++ [x] := by
  cases pre with
  | nil => cases split; exact absurd rfl other
  | cons y pre' =>
    cases split
    exact ⟨pre', rfl, rfl⟩

theorem TaskRun.cons_inv {out : Out} {r₀ : Option TaskRecord} (run : TaskRun t r₀ (out :: outs) r) :
    ∃ r₁, TaskStep t out r₀ r₁ ∧ TaskRun t r₁ outs r := by
  cases run with
  | cons step rest => exact ⟨_, step, rest⟩

theorem TaskRun.dead (run : TaskRun t none outs r) (fresh : Out.taskId t ∉ outs) :
    r = none ∧ ∀ o ∈ outs, o = .cancelled t false ∨ o.about t = false := by
  induction outs with
  | nil =>
    cases run
    exact ⟨rfl, by simp⟩
  | cons out outs ih =>
    obtain ⟨r₁, step, rest⟩ := run.cons_inv
    have freshRest : Out.taskId t ∉ outs := fun mem => fresh (List.mem_cons_of_mem _ mem)
    cases step with
    | quiet about =>
      obtain ⟨gone, reports⟩ := ih rest freshRest
      exact ⟨gone, List.forall_mem_cons.mpr ⟨.inr about, reports⟩⟩
    | reject | issue => exact absurd (List.mem_cons_self _ _) fresh
    | cancelMissing =>
      obtain ⟨gone, reports⟩ := ih rest freshRest
      exact ⟨gone, List.forall_mem_cons.mpr ⟨.inl rfl, reports⟩⟩

theorem TaskStep.delayed {task : DelayedTask} {out : Out} {r₁ : Option TaskRecord}
    (step : TaskStep t out (some (.delayed task)) r₁) :
    ((out = .started t .delayed ∨ out = .cancelled t true) ∧ task.closure.isSome ∧
        r₁ = some (.delayed ⟨none⟩)) ∨
      (out = .erased t ∧ task.closure = none ∧ r₁ = none) ∨
      (out ≠ .started t .delayed ∧ out ≠ .cancelled t true ∧ out ≠ .erased t ∧
        r₁ = some (.delayed task)) := by
  cases step with
  | quiet about =>
    obtain ⟨erased, cancelled, started⟩ := Out.ne_of_about about
    exact .inr (.inr ⟨started _, cancelled _, erased, rfl⟩)
  | cancelDelayed => exact .inl ⟨.inr rfl, rfl, rfl⟩
  | cancelUsed => exact .inr (.inr ⟨by simp, by simp, by simp, rfl⟩)
  | startDelayed => exact .inl ⟨.inl rfl, rfl, rfl⟩
  | erase => exact .inr (.inl ⟨rfl, rfl, rfl⟩)

/-- The delayed task under `t`, its closure used up `used` times (exactly when it is null, and
at most once): until its record is erased, it stays a delayed task used up at most once in all,
and the report erasing it comes after exactly one use. -/
theorem TaskRun.delayed {task : DelayedTask} {used : Nat}
    (run : TaskRun t (some (.delayed task)) outs r)
    (consistent : task.closure.isSome ∧ used = 0 ∨ task.closure = none ∧ used = 1) :
    (Out.erased t ∉ outs → ∃ task₂, r = some (.delayed task₂) ∧
      (task₂.closure.isSome ∧ used + delayedUses t outs = 0 ∨
        task₂.closure = none ∧ used + delayedUses t outs = 1)) ∧
    (∀ pre, outs = pre ++ [.erased t] → Out.erased t ∉ pre →
      used + delayedUses t pre = 1 ∧ r = none) := by
  induction outs generalizing task used with
  | nil =>
    cases run
    exact ⟨fun _ => ⟨task, rfl, by simpa [delayedUses] using consistent⟩,
      fun pre split => by simp at split⟩
  | cons out outs ih =>
    obtain ⟨r₁, step, rest⟩ := run.cons_inv
    rcases step.delayed with ⟨use, live, rfl⟩ | ⟨rfl, null, rfl⟩ |
      ⟨started, cancelled, erased, rfl⟩
    · obtain rfl : used = 0 := by
        rcases consistent with ⟨-, zero⟩ | ⟨null, -⟩
        · exact zero
        · simp [null] at live
      have next := ih rest (.inr ⟨rfl, rfl⟩)
      have other : out ≠ .erased t := by rcases use with rfl | rfl <;> simp
      refine ⟨fun absent => ?_, fun pre split notIn => ?_⟩
      · obtain ⟨task₂, found₂, phase⟩ := next.1 fun mem => absent (List.mem_cons_of_mem _ mem)
        rw [delayedUses_cons_use use]
        rcases phase with ⟨live₂, uses⟩ | ⟨null₂, uses⟩
        · exact ⟨task₂, found₂, .inl ⟨live₂, by omega⟩⟩
        · exact ⟨task₂, found₂, .inr ⟨null₂, by omega⟩⟩
      · obtain ⟨pre', rfl, rfl⟩ := eq_append_singleton_of_cons other split
        obtain ⟨count, gone⟩ := next.2 pre' rfl fun mem => notIn (List.mem_cons_of_mem _ mem)
        exact ⟨by rw [delayedUses_cons_use use]; omega, gone⟩
    · obtain rfl : used = 1 := by simpa [null] using consistent
      refine ⟨fun absent => absurd (List.mem_cons_self _ _) absent, fun pre split notIn => ?_⟩
      cases pre with
      | nil =>
        cases split
        cases rest
        exact ⟨by simp [delayedUses], rfl⟩
      | cons y pre' =>
        cases split
        exact absurd (List.mem_cons_self _ _) notIn
    · have next := ih rest consistent
      refine ⟨fun absent => ?_, fun pre split notIn => ?_⟩
      · rw [delayedUses_cons_other started cancelled]
        exact next.1 fun mem => absent (List.mem_cons_of_mem _ mem)
      · obtain ⟨pre', rfl, rfl⟩ := eq_append_singleton_of_cons erased split
        rw [delayedUses_cons_other started cancelled]
        exact next.2 pre' rfl fun mem => notIn (List.mem_cons_of_mem _ mem)

theorem delayedUses_of_quiet (quiet : ∀ o ∈ outs, o = .cancelled t false ∨ o.about t = false) :
    delayedUses t outs = 0 := by
  have absent : ∀ o, (o = .started t .delayed ∨ o = .cancelled t true) → o ∉ outs := by
    rintro o (rfl | rfl) mem <;> rcases quiet _ mem with same | about <;>
      first | cases same | simp [Out.about] at about
  simp [delayedUses, List.count_eq_zero.mpr (absent _ (.inl rfl)),
    List.count_eq_zero.mpr (absent _ (.inr rfl))]

/-- Along a run that does not hand `t` out again, the delayed task under `t` stays a delayed
task, or is gone after its closure was used up exactly once in all. -/
theorem TaskRun.delayed_fresh {task : DelayedTask} {used : Nat}
    (run : TaskRun t (some (.delayed task)) outs r)
    (consistent : task.closure.isSome ∧ used = 0 ∨ task.closure = none ∧ used = 1)
    (fresh : Out.taskId t ∉ outs) :
    (∃ task₂, r = some (.delayed task₂)) ∨ (r = none ∧ used + delayedUses t outs = 1) := by
  induction outs generalizing task used with
  | nil =>
    cases run
    exact .inl ⟨task, rfl⟩
  | cons out outs ih =>
    obtain ⟨r₁, step, rest⟩ := run.cons_inv
    have freshRest : Out.taskId t ∉ outs := fun mem => fresh (List.mem_cons_of_mem _ mem)
    rcases step.delayed with ⟨use, live, rfl⟩ | ⟨rfl, null, rfl⟩ |
      ⟨started, cancelled, -, rfl⟩
    · obtain rfl : used = 0 := by
        rcases consistent with ⟨-, zero⟩ | ⟨null, -⟩
        · exact zero
        · simp [null] at live
      rw [delayedUses_cons_use use]
      rcases ih rest (.inr ⟨rfl, rfl⟩) freshRest with held | ⟨gone, uses⟩
      · exact .inl held
      · exact .inr ⟨gone, by omega⟩
    · obtain rfl : used = 1 := by simpa [null] using consistent
      obtain ⟨gone, quiet⟩ := rest.dead freshRest
      rw [delayedUses_cons_other (by simp) (by simp), delayedUses_of_quiet quiet]
      exact .inr ⟨gone, rfl⟩
    · rw [delayedUses_cons_other started cancelled]
      exact ih rest consistent freshRest

theorem TaskStep.watch {w : IOTask} {out : Out} {r₁ : Option TaskRecord}
    (step : TaskStep t out (some (.watch w)) r₁) :
    (Retires w.persistent t out ∧ r₁ = none) ∨
      (¬ Retires w.persistent t out ∧ r₁ = some (.watch w)) := by
  cases step with
  | quiet about =>
    obtain ⟨-, cancelled, started⟩ := Out.ne_of_about about
    refine .inr ⟨?_, rfl⟩
    rintro (same | ⟨-, same⟩)
    exacts [cancelled _ same, started _ same]
  | cancelWatch => exact .inl ⟨.inl rfl, rfl⟩
  | startOneShot oneShot => exact .inl ⟨.inr ⟨oneShot, rfl⟩, rfl⟩
  | startPersistent persistent => exact .inr ⟨by simp [Retires, persistent], rfl⟩

/-- A watch record under `t`, along a run that does not hand `t` out again: nothing retires it
and it is still held, or the run retires it once, after which nothing is held under `t` and the
watch's closure neither starts nor is cancelled again. -/
theorem TaskRun.watch {w : IOTask} (run : TaskRun t (some (.watch w)) outs r)
    (fresh : Out.taskId t ∉ outs) :
    ((∀ o ∈ outs, ¬ Retires w.persistent t o) ∧ r = some (.watch w)) ∨
      ∃ pre o post, outs = pre ++ o :: post ∧ (∀ o' ∈ pre, ¬ Retires w.persistent t o') ∧
        Retires w.persistent t o ∧ Out.started t .io ∉ post ∧ Out.cancelled t true ∉ post ∧
        r = none := by
  induction outs with
  | nil =>
    cases run
    exact .inl ⟨by simp, rfl⟩
  | cons out outs ih =>
    obtain ⟨r₁, step, rest⟩ := run.cons_inv
    have freshRest : Out.taskId t ∉ outs := fun mem => fresh (List.mem_cons_of_mem _ mem)
    rcases step.watch with ⟨retires, rfl⟩ | ⟨keeps, rfl⟩
    · obtain ⟨gone, reports⟩ := rest.dead freshRest
      refine .inr ⟨[], out, outs, rfl, by simp, retires, fun mem => ?_, fun mem => ?_, gone⟩ <;>
        rcases reports _ mem with same | quiet
      all_goals first | cases same | simp [Out.about] at quiet
    · rcases ih rest freshRest with ⟨none, held⟩ |
        ⟨pre, o, post, split, before, retires, notStarted, notCancelled, gone⟩
      · exact .inl ⟨List.forall_mem_cons.mpr ⟨keeps, none⟩, held⟩
      · exact .inr ⟨out :: pre, o, post, by rw [split]; rfl,
          List.forall_mem_cons.mpr ⟨keeps, before⟩, retires, notStarted, notCancelled, gone⟩

end Runs

end Chromeos
