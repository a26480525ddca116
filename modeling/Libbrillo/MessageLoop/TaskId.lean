import Mathlib.Data.BitVec
import Mathlib.Data.Nat.Find

namespace Chromeos

-- `MessageLoop::TaskId` is a `uint64_t`.
abbrev TaskId := BitVec 64

def kTaskIdNull : TaskId := 0

section Search

variable {w : Nat} (taken : BitVec w → Bool)

/-- An id `NextTaskId` may hand out: not the null id and not taken by either store. -/
def Free (x : BitVec w) : Prop := x ≠ 0 ∧ taken x = false

instance : DecidablePred (Free taken) := fun _ => inferInstanceAs (Decidable (_ ∧ _))

/-- The `do { res = ++last_id_; } while (...)` loop of `NextTaskId` for ids of width `w`, run
for at most `fuel` turns; `taken` stands for the two `find` calls. -/
def nextTaskIdLoop : Nat → BitVec w → Option (BitVec w)
  | 0, _ => none
  | fuel + 1, last =>
    let res := last + 1
    if res = 0 ∨ taken res = true then nextTaskIdLoop fuel res else some res

variable {taken}

theorem candidate_succ (last : BitVec w) (k : Nat) :
    last + 1 + BitVec.ofNat w k = last + BitVec.ofNat w (k + 1) := by
  rw [BitVec.ofNat_add, BitVec.add_assoc, BitVec.add_comm (BitVec.ofNat w k)]
  rfl

theorem nextTaskIdLoop_turn (fuel : Nat) (last : BitVec w) :
    nextTaskIdLoop taken (fuel + 1) last =
      if Free taken (last + 1) then some (last + 1) else nextTaskIdLoop taken fuel (last + 1) := by
  show (if last + 1 = 0 ∨ taken (last + 1) = true then _ else _) = _
  by_cases free : Free taken (last + 1)
  · rw [if_pos free, if_neg (by simpa [Free, not_or] using free)]
  · rw [if_neg free, if_pos]
    simpa only [Free, not_and_or, not_not, Bool.not_eq_false] using free

theorem nextTaskIdLoop_free {fuel : Nat} {last r : BitVec w}
    (found : nextTaskIdLoop taken fuel last = some r) : Free taken r := by
  induction fuel generalizing last with
  | zero => simp [nextTaskIdLoop] at found
  | succ fuel ih =>
    rw [nextTaskIdLoop_turn] at found
    split at found
    · cases found; assumption
    · exact ih found

/-- The loop returns the `k`-th successor of `last` when that is the first free one and the
fuel reaches it. -/
theorem nextTaskIdLoop_of_first {fuel k : Nat} {last : BitVec w} (positive : 0 < k)
    (reached : k ≤ fuel) (free : Free taken (last + BitVec.ofNat w k))
    (before : ∀ j, 0 < j → j < k → ¬ Free taken (last + BitVec.ofNat w j)) :
    nextTaskIdLoop taken fuel last = some (last + BitVec.ofNat w k) := by
  induction fuel generalizing last k with
  | zero => omega
  | succ fuel ih =>
    rw [nextTaskIdLoop_turn]
    by_cases one : k = 1
    · subst one
      rw [if_pos (show Free taken (last + 1) from free)]
      rfl
    · have skip : ¬ Free taken (last + 1) := by simpa using before 1 (by omega) (by omega)
      rw [if_neg skip]
      obtain ⟨m, rfl⟩ : ∃ m, k = m + 1 := ⟨k - 1, by omega⟩
      rw [← candidate_succ]
      refine ih (by omega) (by omega) (by rwa [candidate_succ]) fun j pos lt => ?_
      rw [candidate_succ]
      exact before (j + 1) (by omega) (by omega)

theorem nextTaskIdLoop_of_none_free {fuel : Nat} {last : BitVec w}
    (none_free : ∀ j, 0 < j → j ≤ fuel → ¬ Free taken (last + BitVec.ofNat w j)) :
    nextTaskIdLoop taken fuel last = none := by
  induction fuel generalizing last with
  | zero => rfl
  | succ fuel ih =>
    rw [nextTaskIdLoop_turn, if_neg (by simpa using none_free 1 (by omega) (by omega))]
    refine ih fun j pos le => ?_
    rw [candidate_succ]
    exact none_free (j + 1) (by omega) (by omega)

theorem exists_candidate (last x : BitVec w) :
    ∃ k, 0 < k ∧ k ≤ 2 ^ w ∧ x = last + BitVec.ofNat w k := by
  by_cases same : x = last
  · have wrap : BitVec.ofNat w (2 ^ w) = 0 := BitVec.eq_of_toNat_eq (by simp)
    exact ⟨2 ^ w, Nat.two_pow_pos w, le_rfl, by rw [wrap, same, add_zero]⟩
  · refine ⟨(x - last).toNat, ?_, Nat.le_of_lt (x - last).isLt, ?_⟩
    · have : x - last ≠ 0 := fun zero => same (sub_eq_zero.mp zero)
      exact Nat.pos_of_ne_zero fun h => this (BitVec.eq_of_toNat_eq (by simpa using h))
    · rw [BitVec.ofNat_toNat, BitVec.setWidth_eq, add_comm, sub_add_cancel]

/-- With some id free, the loop stops at the first free successor of `last`, after exactly as
many turns as that successor is away, and at most one full turn of the counter. -/
theorem nextTaskIdLoop_first_free (last : BitVec w) (exists_free : ∃ x, Free taken x) :
    ∃ k, 0 < k ∧ k ≤ 2 ^ w ∧
      (∀ fuel, nextTaskIdLoop taken fuel last =
        if k ≤ fuel then some (last + BitVec.ofNat w k) else none) ∧
      Free taken (last + BitVec.ofNat w k) ∧
      ∀ j, 0 < j → j < k → ¬ Free taken (last + BitVec.ofNat w j) := by
  classical
  have reachable : ∃ k, 0 < k ∧ k ≤ 2 ^ w ∧ Free taken (last + BitVec.ofNat w k) := by
    obtain ⟨x, free⟩ := exists_free
    obtain ⟨k, positive, bound, rfl⟩ := exists_candidate last x
    exact ⟨k, positive, bound, free⟩
  let k := Nat.find reachable
  obtain ⟨positive, bound, free⟩ : 0 < k ∧ k ≤ 2 ^ w ∧ _ := Nat.find_spec reachable
  have before : ∀ j, 0 < j → j < k → ¬ Free taken (last + BitVec.ofNat w j) :=
    fun j pos lt free => Nat.find_min reachable lt ⟨pos, by omega, free⟩
  refine ⟨k, positive, bound, fun fuel => ?_, free, before⟩
  split
  · exact nextTaskIdLoop_of_first positive ‹_› free before
  · exact nextTaskIdLoop_of_none_free fun j pos le => before j pos (by omega)

end Search

end Chromeos
