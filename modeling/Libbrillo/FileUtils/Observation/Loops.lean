import Libbrillo.FileUtils.AtomicWrite

/-!
What another process can see of the file system while a file utility runs: each function below
lists the file system after every system call of the utility that can change it, in order, and
takes its decisions from the functions of the other modules. A theorem beside each says that
the last state listed is the one the utility ends with.
-/

namespace Brillo

theorem getLastD_append {α : Type} (l l' : List α) (d : α) :
    (l ++ l').getLastD d = l'.getLastD (l.getLastD d) := by
  induction l generalizing d with
  | nil => rfl
  | cons a l ih =>
    simp only [List.cons_append, List.getLastD_cons]
    exact ih a

theorem getLastD_of_forall {α : Type} {P : α → Prop} {l : List α} {d : α} (start : P d)
    (all : ∀ x ∈ l, P x) : P (l.getLastD d) := by
  induction l generalizing d with
  | nil => exact start
  | cons a l ih =>
    rw [List.getLastD_cons]
    exact ih (all a (List.mem_cons_self _ _)) fun x mem => all x (.tail _ mem)

section CreateDirectory

variable {p : Process} {mkdirFails : Path → Bool}

-- the loop of `base::CreateDirectory`: the file system after each `mkdir` that makes a
-- directory
def createDirectoryLoopStates (p : Process) (mkdirFails : Path → Bool) : List Path → Fs → List Fs
  | [], _ => []
  | dir :: dirs, fs =>
    if directoryExists fs dir then createDirectoryLoopStates p mkdirFails dirs fs
    else match mkdir p (mkdirFails dir) fs dir with
      | some fs => fs :: createDirectoryLoopStates p mkdirFails dirs fs
      | none => []

def createDirectoryStates (p : Process) (mkdirFails : Path → Bool) (fs : Fs) (dir : Path) :
    List Fs :=
  createDirectoryLoopStates p mkdirFails (ancestors dir) fs

def ensureDirectoryStates (p : Process) (mkdirFails : Path → Bool) (fs : Fs) (dir : Path) :
    List Fs :=
  if directoryExists fs dir then [] else createDirectoryStates p mkdirFails fs dir

theorem createDirectoryLoop_last (dirs : List Path) (fs : Fs) :
    (createDirectoryLoopStates p mkdirFails dirs fs).getLastD fs =
      (createDirectoryLoop p mkdirFails dirs fs).2 := by
  induction dirs generalizing fs with
  | nil => rfl
  | cons dir dirs ih =>
    simp only [createDirectoryLoopStates, createDirectoryLoop]
    split
    · exact ih fs
    · cases mkdir p (mkdirFails dir) fs dir with
      | none => rfl
      | some fs₁ =>
        simp only [List.getLastD_cons]
        exact ih fs₁

theorem ensureDirectory_last (fs : Fs) (dir : Path) :
    (ensureDirectoryStates p mkdirFails fs dir).getLastD fs =
      (ensureDirectory p mkdirFails fs dir).2 := by
  unfold ensureDirectoryStates ensureDirectory
  split
  · rfl
  · exact createDirectoryLoop_last _ fs

theorem createDirectoryLoopStates_outside {dirs : List Path} {fs s : Fs}
    (listed : s ∈ createDirectoryLoopStates p mkdirFails dirs fs) {q : Path} (outside : q ∉ dirs) :
    s q = fs q := by
  induction dirs generalizing fs with
  | nil => cases listed
  | cons dir dirs ih =>
    have rest : q ∉ dirs := fun mem => outside (.tail _ mem)
    simp only [createDirectoryLoopStates] at listed
    split at listed
    · exact ih listed rest
    · split at listed
      · rename_i fs₁ made
        obtain ⟨-, setgid, gid, rfl⟩ := mkdir_ok made
        have kept : Function.update fs dir (some (.directory setgid gid)) q = fs q :=
          Function.update_noteq (fun same => outside (by rw [same]; exact List.mem_cons_self _ _)) _ _
        rcases List.mem_cons.mp listed with rfl | later
        · exact kept
        · exact (ih later rest).trans kept
      · cases listed

theorem ensureDirectoryStates_entry {fs s : Fs} {path : FilePath}
    (listed : s ∈ ensureDirectoryStates p mkdirFails fs path.dir) : s path.value = fs path.value := by
  unfold ensureDirectoryStates at listed
  split at listed
  · cases listed
  · exact createDirectoryLoopStates_outside listed (value_not_mem_ancestors path)

end CreateDirectory

section WriteLoop

variable {write : Nat → Nat → Option Nat} {data : List UInt8} {size : Nat} {temp : Path}

-- the `write` loop: the file system after each `write` that wrote
def writeLoopStates (write : Nat → Nat → Option Nat) (data : List UInt8) (size : Nat)
    (temp : Path) : Nat → Nat → Nat → Fs → List Fs
  | 0, _, _, _ => []
  | fuel + 1, k, position, fs =>
    if position < size then
      match write k (size - position) with
      | none => []
      | some written =>
        let fs := appendFile fs temp ((data.drop position).take written)
        fs :: writeLoopStates write data size temp fuel (k + 1) (position + written) fs
    else []

theorem writeLoop_last {fuel k position : Nat} {fs fs' : Fs}
    (ends : writeLoop write data size temp fuel k position fs = .written fs' ∨
      writeLoop write data size temp fuel k position fs = .writeFailed fs') :
    (writeLoopStates write data size temp fuel k position fs).getLastD fs = fs' := by
  induction fuel generalizing k position fs with
  | zero => simp [writeLoop] at ends
  | succ fuel ih =>
    by_cases more : position < size
    · cases written : write k (size - position) with
      | none => simpa [writeLoop, writeLoopStates, more, written] using ends
      | some count =>
        simp only [writeLoop, writeLoopStates, more, written, if_true, List.getLastD_cons] at ends ⊢
        exact ih ends
    · simpa [writeLoop, writeLoopStates, more] using ends

theorem writeLoopStates_outside {fuel k position : Nat} {fs s : Fs}
    (listed : s ∈ writeLoopStates write data size temp fuel k position fs) {q : Path}
    (other : q ≠ temp) : s q = fs q := by
  induction fuel generalizing k position fs with
  | zero => cases listed
  | succ fuel ih =>
    simp only [writeLoopStates] at listed
    split at listed
    · split at listed
      · cases listed
      · rcases List.mem_cons.mp listed with rfl | later
        · exact appendFile_other _ other
        · exact (ih later).trans (appendFile_other _ other)
    · cases listed

/-- When every `write` writes between one byte and all it was asked for, the file at `temp`
holds, state after state, ever longer prefixes of `data[0, size)`, the whole of it when the
loop ends by writing everything. -/
theorem writeLoopStates_prefixes (valid : ∀ k r n, 0 < r → write k r = some n → 0 < n ∧ n ≤ r)
    {fuel k position : Nat} {fs : Fs} {perms : Mode} {uid gid : Nat} (le : position ≤ size)
    (file : fs temp = some (.regular (data.take position) perms uid gid)) :
    ∃ ns : List Nat,
      (writeLoopStates write data size temp fuel k position fs).map (fun s => s temp) =
        ns.map (fun n => some (.regular (data.take n) perms uid gid)) ∧
      ns.Pairwise (· < ·) ∧ (∀ n ∈ ns, position < n ∧ n ≤ size) ∧
      ∀ fs', writeLoop write data size temp fuel k position fs = .written fs' →
        ns.getLastD position = size := by
  induction fuel generalizing k position fs with
  | zero => exact ⟨[], rfl, .nil, by simp, fun fs' stuck => by simp [writeLoop] at stuck⟩
  | succ fuel ih =>
    by_cases more : position < size
    · cases written : write k (size - position) with
      | none =>
        refine ⟨[], by simp [writeLoopStates, more, written], .nil, by simp, fun fs' ended => ?_⟩
        simp [writeLoop, more, written] at ended
      | some count =>
        obtain ⟨positive, bound⟩ := valid _ _ _ (by omega) written
        have file' : appendFile fs temp ((data.drop position).take count) temp =
            some (.regular (data.take (position + count)) perms uid gid) := by
          simp [appendFile_regular file, List.take_add]
        obtain ⟨ns, states, increasing, bounds, last⟩ := @ih (k + 1) (position + count) _ (by omega) file'
        refine ⟨(position + count) :: ns, ?_, ?_, ?_, fun fs' ended => ?_⟩
        · simp only [writeLoopStates, more, written, if_true, List.map_cons, states, file']
        · exact List.pairwise_cons.mpr ⟨fun n mem => (bounds n mem).1, increasing⟩
        · simp only [List.mem_cons, forall_eq_or_imp]
          exact ⟨⟨by omega, by omega⟩, fun n mem => ⟨by have := (bounds n mem).1; omega,
            (bounds n mem).2⟩⟩
        · simp only [writeLoop, more, written, if_true] at ended
          rw [List.getLastD_cons]
          exact last fs' ended
    · refine ⟨[], by simp [writeLoopStates, more], .nil, by simp, fun fs' _ => ?_⟩
      show position = size
      omega

theorem writeLoop_written_file (valid : ∀ k r n, 0 < r → write k r = some n → 0 < n ∧ n ≤ r)
    {fuel k position : Nat} {fs fs' : Fs} {perms : Mode} {uid gid : Nat} (le : position ≤ size)
    (file : fs temp = some (.regular (data.take position) perms uid gid))
    (ended : writeLoop write data size temp fuel k position fs = .written fs') :
    fs' temp = some (.regular (data.take size) perms uid gid) := by
  obtain ⟨ns, states, -, -, last⟩ :=
    @writeLoopStates_prefixes write data size temp valid fuel k position fs perms uid gid le file
  let prefixFile := fun n => some (Entry.regular (data.take n) perms uid gid)
  calc fs' temp
      = ((writeLoopStates write data size temp fuel k position fs).getLastD fs) temp := by
        rw [writeLoop_last (.inl ended)]
    _ = ((writeLoopStates write data size temp fuel k position fs).map fun s => s temp).getLastD
          (fs temp) := (List.getLastD_map (fun s : Fs => s temp) _ _).symm
    _ = (ns.map prefixFile).getLastD (prefixFile position) := by rw [states, file]
    _ = prefixFile size := by rw [List.getLastD_map, last fs' ended]

end WriteLoop

end Brillo
