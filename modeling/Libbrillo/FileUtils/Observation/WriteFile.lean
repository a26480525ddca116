import Libbrillo.FileUtils.Observation.Loops
import Libbrillo.FileUtils.WriteFile

namespace Brillo

section WriteFile

variable {p : Process} {o : WriteOutcomes} {fuel : Nat} {fs fs' : Fs} {data : List UInt8}
  {size : Nat}

-- `base::WriteFileDescriptor`: the file system after each `write` that wrote
def writeFileDescriptorStates (write : Nat → Nat → Option Nat) (data : List UInt8) (size : Nat)
    (path : Path) (fuel : Nat) (fs : Fs) : List Fs :=
  writeLoopStates write data size path fuel 0 0 fs

-- `base::WriteFile(path, data, size)`: the file system after `creat`, and after each `write`
def writeFileStates (p : Process) (o : WriteOutcomes) (fuel : Nat) (fs : Fs) (path : Path)
    (data : List UInt8) (size : Nat) : List Fs :=
  if fs path = some .symlink then []
  else match creat p o.openFails fs path with
    | none => []
    | some fs => fs :: writeFileDescriptorStates o.write data size path fuel fs

/-- `WriteToFile(path, data, size)`: the file system after each `mkdir`, and after each system
call `writeFileStates` lists. -/
def writeToFileStates (p : Process) (o : WriteOutcomes) (fuel : Nat) (fs : Fs) (path : FilePath)
    (data : List UInt8) (size : Nat) : List Fs :=
  let made := ensureDirectoryStates p o.mkdirFails fs path.dir
  match ensureDirectory p o.mkdirFails fs path.dir with
  | (false, _) => made
  | (true, fs) =>
    if size > intMax then made else made ++ writeFileStates p o fuel fs path.value data size

-- how a `base::WriteFile` that ends does so: `creat` fails, or the write loop after it ends
-- with `fs'`, the call returning `size` only when every byte was written and `close` succeeded
theorem writeFile_cases {path : Path} {written : Int}
    (done : writeFile p o fuel fs path data size = some (written, fs')) :
    (written = -1 ∧ fs' = fs ∧ writeFileStates p o fuel fs path data size = []) ∨
      ∃ fs₁, creat p o.openFails fs path = some fs₁ ∧
        writeFileStates p o fuel fs path data size =
          fs₁ :: writeLoopStates o.write data size path fuel 0 0 fs₁ ∧
        (writeLoop o.write data size path fuel 0 0 fs₁ = .writeFailed fs' ∧ written = -1 ∨
          writeLoop o.write data size path fuel 0 0 fs₁ = .written fs' ∧
            written = if o.closeFails then -1 else (size : Int)) := by
  unfold writeFile at done
  unfold writeFileStates
  split at done
  · cases done
  rename_i notLink
  rw [if_neg notLink]
  cases opened : creat p o.openFails fs path with
  | none =>
    simp only [opened, Option.some.injEq, Prod.mk.injEq] at done
    obtain ⟨rfl, rfl⟩ := done
    exact .inl ⟨rfl, rfl, rfl⟩
  | some fs₁ =>
    simp only [opened, writeFileDescriptor] at done
    refine .inr ⟨fs₁, rfl, rfl, ?_⟩
    cases ended : writeLoop o.write data size path fuel 0 0 fs₁ with
    | stuck => simp only [ended, reduceCtorEq] at done
    | writeFailed =>
      simp only [ended, Option.some.injEq, Prod.mk.injEq] at done
      obtain ⟨rfl, rfl⟩ := done
      exact .inl ⟨rfl, rfl⟩
    | written =>
      simp only [ended, Option.some.injEq, Prod.mk.injEq] at done
      obtain ⟨rfl, rfl⟩ := done
      exact .inr ⟨rfl, rfl⟩

-- how a `WriteToFile` that ends does so, `ensureDirectory` giving `(ok₁, fs₁)`: before
-- `base::WriteFile`, or through it, returning whether it wrote `size` bytes
theorem writeToFile_cases {path : FilePath} {ok ok₁ : Bool} {fs₁ : Fs}
    (ensured : ensureDirectory p o.mkdirFails fs path.dir = (ok₁, fs₁))
    (done : writeToFile p o fuel fs path data size = some (ok, fs')) :
    (ok = false ∧ fs' = fs₁ ∧
        writeToFileStates p o fuel fs path data size = ensureDirectoryStates p o.mkdirFails fs path.dir) ∨
      ∃ written, writeFile p o fuel fs₁ path.value data size = some (written, fs') ∧
        ok = (written == size) ∧
        writeToFileStates p o fuel fs path data size =
          ensureDirectoryStates p o.mkdirFails fs path.dir ++
            writeFileStates p o fuel fs₁ path.value data size := by
  unfold writeToFile at done
  unfold writeToFileStates
  rw [ensured] at done ⊢
  cases ok₁
  · simp only [Option.some.injEq, Prod.mk.injEq] at done
    obtain ⟨rfl, rfl⟩ := done
    exact .inl ⟨rfl, rfl, rfl⟩
  dsimp only at done ⊢
  split_ifs at done ⊢
  · simp only [Option.some.injEq, Prod.mk.injEq] at done
    obtain ⟨rfl, rfl⟩ := done
    exact .inl ⟨rfl, rfl, rfl⟩
  · obtain ⟨⟨written, fs₂⟩, wrote, same⟩ := Option.map_eq_some'.mp done
    simp only [Prod.mk.injEq] at same
    obtain ⟨rfl, rfl⟩ := same
    exact .inr ⟨written, wrote, rfl, rfl⟩

theorem writeFile_last {path : Path} {written : Int}
    (done : writeFile p o fuel fs path data size = some (written, fs')) :
    (writeFileStates p o fuel fs path data size).getLastD fs = fs' := by
  rcases writeFile_cases done with ⟨-, rfl, states⟩ | ⟨fs₁, -, states, ⟨ended, -⟩ | ⟨ended, -⟩⟩
  · rw [states]
    rfl
  all_goals rw [states, List.getLastD_cons]
  exacts [writeLoop_last (.inr ended), writeLoop_last (.inl ended)]

theorem writeToFile_last {path : FilePath} {ok : Bool}
    (done : writeToFile p o fuel fs path data size = some (ok, fs')) :
    (writeToFileStates p o fuel fs path data size).getLastD fs = fs' := by
  obtain ⟨ok₁, fs₁, ensured⟩ : ∃ ok₁ fs₁, ensureDirectory p o.mkdirFails fs path.dir = (ok₁, fs₁) :=
    ⟨_, _, rfl⟩
  have made : (ensureDirectoryStates p o.mkdirFails fs path.dir).getLastD fs = fs₁ := by
    rw [ensureDirectory_last, ensured]
  rcases writeToFile_cases ensured done with ⟨-, rfl, states⟩ | ⟨written, wrote, -, states⟩
  · rw [states, made]
  · rw [states, getLastD_append, made, writeFile_last wrote]

/-- Along `WriteToFile` on a path that names nothing or a regular file, when every `write`
writes between one byte and all it was asked for, a process that reads `path` between two system
calls sees the entry that was there, then an empty file, then ever longer prefixes of
`data[0, size)`, all in one file with the mode and owner `creat` gives it; the last of them is
the whole of it when the call returns true. So whatever it returns, the call shows readers an
emptied or partly written file. The last state is the one the call ends with. -/
theorem writeToFile_observed_prefixes {path : FilePath} {ok : Bool}
    (valid : ∀ k r n, 0 < r → o.write k r = some n → 0 < n ∧ n ≤ r)
    (regular : (fs path.value).all Entry.isRegular)
    (done : writeToFile p o fuel fs path data size = some (ok, fs')) :
    (writeToFileStates p o fuel fs path data size).getLastD fs = fs' ∧
      ∃ before ns perms uid gid, (writeToFileStates p o fuel fs path data size).map
          (fun s => s path.value) = List.replicate before (fs path.value) ++
            ns.map (fun n => some (.regular (data.take n) perms uid gid)) ∧
        (ns = [] ∨ ns.head? = some 0) ∧ ns.Pairwise (· < ·) ∧ (∀ n ∈ ns, n ≤ size) ∧
        (ns ≠ [] → CreatOwner p (fs path.value) perms uid gid) ∧
        (ok = true → ns ≠ [] ∧ ns.getLastD 0 = size) := by
  refine ⟨writeToFile_last done, ?_⟩
  obtain ⟨ok₁, fs₁, ensured⟩ : ∃ ok₁ fs₁, ensureDirectory p o.mkdirFails fs path.dir = (ok₁, fs₁) :=
    ⟨_, _, rfl⟩
  have made : ∀ s ∈ ensureDirectoryStates p o.mkdirFails fs path.dir,
      s path.value = fs path.value := fun s listed => ensureDirectoryStates_entry listed
  have entry₁ : fs₁ path.value = fs path.value := ensureDirectory_entry ensured rfl
  let before := (ensureDirectoryStates p o.mkdirFails fs path.dir).length
  rcases writeToFile_cases ensured done with ⟨rfl, -, states⟩ | ⟨written, wrote, rfl, states⟩
  · exact ⟨before, [], 0, 0, 0, by rw [states, List.map_eq_replicate_iff.mpr made]; simp, .inl rfl, .nil,
      by simp, by simp, by simp⟩
  rcases writeFile_cases wrote with ⟨rfl, -, opened⟩ | ⟨fs₂, opened, written₂, ended⟩
  · exact ⟨before, [], 0, 0, 0, by rw [states, opened, List.append_nil, List.map_eq_replicate_iff.mpr made]; simp, .inl rfl,
      .nil, by simp, by simp, by simp⟩
  obtain ⟨perms, uid, gid, rfl, owner⟩ := creat_ok (by rwa [entry₁]) opened
  obtain ⟨ns, prefixes, increasing, bounds, whole⟩ :=
    @writeLoopStates_prefixes o.write data size path.value valid fuel 0 0
      (Function.update fs₁ path.value (some (.regular [] perms uid gid))) perms uid gid
      (Nat.zero_le size) (Function.update_same _ _ _)
  refine ⟨before, 0 :: ns, perms, uid, gid, ?_, .inr rfl,
    List.pairwise_cons.mpr ⟨fun n mem => (bounds n mem).1, increasing⟩, ?_, fun _ => ?_,
    fun wroteAll => ⟨List.cons_ne_nil _ _, ?_⟩⟩
  · rw [states, written₂, List.map_append, List.map_eq_replicate_iff.mpr made, List.map_cons, prefixes,
      Function.update_same]
    rfl
  · simp only [List.mem_cons, forall_eq_or_imp]
    exact ⟨Nat.zero_le size, fun n mem => (bounds n mem).2⟩
  · rwa [← entry₁]
  · rcases ended with ⟨-, rfl⟩ | ⟨ended, rfl⟩
    · simp at wroteAll
    · rw [List.getLastD_cons]
      split at wroteAll
      · simp at wroteAll
      · exact whole _ ended

theorem writeToFile_observed_prefixes_stateFs :
    (∀ k r n, 0 < r → succeedingWrites.write k r = some n → 0 < n ∧ n ≤ r) ∧
      (stateFs (FilePath.value ⟨["tmp"], "state"⟩)).all Entry.isRegular ∧
      ∃ fs', writeToFile ⟨0, 0, 0o022⟩ succeedingWrites 2 stateFs ⟨["tmp"], "state"⟩ [7] 1 =
          some (true, fs') ∧
        (writeToFileStates ⟨0, 0, 0o022⟩ succeedingWrites 2 stateFs ⟨["tmp"], "state"⟩ [7] 1).getLastD
            stateFs = fs' ∧
        ∃ before ns perms uid gid, (writeToFileStates ⟨0, 0, 0o022⟩ succeedingWrites 2 stateFs
            ⟨["tmp"], "state"⟩ [7] 1).map (fun s => s (FilePath.value ⟨["tmp"], "state"⟩)) =
              List.replicate before (stateFs (FilePath.value ⟨["tmp"], "state"⟩)) ++
                ns.map (fun n => some (.regular ([7].take n) perms uid gid)) ∧
          (ns = [] ∨ ns.head? = some 0) ∧ ns.Pairwise (· < ·) ∧ (∀ n ∈ ns, n ≤ 1) ∧
          (ns ≠ [] → CreatOwner ⟨0, 0, 0o022⟩ (stateFs (FilePath.value ⟨["tmp"], "state"⟩))
            perms uid gid) ∧
          (true = true → ns ≠ [] ∧ ns.getLastD 0 = 1) := by
  have valid : ∀ k r n, 0 < r → succeedingWrites.write k r = some n → 0 < n ∧ n ≤ r :=
    fun _ _ _ positive written => by cases written; exact ⟨positive, le_rfl⟩
  obtain ⟨fs', done⟩ : ∃ fs', writeToFile ⟨0, 0, 0o022⟩ succeedingWrites 2 stateFs
      ⟨["tmp"], "state"⟩ [7] 1 = some (true, fs') := ⟨_, rfl⟩
  exact ⟨valid, rfl, fs', done, writeToFile_observed_prefixes valid rfl done⟩

end WriteFile

end Brillo
