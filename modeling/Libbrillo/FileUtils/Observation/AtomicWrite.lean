import Libbrillo.FileUtils.Observation.Loops

namespace Brillo

section AtomicWrite

variable {p : Process} {o : AtomicOutcomes} {fuel : Nat} {fs fs' : Fs} {path : FilePath}
  {data : List UInt8} {size : Nat} {mode : Mode} {ok : Bool}

-- `WriteToFileAtomic` once the temporary file `temp` is open: the file system after each
-- `write`, and after the `rename` or the `unlink` that ends it
def writeToTempStates (o : AtomicOutcomes) (fuel : Nat) (fs : Fs) (temp : Path) (path : FilePath)
    (data : List UInt8) (size : Nat) : List Fs :=
  let written := writeLoopStates o.write data size temp fuel 0 0 fs
  match writeLoop o.write data size temp fuel 0 0 fs with
  | .stuck => written
  | .writeFailed fs => written ++ [unlink fs temp]
  | .written fs =>
    if o.fdatasyncFails then written ++ [unlink fs temp]
    else if o.closeFails then written ++ [unlink fs temp]
    else match rename o.renameFails fs temp path.value with
      | none => written ++ [unlink fs temp]
      | some fs => written ++ [fs]

/-- `WriteToFileAtomic(path, data, size, mode)`: the file system after each `mkdir`, after the
`open` of the temporary file, and after each system call `writeToTempStates` lists, or after
the `unlink` that follows a failed `open`. -/
def writeToFileAtomicStates (p : Process) (o : AtomicOutcomes) (fuel : Nat) (fs : Fs)
    (path : FilePath) (data : List UInt8) (size : Nat) (mode : Mode) : List Fs :=
  let made := ensureDirectoryStates p o.mkdirFails fs path.dir
  match ensureDirectory p o.mkdirFails fs path.dir with
  | (false, _) => made
  | (true, fs) =>
    let randomSuffix := getRandomSuffix o.randBytes
    if randomSuffix.isEmpty then made
    else match path.addExtension randomSuffix with
      | none => made
      | some tempName =>
        match openExclusive p o.openFails fs tempName.value mode with
        | none => made ++ [unlink fs tempName.value]
        | some fs => made ++ fs :: writeToTempStates o fuel fs tempName.value path data size

-- how a `writeToTemp` that ends does so: after the write loop ended with `fs₁`, by unlinking
-- the temporary file and returning false, or by renaming it over `path` and returning true
theorem writeToTemp_cases {temp : Path}
    (done : writeToTemp o fuel fs temp path data size = some (ok, fs')) :
    ∃ fs₁, (writeLoop o.write data size temp fuel 0 0 fs = .written fs₁ ∨
        writeLoop o.write data size temp fuel 0 0 fs = .writeFailed fs₁) ∧
      ((ok = false ∧ fs' = unlink fs₁ temp ∧ writeToTempStates o fuel fs temp path data size =
          writeLoopStates o.write data size temp fuel 0 0 fs ++ [fs']) ∨
        (ok = true ∧ writeLoop o.write data size temp fuel 0 0 fs = .written fs₁ ∧
          rename o.renameFails fs₁ temp path.value = some fs' ∧
          writeToTempStates o fuel fs temp path data size =
            writeLoopStates o.write data size temp fuel 0 0 fs ++ [fs'])) := by
  unfold writeToTemp at done
  unfold writeToTempStates
  cases loop : writeLoop o.write data size temp fuel 0 0 fs with
  | stuck => simp [loop] at done
  | writeFailed fs₁ =>
    simp only [loop, Option.some.injEq, Prod.mk.injEq] at done
    obtain ⟨rfl, rfl⟩ := done
    exact ⟨fs₁, .inr rfl, .inl ⟨rfl, rfl, rfl⟩⟩
  | written fs₁ =>
    refine ⟨fs₁, .inl rfl, ?_⟩
    simp only [loop] at done ⊢
    split_ifs at done ⊢
    · simp only [Option.some.injEq, Prod.mk.injEq] at done
      obtain ⟨rfl, rfl⟩ := done
      exact .inl ⟨rfl, rfl, rfl⟩
    · simp only [Option.some.injEq, Prod.mk.injEq] at done
      obtain ⟨rfl, rfl⟩ := done
      exact .inl ⟨rfl, rfl, rfl⟩
    · cases renamed : rename o.renameFails fs₁ temp path.value with
      | none =>
        simp only [renamed, Option.some.injEq, Prod.mk.injEq] at done
        obtain ⟨rfl, rfl⟩ := done
        exact .inl ⟨rfl, rfl, by simp only [renamed]⟩
      | some fs₂ =>
        simp only [renamed, Option.some.injEq, Prod.mk.injEq] at done
        obtain ⟨rfl, rfl⟩ := done
        exact .inr ⟨rfl, trivial, rfl, by simp only [renamed]⟩

theorem writeToTemp_last {temp : Path}
    (done : writeToTemp o fuel fs temp path data size = some (ok, fs')) :
    (writeToTempStates o fuel fs temp path data size).getLastD fs = fs' := by
  obtain ⟨fs₁, -, ⟨-, -, states⟩ | ⟨-, -, -, states⟩⟩ := writeToTemp_cases done <;>
    rw [states, List.getLastD_concat]

theorem writeToTemp_observed {temp : Path} {perms : Mode} {uid gid : Nat}
    (valid : ∀ k r n, 0 < r → o.write k r = some n → 0 < n ∧ n ≤ r) (other : path.value ≠ temp)
    (file : fs temp = some (.regular [] perms uid gid))
    (done : writeToTemp o fuel fs temp path data size = some (ok, fs')) :
    ∃ before, (writeToTempStates o fuel fs temp path data size).map (fun s => s path.value) =
      List.replicate before (fs path.value) ++
        if ok then [some (.regular (data.take size) perms uid gid)] else [] := by
  have kept : ∀ s ∈ writeLoopStates o.write data size temp fuel 0 0 fs,
      s path.value = fs path.value := fun s listed => writeLoopStates_outside listed other
  obtain ⟨fs₁, ended, ⟨rfl, rfl, states⟩ | ⟨rfl, written, renamed, states⟩⟩ := writeToTemp_cases done
  · have last : fs₁ path.value = fs path.value := by
      rw [← writeLoop_last ended]
      exact @getLastD_of_forall Fs (fun s => s path.value = fs path.value) _ _ rfl kept
    refine ⟨(writeLoopStates o.write data size temp fuel 0 0 fs).length + 1, ?_⟩
    rw [states, List.map_append, List.map_eq_replicate_iff.mpr kept, List.map_singleton, unlink_other other, last,
      ← List.replicate_succ']
    simp
  · have temp₁ := writeLoop_written_file valid (Nat.zero_le size)
      (show fs temp = some (.regular (data.take 0) perms uid gid) by simpa using file) written
    obtain ⟨entry, found, rfl⟩ := rename_ok renamed
    rw [temp₁, Option.some.injEq] at found
    subst found
    exact ⟨_, by rw [states, List.map_append, List.map_eq_replicate_iff.mpr kept, List.map_singleton,
      Function.update_same]; rfl⟩

-- how a `WriteToFileAtomic` that ends does so, `ensureDirectory` giving `(ok₁, fs₁)`: without
-- a temporary file, after a failed `open` of it, or through `writeToTemp`
theorem writeToFileAtomic_cases {ok₁ : Bool} {fs₁ : Fs}
    (ensured : ensureDirectory p o.mkdirFails fs path.dir = (ok₁, fs₁))
    (done : writeToFileAtomic p o fuel fs path data size mode = some (ok, fs')) :
    (ok = false ∧ fs' = fs₁ ∧ writeToFileAtomicStates p o fuel fs path data size mode =
        ensureDirectoryStates p o.mkdirFails fs path.dir) ∨
      ∃ temp, path.addExtension (getRandomSuffix o.randBytes) = some temp ∧
        ((ok = false ∧ fs' = unlink fs₁ temp.value ∧
            writeToFileAtomicStates p o fuel fs path data size mode =
              ensureDirectoryStates p o.mkdirFails fs path.dir ++ [fs']) ∨
          ∃ fs₂, openExclusive p o.openFails fs₁ temp.value mode = some fs₂ ∧
            writeToTemp o fuel fs₂ temp.value path data size = some (ok, fs') ∧
            writeToFileAtomicStates p o fuel fs path data size mode =
              ensureDirectoryStates p o.mkdirFails fs path.dir ++
                fs₂ :: writeToTempStates o fuel fs₂ temp.value path data size) := by
  have suffix := getRandomSuffix_ne o.randBytes
  have notEmpty : (getRandomSuffix o.randBytes).isEmpty = false :=
    Bool.eq_false_iff.mpr fun empty => suffix.1 ((String.isEmpty_iff _).mp empty)
  unfold writeToFileAtomic at done
  unfold writeToFileAtomicStates
  rw [ensured] at done ⊢
  cases ok₁
  · simp only [Option.some.injEq, Prod.mk.injEq] at done
    obtain ⟨rfl, rfl⟩ := done
    exact .inl ⟨rfl, rfl, rfl⟩
  simp only [notEmpty, Bool.false_eq_true, ite_false] at done ⊢
  cases added : path.addExtension (getRandomSuffix o.randBytes) with
  | none =>
    simp only [added, Option.some.injEq, Prod.mk.injEq] at done
    obtain ⟨rfl, rfl⟩ := done
    exact .inl ⟨rfl, rfl, rfl⟩
  | some temp =>
    simp only [added] at done ⊢
    cases opened : openExclusive p o.openFails fs₁ temp.value mode with
    | none =>
      simp only [opened, Option.some.injEq, Prod.mk.injEq] at done
      obtain ⟨rfl, rfl⟩ := done
      exact .inr ⟨temp, rfl, .inl ⟨rfl, rfl, rfl⟩⟩
    | some fs₂ =>
      simp only [opened] at done
      exact .inr ⟨temp, rfl, .inr ⟨fs₂, opened, done, rfl⟩⟩

theorem writeToFileAtomic_last (done : writeToFileAtomic p o fuel fs path data size mode = some (ok, fs')) :
    (writeToFileAtomicStates p o fuel fs path data size mode).getLastD fs = fs' := by
  obtain ⟨ok₁, fs₁, ensured⟩ : ∃ ok₁ fs₁, ensureDirectory p o.mkdirFails fs path.dir = (ok₁, fs₁) :=
    ⟨_, _, rfl⟩
  have made : (ensureDirectoryStates p o.mkdirFails fs path.dir).getLastD fs = fs₁ := by
    rw [ensureDirectory_last, ensured]
  rcases writeToFileAtomic_cases ensured done with
    ⟨-, rfl, states⟩ | ⟨temp, -, ⟨-, -, states⟩ | ⟨fs₂, -, written, states⟩⟩
  · rw [states, made]
  · rw [states, List.getLastD_concat]
  · rw [states, getLastD_append, List.getLastD_cons, writeToTemp_last written]

/-- Along `WriteToFileAtomic`, whatever its system calls return, a process that reads `path`
between two of them sees the entry that was there, and then, only through the last call and only
when the call returns true, the whole of `data[0, size)` in a file with mode `mode` less the
umask owned by the process's effective uid: never a part of the data. The last state is the one
the call ends with. -/
theorem writeToFileAtomic_observed_atomically
    (valid : ∀ k r n, 0 < r → o.write k r = some n → 0 < n ∧ n ≤ r)
    (done : writeToFileAtomic p o fuel fs path data size mode = some (ok, fs')) :
    (writeToFileAtomicStates p o fuel fs path data size mode).getLastD fs = fs' ∧
      ∃ before gid, (writeToFileAtomicStates p o fuel fs path data size mode).map
          (fun s => s path.value) = List.replicate before (fs path.value) ++
        if ok then [some (.regular (data.take size) (mode &&& ~~~p.umask &&& 0o7777) p.euid gid)]
        else [] := by
  refine ⟨writeToFileAtomic_last done, ?_⟩
  obtain ⟨ok₁, fs₁, ensured⟩ : ∃ ok₁ fs₁, ensureDirectory p o.mkdirFails fs path.dir = (ok₁, fs₁) :=
    ⟨_, _, rfl⟩
  have made : ∀ s ∈ ensureDirectoryStates p o.mkdirFails fs path.dir,
      s path.value = fs path.value := fun s listed => ensureDirectoryStates_entry listed
  have entry₁ : fs₁ path.value = fs path.value := ensureDirectory_entry ensured rfl
  have suffix := getRandomSuffix_ne o.randBytes
  rcases writeToFileAtomic_cases ensured done with
    ⟨rfl, -, states⟩ | ⟨temp, added, ⟨rfl, rfl, states⟩ | ⟨fs₂, opened, written, states⟩⟩
  · exact ⟨(ensureDirectoryStates p o.mkdirFails fs path.dir).length, 0, by
      rw [states, List.map_eq_replicate_iff.mpr made]
      simp⟩
  all_goals obtain ⟨-, other⟩ := addExtension_sibling suffix.1 suffix.2 added
  · refine ⟨(ensureDirectoryStates p o.mkdirFails fs path.dir).length + 1, 0, ?_⟩
    rw [states, List.map_append, List.map_eq_replicate_iff.mpr made, List.map_singleton,
      unlink_other (Ne.symm other), entry₁, ← List.replicate_succ']
    simp
  · obtain ⟨-, rfl⟩ := openExclusive_ok opened
    have entry₂ : Function.update fs₁ temp.value (some (.regular [] (mode &&& ~~~p.umask &&& 0o7777)
        p.euid (newGroup p fs₁ temp.value.dropLast).2)) path.value = fs path.value := by
      rw [Function.update_noteq (Ne.symm other), entry₁]
    obtain ⟨before, observed⟩ := writeToTemp_observed valid (Ne.symm other) (Function.update_same _ _ _)
      written
    refine ⟨(ensureDirectoryStates p o.mkdirFails fs path.dir).length + 1 + before,
      (newGroup p fs₁ temp.value.dropLast).2, ?_⟩
    rw [states, List.map_append, List.map_eq_replicate_iff.mpr made, List.map_cons, observed, entry₂,
      List.replicate_add, List.replicate_add]
    simp

theorem writeToFileAtomic_observed_atomically_empty :
    (∀ k r n, 0 < r → succeedingOutcomes.write k r = some n → 0 < n ∧ n ≤ r) ∧
      ∃ fs', writeToFileAtomic ⟨0, 0, 0o022⟩ succeedingOutcomes 2 (fun _ => none)
          ⟨["tmp"], "state"⟩ [7] 1 0o644 = some (true, fs') ∧
        (writeToFileAtomicStates ⟨0, 0, 0o022⟩ succeedingOutcomes 2 (fun _ => none)
            ⟨["tmp"], "state"⟩ [7] 1 0o644).getLastD (fun _ => none) = fs' ∧
        ∃ before gid, (writeToFileAtomicStates ⟨0, 0, 0o022⟩ succeedingOutcomes 2 (fun _ => none)
            ⟨["tmp"], "state"⟩ [7] 1 0o644).map (fun s => s (FilePath.value ⟨["tmp"], "state"⟩)) =
          List.replicate before ((fun _ => none : Fs) (FilePath.value ⟨["tmp"], "state"⟩)) ++
            if true then [some (.regular ([7].take 1) (0o644 &&& ~~~(0o022 : Mode) &&& 0o7777) 0 gid)]
            else [] := by
  have valid : ∀ k r n, 0 < r → succeedingOutcomes.write k r = some n → 0 < n ∧ n ≤ r :=
    fun _ _ _ positive written => by cases written; exact ⟨positive, le_rfl⟩
  obtain ⟨fs', done⟩ : ∃ fs', writeToFileAtomic ⟨0, 0, 0o022⟩ succeedingOutcomes 2 (fun _ => none)
      ⟨["tmp"], "state"⟩ [7] 1 0o644 = some (true, fs') := ⟨_, rfl⟩
  exact ⟨valid, fs', done, writeToFileAtomic_observed_atomically valid done⟩

end AtomicWrite

end Brillo
