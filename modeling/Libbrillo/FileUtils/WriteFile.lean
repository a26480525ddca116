import Libbrillo.FileUtils.AtomicWrite

namespace Brillo

-- `std::numeric_limits<int>::max()`
def intMax : Nat := 2 ^ 31 - 1

/-- What the system calls of one `WriteToFile` call return: which `mkdir`s fail, whether `creat`
fails for a reason other than what is at the path, what the `k`-th `write` asked for `n` bytes
returns (an error or a count), and whether `close` fails. -/
structure WriteOutcomes where
  mkdirFails : Path → Bool
  openFails : Bool
  write : Nat → Nat → Option Nat
  closeFails : Bool

-- `base::WriteFileDescriptor(fd, data, size)` on a descriptor of the file at `path`: the same
-- loop as the one of `WriteToFileAtomic`
def writeFileDescriptor (write : Nat → Nat → Option Nat) (data : List UInt8) (size : Nat)
    (path : Path) (fuel : Nat) (fs : Fs) : WriteLoopEnd :=
  writeLoop write data size path fuel 0 0 fs

/-- `base::WriteFile(path, data, size)`: `creat`, `WriteFileDescriptor` and `close`, returning
`size`, or -1 when any of them fails. `none` when the write loop does not end within `fuel`
turns, or when `path` is a symbolic link: `creat` follows it to a target the model does not
hold. -/
def writeFile (p : Process) (o : WriteOutcomes) (fuel : Nat) (fs : Fs) (path : Path)
    (data : List UInt8) (size : Nat) : Option (Int × Fs) :=
  if fs path = some .symlink then none
  else match creat p o.openFails fs path with
    | none => some (-1, fs)
    | some fs =>
      match writeFileDescriptor o.write data size path fuel fs with
      | .stuck => none
      | .writeFailed fs => some (-1, fs)
      | .written fs => some (if o.closeFails then -1 else size, fs)

def writeToFile (p : Process) (o : WriteOutcomes) (fuel : Nat) (fs : Fs) (path : FilePath)
    (data : List UInt8) (size : Nat) : Option (Bool × Fs) :=
  match ensureDirectory p o.mkdirFails fs path.dir with
  | (false, fs) => some (false, fs)
  | (true, fs) =>
    if size > intMax then some (false, fs)
    else (writeFile p o fuel fs path.value data size).map fun (dataWritten, fs) =>
      (dataWritten == size, fs)

def writeBlobToFile (p : Process) (o : WriteOutcomes) (fuel : Nat) (fs : Fs) (path : FilePath)
    (blob : List UInt8) : Option (Bool × Fs) :=
  writeToFile p o fuel fs path blob blob.length

def writeStringToFile (p : Process) (o : WriteOutcomes) (fuel : Nat) (fs : Fs) (path : FilePath)
    (data : List UInt8) : Option (Bool × Fs) :=
  writeToFile p o fuel fs path data data.length

theorem writeFile_spec (p : Process) {o : WriteOutcomes} (data : List UInt8) (size : Nat) {fs : Fs}
    {path : Path} (valid : ∀ k r n, 0 < r → o.write k r = some n → 0 < n ∧ n ≤ r)
    (regular : (fs path).all Entry.isRegular) :
    ∃ written fs', (∀ fuel, size < fuel → writeFile p o fuel fs path data size = some (written, fs')) ∧
      (written = size → ∃ perms uid gid,
        fs' path = some (.regular (data.take size) perms uid gid) ∧ CreatOwner p (fs path) perms uid gid) ∧
      (written ≠ size → fs' path = fs path ∨
        ∃ n perms uid gid, n ≤ size ∧ fs' path = some (.regular (data.take n) perms uid gid)) := by
  have notLink : fs path ≠ some .symlink := fun link => by simp [link, Entry.isRegular] at regular
  cases opened : creat p o.openFails fs path with
  | none =>
    exact ⟨-1, fs, fun fuel _ => by simp [writeFile, notLink, opened], fun minus => by omega,
      fun _ => .inl rfl⟩
  | some fs₁ =>
    obtain ⟨perms, uid, gid, rfl, owner⟩ := creat_ok regular opened
    obtain ⟨loopEnd, stable, loop⟩ := writeLoop_from_empty data size valid
      (Function.update_same path (some (.regular [] perms uid gid)) fs)
    rcases loop with rfl | ⟨n, le, rfl⟩
    · cases closes : o.closeFails
      · refine ⟨size, Function.update fs path (some (.regular (data.take size) perms uid gid)),
          fun fuel more => ?_, fun _ => ⟨perms, uid, gid, by simp, owner⟩,
          fun differs => absurd rfl differs⟩
        simp [writeFile, notLink, opened, writeFileDescriptor, stable fuel more, closes]
      · refine ⟨-1, Function.update fs path (some (.regular (data.take size) perms uid gid)),
          fun fuel more => ?_, fun minus => by omega,
          fun _ => .inr ⟨size, perms, uid, gid, le_rfl, by simp⟩⟩
        simp [writeFile, notLink, opened, writeFileDescriptor, stable fuel more, closes]
    · refine ⟨-1, Function.update fs path (some (.regular (data.take n) perms uid gid)),
        fun fuel more => ?_, fun minus => by omega,
        fun _ => .inr ⟨n, perms, uid, gid, le, by simp⟩⟩
      simp [writeFile, notLink, opened, writeFileDescriptor, stable fuel more]

/-- When every `write` writes between one byte and all it was asked for, and `path` names
nothing or a regular file, `WriteToFile` ends for any fuel beyond `size`. When it returns true,
`size` fits an `int` and `path` holds `data[0, size)`, with the mode and owner of the file that
was there or of a new file. When it returns false, `path` is as it was or holds a prefix of
`data`: the write is not atomic. -/
theorem writeToFile_spec {p : Process} {o : WriteOutcomes} {fs : Fs} {path : FilePath}
    {data : List UInt8} {size : Nat} (valid : ∀ k r n, 0 < r → o.write k r = some n → 0 < n ∧ n ≤ r)
    (regular : (fs path.value).all Entry.isRegular) :
    ∃ ok fs', (∀ fuel, size < fuel → writeToFile p o fuel fs path data size = some (ok, fs')) ∧
      (ok = true → size ≤ intMax ∧ ∃ perms uid gid,
        fs' path.value = some (.regular (data.take size) perms uid gid) ∧
          CreatOwner p (fs path.value) perms uid gid) ∧
      (ok = false → fs' path.value = fs path.value ∨
        ∃ n perms uid gid, n ≤ size ∧ fs' path.value = some (.regular (data.take n) perms uid gid)) := by
  obtain ⟨ok₁, fs₁, ensured⟩ : ∃ ok₁ fs₁, ensureDirectory p o.mkdirFails fs path.dir = (ok₁, fs₁) :=
    ⟨_, _, rfl⟩
  have entry : fs₁ path.value = fs path.value := ensureDirectory_entry ensured rfl
  by_cases proceeds : ok₁ = true ∧ size ≤ intMax
  · obtain ⟨rfl, fits⟩ := proceeds
    obtain ⟨written, fs', runs, full, shorter⟩ := writeFile_spec p data size valid
      (show (fs₁ path.value).all Entry.isRegular by rw [entry]; exact regular)
    refine ⟨written == size, fs', fun fuel more => ?_, fun ok => ?_, fun notOk => ?_⟩
    · simp only [writeToFile, ensured, if_neg (Nat.not_lt.mpr fits), runs fuel more, Option.map_some']
    · rw [← entry]
      exact ⟨fits, full (beq_iff_eq.mp ok)⟩
    · rw [← entry]
      exact shorter (by simpa using notOk)
  · refine ⟨false, fs₁, fun fuel _ => ?_, by simp, fun _ => .inl entry⟩
    cases ok₁
    · simp only [writeToFile, ensured]
    · simp only [true_and, Nat.not_le] at proceeds
      simp only [writeToFile, ensured, if_pos proceeds]

def succeedingWrites : WriteOutcomes where
  mkdirFails := fun _ => false
  openFails := false
  write := fun _ r => some r
  closeFails := false

-- a directory `/tmp` holding a file `state` of three bytes
def stateFs : Fs := fun q =>
  if q = ["tmp"] then some (.directory false 0)
  else if q = ["tmp", "state"] then some (.regular [1, 2, 3] 0o644 0 0) else none

theorem writeToFile_spec_stateFs :
    (∀ k r n, 0 < r → succeedingWrites.write k r = some n → 0 < n ∧ n ≤ r) ∧
      (stateFs (FilePath.value ⟨["tmp"], "state"⟩)).all Entry.isRegular ∧
      ∃ ok fs', (∀ fuel, 1 < fuel → writeToFile ⟨0, 0, 0o022⟩ succeedingWrites fuel stateFs
          ⟨["tmp"], "state"⟩ [7] 1 = some (ok, fs')) ∧
        (ok = true → 1 ≤ intMax ∧ ∃ perms uid gid,
          fs' (FilePath.value ⟨["tmp"], "state"⟩) = some (.regular ([7].take 1) perms uid gid) ∧
            CreatOwner ⟨0, 0, 0o022⟩ (stateFs (FilePath.value ⟨["tmp"], "state"⟩)) perms uid gid) ∧
        (ok = false → fs' (FilePath.value ⟨["tmp"], "state"⟩) = stateFs (FilePath.value ⟨["tmp"], "state"⟩) ∨
          ∃ n perms uid gid, n ≤ 1 ∧
            fs' (FilePath.value ⟨["tmp"], "state"⟩) = some (.regular ([7].take n) perms uid gid)) := by
  have valid : ∀ k r n, 0 < r → succeedingWrites.write k r = some n → 0 < n ∧ n ≤ r := by
    intro k r n positive written
    cases written
    exact ⟨positive, le_rfl⟩
  have regular : (stateFs (FilePath.value ⟨["tmp"], "state"⟩)).all Entry.isRegular := by decide
  exact ⟨valid, regular, writeToFile_spec valid regular⟩

-- what the system calls of one `SyncFileOrDirectory` call return: whether `open`, the sync call
-- and `close` fail for a reason other than what is at the path
structure SyncOutcomes where
  openFails : Bool
  syncFails : Bool
  closeFails : Bool

inductive SyncCall
  | fsync
  | fdatasync
  deriving DecidableEq, Repr

/-- Whether `open(path, is_directory ? O_RDONLY | O_DIRECTORY : O_WRONLY)` can succeed: not where
nothing is, with `O_DIRECTORY` on a directory only, with `O_WRONLY` on anything but a directory.
A symbolic link is followed to a target the model does not hold, so the outcome decides. -/
def openForSync (fs : Fs) (path : Path) (isDirectory : Bool) : Bool :=
  match fs path with
  | none => false
  | some (.directory ..) => isDirectory
  | some .symlink => true
  | some _ => !isDirectory

/-- `SyncFileOrDirectory(path, is_directory, data_sync)`: the sync call it makes, if `open`
succeeds, and what it returns. It changes nothing the file system model holds. -/
def syncFileOrDirectory (o : SyncOutcomes) (fs : Fs) (path : Path) (isDirectory dataSync : Bool) :
    Option SyncCall × Bool :=
  let dataSync := dataSync && !isDirectory
  if o.openFails || !openForSync fs path isDirectory then (none, false)
  else (some (if dataSync then .fdatasync else .fsync), !o.syncFails && !o.closeFails)

end Brillo
