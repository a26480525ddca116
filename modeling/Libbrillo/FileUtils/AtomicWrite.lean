import Libbrillo.FileUtils.FileSystem
import Mathlib.Data.String.Basic
import Mathlib.Data.List.OfFn

namespace Brillo

def kBufferSize : Nat := 6

-- the character `GetRandomSuffix` makes of `random_value`, a byte modulo `2 * 26 + 10`
def suffixChar (randomValue : Nat) : Char :=
  if randomValue < 26 then Char.ofNat ('a'.toNat + randomValue)
  else if randomValue < 2 * 26 then Char.ofNat ('A'.toNat + randomValue - 26)
  else Char.ofNat ('0'.toNat + randomValue - 2 * 26)

def getRandomSuffix (buffer : Fin kBufferSize → UInt8) : String :=
  ⟨List.ofFn fun i => suffixChar ((buffer i).toNat % (2 * 26 + 10))⟩

theorem getRandomSuffix_length (buffer : Fin kBufferSize → UInt8) :
    (getRandomSuffix buffer).length = kBufferSize :=
  List.length_ofFn _

theorem getRandomSuffix_ne (buffer : Fin kBufferSize → UInt8) :
    getRandomSuffix buffer ≠ "" ∧ getRandomSuffix buffer ≠ "." := by
  have length := getRandomSuffix_length buffer
  constructor <;> rintro same <;> rw [same] at length <;> exact absurd length (by decide)

-- `base::FilePath::AddExtension`; `none` is the empty path it returns for an empty, `.` or `..`
-- base name
def FilePath.addExtension (path : FilePath) (extension : String) : Option FilePath :=
  if path.base = "" ∨ path.base = "." ∨ path.base = ".." then none
  else if extension = "" ∨ extension = "." then some path
  else
    let separator := if extension.front ≠ '.' ∧ path.base.back ≠ '.' then "." else ""
    some { path with base := path.base ++ separator ++ extension }

theorem addExtension_sibling {path temp : FilePath} {extension : String} (nonEmpty : extension ≠ "")
    (notDot : extension ≠ ".") (added : path.addExtension extension = some temp) :
    temp.dir = path.dir ∧ temp.value ≠ path.value := by
  unfold FilePath.addExtension at added
  split at added
  · cases added
  · split at added
    · simp_all
    · cases added
      refine ⟨rfl, fun same => ?_⟩
      have lengths := congrArg String.length (List.append_cancel_left same |> List.singleton_injective)
      have positive : 0 < extension.length := by
        rcases extension with ⟨_ | _⟩
        · exact absurd rfl nonEmpty
        · exact Nat.succ_pos _
      simp only [String.length_append] at lengths
      omega

/-- What the system calls of one `WriteToFileAtomic` call return: the bytes `base::RandBytes`
gives, which `mkdir`s fail, whether `open` fails for a reason other than an entry already at
the temporary name, what the `k`-th `write` asked for `n` bytes returns (an error or a count),
and whether `fdatasync`, `close` and `rename` fail. -/
structure AtomicOutcomes where
  randBytes : Fin kBufferSize → UInt8
  mkdirFails : Path → Bool
  openFails : Bool
  write : Nat → Nat → Option Nat
  fdatasyncFails : Bool
  closeFails : Bool
  renameFails : Bool

-- how the write loop ends: every byte written, a `write` failed, or not within the turns it
-- was given
inductive WriteLoopEnd
  | written (fs : Fs)
  | writeFailed (fs : Fs)
  | stuck

/-- The `while (position < size)` loop of `WriteToFileAtomic`, writing `data` to the file at
`temp` for at most `fuel` turns; `k` counts the `write` calls made. -/
def writeLoop (write : Nat → Nat → Option Nat) (data : List UInt8) (size : Nat) (temp : Path) :
    Nat → Nat → Nat → Fs → WriteLoopEnd
  | 0, _, _, _ => .stuck
  | fuel + 1, k, position, fs =>
    if position < size then
      match write k (size - position) with
      | none => .writeFailed fs
      | some written =>
        writeLoop write data size temp fuel (k + 1) (position + written)
          (appendFile fs temp ((data.drop position).take written))
    else .written fs

-- `WriteToFileAtomic` once the temporary file `temp` is open: write `data`, `fdatasync`,
-- `close` and `rename` it over `path`, unlinking it after any failure
def writeToTemp (o : AtomicOutcomes) (fuel : Nat) (fs : Fs) (temp : Path) (path : FilePath)
    (data : List UInt8) (size : Nat) : Option (Bool × Fs) :=
  match writeLoop o.write data size temp fuel 0 0 fs with
  | .stuck => none
  | .writeFailed fs => some (false, unlink fs temp)
  | .written fs =>
    if o.fdatasyncFails then some (false, unlink fs temp)
    else if o.closeFails then some (false, unlink fs temp)
    else match rename o.renameFails fs temp path.value with
      | none => some (false, unlink fs temp)
      | some fs => some (true, fs)

/-- `WriteToFileAtomic(path, data, size, mode)`: what it returns and the file system after it,
or `none` when its write loop does not end within `fuel` turns. An empty temporary name (from a
special base name) makes `open` and `unlink` fail. -/
def writeToFileAtomic (p : Process) (o : AtomicOutcomes) (fuel : Nat) (fs : Fs) (path : FilePath)
    (data : List UInt8) (size : Nat) (mode : Mode) : Option (Bool × Fs) :=
  match ensureDirectory p o.mkdirFails fs path.dir with
  | (false, fs) => some (false, fs)
  | (true, fs) =>
    let randomSuffix := getRandomSuffix o.randBytes
    if randomSuffix.isEmpty then some (false, fs)
    else match path.addExtension randomSuffix with
      | none => some (false, fs)
      | some tempName =>
        match openExclusive p o.openFails fs tempName.value mode with
        | none => some (false, unlink fs tempName.value)
        | some fs => writeToTemp o fuel fs tempName.value path data size

def writeBlobToFileAtomic (p : Process) (o : AtomicOutcomes) (fuel : Nat) (fs : Fs) (path : FilePath)
    (blob : List UInt8) (mode : Mode) : Option (Bool × Fs) :=
  writeToFileAtomic p o fuel fs path blob blob.length mode

section WriteLoop

variable {write : Nat → Nat → Option Nat} {data : List UInt8} {size : Nat} {temp : Path}

theorem writeLoop_fuel_add {fuel k position : Nat} {fs : Fs}
    (ends : writeLoop write data size temp fuel k position fs ≠ .stuck) (extra : Nat) :
    writeLoop write data size temp (fuel + extra) k position fs =
      writeLoop write data size temp fuel k position fs := by
  induction fuel generalizing k position fs with
  | zero => exact absurd rfl ends
  | succ fuel ih =>
    rw [Nat.add_right_comm]
    by_cases more : position < size
    · cases written : write k (size - position) with
      | none => simp [writeLoop, more, written]
      | some count =>
        simp only [writeLoop, more, written, if_true] at ends ⊢
        exact ih ends
    · simp [writeLoop, more]

theorem writeLoop_ends (valid : ∀ k r n, 0 < r → write k r = some n → 0 < n ∧ n ≤ r)
    {position : Nat} (k : Nat) {fs : Fs} {perms : Mode} {uid gid : Nat} (le : position ≤ size)
    (file : fs temp = some (.regular (data.take position) perms uid gid)) :
    writeLoop write data size temp (size - position + 1) k position fs =
        .written (Function.update fs temp (some (.regular (data.take size) perms uid gid))) ∨
      ∃ n, n ≤ size ∧ writeLoop write data size temp (size - position + 1) k position fs =
        .writeFailed (Function.update fs temp (some (.regular (data.take n) perms uid gid))) := by
  by_cases more : position < size
  · cases written : write k (size - position) with
    | none =>
      refine .inr ⟨position, le, ?_⟩
      simp only [writeLoop, more, written, if_true, ← file, Function.update_eq_self]
    | some count =>
      obtain ⟨positive, bound⟩ := valid _ _ _ (by omega) written
      have file' : appendFile fs temp ((data.drop position).take count) temp =
          some (.regular (data.take (position + count)) perms uid gid) := by
        simp [appendFile_regular file, List.take_add]
      have next := writeLoop_ends valid (k + 1) (by omega) file'
      have fuel : size - position = size - (position + count) + 1 + (count - 1) := by omega
      have ends : writeLoop write data size temp (size - (position + count) + 1) (k + 1)
          (position + count) (appendFile fs temp ((data.drop position).take count)) ≠ .stuck := by
        rcases next with ended | ⟨n, -, ended⟩ <;> simp [ended]
      simp only [writeLoop, more, written, if_true]
      rw [fuel, writeLoop_fuel_add ends]
      simpa [appendFile_regular file] using next
  · obtain rfl : position = size := by omega
    refine .inl ?_
    simp only [writeLoop, more, if_false, ← file, Function.update_eq_self]
termination_by size - position

end WriteLoop

theorem writeLoop_from_empty {write : Nat → Nat → Option Nat} (data : List UInt8) (size : Nat)
    {temp : Path} (valid : ∀ k r n, 0 < r → write k r = some n → 0 < n ∧ n ≤ r) {fs : Fs}
    {perms : Mode} {uid gid : Nat} (empty : fs temp = some (.regular [] perms uid gid)) :
    ∃ loopEnd, (∀ fuel, size < fuel → writeLoop write data size temp fuel 0 0 fs = loopEnd) ∧
      (loopEnd = .written
          (Function.update fs temp (some (.regular (data.take size) perms uid gid))) ∨
        ∃ n, n ≤ size ∧ loopEnd = .writeFailed
          (Function.update fs temp (some (.regular (data.take n) perms uid gid)))) := by
  have loop := writeLoop_ends valid 0 (Nat.zero_le size)
    (show fs temp = some (.regular (data.take 0) perms uid gid) by simpa using empty)
  rw [Nat.sub_zero] at loop
  have ends : writeLoop write data size temp (size + 1) 0 0 fs ≠ .stuck := by
    rcases loop with ended | ⟨n, -, ended⟩ <;> simp [ended]
  refine ⟨_, fun fuel more => ?_, loop⟩
  obtain ⟨extra, rfl⟩ : ∃ extra, fuel = size + 1 + extra := ⟨fuel - (size + 1), by omega⟩
  exact writeLoop_fuel_add ends extra

theorem writeToTemp_spec {o : AtomicOutcomes} {fs : Fs} {temp : Path} (path : FilePath)
    (data : List UInt8) (size : Nat) (perms : Mode) (uid gid : Nat)
    (valid : ∀ k r n, 0 < r → o.write k r = some n → 0 < n ∧ n ≤ r) (fresh : fs temp = none) :
    ∃ result, (∀ fuel, size < fuel → writeToTemp o fuel
        (Function.update fs temp (some (.regular [] perms uid gid))) temp path data size =
          some result) ∧
      (result = (false, fs) ∨
        result = (true, Function.update fs path.value (some (.regular (data.take size) perms uid gid)))) := by
  obtain ⟨loopEnd, stable, loop⟩ := writeLoop_from_empty data size valid
    (Function.update_same temp (some (.regular [] perms uid gid)) fs)
  have stable' := stable (size + 1) (Nat.lt_succ_self size)
  have runs : ∀ fuel, size < fuel →
      writeToTemp o fuel (Function.update fs temp (some (.regular [] perms uid gid))) temp path data size =
        writeToTemp o (size + 1) (Function.update fs temp (some (.regular [] perms uid gid))) temp path
          data size := fun fuel more => by
    simp only [writeToTemp, stable fuel more, stable']
  have removed : Function.update fs temp none = fs := Function.update_eq_self_iff.mpr fresh.symm
  have shape : writeToTemp o (size + 1) (Function.update fs temp (some (.regular [] perms uid gid)))
        temp path data size = some (false, fs) ∨
      writeToTemp o (size + 1) (Function.update fs temp (some (.regular [] perms uid gid))) temp path
        data size = some (true, Function.update fs path.value
          (some (.regular (data.take size) perms uid gid))) := by
    simp only [writeToTemp, stable']
    rcases loop with rfl | ⟨n, -, rfl⟩
    · simp only [Function.update_idem]
      split
      · exact .inl (by rw [unlink_update_regular fresh])
      · split
        · exact .inl (by rw [unlink_update_regular fresh])
        · split
          · exact .inl (by rw [unlink_update_regular fresh])
          · rename_i renamed
            obtain ⟨entry, found, rfl⟩ := rename_ok renamed
            simp only [Function.update_same, Option.some.injEq] at found
            subst found
            rw [Function.update_idem, removed]
            exact .inr rfl
    · simp [unlink_update_regular fresh]
  rcases shape with ended | ended
  · exact ⟨_, fun fuel more => (runs fuel more).trans ended, .inl rfl⟩
  · exact ⟨_, fun fuel more => (runs fuel more).trans ended, .inr rfl⟩

-- system calls that all succeed, each `write` writing all it is asked, after six zero random
-- bytes
def succeedingOutcomes : AtomicOutcomes where
  randBytes := fun _ => 0
  mkdirFails := fun _ => false
  openFails := false
  write := fun _ r => some r
  fdatasyncFails := false
  closeFails := false
  renameFails := false

/-- When every `write` writes between one byte and all it was asked for, and nothing but a
directory is at the temporary name `path.<suffix>`, `WriteToFileAtomic` ends for any fuel beyond
`size`. When it returns true `path` holds `data[0, size)`, and when it returns false `path` is as
it was; every other path is as it was, or is a directory made above `path` where nothing was. -/
theorem writeToFileAtomic_spec {p : Process} {o : AtomicOutcomes} {fs : Fs} {path : FilePath}
    {data : List UInt8} {size : Nat} {mode : Mode}
    (valid : ∀ k r n, 0 < r → o.write k r = some n → 0 < n ∧ n ≤ r)
    (noFileAtTemp : ∀ temp, path.addExtension (getRandomSuffix o.randBytes) = some temp →
      (fs temp.value).all Entry.isDirectory) :
    ∃ ok fs', (∀ fuel, size < fuel →
        writeToFileAtomic p o fuel fs path data size mode = some (ok, fs')) ∧
      (ok = true → ∃ perms uid gid, fs' path.value = some (.regular (data.take size) perms uid gid)) ∧
      (ok = false → fs' path.value = fs path.value) ∧
      ∀ q, q ≠ path.value →
        fs' q = fs q ∨ q ∈ ancestors path.dir ∧ fs q = none ∧ (fs' q).any Entry.isDirectory := by
  obtain ⟨ok₁, fs₁, ensured⟩ : ∃ ok₁ fs₁, ensureDirectory p o.mkdirFails fs path.dir = (ok₁, fs₁) :=
    ⟨_, _, rfl⟩
  have frame := ensureDirectory_frame ensured
  have stays : (false = true → ∃ perms uid gid,
        fs₁ path.value = some (.regular (data.take size) perms uid gid)) ∧
      (false = false → fs₁ path.value = fs path.value) ∧
      ∀ q, q ≠ path.value →
        fs₁ q = fs q ∨ q ∈ ancestors path.dir ∧ fs q = none ∧ (fs₁ q).any Entry.isDirectory :=
    ⟨by simp, fun _ => ensureDirectory_entry ensured rfl, fun q _ => frame q⟩
  cases ok₁
  · exact ⟨false, fs₁, fun fuel _ => by simp only [writeToFileAtomic, ensured], stays⟩
  have suffix := getRandomSuffix_ne o.randBytes
  have notEmpty : (getRandomSuffix o.randBytes).isEmpty = false :=
    Bool.eq_false_iff.mpr fun empty => suffix.1 ((String.isEmpty_iff _).mp empty)
  cases added : path.addExtension (getRandomSuffix o.randBytes) with
  | none =>
    exact ⟨false, fs₁, fun fuel _ => by
      simp only [writeToFileAtomic, ensured, notEmpty, added, Bool.false_eq_true, ite_false], stays⟩
  | some temp =>
    obtain ⟨sameDir, other⟩ := addExtension_sibling suffix.1 suffix.2 added
    cases opened : openExclusive p o.openFails fs₁ temp.value mode with
    | none =>
      have kept : unlink fs₁ temp.value = fs₁ := by
        apply unlink_of_all_isDirectory
        rw [ensureDirectory_entry ensured sameDir]
        exact noFileAtTemp temp added
      exact ⟨false, fs₁, fun fuel _ => by
        simp only [writeToFileAtomic, ensured, notEmpty, added, opened, kept, Bool.false_eq_true,
          ite_false], stays⟩
    | some fs₂ =>
      obtain ⟨fresh, rfl⟩ := openExclusive_ok opened
      obtain ⟨result, runs, shape⟩ := writeToTemp_spec path data size _ _ _ valid fresh
      have ran : ∀ fuel, size < fuel → writeToFileAtomic p o fuel fs path data size mode = some result :=
        fun fuel more => by
          simp only [writeToFileAtomic, ensured, notEmpty, added, opened, Bool.false_eq_true, ite_false]
          exact runs fuel more
      rcases shape with rfl | rfl
      · exact ⟨false, fs₁, ran, stays⟩
      · refine ⟨true, _, ran, fun _ => ⟨_, _, _, Function.update_same _ _ _⟩, by simp, fun q other => ?_⟩
        rw [Function.update_noteq other]
        exact frame q

theorem writeToFileAtomic_spec_empty :
    (∀ k r n, 0 < r → succeedingOutcomes.write k r = some n → 0 < n ∧ n ≤ r) ∧
      (∀ temp, FilePath.addExtension ⟨["tmp"], "state"⟩ (getRandomSuffix succeedingOutcomes.randBytes) =
        some temp → ((fun _ => none : Fs) temp.value).all Entry.isDirectory) ∧
      ∃ ok fs', (∀ fuel, 1 < fuel → writeToFileAtomic ⟨0, 0, 0o022⟩ succeedingOutcomes fuel
          (fun _ => none) ⟨["tmp"], "state"⟩ [7] 1 0o644 = some (ok, fs')) ∧
        (ok = true → ∃ perms uid gid,
          fs' (FilePath.value ⟨["tmp"], "state"⟩) = some (.regular ([7].take 1) perms uid gid)) ∧
        (ok = false → fs' (FilePath.value ⟨["tmp"], "state"⟩) =
          (fun _ => none : Fs) (FilePath.value ⟨["tmp"], "state"⟩)) ∧
        ∀ q, q ≠ FilePath.value ⟨["tmp"], "state"⟩ → fs' q = (fun _ => none : Fs) q ∨
          q ∈ ancestors ["tmp"] ∧ (fun _ => none : Fs) q = none ∧ (fs' q).any Entry.isDirectory := by
  have valid : ∀ k r n, 0 < r → succeedingOutcomes.write k r = some n → 0 < n ∧ n ≤ r := by
    intro k r n positive written
    cases written
    exact ⟨positive, le_rfl⟩
  have noFile : ∀ temp, FilePath.addExtension ⟨["tmp"], "state"⟩
      (getRandomSuffix succeedingOutcomes.randBytes) = some temp →
        ((fun _ => none : Fs) temp.value).all Entry.isDirectory := fun _ _ => rfl
  exact ⟨valid, noFile, writeToFileAtomic_spec valid noFile⟩

-- a directory `/tmp` holding `state.aaaaaa`: the temporary name `WriteToFileAtomic` picks for
-- `/tmp/state` from six zero random bytes
def clashFs : Fs := fun q =>
  if q = ["tmp"] then some (.directory false 0)
  else if q = ["tmp", "state.aaaaaa"] then some (.regular [1] 0o644 0 0) else none

/-- With an entry already at the temporary name, `open(..., O_CREAT | O_EXCL ...)` fails and the
failure path unlinks that entry: a file `WriteToFileAtomic` did not create is removed. -/
theorem writeToFileAtomic_removes_existing_temp :
    getRandomSuffix succeedingOutcomes.randBytes = "aaaaaa" ∧
      clashFs ["tmp", "state.aaaaaa"] = some (.regular [1] 0o644 0 0) ∧
      (writeToFileAtomic ⟨0, 0, 0o022⟩ succeedingOutcomes 2 clashFs ⟨["tmp"], "state"⟩ [7] 1
        0o644).map (fun r => (r.1, r.2 ["tmp", "state.aaaaaa"], r.2 ["tmp", "state"])) =
        some (false, none, none) := by
  decide

end Brillo
