import Libbrillo.FileUtils.FileSystem
import Mathlib.Data.BitVec

namespace Brillo

def kPermissions600 : Mode := 0o600

def kPermissions777 : Mode := 0o777

inductive RegularFileOrDeleteResult
  | kFailure
  | kRegularFile
  | kEmpty
  deriving DecidableEq, Repr

/-- What the system calls of one `TouchFile` call return: whether `openat(path, O_RDONLY |
O_NOFOLLOW)` fails on an entry that is not a symbolic link, whether `fstat` fails, whether
`base::DeleteFile(path, true)` fails and what below `path` it removed before failing, which
`mkdir`s fail, whether the creating `openat` fails for a reason other than an entry at `path`,
whether `fchmod` fails, and whether the `base::DeleteFile(path, false)` after it fails. -/
structure TouchOutcomes where
  openFails : Bool
  fstatFails : Bool
  deleteFails : Bool
  deletedBeforeFailure : Path → Bool
  mkdirFails : Path → Bool
  createFails : Bool
  fchmodFails : Bool
  cleanupFails : Bool

def regularFileOrDelete (o : TouchOutcomes) (fs : Fs) (path : Path) (uid gid : Nat) :
    RegularFileOrDeleteResult × Fs :=
  let scopedFd := openNoFollow o.openFails fs path
  let pathNotEmpty := scopedFd == .eloop || scopedFd == .fd
  if scopedFd == .fd && !o.fstatFails && (fs path).any (Entry.isRegularOwnedBy uid gid) then
    (.kRegularFile, fs)
  else if pathNotEmpty then
    match deleteFile o.deleteFails o.deletedBeforeFailure fs path true with
    | (false, fs) => (.kFailure, fs)
    | (true, fs) => (.kEmpty, fs)
  else (.kEmpty, fs)

-- `TouchFileInternal(path, uid, gid, fd_out)`: whether it succeeded, the file system after it,
-- and whether it created the file, which is when `fd_out` gets a descriptor
def touchFileInternal (p : Process) (o : TouchOutcomes) (fs : Fs) (path : FilePath)
    (uid gid : Nat) : Bool × Fs × Bool :=
  match regularFileOrDelete o fs path.value uid gid with
  | (.kFailure, fs) => (false, fs, false)
  | (.kRegularFile, fs) => (true, fs, false)
  | (.kEmpty, fs) =>
    match createDirectory p o.mkdirFails fs path.dir with
    | (false, fs) => (false, fs, false)
    | (true, fs) =>
      match openExclusive p o.createFails fs path.value kPermissions600 with
      | none => (false, fs, false)
      | some fs => (true, fs, true)

def touchFile (p : Process) (o : TouchOutcomes) (fs : Fs) (path : FilePath)
    (newFilePermissions : Mode) (uid gid : Nat) : Bool × Fs :=
  if newFilePermissions &&& ~~~kPermissions777 ≠ 0 then (false, fs)
  else match touchFileInternal p o fs path uid gid with
    | (false, fs, _) => (false, fs)
    | (true, fs, false) => (true, fs)
    | (true, fs, true) =>
      if o.fchmodFails then (false, (deleteFile o.cleanupFails (fun _ => false) fs path.value false).2)
      else (true, fchmod fs path.value newFilePermissions)

-- `TouchFile(path)`: as the process, with permissions `0600`
def touchFileDefault (p : Process) (o : TouchOutcomes) (fs : Fs) (path : FilePath) : Bool × Fs :=
  touchFile p o fs path kPermissions600 p.euid p.egid

section Lemmas

variable {p : Process} {o : TouchOutcomes} {fs fs' : Fs}

theorem legal_permissions {mode : Mode} (legal : mode &&& ~~~kPermissions777 = 0) :
    mode &&& 0o7777 = mode := by
  have within : ∀ i : Fin 32, kPermissions777.getLsbD i = true →
      (0o7777 : Mode).getLsbD i = true := by decide
  apply BitVec.eq_of_getLsbD_eq
  intro i
  have bit := congrArg (fun v => v.getLsbD i) legal
  simp only [BitVec.getLsbD_and, BitVec.getLsbD_not, i.isLt, decide_True, Bool.true_and] at bit ⊢
  cases set : mode.getLsbD i
  · rfl
  · simp only [set, Bool.true_and] at bit
    exact within i (by simpa using bit)

theorem regularFileOrDelete_regularFile {path : Path} {uid gid : Nat}
    (found : regularFileOrDelete o fs path uid gid = (.kRegularFile, fs')) :
    (fs path).any (Entry.isRegularOwnedBy uid gid) ∧ fs' = fs := by
  obtain ⟨ok, fs₁, deleted⟩ :
      ∃ ok fs₁, deleteFile o.deleteFails o.deletedBeforeFailure fs path true = (ok, fs₁) := ⟨_, _, rfl⟩
  simp only [regularFileOrDelete, deleted] at found
  cases ok <;> split_ifs at found with checks <;> cases found
  all_goals
    simp only [Bool.and_eq_true] at checks
    exact ⟨checks.2, rfl⟩

theorem regularFileOrDelete_owned {path : Path} {uid gid : Nat}
    (owned : (fs path).any (Entry.isRegularOwnedBy uid gid)) (fstat : o.fstatFails = false) :
    regularFileOrDelete o fs path uid gid = (.kRegularFile, fs) ∨
      regularFileOrDelete o fs path uid gid = (.kEmpty, fs) := by
  cases found : fs path with
  | none => simp [found] at owned
  | some entry =>
    rw [found] at owned
    cases entry with
    | regular data perms u g =>
      cases fails : o.openFails <;>
        simp [regularFileOrDelete, openNoFollow, found, fails, fstat, owned]
    | _ => simp [Entry.isRegularOwnedBy] at owned

theorem touchFileInternal_ok {path : FilePath} {uid gid : Nat} {created : Bool}
    (touched : touchFileInternal p o fs path uid gid = (true, fs', created)) :
    (created = false ∧ (fs path.value).any (Entry.isRegularOwnedBy uid gid) ∧ fs' = fs) ∨
      created = true ∧
        ∃ perms, fs' path.value = some (.regular [] perms p.euid (newGroup p fs' path.dir).2) := by
  unfold touchFileInternal at touched
  split at touched
  · cases touched
  · rename_i result
    cases touched
    exact .inl ⟨rfl, regularFileOrDelete_regularFile result⟩
  · split at touched
    · cases touched
    · split at touched
      · cases touched
      · rename_i opened
        cases touched
        obtain ⟨-, rfl⟩ := openExclusive_ok opened
        refine .inr ⟨rfl, kPermissions600 &&& ~~~p.umask &&& 0o7777, ?_⟩
        rw [newGroup_update_other (FilePath.dir_ne_value path), FilePath.value_dropLast,
          Function.update_same]

theorem touchFileInternal_owned {path : FilePath} {uid gid : Nat}
    (owned : (fs path.value).any (Entry.isRegularOwnedBy uid gid)) (fstat : o.fstatFails = false) :
    (touchFileInternal p o fs path uid gid).2.2 = false ∧
      (touchFileInternal p o fs path uid gid).2.1 path.value = fs path.value := by
  unfold touchFileInternal
  rcases regularFileOrDelete_owned owned fstat with kept | kept <;> rw [kept]
  · exact ⟨rfl, rfl⟩
  obtain ⟨ok, fs₁, made⟩ : ∃ ok fs₁, createDirectory p o.mkdirFails fs path.dir = (ok, fs₁) :=
    ⟨_, _, rfl⟩
  have keeps : fs₁ path.value = fs path.value :=
    (createDirectoryLoop_frame made _).resolve_right fun ⟨mem, _⟩ => value_not_mem_ancestors path mem
  have notCreatable : openExclusive p o.createFails fs₁ path.value kPermissions600 = none := by
    cases found : fs path.value with
    | none => simp [found] at owned
    | some entry => simp [openExclusive, creatable, keeps, found]
  cases ok <;> simp [made, notCreatable, keeps]

theorem regularFileOrDelete_frame {path q : Path} {uid gid : Nat}
    (outside : path.isPrefixOf q = false) : (regularFileOrDelete o fs path uid gid).2 q = fs q := by
  obtain ⟨ok, fs₁, deleted⟩ :
      ∃ ok fs₁, deleteFile o.deleteFails o.deletedBeforeFailure fs path true = (ok, fs₁) := ⟨_, _, rfl⟩
  have kept : (deleteFile o.deleteFails o.deletedBeforeFailure fs path true).2 q = fs q :=
    deleteFile_frame outside
  rw [deleted] at kept
  simp only [regularFileOrDelete, deleted]
  cases ok <;> split_ifs <;> first | rfl | exact kept

theorem touchFileInternal_frame {path : FilePath} {q : Path} {uid gid : Nat}
    (outside : path.value.isPrefixOf q = false) :
    (touchFileInternal p o fs path uid gid).2.1 q = fs q ∨ q ∈ ancestors path.dir ∧ fs q = none ∧
      ((touchFileInternal p o fs path uid gid).2.1 q).any Entry.isDirectory := by
  obtain ⟨result, fs₁, removed⟩ : ∃ result fs₁,
      regularFileOrDelete o fs path.value uid gid = (result, fs₁) := ⟨_, _, rfl⟩
  have kept₁ : (regularFileOrDelete o fs path.value uid gid).2 q = fs q :=
    regularFileOrDelete_frame outside
  rw [removed] at kept₁
  dsimp only at kept₁
  obtain ⟨ok, fs₂, made⟩ : ∃ ok fs₂, createDirectory p o.mkdirFails fs₁ path.dir = (ok, fs₂) :=
    ⟨_, _, rfl⟩
  have made₂ := createDirectoryLoop_frame made q
  rw [kept₁] at made₂
  have other := ne_of_isPrefixOf_eq_false outside
  unfold touchFileInternal
  rw [removed]
  cases result
  · exact .inl kept₁
  · exact .inl kept₁
  cases ok <;> simp only [made]
  · exact made₂
  cases opened : openExclusive p o.createFails fs₂ path.value kPermissions600 with
  | none => exact made₂
  | some fs₃ =>
    obtain ⟨-, rfl⟩ := openExclusive_ok opened
    simpa only [Function.update_noteq other] using made₂

end Lemmas

/-- `TouchFile` returning true leaves at `path` either the regular file owned by `uid` and `gid`
that was there, changing nothing, or a new empty regular file with permission bits
`new_file_permissions`, owned by the process's effective uid and by its effective gid (the
parent's group when the parent is set-group-id), whatever `uid` and `gid` are. A regular file
already owned by `uid` and `gid` is never changed, unless `fstat` on it fails. -/
theorem touchFile_ownership (p : Process) (o : TouchOutcomes) (fs : Fs) (path : FilePath)
    (newFilePermissions : Mode) (uid gid : Nat) :
    (∀ fs', touchFile p o fs path newFilePermissions uid gid = (true, fs') →
      ((fs path.value).any (Entry.isRegularOwnedBy uid gid) ∧ fs' = fs) ∨
        fs' path.value = some (.regular [] newFilePermissions p.euid (newGroup p fs' path.dir).2)) ∧
    ((fs path.value).any (Entry.isRegularOwnedBy uid gid) → o.fstatFails = false →
      (touchFile p o fs path newFilePermissions uid gid).2 path.value = fs path.value) := by
  refine ⟨fun fs' touched => ?_, fun owned fstat => ?_⟩
  · unfold touchFile at touched
    split at touched
    · cases touched
    rename_i legal
    simp only [not_not] at legal
    split at touched
    · cases touched
    · rename_i internal
      cases touched
      rcases touchFileInternal_ok internal with ⟨-, owned, rfl⟩ | ⟨⟨⟩, -⟩
      exact .inl ⟨owned, rfl⟩
    · rename_i internal
      split at touched
      · cases touched
      cases touched
      rcases touchFileInternal_ok internal with ⟨⟨⟩, -⟩ | ⟨-, perms, file⟩
      refine .inr ?_
      rw [fchmod_regular file, Function.update_same,
        newGroup_update_other (FilePath.dir_ne_value path), legal_permissions legal]
  · obtain ⟨notCreated, keeps⟩ := touchFileInternal_owned (p := p) owned fstat
    unfold touchFile
    split
    · rfl
    split <;> rename_i internal <;> rw [internal] at notCreated keeps
    · exact keeps
    · exact keeps
    · cases notCreated

-- outcomes of a `TouchFile` call whose system calls all succeed
def succeedingTouch : TouchOutcomes where
  openFails := false
  fstatFails := false
  deleteFails := false
  deletedBeforeFailure := fun _ => false
  mkdirFails := fun _ => false
  createFails := false
  fchmodFails := false
  cleanupFails := false

-- `/f` holding a file owned by user and group `1`
def ownedFs : Fs := fun q => if q = ["f"] then some (.regular [5] 0o600 1 1) else none

theorem touchFile_ownership_owned :
    touchFile ⟨0, 0, 0o022⟩ succeedingTouch ownedFs ⟨[], "f"⟩ 0o640 1 1 = (true, ownedFs) ∧
      (ownedFs (FilePath.value ⟨[], "f"⟩)).any (Entry.isRegularOwnedBy 1 1) ∧
      succeedingTouch.fstatFails = false ∧
      (∀ fs', touchFile ⟨0, 0, 0o022⟩ succeedingTouch ownedFs ⟨[], "f"⟩ 0o640 1 1 = (true, fs') →
        ((ownedFs (FilePath.value ⟨[], "f"⟩)).any (Entry.isRegularOwnedBy 1 1) ∧ fs' = ownedFs) ∨
          fs' (FilePath.value ⟨[], "f"⟩) =
            some (.regular [] 0o640 0 (newGroup ⟨0, 0, 0o022⟩ fs' []).2)) ∧
      ((ownedFs (FilePath.value ⟨[], "f"⟩)).any (Entry.isRegularOwnedBy 1 1) →
        succeedingTouch.fstatFails = false →
        (touchFile ⟨0, 0, 0o022⟩ succeedingTouch ownedFs ⟨[], "f"⟩ 0o640 1 1).2
          (FilePath.value ⟨[], "f"⟩) = ownedFs (FilePath.value ⟨[], "f"⟩)) :=
  ⟨rfl, rfl, rfl, touchFile_ownership _ _ _ _ _ _ _⟩

/-- Run by root for user and group `1`, `TouchFile` creates the file, returns true, and the
file is root's. -/
theorem touchFile_creates_as_process :
    (touchFile ⟨0, 0, 0o022⟩ succeedingTouch (fun _ => none) ⟨[], "f"⟩ 0o640 1 1).1 = true ∧
      (touchFile ⟨0, 0, 0o022⟩ succeedingTouch (fun _ => none) ⟨[], "f"⟩ 0o640 1 1).2 ["f"] =
        some (.regular [] 0o640 0 0) := by
  decide

/-- `TouchFile` changes nothing but `path` and what is below it (a directory tree it deletes):
every other path is as it was or is a directory it made above `path` where nothing was. A
symbolic link at `path` is replaced, never followed. -/
theorem touchFile_frame (p : Process) (o : TouchOutcomes) (fs : Fs) (path : FilePath)
    (newFilePermissions : Mode) (uid gid : Nat) (q : Path) (outside : path.value.isPrefixOf q = false) :
    (touchFile p o fs path newFilePermissions uid gid).2 q = fs q ∨
      q ∈ ancestors path.dir ∧ fs q = none ∧
        ((touchFile p o fs path newFilePermissions uid gid).2 q).any Entry.isDirectory := by
  have kept := @touchFileInternal_frame p o fs path q uid gid outside
  have transfer : ∀ {f g : Fs}, g q = f q →
      (f q = fs q ∨ q ∈ ancestors path.dir ∧ fs q = none ∧ (f q).any Entry.isDirectory) →
        g q = fs q ∨ q ∈ ancestors path.dir ∧ fs q = none ∧ (g q).any Entry.isDirectory :=
    fun same => by rw [same]; exact id
  have other := ne_of_isPrefixOf_eq_false outside
  unfold touchFile
  split
  · exact .inl rfl
  split <;> rename_i internal <;> rw [internal] at kept
  · exact kept
  · exact kept
  split
  · exact transfer (deleteFile_frame outside) kept
  · exact transfer (fchmod_other other) kept

-- `/d` holding a symbolic link `link`, and a file `/target`
def linkFs : Fs := fun q =>
  if q = ["d"] then some (.directory false 0)
  else if q = ["d", "link"] then some .symlink
  else if q = ["target"] then some (.regular [1] 0o644 0 0) else none

theorem touchFile_frame_symlink :
    (FilePath.value ⟨["d"], "link"⟩).isPrefixOf ["target"] = false ∧
      ((touchFile ⟨0, 0, 0o022⟩ succeedingTouch linkFs ⟨["d"], "link"⟩ 0o600 0 0).2 ["target"] =
          linkFs ["target"] ∨
        ["target"] ∈ ancestors ["d"] ∧ linkFs ["target"] = none ∧
          ((touchFile ⟨0, 0, 0o022⟩ succeedingTouch linkFs ⟨["d"], "link"⟩ 0o600 0 0).2
            ["target"]).any Entry.isDirectory) :=
  ⟨by decide, touchFile_frame _ _ _ _ _ _ _ _ (by decide)⟩

end Brillo
