import Mathlib.Logic.Function.Basic
import Mathlib.Data.List.Infix

namespace Brillo

-- a `mode_t`, or the `int` permissions `TouchFile` takes: 32 bits
abbrev Mode := BitVec 32

-- an absolute path as its components from the root, which is `[]`
abbrev Path := List String

/-- What a path names: a regular file with its contents, permission bits, owner and group; a
directory, with its set-group-id bit and group; a symbolic link that does not lead to a
directory; or an entry of another kind that `open` does not block on. Links to directories,
which `base::DirectoryExists` follows, and FIFOs, on which `openat(O_RDONLY)` blocks until a
writer comes, are outside the model. -/
inductive Entry
  | regular (data : List UInt8) (perms : Mode) (uid gid : Nat)
  | directory (setgid : Bool) (gid : Nat)
  | symlink
  | other
  deriving DecidableEq, Repr

def Entry.isDirectory : Entry → Bool
  | .directory .. => true
  | _ => false

def Entry.isRegular : Entry → Bool
  | .regular .. => true
  | _ => false

-- the `fstat` test of `RegularFileOrDelete`: a regular file owned by `uid` and `gid`
def Entry.isRegularOwnedBy (uid gid : Nat) : Entry → Bool
  | .regular _ _ u g => u == uid && g == gid
  | _ => false

/-- The file system: what each path names. Each path names an entry of its own: hard links are
outside the model. -/
abbrev Fs := Path → Option Entry

-- the effective ids a process creates files as, and its umask
structure Process where
  euid : Nat
  egid : Nat
  umask : Mode
  deriving DecidableEq, Repr

-- a `base::FilePath` as its `DirName` and `BaseName`
structure FilePath where
  dir : Path
  base : String
  deriving DecidableEq, Repr

def FilePath.value (path : FilePath) : Path := path.dir ++ [path.base]

-- `base::DirectoryExists`; the root always exists
def directoryExists (fs : Fs) : Path → Bool
  | [] => true
  | dir@(_ :: _) => (fs dir).any Entry.isDirectory

-- whether `open` with `O_CREAT | O_EXCL`, or `mkdir`, can make an entry at `path`: nothing is
-- there, not even a symbolic link, and its directory exists
def creatable (fs : Fs) (path : Path) : Bool :=
  (fs path).isNone && directoryExists fs path.dropLast

-- the group a new entry in `dir` gets, and whether a new directory there is set-group-id: a
-- set-group-id directory hands on its group and the bit, otherwise the group is the process's
def newGroup (p : Process) (fs : Fs) (dir : Path) : Bool × Nat :=
  match fs dir with
  | some (.directory true gid) => (true, gid)
  | _ => (false, p.egid)

-- `mkdir(dir, 0700)`; `fails` is any error other than the ones the file system forces
def mkdir (p : Process) (fails : Bool) (fs : Fs) (dir : Path) : Option Fs :=
  if fails || !creatable fs dir then none
  else some (Function.update fs dir
    (some (.directory (newGroup p fs dir.dropLast).1 (newGroup p fs dir.dropLast).2)))

/-- The loop of `base::CreateDirectory` over `dirs`, the directories to have from the root down:
one that exists is skipped, a missing one made, and the first `mkdir` that fails ends the loop
with false, keeping those made before it. -/
def createDirectoryLoop (p : Process) (mkdirFails : Path → Bool) : List Path → Fs → Bool × Fs
  | [], fs => (true, fs)
  | dir :: dirs, fs =>
    if directoryExists fs dir then createDirectoryLoop p mkdirFails dirs fs
    else match mkdir p (mkdirFails dir) fs dir with
      | some fs => createDirectoryLoop p mkdirFails dirs fs
      | none => (false, fs)

-- the ancestors of `dir` below the root, and `dir` itself, from the root down
def ancestors (dir : Path) : List Path :=
  (List.range dir.length).map fun i => dir.take (i + 1)

def createDirectory (p : Process) (mkdirFails : Path → Bool) (fs : Fs) (dir : Path) : Bool × Fs :=
  createDirectoryLoop p mkdirFails (ancestors dir) fs

-- the opening of `WriteToFile` and `WriteToFileAtomic`: `base::CreateDirectory(dir)` unless
-- `base::DirectoryExists(dir)`
def ensureDirectory (p : Process) (mkdirFails : Path → Bool) (fs : Fs) (dir : Path) : Bool × Fs :=
  if directoryExists fs dir then (true, fs) else createDirectory p mkdirFails fs dir

-- what `openat(path, O_RDONLY | O_CLOEXEC | O_NOFOLLOW)` gives: a descriptor, `ELOOP` for a
-- symbolic link, or another error (`ENOENT` when nothing is there)
inductive OpenNoFollow
  | fd
  | eloop
  | error
  deriving DecidableEq, Repr

def openNoFollow (fails : Bool) (fs : Fs) (path : Path) : OpenNoFollow :=
  match fs path with
  | none => .error
  | some .symlink => .eloop
  | some _ => if fails then .error else .fd

-- `open(path, O_CREAT | O_EXCL | ..., mode)`: an empty regular file owned by the process, with
-- `mode` less the umask
def openExclusive (p : Process) (fails : Bool) (fs : Fs) (path : Path) (mode : Mode) : Option Fs :=
  if fails || !creatable fs path then none
  else some (Function.update fs path
    (some (.regular [] (mode &&& ~~~p.umask &&& 0o7777) p.euid (newGroup p fs path.dropLast).2)))

/-- `creat(path, 0666)`, that is `open(path, O_CREAT | O_WRONLY | O_TRUNC, 0666)`, on anything but
a symbolic link: a regular file is emptied and keeps its mode and owner; where nothing is, a file
is made as `openExclusive` makes it; a directory is an error; an entry of another kind is opened
as it is. -/
def creat (p : Process) (fails : Bool) (fs : Fs) (path : Path) : Option Fs :=
  match fs path with
  | none => openExclusive p fails fs path 0o666
  | some (.regular _ perms uid gid) =>
    if fails then none else some (Function.update fs path (some (.regular [] perms uid gid)))
  | some (.directory ..) => none
  | some _ => if fails then none else some fs

-- the mode and owner of the file `creat` leaves at a path that held `before`: those of the
-- regular file that was there, or, where nothing was, `0666` less the umask and the process's
-- user
def CreatOwner (p : Process) (before : Option Entry) (perms : Mode) (uid gid : Nat) : Prop :=
  (∀ old m u g, before = some (.regular old m u g) → perms = m ∧ uid = u ∧ gid = g) ∧
    (before = none → perms = 0o666 &&& ~~~p.umask &&& 0o7777 ∧ uid = p.euid)

def unlink (fs : Fs) (path : Path) : Fs :=
  if (fs path).any Entry.isDirectory then fs else Function.update fs path none

-- `write` on a descriptor of the regular file at `path`, whose offset is its length
def appendFile (fs : Fs) (path : Path) (bytes : List UInt8) : Fs :=
  match fs path with
  | some (.regular data perms uid gid) =>
    Function.update fs path (some (.regular (data ++ bytes) perms uid gid))
  | _ => fs

def fchmod (fs : Fs) (path : Path) (mode : Mode) : Fs :=
  match fs path with
  | some (.regular data _ uid gid) =>
    Function.update fs path (some (.regular data (mode &&& 0o7777) uid gid))
  | _ => fs

-- `rename(src, dst)` of a regular file: fails when nothing is at `src`, when a directory is at
-- `dst`, or for any other error `fails` stands for
def rename (fails : Bool) (fs : Fs) (src dst : Path) : Option Fs :=
  match fs src with
  | none => none
  | some entry =>
    if fails || (fs dst).any Entry.isDirectory then none
    else some (Function.update (Function.update fs src none) dst (some entry))

/-- `base::DeleteFile(path, recursive)`: true when nothing is left at `path`; with `recursive`
everything below `path` goes too. One that fails leaves `path` in place, and a recursive one may
first have removed the entries below `path` that `removed` names. -/
def deleteFile (fails : Bool) (removed : Path → Bool) (fs : Fs) (path : Path) (recursive : Bool) :
    Bool × Fs :=
  match fs path with
  | none => (true, fs)
  | some _ =>
    if fails then
      (false, if recursive then
        fun q => if path.isPrefixOf q ∧ q ≠ path ∧ removed q then none else fs q else fs)
    else if recursive then (true, fun q => if path.isPrefixOf q then none else fs q)
    else (true, Function.update fs path none)

section Lemmas

variable {p : Process} {fs fs' : Fs}

theorem mkdir_ok {fails : Bool} {dir : Path} (made : mkdir p fails fs dir = some fs') :
    fs dir = none ∧ ∃ setgid gid, fs' = Function.update fs dir (some (.directory setgid gid)) := by
  unfold mkdir creatable at made
  split at made
  · cases made
  · cases made
    exact ⟨by simp_all, _, _, rfl⟩

theorem createDirectoryLoop_frame {mkdirFails : Path → Bool} {dirs : List Path} {ok : Bool}
    (run : createDirectoryLoop p mkdirFails dirs fs = (ok, fs')) (q : Path) :
    fs' q = fs q ∨ q ∈ dirs ∧ fs q = none ∧ (fs' q).any Entry.isDirectory := by
  induction dirs generalizing fs with
  | nil =>
    cases run
    exact .inl rfl
  | cons dir dirs ih =>
    simp only [createDirectoryLoop] at run
    split at run
    · rcases ih run with same | ⟨mem, none, made⟩
      · exact .inl same
      · exact .inr ⟨List.mem_cons_of_mem _ mem, none, made⟩
    · split at run
      · rename_i made
        obtain ⟨absent, setgid, gid, rfl⟩ := mkdir_ok made
        rcases ih run with same | ⟨mem, none, isDirectory⟩ <;> by_cases here : q = dir
        · subst here
          exact .inr ⟨List.mem_cons_self _ _, absent, by simp [same, Entry.isDirectory]⟩
        · exact .inl (by simp [same, here])
        · subst here
          exact .inr ⟨List.mem_cons_self _ _, absent, isDirectory⟩
        · exact .inr ⟨List.mem_cons_of_mem _ mem, by simpa [here] using none, isDirectory⟩
      · cases run
        exact .inl rfl

theorem ensureDirectory_frame {mkdirFails : Path → Bool} {dir : Path} {ok : Bool}
    (ensured : ensureDirectory p mkdirFails fs dir = (ok, fs')) (q : Path) :
    fs' q = fs q ∨ q ∈ ancestors dir ∧ fs q = none ∧ (fs' q).any Entry.isDirectory := by
  unfold ensureDirectory at ensured
  split at ensured
  · cases ensured
    exact .inl rfl
  · exact createDirectoryLoop_frame ensured q

theorem openExclusive_ok {fails : Bool} {path : Path} {mode : Mode}
    (opened : openExclusive p fails fs path mode = some fs') :
    fs path = none ∧ fs' = Function.update fs path
      (some (.regular [] (mode &&& ~~~p.umask &&& 0o7777) p.euid (newGroup p fs path.dropLast).2)) := by
  unfold openExclusive creatable at opened
  split at opened
  · cases opened
  · cases opened
    exact ⟨by simp_all, rfl⟩

theorem unlink_of_all_isDirectory {path : Path} (kept : (fs path).all Entry.isDirectory) :
    unlink fs path = fs := by
  unfold unlink
  cases found : fs path with
  | none => simp [← found]
  | some entry => simp_all

theorem unlink_update_regular {path : Path} {data : List UInt8} {perms : Mode} {uid gid : Nat}
    (fresh : fs path = none) :
    unlink (Function.update fs path (some (.regular data perms uid gid))) path = fs := by
  simp [unlink, Entry.isDirectory, ← fresh]

theorem appendFile_regular {path : Path} {data bytes : List UInt8} {perms : Mode} {uid gid : Nat}
    (found : fs path = some (.regular data perms uid gid)) :
    appendFile fs path bytes = Function.update fs path (some (.regular (data ++ bytes) perms uid gid)) := by
  simp [appendFile, found]

theorem rename_ok {fails : Bool} {src dst : Path} (renamed : rename fails fs src dst = some fs') :
    ∃ entry, fs src = some entry ∧
      fs' = Function.update (Function.update fs src none) dst (some entry) := by
  unfold rename at renamed
  split at renamed
  · cases renamed
  · split at renamed
    · cases renamed
    · cases renamed
      exact ⟨_, ‹_›, rfl⟩

theorem fchmod_regular {path : Path} {data : List UInt8} {perms mode : Mode} {uid gid : Nat}
    (found : fs path = some (.regular data perms uid gid)) :
    fchmod fs path mode = Function.update fs path (some (.regular data (mode &&& 0o7777) uid gid)) := by
  simp [fchmod, found]

theorem ne_of_isPrefixOf_eq_false {path q : Path} (outside : path.isPrefixOf q = false) :
    q ≠ path := by
  rintro rfl
  simp [List.isPrefixOf_iff_prefix.mpr (List.prefix_refl q)] at outside

theorem deleteFile_frame {fails recursive : Bool} {removed : Path → Bool} {path q : Path}
    (outside : path.isPrefixOf q = false) : (deleteFile fails removed fs path recursive).2 q = fs q := by
  unfold deleteFile
  split
  · rfl
  · split_ifs <;> simp [outside, ne_of_isPrefixOf_eq_false outside]

theorem fchmod_other {path q : Path} {mode : Mode} (other : q ≠ path) : fchmod fs path mode q = fs q := by
  unfold fchmod
  cases fs path with
  | none => rfl
  | some entry => cases entry <;> simp [other]

theorem appendFile_other {path q : Path} (bytes : List UInt8) (other : q ≠ path) :
    appendFile fs path bytes q = fs q := by
  unfold appendFile
  cases fs path with
  | none => rfl
  | some entry => cases entry <;> simp [Function.update_noteq other]

theorem unlink_other {path q : Path} (other : q ≠ path) : unlink fs path q = fs q := by
  unfold unlink
  split <;> simp [Function.update_noteq other]

theorem deleteFile_entry {fails recursive : Bool} {removed : Path → Bool} {path : Path} :
    (deleteFile fails removed fs path recursive).2 path = fs path ∨
      (deleteFile fails removed fs path recursive).2 path = none := by
  unfold deleteFile
  split
  · exact .inl rfl
  · split_ifs <;> simp [List.isPrefixOf_iff_prefix.mpr (List.prefix_refl path)]

theorem ancestors_length {dir q : Path} (mem : q ∈ ancestors dir) : q.length ≤ dir.length := by
  obtain ⟨i, -, rfl⟩ := List.mem_map.mp mem
  exact List.length_take_le' _ _

theorem value_not_mem_ancestors (path : FilePath) : path.value ∉ ancestors path.dir := fun mem => by
  have := ancestors_length mem
  simp only [FilePath.value, List.length_append, List.length_singleton] at this
  omega

theorem newGroup_update_other {dir q : Path} (other : dir ≠ q) (v : Option Entry) :
    newGroup p (Function.update fs q v) dir = newGroup p fs dir := by
  simp [newGroup, Function.update_noteq other]

theorem FilePath.dir_ne_value (path : FilePath) : path.dir ≠ path.value := fun same => by
  have := congrArg List.length same
  simp [FilePath.value] at this

theorem ensureDirectory_entry {mkdirFails : Path → Bool} {dir : Path} {ok : Bool}
    (ensured : ensureDirectory p mkdirFails fs dir = (ok, fs')) {path : FilePath} (inDir : path.dir = dir) :
    fs' path.value = fs path.value :=
  (ensureDirectory_frame ensured _).resolve_right fun ⟨mem, _⟩ =>
    value_not_mem_ancestors path (inDir ▸ mem)

theorem creat_ok {fails : Bool} {path : Path} (regular : (fs path).all Entry.isRegular)
    (opened : creat p fails fs path = some fs') :
    ∃ perms uid gid, fs' = Function.update fs path (some (.regular [] perms uid gid)) ∧
      CreatOwner p (fs path) perms uid gid := by
  unfold creat at opened
  cases found : fs path with
  | none =>
    rw [found] at opened
    obtain ⟨-, rfl⟩ := openExclusive_ok opened
    exact ⟨_, _, _, rfl, by simp, fun _ => ⟨rfl, rfl⟩⟩
  | some entry =>
    cases entry with
    | regular old m u g =>
      cases fails <;> simp only [found, ite_true, ite_false, Bool.false_eq_true, reduceCtorEq,
        Option.some.injEq] at opened
      subst opened
      exact ⟨_, _, _, rfl, by simp, by simp⟩
    | directory => simp [found] at opened
    | symlink | other => simp [found, Entry.isRegular] at regular

theorem FilePath.value_dropLast (path : FilePath) : path.value.dropLast = path.dir := by
  simp [FilePath.value]

end Lemmas

end Brillo
