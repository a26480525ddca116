import Libbrillo.FileUtils.Observation.Loops
import Libbrillo.FileUtils.TouchFile

namespace Brillo

section TouchFile

variable {p : Process} {o : TouchOutcomes} {fs : Fs}

/-- What `TouchFile` may show at `path`, which held `before`, until it sets the permissions it
was asked for: what was there, nothing, or the empty file it creates with `kPermissions600` less
the umask, which only the process's user may open. -/
def TouchShown (p : Process) (before shown : Option Entry) : Prop :=
  shown = before ∨ shown = none ∨
    ∃ gid, shown = some (.regular [] (kPermissions600 &&& ~~~p.umask &&& 0o7777) p.euid gid)

theorem TouchShown.of_entry {p : Process} {before shown : Option Entry}
    (entry : shown = before ∨ shown = none) : TouchShown p before shown :=
  entry.elim .inl (.inr ∘ .inl)

-- `RegularFileOrDelete(path, uid, gid)`: the file system after `base::DeleteFile(path, true)`,
-- when it calls it
def regularFileOrDeleteStates (o : TouchOutcomes) (fs : Fs) (path : Path) (uid gid : Nat) :
    List Fs :=
  let scopedFd := openNoFollow o.openFails fs path
  let pathNotEmpty := scopedFd == .eloop || scopedFd == .fd
  if scopedFd == .fd && !o.fstatFails && (fs path).any (Entry.isRegularOwnedBy uid gid) then []
  else if pathNotEmpty then [(deleteFile o.deleteFails o.deletedBeforeFailure fs path true).2]
  else []

-- `TouchFileInternal(path, uid, gid, fd_out)`: the file system after each system call that may
-- change it
def touchFileInternalStates (p : Process) (o : TouchOutcomes) (fs : Fs) (path : FilePath)
    (uid gid : Nat) : List Fs :=
  let deleted := regularFileOrDeleteStates o fs path.value uid gid
  match regularFileOrDelete o fs path.value uid gid with
  | (.kFailure, _) | (.kRegularFile, _) => deleted
  | (.kEmpty, fs) =>
    let made := deleted ++ createDirectoryStates p o.mkdirFails fs path.dir
    match createDirectory p o.mkdirFails fs path.dir with
    | (false, _) => made
    | (true, fs) =>
      match openExclusive p o.createFails fs path.value kPermissions600 with
      | none => made
      | some fs => made ++ [fs]

/-- `TouchFile(path, new_file_permissions, uid, gid)`: the states `touchFileInternalStates`
lists, then the file system after `fchmod`, or after the `base::DeleteFile(path, false)` that
follows a failed one. -/
def touchFileStates (p : Process) (o : TouchOutcomes) (fs : Fs) (path : FilePath)
    (newFilePermissions : Mode) (uid gid : Nat) : List Fs :=
  if newFilePermissions &&& ~~~kPermissions777 ≠ 0 then []
  else
    let touched := touchFileInternalStates p o fs path uid gid
    match touchFileInternal p o fs path uid gid with
    | (false, _, _) | (true, _, false) => touched
    | (true, fs, true) =>
      if o.fchmodFails then
        touched ++ [(deleteFile o.cleanupFails (fun _ => false) fs path.value false).2]
      else touched ++ [fchmod fs path.value newFilePermissions]

theorem regularFileOrDelete_last {path : Path} {uid gid : Nat} :
    (regularFileOrDeleteStates o fs path uid gid).getLastD fs =
      (regularFileOrDelete o fs path uid gid).2 := by
  obtain ⟨ok, fs₁, deleted⟩ :
      ∃ ok fs₁, deleteFile o.deleteFails o.deletedBeforeFailure fs path true = (ok, fs₁) := ⟨_, _, rfl⟩
  simp only [regularFileOrDeleteStates, regularFileOrDelete, deleted]
  cases ok <;> split_ifs <;> rfl

theorem regularFileOrDeleteStates_entry {path : Path} {uid gid : Nat} {s : Fs}
    (listed : s ∈ regularFileOrDeleteStates o fs path uid gid) :
    s path = fs path ∨ s path = none := by
  simp only [regularFileOrDeleteStates] at listed
  split_ifs at listed <;> simp only [List.mem_singleton, List.not_mem_nil] at listed
  subst listed
  exact deleteFile_entry

theorem regularFileOrDelete_entry {path : Path} {uid gid : Nat} :
    (regularFileOrDelete o fs path uid gid).2 path = fs path ∨
      (regularFileOrDelete o fs path uid gid).2 path = none := by
  rw [← regularFileOrDelete_last]
  exact @getLastD_of_forall Fs (fun s => s path = fs path ∨ s path = none) _ _ (.inl rfl)
    fun _ listed => regularFileOrDeleteStates_entry listed

-- how `TouchFileInternal` runs, `RegularFileOrDelete` giving `(result, fs₁)` and
-- `base::CreateDirectory` after it giving `(ok, fs₂)`: it stops after the first, after the second,
-- or creates the file
theorem touchFileInternal_cases {path : FilePath} {uid gid : Nat}
    {result : RegularFileOrDeleteResult} {ok : Bool} {fs₁ fs₂ : Fs}
    (removed : regularFileOrDelete o fs path.value uid gid = (result, fs₁))
    (made : createDirectory p o.mkdirFails fs₁ path.dir = (ok, fs₂)) :
    touchFileInternalStates p o fs path uid gid = regularFileOrDeleteStates o fs path.value uid gid ∧
        (touchFileInternal p o fs path uid gid).2.1 = fs₁ ∨
      touchFileInternalStates p o fs path uid gid = regularFileOrDeleteStates o fs path.value uid gid ++
          createDirectoryStates p o.mkdirFails fs₁ path.dir ∧
        (touchFileInternal p o fs path uid gid).2.1 = fs₂ ∨
      ∃ fs₃, openExclusive p o.createFails fs₂ path.value kPermissions600 = some fs₃ ∧
        touchFileInternalStates p o fs path uid gid = regularFileOrDeleteStates o fs path.value uid gid ++
          createDirectoryStates p o.mkdirFails fs₁ path.dir ++ [fs₃] ∧
        touchFileInternal p o fs path uid gid = (true, fs₃, true) := by
  unfold touchFileInternalStates touchFileInternal
  rw [removed]
  cases result
  · exact .inl ⟨rfl, rfl⟩
  · exact .inl ⟨rfl, rfl⟩
  dsimp only
  cases ok <;> rw [made]
  · exact .inr (.inl ⟨rfl, rfl⟩)
  dsimp only
  cases openExclusive p o.createFails fs₂ path.value kPermissions600 with
  | none => exact .inr (.inl ⟨rfl, rfl⟩)
  | some fs₃ => exact .inr (.inr ⟨fs₃, rfl, rfl, rfl⟩)

theorem touchFileInternal_last {path : FilePath} {uid gid : Nat} :
    (touchFileInternalStates p o fs path uid gid).getLastD fs =
      (touchFileInternal p o fs path uid gid).2.1 := by
  obtain ⟨result, fs₁, removed⟩ : ∃ result fs₁,
      regularFileOrDelete o fs path.value uid gid = (result, fs₁) := ⟨_, _, rfl⟩
  obtain ⟨ok, fs₂, made⟩ : ∃ ok fs₂, createDirectory p o.mkdirFails fs₁ path.dir = (ok, fs₂) :=
    ⟨_, _, rfl⟩
  have deleted : (regularFileOrDeleteStates o fs path.value uid gid).getLastD fs = fs₁ := by
    rw [regularFileOrDelete_last, removed]
  have madeLast : (createDirectoryStates p o.mkdirFails fs₁ path.dir).getLastD fs₁ = fs₂ := by
    rw [createDirectoryStates, createDirectoryLoop_last, ← createDirectory, made]
  rcases touchFileInternal_cases removed made with
    ⟨states, ended⟩ | ⟨states, ended⟩ | ⟨fs₃, -, states, ended⟩
  · rw [states, ended, deleted]
  · rw [states, ended, getLastD_append, deleted, madeLast]
  · rw [states, ended, List.getLastD_concat]

theorem touchFileInternal_created {path : FilePath} {uid gid : Nat} {ok : Bool} {fs' : Fs}
    (touched : touchFileInternal p o fs path uid gid = (ok, fs', true)) :
    ok = true ∧ ∃ g, fs' path.value =
      some (.regular [] (kPermissions600 &&& ~~~p.umask &&& 0o7777) p.euid g) := by
  unfold touchFileInternal at touched
  split at touched
  · cases touched
  · cases touched
  · split at touched
    · cases touched
    · split at touched
      · cases touched
      · rename_i opened
        cases touched
        obtain ⟨-, rfl⟩ := openExclusive_ok opened
        exact ⟨rfl, _, Function.update_same _ _ _⟩

theorem touchFileInternal_shown {path : FilePath} {uid gid : Nat} {s : Fs}
    (listed : s ∈ touchFileInternalStates p o fs path uid gid) :
    TouchShown p (fs path.value) (s path.value) := by
  obtain ⟨result, fs₁, removed⟩ : ∃ result fs₁,
      regularFileOrDelete o fs path.value uid gid = (result, fs₁) := ⟨_, _, rfl⟩
  obtain ⟨ok, fs₂, made⟩ : ∃ ok fs₂, createDirectory p o.mkdirFails fs₁ path.dir = (ok, fs₂) :=
    ⟨_, _, rfl⟩
  have entry₁ : fs₁ path.value = fs path.value ∨ fs₁ path.value = none := by
    have entry := @regularFileOrDelete_entry o fs path.value uid gid
    rwa [removed] at entry
  have before : ∀ s ∈ regularFileOrDeleteStates o fs path.value uid gid ++
      createDirectoryStates p o.mkdirFails fs₁ path.dir, TouchShown p (fs path.value) (s path.value) := by
    intro s listed
    apply TouchShown.of_entry
    rcases List.mem_append.mp listed with deleted | created
    · exact regularFileOrDeleteStates_entry deleted
    · rwa [createDirectoryLoopStates_outside created (value_not_mem_ancestors path)]
  rcases touchFileInternal_cases removed made with
    ⟨states, -⟩ | ⟨states, -⟩ | ⟨fs₃, opened, states, -⟩ <;> rw [states] at listed
  · exact before s (List.mem_append_left _ listed)
  · exact before s listed
  rcases List.mem_append.mp listed with earlier | last
  · exact before s earlier
  rw [List.mem_singleton.mp last]
  obtain ⟨-, rfl⟩ := openExclusive_ok opened
  exact .inr (.inr ⟨_, Function.update_same _ _ _⟩)

theorem forall_dropLast_getLast {α : Type} {P Q : α → Prop} {l : List α} (all : ∀ x ∈ l, P x) :
    (∀ x ∈ l.dropLast, P x) ∧ ∀ x ∈ l.getLast?, P x ∨ Q x :=
  ⟨fun x listed => all x (List.dropLast_subset _ listed),
    fun x listed => .inl (all x (List.mem_of_mem_getLast? listed))⟩

theorem forall_dropLast_getLast_concat {α : Type} {P Q : α → Prop} {l : List α} {y : α}
    (all : ∀ x ∈ l, P x) (last : P y ∨ Q y) :
    (∀ x ∈ (l ++ [y]).dropLast, P x) ∧ ∀ x ∈ (l ++ [y]).getLast?, P x ∨ Q x := by
  rw [List.dropLast_concat, List.getLast?_concat]
  exact ⟨all, fun x listed => by cases listed; exact last⟩

/-- Along `TouchFile`, whatever its system calls return, a process that reads `path` between two
of them sees what was there, nothing, or the empty file `TouchFile` creates with
`kPermissions600` less the umask, owned by the process's user: a file with
`new_file_permissions` can show only after the last call, and only when the call returns true.
The last state is the one the call ends with. -/
theorem touchFile_observed_owner_only {path : FilePath} {newFilePermissions : Mode}
    {uid gid : Nat} :
    (touchFileStates p o fs path newFilePermissions uid gid).getLastD fs =
        (touchFile p o fs path newFilePermissions uid gid).2 ∧
      (∀ s ∈ (touchFileStates p o fs path newFilePermissions uid gid).dropLast,
        TouchShown p (fs path.value) (s path.value)) ∧
      ∀ s ∈ (touchFileStates p o fs path newFilePermissions uid gid).getLast?,
        TouchShown p (fs path.value) (s path.value) ∨
          (touchFile p o fs path newFilePermissions uid gid).1 = true ∧
            ∃ g, s path.value = some (.regular [] newFilePermissions p.euid g) := by
  have shown : ∀ s ∈ touchFileInternalStates p o fs path uid gid,
      TouchShown p (fs path.value) (s path.value) := fun _ listed => touchFileInternal_shown listed
  have last := @touchFileInternal_last p o fs path uid gid
  obtain ⟨ok, fs₁, created, touched⟩ : ∃ ok fs₁ created,
      touchFileInternal p o fs path uid gid = (ok, fs₁, created) := ⟨_, _, _, rfl⟩
  rw [touched] at last
  unfold touchFileStates touchFile
  by_cases illegal : newFilePermissions &&& ~~~kPermissions777 ≠ 0
  · rw [if_pos illegal, if_pos illegal]
    simp
  rw [if_neg illegal, if_neg illegal]
  rw [touched]
  rcases ok, created with ⟨_ | _, _ | _⟩
  iterate 3 exact ⟨last, forall_dropLast_getLast shown⟩
  obtain ⟨-, g, file⟩ := touchFileInternal_created touched
  dsimp only
  split_ifs
  · refine ⟨List.getLastD_concat _ _ _, forall_dropLast_getLast_concat shown (.inl ?_)⟩
    rcases deleteFile_entry with same | gone
    · exact .inr (.inr ⟨g, same.trans file⟩)
    · exact .inr (.inl gone)
  · refine ⟨List.getLastD_concat _ _ _, forall_dropLast_getLast_concat shown (.inr ?_)⟩
    rw [fchmod_regular file, Function.update_same, legal_permissions (not_not.mp illegal)]
    exact ⟨rfl, g, rfl⟩

end TouchFile

end Brillo
