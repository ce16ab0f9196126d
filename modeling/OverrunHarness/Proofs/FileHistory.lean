import OverrunHarness.Proofs.FileRuns
/-!
# What a history leaves in a directory

Files and directories are made and removed in a directory that was empty at the start, and in
between its names are loaded and run. Loading a name then answers by the **last change made at it**
(`FileStep.lastChange`), which is said by the list of steps alone: a written file is loaded as it
was written, a directory opens but cannot be read, and a name that was removed last, or that nothing
was ever made at, cannot be opened.

The argument goes by one step at a time. A change that succeeds sets the entry at its own name and
no other in the directory (`entry_step`); what lies beneath a name, and goes with a directory that
is removed, is not looked at. As a change leaves the current directory where it is, the next step
meets the same situation, and a whole history leaves what the last change at each name was to leave
(`entry_history`).
-/

namespace OverrunHarness

/-! ### Names and changes -/

/-- What the name of an entry in a directory can be. -/
structure IsName (name : Bytes) : Prop where
  ne_nil : name ≠ []
  length_le : name.length ≤ FileSystem.nameLimit
  slash_not_mem : slash ∉ name
  zero_not_mem : 0 ∉ name
  ne_dot : name ≠ Utf8.encode "."
  ne_dots : name ≠ Utf8.encode ".."

instance (name : Bytes) : Decidable (IsName name) :=
  decidable_of_iff
    (name ≠ [] ∧ name.length ≤ FileSystem.nameLimit ∧ slash ∉ name ∧ 0 ∉ name ∧
      name ≠ Utf8.encode "." ∧ name ≠ Utf8.encode "..")
    ⟨fun ⟨h₁, h₂, h₃, h₄, h₅, h₆⟩ => ⟨h₁, h₂, h₃, h₄, h₅, h₆⟩,
      fun h => ⟨h.1, h.2, h.3, h.4, h.5, h.6⟩⟩

namespace FileStep

/-- The path that a step is about. -/
def path : FileStep → Bytes
  | write path _ | makeDirectory path | remove path | removeDirectory path | load path
  | run path .. => path

/-- Whether a change succeeds, given what its path leads to: no file can take the place of a
directory or a directory that of a file, and a file and a directory are each removed as what they
are. -/
def accepts : FileStep → Option Entry → Bool
  | write .., none | write .., some (.file _) => true
  | makeDirectory _, none | makeDirectory _, some .directory => true
  | remove _, some (.file _) => true
  | removeDirectory _, some .directory => true
  | _, _ => false

/-- What a change that succeeds leaves where its path leads. -/
def leaves : FileStep → Option Entry
  | write _ content => some (.file content)
  | makeDirectory _ => some .directory
  | _ => none

/-- The last of the changes that some steps make at a name, if they make any. -/
def lastChange (name : Bytes) (steps : List FileStep) : Option FileStep :=
  (steps.filter fun s => s.changes ∧ s.path = name).getLast?

/-- A step in front counts if it is a change at the name and no later one is. -/
theorem lastChange_cons (name : Bytes) (s : FileStep) (steps : List FileStep) :
    lastChange name (s :: steps) =
      (lastChange name steps).or (if s.changes ∧ s.path = name then some s else none) := by
  unfold lastChange
  by_cases hs : s.changes ∧ s.path = name
  · rw [List.filter_cons_of_pos (by simpa using hs), List.getLast?_cons, if_pos hs]
    cases (steps.filter fun s => s.changes ∧ s.path = name).getLast? <;> rfl
  · rw [List.filter_cons_of_neg (by simpa using hs), if_neg hs, Option.or_none]

theorem of_lastChange_eq_some {name : Bytes} {steps : List FileStep} {s : FileStep}
    (h : lastChange name steps = some s) : s.changes = true ∧ s.path = name := by
  have hmem := List.mem_of_getLast? h
  simpa using (List.mem_filter.mp hmem).2

/-- What the last change at a name can be. -/
theorem lastChange_cases (name : Bytes) (steps : List FileStep) :
    lastChange name steps = none ∨
      (∃ content, lastChange name steps = some (write name content)) ∨
      lastChange name steps = some (makeDirectory name) ∨
      lastChange name steps = some (remove name) ∨
      lastChange name steps = some (removeDirectory name) := by
  cases h : lastChange name steps with
  | none => exact .inl rfl
  | some s =>
    obtain ⟨hs, rfl⟩ := of_lastChange_eq_some h
    cases s with
    | write path content => exact .inr (.inl ⟨content, rfl⟩)
    | makeDirectory path => exact .inr (.inr (.inl rfl))
    | remove path => exact .inr (.inr (.inr (.inl rfl)))
    | removeDirectory path => exact .inr (.inr (.inr (.inr rfl)))
    | load path => cases hs
    | run path options outside spare => cases hs

end FileStep

namespace FileSystem

variable {fs : FileSystem} {name : Bytes} {s : FileStep} {steps : List FileStep}

/-- Every change among some steps is made at a name of the current directory, and succeeds. -/
def Succeeds : FileSystem → List FileStep → Prop
  | _, [] => True
  | fs, s :: steps =>
    (s.changes = true →
        IsName s.path ∧ s.accepts (fs.entry (s.path :: fs.current)) = true) ∧
      (fs.step s).2.Succeeds steps

instance decidableSucceeds : (fs : FileSystem) → (steps : List FileStep) →
    Decidable (fs.Succeeds steps)
  | _, [] => inferInstanceAs (Decidable True)
  | fs, s :: steps =>
    have := decidableSucceeds (fs.step s).2 steps
    inferInstanceAs (Decidable ((_ → _) ∧ _))

/-- The current directory is there and holds nothing. -/
structure IsBlank (fs : FileSystem) : Prop where
  directory : fs.entry fs.current = some .directory
  entry_name (name : Bytes) : fs.entry (name :: fs.current) = none

theorem isBlank_fresh : fresh.IsBlank where
  directory := rfl
  entry_name name := by simp [fresh, work, rootNames, deviceNames]

/-! ### One step -/

/-- A name leads into the current directory, if there is one. -/
theorem locate_of_isName (here : fs.entry fs.current = some .directory) (h : IsName name) :
    fs.locate name = .ok (name :: fs.current) := by
  have hlength : ¬pathLimit ≤ name.length := by
    have := h.length_le
    simp only [nameLimit, pathLimit] at *
    omega
  have hhead : name.head? ≠ some slash := fun hhead =>
    h.slash_not_mem (List.mem_of_head? hhead)
  have henter : fs.enter fs.current name = .ok (name :: fs.current) := by
    simp [enter, here, h.ne_nil, h.ne_dot, h.ne_dots, h.length_le]
  rw [locate, if_neg h.ne_nil, if_neg hlength, if_neg hhead,
    pathComponents_of_not_mem h.slash_not_mem]
  simp [henter]

/-- Loading a name goes by its entry. -/
theorem load_of_isName (here : fs.entry fs.current = some .directory) (h : IsName name) :
    fs.load name =
      match fs.entry (name :: fs.current) with
      | none => .error ⟨.opening, name, .system SystemError.noSuchFile⟩
      | some .directory => .error ⟨.reading, name, .system SystemError.isADirectory⟩
      | some (.file content) => .ok content
      | some .sink => .ok [] := by
  have hlocate := locate_of_isName here h
  cases hentry : fs.entry (name :: fs.current) with
  | none => simp [load, h.zero_not_mem, hlocate, hentry]
  | some e => cases e <;> simp [load, h.zero_not_mem, hlocate, hentry]

/-- A failure to load is about the path given. -/
theorem path_of_load_eq_error {path : Bytes} {e : LoadError} (h : fs.load path = .error e) :
    e.path = path := by
  rw [load] at h
  split at h
  · cases h
    rfl
  · split at h
    · cases h
      rfl
    · split at h <;> cases h <;> rfl

theorem makeDirectory_of_isName (h : IsName name) :
    fs.makeDirectory name = fs.update name fun
      | none => some .directory
      | other => other := by
  rw [makeDirectory, pathsOnTheWay_of_not_mem h.slash_not_mem]
  rfl

theorem entry_update {path : Bytes} {place : Place} {change : Option Entry → Option Entry}
    {e : Option Entry} (h : fs.locate path = .ok place) (hchange : change (fs.entry place) = e)
    (p : Place) : (fs.update path change).entry p = if p = place then e else fs.entry p := by
  rw [update, h, ← hchange]

theorem entry_removeDirectory {path : Bytes} {place : Place} (h : fs.locate path = .ok place)
    (hplace : fs.entry place = some .directory) (p : Place) :
    (fs.removeDirectory path).entry p = if place <:+ p then none else fs.entry p := by
  rw [removeDirectory, h]
  dsimp only
  rw [if_pos hplace]

/-- A change that succeeds sets the entry at its name, and no other that is not beneath it. -/
theorem entry_step_of_changes (here : fs.entry fs.current = some .directory)
    (hs : s.changes = true) (h : IsName s.path)
    (hok : s.accepts (fs.entry (s.path :: fs.current)) = true) {place : Place}
    (hplace : place.length ≤ fs.current.length + 1) :
    (fs.step s).2.entry place =
      if place = s.path :: fs.current then s.leaves else fs.entry place := by
  have hlocate := locate_of_isName here h
  -- what is there is known only as far as the change goes by it
  generalize hentry : fs.entry (s.path :: fs.current) = e at hok
  cases s with
  | write path content =>
    refine entry_update hlocate ?_ place
    rw [hentry]
    match e, hok with
    | none, _ => rfl
    | some (.file _), _ => rfl
  | makeDirectory path =>
    have hname : IsName path := h
    change (fs.makeDirectory path).entry place = _
    rw [makeDirectory_of_isName hname]
    refine entry_update hlocate ?_ place
    rw [hentry]
    match e, hok with
    | none, _ => rfl
    | some .directory, _ => rfl
  | remove path =>
    refine entry_update hlocate ?_ place
    rw [hentry]
    match e, hok with
    | some (.file _), _ => rfl
  | removeDirectory path =>
    match e, hok with
    | some .directory, _ =>
      have hbeneath : path :: fs.current <:+ place ↔ place = path :: fs.current := by
        constructor
        · intro hsuffix
          exact (hsuffix.eq_of_length_le hplace).symm
        · intro heq
          exact heq ▸ List.suffix_refl _
      exact (entry_removeDirectory hlocate hentry place).trans (if_congr hbeneath rfl rfl)
  | load path => cases hs
  | run path options outside spare => cases hs

/-- All that a step sets in the current directory and above is the entry at its name, if it is a
change. -/
theorem entry_step (here : fs.entry fs.current = some .directory)
    (hok : s.changes = true →
      IsName s.path ∧ s.accepts (fs.entry (s.path :: fs.current)) = true) {place : Place}
    (hplace : place.length ≤ fs.current.length + 1) :
    (fs.step s).2.entry place =
      if s.changes = true ∧ s.path :: fs.current = place then s.leaves else fs.entry place := by
  by_cases hs : s.changes = true
  · obtain ⟨hname, haccepts⟩ := hok hs
    rw [entry_step_of_changes here hs hname haccepts hplace]
    simp [hs, eq_comm]
  · rw [step_of_not_changes (by simpa using hs)]
    simp [hs]

theorem current_makeDirectory (fs : FileSystem) (path : Bytes) :
    (fs.makeDirectory path).current = fs.current := by
  rw [makeDirectory]
  induction pathsOnTheWay path generalizing fs with
  | nil => rfl
  | cons p paths ih => rw [List.foldl_cons, ih, current_update]

/-- A step leaves the current directory where it is. -/
theorem current_step (fs : FileSystem) (s : FileStep) : (fs.step s).2.current = fs.current := by
  cases s with
  | write path content => exact current_update ..
  | makeDirectory path => exact current_makeDirectory ..
  | remove path => exact current_update ..
  | removeDirectory path => exact current_removeDirectory ..
  | load path => rfl
  | run path options outside spare => rfl

/-! ### A whole history -/

/-- A history leaves at a name what the last change made there was to leave, or else what was there
before; and it leaves the current directory where it is. -/
theorem entry_history (here : fs.entry fs.current = some .directory) (done : fs.Succeeds steps)
    (name : Bytes) :
    (fs.history steps).2.entry (name :: fs.current) =
        (FileStep.lastChange name steps).elim (fs.entry (name :: fs.current)) FileStep.leaves ∧
      (fs.history steps).2.entry fs.current = some .directory ∧
      (fs.history steps).2.current = fs.current := by
  induction steps generalizing fs with
  | nil => exact ⟨rfl, here, rfl⟩
  | cons s steps ih =>
    obtain ⟨hok, hrest⟩ := done
    have hhere : (fs.step s).2.entry (fs.step s).2.current = some .directory := by
      rw [current_step, entry_step here hok (Nat.le_succ _), if_neg (by simp), here]
    have hlater := ih hhere hrest
    rw [current_step] at hlater
    rw [history_cons]
    refine ⟨hlater.1.trans ?_, hlater.2⟩
    rw [entry_step here hok (Nat.le_refl _), FileStep.lastChange_cons]
    -- the first step only shows if no later change is made at the name
    cases FileStep.lastChange name steps with
    | some t => rfl
    | none => by_cases hs : s.changes = true ∧ s.path = name <;> simp [hs]

/-! ### Loading into a buffer -/

/-- The buffer that holds what a path leads to, with the cells `spare` behind it. -/
def loadBuffer (fs : FileSystem) (path : Bytes) (spare : Bytes := []) :
    Except LoadError InputBuffer :=
  (fs.load path).map fun content => .ofBytes content spare

/-- A run over a file is a run over the buffer that the file is loaded into. -/
theorem runFile_eq_map_loadBuffer (fs : FileSystem) (path : Bytes) (opts : RunOptions)
    (outside : Nat → UInt32) (spare : Bytes) :
    runFile fs path opts outside spare =
      (fs.loadBuffer path spare).map fun b =>
        let run := runBuffer b opts outside
        { run with events := .inputLoaded path b.len :: run.events } := by
  rw [runFile, loadBuffer]
  cases fs.load path <;> rfl

theorem loadBuffer_eq_error_iff {path spare : Bytes} {e : LoadError} :
    fs.loadBuffer path spare = .error e ↔ fs.load path = .error e := by
  rw [loadBuffer]
  cases fs.load path <;> simp [Except.map]

theorem loadBuffer_eq_ok_iff {path spare : Bytes} {b : InputBuffer} :
    fs.loadBuffer path spare = .ok b ↔
      ∃ content, fs.load path = .ok content ∧ b = .ofBytes content spare := by
  rw [loadBuffer]
  cases fs.load path <;> simp [Except.map, eq_comm]

end FileSystem

/-- **Loading goes by the last change.** Start in an empty directory and make changes at its names,
all of which succeed, with loads and runs in between. Loading a name then answers with a buffer
exactly if there is a file of that name, and this is so exactly if the last change at the name wrote
it; the buffer holds what was written, byte for byte, with its length and its first byte. A
directory opens but cannot be read; and what was removed last, or never made, cannot be opened. A
path with a NUL byte in it cannot be opened whatever there is. A failure names the path given, and a
run over the path fails as loading it does. The loads and runs, dry or live, make no difference: a
history with the same changes and any others of them leaves the same files. -/
theorem load_history {fs : FileSystem} {steps : List FileStep} (blank : fs.IsBlank)
    (done : fs.Succeeds steps) :
    let last := (fs.history steps).2
    (∀ name, IsName name → ∀ spare,
        let change := FileStep.lastChange name steps
        last.entry (name :: last.current) = change.bind FileStep.leaves ∧
          ((∃ b, last.loadBuffer name spare = .ok b) ↔
            ∃ content, last.entry (name :: last.current) = some (.file content)) ∧
          (∀ content,
            (∃ b, last.loadBuffer name spare = .ok b ∧ b.bytes = content ∧
                b.len = content.length ∧ b.first = content.head?) ↔
              change = some (.write name content)) ∧
          (last.loadBuffer name spare =
              .error ⟨.reading, name, .system SystemError.isADirectory⟩ ↔
            change = some (.makeDirectory name)) ∧
          (last.loadBuffer name spare =
              .error ⟨.opening, name, .system SystemError.noSuchFile⟩ ↔
            change = none ∨ change = some (.remove name) ∨
              change = some (.removeDirectory name))) ∧
      (∀ path : Bytes, 0 ∈ path → ∀ spare,
        last.loadBuffer path spare = .error ⟨.opening, path, .nulInPath⟩) ∧
      (∀ path spare e, last.loadBuffer path spare = .error e →
        e.path = path ∧
          ∀ opts outside, (last.step (.run path opts outside spare)).1 = .ran (.error e)) ∧
      (LoadFault.text (.system SystemError.isADirectory) = "Is a directory (os error 21)" ∧
        LoadFault.text (.system SystemError.noSuchFile) =
          "No such file or directory (os error 2)" ∧
        LoadFault.text .nulInPath = "file name contained an unexpected NUL byte") ∧
      ∀ steps', steps'.filter FileStep.changes = steps.filter FileStep.changes →
        (fs.history steps').2 = last := by
  intro last
  refine ⟨fun name hname spare => ?_, fun path hpath spare => ?_, fun path spare e he => ?_,
    ⟨by decide +kernel, by decide +kernel, rfl⟩, fun steps' h => ?_⟩
  · intro change
    obtain ⟨hentry, hhere, hcurrent⟩ := fs.entry_history blank.directory done name
    rw [blank.entry_name, ← hcurrent] at hentry
    rw [← hcurrent] at hhere
    have hload := FileSystem.load_of_isName hhere hname
    simp only [FileSystem.loadBuffer_eq_error_iff, FileSystem.loadBuffer_eq_ok_iff]
    rw [hload, hentry]
    rcases FileStep.lastChange_cases name steps with h | ⟨content, h⟩ | h | h | h <;>
      simp [change, h, FileStep.leaves]
  · rw [FileSystem.loadBuffer_eq_error_iff, FileSystem.load, if_pos hpath]
  · refine ⟨FileSystem.path_of_load_eq_error (FileSystem.loadBuffer_eq_error_iff.mp he),
      fun opts outside => congrArg FileAnswer.ran ?_⟩
    rw [FileSystem.runFile_eq_map_loadBuffer, he]
    rfl
  · change _ = (fs.history steps).2
    rw [fs.history_filter_changes steps', h, ← fs.history_filter_changes steps]

/-- A file that is written twice, one that is removed, a directory where a file was, one that is
removed, and a file without content where another was; all of this with loads and runs in between,
some of which fail. -/
theorem load_history_remade :
    let f : Bytes := [0x66]
    let g : Bytes := [0x67]
    let h : Bytes := [0x68]
    let i : Bytes := [0x69]
    let j : Bytes := [0x6A]
    let changes : List FileStep :=
      [.write f [1, 2, 3], .write f [0xFF, 0], .write g [4], .remove g, .makeDirectory g,
        .write h [5], .remove h, .makeDirectory j, .removeDirectory j, .write i [6], .remove i,
        .write i []]
    let steps : List FileStep :=
      [.load f, .write f [1, 2, 3], .write f [0xFF, 0], .write g [4], .load g, .remove g,
        .makeDirectory g, .run g ⟨some 2, false⟩ (fun _ => 0) [], .write h [5], .remove h,
        .makeDirectory j, .load j, .removeDirectory j, .write i [6],
        .run i ⟨some 2, true⟩ (fun _ => 0) [], .remove i, .load i, .write i []]
    let last := (FileSystem.fresh.history steps).2
    (FileSystem.fresh.IsBlank ∧ FileSystem.fresh.Succeeds steps ∧ IsName f ∧ IsName g ∧ IsName h ∧
        IsName i ∧ IsName j ∧ 0 ∈ ([0x66, 0] : Bytes) ∧
        changes.filter FileStep.changes = steps.filter FileStep.changes) ∧
      (∃ b, last.loadBuffer f = .ok b ∧ b.bytes = [0xFF, 0] ∧ b.len = 2 ∧ b.first = some 0xFF) ∧
      last.loadBuffer g = .error ⟨.reading, g, .system SystemError.isADirectory⟩ ∧
      last.loadBuffer h = .error ⟨.opening, h, .system SystemError.noSuchFile⟩ ∧
      last.loadBuffer j = .error ⟨.opening, j, .system SystemError.noSuchFile⟩ ∧
      (∃ b, last.loadBuffer i = .ok b ∧ b.bytes = [] ∧ b.len = 0 ∧ b.first = none) ∧
      last.loadBuffer [0x66, 0] = .error ⟨.opening, [0x66, 0], .nulInPath⟩ ∧
      (last.step (.run g ⟨some 2, false⟩ (fun _ => 0) [])).1 =
        .ran (.error ⟨.reading, g, .system SystemError.isADirectory⟩) ∧
      (FileSystem.fresh.history changes).2 = last := by
  intro f g h i j changes steps last
  have done : FileSystem.fresh.Succeeds steps := by decide +kernel
  have hf : IsName f := by decide
  have hg : IsName g := by decide
  have hh : IsName h := by decide
  have hi : IsName i := by decide
  have hj : IsName j := by decide
  have hnul : 0 ∈ ([0x66, 0] : Bytes) := by decide
  have hsame : changes.filter FileStep.changes = steps.filter FileStep.changes := rfl
  obtain ⟨hload, hopen, hfail, -, hfiles⟩ := load_history FileSystem.isBlank_fresh done
  obtain ⟨-, -, hwritten, -⟩ := hload f hf []
  obtain ⟨-, -, -, hdirectory, -⟩ := hload g hg []
  obtain ⟨-, -, -, -, hremoved⟩ := hload h hh []
  obtain ⟨-, -, -, -, hremoved'⟩ := hload j hj []
  obtain ⟨-, -, hempty, -⟩ := hload i hi []
  have hread := hdirectory.mpr rfl
  obtain ⟨-, hrun⟩ := hfail g [] _ hread
  exact ⟨⟨FileSystem.isBlank_fresh, done, hf, hg, hh, hi, hj, hnul, hsame⟩,
    (hwritten _).mpr rfl, hread, hremoved.mpr (.inr (.inl rfl)), hremoved'.mpr (.inr (.inr rfl)),
    (hempty _).mpr rfl, hopen _ hnul _, hrun _ _, hfiles _ hsame⟩

end OverrunHarness
