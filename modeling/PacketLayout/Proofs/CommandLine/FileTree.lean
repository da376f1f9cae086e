/-
PacketLayout.Proofs.CommandLine.FileTree — what a write does to a tree.

A write puts one file in its place and leaves all others, the directories
and the current directory as they are. So paths are walked as before, and
the path that was written to now leads to what was written.

* `file?_put`: what there is at a path after a file has been put.
* `writable_eq_ok`: where a write goes.
* `fileSystem_lawful`: a tree is a file system that can be relied on.
* `readText_write`: what has been written can be read.
-/
import Mathlib.Tactic.SplitIfs
import PacketLayout.CommandLine.FileTree

namespace PacketLayout.CommandLine

open Text

/-- Where a file can be put that a path leads to, or could lead to. -/
def Target.place? : Target → Option Path
  | .directory _ => none
  | .file there => some there.path
  | .free there => some there

namespace FileTree

variable {tree : FileTree} {file : File} {place here there : Path} {name path : String}

/-! ## Files -/

/-- A file is found in its place, and all others where they were. -/
theorem file?_put (tree : FileTree) (file : File) (path : Path) :
    (tree.put file).file? path = if path = file.path then some file else tree.file? path := by
  unfold file? put
  dsimp only
  rw [List.find?_append, List.find?_filter]
  split
  · rename_i same
    have none : (tree.files.find? fun other =>
        decide ((other.path != file.path) = true ∧ (other.path == path) = true)) = none := by
      simp [same]
    rw [none, Option.none_or]
    simp [same]
  · rename_i other
    have found : (tree.files.find? fun one =>
        decide ((one.path != file.path) = true ∧ (one.path == path) = true))
          = tree.files.find? fun one => one.path == path := by
      congr 1
      funext one
      by_cases same : one.path = path
      · simp [same, other]
      · simp [same]
    rw [found, List.find?_cons, beq_false_of_ne (Ne.symm other)]
    simp

theorem put_put (tree : FileTree) (place : Path) (first second : ByteArray) :
    (tree.put ⟨place, first⟩).put ⟨place, second⟩ = tree.put ⟨place, second⟩ := by
  simp [put]

theorem path_of_file? {found : Path} (h : tree.file? found = some file) : file.path = found := by
  simpa using List.find?_some h

@[simp] theorem isDirectory_put (tree : FileTree) (file : File) :
    (tree.put file).isDirectory = tree.isDirectory := rfl

/-! ## Paths -/

/-- A name that leads to a directory leads to it still. -/
theorem lookUp_put_directory (found : tree.lookUp here name = .ok (.directory there)) :
    (tree.put file).lookUp here name = .ok (.directory there) := by
  unfold lookUp at found ⊢
  rw [isDirectory_put]
  split_ifs at found ⊢
  · exact found
  · exact found
  · exact found
  · split at found <;> simp at found

theorem walk_put {names : List String} (found : tree.walk here names = .ok there) :
    (tree.put file).walk here names = .ok there := by
  induction names generalizing here with
  | nil => exact found
  | cons name rest ih =>
    unfold walk at found ⊢
    cases step : tree.lookUp here name with
    | error fault => simp [step] at found
    | ok target =>
      cases target with
      | directory next =>
        rw [lookUp_put_directory step]
        rw [step] at found
        exact ih found
      | file other => simp [step] at found
      | free other => simp [step] at found

/-- A name that leads to a place leads to what has been put there. -/
theorem lookUp_put {target : Target} (found : tree.lookUp here name = .ok target)
    (leads : target.place? = some file.path) :
    (tree.put file).lookUp here name = .ok (.file file) := by
  unfold lookUp at found ⊢
  rw [isDirectory_put, file?_put]
  split_ifs at found ⊢ with same up long directory taken
  · cases found
    cases leads
  · cases found
    cases leads
  · cases found
    cases leads
  · rfl
  · exfalso
    split at found
    · rename_i other there
      cases found
      exact taken (path_of_file? there ▸ Option.some.inj leads)
    · cases found
      exact taken (Option.some.inj leads)

theorem unlocked_eq_ok (h : tree.unlocked here = .ok place) :
    here = place ∧ tree.locked.contains place = false := by
  unfold unlocked at h
  split_ifs at h with locked
  cases h
  exact ⟨rfl, by simpa using locked⟩

/-- Where a write goes: to what the path leads to, if it is no directory
and not locked. -/
theorem writable_eq_ok (h : tree.writable path = .ok place) :
    (∃ route target, tree.route path = .ok route ∧ tree.follow route = .ok target ∧
      target.place? = some place) ∧ tree.locked.contains place = false := by
  unfold writable at h
  cases found : tree.route path with
  | error fault => simp [found, bind, Except.bind] at h
  | ok route =>
    simp only [found, bind, Except.bind] at h
    split at h
    · split at h <;> simp at h
    · cases led : tree.follow route with
      | error fault => simp [led] at h
      | ok target =>
        simp only [led] at h
        cases target with
        | directory other => simp at h
        | free other =>
          obtain ⟨rfl, free⟩ := unlocked_eq_ok h
          exact ⟨⟨route, _, rfl, led, rfl⟩, free⟩
        | file other =>
          obtain ⟨same, free⟩ := unlocked_eq_ok h
          exact ⟨⟨route, _, rfl, led, congrArg some same⟩, free⟩

/-- A route leads to what has been put where it led. -/
theorem follow_put {route : Route} {target : Target} (found : tree.follow route = .ok target)
    (leads : target.place? = some file.path) :
    (tree.put file).follow route = .ok (.file file) := by
  unfold follow at found ⊢
  cases last : route.names.getLast? with
  | none =>
    simp only [last] at found
    cases found
    cases leads
  | some name =>
    simp only [last] at found ⊢
    cases walked : tree.walk route.start route.names.dropLast with
    | error fault => simp [walked] at found
    | ok here =>
      simp only [walked] at found
      rw [walk_put walked]
      exact lookUp_put found leads

/-- What has been put where a path can be written is where the path
leads. -/
theorem follow_put_of_writable (h : tree.writable path = .ok place) (bytes : ByteArray) :
    ∃ route, (tree.put ⟨place, bytes⟩).route path = .ok route ∧
      (tree.put ⟨place, bytes⟩).follow route = .ok (.file ⟨place, bytes⟩) := by
  obtain ⟨⟨route, target, found, led, leads⟩, _⟩ := writable_eq_ok h
  exact ⟨route, found, follow_put led leads⟩

/-- And it can be read there. -/
theorem read_put (h : tree.writable path = .ok place) (bytes : ByteArray) :
    (tree.put ⟨place, bytes⟩).read path = .ok bytes := by
  obtain ⟨route, found, led⟩ := follow_put_of_writable h bytes
  have free : (tree.put ⟨place, bytes⟩).unlocked place = .ok place :=
    if_neg (Bool.eq_false_iff.mp (writable_eq_ok h).2)
  unfold read
  simp only [found, led, free, bind, Except.bind]

theorem place?_put (h : tree.writable path = .ok place) (bytes : ByteArray) :
    (tree.put ⟨place, bytes⟩).place? path = some place := by
  obtain ⟨route, found, led⟩ := follow_put_of_writable h bytes
  unfold FileTree.place?
  simp only [found, led, bind, Except.bind]

/-! ## A file system -/

theorem content?_put (tree : FileTree) (place other : Path) (bytes : ByteArray) :
    fileSystem.content? (tree.put ⟨place, bytes⟩) other
      = if other = place then some bytes else fileSystem.content? tree other := by
  show ((tree.put ⟨place, bytes⟩).file? other).map File.content = _
  rw [file?_put]
  split <;> rfl

theorem create_eq_ok {opened : FileTree} (h : tree.create path = (.ok place, opened)) :
    tree.writable path = .ok place ∧ opened = tree.put ⟨place, ByteArray.empty⟩ := by
  unfold create at h
  cases found : tree.writable path with
  | error fault => simp [found] at h
  | ok other =>
    simp only [found] at h
    cases h
    exact ⟨rfl, rfl⟩

/-- Whatever comes of it, to write puts a file into the place, and all the
bytes are in it if there is no fault. -/
theorem writeAll_eq {bytes : ByteArray} {result : Except FileError Unit} {after : FileTree}
    (h : tree.writeAll place bytes = (result, after)) :
    ∃ written, after = tree.put ⟨place, written⟩ ∧ (result = .ok () → written = bytes) := by
  unfold writeAll at h
  split at h
  · cases h
    exact ⟨bytes, rfl, fun _ => rfl⟩
  · cases h
    exact ⟨tree.fitting place bytes, rfl, nofun⟩

theorem fileSystem_lawful : fileSystem.Lawful where
  create_error := by
    intro tree after path fault h
    change tree.create path = _ at h
    unfold create at h
    split at h
    · cases h
      rfl
    · cases h
  create_other := by
    intro tree opened path place other h different
    obtain ⟨_, rfl⟩ := create_eq_ok h
    rw [content?_put, if_neg different]
  writeAll_other := by
    intro tree after place other bytes result h different
    obtain ⟨written, rfl, _⟩ := writeAll_eq h
    rw [content?_put, if_neg different]
  place?_writeAll := by
    intro tree opened after path place bytes result h written
    obtain ⟨writable, rfl⟩ := create_eq_ok h
    obtain ⟨some, rfl, _⟩ := writeAll_eq written
    rw [put_put]
    exact place?_put writable some
  writeAll_ok := by
    intro tree opened after path place bytes h _ written
    obtain ⟨all, rfl, same⟩ := writeAll_eq written
    rw [content?_put, if_pos rfl, same rfl]

/-! ## Texts -/

@[simp] theorem textOf_toUTF8 (text : String) : textOf text.toUTF8 = .ok text := by
  have valid : text.toUTF8.IsValidUTF8 := text.isValidUTF8
  have decoded : String.fromUTF8? text.toUTF8 = some text := by
    rw [String.fromUTF8?, dif_pos valid]
    rfl
  unfold textOf
  rw [decoded]

/-- A text that has been written without a fault can be read. -/
theorem readText_write {text : String}
    (h : (fileSystem.write tree path text.toUTF8).result = .ok ()) :
    fileSystem.readText (fileSystem.write tree path text.toUTF8).tree path = .ok text := by
  unfold FileSystem.write at h ⊢
  rcases opens : fileSystem.create tree path with ⟨fault | place, opened⟩
  · simp [opens] at h
  · rcases written : fileSystem.writeAll opened place text.toUTF8 with ⟨result, after⟩
    simp only [opens, written] at h ⊢
    obtain ⟨writable, rfl⟩ := create_eq_ok opens
    obtain ⟨all, rfl, same⟩ := writeAll_eq written
    rw [put_put, same h]
    have back : fileSystem.read (tree.put ⟨place, text.toUTF8⟩) path = .ok text.toUTF8 :=
      read_put writable _
    unfold FileSystem.readText
    rw [back]
    exact textOf_toUTF8 text

end FileTree

end PacketLayout.CommandLine
