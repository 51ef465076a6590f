import LongDivision.Directory
import LongDivision.Proofs.Program.Fallback

/-! What a run finds in its working directory. To run with a configuration file that cannot be used is
to run without that file, but for a warning.
-/

namespace LongDivision

namespace Directory

/-- Where a file stands there is no directory. -/
def Separate (directory : Directory) : Prop :=
  ∀ file ∈ directory, directory.isDirectory file.path = false

/-- The directory after the file at a path is deleted. -/
def without (directory : Directory) (path : List String) : Directory :=
  directory.filter fun file => file.path != path

section Without

variable {directory : Directory} {path there : List String}

theorem find?_without_self : (directory.without path).find? (·.path == path) = none := by
  rw [List.find?_eq_none]
  intro file kept
  have other := (List.mem_filter.mp kept).2
  simpa using other

theorem find?_without_of_none (absent : directory.find? (·.path == there) = none) :
    (directory.without path).find? (·.path == there) = none := by
  rw [List.find?_eq_none] at absent ⊢
  exact fun file kept => absent file (List.mem_filter.mp kept).1

theorem isDirectory_without (above : directory.isDirectory there = false) :
    (directory.without path).isDirectory there = false := by
  rw [isDirectory, List.any_eq_false] at above ⊢
  exact fun file kept => above file (List.mem_filter.mp kept).1

end Without

section Look

variable {directory : Directory} {onlyDirectory : Bool} {here names : List String}
  {bytes : List UInt8}

/-- The walk ends at the file, and all of it before the file is as it was or ends earlier. -/
theorem follow_without (separate : directory.Separate)
    (found : directory.follow onlyDirectory here names = .content bytes) :
    ∃ file ∈ directory, file.bytes = bytes ∧
      (directory.without file.path).follow onlyDirectory here names = .missing := by
  induction names generalizing here with
  | nil => contradiction
  | cons name rest ih =>
      rw [follow] at found
      split at found
      · rename_i up
        split at found
        · split at found <;> contradiction
        · rename_i inside
          obtain ⟨file, stored, content, gone⟩ := ih found
          exact ⟨file, stored, content, by rw [follow, if_pos up, if_neg inside, gone]⟩
      · rename_i down
        dsimp only at found
        split at found
        · rename_i file first
          have stored := List.mem_of_find?_eq_some first
          have place : file.path = here ++ [name] := by simpa using List.find?_some first
          have noDirectory : (directory.without file.path).isDirectory file.path = false :=
            isDirectory_without (separate file stored)
          split at found
          · cases found
            refine ⟨file, stored, rfl, ?_⟩
            rw [follow, if_neg down]
            simp only [← place, find?_without_self, noDirectory, Bool.false_eq_true, if_false]
          · contradiction
        · rename_i absent
          split at found
          · obtain ⟨file, stored, content, gone⟩ := ih found
            refine ⟨file, stored, content, ?_⟩
            rw [follow, if_neg down]
            simp only [find?_without_of_none absent, gone, ite_self]
          · contradiction

theorem followRoot_ne_content {below : Bool} : followRoot below names ≠ .content bytes := by
  induction names generalizing below with
  | nil => exact nofun
  | cons name rest ih =>
      rw [followRoot]
      split
      · exact ih
      · split
        · exact ih
        · exact nofun

theorem look_without (separate : directory.Separate) {path : String}
    (found : directory.look path = .content bytes) :
    ∃ file ∈ directory, file.bytes = bytes ∧ (directory.without file.path).look path = .missing := by
  rw [look] at found
  split at found
  · contradiction
  · rename_i nonempty
    split at found
    · exact absurd found followRoot_ne_content
    · rename_i relative
      obtain ⟨file, stored, content, gone⟩ := follow_without separate found
      exact ⟨file, stored, content, by rw [look, if_neg nonempty, if_neg relative, gone]⟩

end Look

end Directory

namespace Program

/-- Deleting a configuration file that cannot be used silences the warning of it. All else that the
program does stays the same. -/
theorem run_without_broken_file {formats : Formats} {arguments : List String}
    {override : Option String} {directory : Directory} {bytes : List UInt8} {mode : Mode}
    (input : List UInt8) (separate : directory.Separate)
    (found : directory.look (Configuration.path override) = .content bytes)
    (broken : ConfigurationFile.Broken formats.readConfiguration (.content bytes))
    (accepted : formats.readMode arguments = .ok mode) :
    ∃ file ∈ directory, file.bytes = bytes ∧ ∃ reason,
      let deleted := formats.run ⟨arguments, override, (directory.without file.path).look⟩ input
      formats.run ⟨arguments, override, directory.look⟩ input =
        { deleted with log := .defaultConfiguration reason :: deleted.log } := by
  obtain ⟨file, stored, content, gone⟩ := Directory.look_without separate found
  obtain ⟨error, unusable⟩ := broken.exists_error (Configuration.path override)
  refine ⟨file, stored, content, error.message, ?_⟩
  have present : formats.load ⟨arguments, override, directory.look⟩ = .error error := by
    simp only [Formats.load, found, unusable]
  exact run_of_broken present (load_of_missing gone) rfl accepted

/-- Nothing is read where a directory stands, and the warning says so. -/
theorem run_at_directory {formats : Formats} {arguments : List String} {override : Option String}
    {directory : Directory} {mode : Mode} (input : List UInt8)
    (found : directory.look (Configuration.path override) = .directory)
    (accepted : formats.readMode arguments = .ok mode) :
    let unconfigured := formats.run ⟨arguments, override, fun _ => .missing⟩ input
    formats.run ⟨arguments, override, directory.look⟩ input = { unconfigured with
      log := .defaultConfiguration ("cannot read " ++ Configuration.path override ++ ": " ++
        "Is a directory (os error 21)") :: unconfigured.log } := by
  have present : formats.load ⟨arguments, override, directory.look⟩ =
      .error (.unreadable (Configuration.path override) "Is a directory (os error 21)") := by
    simp only [Formats.load, found]
    rfl
  exact run_of_broken present (load_of_missing rfl) rfl accepted

end Program

end LongDivision
