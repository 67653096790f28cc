import Warrant.Exchange.Disk

/-! What was written to a disk is read from it. -/

namespace Warrant.Disk

/-- Walks depend on the folders only. -/
theorem walk?_of_folders_eq {a b : Disk} (same : a.folders = b.folders) (place : Place)
    (steps : List Step) : a.walk? place steps = b.walk? place steps := by
  -- Whether a folder stands somewhere is all that a walk asks of the disk.
  have folder : ∀ place, a.isFolder place = b.isFolder place := by
    intro place
    rw [isFolder, isFolder, same]
  -- One step after the other starts from a folder on both disks or on none.
  induction steps generalizing place with
  | nil => rfl
  | cons step rest ih =>
    cases step with
    | down name => rw [walk?, walk?, folder, ih]
    | up => rw [walk?, walk?, folder, ih]

/-- A path ends at the same place after a file was put somewhere. -/
theorem locate?_put (disk : Disk) (place : Place) (text : String) (path : Path) :
    (disk.put place text).locate? path = disk.locate? path := by
  have walk := walk?_of_folders_eq (a := disk.put place text) (b := disk) rfl [] path.steps
  rw [locate?, locate?, walk]

/-- A file that was written is read. -/
theorem read?_of_write?_eq_some {disk written : Disk} {path : Path} {text : String}
    (done : disk.write? path text = some written) : written.read? path = some text := by
  -- The walk to the path ends at one place, before the file was put there and after.
  obtain ⟨place, found, done⟩ := Option.bind_eq_some_iff.mp done
  -- Nothing is written to a path that only a folder may end.
  split at done
  · cases done
  · rename_i fits
    cases done
    simp only [Bool.or_eq_true, not_or, Bool.not_eq_true] at fits
    rw [read?, fits.1.1, if_neg Bool.false_ne_true, locate?_put, found, Option.bind_some]
    exact List.lookup_cons_self

/-- A file that was saved is read. -/
theorem read?_of_save {disk made : Disk} {path : Path} {text : String}
    (saved : disk.save path text = (made, true)) : made.read? path = some text := by
  -- Saving succeeds in one case only, in which the file was written.
  unfold save at saved
  split at saved
  · split at saved
    · rename_i written done
      cases saved
      exact read?_of_write?_eq_some done
    · cases saved
  · cases saved

/-- What is read is there. -/
theorem holds_of_read? {disk : Disk} {path : Path} {text : String}
    (found : disk.read? path = some text) : disk.holds path = true := by
  rw [holds, found, Option.isSome_some, Bool.or_true]

end Warrant.Disk
