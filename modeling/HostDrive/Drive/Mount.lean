import HostDrive.Drive.Basic
import HostDrive.Settings.Basic

/-!
# Mounting

A drive made from settings. The directory that they name has to exist on the host.
-/

namespace HostDrive.Drive

def mount (host : Host) (around : Surroundings) (s : Settings) : Except SetupError Drive :=
  match s.validate with
  | .error e => .error e
  | .ok () =>
    let base := s.basePath around
    if host.isDirectory base then .ok (Drive.new base s.label) else .error (.baseDirNotFound base)

end HostDrive.Drive
