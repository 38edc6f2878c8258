import SodiumDecl.Text.Search
import SodiumDecl.Version

/-!
# Settings

Where releases are downloaded from and which ones are accepted. The address of a release
is a template in which a placeholder stands for the version.
-/

namespace SodiumDecl

/-- The settings of a run. -/
structure Settings where
  archiveTemplate : String := "https://github.com/jedisct1/libsodium.js/archive/\x7bversion\x7d.zip"
  library : String := "libsodium.js"
  defaultVersion : String := Version.oldestSupported
  minimumVersion : String := Version.oldestSupported
  deriving DecidableEq, Repr

namespace Settings

/-- What stands for the version in the template of an address. -/
def placeholder : String := "\x7bversion\x7d"

/-- The address of the archive of a release. -/
def archiveUrl (s : Settings) (version : String) : String :=
  Text.substitute placeholder version s.archiveTemplate

/-- The directory of an archive that holds the release. -/
def archiveRoot (s : Settings) (version : String) : String := s.library ++ "-" ++ version

end Settings

end SodiumDecl
