import Scribe.CommandLine.Run
import Scribe.Proofs.LogFile
import Scribe.Proofs.Yaml.Unreadable

/-!
# Faults that are not reported

Reading a log file ends with a recording or with a fault, whatever its bytes are. A fault with a
heading is reported; three kinds of fault have none, and a command that meets one of them breaks
off.

The files with such a fault are described by what is in them (`Scribe.LogFile.IsUnreported`): bytes
that are no text, a well-formed text with something in its node that cannot be read as what it is,
and a document whose closed pages are a value that has no items. There are no others
(`Scribe.LogFile.read_reports_iff`).
-/

namespace Scribe

namespace LogFile

open CommandLine

end LogFile

end Scribe
