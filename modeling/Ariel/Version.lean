/-!
# Version

The version that the programs and the service report.
-/

namespace Ariel

/-- The version. -/
def version : String := "0.1.0"

end Ariel
