/-!
# The version of the library
-/

namespace RoleResolution

/-- The version of the library. -/
def version : String := "0.1.0"

end RoleResolution
