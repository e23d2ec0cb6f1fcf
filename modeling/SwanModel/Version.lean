/-! # The version of the library -/

namespace SwanModel

def versionText : String := "1.0.0.x"

end SwanModel
