/-!
# The tool and its version
-/
namespace Boardwalk.Release

def name : String := "gridwalk"

def version : String := "0.1.0"

def title : String := name ++ " " ++ version

end Boardwalk.Release
