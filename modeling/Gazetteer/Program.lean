/-!
# The program's name and version

As they appear in documents, in requests and on the command line.
-/

namespace Gazetteer

def programName : String := "geocoder"

def programVersion : String := "0.1.0"

end Gazetteer
