import Storyboard.Fingerprint.Digest
import Storyboard.Fingerprint.Encoding

namespace Storyboard

def Fingerprint.ofStates (states : List ElementState) : Fingerprint :=
  digest ⟨(Fingerprint.encode states).toArray⟩

end Storyboard
