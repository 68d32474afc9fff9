import Wireplug.DirectPort
import Wireplug.Foundation.Failing
import Wireplug.PeerTracking

namespace Wireplug

open Foundation Program ByteStream Client

section Ends

variable {α : Type} {Q : α → Prop} {fromBase64 : String → Option Key} {ifName : String}
  {traverseNat : Bool}

end Ends

end Wireplug
