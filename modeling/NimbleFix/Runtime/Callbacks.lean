import NimbleFix.Codec.Peek
import NimbleFix.Session.Inbound

/-!
# Which callback gets a message (`HandleInboundFrame`, `HandleProtocolEvent`)

The administrative callback is chosen by the type in the peeked header, the application callback by
the messages of the protocol's event. Without an application an acceptor sends these back, and an
initiator drops them.
-/

namespace NimbleFix

/-- What the handlers pass on if no callback fails or is busy. -/
structure PassedMessages where
  admin : List DecodedMessageView
  application : List DecodedMessageView
  echoed : List DecodedMessageView

def passMessages (isAcceptor hasApplication : Bool) (header : SessionHeaderView)
    (decoded : DecodedMessageView) (event : ProtocolEvent) : PassedMessages where
  admin := if hasApplication && isAdminMessage header.msgType then [decoded] else []
  application := if hasApplication then event.applicationMessages else []
  echoed := if isAcceptor && !hasApplication then event.applicationMessages else []

end NimbleFix
