import Ppcb.Staleness

/-!
# A `RCVD` that comes before the last `ACC`

Once the last packet is sent, a `RCVD` says that everything arrived. The client believes
it only when it already waits for `RCVD`. While it waits for the last `ACC` it takes the
`RCVD` for a timeout and sends the packet again (`rcvd_finishes_iff`), to a server that
has gone back to its idle loop.
-/

set_option autoImplicit false

namespace Ppcb

open ByteOrder CString Reactive Relation

variable {args : ClientArgs}

variable (args) in
/-- A client that has ended stays as it is. -/
theorem UDPRClient.stuck {s : UDPRClient} {ret : RetVal} (ended : s.phase = .ended ret)
    (e : ClientEvent) : (udprClientHandler args).step s e = (s, []) := by
  obtain ⟨w, nbr, phase, acked⟩ := s
  cases ended
  cases e with
  | sendto r => rfl
  | recvfrom r uninit => rfl

end Ppcb
