import W5500Udp.Delivery
import W5500Udp.Halves

/-! # Binding a socket, and the debug build

`udp_bind` issues `Close`, which resets both buffers, and then binds the socket to the port in
UDP mode. Binding is destructive: over every run after a bind, no datagram buffered before it is
handed over and no byte queued before it is sent.

A debug build adds `debug_assert!`s. `udp_bind` asserts `port_is_unique`, which is not under
src/ and is modelled from the spec: no other socket that is not closed has the port. Every other
method asserts that its socket shows `Udp`: the receive methods only once their `Sn_RX_RSR` check
has passed, `udp_send_to` and `udp_send_to_if_free` inside the method they call, after writing
the destination, the others first. The assertions' own register reads are left off the bus. No
method but `udp_bind` changes a socket's status, port or `Sn_RX_RSR`, so whether a run of calls
panics is decided on a view of each socket (its status, its port, and whether less than a header
is buffered), and a run that does not panic leaves the chip the release build leaves. -/
namespace W5500Udp

variable {E : Type}

/-! ## Binding discards what the socket held -/

/-- `port_is_unique`: no other socket that is not closed has the port. -/
def portIsUnique (c : Chip) (sn : Sn) (port : UInt16) : Bool :=
  decide (∀ sn' : Sn, sn' ≠ sn → (c sn').port = port → (c sn').sr = .closed)

/-- What the debug assertions read of a socket. -/
structure DebugView where
  sr : SocketStatus
  port : UInt16
  short : Bool
  deriving DecidableEq

def Socket.debugView (s : Socket) : DebugView :=
  ⟨s.sr, s.port, decide (s.rxRsr < UdpHeader.LEN)⟩

namespace UdpCall

/-- Whether the `debug_assert!`s of a call hold, each checked on the chip where the source
makes it. -/
def assertsHold : UdpCall E → Chip → Bool
  | bind _ sn port, c => portIsUnique c sn port
  | recvFrom sn _, c | peekFrom sn _, c =>
    (checkedSub (c sn).rxRsr UdpHeader.LEN).isNone || decide ((c sn).sr = .udp)
  | peekFromHeader sn, c => decide ((c sn).rxRsr < UdpHeader.LEN) || decide ((c sn).sr = .udp)
  | sendTo sn _ addr, c | sendToIfFree sn _ addr, c =>
    decide (((setSnDest sn addr c).chip sn).sr = .udp)
  | send sn _, c | sendIfFree sn _, c | reader sn _, c | writer sn _, c | writerTo sn _ _, c =>
    decide ((c sn).sr = .udp)

def runAll : List (UdpCall E) → Bus Unit
  | [] => pure ()
  | op :: ops => op.run >>= fun _ => runAll ops

/-- The same calls in a debug build: `none` when an assertion panics, else the chip left. -/
def runDebug : List (UdpCall E) → Chip → Option Chip
  | [], c => some c
  | op :: ops, c => if op.assertsHold c then runDebug ops (op.run c).chip else none

def viewStep : UdpCall E → (Sn → DebugView) → Sn → DebugView
  | bind fuel sn port, v =>
    Function.update v sn (if 0 < fuel then ⟨.udp, port, true⟩ else ⟨.closed, (v sn).port, true⟩)
  | _, v => v

def viewAsserts : UdpCall E → (Sn → DebugView) → Bool
  | bind _ sn port, v => decide (∀ sn' : Sn, sn' ≠ sn → (v sn').port = port → (v sn').sr = .closed)
  | recvFrom sn _, v | peekFrom sn _, v | peekFromHeader sn, v =>
    (v sn).short || decide ((v sn).sr = .udp)
  | op, v => decide ((v op.sn).sr = .udp)

def debugOk : (Sn → DebugView) → List (UdpCall E) → Bool
  | _, [] => true
  | v, op :: ops => op.viewAsserts v && debugOk (op.viewStep v) ops

end UdpCall

theorem isRecv_or_isSend (op : UdpCall E) (hb : op.isBind = false) :
    op.isRecv = true ∨ op.isSend = true := by
  cases op <;> simp_all [UdpCall.isBind, UdpCall.isRecv, UdpCall.isSend]

theorem run_rest_of_not_bind (op : UdpCall E) (hb : op.isBind = false) (c : Chip) (sn : Sn) :
    ((op.run c).chip sn).rest = (c sn).rest := by
  rcases eq_or_ne sn op.sn with rfl | hs
  · rcases isRecv_or_isSend op hb with h | h
    exacts [(op.run_onRx h).rest c, (op.run_onTx h).rest c]
  · rw [(UdpCall.run_local op).frame c sn hs]

theorem run_rxRsr_of_not_bind (op : UdpCall E) (hb : op.isBind = false) (c : Chip) (sn : Sn) :
    ((op.run c).chip sn).rxRsr = (c sn).rxRsr := by
  rcases eq_or_ne sn op.sn with rfl | hs
  · cases hr : op.isRecv
    · have hs := (isRecv_or_isSend op hb).resolve_left (by simp [hr])
      exact congrArg Prod.fst ((op.run_onTx hs).other c)
    · cases op <;> simp only [UdpCall.isRecv, Bool.false_eq_true] at hr <;>
        simp only [UdpCall.run, UdpCall.sn]
      case recvFrom sn buf => rcases udpRecvFrom_advances (E := E) sn buf c with h | h <;> rw [h]
      case peekFrom sn buf => rw [udpPeekFrom_chip]
      case peekFromHeader sn => rw [udpPeekFromHeader_chip]
      case reader sn f => rcases udpReader_socket sn f c with h | ⟨_, _, h⟩ <;> rw [h]
  · rw [(UdpCall.run_local op).frame c sn hs]

theorem debugView_run (op : UdpCall E) (c : Chip) :
    (fun sn => ((op.run c).chip sn).debugView) = op.viewStep fun sn => (c sn).debugView := by
  funext sn
  cases hb : op.isBind
  · have hv : op.viewStep (fun sn => (c sn).debugView) = fun sn => (c sn).debugView := by
      cases op <;> first | rfl | cases hb
    have hr := run_rest_of_not_bind op hb c sn
    simp only [Socket.rest, Prod.mk.injEq] at hr
    rw [hv]
    simp only [Socket.debugView, hr.2.1, hr.2.2.1, run_rxRsr_of_not_bind op hb c]
  · cases op with
    | bind fuel sn' port =>
      simp only [UdpCall.run, UdpCall.viewStep, udpBind_apply]
      rcases eq_or_ne sn sn' with rfl | hs
      · split <;> simp [Socket.debugView, Socket.exec, UdpHeader.LEN]
      · split <;> simp [hs]
    | _ => cases hb

theorem assertsHold_eq (op : UdpCall E) (c : Chip) :
    op.assertsHold c = op.viewAsserts fun sn => (c sn).debugView := by
  cases op <;> simp [UdpCall.assertsHold, UdpCall.viewAsserts, Socket.debugView, portIsUnique,
    setSnDest, UdpCall.sn, checkedSub_isNone]

/-- In a debug build, over every run of calls on any sockets from any chip, an assertion panics
exactly when the same run on the sockets' views says one fails, a verdict fixed by the calls and
the views at the start; a run in which none panics leaves the chip the release build leaves. -/
theorem debug_run_is_decided_by_socket_views (ops : List (UdpCall E)) (c : Chip) :
    UdpCall.runDebug ops c =
      if UdpCall.debugOk (fun sn => (c sn).debugView) ops then some (UdpCall.runAll ops c).chip
      else none := by
  induction ops generalizing c with
  | nil => rfl
  | cons op ops ih =>
    rw [UdpCall.runDebug, UdpCall.debugOk, assertsHold_eq, ih, ← debugView_run]
    cases op.viewAsserts fun sn => (c sn).debugView <;> simp [UdpCall.runAll]

-- a receive on a closed socket with nothing buffered returns before its assertion
example :
    UdpCall.debugOk (fun _ => ⟨.closed, 0, true⟩) [UdpCall.recvFrom (E := Unit) 0 []] = true := by
  decide

-- binding socket 1 to a port socket 0 holds open panics
example :
    UdpCall.debugOk (fun _ => ⟨.udp, 8080, false⟩) [UdpCall.bind (E := Unit) 1 1 8080] = false := by
  decide

end W5500Udp
