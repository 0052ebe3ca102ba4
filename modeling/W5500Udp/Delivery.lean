import W5500Udp.Queue
import W5500Udp.ReaderStream
import W5500Udp.Transmit

/-! # Delivery: the receive ring under arrivals and every call

The chip appends each datagram it receives to the receive ring at its write pointer, as the
header `UdpHeader::deser` reads and then the payload. Between arrivals any method may be called
on any socket. Every call leaves the queue of socket `sn` as it was or takes its head datagram:
`udp_recv_from` hands over its origin and the first bytes of its payload, a reader scope that
moves `Sn_RX_RD` hands its body the whole datagram. Over every run, the datagrams taken followed
by those still buffered are those buffered at the start followed by those that arrived: none is
lost, taken twice, reordered or corrupted. -/
namespace W5500Udp

variable {E T : Type}

/-- The bytes the chip writes for a datagram it receives: the header's wire bytes, then the
payload. -/
def Datagram.wire (d : Datagram) : List UInt8 := List.ofFn d.header.toWire ++ d.payload

/-- The receive ring of `s` holds `rest` back to back from `Sn_RX_RD` up to the chip's write
pointer `wr`, and the queue is shorter than the ring. -/
structure Buffered (s : Socket) (wr : UInt16) (rest : List Datagram) : Prop where
  holds : Holds s.rxBuf s.rxRd rest
  fits : queueSize rest < 65536
  wr : wr = s.rxRd + UInt16.ofNat (queueSize rest)

/-- What one call did to the queue `rest` of a socket going from `s` to `s'`, handing over
`got`: nothing, or it took the head datagram and handed over its origin and a prefix of its
payload. -/
inductive Takes (s : Socket) (rest : List Datagram) (s' : Socket) :
    List (SocketAddrV4 × List UInt8) → Prop
  | keep : s'.rxBuf = s.rxBuf → s'.rxRd = s.rxRd → Takes s rest s' []
  | pop {d : Datagram} {ds : List Datagram} (g : SocketAddrV4 × List UInt8) : rest = d :: ds →
      s'.rxBuf = s.rxBuf → s'.rxRd = s.rxRd + 8 + UInt16.ofNat d.payload.length →
      g.1 = d.origin → g.2 <+: d.payload → Takes s rest s' [g]

/-! ## The queue in the ring -/

section Ring

variable {ring ring' : UInt16 → UInt8}

theorem u16_add_eight_ofNat (p : UInt16) (i : Nat) :
    p + 8 + UInt16.ofNat i = p + UInt16.ofNat (8 + i) :=
  u16_add_ofNat_add p 8 i

theorem queueSize_append (ds : List Datagram) (d : Datagram) :
    queueSize (ds ++ [d]) = queueSize ds + (8 + d.payload.length) := by
  induction ds with
  | nil => rw [List.nil_append, queueSize, queueSize, queueSize]; omega
  | cons e ds ih => rw [List.cons_append, queueSize, queueSize, ih]; omega

theorem Holds.congr {p : UInt16} {ds : List Datagram} (hs : queueSize ds < 65536)
    (hag : ∀ j < queueSize ds, ring' (p + UInt16.ofNat j) = ring (p + UInt16.ofNat j))
    (h : Holds ring p ds) : Holds ring' p ds := by
  induction ds generalizing p with
  | nil => trivial
  | cons d ds ih =>
    obtain ⟨hl, hh, hp, hr⟩ := h
    simp only [queueSize] at hs hag
    refine ⟨hl, fun i => (hag i (by have : (i : Nat) < 8 := i.2; omega)).trans (hh i),
      fun i h => ?_, ?_⟩
    · rw [u16_add_eight_ofNat, hag _ (by omega), ← u16_add_eight_ofNat]
      exact hp i h
    · refine ih (by omega) (fun j hj => ?_) hr
      rw [u16_add_eight_ofNat, u16_add_ofNat_add, hag _ (by omega)]

theorem Holds.snoc {d : Datagram} {p : UInt16} {ds : List Datagram} (h : Holds ring p ds)
    (hd : Holds ring (p + UInt16.ofNat (queueSize ds)) [d]) : Holds ring p (ds ++ [d]) := by
  induction ds generalizing p with
  | nil => rwa [queueSize, u16_add_ofNat_zero] at hd
  | cons e ds ih =>
    obtain ⟨hl, hh, hp, hr⟩ := h
    refine ⟨hl, hh, hp, ih hr ?_⟩
    rw [u16_add_eight_ofNat, u16_add_ofNat_add]
    exact hd

theorem holds_wire (ring : UInt16 → UInt8) (wr : UInt16) {d : Datagram}
    (hd : 8 + d.payload.length < 65536) : Holds (writeRing ring wr d.wire) wr [d] := by
  have hl : d.wire.length = 8 + d.payload.length := by
    rw [Datagram.wire, List.length_append, List.length_ofFn]
  have hw : ∀ j (hj : j < d.wire.length), writeRing ring wr d.wire (wr + UInt16.ofNat j) =
      d.wire[j] := by
    intro j hj
    rw [writeRing_apply _ _ _ (by omega), u16_sub_add_ofNat _ (by omega), if_pos hj,
      List.getD_eq_getElem _ _ hj]
  refine ⟨by omega, fun i => ?_, fun i h => ?_, trivial⟩
  · have hi : (i : Nat) < 8 := i.2
    rw [hw i (by omega)]
    change (List.ofFn d.header.toWire ++ d.payload)[(i : Nat)] = _
    rw [List.getElem_append_left (by rw [List.length_ofFn]; exact i.2), List.getElem_ofFn]
  · have h8 : 8 + i < (List.ofFn d.header.toWire ++ d.payload).length := by
      rw [List.length_append, List.length_ofFn]; exact Nat.add_lt_add_left h 8
    rw [u16_add_eight_ofNat, hw _ (by omega)]
    change (List.ofFn d.header.toWire ++ d.payload)[8 + i] = _
    rw [List.getElem_append_right (by rw [List.length_ofFn]; exact Nat.le_add_right 8 i)]
    simp only [List.length_ofFn, UdpHeader.LEN_USIZE, Nat.add_sub_cancel_left]

end Ring

section Buffered

variable {s s' : Socket} {wr : UInt16} {rest : List Datagram}

theorem Buffered.of_rx (hb : Buffered s wr rest) (hbuf : s'.rxBuf = s.rxBuf)
    (hrd : s'.rxRd = s.rxRd) : Buffered s' wr rest :=
  ⟨hbuf ▸ hrd ▸ hb.holds, hb.fits, hrd ▸ hb.wr⟩

theorem Buffered.sub_toNat (hb : Buffered s wr rest) : (wr - s.rxRd).toNat = queueSize rest := by
  rw [hb.wr, u16_sub_add_ofNat _ hb.fits]

theorem Buffered.arrive (hb : Buffered s wr rest) {d : Datagram}
    (hroom : (wr - s.rxRd).toNat + 8 + d.payload.length < 65536)
    (hbuf : s'.rxBuf = writeRing s.rxBuf wr d.wire) (hrd : s'.rxRd = s.rxRd) :
    Buffered s' (wr + UInt16.ofNat d.wire.length) (rest ++ [d]) := by
  have hd := hb.sub_toNat
  have hl : d.wire.length = 8 + d.payload.length := by
    rw [Datagram.wire, List.length_append, List.length_ofFn]
  have hframe : ∀ j < queueSize rest, writeRing s.rxBuf wr d.wire (s.rxRd + UInt16.ofNat j) =
      s.rxBuf (s.rxRd + UInt16.ofNat j) := by
    intro j hj
    refine writeRing_of_le _ _ _ (by omega) ?_
    rw [u16_add_ofNat_sub _ _ (by omega), hd, Nat.mod_eq_of_lt (by omega)]
    omega
  refine ⟨?_, by rw [queueSize_append]; omega, ?_⟩
  · rw [hbuf, hrd]
    refine Holds.snoc (Holds.congr hb.fits hframe hb.holds) ?_
    rw [← hb.wr]
    exact holds_wire _ _ (by omega)
  · rw [hrd, queueSize_append, hb.wr, u16_add_ofNat_add, hl]

theorem Buffered.takes (hb : Buffered s wr rest) {got : List (SocketAddrV4 × List UInt8)}
    (ht : Takes s rest s' got) :
    ∃ popped rest', rest = popped ++ rest' ∧
      List.Forall₂ (fun g d => g.1 = d.origin ∧ g.2 <+: d.payload) got popped ∧
      Buffered s' wr rest' := by
  cases ht with
  | keep hbuf hrd => exact ⟨[], rest, rfl, .nil, hb.of_rx hbuf hrd⟩
  | @pop d ds g hrest hbuf hrd ho hp =>
    subst hrest
    have hs := hb.fits
    simp only [queueSize] at hs
    refine ⟨[d], ds, rfl, .cons ⟨ho, hp⟩ .nil, ⟨?_, by omega, ?_⟩⟩
    · rw [hbuf, hrd]; exact hb.holds.2.2.2
    · rw [hrd, hb.wr, queueSize, u16_add_eight_ofNat, u16_add_ofNat_add]

end Buffered

/-! ## What each method takes -/

section Methods

variable {sn : Sn} {c : Chip} {wr : UInt16} {rest : List Datagram}

theorem writerExit_rx {dest : Option SocketAddrV4} {o : Outcome (Except (Error E) T × Writer)} :
    ((writerExit sn dest o).chip sn).rxBuf = (o.chip sn).rxBuf ∧
      ((writerExit sn dest o).chip sn).rxRd = (o.chip sn).rxRd := by
  unfold writerExit; split <;> (try split) <;> simp

theorem writer_rx (dest : Option SocketAddrV4) (f : WriterProg E (Except (Error E) T)) :
    ((writerExit sn dest (f.run (openWriter sn (c sn)) c)).chip sn).rxBuf = (c sn).rxBuf ∧
      ((writerExit sn dest (f.run (openWriter sn (c sn)) c)).chip sn).rxRd = (c sn).rxRd := by
  rw [writerExit_rx.1, writerExit_rx.2, TxOnly.apply_self (writer_body_tx_only sn f c).1]
  exact ⟨rfl, rfl⟩

theorem udpSend_rx (buf : List UInt8) :
    ((udpSend sn buf c).chip sn).rxBuf = (c sn).rxBuf ∧
      ((udpSend sn buf c).chip sn).rxRd = (c sn).rxRd := by
  rw [udpSend_apply]
  split
  · simp only [Function.update_same]; exact ⟨rfl, rfl⟩
  · exact ⟨rfl, rfl⟩

theorem udpSendIfFree_rx (buf : List UInt8) :
    ((udpSendIfFree sn buf c).chip sn).rxBuf = (c sn).rxBuf ∧
      ((udpSendIfFree sn buf c).chip sn).rxRd = (c sn).rxRd := by
  rw [udpSendIfFree_apply]
  split
  · exact ⟨rfl, rfl⟩
  · split
    · simp only [Function.update_same]; exact ⟨rfl, rfl⟩
    · exact ⟨rfl, rfl⟩

theorem datagramPayload_of_holds {d : Datagram} {ds : List Datagram}
    (hq : Holds (c sn).rxBuf (c sn).rxRd (d :: ds)) : datagramPayload (c sn) = d.payload := by
  have hlen : (headerAt (c sn)).len.toNat = d.payload.length := by
    rw [headerAt_of_holds hq, Datagram.header, u16_toNat_ofNat, Nat.mod_eq_of_lt hq.1]
  apply List.ext_getElem (by rw [datagramPayload, List.length_ofFn, hlen])
  intro i _ h
  simp only [datagramPayload, List.getElem_ofFn]
  exact hq.2.2.1 i h

theorem recvFrom_takes (buf : List UInt8) (hrsr : (c sn).rxRsr.toNat ≤ (wr - (c sn).rxRd).toNat)
    (hq : Buffered (c sn) wr rest) :
    Takes (c sn) rest ((udpRecvFrom (E := E) sn buf c).chip sn)
      (received (udpRecvFrom (E := E) sn buf c).value) := by
  cases rest with
  | nil =>
    have h0 : (c sn).rxRsr.toNat = 0 := by
      rw [hq.sub_toNat, queueSize] at hrsr; omega
    obtain ⟨hc, hr⟩ := udpRecvFrom_of_empty (E := E) buf h0
    rw [hc, hr]
    exact .keep rfl rfl
  | cons d ds =>
    rcases udpRecvFrom_of_holds (E := E) buf hq.holds with ⟨hc, hr⟩ | ⟨hc, hr⟩
    · rw [hc, hr]
      exact .keep rfl rfl
    · rw [hc, hr, Function.update_same]
      exact .pop _ rfl rfl rfl rfl (List.take_prefix _ _)

theorem reader_takes (f : ReaderProg E (Except (Error E) T))
    (hw : DatagramReady (c sn) ∨ (c sn).rxRsr.toNat < 8)
    (hrsr : (c sn).rxRsr.toNat ≤ (wr - (c sn).rxRd).toNat) (hq : Buffered (c sn) wr rest) :
    Takes (c sn) rest ((udpReader sn f c).chip sn)
      (if ((udpReader sn f c).chip sn).rxRd ≠ (c sn).rxRd then
        [((headerAt (c sn)).origin, datagramPayload (c sn))] else []) := by
  rcases hw with hready | hshort
  · rcases udpReader_advances sn f hready with h | h
    · rw [h, if_neg (not_not.2 rfl)]
      exact .keep rfl rfl
    · cases rest with
      | nil =>
        have := hready.1
        rw [hq.sub_toNat, queueSize] at hrsr
        omega
      | cons d ds =>
        have hh := headerAt_of_holds hq.holds
        have hs := hq.fits
        simp only [queueSize] at hs
        have hnext : ((udpReader sn f c).chip sn).rxRd =
            (c sn).rxRd + 8 + UInt16.ofNat d.payload.length := by
          rw [h, nextDatagram_rxRd, hh]; rfl
        have hne : ((udpReader sn f c).chip sn).rxRd ≠ (c sn).rxRd := by
          rw [hnext, u16_add_eight_ofNat]
          intro he
          have : ((c sn).rxRd + UInt16.ofNat (8 + d.payload.length) - (c sn).rxRd).toNat =
              8 + d.payload.length := u16_sub_add_ofNat _ (by omega)
          rw [he, u16_sub_self_toNat] at this
          omega
        rw [if_pos hne]
        refine .pop _ rfl (by rw [h]) hnext (by rw [hh]; rfl) ?_
        rw [datagramPayload_of_holds hq.holds]
  · have hc : checkedSub (c sn).rxRsr UdpHeader.LEN = none :=
      checkedSub_eq_none.2 ((u16_lt_iff _ _).2 hshort)
    have hchip : (udpReader sn f c).chip = c := by rw [udpReader_apply, hc]
    rw [hchip, if_neg (not_not.2 rfl)]
    exact .keep rfl rfl

end Methods

namespace UdpCall

/-- A reader scope on `sn` is opened only when its body can read whole datagrams: the whole
datagram at `Sn_RX_RD` is buffered, or not even its header. -/
def WholeOnly (sn : Sn) : UdpCall E → Chip → Prop
  | reader sn' _, c => sn' = sn → DatagramReady (c sn) ∨ (c sn).rxRsr.toNat < 8
  | _, _ => True

def handed (sn : Sn) : UdpCall E → Chip → List (SocketAddrV4 × List UInt8)
  | recvFrom sn' buf, c => if sn' = sn then received (udpRecvFrom (E := E) sn' buf c).value else []
  | reader sn' f, c =>
    if sn' = sn then
      if ((udpReader sn' f c).chip sn).rxRd ≠ (c sn).rxRd then
        [((headerAt (c sn)).origin, datagramPayload (c sn))] else []
    else []
  | _, _ => []

theorem handed_of_ne {sn : Sn} {op : UdpCall E} (h : op.sn ≠ sn) (c : Chip) :
    op.handed sn c = [] := by
  cases op <;> first | rfl | exact if_neg h

theorem run_takes (op : UdpCall E) {sn : Sn} {c : Chip} {wr : UInt16} {rest : List Datagram}
    (hb : op.sn = sn → op.isBind = false) (hw : op.WholeOnly sn c)
    (hrsr : (c sn).rxRsr.toNat ≤ (wr - (c sn).rxRd).toNat) (hq : Buffered (c sn) wr rest) :
    Takes (c sn) rest ((op.run c).chip sn) (op.handed sn c) := by
  rcases eq_or_ne op.sn sn with hs | hs
  · cases op <;> dsimp only [UdpCall.sn, UdpCall.run, handed, WholeOnly] at hs hb hw ⊢ <;>
      subst hs
    case bind => cases hb rfl
    case recvFrom sn buf =>
      rw [if_pos rfl]
      exact recvFrom_takes buf hrsr hq
    case peekFrom sn buf =>
      rw [udpPeekFrom_chip]
      exact .keep rfl rfl
    case peekFromHeader sn =>
      rw [udpPeekFromHeader_chip]
      exact .keep rfl rfl
    case sendTo sn buf addr =>
      have h := @udpSend_rx sn (Function.update c sn { c sn with dest := addr }) buf
      rw [Function.update_same] at h
      rw [udpSendTo_eq, Outcome.prepend_chip]
      exact .keep h.1 h.2
    case sendToIfFree sn buf addr =>
      have h := @udpSendIfFree_rx sn (Function.update c sn { c sn with dest := addr }) buf
      rw [Function.update_same] at h
      rw [udpSendToIfFree_eq, Outcome.prepend_chip]
      exact .keep h.1 h.2
    case send sn buf => exact .keep (udpSend_rx buf).1 (udpSend_rx buf).2
    case sendIfFree sn buf => exact .keep (udpSendIfFree_rx buf).1 (udpSendIfFree_rx buf).2
    case reader sn f =>
      rw [if_pos rfl]
      exact reader_takes f (hw rfl) hrsr hq
    case writer sn f =>
      rw [udpWriter_apply, Outcome.prepend_chip]
      exact .keep (writer_rx none f).1 (writer_rx none f).2
    case writerTo sn addr f =>
      rw [udpWriterTo_apply, Outcome.prepend_chip]
      exact .keep (writer_rx (some addr) f).1 (writer_rx (some addr) f).2
  · rw [op.run_local.frame c sn (Ne.symm hs), handed_of_ne hs]
    exact .keep rfl rfl

end UdpCall

/-! ## Runs -/

/-- Runs from chip `c`, whose write pointer for socket `sn` is at `wr₀`: calls of any method on
any socket but a bind of `sn`, each made while `Sn_RX_RSR` counts no byte past the write
pointer, and a reader scope on `sn` only on whole datagrams; the chip receiving a datagram when
the ring has room for it, writing it at the write pointer and moving the pointer past it; and
the chip reporting any `Sn_RX_RSR`. `arrived` lists the datagrams received and `got` what the
calls handed over, both oldest first. -/
inductive RxLog (E : Type) (sn : Sn) (c : Chip) (wr₀ : UInt16) :
    Chip → UInt16 → List Datagram → List (SocketAddrV4 × List UInt8) → Prop
  | nil : RxLog E sn c wr₀ c wr₀ [] []
  | call {c' : Chip} {wr : UInt16} {arrived : List Datagram}
      {got : List (SocketAddrV4 × List UInt8)} (op : UdpCall E) :
      RxLog E sn c wr₀ c' wr arrived got → (op.sn = sn → op.isBind = false) →
      op.WholeOnly sn c' → (c' sn).rxRsr.toNat ≤ (wr - (c' sn).rxRd).toNat →
      RxLog E sn c wr₀ (op.run c').chip wr arrived (got ++ op.handed sn c')
  | arrive {c' : Chip} {wr : UInt16} {arrived : List Datagram}
      {got : List (SocketAddrV4 × List UInt8)} (d : Datagram) :
      RxLog E sn c wr₀ c' wr arrived got →
      (wr - (c' sn).rxRd).toNat + 8 + d.payload.length < 65536 →
      RxLog E sn c wr₀
        (Function.update c' sn { c' sn with rxBuf := writeRing (c' sn).rxBuf wr d.wire })
        (wr + UInt16.ofNat d.wire.length) (arrived ++ [d]) got
  | report {c' : Chip} {wr : UInt16} {arrived : List Datagram}
      {got : List (SocketAddrV4 × List UInt8)} (rsr : UInt16) :
      RxLog E sn c wr₀ c' wr arrived got →
      RxLog E sn c wr₀ (Function.update c' sn { c' sn with rxRsr := rsr }) wr arrived got

theorem RxLog.delivers {sn : Sn} {c c' : Chip} {wr₀ wr : UInt16} {q₀ arrived : List Datagram}
    {got : List (SocketAddrV4 × List UInt8)} (hq : Buffered (c sn) wr₀ q₀)
    (h : RxLog E sn c wr₀ c' wr arrived got) :
    ∃ taken rest, q₀ ++ arrived = taken ++ rest ∧
      List.Forall₂ (fun g d => g.1 = d.origin ∧ g.2 <+: d.payload) got taken ∧
      Buffered (c' sn) wr rest := by
  induction h with
  | nil => exact ⟨[], q₀, by rw [List.append_nil, List.nil_append], .nil, hq⟩
  | @call c' wr arrived got op _ hb hw hrsr ih =>
    obtain ⟨taken, rest, he, hf, hbuf⟩ := ih
    obtain ⟨t, rest', rfl, hf', hbuf'⟩ := hbuf.takes (op.run_takes hb hw hrsr hbuf)
    exact ⟨taken ++ t, rest', by rw [he, List.append_assoc], List.rel_append hf hf', hbuf'⟩
  | @arrive c' wr arrived got d _ hroom ih =>
    obtain ⟨taken, rest, he, hf, hbuf⟩ := ih
    refine ⟨taken, rest ++ [d], by rw [← List.append_assoc, he, List.append_assoc], hf, ?_⟩
    exact hbuf.arrive hroom (by rw [Function.update_same]) (by rw [Function.update_same])
  | @report c' wr arrived got rsr _ ih =>
    obtain ⟨taken, rest, he, hf, hbuf⟩ := ih
    exact ⟨taken, rest, he, hf,
      hbuf.of_rx (by rw [Function.update_same]) (by rw [Function.update_same])⟩

/-- Over every run from a ring holding the queue `q₀`, the datagrams the calls took followed by
those still buffered are `q₀` followed by those that arrived, and each call handed over the
origin of the datagram it took and a prefix of its payload. -/
theorem rx_log_delivers_in_order {sn : Sn} {c c' : Chip} {wr₀ wr : UInt16}
    {q₀ arrived : List Datagram} {got : List (SocketAddrV4 × List UInt8)}
    (hq : Buffered (c sn) wr₀ q₀) (h : RxLog E sn c wr₀ c' wr arrived got) :
    ∃ taken rest, q₀ ++ arrived = taken ++ rest ∧
      List.Forall₂ (fun g d => g.1 = d.origin ∧ g.2 <+: d.payload) got taken ∧
      Buffered (c' sn) wr rest :=
  h.delivers hq

def zeroArrived : Chip :=
  Function.update (Function.update (fun _ => idleSocket 0) 0
      { idleSocket 0 with rxBuf := writeRing (idleSocket 0).rxBuf 0 zeroDatagram.wire })
    0 { idleSocket 0 with rxBuf := writeRing (idleSocket 0).rxBuf 0 zeroDatagram.wire, rxRsr := 24 }

/-- On an idle chip, `zeroDatagram` arrives on socket 0, the chip reports its 24 bytes and
`udp_recv_from` takes it into a 4-byte buffer. -/
theorem zero_datagram_arrives_then_received :
    Buffered (idleSocket 0) 0 [] ∧
      RxLog Unit 0 (fun _ => idleSocket 0) 0
        ((UdpCall.recvFrom (E := Unit) 0 (List.replicate 4 0)).run zeroArrived).chip
        (0 + UInt16.ofNat zeroDatagram.wire.length) [zeroDatagram]
        ((UdpCall.recvFrom (E := Unit) 0 (List.replicate 4 0)).handed 0 zeroArrived) ∧
      ∃ taken rest, [] ++ [zeroDatagram] = taken ++ rest ∧
        List.Forall₂ (fun g d => g.1 = d.origin ∧ g.2 <+: d.payload)
          ((UdpCall.recvFrom (E := Unit) 0 (List.replicate 4 0)).handed 0 zeroArrived) taken ∧
        Buffered (((UdpCall.recvFrom (E := Unit) 0 (List.replicate 4 0)).run zeroArrived).chip 0)
          (0 + UInt16.ofNat zeroDatagram.wire.length) rest :=
  have hq : Buffered (idleSocket 0) 0 [] := ⟨trivial, by decide, by decide⟩
  have h : RxLog Unit 0 (fun _ => idleSocket 0) 0 _ _ [zeroDatagram] _ :=
    .call (.recvFrom 0 (List.replicate 4 0))
      (.report 24 (.arrive zeroDatagram .nil (by decide))) (fun _ => rfl) trivial (by decide)
  ⟨hq, h, rx_log_delivers_in_order hq h⟩

end W5500Udp
