import Mathlib.Data.List.OfFn
import W5500Udp.Framing

/-! # The receive ring as a queue of datagrams

The chip appends each datagram it receives to the ring as an 8-byte header, the one
`UdpHeader::deser` reads, and the payload, up to its write pointer; `Sn_RX_RSR` counts the bytes
between `Sn_RX_RD` and that pointer. Above the ring, then, a socket holds a queue of datagrams,
and `udp_recv_from` pops it: each call returns the next datagram's origin and payload, cut to
the buffer, or blocks. Over every run none is lost, skipped, returned twice or out of order. -/
namespace W5500Udp

variable {E : Type}

/-- A datagram as it was sent: where from, and its payload. -/
structure Datagram where
  origin : SocketAddrV4
  payload : List UInt8

def Datagram.header (d : Datagram) : UdpHeader := ⟨d.origin, UInt16.ofNat d.payload.length⟩

def queueSize : List Datagram → Nat
  | [] => 0
  | d :: ds => 8 + d.payload.length + queueSize ds

/-- The ring holds `ds` back to back from `p`, each as its header's wire bytes then its
payload. -/
def Holds (ring : UInt16 → UInt8) : UInt16 → List Datagram → Prop
  | _, [] => True
  | p, d :: ds => d.payload.length < 65536 ∧
      (∀ i : Fin UdpHeader.LEN_USIZE, ring (p + UInt16.ofNat i) = d.header.toWire i) ∧
      (∀ i (h : i < d.payload.length), ring (p + 8 + UInt16.ofNat i) = d.payload[i]) ∧
      Holds ring (p + 8 + UInt16.ofNat d.payload.length) ds

def received : Except (Error E) (UInt16 × SocketAddrV4) × List UInt8 →
    List (SocketAddrV4 × List UInt8)
  | (.ok (n, origin), buf) => [(origin, buf.take n.toNat)]
  | (.error _, _) => []

/-! ## One receive -/

section Step

variable {sn : Sn} {c : Chip} {d : Datagram} {ds : List Datagram}

theorem headerAt_of_holds (hq : Holds (c sn).rxBuf (c sn).rxRd (d :: ds)) :
    headerAt (c sn) = d.header := by
  rw [headerAt, show
    (fun i : Fin UdpHeader.LEN_USIZE => (c sn).rxBuf ((c sn).rxRd + UInt16.ofNat i))
    = d.header.toWire from funext hq.2.1, UdpHeader.deser_toWire]

theorem udpRecvFrom_of_holds (buf : List UInt8) (hq : Holds (c sn).rxBuf (c sn).rxRd (d :: ds)) :
    ((udpRecvFrom (E := E) sn buf c).chip = c ∧
        received (udpRecvFrom (E := E) sn buf c).value = []) ∨
      ((udpRecvFrom (E := E) sn buf c).chip = Function.update c sn
          { c sn with rxRd := (c sn).rxRd + 8 + UInt16.ofNat d.payload.length } ∧
        received (udpRecvFrom (E := E) sn buf c).value =
          [(d.origin, d.payload.take (min d.payload.length (min buf.length 65535)))]) := by
  have hh := headerAt_of_holds hq
  have hlen : (UInt16.ofNat d.payload.length).toNat = d.payload.length := by
    rw [u16_toNat_ofNat, Nat.mod_eq_of_lt hq.1]
  rw [udpRecvFrom_apply]
  split
  · exact .inl ⟨rfl, rfl⟩
  · split
    · exact .inl ⟨rfl, rfl⟩
    · refine .inr ⟨by rw [hh]; rfl, ?_⟩
      have hn : (recvCount (c sn) buf).toNat = min d.payload.length (min buf.length 65535) := by
        rw [recvCount_toNat, hh, Datagram.header, hlen]
      simp only [received, hh, Datagram.header, payloadInto, hn, List.cons.injEq, Prod.mk.injEq,
        and_true, true_and]
      rw [List.take_append_of_le_length (List.length_ofFn _).ge,
        List.take_of_length_le (List.length_ofFn _).le]
      have hm : min d.payload.length (min buf.length 65535) ≤ d.payload.length :=
        Nat.min_le_left _ _
      apply List.ext_getElem (by rw [List.length_ofFn, List.length_take, Nat.min_eq_left hm])
      intro i h1 _
      rw [List.getElem_ofFn, List.getElem_take]
      exact hq.2.2.1 i (Nat.lt_of_lt_of_le (by rwa [List.length_ofFn] at h1) hm)

theorem udpRecvFrom_of_empty (buf : List UInt8) (h : (c sn).rxRsr.toNat = 0) :
    (udpRecvFrom (E := E) sn buf c).chip = c ∧
      received (udpRecvFrom (E := E) sn buf c).value = [] := by
  have hc : checkedSub (c sn).rxRsr UdpHeader.LEN = none := by
    rw [checkedSub_eq_none, u16_lt_iff, h]; decide
  rw [udpRecvFrom_apply, hc]
  exact ⟨rfl, rfl⟩

end Step

/-! ## Runs of receives -/

/-- Runs of `udp_recv_from` on socket `sn` with any buffers, the chip's write pointer at `wr`,
and between calls the chip reporting any `Sn_RX_RSR`, at most the bytes before `wr` whenever a
receive reads it. `got` lists what the receives handed over, oldest first. -/
inductive RecvLog (E : Type) (sn : Sn) (wr : UInt16) (c : Chip) :
    Chip → List (SocketAddrV4 × List UInt8) → Prop
  | nil : RecvLog E sn wr c c []
  | recv {c' : Chip} {got : List (SocketAddrV4 × List UInt8)} (buf : List UInt8) :
      RecvLog E sn wr c c' got → (c' sn).rxRsr.toNat ≤ (wr - (c' sn).rxRd).toNat →
      RecvLog E sn wr c (udpRecvFrom (E := E) sn buf c').chip
        (got ++ received (udpRecvFrom (E := E) sn buf c').value)
  | report {c' : Chip} {got : List (SocketAddrV4 × List UInt8)} (rsr : UInt16) :
      RecvLog E sn wr c c' got →
      RecvLog E sn wr c (Function.update c' sn { c' sn with rxRsr := rsr }) got

/-- On a ring holding the queue `q` from `Sn_RX_RD` up to the write pointer, every receive of a
run hands over the next queued datagram's origin and a prefix of its payload, or nothing: what
the run handed over are the queue's first datagrams, each once and in order, and the ring still
holds the rest from `Sn_RX_RD` up to the write pointer. -/
theorem recv_log_follows_queue {sn : Sn} {c c' : Chip} {wr : UInt16} {q : List Datagram}
    {got : List (SocketAddrV4 × List UInt8)} (hq : Holds (c sn).rxBuf (c sn).rxRd q)
    (hwr : wr = (c sn).rxRd + UInt16.ofNat (queueSize q)) (h : RecvLog E sn wr c c' got) :
    ∃ pre rest, q = pre ++ rest ∧
      List.Forall₂ (fun g d => g.1 = d.origin ∧ g.2 <+: d.payload) got pre ∧
      (c' sn).rxBuf = (c sn).rxBuf ∧ Holds (c sn).rxBuf (c' sn).rxRd rest ∧
      wr = (c' sn).rxRd + UInt16.ofNat (queueSize rest) := by
  induction h with
  | nil => exact ⟨[], q, rfl, .nil, rfl, hq, hwr⟩
  | @recv c' got buf _ hrsr ih =>
    obtain ⟨pre, rest, rfl, hf, hbuf, hh, hw⟩ := ih
    cases rest with
    | nil =>
      have h0 : (c' sn).rxRsr.toNat = 0 := by
        rw [hw, queueSize, u16_add_sub_cancel_left] at hrsr
        exact Nat.le_zero.1 hrsr
      obtain ⟨hc, hr⟩ := udpRecvFrom_of_empty (E := E) buf h0
      exact ⟨pre, [], rfl, by rw [hr, List.append_nil]; exact hf, by rw [hc]; exact hbuf,
        by rw [hc]; exact hh, by rw [hc]; exact hw⟩
    | cons d ds =>
      rcases udpRecvFrom_of_holds (E := E) buf (hbuf ▸ hh) with ⟨hc, hr⟩ | ⟨hc, hr⟩
      · exact ⟨pre, d :: ds, rfl, by rw [hr, List.append_nil]; exact hf, by rw [hc]; exact hbuf,
          by rw [hc]; exact hh, by rw [hc]; exact hw⟩
      · refine ⟨pre ++ [d], ds, by rw [List.append_assoc]; rfl, ?_, ?_, ?_, ?_⟩
        · rw [hr]
          exact List.rel_append hf (.cons ⟨rfl, List.take_prefix _ _⟩ .nil)
        · rw [hc, Function.update_same]; exact hbuf
        · rw [hc, Function.update_same]; exact hh.2.2.2
        · rw [hc, Function.update_same, hw, queueSize]
          have := u16_toNat_lt (c' sn).rxRd
          simp only [u16_eq_iff, u16_toNat_add, u16_toNat_ofNat, u16_toNat_eight]
          omega
  | @report c' got rsr _ ih =>
    obtain ⟨pre, rest, hq', hf, hbuf, hh, hw⟩ := ih
    exact ⟨pre, rest, hq', hf, by rw [Function.update_same]; exact hbuf,
      by rw [Function.update_same]; exact hh, by rw [Function.update_same]; exact hw⟩

def zeroDatagram : Datagram := ⟨⟨Ipv4Addr.new 0 0 0 0, 0⟩, List.replicate 16 0⟩

/-- With all 24 bytes of `zeroDatagram` buffered, one receive into an empty buffer hands it
over, copying none of its bytes, and leaves the queue empty at the write pointer. -/
theorem recv_hands_over_zero_datagram :
    Holds wholeBuffered.rxBuf 0 [zeroDatagram] ∧
      (24 : UInt16) = 0 + UInt16.ofNat (queueSize [zeroDatagram]) ∧
      RecvLog Unit 0 24 (fun _ => wholeBuffered)
        (udpRecvFrom (E := Unit) 0 [] fun _ => wholeBuffered).chip
        ([] ++ received (udpRecvFrom (E := Unit) 0 [] fun _ => wholeBuffered).value) ∧
      ∃ pre rest, [zeroDatagram] = pre ++ rest ∧
        List.Forall₂ (fun g d => g.1 = d.origin ∧ g.2 <+: d.payload)
          ([] ++ received (udpRecvFrom (E := Unit) 0 [] fun _ => wholeBuffered).value) pre ∧
        ((udpRecvFrom (E := Unit) 0 [] fun _ => wholeBuffered).chip 0).rxBuf =
          wholeBuffered.rxBuf ∧
        Holds wholeBuffered.rxBuf
          ((udpRecvFrom (E := Unit) 0 [] fun _ => wholeBuffered).chip 0).rxRd rest ∧
        (24 : UInt16) = ((udpRecvFrom (E := Unit) 0 [] fun _ => wholeBuffered).chip 0).rxRd +
          UInt16.ofNat (queueSize rest) :=
  have hq : Holds wholeBuffered.rxBuf 0 [zeroDatagram] :=
    ⟨by decide, by decide, by decide, trivial⟩
  have hw : (24 : UInt16) = 0 + UInt16.ofNat (queueSize [zeroDatagram]) := by decide
  have h : RecvLog Unit 0 24 (fun _ => wholeBuffered) _ _ := .recv [] .nil (by decide)
  ⟨hq, hw, h, recv_log_follows_queue hq hw h⟩

end W5500Udp
