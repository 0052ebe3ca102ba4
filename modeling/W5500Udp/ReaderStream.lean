import Mathlib.Data.List.OfFn
import W5500Udp.Framing

/-! # The reader scope as a byte stream

Above the ring, a reader body reads a list of bytes through a cursor: `read` takes what is left
up to the buffer's length, `read_exact` all or nothing, `seek` moves the cursor inside the
list. `ReaderProg.stream` runs a body that way. The body run on the chip refines it, the list
being the window's bytes, whatever the pointers' wrapping. So a `udp_reader` body on a fully
buffered datagram reads exactly the datagram's payload. -/
namespace W5500Udp

variable {E T α : Type}

def TcpReader.bytes (r : TcpReader) (c : Chip) : List UInt8 :=
  List.ofFn fun i : Fin (r.tailPtr - r.headPtr).toNat => (c r.sn).rxBuf (r.headPtr + UInt16.ofNat i)

def SeekFrom.target : SeekFrom → Nat → Nat → Int
  | .start n, _, _ => n
  | .«end» n, len, _ => len + n
  | .current n, _, pos => pos + n

/-- A reader body over `data`, the datagram's header at hand: returns the body's result, the
cursor and the unread flag. -/
def ReaderProg.stream (data : List UInt8) (header : UdpHeader) :
    ReaderProg E α → Nat → Bool → α × Nat × Bool
  | .pure a, pos, u => (a, pos, u)
  | .read buf k, pos, u =>
    let n := min (data.length - pos) (min buf.length 65535)
    (k (UInt16.ofNat n, (data.drop pos).take n ++ buf.drop n)).stream data header (pos + n) u
  | .readExact buf k, pos, u =>
    if data.length - pos < buf.length then (k (.error .truncated)).stream data header pos u
    else (k (.ok ((data.drop pos).take buf.length))).stream data header (pos + buf.length) u
  | .seek sp k, pos, u =>
    if 0 ≤ sp.target data.length pos ∧ sp.target data.length pos ≤ data.length then
      (k (.ok ())).stream data header (sp.target data.length pos).toNat u
    else (k (.error .truncated)).stream data header pos u
  | .rewind k, _, u => k.stream data header 0 u
  | .streamLen k, pos, u => (k (UInt16.ofNat data.length)).stream data header pos u
  | .streamPosition k, pos, u => (k (UInt16.ofNat pos)).stream data header pos u
  | .remain k, pos, u => (k (UInt16.ofNat (data.length - pos))).stream data header pos u
  | .unread k, pos, _ => k.stream data header pos true
  | .isUnread k, pos, u => (k u).stream data header pos u
  | .header k, pos, u => (k header).stream data header pos u

/-! ## Reading from the ring reads the window's bytes -/

section Reader

variable {r : TcpReader}

theorem bytes_length (r : TcpReader) (c : Chip) :
    (r.bytes c).length = (r.tailPtr - r.headPtr).toNat :=
  List.length_ofFn _

theorem ofFn_rxBuf_eq_bytes (hr : r.Valid) (c : Chip) {n : Nat} (hn : n ≤ r.remain.toNat) :
    (List.ofFn fun i : Fin n => (c r.sn).rxBuf (r.ptr + UInt16.ofNat i)) =
      ((r.bytes c).drop r.streamPosition.toNat).take n := by
  have hs := InWindow.position_add_remain hr
  apply List.ext_getElem
  · simp only [TcpReader.remain] at hn
    simp only [List.length_ofFn, List.length_take, List.length_drop, bytes_length,
      TcpReader.streamPosition]
    omega
  intro i _ _
  simp only [List.getElem_ofFn, List.getElem_take, List.getElem_drop, TcpReader.bytes]
  exact congrArg _ (u16_add_ofNat_eq _ _ _)

theorem TcpReader.remain_toNat (hr : r.Valid) (c : Chip) :
    r.remain.toNat = (r.bytes c).length - r.streamPosition.toNat := by
  have := InWindow.position_add_remain hr
  rw [bytes_length, TcpReader.remain, TcpReader.streamPosition]
  omega

theorem SeekFrom.offset_eq_target (sp : SeekFrom) (len position : UInt16) :
    sp.offset len position = sp.target len.toNat position.toNat := by
  cases sp <;> rfl

end Reader

section Methods

variable {r : UdpReader}

theorem bytes_of_scope {r' : UdpReader} (h : readerKind.scope r' = readerKind.scope r) (c : Chip) :
    r'.inner.bytes c = r.inner.bytes c ∧ r'.header = r.header := by
  simp only [readerKind, TcpReader.window, Prod.mk.injEq, Window.mk.injEq] at h
  obtain ⟨⟨h1, h2, h3⟩, h4⟩ := h
  unfold TcpReader.bytes
  rw [h1, h2, h3]
  exact ⟨rfl, h4⟩

theorem UdpReader.read_stream (hr : r.inner.Valid) (buf : List UInt8) (c : Chip) :
    (r.read buf c).value.1 =
        (UInt16.ofNat (min r.inner.remain.toNat (min buf.length 65535)),
          ((r.inner.bytes c).drop r.inner.streamPosition.toNat).take
              (min r.inner.remain.toNat (min buf.length 65535)) ++
            buf.drop (min r.inner.remain.toNat (min buf.length 65535))) ∧
      (r.read buf c).value.2.inner.streamPosition.toNat =
        r.inner.streamPosition.toNat + min r.inner.remain.toNat (min buf.length 65535) ∧
      (r.read buf c).value.2.inner.unread = r.inner.unread := by
  have hn : (min r.inner.remain ((u16TryFrom buf.length).getD u16Max)).toNat =
      min r.inner.remain.toNat (min buf.length 65535) := by
    rw [u16_toNat_min, u16TryFrom_getD_toNat]
  simp only [UdpReader.read, TcpReader.read]
  split
  · have hle : (min r.inner.remain ((u16TryFrom buf.length).getD u16Max)).toNat ≤
        r.inner.remain.toNat := by rw [hn]; omega
    simp only [Bus.bind_apply, snRxBuf_apply, Bus.pure_apply, Outcome.prepend_value]
    rw [← hn, u16_ofNat_toNat, ← ofFn_rxBuf_eq_bytes hr c hle]
    exact ⟨rfl, (InWindow.advance hr hle).1, trivial⟩
  · rename_i h0
    have h0' : min r.inner.remain.toNat (min buf.length 65535) = 0 := by
      rw [← hn, not_not.1 h0]; rfl
    simp only [Bus.pure_apply, h0', List.take_zero, List.drop_zero, List.nil_append]
    exact ⟨rfl, rfl, rfl⟩

theorem UdpReader.readExact_stream (hr : r.inner.Valid) (buf : List UInt8) (c : Chip) :
    (r.readExact (E := E) buf c).value.1 =
        (if r.inner.remain.toNat < buf.length then .error .truncated
        else .ok (((r.inner.bytes c).drop r.inner.streamPosition.toNat).take buf.length)) ∧
      (r.readExact (E := E) buf c).value.2.inner.streamPosition.toNat =
        (if r.inner.remain.toNat < buf.length then r.inner.streamPosition.toNat
        else r.inner.streamPosition.toNat + buf.length) ∧
      (r.readExact (E := E) buf c).value.2.inner.unread = r.inner.unread := by
  simp only [UdpReader.readExact, TcpReader.readExact]
  split
  · rename_i h
    simp only [Bus.bind_apply, Bus.pure_apply, Outcome.prepend_value, if_pos h]
    exact ⟨trivial, trivial, trivial⟩
  · rename_i h
    have hlen : (UInt16.ofNat buf.length).toNat = buf.length := by
      have := u16_toNat_lt r.inner.remain; simp only [u16_toNat_ofNat]; omega
    have hle : (UInt16.ofNat buf.length).toNat ≤ r.inner.remain.toNat := by omega
    simp only [Bus.bind_apply, snRxBuf_apply, Bus.pure_apply, Outcome.prepend_value, if_neg h]
    rw [← ofFn_rxBuf_eq_bytes hr c (by omega)]
    exact ⟨rfl, (InWindow.advance hr hle).1.trans (by rw [hlen]; rfl), trivial⟩

theorem UdpReader.seek_stream (sp : SeekFrom) (c : Chip) :
    r.seek (E := E) sp =
      if 0 ≤ sp.target (r.inner.bytes c).length r.inner.streamPosition.toNat ∧
          sp.target (r.inner.bytes c).length r.inner.streamPosition.toNat ≤
            (r.inner.bytes c).length
      then .ok { r with inner := { r.inner with ptr := (r.inner.headPtr +
          UInt16.ofNat (sp.target (r.inner.bytes c).length r.inner.streamPosition.toNat).toNat) } }
      else .error .truncated := by
  simp only [UdpReader.seek, TcpReader.seek, SeekFrom.offset_eq_target, bytes_length,
    TcpReader.streamLen]
  split <;> rfl

end Methods

/-- Every reader body run on the chip refines its run on the window's bytes: the same result,
the same cursor position and the same unread flag. -/
theorem ReaderProg.run_stream (p : ReaderProg E α) :
    ∀ (r : UdpReader) (c : Chip), r.inner.Valid →
      ((p.run r c).value.1, (p.run r c).value.2.inner.streamPosition.toNat,
          (p.run r c).value.2.inner.unread) =
        p.stream (r.inner.bytes c) r.header r.inner.streamPosition.toNat r.inner.unread := by
  induction p with
  | pure a => exact fun _ _ _ => rfl
  | read buf k ih =>
    intro r c hr
    obtain ⟨h1, h2, h3⟩ := r.read_stream hr buf c
    have hc := r.read_confined hr buf c
    have he : (r.read buf c).chip = c := hc.effect
    obtain ⟨hb, hh⟩ := bytes_of_scope hc.scope c
    simp only [ReaderProg.run, Bus.bind_apply, Outcome.prepend_value, Outcome.prepend_chip]
    rw [he, ih _ _ c hc.valid, h1, h2, h3, hb, hh, TcpReader.remain_toNat hr c]
    rfl
  | readExact buf k ih =>
    intro r c hr
    obtain ⟨h1, h2, h3⟩ := r.readExact_stream (E := E) hr buf c
    have hc := r.readExact_confined (E := E) hr buf c
    have he : (r.readExact (E := E) buf c).chip = c := hc.effect
    obtain ⟨hb, hh⟩ := bytes_of_scope hc.scope c
    simp only [ReaderProg.run, Bus.bind_apply, Outcome.prepend_value, Outcome.prepend_chip]
    rw [he, ih _ _ c hc.valid, h1, h2, h3, hb, hh, TcpReader.remain_toNat hr c]
    simp only [ReaderProg.stream]
    split <;> rfl
  | seek sp k ih =>
    intro r c hr
    have hlen := bytes_length r.inner c
    have := u16_toNat_lt (r.inner.tailPtr - r.inner.headPtr)
    simp only [ReaderProg.run, ReaderProg.stream]
    rw [UdpReader.seek_stream sp c]
    generalize sp.target (r.inner.bytes c).length r.inner.streamPosition.toNat = t
    by_cases hin : 0 ≤ t ∧ t ≤ (r.inner.bytes c).length
    · have hv : InWindow r.inner.headPtr r.inner.tailPtr
          (r.inner.headPtr + UInt16.ofNat t.toNat) := InWindow.of_le (by omega)
      have hp : (r.inner.headPtr + UInt16.ofNat t.toNat - r.inner.headPtr).toNat = t.toNat :=
        u16_sub_add_ofNat _ (by omega)
      simp only [if_pos hin]
      rw [ih _ { r with inner := { r.inner with ptr := r.inner.headPtr + UInt16.ofNat t.toNat } }
        c hv]
      simp only [TcpReader.streamPosition, hp]
      rfl
    · simp only [if_neg hin]
      exact ih _ r c hr
  | rewind k ih =>
    intro r c _
    have h0 : r.rewind.inner.streamPosition.toNat = 0 := u16_sub_self_toNat _
    simp only [ReaderProg.run, ReaderProg.stream]
    rw [ih r.rewind c InWindow.start, h0]
    rfl
  | streamLen k ih =>
    intro r c hr
    simp only [ReaderProg.run, ReaderProg.stream, UdpReader.streamLen, bytes_length,
      u16_ofNat_toNat]
    exact ih _ r c hr
  | streamPosition k ih =>
    intro r c hr
    simp only [ReaderProg.run, ReaderProg.stream, UdpReader.streamPosition, u16_ofNat_toNat]
    exact ih _ r c hr
  | remain k ih =>
    intro r c hr
    simp only [ReaderProg.run, ReaderProg.stream, ← TcpReader.remain_toNat hr c,
      UdpReader.remain, u16_ofNat_toNat]
    exact ih _ r c hr
  | unread k ih => exact fun r c hr => ih r.unread c hr
  | isUnread k ih => exact fun r c hr => ih _ r c hr
  | header k ih => exact fun r c hr => ih _ r c hr

/-! ## The reader scope -/

def datagramPayload (s : Socket) : List UInt8 :=
  List.ofFn fun i : Fin (headerAt s).len.toNat => s.rxBuf (s.rxRd + 8 + UInt16.ofNat i)

section Exit

variable {sn : Sn} {o : Outcome (Except (Error E) T × UdpReader)}

theorem readerExit_value : (readerExit sn o).value = o.value.1 := by
  unfold readerExit; split <;> (try split) <;> simp_all

theorem readerExit_socket : (readerExit sn o).chip sn =
    if o.value.1.isOk && !o.value.2.inner.isUnread then
      { o.chip sn with rxRd := o.value.2.inner.tailPtr }
    else o.chip sn := by
  unfold readerExit; split <;> (try split) <;> simp_all [Except.isOk, Except.toBool]

end Exit

/-- On a fully buffered datagram, a `udp_reader` body reads the datagram's payload as a byte
stream, its header at hand: the scope returns what the body returns on that list, and consumes
the datagram, moving `Sn_RX_RD` past it, exactly when the body returns `Ok` without `unread`. -/
theorem reader_body_reads_datagram (sn : Sn) (f : ReaderProg E (Except (Error E) T)) (c : Chip)
    (hready : DatagramReady (c sn)) :
    (udpReader sn f c).value = (f.stream (datagramPayload (c sn)) (headerAt (c sn)) 0 false).1 ∧
      (udpReader sn f c).chip sn =
        if (f.stream (datagramPayload (c sn)) (headerAt (c sn)) 0 false).1.isOk &&
            !(f.stream (datagramPayload (c sn)) (headerAt (c sn)) 0 false).2.2
        then { c sn with rxRd := nextDatagram (c sn).rxBuf (c sn).rxRd } else c sn := by
  obtain ⟨rsr, hc⟩ : ∃ rsr, checkedSub (c sn).rxRsr UdpHeader.LEN = some rsr :=
    ⟨_, checkedSub_eq_some.2 ⟨hready.1, rfl⟩⟩
  have hle : (headerAt (c sn)).len ≤ rsr := by
    have := (ready_iff_of_checkedSub hc).1 hready
    rw [u16_lt_iff] at this; rw [u16_le_iff]; omega
  have hb : (openReader sn (c sn) rsr).inner.bytes c = datagramPayload (c sn) := by
    simp only [TcpReader.bytes, openReader]
    rw [u16_add_sub_cancel_left, u16_min_eq_left hle]
    rfl
  have hr := f.run_stream (openReader sn (c sn) rsr) c (openReader_valid sn (c sn) rsr)
  rw [hb, show (openReader sn (c sn) rsr).inner.streamPosition.toNat = 0 from
    u16_sub_self_toNat _] at hr
  change _ = f.stream (datagramPayload (c sn)) (headerAt (c sn)) 0 false at hr
  rw [← hr, udpReader_apply, hc]
  simp only [Outcome.prepend_value, Outcome.prepend_chip, readerExit_value, readerExit_socket,
    (body_unobserved sn (c sn) rsr f c).1, body_tailPtr, nextDatagram_rxRd, u16_min_eq_left hle]
  exact ⟨trivial, rfl⟩

/-- A body that returns at once, on the 16-byte datagram of `partlyBuffered` once all of it is
buffered: the scope returns its `Ok` and consumes the datagram. -/
theorem reader_consumes_buffered_sixteen_byte_datagram :
    DatagramReady wholeBuffered ∧
      (udpReader (E := Unit) (T := Unit) 0 (.pure (.ok ())) fun _ => wholeBuffered).value =
        ((ReaderProg.pure (E := Unit) (α := Except (Error Unit) Unit) (.ok ())).stream
          (datagramPayload wholeBuffered) (headerAt wholeBuffered) 0 false).1 ∧
      (udpReader (E := Unit) (T := Unit) 0 (.pure (.ok ())) fun _ => wholeBuffered).chip 0 =
        if ((ReaderProg.pure (E := Unit) (α := Except (Error Unit) Unit) (.ok ())).stream
              (datagramPayload wholeBuffered) (headerAt wholeBuffered) 0 false).1.isOk &&
            !((ReaderProg.pure (E := Unit) (α := Except (Error Unit) Unit) (.ok ())).stream
              (datagramPayload wholeBuffered) (headerAt wholeBuffered) 0 false).2.2
        then { wholeBuffered with rxRd := nextDatagram wholeBuffered.rxBuf 0 }
        else wholeBuffered :=
  ⟨by decide, reader_body_reads_datagram 0 (.pure (.ok ())) _ (by decide)⟩

end W5500Udp
