import W5500Udp.Udp
import W5500Udp.Scope

/-! # The receive paths

One lemma per receive method gives its whole outcome on any chip. Everything said later about
receiving reads those lemmas, never the method bodies. -/
namespace W5500Udp

variable {E T : Type}

def headerAt (s : Socket) : UdpHeader :=
  UdpHeader.deser fun i => s.rxBuf (s.rxRd + UInt16.ofNat i)

def headerReads (sn : Sn) (rd : UInt16) : List Access :=
  [.read sn .rxRsr, .read sn .rxRd, .rxBuf sn rd 8]

def payloadRead (sn : Sn) (ptr n : UInt16) : List Access :=
  if n ≠ 0 then [.rxBuf sn ptr n.toNat] else []

/-- The count both receive calls return: the datagram length, at most the buffer's length
saturated at `u16::MAX`. -/
def recvCount (s : Socket) (buf : List UInt8) : UInt16 :=
  min (headerAt s).len ((u16TryFrom buf.length).getD u16Max)

def payloadInto (s : Socket) (n : UInt16) (buf : List UInt8) : List UInt8 :=
  List.ofFn (fun i : Fin n.toNat => s.rxBuf (s.rxRd + 8 + UInt16.ofNat i)) ++ buf.drop n.toNat

/-- A whole datagram is buffered: its header, and at least as many bytes as it declares. -/
def DatagramReady (s : Socket) : Prop :=
  8 ≤ s.rxRsr.toNat ∧ (headerAt s).len.toNat ≤ s.rxRsr.toNat - 8

instance (s : Socket) : Decidable (DatagramReady s) :=
  inferInstanceAs (Decidable (_ ∧ _))

/-- The reader `udp_reader` hands to the body when `rsr` bytes follow the header. -/
def openReader (sn : Sn) (s : Socket) (rsr : UInt16) : UdpReader :=
  ⟨⟨sn, s.rxRd + 8, s.rxRd + 8 + min (headerAt s).len rsr, s.rxRd + 8, false⟩, headerAt s⟩

/-- What `udp_reader` does once the body returned: pass its error on, or commit the window
unless the body called `unread`. -/
def readerExit (sn : Sn) (o : Outcome (Except (Error E) T × UdpReader)) :
    Outcome (Except (Error E) T) :=
  match o.value.1 with
  | .error e => ⟨.error e, o.chip, o.trace⟩
  | .ok v =>
    if o.value.2.inner.isUnread then ⟨.ok v, o.chip, o.trace⟩
    else ⟨.ok v, Function.update o.chip sn { o.chip sn with rxRd := o.value.2.inner.tailPtr },
      o.trace ++ [.write sn .rxRd, .command sn .recv]⟩

@[simp] theorem Socket.exec_recv (s : Socket) : s.exec .recv = s := rfl

theorem payloadInto_zero (s : Socket) (buf : List UInt8) : payloadInto s 0 buf = buf := by
  simp [payloadInto]

theorem udpRecvFrom_apply (sn : Sn) (buf : List UInt8) (c : Chip) :
    udpRecvFrom (E := E) sn buf c =
      match checkedSub (c sn).rxRsr UdpHeader.LEN with
      | none => ⟨(.error .wouldBlock, buf), c, [.read sn .rxRsr]⟩
      | some rsr =>
        if rsr < (headerAt (c sn)).len then
          ⟨(.error .wouldBlock, buf), c, headerReads sn (c sn).rxRd⟩
        else
          ⟨(.ok (recvCount (c sn) buf, (headerAt (c sn)).origin),
              payloadInto (c sn) (recvCount (c sn) buf) buf),
            Function.update c sn { c sn with rxRd := (c sn).rxRd + 8 + (headerAt (c sn)).len },
            headerReads sn (c sn).rxRd ++
              payloadRead sn ((c sn).rxRd + 8) (recvCount (c sn) buf) ++
              [.write sn .rxRd, .command sn .recv]⟩ := by
  simp only [udpRecvFrom, Bus.bind_apply, snRxRsr, readReg_apply]
  cases checkedSub (c sn).rxRsr UdpHeader.LEN with
  | none => rfl
  | some rsr =>
    simp only [recvCount, payloadInto, payloadRead, headerReads, headerAt, snRxRd, Bus.bind_apply,
      readReg_apply, snRxBuf_apply]
    generalize (UdpHeader.deser fun i => (c sn).rxBuf ((c sn).rxRd + UInt16.ofNat i)) = H
    by_cases h : rsr < H.len
    · simp only [if_pos h, Bus.pure_apply, Outcome.prepend_mk, List.singleton_append]
    · by_cases hn : min H.len ((u16TryFrom buf.length).getD u16Max) = 0
      · simp only [if_neg h, hn, ne_eq, not_true_eq_false, if_false, Bus.bind_apply,
          Bus.pure_apply, Outcome.prepend_mk, setSnRxRd, writeReg_apply, setSnCr_apply,
          Function.update_same, Socket.exec_recv, Function.update_idem, UdpHeader.LEN,
          List.singleton_append, List.nil_append, UInt16.toNat_zero, List.ofFn_zero,
          List.drop_zero, List.append_nil, List.cons_append]
      · simp only [if_neg h, hn, ne_eq, not_false_eq_true, if_true, Bus.bind_apply,
          snRxBuf_apply, Bus.pure_apply, Outcome.prepend_mk, setSnRxRd, writeReg_apply,
          setSnCr_apply, Function.update_same, Socket.exec_recv, Function.update_idem,
          UdpHeader.LEN, List.singleton_append, List.nil_append, List.cons_append, Fin.coe_cast]

theorem udpPeekFrom_apply (sn : Sn) (buf : List UInt8) (c : Chip) :
    udpPeekFrom (E := E) sn buf c =
      match checkedSub (c sn).rxRsr UdpHeader.LEN with
      | none => ⟨(.error .wouldBlock, buf), c, [.read sn .rxRsr]⟩
      | some rsr =>
        if rsr < (headerAt (c sn)).len then
          ⟨(.error .wouldBlock, buf), c, headerReads sn (c sn).rxRd⟩
        else
          ⟨(.ok (recvCount (c sn) buf, headerAt (c sn)),
              payloadInto (c sn) (recvCount (c sn) buf) buf), c,
            headerReads sn (c sn).rxRd ++
              payloadRead sn ((c sn).rxRd + 8) (recvCount (c sn) buf)⟩ := by
  simp only [udpPeekFrom, Bus.bind_apply, snRxRsr, readReg_apply]
  cases checkedSub (c sn).rxRsr UdpHeader.LEN with
  | none => rfl
  | some rsr =>
    simp only [recvCount, payloadInto, payloadRead, headerReads, headerAt, snRxRd, Bus.bind_apply,
      readReg_apply, snRxBuf_apply]
    generalize (UdpHeader.deser fun i => (c sn).rxBuf ((c sn).rxRd + UInt16.ofNat i)) = H
    by_cases h : rsr < H.len
    · simp only [if_pos h, Bus.pure_apply, Outcome.prepend_mk, List.singleton_append]
    · by_cases hn : min H.len ((u16TryFrom buf.length).getD u16Max) = 0
      · simp only [if_neg h, hn, ne_eq, not_true_eq_false, if_false, Bus.bind_apply,
          Bus.pure_apply, Outcome.prepend_mk, List.singleton_append, List.nil_append,
          UInt16.toNat_zero, List.ofFn_zero, List.drop_zero, List.append_nil]
      · simp only [if_neg h, hn, ne_eq, not_false_eq_true, if_true, Bus.bind_apply,
          snRxBuf_apply, Bus.pure_apply, Outcome.prepend_mk, UdpHeader.LEN,
          List.singleton_append, List.nil_append, List.cons_append, List.append_nil, Fin.coe_cast]

theorem udpPeekFromHeader_apply (sn : Sn) (c : Chip) :
    udpPeekFromHeader (E := E) sn c =
      if (c sn).rxRsr < UdpHeader.LEN then ⟨.error .wouldBlock, c, [.read sn .rxRsr]⟩
      else ⟨.ok (headerAt (c sn)), c, headerReads sn (c sn).rxRd⟩ := by
  simp only [udpPeekFromHeader, Bus.bind_apply, snRxRsr, readReg_apply]
  split
  · rfl
  · rfl

theorem udpReader_apply (sn : Sn) (f : ReaderProg E (Except (Error E) T)) (c : Chip) :
    udpReader sn f c =
      match checkedSub (c sn).rxRsr UdpHeader.LEN with
      | none => ⟨.error .wouldBlock, c, [.read sn .rxRsr]⟩
      | some rsr =>
        (readerExit sn (f.run (openReader sn (c sn) rsr) c)).prepend
          (headerReads sn (c sn).rxRd) := by
  simp only [udpReader, Bus.bind_apply, snRxRsr, readReg_apply]
  cases checkedSub (c sn).rxRsr UdpHeader.LEN with
  | none => rfl
  | some rsr =>
    simp only [snRxRd, Bus.bind_apply, readReg_apply, snRxBuf_apply, Outcome.prepend_mk,
      headerReads, readerExit, openReader, headerAt, UdpHeader.LEN]
    generalize f.run _ c = o
    obtain ⟨⟨v, r⟩, c', t⟩ := o
    cases v with
    | error e => simp
    | ok v =>
      by_cases hu : r.inner.isUnread
      · simp [hu]
      · simp [hu, setSnRxRd]

/-! ## What `udp_recv_from` and `udp_peek_from` return -/

theorem ready_iff_of_checkedSub {s : Socket} {rsr : UInt16}
    (h : checkedSub s.rxRsr UdpHeader.LEN = some rsr) :
    DatagramReady s ↔ ¬ rsr < (headerAt s).len := by
  obtain ⟨hle, rfl⟩ := checkedSub_eq_some.1 h
  have := u16_toNat_lt s.rxRsr
  simp only [DatagramReady, u16_lt_iff, u16_le_iff, u16_toNat_sub, UdpHeader.LEN,
    u16_toNat_eight] at *
  omega

theorem not_ready_of_checkedSub {s : Socket} (h : checkedSub s.rxRsr UdpHeader.LEN = none) :
    ¬ DatagramReady s := by
  rw [checkedSub_eq_none, u16_lt_iff] at h
  exact fun hr => absurd hr.1 (by simpa [UdpHeader.LEN] using h)

theorem udpRecvFrom_value (sn : Sn) (buf : List UInt8) (c : Chip) :
    (udpRecvFrom (E := E) sn buf c).value =
      if DatagramReady (c sn) then
        (.ok (recvCount (c sn) buf, (headerAt (c sn)).origin),
          payloadInto (c sn) (recvCount (c sn) buf) buf)
      else (.error .wouldBlock, buf) := by
  rw [udpRecvFrom_apply]
  cases h : checkedSub (c sn).rxRsr UdpHeader.LEN with
  | none => simp [not_ready_of_checkedSub h]
  | some rsr => by_cases hl : rsr < (headerAt (c sn)).len <;> simp [hl, ready_iff_of_checkedSub h]

theorem udpPeekFrom_value (sn : Sn) (buf : List UInt8) (c : Chip) :
    (udpPeekFrom (E := E) sn buf c).value =
      if DatagramReady (c sn) then
        (.ok (recvCount (c sn) buf, headerAt (c sn)), payloadInto (c sn) (recvCount (c sn) buf) buf)
      else (.error .wouldBlock, buf) := by
  rw [udpPeekFrom_apply]
  cases h : checkedSub (c sn).rxRsr UdpHeader.LEN with
  | none => simp [not_ready_of_checkedSub h]
  | some rsr => by_cases hl : rsr < (headerAt (c sn)).len <;> simp [hl, ready_iff_of_checkedSub h]

theorem recvCount_toNat (s : Socket) (buf : List UInt8) :
    (recvCount s buf).toNat = min (headerAt s).len.toNat (min buf.length 65535) := by
  rw [recvCount, u16_toNat_min, u16TryFrom_getD_toNat]

theorem udpReader_header (sn : Sn) (k : UdpHeader → ReaderProg E (Except (Error E) T))
    (c : Chip) : udpReader sn (.header k) c = udpReader sn (k (headerAt (c sn))) c := by
  rw [udpReader_apply, udpReader_apply]
  rfl

theorem checkedSub_header {s : Socket} (h : 8 ≤ s.rxRsr.toNat) :
    checkedSub s.rxRsr UdpHeader.LEN = some (s.rxRsr - UdpHeader.LEN) :=
  checkedSub_eq_some.2 ⟨(u16_le_iff _ _).2 h, rfl⟩

theorem udpReader_of_header (sn : Sn) (f : ReaderProg E (Except (Error E) T)) {c : Chip}
    (h : 8 ≤ (c sn).rxRsr.toNat) :
    udpReader sn f c = (readerExit sn (f.run (openReader sn (c sn) ((c sn).rxRsr - UdpHeader.LEN))
      c)).prepend (headerReads sn (c sn).rxRd) := by
  rw [udpReader_apply, checkedSub_header h]

/-- `udp_recv_from` and `udp_peek_from` block on the same states and otherwise return the same
count, the same buffer and the same header (of which `udp_recv_from` keeps the origin); the
count never exceeds the buffer, so the slice `buf[..n]` is in bounds; `udp_peek_from_header`
returns that same header, `udp_reader` runs its body on a reader holding it, and the body's
`header()` answers it. -/
theorem recv_peek_agree (sn : Sn) (buf : List UInt8) (c : Chip) :
    let s := c sn
    let n := recvCount s buf
    (udpRecvFrom (E := E) sn buf c).value =
        (if DatagramReady s then (.ok (n, (headerAt s).origin), payloadInto s n buf)
          else (.error .wouldBlock, buf)) ∧
    (udpPeekFrom (E := E) sn buf c).value =
        (if DatagramReady s then (.ok (n, headerAt s), payloadInto s n buf)
          else (.error .wouldBlock, buf)) ∧
    n.toNat = min (headerAt s).len.toNat (min buf.length 65535) ∧ n.toNat ≤ buf.length ∧
    (DatagramReady s → (udpPeekFromHeader (E := E) sn c).value = .ok (headerAt s)) ∧
    (8 ≤ s.rxRsr.toNat → ∀ f : ReaderProg E (Except (Error E) T),
      udpReader sn f c = (readerExit sn (f.run (openReader sn s (s.rxRsr - UdpHeader.LEN)) c)).prepend
        (headerReads sn s.rxRd) ∧ (openReader sn s (s.rxRsr - UdpHeader.LEN)).header = headerAt s) ∧
    ∀ k : UdpHeader → ReaderProg E (Except (Error E) T),
      udpReader sn (.header k) c = udpReader sn (k (headerAt s)) c := by
  refine ⟨udpRecvFrom_value sn buf c, udpPeekFrom_value sn buf c, recvCount_toNat _ _,
    by rw [recvCount_toNat]; omega, fun hr => ?_, fun h f => ⟨udpReader_of_header sn f h, rfl⟩,
    fun k => udpReader_header sn k c⟩
  rw [udpPeekFromHeader_apply, if_neg]
  rw [u16_lt_iff]
  simpa [UdpHeader.LEN] using hr.1

/-! ## Paths that consume nothing -/

/-- `x` run from `c` leaves nothing a later operation could see: the chip as it was, only reads
on the bus, so whatever runs next behaves as if `x` had not run. -/
structure Unobserved {α : Type} (x : Bus α) (c : Chip) : Prop where
  chip : (x c).chip = c
  reads : ∀ a ∈ (x c).trace, a.IsRead
  next : ∀ {β : Type} (y : Bus β),
    ((x >>= fun _ => y) c).value = (y c).value ∧ ((x >>= fun _ => y) c).chip = (y c).chip

theorem Unobserved.intro {α : Type} {x : Bus α} {c : Chip} (hc : (x c).chip = c)
    (hr : ∀ a ∈ (x c).trace, a.IsRead) : Unobserved x c :=
  ⟨hc, hr, fun y => by simp [hc]⟩

def readerOpened (sn : Sn) (c : Chip) : Option UdpReader :=
  (checkedSub (c sn).rxRsr UdpHeader.LEN).map (openReader sn (c sn))

theorem headerReads_isRead (sn : Sn) (rd : UInt16) : ∀ a ∈ headerReads sn rd, a.IsRead := by
  simp [headerReads, Access.IsRead]

theorem payloadRead_isRead (sn : Sn) (p n : UInt16) : ∀ a ∈ payloadRead sn p n, a.IsRead := by
  unfold payloadRead; split <;> simp [Access.IsRead]

theorem openReader_valid (sn : Sn) (s : Socket) (rsr : UInt16) :
    (openReader sn s rsr).inner.Valid :=
  InWindow.start

theorem body_unobserved (sn : Sn) (s : Socket) (rsr : UInt16) (f : ReaderProg E α)
    (c : Chip) : (f.run (openReader sn s rsr) c).chip = c ∧
      ∀ a ∈ (f.run (openReader sn s rsr) c).trace, a.IsRead := by
  have h := f.run_confined _ c (openReader_valid sn s rsr)
  refine ⟨h.effect, fun a ha => ?_⟩
  have := h.covers a ha
  cases a <;> simp_all [readerKind, Window.CoversRx, Access.IsRead]

theorem readerExit_of_keep {sn : Sn} {o : Outcome (Except (Error E) T × UdpReader)}
    (h : (∃ e, o.value.1 = .error e) ∨ o.value.2.isUnread) :
    readerExit sn o = ⟨o.value.1, o.chip, o.trace⟩ := by
  simp only [UdpReader.isUnread] at h
  unfold readerExit
  split
  · rename_i e he; rw [he]
  · rename_i v hv
    rcases h with ⟨e, he⟩ | hu
    · rw [hv] at he; cases he
    · rw [if_pos hu, hv]

theorem udpReader_of_opened {sn : Sn} {c : Chip} {r : UdpReader}
    (h : readerOpened sn c = some r) (f : ReaderProg E (Except (Error E) T)) :
    ∃ rsr, r = openReader sn (c sn) rsr ∧
      udpReader sn f c = (readerExit sn (f.run r c)).prepend (headerReads sn (c sn).rxRd) := by
  simp only [readerOpened, Option.map_eq_some'] at h
  obtain ⟨rsr, hr, rfl⟩ := h
  exact ⟨rsr, rfl, by rw [udpReader_apply, hr]⟩

theorem udpRecvFrom_blocked {sn : Sn} {buf : List UInt8} {c : Chip}
    (hw : (udpRecvFrom (E := E) sn buf c).value.1 = .error .wouldBlock) :
    (udpRecvFrom (E := E) sn buf c).chip = c ∧
      ∀ a ∈ (udpRecvFrom (E := E) sn buf c).trace, a.IsRead := by
  rw [udpRecvFrom_apply] at hw ⊢
  cases h : checkedSub (c sn).rxRsr UdpHeader.LEN with
  | none => simp [Access.IsRead]
  | some rsr =>
    simp only [h] at hw ⊢
    by_cases hl : rsr < (headerAt (c sn)).len
    · simpa only [if_pos hl, true_and] using headerReads_isRead sn (c sn).rxRd
    · simp only [if_neg hl] at hw
      cases hw

/-- Peeking, a blocked receive, and a reader scope that fails or calls `unread` leave the socket
exactly as it was, with no register write and no command; whatever runs next behaves as if they
had not run. A failed body's error is returned as it is. -/
theorem non_consuming_receive_unobserved (sn : Sn) (buf : List UInt8) (c : Chip) :
    Unobserved (udpPeekFrom (E := E) sn buf) c ∧
    Unobserved (udpPeekFromHeader (E := E) sn) c ∧
    ((udpRecvFrom (E := E) sn buf c).value.1 = .error .wouldBlock →
      Unobserved (udpRecvFrom (E := E) sn buf) c) ∧
    ∀ f : ReaderProg E (Except (Error E) T),
      (readerOpened sn c = none →
        (udpReader sn f c).value = .error .wouldBlock ∧ Unobserved (udpReader sn f) c) ∧
      ∀ r, readerOpened sn c = some r →
        ((∃ e, (f.run r c).value.1 = .error e) ∨ (f.run r c).value.2.isUnread) →
        (udpReader sn f c).value = (f.run r c).value.1 ∧ Unobserved (udpReader sn f) c := by
  have hdr := headerReads_isRead sn (c sn).rxRd
  have hpay : ∀ a ∈ headerReads sn (c sn).rxRd ++
      payloadRead sn ((c sn).rxRd + 8) (recvCount (c sn) buf), a.IsRead := by
    simp only [List.mem_append]
    rintro a (ha | ha)
    exacts [hdr a ha, payloadRead_isRead _ _ _ a ha]
  have hrsr : ∀ a ∈ [Access.read sn .rxRsr], a.IsRead := by simp [Access.IsRead]
  refine ⟨?_, ?_, ?_, fun f => ⟨fun hn => ?_, fun r hr hb => ?_⟩⟩
  · refine Unobserved.intro ?_ ?_ <;> rw [udpPeekFrom_apply] <;> split
    · rfl
    · split <;> rfl
    · exact hrsr
    · split
      exacts [hdr, hpay]
  · refine Unobserved.intro ?_ ?_ <;> rw [udpPeekFromHeader_apply] <;> split
    exacts [rfl, rfl, hrsr, hdr]
  · intro hw
    obtain ⟨hc, hr⟩ := udpRecvFrom_blocked hw
    exact Unobserved.intro hc hr
  · simp only [readerOpened, Option.map_eq_none'] at hn
    have happ : udpReader sn f c = ⟨.error .wouldBlock, c, [.read sn .rxRsr]⟩ := by
      rw [udpReader_apply, hn]
    exact ⟨by rw [happ], Unobserved.intro (by rw [happ]) (by rw [happ]; exact hrsr)⟩
  · obtain ⟨rsr, rfl, happ⟩ := udpReader_of_opened hr f
    obtain ⟨hc, hrd⟩ := body_unobserved sn (c sn) rsr f c
    rw [readerExit_of_keep hb, Outcome.prepend_mk] at happ
    refine ⟨by rw [happ], Unobserved.intro (by rw [happ]; exact hc) ?_⟩
    rw [happ]
    simp only [List.mem_append]
    rintro a (ha | ha)
    exacts [hdr a ha, hrd a ha]

/-! ## Reads stay inside the received bytes -/

/-- A receive-buffer read of `sn` lies inside the `Sn_RX_RSR` bytes from `Sn_RX_RD`. -/
def InReceived (sn : Sn) (s : Socket) : Access → Prop
  | .rxBuf sn' p n => sn' = sn ∧ (p - s.rxRd).toNat + n ≤ s.rxRsr.toNat
  | _ => True

theorem readerExit_trace {sn : Sn} {o : Outcome (Except (Error E) T × UdpReader)} {a : Access}
    (h : a ∈ (readerExit sn o).trace) :
    a ∈ o.trace ∨ a = .write sn .rxRd ∨ a = .command sn .recv := by
  unfold readerExit at h
  split at h
  · exact .inl h
  · split at h
    · exact .inl h
    · simpa [or_assoc] using h

theorem headerReads_in {sn : Sn} {s : Socket} (h8 : 8 ≤ s.rxRsr.toNat) :
    ∀ a ∈ headerReads sn s.rxRd, InReceived sn s a := by
  intro a ha
  simp only [headerReads, List.mem_cons, List.mem_singleton, List.not_mem_nil, or_false] at ha
  rcases ha with rfl | rfl | rfl
  · trivial
  · trivial
  · exact ⟨rfl, by rw [u16_sub_self_toNat]; omega⟩

theorem checkedSub_le {s : Socket} {rsr : UInt16}
    (h : checkedSub s.rxRsr UdpHeader.LEN = some rsr) :
    8 ≤ s.rxRsr.toNat ∧ rsr.toNat = s.rxRsr.toNat - 8 := by
  obtain ⟨hle, rfl⟩ := checkedSub_eq_some.1 h
  have := u16_toNat_lt s.rxRsr
  rw [u16_le_iff] at hle
  simp only [UdpHeader.LEN, u16_toNat_eight, u16_toNat_sub] at *
  omega

theorem u16_sub_add_shift (p q d : UInt16) (h : (p - (q + d)).toNat + d.toNat < 65536) :
    (p - q).toNat = (p - (q + d)).toNat + d.toNat := by
  have := u16_toNat_lt p; have := u16_toNat_lt q; have := u16_toNat_lt d
  simp only [u16_toNat_sub, u16_toNat_add] at *
  omega

theorem payloadRead_in {sn : Sn} {s : Socket} {n : UInt16}
    (hn : 8 + n.toNat ≤ s.rxRsr.toNat) :
    ∀ a ∈ payloadRead sn (s.rxRd + 8) n, InReceived sn s a := by
  have h8 : (s.rxRd + 8 - s.rxRd).toNat = 8 := u16_sub_add_ofNat s.rxRd (i := 8) (by omega)
  unfold payloadRead
  split
  · simp only [List.mem_singleton, forall_eq, InReceived, true_and]
    rw [h8]; exact hn
  · simp

theorem udpRecvFrom_reads_in (sn : Sn) (buf : List UInt8) (c : Chip) :
    ∀ a ∈ (udpRecvFrom (E := E) sn buf c).trace, InReceived sn (c sn) a := by
  rw [udpRecvFrom_apply]
  cases h : checkedSub (c sn).rxRsr UdpHeader.LEN with
  | none => simp [InReceived]
  | some rsr =>
    obtain ⟨h8, hr⟩ := checkedSub_le h
    simp only
    split
    · exact headerReads_in h8
    · rename_i hl
      have hn : 8 + (recvCount (c sn) buf).toNat ≤ (c sn).rxRsr.toNat := by
        rw [recvCount_toNat]; rw [u16_lt_iff] at hl; omega
      simp only [List.mem_append]
      rintro a ((ha | ha) | ha)
      · exact headerReads_in h8 a ha
      · exact payloadRead_in hn a ha
      · simp at ha; rcases ha with rfl | rfl <;> trivial

theorem udpPeekFrom_reads_in (sn : Sn) (buf : List UInt8) (c : Chip) :
    ∀ a ∈ (udpPeekFrom (E := E) sn buf c).trace, InReceived sn (c sn) a := by
  rw [udpPeekFrom_apply]
  cases h : checkedSub (c sn).rxRsr UdpHeader.LEN with
  | none => simp [InReceived]
  | some rsr =>
    obtain ⟨h8, hr⟩ := checkedSub_le h
    simp only
    split
    · exact headerReads_in h8
    · rename_i hl
      have hn : 8 + (recvCount (c sn) buf).toNat ≤ (c sn).rxRsr.toNat := by
        rw [recvCount_toNat]; rw [u16_lt_iff] at hl; omega
      simp only [List.mem_append]
      rintro a (ha | ha)
      · exact headerReads_in h8 a ha
      · exact payloadRead_in hn a ha

theorem udpPeekFromHeader_reads_in (sn : Sn) (c : Chip) :
    ∀ a ∈ (udpPeekFromHeader (E := E) sn c).trace, InReceived sn (c sn) a := by
  rw [udpPeekFromHeader_apply]
  split
  · simp [InReceived]
  · rename_i h
    rw [u16_lt_iff] at h
    exact headerReads_in (by simpa [UdpHeader.LEN] using h)

theorem udpReader_reads_in (sn : Sn) (f : ReaderProg E (Except (Error E) T)) (c : Chip) :
    ∀ a ∈ (udpReader sn f c).trace, InReceived sn (c sn) a := by
  rw [udpReader_apply]
  cases h : checkedSub (c sn).rxRsr UdpHeader.LEN with
  | none => simp [InReceived]
  | some rsr =>
    obtain ⟨h8, hr⟩ := checkedSub_le h
    have hb := (f.run_confined _ c (openReader_valid sn (c sn) rsr)).covers
    simp only [Outcome.prepend_trace, List.mem_append]
    rintro a (ha | ha)
    · exact headerReads_in h8 a ha
    · rcases readerExit_trace ha with ha | rfl | rfl
      · have hc := hb a ha
        rcases a with _ | _ | _ | ⟨sn', p, n⟩ | _ <;>
          simp only [readerKind, Window.CoversRx] at hc
        obtain ⟨hs, hw⟩ := hc
        simp only [openReader, TcpReader.window, Window.len, u16_add_sub_cancel_left,
          u16_toNat_min] at hw
        have hm := min_le_right (headerAt (c sn)).len.toNat rsr.toNat
        have hr' := u16_toNat_lt (c sn).rxRsr
        refine ⟨hs, ?_⟩
        rw [u16_sub_add_shift p (c sn).rxRd 8 (by simp only [u16_toNat_eight]; omega)]
        simp only [u16_toNat_eight]
        omega
      · trivial
      · trivial

/-- The reader `udp_reader` opens starts at `Sn_RX_RD + 8` and spans the first datagram's
declared length, cut to what is buffered; the body runs on it. Every receive-buffer read of the
four receive paths, a body's included, lies in the `Sn_RX_RSR` bytes from `Sn_RX_RD`. -/
theorem receive_reads_within_received (sn : Sn) (buf : List UInt8) (c : Chip) :
    (8 ≤ (c sn).rxRsr.toNat →
      let r := openReader sn (c sn) ((c sn).rxRsr - UdpHeader.LEN)
      r.inner.headPtr = (c sn).rxRd + 8 ∧ r.inner.ptr = r.inner.headPtr ∧
      (r.inner.tailPtr - r.inner.headPtr).toNat =
        min (headerAt (c sn)).len.toNat ((c sn).rxRsr.toNat - 8) ∧
      ∀ f : ReaderProg E (Except (Error E) T), udpReader sn f c =
        (readerExit sn (f.run r c)).prepend (headerReads sn (c sn).rxRd)) ∧
    (∀ a ∈ (udpRecvFrom (E := E) sn buf c).trace, InReceived sn (c sn) a) ∧
    (∀ a ∈ (udpPeekFrom (E := E) sn buf c).trace, InReceived sn (c sn) a) ∧
    (∀ a ∈ (udpPeekFromHeader (E := E) sn c).trace, InReceived sn (c sn) a) ∧
    ∀ f : ReaderProg E (Except (Error E) T), ∀ a ∈ (udpReader sn f c).trace,
      InReceived sn (c sn) a := by
  refine ⟨fun h => ⟨rfl, rfl, ?_, fun f => udpReader_of_header sn f h⟩,
    udpRecvFrom_reads_in sn buf c, udpPeekFrom_reads_in sn buf c,
    udpPeekFromHeader_reads_in sn c, fun f => udpReader_reads_in sn f c⟩
  simp only [openReader, u16_add_sub_cancel_left, u16_toNat_min,
    (checkedSub_le (checkedSub_header h)).2]

end W5500Udp
