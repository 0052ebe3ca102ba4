import W5500Udp.Io

/-! # What a body can do inside a scope

The spec's cursor invariant: `ptr` stays between `head_ptr` and `tail_ptr`, both distances taken
by wrapping subtraction. Every method keeps it, keeps the scope's socket and bounds, and touches
the buffer only inside the window; by induction, so does every body. A reader body never writes
the chip; a writer body writes only its socket's transmit buffer. -/
namespace W5500Udp

variable {E α : Type}

/-- `ptr` lies between `head` and `tail`, distances wrapping. -/
def InWindow (head tail ptr : UInt16) : Prop := (ptr - head).toNat ≤ (tail - head).toNat

section Window

variable {head tail ptr : UInt16}

theorem InWindow.position_add_remain (h : InWindow head tail ptr) :
    (ptr - head).toNat + (tail - ptr).toNat = (tail - head).toNat := by
  unfold InWindow at h
  have := u16_toNat_lt head; have := u16_toNat_lt tail; have := u16_toNat_lt ptr
  simp only [u16_toNat_sub] at *
  omega

theorem InWindow.advance (h : InWindow head tail ptr) {n : UInt16}
    (hn : n.toNat ≤ (tail - ptr).toNat) :
    (ptr + n - head).toNat = (ptr - head).toNat + n.toNat ∧ InWindow head tail (ptr + n) := by
  have hs := h.position_add_remain
  unfold InWindow at *
  have := u16_toNat_lt head; have := u16_toNat_lt tail; have := u16_toNat_lt ptr
  have := u16_toNat_lt n
  simp only [u16_toNat_sub, u16_toNat_add] at *
  omega

theorem InWindow.start : InWindow head tail head := by
  simp [InWindow]

theorem InWindow.of_le {t : Nat} (ht : t ≤ (tail - head).toNat) :
    InWindow head tail (head + UInt16.ofNat t) := by
  have := u16_toNat_lt (tail - head)
  unfold InWindow
  rw [u16_sub_add_ofNat head (by omega)]
  exact ht

end Window

theorem u16_ofNat_toNat (x : UInt16) : UInt16.ofNat x.toNat = x := by
  rw [u16_eq_iff, u16_toNat_ofNat, Nat.mod_eq_of_lt (u16_toNat_lt x)]

def TxOnly (sn : Sn) (c c' : Chip) : Prop :=
  c' = Function.update c sn { c sn with txBuf := (c' sn).txBuf }

theorem TxOnly.refl (sn : Sn) (c : Chip) : TxOnly sn c c := by
  unfold TxOnly; funext s
  by_cases h : s = sn
  · subst h; simp
  · simp [h]

theorem TxOnly.trans {sn : Sn} {c c' c'' : Chip} (h : TxOnly sn c c') (h' : TxOnly sn c' c'') :
    TxOnly sn c c'' := by
  unfold TxOnly at *
  funext s
  have e := congrFun h s
  have e' := congrFun h' s
  by_cases hs : s = sn
  · subst hs; simp only [Function.update_same] at e e' ⊢
    rw [e', e]
  · simp only [Function.update_noteq hs] at e e' ⊢
    rw [e', e]

/-- The window of a scope: its socket and the bounds its cursor moves between. -/
structure Window where
  sn : Sn
  head : UInt16
  tail : UInt16
  deriving DecidableEq

def Window.len (w : Window) : UInt16 := w.tail - w.head

def Window.CoversRx (w : Window) : Access → Prop
  | .rxBuf sn p n => sn = w.sn ∧ (p - w.head).toNat + n ≤ w.len.toNat
  | _ => False

def Window.CoversTx (w : Window) : Access → Prop
  | .txBuf sn p n => sn = w.sn ∧ (p - w.head).toNat + n ≤ w.len.toNat
  | _ => False

/-- A kind of scope: what a body cannot change, when its cursor is valid, which accesses it
may make and how it may change the chip, the last two read off what it cannot change. -/
structure ScopeKind (κ σ : Type) where
  scope : κ → σ
  valid : κ → Prop
  covers : σ → Access → Prop
  effect : σ → Chip → Chip → Prop
  effect_refl : ∀ s c, effect s c c
  effect_trans : ∀ {s c c' c''}, effect s c c' → effect s c' c'' → effect s c c''

namespace ScopeKind

variable {κ σ β : Type} (K : ScopeKind κ σ)

/-- What a body run from cursor `k` on chip `c` did, as the kind allows. -/
structure Confined (k : κ) (c : Chip) (o : Outcome (β × κ)) : Prop where
  effect : K.effect (K.scope k) c o.chip
  scope : K.scope o.value.2 = K.scope k
  valid : K.valid o.value.2
  covers : ∀ a ∈ o.trace, K.covers (K.scope k) a

variable {K}

theorem Confined.stay {k : κ} (hk : K.valid k) (b : β) (c : Chip) :
    K.Confined k c ⟨(b, k), c, []⟩ :=
  ⟨K.effect_refl _ _, rfl, hk, by simp⟩

theorem Confined.of_scope {k k' : κ} {c : Chip} {o : Outcome (β × κ)}
    (h : K.Confined k' c o) (hs : K.scope k' = K.scope k) : K.Confined k c o :=
  ⟨hs ▸ h.effect, h.scope.trans hs, h.valid, hs ▸ h.covers⟩

theorem Confined.bind {γ : Type} {k : κ} {c : Chip} {x : Bus (γ × κ)}
    {f : γ → κ → Bus (β × κ)} (hx : K.Confined k c (x c))
    (hf : ∀ g k' c', K.valid k' → K.scope k' = K.scope k → K.Confined k' c' (f g k' c')) :
    K.Confined k c ((x >>= fun res => f res.1 res.2) c) := by
  have h := (hf (x c).value.1 (x c).value.2 (x c).chip hx.valid hx.scope).of_scope hx.scope
  refine ⟨K.effect_trans hx.effect h.effect, h.scope, h.valid, ?_⟩
  simp only [Bus.bind_apply, Outcome.prepend_trace, List.mem_append]
  rintro a (ha | ha)
  exacts [hx.covers a ha, h.covers a ha]

end ScopeKind

namespace TcpReader

def Valid (r : TcpReader) : Prop := InWindow r.headPtr r.tailPtr r.ptr

def window (r : TcpReader) : Window := ⟨r.sn, r.headPtr, r.tailPtr⟩

end TcpReader

def readerKind : ScopeKind UdpReader (Window × UdpHeader) where
  scope r := (r.inner.window, r.header)
  valid r := r.inner.Valid
  covers s := s.1.CoversRx
  effect _ c c' := c' = c
  effect_refl _ _ := rfl
  effect_trans h h' := h'.trans h

def TxInside (w : Window) (c c' : Chip) : Prop :=
  TxOnly w.sn c c' ∧
    ∀ a, w.len.toNat ≤ (a - w.head).toNat → (c' w.sn).txBuf a = (c w.sn).txBuf a

theorem TxInside.refl (w : Window) (c : Chip) : TxInside w c c :=
  ⟨TxOnly.refl _ _, fun _ _ => rfl⟩

theorem TxInside.trans {w : Window} {c c' c'' : Chip} (h : TxInside w c c')
    (h' : TxInside w c' c'') : TxInside w c c'' :=
  ⟨h.1.trans h'.1, fun a ha => (h'.2 a ha).trans (h.2 a ha)⟩

def writerKind : ScopeKind Writer Window where
  scope w := ⟨w.sn, w.headPtr, w.tailPtr⟩
  valid w := InWindow w.headPtr w.tailPtr w.ptr
  covers s := s.CoversTx
  effect := TxInside
  effect_refl := TxInside.refl
  effect_trans := TxInside.trans

theorem TxOnly.update_txBuf (sn : Sn) (c : Chip) (t : UInt16 → UInt8) :
    TxOnly sn c (Function.update c sn { c sn with txBuf := t }) := by
  unfold TxOnly; simp

/-! ## Reader bodies -/

section Reader

variable {β : Type} {r : UdpReader}

theorem reader_advance (hr : r.inner.Valid) {n : UInt16} (hn : n.toNat ≤ r.inner.remain.toNat)
    (b : β) (c : Chip) :
    readerKind.Confined r c ⟨(b, { r with inner := { r.inner with ptr := r.inner.ptr + n } }),
      c, [.rxBuf r.inner.sn r.inner.ptr n.toNat]⟩ := by
  have hs := InWindow.position_add_remain hr
  refine ⟨rfl, rfl, (InWindow.advance hr hn).2, ?_⟩
  simp only [List.mem_singleton, forall_eq, readerKind, Window.CoversRx, TcpReader.window,
    Window.len, true_and]
  exact hs ▸ Nat.add_le_add_left hn _

theorem UdpReader.read_confined (hr : r.inner.Valid) (buf : List UInt8) (c : Chip) :
    readerKind.Confined r c (r.read buf c) := by
  simp only [UdpReader.read, TcpReader.read]
  split
  · simp only [Bus.bind_apply, snRxBuf_apply, Bus.pure_apply, List.append_nil]
    exact reader_advance hr ((u16_toNat_min _ _).trans_le (Nat.min_le_left _ _)) _ c
  · exact ScopeKind.Confined.stay hr _ c

theorem UdpReader.readExact_confined (hr : r.inner.Valid) (buf : List UInt8) (c : Chip) :
    readerKind.Confined r c (r.readExact (E := E) buf c) := by
  simp only [UdpReader.readExact, TcpReader.readExact]
  split
  · exact ScopeKind.Confined.stay hr _ c
  · rename_i h
    have hn : (UInt16.ofNat buf.length).toNat = buf.length := by
      have := u16_toNat_lt r.inner.remain; simp only [u16_toNat_ofNat]; omega
    simp only [Bus.bind_apply, snRxBuf_apply, Bus.pure_apply, List.append_nil]
    simpa [hn] using reader_advance hr (n := UInt16.ofNat buf.length) (by omega)
      (Except.ok (ε := Error E) (List.ofFn fun i : Fin buf.length =>
        (c r.inner.sn).rxBuf (r.inner.ptr + UInt16.ofNat i))) c

theorem UdpReader.seek_confined {r' : UdpReader} {pos : SeekFrom}
    (h : r.seek (E := E) pos = .ok r') :
    readerKind.scope r' = readerKind.scope r ∧ readerKind.valid r' := by
  simp only [UdpReader.seek] at h
  cases hi : r.inner.seek (E := E) pos with
  | error e => simp [hi, Except.map] at h
  | ok i =>
    simp only [hi, Except.map, Except.ok.injEq] at h
    subst h
    simp only [TcpReader.seek] at hi
    split at hi
    · rename_i hb
      cases hi
      exact ⟨rfl, InWindow.of_le (show _ ≤ r.inner.streamLen.toNat by omega)⟩
    · cases hi

/-- Every reader body leaves the chip as it was, keeps the window and the header, and reads
only the window's bytes. -/
theorem ReaderProg.run_confined (p : ReaderProg E α) :
    ∀ (r : UdpReader) (c : Chip), r.inner.Valid → readerKind.Confined r c (p.run r c) := by
  induction p with
  | pure a => exact fun r c hr => ScopeKind.Confined.stay hr _ c
  | read buf k ih =>
    exact fun r c hr => (r.read_confined hr buf c).bind fun g r' c' hv _ => ih g r' c' hv
  | readExact buf k ih =>
    exact fun r c hr => (r.readExact_confined hr buf c).bind fun g r' c' hv _ => ih g r' c' hv
  | seek pos k ih =>
    intro r c hr
    cases h : r.seek (E := E) pos with
    | ok r' =>
      obtain ⟨hs, hv⟩ := UdpReader.seek_confined h
      simpa only [ReaderProg.run, h] using (ih _ r' c hv).of_scope hs
    | error e => simpa only [ReaderProg.run, h] using ih _ r c hr
  | rewind k ih => exact fun r c _ => (ih r.rewind c InWindow.start).of_scope rfl
  | streamLen k ih => exact fun r c hr => ih _ r c hr
  | streamPosition k ih => exact fun r c hr => ih _ r c hr
  | remain k ih => exact fun r c hr => ih _ r c hr
  | unread k ih => exact fun r c hr => (ih r.unread c hr).of_scope rfl
  | isUnread k ih => exact fun r c hr => ih _ r c hr
  | header k ih => exact fun r c hr => ih _ r c hr

end Reader

/-! ## Writer bodies -/

section Writer

variable {β : Type} {w : Writer}

theorem writer_advance (hw : writerKind.valid w) {n : UInt16} (hn : n.toNat ≤ w.remain.toNat)
    {data : List UInt8} (hd : data.length = n.toNat) (b : β) (c : Chip) :
    writerKind.Confined w c ⟨(b, { w with ptr := w.ptr + n }),
      Function.update c w.sn { c w.sn with txBuf := writeRing (c w.sn).txBuf w.ptr data },
      [.txBuf w.sn w.ptr data.length]⟩ := by
  have hs := InWindow.position_add_remain hw
  refine ⟨⟨TxOnly.update_txBuf _ _ _, fun a ha => ?_⟩, rfl, (InWindow.advance hw hn).2, ?_⟩
  · have hl : data.length ≤ 65536 := hd ▸ (u16_toNat_lt n).le
    change (Function.update c w.sn _ w.sn).txBuf a = _
    rw [Function.update_same]
    refine writeRing_of_le _ _ _ hl ?_
    have := u16_toNat_lt a; have := u16_toNat_lt w.ptr; have := u16_toNat_lt w.headPtr
    change (w.tailPtr - w.headPtr).toNat ≤ (a - w.headPtr).toNat at ha
    simp only [Writer.remain, u16_toNat_sub] at ha hs hn ⊢
    omega
  simp only [List.mem_singleton, forall_eq, writerKind, Window.CoversTx, Window.len, true_and, hd]
  exact hs ▸ Nat.add_le_add_left hn _

theorem Writer.write_confined (hw : writerKind.valid w) (buf : List UInt8) (c : Chip) :
    writerKind.Confined w c (w.write buf c) := by
  simp only [Writer.write]
  split
  · simp only [Bus.bind_apply, setSnTxBuf_apply, Bus.pure_apply, List.append_nil]
    refine writer_advance hw ((u16_toNat_min _ _).trans_le (Nat.min_le_left _ _)) ?_ _ c
    simp only [List.length_take, u16_toNat_min, u16TryFrom_getD_toNat]
    omega
  · exact ScopeKind.Confined.stay hw _ c

theorem Writer.writeAll_confined (hw : writerKind.valid w) (buf : List UInt8) (c : Chip) :
    writerKind.Confined w c (w.writeAll (E := E) buf c) := by
  simp only [Writer.writeAll]
  split
  · exact ScopeKind.Confined.stay hw _ c
  · rename_i h
    have hn : (UInt16.ofNat buf.length).toNat = buf.length := by
      have := u16_toNat_lt w.remain; simp only [u16_toNat_ofNat]; omega
    simp only [Bus.bind_apply, setSnTxBuf_apply, Bus.pure_apply, List.append_nil]
    exact writer_advance hw (by omega) hn.symm _ c

/-- Every writer body writes only its socket's transmit buffer, inside the window, and keeps
the window. -/
theorem WriterProg.run_confined (p : WriterProg E α) :
    ∀ (w : Writer) (c : Chip), writerKind.valid w → writerKind.Confined w c (p.run w c) := by
  induction p with
  | pure a => exact fun w c hw => ScopeKind.Confined.stay hw _ c
  | write buf k ih =>
    exact fun w c hw => (w.write_confined hw buf c).bind fun g w' c' hv _ => ih g w' c' hv
  | writeAll buf k ih =>
    exact fun w c hw => (w.writeAll_confined hw buf c).bind fun g w' c' hv _ => ih g w' c' hv
  | abort k ih => exact fun w c hw => (ih { w with abort := true } c hw).of_scope rfl
  | streamLen k ih => exact fun w c hw => ih _ w c hw
  | streamPosition k ih => exact fun w c hw => ih _ w c hw
  | remain k ih => exact fun w c hw => ih _ w c hw

end Writer

end W5500Udp
