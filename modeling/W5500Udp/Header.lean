import Mathlib.Tactic.FinCases
import W5500Udp.Registers

/-! # The receive-side datagram header

For a UDP socket the W5500 puts an eight-byte header in front of every datagram it buffers:
the origin address, the origin port and the payload length, each in network byte order. It is
not the UDP header of the wire. `UdpHeader.deser` is the driver's decoder; `UdpHeader.toWire`
writes a header the way the spec's wire format lays it out, and the two are inverse. -/
namespace W5500Udp

/-- `u16::from_be_bytes`. -/
def u16FromBeBytes (hi lo : UInt8) : UInt16 := hi.toUInt16 * 256 + lo.toUInt16

/-- `u16::to_be_bytes`. -/
def u16ToBeBytes (x : UInt16) : UInt8 × UInt8 := ((x / 256).toUInt8, x.toUInt8)

@[simp] theorem u16FromBeBytes_toNat (hi lo : UInt8) :
    (u16FromBeBytes hi lo).toNat = 256 * hi.toNat + lo.toNat := by
  have := u8_toNat_lt hi
  have := u8_toNat_lt lo
  simp only [u16FromBeBytes, u16_toNat_add, u16_toNat_mul, u8_toNat_toUInt16]
  show (hi.toNat * 256 % 65536 + lo.toNat) % 65536 = _
  omega

theorem u16FromBeBytes_toBeBytes (x : UInt16) :
    u16FromBeBytes (u16ToBeBytes x).1 (u16ToBeBytes x).2 = x := by
  have := u16_toNat_lt x
  rw [u16_eq_iff, u16FromBeBytes_toNat]
  simp only [u16ToBeBytes, u16_toNat_toUInt8, u16_toNat_div]
  show 256 * (x.toNat / 256 % 256) + x.toNat % 256 = _
  omega

theorem u16ToBeBytes_fromBeBytes (hi lo : UInt8) :
    u16ToBeBytes (u16FromBeBytes hi lo) = (hi, lo) := by
  have := u8_toNat_lt hi
  have := u8_toNat_lt lo
  simp only [u16ToBeBytes, Prod.mk.injEq, u8_eq_iff, u16_toNat_toUInt8, u16_toNat_div,
    u16FromBeBytes_toNat]
  show (256 * hi.toNat + lo.toNat) / 256 % 256 = _ ∧ _
  omega

structure UdpHeader where
  origin : SocketAddrV4
  len : UInt16
  deriving DecidableEq

namespace UdpHeader

def LEN : UInt16 := 8

abbrev LEN_USIZE : Nat := 8

theorem LEN_USIZE_eq : LEN_USIZE = LEN.toNat := rfl

def deser (buf : Fin LEN_USIZE → UInt8) : UdpHeader :=
  { origin := ⟨Ipv4Addr.new (buf 0) (buf 1) (buf 2) (buf 3), u16FromBeBytes (buf 4) (buf 5)⟩
    len := u16FromBeBytes (buf 6) (buf 7) }

/-- The spec's layout: four address octets in network order, then port and length big-endian. -/
def toWire (h : UdpHeader) : Fin LEN_USIZE → UInt8 :=
  ![h.origin.ip.octets 0, h.origin.ip.octets 1, h.origin.ip.octets 2, h.origin.ip.octets 3,
    (u16ToBeBytes h.origin.port).1, (u16ToBeBytes h.origin.port).2,
    (u16ToBeBytes h.len).1, (u16ToBeBytes h.len).2]

theorem toWire_deser (b : Fin LEN_USIZE → UInt8) : toWire (deser b) = b := by
  have h45 := u16ToBeBytes_fromBeBytes (b 4) (b 5)
  have h67 := u16ToBeBytes_fromBeBytes (b 6) (b 7)
  simp only [Prod.ext_iff] at h45 h67
  funext i
  fin_cases i
  · rfl
  · rfl
  · rfl
  · rfl
  · exact h45.1
  · exact h45.2
  · exact h67.1
  · exact h67.2

theorem deser_toWire (h : UdpHeader) : deser (toWire h) = h := by
  obtain ⟨⟨⟨ip⟩, port⟩, len⟩ := h
  have hip : ![ip 0, ip 1, ip 2, ip 3] = ip := by
    funext i; fin_cases i <;> rfl
  simp only [deser, toWire, Ipv4Addr.new, UdpHeader.mk.injEq, SocketAddrV4.mk.injEq,
    Ipv4Addr.mk.injEq]
  exact ⟨⟨hip, u16FromBeBytes_toBeBytes port⟩, u16FromBeBytes_toBeBytes len⟩

/-- The decoder reads the spec's wire format field by field, and it is a bijection between
eight-byte arrays and headers, with `toWire` its inverse on both sides. -/
theorem deser_wire_format_bijective :
    (∀ b : Fin LEN_USIZE → UInt8,
      (deser b).origin.ip = Ipv4Addr.new (b 0) (b 1) (b 2) (b 3) ∧
      (deser b).origin.port.toNat = 256 * (b 4).toNat + (b 5).toNat ∧
      (deser b).len.toNat = 256 * (b 6).toNat + (b 7).toNat ∧
      toWire (deser b) = b) ∧
    (∀ h, deser (toWire h) = h) ∧ Function.Bijective deser :=
  ⟨fun b => ⟨rfl, u16FromBeBytes_toNat _ _, u16FromBeBytes_toNat _ _, toWire_deser b⟩,
    deser_toWire, Function.bijective_iff_has_inverse.2 ⟨toWire, toWire_deser, deser_toWire⟩⟩

end UdpHeader

end W5500Udp
