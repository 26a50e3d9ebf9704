import Camstream.Stun.BindingResponse

/-!
# The address a response reports

A client learns its own transport address from XOR-MAPPED-ADDRESS: it walks the response for the
attribute, checks that the declared length is the one of the family, and takes cookie and transaction id
off again (`mappedAddress?`).

For an IPv4 peer that gives back the peer. For an IPv6 peer the attribute announces eight bytes where the
family needs twenty, and no address is decoded: `mappedRoundTrip_iff`, for every request, peer and output
buffer.
-/

namespace Camstream

open Bytes Tlv

/-! ### Decoding -/

/-- Address family in XOR-MAPPED-ADDRESS. -/
inductive StunFamily where
  | ipv4
  | ipv6
  deriving DecidableEq, Repr

/-- A transport address as a client reports it, the address in network byte order. -/
structure MappedAddress where
  family : StunFamily
  port : ℕ
  address : List UInt8
  deriving DecidableEq

/-- The transport address of a peer. -/
def SockAddr.mapped : SockAddr → MappedAddress
  | .inet addr port => ⟨.ipv4, port.toNat, be32 addr.toNat⟩
  | .inet6 addr port _ => ⟨.ipv6, port.toNat, addr.toList⟩

/-- The value of XOR-MAPPED-ADDRESS under a mask: eight bytes for family 1, twenty for family 2. -/
def decodeXorMapped (mask value : List UInt8) : Option MappedAddress :=
  let port := readBe16 value 2 ^^^ 0x2112
  let address := List.zipWith (· ^^^ ·) (value.drop 4) mask
  if value.getD 1 0 = 0x01 ∧ value.length = 8 then some ⟨.ipv4, port, address⟩
  else if value.getD 1 0 = 0x02 ∧ value.length = 20 then some ⟨.ipv6, port, address⟩
  else none

/-- The address that the first XOR-MAPPED-ADDRESS of a message reports. -/
def mappedAddress? (message : List UInt8) : Option MappedAddress :=
  (stunFindAttribute message message.length 0x0020).bind fun r ↦
    decodeXorMapped (stunXorMask message) ((message.drop r.1).take r.2)

/-- The call returns a message, and that message reports the peer. -/
def MappedRoundTrip (hmac : HmacSha1) (localPwd request : List UInt8) (peer : SockAddr)
    (out : List UInt8) (outCapacity : ℕ) : Prop :=
  ∃ buf len, stunBuildBindingResponse hmac localPwd request request.length peer out outCapacity =
      some (buf, len) ∧ mappedAddress? (buf.take len) = some peer.mapped

/-! ### The value that is written -/

/-- Decoding undoes the masking of an IPv4 address, under any transaction id. -/
theorem decodeXorMapped_inet (request tid : List UInt8) (addr : UInt32) (port : UInt16) :
    decodeXorMapped ([0x21, 0x12, 0xA4, 0x42] ++ tid) (xorMappedAttr request (.inet addr port)).value =
      some (SockAddr.inet addr port).mapped := by
  have hport : readBe16 (be16 (port ^^^ 0x2112).toNat) 0 ^^^ 0x2112 = port.toNat := by
    rw [readBe16_be16 (UInt16.toNat_lt _), UInt16.toNat_xor, Nat.xor_assoc]
    exact Nat.xor_zero _
  have haddr : List.zipWith (· ^^^ ·) (be32 (addr ^^^ UInt32.ofNat stunMagicCookie).toNat)
      (be32 stunMagicCookie) = be32 addr.toNat := by
    rw [← be32_xor, UInt32.toNat_xor, Nat.xor_assoc]
    exact congrArg be32 (Nat.xor_zero _)
  have hmapped : decodeXorMapped ([0x21, 0x12, 0xA4, 0x42] ++ tid)
      (xorMappedAttr request (.inet addr port)).value =
        some ⟨.ipv4, readBe16 (be16 (port ^^^ 0x2112).toNat) 0 ^^^ 0x2112,
          List.zipWith (· ^^^ ·) (be32 (addr ^^^ UInt32.ofNat stunMagicCookie).toNat)
            (be32 stunMagicCookie)⟩ :=
    rfl
  rw [hmapped, hport, haddr]
  rfl

/-- The value for an IPv6 address has the family but not the length. -/
theorem decodeXorMapped_inet6 (request mask : List UInt8) (addr : Vector UInt8 16) (port : UInt16)
    (flowinfo : UInt32) :
    decodeXorMapped mask (xorMappedAttr request (.inet6 addr port flowinfo)).value = none := by
  have hlen := length_value_xorMappedAttr request (.inet6 addr port flowinfo)
  have hfamily : (xorMappedAttr request (.inet6 addr port flowinfo)).value.getD 1 0 = 0x02 := rfl
  rw [decodeXorMapped, hfamily, hlen]
  rfl

/-! ### The message that is sent -/

section Response

variable (hmac : HmacSha1) (localPwd : List UInt8) {request : List UInt8}
  (hrequest : stunHeaderSize ≤ request.length) (peer : SockAddr)

/-- A client that walks the response comes to the address first. -/
theorem mappedAddress?_bindingResponse : mappedAddress? (bindingResponse hmac localPwd hrequest peer) =
    decodeXorMapped (stunXorMask (bindingResponse hmac localPwd hrequest peer))
      (xorMappedAttr request peer).value := by
  set message := bindingResponse hmac localPwd hrequest peer with hmessage
  have hloc : locate 0x0020 stunHeaderSize (responseAttrs hmac localPwd hrequest peer ++
      [responseFingerprint hmac localPwd hrequest peer]) =
        some (stunHeaderSize, xorMappedAttr request peer) := by
    rw [responseAttrs, List.cons_append, locate]
    exact if_pos rfl
  have hvalue : (message.drop (stunHeaderSize + 4)).take (xorMappedAttr request peer).value.length =
      (xorMappedAttr request peer).value :=
    take_of_locate ((responseHeader hrequest).bytes (encode (responseAttrs hmac localPwd hrequest peer ++
      [responseFingerprint hmac localPwd hrequest peer])).length)
      (by rw [StunHeader.length_bytes]; exact hloc)
  have hfind : stunFindAttribute message message.length 0x0020 =
      some (stunHeaderSize + 4, (xorMappedAttr request peer).value.length) := by
    rw [hmessage, bindingResponse, stunFindAttribute_message (fits_response hmac localPwd hrequest peer),
      hloc]
    rfl
  rw [mappedAddress?, hfind, Option.bind_some, hvalue]

/-- What the call returns, cut to its length, is the response. -/
theorem mappedRoundTrip_eq {out : List UInt8} {outCapacity : ℕ} (hcapacity : 128 ≤ outCapacity)
    (hout : outCapacity ≤ out.length) :
    MappedRoundTrip hmac localPwd request peer out outCapacity ↔
      mappedAddress? (bindingResponse hmac localPwd hrequest peer) = some peer.mapped := by
  rw [MappedRoundTrip, stunBuildBindingResponse_eq hmac localPwd hrequest peer hcapacity hout]
  have htake : (bindingResponse hmac localPwd hrequest peer ++ out.drop 64).take 64 =
      bindingResponse hmac localPwd hrequest peer :=
    List.take_left' (length_bindingResponse hmac localPwd hrequest peer)
  constructor
  · rintro ⟨buf, len, hbuild, hmapped⟩
    obtain ⟨rfl, rfl⟩ := Prod.mk.inj (Option.some.inj hbuild)
    rwa [htake] at hmapped
  · intro hmapped
    exact ⟨_, _, rfl, by rwa [htake]⟩

include hrequest in
/-- No response reports an IPv6 peer. -/
theorem not_mappedRoundTrip_of_inet6 {addr : Vector UInt8 16} {port : UInt16} {flowinfo : UInt32}
    {out : List UInt8} {outCapacity : ℕ} (hcapacity : 128 ≤ outCapacity) (hout : outCapacity ≤ out.length) :
    ¬ MappedRoundTrip hmac localPwd request (.inet6 addr port flowinfo) out outCapacity := by
  rw [mappedRoundTrip_eq hmac localPwd hrequest _ hcapacity hout, mappedAddress?_bindingResponse,
    decodeXorMapped_inet6]
  exact (Option.some_ne_none _).symm

include hrequest in
/-- **XOR-MAPPED-ADDRESS reports the peer exactly for IPv4.** For every request, peer and output buffer
the call accepts, the message it returns decodes to family, address and port of the peer if and only if the
peer has an IPv4 address. -/
theorem mappedRoundTrip_iff {out : List UInt8} {outCapacity : ℕ} (hcapacity : 128 ≤ outCapacity)
    (hout : outCapacity ≤ out.length) :
    MappedRoundTrip hmac localPwd request peer out outCapacity ↔ ∃ addr port, peer = .inet addr port := by
  cases peer with
  | inet addr port =>
    refine iff_of_true ?_ ⟨addr, port, rfl⟩
    rw [mappedRoundTrip_eq hmac localPwd hrequest _ hcapacity hout, mappedAddress?_bindingResponse]
    exact decodeXorMapped_inet request _ addr port
  | inet6 addr port flowinfo =>
    refine iff_of_false (not_mappedRoundTrip_of_inet6 hmac localPwd hrequest hcapacity hout) ?_
    rintro ⟨_, _, hpeer⟩
    cases hpeer

end Response

/-- A peer with the IPv4 loopback address. -/
theorem mappedRoundTrip_iff_sample :
    MappedRoundTrip (fun _ _ ↦ sampleMac) samplePassword (stunMessage sampleHeader [])
      (.inet 0x7F000001 5000) (List.replicate 128 0) 128 ↔
        ∃ addr port, SockAddr.inet 0x7F000001 5000 = .inet addr port :=
  mappedRoundTrip_iff (fun _ _ ↦ sampleMac) samplePassword (by decide) (.inet 0x7F000001 5000)
    (by decide) List.length_replicate.ge

/-- The IPv6 loopback address is not reported. -/
theorem not_mappedRoundTrip_inet6 :
    ¬ MappedRoundTrip (fun _ _ ↦ sampleMac) samplePassword (stunMessage sampleHeader [])
      (.inet6 ⟨#[0, 0, 0, 0, 0, 0, 0, 0, 0, 0, 0, 0, 0, 0, 0, 1], rfl⟩ 5000 0) (List.replicate 128 0)
        128 :=
  not_mappedRoundTrip_of_inet6 (fun _ _ ↦ sampleMac) samplePassword (by decide) (by decide)
    List.length_replicate.ge

end Camstream
