import Mathlib.Data.Vector.Basic
import Camstream.Lib.Bytes
import Camstream.Lib.Tlv

/-!
# STUN messages

`src/webrtc/ice_lite.c`: demultiplexing, the attribute walk, the three tests a binding request has to
pass, and the two responses. A received message is a buffer together with the number of bytes
received, as in the source; attribute values are located by offset, and reads go through the buffer.

HMAC-SHA1 is a parameter, an arbitrary function from a key and a message to twenty bytes, so
nothing here depends on what it computes. Allocation of the scratch copy in `stun_verify_mi` is taken to
succeed.
-/

namespace Camstream

open Bytes Tlv

/-- `STUN_MAGIC_COOKIE` -/
def stunMagicCookie : ℕ := 0x2112A442

/-- `STUN_HEADER_SIZE` -/
def stunHeaderSize : ℕ := 20

/-- HMAC with SHA-1: key and message to a twenty byte code. -/
abbrev HmacSha1 := List UInt8 → List UInt8 → { mac : List UInt8 // mac.length = 20 }

/-- A peer address. For IPv6 the flow label is kept because the source reads it: see `sinAddr`. -/
inductive SockAddr where
  | inet (addr : UInt32) (port : UInt16)
  | inet6 (addr : Vector UInt8 16) (port : UInt16) (flowinfo : UInt32)
  deriving DecidableEq

/-- `sin_addr.s_addr` of the address read as a `sockaddr_in`; over a `sockaddr_in6` these bytes are
the flow label. -/
def SockAddr.sinAddr : SockAddr → UInt32
  | .inet addr _ => addr
  | .inet6 _ _ flowinfo => flowinfo

/-- `sin_port`, at the same place in both layouts. -/
def SockAddr.sinPort : SockAddr → UInt16
  | .inet _ port => port
  | .inet6 _ port _ => port

/-- `RtcPacketClass` -/
inductive RtcPacketClass where
  | stun
  | dtls
  | rtp
  | other
  deriving DecidableEq, Repr

/-- `rtc_classify_packet` -/
def rtcClassifyPacket (buf : List UInt8) (len : ℕ) : RtcPacketClass :=
  if len < 1 then .other
  else if buf.getD 0 0 ≤ 3 then .stun
  else if 20 ≤ buf.getD 0 0 ∧ buf.getD 0 0 ≤ 63 then .dtls
  else if 128 ≤ buf.getD 0 0 then .rtp
  else .other

/-! ### CRC-32 -/

/-- One entry of the table `init_crc32_table` fills. -/
def crc32Entry (i : UInt32) : UInt32 :=
  (List.range 8).foldl
    (fun crc _ ↦ if crc &&& 1 ≠ 0 then (crc >>> 1) ^^^ 0xEDB88320 else crc >>> 1) i

/-- `g_crc32_table` -/
def crc32Table : Vector UInt32 256 :=
  Vector.ofFn fun i ↦ crc32Entry (UInt32.ofNat i)

/-- One byte of `crc32_stun`. -/
def crc32Step (crc : UInt32) (b : UInt8) : UInt32 :=
  crc32Table.toArray.getD ((crc ^^^ b.toUInt32) &&& 0xFF).toNat 0 ^^^ (crc >>> 8)

/-- `crc32_stun` -/
def crc32Stun (data : List UInt8) : UInt32 :=
  data.foldl crc32Step 0xFFFFFFFF ^^^ 0xFFFFFFFF

/-! ### The attribute walk -/

/-- The loop of `stun_find_attribute`: offset and length of the value of the first attribute of a type
between `offset` and `stop`. -/
def stunWalk (buf : List UInt8) (wanted stop offset : ℕ) : Option (ℕ × ℕ) :=
  if offset + 4 ≤ stop then
    let attrLen := readBe16 buf (offset + 2)
    if stop < offset + 4 + attrLen then none
    else if readBe16 buf offset = wanted then some (offset + 4, attrLen)
    else stunWalk buf wanted stop (offset + (4 + pad4 attrLen))
  else none
termination_by stop - offset

/-- `stun_find_attribute` -/
def stunFindAttribute (buf : List UInt8) (len wanted : ℕ) : Option (ℕ × ℕ) :=
  if len < stunHeaderSize then none
  else
    let messageLen := readBe16 buf 2
    if len < messageLen + stunHeaderSize then none
    else stunWalk buf wanted (stunHeaderSize + messageLen) stunHeaderSize

/-! ### The tests of a binding request -/

/-- `stun_is_binding_request`: the transaction id when it is one. -/
def stunIsBindingRequest (buf : List UInt8) (len : ℕ) : Option (List UInt8) :=
  if len < stunHeaderSize then none
  else if readBe16 buf 0 ≠ 0x0001 then none
  else if readBe32 buf 4 ≠ stunMagicCookie then none
  else if len < readBe16 buf 2 + stunHeaderSize then none
  else some ((buf.drop 8).take 12)

/-- The comparison of `stun_username_matches`: our fragment, a colon and anything; or, after the first
colon, exactly our fragment. -/
def usernameMatches (username localUfrag : List UInt8) : Bool :=
  if localUfrag.length < username.length ∧ username.getD localUfrag.length 0 = 0x3A ∧
      username.take localUfrag.length = localUfrag then true
  else
    match username.idxOf? 0x3A with
    | none => false
    | some colon => decide (username.drop (colon + 1) = localUfrag)

/-- `stun_username_matches` -/
def stunUsernameMatches (buf : List UInt8) (len : ℕ) (localUfrag : List UInt8) : Bool :=
  if localUfrag = [] then false
  else
    match stunFindAttribute buf len 0x0006 with
    | none => false
    | some (offset, usernameLen) => usernameMatches ((buf.drop offset).take usernameLen) localUfrag

/-- The copy of the message the MAC is computed over: everything before the MESSAGE-INTEGRITY
attribute at `miHeader`, with the length field the sender had. -/
def stunScratch (buf : List UInt8) (miHeader : ℕ) : List UInt8 :=
  writeAt (buf.take miHeader) 2 (be16 (miHeader + 24 - stunHeaderSize))

/-- `stun_verify_mi` -/
def stunVerifyMi (hmac : HmacSha1) (buf : List UInt8) (len : ℕ) (password : List UInt8) : Bool :=
  if password = [] ∨ len < stunHeaderSize + 24 then false
  else
    match stunFindAttribute buf len 0x0008 with
    | none => false
    | some (mi, miLen) =>
      if miLen ≠ 20 then false
      else
        let miHeader := mi - 4
        if miHeader < stunHeaderSize ∨ len < miHeader + 24 then false
        else decide ((hmac password (stunScratch buf miHeader)).1 = (buf.drop mi).take 20)

/-- The acceptance test of the session: all three, in this order. -/
def stunAccepts (hmac : HmacSha1) (password ufrag buf : List UInt8) (len : ℕ) : Bool :=
  (stunIsBindingRequest buf len).isSome && stunVerifyMi hmac buf len password &&
    stunUsernameMatches buf len ufrag

/-! ### Responses -/

/-- The sixteen bytes an IPv6 address is masked with: cookie and transaction id of the request. -/
def stunXorMask (request : List UInt8) : List UInt8 :=
  [0x21, 0x12, 0xA4, 0x42] ++ (request.drop 8).take 12

/-- The XOR-MAPPED-ADDRESS attribute at offset 20 of a binding response. The declared length is 8 for
both families. -/
def stunWriteXorMappedAddress (request : List UInt8) (peer : SockAddr) (out : List UInt8) :
    List UInt8 :=
  let out := writeAt out 20 (be16 0x0020 ++ be16 8 ++ [0])
  match peer with
  | .inet6 addr port _ =>
    writeAt (writeAt out 25 (0x02 :: be16 (port ^^^ 0x2112).toNat)) 28
      (List.zipWith (· ^^^ ·) addr.toList (stunXorMask request))
  | .inet addr port =>
    writeAt (writeAt out 25 (0x01 :: be16 (port ^^^ 0x2112).toNat)) 28
      (be32 (addr ^^^ UInt32.ofNat stunMagicCookie).toNat)

/-- `stun_build_binding_response`: the output buffer afterwards and the length of the message. -/
def stunBuildBindingResponse (hmac : HmacSha1) (localPwd request : List UInt8) (requestLen : ℕ)
    (peer : SockAddr) (out : List UInt8) (outCapacity : ℕ) : Option (List UInt8 × ℕ) :=
  if requestLen < stunHeaderSize ∨ outCapacity < 128 then none
  else
    let out := writeAt out 0 [0x01, 0x01]
    let out := writeAt out 4 ((request.drop 4).take 16)
    let out := stunWriteXorMappedAddress request peer out
    let payload := 12
    let attr := stunHeaderSize + payload
    let out := writeAt out attr (be16 0x0008 ++ be16 20)
    let out := writeAt out 2 (be16 (payload + 24))
    let out := writeAt out (attr + 4) (hmac localPwd (out.take (stunHeaderSize + payload))).1
    let payload := payload + 24
    let attr := stunHeaderSize + payload
    let out := writeAt out attr (be16 0x8028 ++ be16 4)
    let out := writeAt out 2 (be16 (payload + 8))
    let crc := crc32Stun (out.take (stunHeaderSize + payload)) ^^^ 0x5354554E
    let out := writeAt out (attr + 4) (be32 crc.toNat)
    some (out, stunHeaderSize + (payload + 8))

/-- `stun_build_error_response`. The buffer is cleared over 44 bytes, the message is 48 long. -/
def stunBuildErrorResponse (tid : List UInt8) (errorCode : ℕ) (out : List UInt8)
    (outCapacity : ℕ) : Option (List UInt8 × ℕ) :=
  if outCapacity < 44 then none
  else
    let out := writeAt out 0 (List.replicate 44 0)
    let out := writeAt out 0 [0x01, 0x11]
    let out := writeAt out 4 (be32 stunMagicCookie)
    let out := writeAt out 8 (tid.take 12)
    let sw : List UInt8 := [0x63, 0x61, 0x6D, 0x73, 0x74, 0x72, 0x65, 0x61, 0x6D]
    let out := writeAt out stunHeaderSize (be16 0x8022 ++ be16 sw.length ++ sw)
    let payload := 4 + pad4 sw.length
    let attr := stunHeaderSize + payload
    let out := writeAt out attr (be16 0x0009 ++ be16 8 ++ [0, UInt8.ofNat (errorCode / 100)] ++
      be16 (errorCode % 100))
    let payload := payload + 12
    let out := writeAt out 2 (be16 payload)
    some (out, stunHeaderSize + payload)

end Camstream
