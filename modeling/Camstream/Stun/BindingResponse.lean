import Camstream.Lib.Crc
import Camstream.Stun.Integrity

/-!
# The binding response

`stun_build_binding_response` fills a buffer by offsets and rewrites the length field between the two
checksums. `stunBuildBindingResponse_eq` says what is left in the buffer: a well-formed message of 64
bytes (`bindingResponse`) that does not depend on what the buffer held, and behind it the old bytes. For
an IPv6 peer the sixteen address bytes run on into the place of MESSAGE-INTEGRITY, which is written
afterwards; the declared length covers the first four.

The checksum of the last attribute is compared with CRC-32 itself: `crc32Stun_eq` relates the table the
source builds to the register of `Camstream.Lib.Crc`.
-/

namespace Camstream

open Bytes Tlv

/-! ### The table-driven checksum -/

/-- One bit of `init_crc32_table` is one shift of the register. -/
theorem crc32_shift_toBitVec (c : UInt32) :
    (if c &&& 1 ≠ 0 then (c >>> 1) ^^^ 0xEDB88320 else c >>> 1).toBitVec =
      Crc.shift Crc.poly32 c.toBitVec := by
  have hlow : c &&& 1 ≠ 0 ↔ c.toBitVec.getLsbD 0 = true := by
    rw [ne_eq, ← UInt32.toBitVec_inj, UInt32.toBitVec_and]
    show ¬ c.toBitVec &&& 1#32 = 0#32 ↔ _
    rw [BitVec.and_one_eq_setWidth_ofBool_getLsbD]
    cases c.toBitVec.getLsbD 0 <;> decide
  rw [Crc.shift]
  by_cases h : c.toBitVec.getLsbD 0 = true
  · rw [if_pos (hlow.2 h), if_pos h]
    rfl
  · rw [if_neg (mt hlow.1 h), if_neg h]
    rfl

/-- An entry of the table is eight moves of the register. -/
theorem toBitVec_crc32Entry (i : UInt32) :
    (crc32Entry i).toBitVec = (Crc.shift Crc.poly32)^[8] i.toBitVec := by
  rw [crc32Entry, List.foldl_const, List.length_range]
  exact Function.Semiconj.iterate_right (f := UInt32.toBitVec) crc32_shift_toBitVec 8 i

/-- One byte of `crc32_stun` is one step of the register. -/
theorem toBitVec_crc32Step (c : UInt32) (b : UInt8) :
    (crc32Step c b).toBitVec = Crc.step Crc.poly32 c.toBitVec b := by
  have hlt : ((c ^^^ b.toUInt32) &&& 0xFF).toNat < 256 := by
    rw [UInt32.toNat_and]
    exact Nat.lt_succ_of_le Nat.and_le_right
  have hentry : crc32Table.toArray.getD ((c ^^^ b.toUInt32) &&& 0xFF).toNat 0 =
      crc32Entry ((c ^^^ b.toUInt32) &&& 0xFF) := by
    have hsize : ((c ^^^ b.toUInt32) &&& 0xFF).toNat < crc32Table.toArray.size := by
      rw [crc32Table.size_toArray]
      exact hlt
    rw [Array.getD_eq_getD_getElem?, Array.getElem?_eq_getElem hsize, Option.getD_some]
    simp only [crc32Table, Vector.getElem_toArray, Vector.getElem_ofFn, UInt32.ofNat_toNat]
  rw [crc32Step, hentry, UInt32.toBitVec_xor, toBitVec_crc32Entry, Crc.step_eq_table]
  rfl

/-- **`crc32_stun` computes CRC-32.** -/
theorem crc32Stun_eq (data : List UInt8) : crc32Stun data = Crc.crc32 data := by
  have hfold : ∀ c : UInt32, (data.foldl crc32Step c).toBitVec =
      data.foldl (Crc.step Crc.poly32) c.toBitVec := by
    induction data with
    | nil => exact fun _ ↦ rfl
    | cons b data ih =>
      intro c
      rw [List.foldl_cons, List.foldl_cons, ih, toBitVec_crc32Step]
  rw [crc32Stun, Crc.crc32, Crc.checksum, ← UInt32.toBitVec_inj, UInt32.toBitVec_xor, hfold]
  rfl

/-- The table computes what a shift register does with one bit at a time, and the checksum of a message
in two parts takes no more of the first part than its checksum. -/
theorem crc32Stun_serial :
    (∀ data : List UInt8,
      crc32Stun data = UInt32.ofBitVec (Crc.serial Crc.poly32 (data.flatMap Crc.bits))) ∧
    ∀ a b : List UInt8,
      crc32Stun (a ++ b) = UInt32.ofBitVec (Crc.resume Crc.poly32 (crc32Stun a).toBitVec b) := by
  refine ⟨fun data ↦ ?_, fun a b ↦ ?_⟩
  · rw [crc32Stun_eq, Crc.serial_eq_checksum Crc.poly32 (by decide), Crc.crc32]
  · rw [crc32Stun_eq, crc32Stun_eq, Crc.crc32, Crc.checksum_append]
    rfl

/-! ### The message that is built -/

/-- The four address bytes that the declared length of XOR-MAPPED-ADDRESS covers. -/
def xorMappedAddress (request : List UInt8) : SockAddr → List UInt8
  | .inet6 addr _ _ => (List.zipWith (· ^^^ ·) addr.toList (stunXorMask request)).take 4
  | .inet addr _ => be32 (addr ^^^ UInt32.ofNat stunMagicCookie).toNat

/-- Address family, and port masked with the front half of the cookie. -/
def xorMappedPort : SockAddr → List UInt8
  | .inet6 _ port _ => 0x02 :: be16 (port ^^^ 0x2112).toNat
  | .inet _ port => 0x01 :: be16 (port ^^^ 0x2112).toNat

/-- For either family four bytes are inside the declared length. -/
theorem length_xorMappedAddress (request : List UInt8) (peer : SockAddr) :
    (xorMappedAddress request peer).length = 4 := by
  cases peer with
  | inet => rfl
  | inet6 addr =>
    simp only [xorMappedAddress, stunXorMask, List.length_take, List.length_zipWith,
      Vector.length_toList, List.length_append, List.length_cons, List.length_nil]
    omega

theorem length_xorMappedPort (peer : SockAddr) : (xorMappedPort peer).length = 3 := by
  cases peer <;> rfl

/-- XOR-MAPPED-ADDRESS -/
def xorMappedAttr (request : List UInt8) (peer : SockAddr) : Attr where
  type := 0x0020
  value := [0] ++ xorMappedPort peer ++ xorMappedAddress request peer
  padding := []
  type_lt := by decide
  length_lt := by
    rw [List.length_append, List.length_append, length_xorMappedPort, length_xorMappedAddress]
    decide
  length_padding := by
    rw [List.length_append, List.length_append, length_xorMappedPort, length_xorMappedAddress]
    rfl

/-- FINGERPRINT -/
def fingerprintAttr (crc : UInt32) : Attr where
  type := 0x8028
  value := be32 crc.toNat
  padding := []
  type_lt := by decide
  length_lt := by rw [length_be32]; decide
  length_padding := by rw [length_be32]; rfl

theorem length_value_xorMappedAttr (request : List UInt8) (peer : SockAddr) :
    (xorMappedAttr request peer).value.length = 8 := by
  show ([0] ++ xorMappedPort peer ++ xorMappedAddress request peer).length = 8
  rw [List.length_append, List.length_append, length_xorMappedPort, length_xorMappedAddress]
  rfl

theorem length_bytes_xorMappedAttr (request : List UInt8) (peer : SockAddr) :
    (xorMappedAttr request peer).bytes.length = 12 := by
  rw [Attr.length_bytes, length_value_xorMappedAttr]
  rfl

/-- As the code writes it: type, length and a zero, and then family, port and address. -/
theorem bytes_xorMappedAttr (request : List UInt8) (peer : SockAddr) :
    (xorMappedAttr request peer).bytes =
      [0, 0x20, 0, 8, 0] ++ (xorMappedPort peer ++ xorMappedAddress request peer) := by
  rw [Attr.bytes, length_value_xorMappedAttr]
  simp only [xorMappedAttr, List.append_nil, List.append_assoc]
  rfl

theorem bytes_miAttr (mac : { mac : List UInt8 // mac.length = 20 }) :
    (miAttr mac).bytes = (be16 0x0008 ++ be16 20) ++ mac.1 := by
  rw [Attr.bytes, show (miAttr mac).value.length = 20 from mac.2]
  simp only [miAttr, List.append_nil]

theorem bytes_fingerprintAttr (crc : UInt32) :
    (fingerprintAttr crc).bytes = (be16 0x8028 ++ be16 4) ++ be32 crc.toNat := by
  rw [Attr.bytes, show (fingerprintAttr crc).value.length = 4 from length_be32 _]
  simp only [fingerprintAttr, List.append_nil]

section Response

variable (hmac : HmacSha1) (localPwd : List UInt8) {request : List UInt8}
  (hrequest : stunHeaderSize ≤ request.length) (peer : SockAddr)

include hrequest in
/-- A request is long enough for the whole mask. -/
theorem length_stunXorMask : (stunXorMask request).length = 16 := by
  simp only [stunHeaderSize] at hrequest
  simp only [stunXorMask, List.length_append, List.length_cons, List.length_nil, List.length_take,
    List.length_drop]
  omega

/-- A success response with cookie and transaction id of the request. -/
def responseHeader : StunHeader where
  type := 0x0101
  rest := (request.drop 4).take 16
  type_lt := by decide
  length_rest := by
    simp only [stunHeaderSize] at hrequest
    rw [List.length_take, List.length_drop]
    omega

theorem be16_responseHeader_type : be16 (responseHeader hrequest).type = [0x01, 0x01] := by
  show be16 0x0101 = [0x01, 0x01]
  decide

/-- The attributes the fingerprint covers. -/
def responseAttrs : List Attr :=
  [xorMappedAttr request peer,
    miAttr (hmac localPwd (signedPart (responseHeader hrequest) [xorMappedAttr request peer]))]

/-- The fingerprint, over the header with the final length field and the attributes in front. -/
def responseFingerprint : Attr :=
  fingerprintAttr (Crc.crc32 ((responseHeader hrequest).bytes 44 ++
    encode (responseAttrs hmac localPwd hrequest peer)) ^^^ 0x5354554E)

/-- The response: address, MESSAGE-INTEGRITY, FINGERPRINT. -/
def bindingResponse : List UInt8 :=
  stunMessage (responseHeader hrequest)
    (responseAttrs hmac localPwd hrequest peer ++
      [responseFingerprint hmac localPwd hrequest peer])

/-- The payload that the first checksum is written for. -/
theorem length_encode_responseAttrs :
    (encode (responseAttrs hmac localPwd hrequest peer)).length = 36 := by
  rw [responseAttrs, encode_cons, encode_singleton, List.length_append, bytes_miAttr,
    Attr.length_bytes, length_value_xorMappedAttr, List.length_append, (hmac localPwd _).2]
  rfl

/-- The final payload. -/
theorem length_encode_response :
    (encode (responseAttrs hmac localPwd hrequest peer ++
      [responseFingerprint hmac localPwd hrequest peer])).length = 44 := by
  rw [encode_append, encode_singleton, List.length_append, length_encode_responseAttrs,
    responseFingerprint, bytes_fingerprintAttr]
  rfl

theorem length_bindingResponse : (bindingResponse hmac localPwd hrequest peer).length = 64 := by
  rw [bindingResponse, length_stunMessage, length_encode_response]
  rfl

/-! ### What the code leaves in the buffer -/

/-- The address is written over three blocks; for IPv6 it runs on over two more. -/
theorem stunWriteXorMappedAddress_blocks {p0 p1 c x1 x2 x3 y1 y2 : List UInt8}
    (post : List (List UInt8)) (h0 : p0.length = 2) (h1 : p1.length = 2) (hc : c.length = 16)
    (hx1 : x1.length = 5) (hx2 : x2.length = 3) (hx3 : x3.length = 4) (hy1 : y1.length = 4)
    (hy2 : y2.length = 20) (hmask : (stunXorMask request).length = 16) :
    ∃ y1' y2' : List UInt8, y1'.length = 4 ∧ y2'.length = 20 ∧
      stunWriteXorMappedAddress request peer ([p0, p1, c, x1, x2, x3, y1, y2] ++ post).flatten =
        ([p0, p1, c, (xorMappedAttr request peer).bytes, y1', y2'] ++ post).flatten := by
  have hbytes : ∀ y1' y2' : List UInt8,
      ([p0, p1, c, (xorMappedAttr request peer).bytes, y1', y2'] ++ post).flatten =
        ([p0, p1, c, [0, 0x20, 0, 8, 0], xorMappedPort peer, xorMappedAddress request peer, y1', y2'] ++
          post).flatten := fun y1' y2' ↦ by
    rw [bytes_xorMappedAttr]
    simp only [List.cons_append, List.nil_append, List.flatten_cons, List.append_assoc]
  have htype : writeAt ([p0, p1, c, x1, x2, x3, y1, y2] ++ post).flatten 20
      (be16 0x0020 ++ be16 8 ++ [0]) =
        ([p0, p1, c, [0, 0x20, 0, 8, 0], x2, x3, y1, y2] ++ post).flatten :=
    writeAt_flatten [p0, p1, c] (by simp [h0, h1, hc]) hx1
  have hport : writeAt ([p0, p1, c, [0, 0x20, 0, 8, 0], x2, x3, y1, y2] ++ post).flatten 25
      (xorMappedPort peer) =
        ([p0, p1, c, [0, 0x20, 0, 8, 0], xorMappedPort peer, x3, y1, y2] ++ post).flatten :=
    writeAt_flatten [p0, p1, c, [0, 0x20, 0, 8, 0]] (by simp [h0, h1, hc])
      (by rw [hx2, length_xorMappedPort])
  have hplace : 28 = [p0, p1, c, [0, 0x20, 0, 8, 0], xorMappedPort peer].flatten.length := by
    simp [h0, h1, hc, length_xorMappedPort]
  cases peer with
  | inet addr port =>
    refine ⟨y1, y2, hy1, hy2, ?_⟩
    rw [hbytes, stunWriteXorMappedAddress, htype]
    show writeAt (writeAt _ 25 (xorMappedPort (.inet addr port))) 28
      (xorMappedAddress request (.inet addr port)) = _
    rw [hport]
    exact writeAt_flatten _ hplace (by rw [hx3, length_xorMappedAddress])
  | inet6 addr port flow =>
    set masked := List.zipWith (· ^^^ ·) addr.toList (stunXorMask request) with hmasked
    have hlen : masked.length = 16 := by
      rw [hmasked, List.length_zipWith, Vector.length_toList, hmask]
      rfl
    -- Sixteen bytes from offset 28 on: the place of the address and, behind it, that of the attributes to
    -- come.
    have hcut : masked = masked.take 4 ++ ((masked.drop 4).take 4 ++ masked.drop 8) := by
      rw [show masked.drop 8 = (masked.drop 4).drop 4 by rw [List.drop_drop],
        List.take_append_drop, List.take_append_drop]
    have hrun : writeAt ([p0, p1, c, [0, 0x20, 0, 8, 0], xorMappedPort (.inet6 addr port flow),
        x3 ++ (y1 ++ y2.take 8), y2.drop 8] ++ post).flatten 28 masked =
          ([p0, p1, c, [0, 0x20, 0, 8, 0], xorMappedPort (.inet6 addr port flow), masked,
            y2.drop 8] ++ post).flatten :=
      writeAt_flatten _ hplace (by simp [hx3, hy1, hy2, hlen])
    have hjoin : ([p0, p1, c, [0, 0x20, 0, 8, 0], xorMappedPort (.inet6 addr port flow), x3, y1, y2] ++
        post).flatten = ([p0, p1, c, [0, 0x20, 0, 8, 0], xorMappedPort (.inet6 addr port flow),
          x3 ++ (y1 ++ y2.take 8), y2.drop 8] ++ post).flatten := by
      conv_lhs => rw [← List.take_append_drop 8 y2]
      simp only [List.cons_append, List.nil_append, List.flatten_cons, List.append_assoc]
    refine ⟨(masked.drop 4).take 4, masked.drop 8 ++ y2.drop 8, by simp [hlen],
      by simp [hlen, hy2], ?_⟩
    rw [hbytes, stunWriteXorMappedAddress, htype]
    show writeAt (writeAt _ 25 (xorMappedPort (.inet6 addr port flow))) 28 masked = _
    rw [hport, hjoin, hrun]
    show _ = ([p0, p1, c, [0, 0x20, 0, 8, 0], xorMappedPort (.inet6 addr port flow), masked.take 4,
      (masked.drop 4).take 4, masked.drop 8 ++ y2.drop 8] ++ post).flatten
    conv_lhs => rw [hcut]
    simp only [List.cons_append, List.nil_append, List.flatten_cons, List.append_assoc]

/-- Type and length of an attribute are written where it starts, then the length field of the header. -/
theorem writeAt_attrHeader (h : StunHeader) {p1 y1 hdr : List UInt8} (as post : List (List UInt8)) (n : ℕ)
    (hp1 : p1.length = 2) (hy1 : y1.length = hdr.length) {place : ℕ}
    (hplace : place = stunHeaderSize + as.flatten.length) :
    writeAt (writeAt ([be16 h.type, p1, h.rest] ++ as ++ y1 :: post).flatten place hdr) 2 (be16 n) =
      ([be16 h.type, be16 n, h.rest] ++ as ++ hdr :: post).flatten := by
  rw [writeAt_flatten _ (by simp [hplace, hp1, h.length_rest, stunHeaderSize]; omega) hy1]
  exact writeAt_flatten [be16 h.type] rfl hp1

/-- The bytes in front of an attribute: header and attributes before it. -/
theorem take_attrs (h : StunHeader) (as post : List (List UInt8)) (n : ℕ) {place : ℕ}
    (hplace : place = stunHeaderSize + as.flatten.length) :
    ([be16 h.type, be16 n, h.rest] ++ as ++ post).flatten.take place = h.bytes n ++ as.flatten := by
  rw [take_flatten (by simp [hplace, h.length_rest, stunHeaderSize]; omega)]
  simp [StunHeader.bytes]

/-- A checksum attribute is added behind the attributes `as`: type and length, the length field of the
header, and then the value, computed from the bytes in front of it. MESSAGE-INTEGRITY and FINGERPRINT
are both written so. -/
theorem writeAt_checksumAttr (h : StunHeader) {p1 y1 y2 : List UInt8} (hdr : List UInt8)
    (as post : List (List UInt8)) (n place : ℕ) (checksum : List UInt8 → List UInt8)
    (hp1 : p1.length = 2) (hy1 : y1.length = 4) (hhdr : hdr.length = 4)
    (hy2 : y2.length = (checksum (h.bytes n ++ as.flatten)).length)
    (hplace : place = stunHeaderSize + as.flatten.length) {out : List UInt8}
    (hout : out =
      writeAt (writeAt ([be16 h.type, p1, h.rest] ++ as ++ y1 :: y2 :: post).flatten place hdr) 2 (be16 n)) :
    writeAt out (place + 4) (checksum (out.take place)) =
      ([be16 h.type, be16 n, h.rest] ++ (as ++ [hdr, checksum (h.bytes n ++ as.flatten)]) ++
        post).flatten := by
  have hwritten : out = ([be16 h.type, be16 n, h.rest] ++ as ++ hdr :: y2 :: post).flatten :=
    hout.trans (writeAt_attrHeader h as (y2 :: post) n hp1 (hy1.trans hhdr.symm) hplace)
  have hfront : out.take place = h.bytes n ++ as.flatten := by
    rw [hwritten]
    exact take_attrs h as (hdr :: y2 :: post) n hplace
  have hblocks : ([be16 h.type, be16 n, h.rest] ++ as ++ hdr :: y2 :: post) =
      ([be16 h.type, be16 n, h.rest] ++ as ++ [hdr]) ++ y2 :: post := by
    simp only [List.append_assoc, List.singleton_append]
  rw [hfront, hwritten, hblocks,
    writeAt_flatten _ (by simp [hplace, hhdr, h.length_rest, stunHeaderSize]; omega) hy2]
  simp only [List.append_assoc, List.cons_append, List.nil_append]

/-- Message type, then cookie and transaction id of the request; the length field between them is left
for later. -/
theorem writeAt_responseHeader {p0 p1 c : List UInt8} (post : List (List UInt8)) (h0 : p0.length = 2)
    (h1 : p1.length = 2) (hc : c.length = 16) :
    writeAt (writeAt (p0 :: p1 :: c :: post).flatten 0 [0x01, 0x01]) 4 ((request.drop 4).take 16) =
      ([be16 (responseHeader hrequest).type, p1, (responseHeader hrequest).rest] ++ post).flatten := by
  have htype : writeAt (p0 :: p1 :: c :: post).flatten 0 [0x01, 0x01] =
      (be16 (responseHeader hrequest).type :: p1 :: c :: post).flatten := by
    rw [be16_responseHeader_type]
    exact writeAt_flatten [] rfl h0
  rw [htype]
  exact writeAt_flatten [be16 (responseHeader hrequest).type, p1] (by simp [h1])
    (by rw [hc]; exact (responseHeader hrequest).length_rest.symm)

/-- The attributes the fingerprint covers, as the blocks the code writes. -/
theorem encode_responseAttrs : encode (responseAttrs hmac localPwd hrequest peer) =
    ([(xorMappedAttr request peer).bytes] ++ [be16 0x0008 ++ be16 20,
      (hmac localPwd (signedPart (responseHeader hrequest) [xorMappedAttr request peer])).1]).flatten := by
  rw [responseAttrs, encode_cons, encode_singleton, bytes_miAttr]
  simp only [List.singleton_append, List.flatten_cons, List.flatten_nil, List.append_nil]

/-- The response is the header with the final length field, those blocks and the fingerprint. -/
theorem bindingResponse_eq_flatten {bs : List (List UInt8)}
    (hbs : encode (responseAttrs hmac localPwd hrequest peer) = bs.flatten) :
    bindingResponse hmac localPwd hrequest peer =
      ([be16 (responseHeader hrequest).type, be16 44, (responseHeader hrequest).rest] ++
        (bs ++ [be16 0x8028 ++ be16 4,
          be32 (crc32Stun ((responseHeader hrequest).bytes 44 ++ bs.flatten) ^^^
            0x5354554E).toNat])).flatten := by
  rw [bindingResponse, stunMessage, length_encode_response, encode_append, encode_singleton,
    responseFingerprint, bytes_fingerprintAttr, hbs, crc32Stun_eq]
  simp only [StunHeader.bytes, List.flatten_append, List.flatten_cons, List.flatten_nil, List.append_nil,
    List.append_assoc]

/-- **What `stun_build_binding_response` builds**: the response, whatever the buffer held, with the bytes
behind it unchanged. -/
theorem stunBuildBindingResponse_eq {out : List UInt8} {outCapacity : ℕ} (hcapacity : 128 ≤ outCapacity)
    (hout : outCapacity ≤ out.length) :
    stunBuildBindingResponse hmac localPwd request request.length peer out outCapacity =
      some (bindingResponse hmac localPwd hrequest peer ++ out.drop 64, 64) := by
  -- The buffer is cut where the code writes, so that each write replaces whole blocks.
  obtain ⟨bs, hbs, hblocks⟩ := exists_blocks [2, 2, 16, 5, 3, 4, 4, 20, 4, 4] (l := out)
    (by show 64 ≤ out.length; omega)
  simp only [List.map_eq_cons_iff, List.map_eq_nil_iff] at hbs
  obtain ⟨p0, _, rfl, h0, p1, _, rfl, h1, c, _, rfl, hc, x1, _, rfl, hx1, x2, _, rfl, hx2, x3, _, rfl,
    hx3, y1, _, rfl, hy1, y2, _, rfl, hy2, z1, _, rfl, hz1, z2, _, rfl, hz2, rfl⟩ := hbs
  set r := out.drop 64 with hr
  set hd := responseHeader hrequest with hhd
  set xor := (xorMappedAttr request peer).bytes with hxor
  set mac := hmac localPwd (signedPart hd [xorMappedAttr request peer]) with hmac'
  have hxorLen : xor.length = 12 := length_bytes_xorMappedAttr request peer
  have hattrsLen : ([xor] ++ [be16 0x0008 ++ be16 20, mac.1]).flatten.length = 36 := by
    rw [← encode_responseAttrs, length_encode_responseAttrs]
  have hheader : writeAt (writeAt out 0 [0x01, 0x01]) 4 ((request.drop 4).take 16) =
      ([be16 hd.type, p1, hd.rest, x1, x2, x3, y1, y2] ++ [z1, z2, r]).flatten := by
    have hout' : out = (p0 :: p1 :: c :: [x1, x2, x3, y1, y2, z1, z2, r]).flatten := by
      rw [hblocks]
      simp [hr]
    rw [hout']
    exact writeAt_responseHeader hrequest [x1, x2, x3, y1, y2, z1, z2, r] h0 h1 hc
  obtain ⟨y1', y2', hy1', hy2', haddr⟩ := stunWriteXorMappedAddress_blocks peer [z1, z2, r]
    (length_be16 hd.type) h1 hd.length_rest hx1 hx2 hx3 hy1 hy2 (length_stunXorMask hrequest)
  have hsigned : hd.bytes 36 ++ [xor].flatten = signedPart hd [xorMappedAttr request peer] := by
    rw [signedPart, encode_singleton, ← hxor, hxorLen, List.flatten_singleton]
  have hmi := writeAt_checksumAttr hd (be16 0x0008 ++ be16 20) [xor] [z1, z2, r] 36 32
    (fun bytes ↦ (hmac localPwd bytes).1) h1 hy1' rfl (hy2'.trans (hmac localPwd _).2.symm)
    (by simp [hxorLen, stunHeaderSize]) rfl
  rw [hsigned, ← hmac'] at hmi
  -- The second checksum covers the first, under the length field that is final.
  have hfp := writeAt_checksumAttr hd (be16 0x8028 ++ be16 4) ([xor] ++ [be16 0x0008 ++ be16 20, mac.1])
    [r] 44 56 (fun bytes ↦ be32 (crc32Stun bytes ^^^ 0x5354554E).toNat) (length_be16 36) hz1 rfl
    (hz2.trans (length_be32 _).symm) (by rw [hattrsLen]; rfl) rfl
  have hmessage := bindingResponse_eq_flatten hmac localPwd hrequest peer
    (encode_responseAttrs hmac localPwd hrequest peer)
  rw [← hhd, ← hxor, ← hmac'] at hmessage
  rw [stunBuildBindingResponse, if_neg (by omega)]
  simp only [stunHeaderSize, Nat.reduceAdd] at hmi hfp ⊢
  rw [hheader, haddr, ← hxor]
  simp only [List.cons_append, List.nil_append] at hmi hfp hmessage ⊢
  rw [hmi, hfp, hmessage]
  simp

/-! ### What the response satisfies -/

/-- The response, cut in front of its fingerprint. -/
theorem bindingResponse_eq_append : bindingResponse hmac localPwd hrequest peer =
    ((responseHeader hrequest).bytes 44 ++ encode (responseAttrs hmac localPwd hrequest peer)) ++
      (responseFingerprint hmac localPwd hrequest peer).bytes := by
  rw [bindingResponse, stunMessage, length_encode_response, encode_append, encode_singleton,
    List.append_assoc]

theorem fits_response : Fits (responseAttrs hmac localPwd hrequest peer ++
    [responseFingerprint hmac localPwd hrequest peer]) := by
  rw [Fits, length_encode_response]
  decide

/-- The verifier accepts the response under the password it was built with. -/
theorem stunVerifyMi_bindingResponse (hpassword : localPwd ≠ []) :
    stunVerifyMi hmac (bindingResponse hmac localPwd hrequest peer)
      (bindingResponse hmac localPwd hrequest peer).length localPwd = true :=
  stunVerifyMi_message_signed (responseHeader hrequest) [xorMappedAttr request peer]
    [responseFingerprint hmac localPwd hrequest peer] hpassword (by simp [xorMappedAttr])
    (fits_response hmac localPwd hrequest peer)

/-- The bytes in front of the fingerprint are all but the last eight. -/
theorem take_bindingResponse : (bindingResponse hmac localPwd hrequest peer).take 56 =
    (responseHeader hrequest).bytes 44 ++ encode (responseAttrs hmac localPwd hrequest peer) := by
  rw [bindingResponse_eq_append]
  exact List.take_left' (by rw [List.length_append, StunHeader.length_bytes,
    length_encode_responseAttrs]; rfl)

end Response

/-- **Binding responses verify under the server's own rules.** There is one message that every call with
a capacity of at least 128 writes, whatever was in the buffer and leaving the rest of it alone; it answers
the request, passes the test of its own MESSAGE-INTEGRITY and ends with its CRC-32. -/
theorem stunBuildBindingResponse_verifies (hmac : HmacSha1) {password request : List UInt8}
    (hpassword : password ≠ []) (hrequest : stunHeaderSize ≤ request.length) (peer : SockAddr) :
    ∃ msg : List UInt8,
      (∀ (out : List UInt8) (outCapacity : ℕ), 128 ≤ outCapacity → outCapacity ≤ out.length →
        stunBuildBindingResponse hmac password request request.length peer out outCapacity =
          some (msg ++ out.drop msg.length, msg.length)) ∧
      msg.length ≤ 128 ∧ msg.take 2 = [0x01, 0x01] ∧
      (msg.drop 4).take 16 = (request.drop 4).take 16 ∧
      readBe16 msg 2 = msg.length - stunHeaderSize ∧
      stunVerifyMi hmac msg msg.length password = true ∧
      ∃ (h : StunHeader) (as : List Attr) (fingerprint : Attr),
        msg = stunMessage h (as ++ [fingerprint]) ∧ fingerprint.type = 0x8028 ∧
        fingerprint.value =
          be32 (Crc.crc32 (msg.take (msg.length - fingerprint.bytes.length)) ^^^ 0x5354554E).toNat := by
  have hlen := length_bindingResponse hmac password hrequest peer
  have hfp : (responseFingerprint hmac password hrequest peer).bytes.length = 8 := by
    rw [responseFingerprint, bytes_fingerprintAttr]
    rfl
  refine ⟨bindingResponse hmac password hrequest peer, ?_, by omega, ?_, ?_, ?_,
    stunVerifyMi_bindingResponse hmac password hrequest peer hpassword, responseHeader hrequest,
    responseAttrs hmac password hrequest peer, responseFingerprint hmac password hrequest peer, rfl,
    rfl, ?_⟩
  · intro out outCapacity hcapacity hout
    rw [stunBuildBindingResponse_eq hmac password hrequest peer hcapacity hout, hlen]
  · rw [bindingResponse, stunMessage, StunHeader.bytes, be16_responseHeader_type]
    rfl
  -- Cookie and transaction id are the bytes behind the first four.
  · have hrest : ((be16 (responseHeader hrequest).type ++ be16 44) ++ ((request.drop 4).take 16 ++
        (encode (responseAttrs hmac password hrequest peer) ++
          (responseFingerprint hmac password hrequest peer).bytes))) =
        bindingResponse hmac password hrequest peer := by
      rw [bindingResponse_eq_append]
      simp only [StunHeader.bytes, responseHeader, List.append_assoc]
    have hfront : (be16 (responseHeader hrequest).type ++ be16 44).length = 4 := rfl
    rw [← hrest, List.drop_left' hfront]
    exact List.take_left' (responseHeader hrequest).length_rest
  · rw [bindingResponse, readBe16_stunMessage_two (fits_response hmac password hrequest peer),
      length_stunMessage, Nat.add_sub_cancel_left]
  · rw [hlen, hfp, take_bindingResponse]
    rfl

/-- A request of a peer on the loopback address, answered under the sample password. -/
theorem stunBuildBindingResponse_verifies_sample :
    ∃ msg : List UInt8,
      (∀ (out : List UInt8) (outCapacity : ℕ), 128 ≤ outCapacity → outCapacity ≤ out.length →
        stunBuildBindingResponse (fun _ _ ↦ sampleMac) samplePassword (stunMessage sampleHeader [])
            (stunMessage sampleHeader []).length (.inet 0x7F000001 5000) out outCapacity =
          some (msg ++ out.drop msg.length, msg.length)) ∧
      msg.length ≤ 128 ∧ msg.take 2 = [0x01, 0x01] ∧
      (msg.drop 4).take 16 = ((stunMessage sampleHeader []).drop 4).take 16 ∧
      readBe16 msg 2 = msg.length - stunHeaderSize ∧
      stunVerifyMi (fun _ _ ↦ sampleMac) msg msg.length samplePassword = true ∧
      ∃ (h : StunHeader) (as : List Attr) (fingerprint : Attr),
        msg = stunMessage h (as ++ [fingerprint]) ∧ fingerprint.type = 0x8028 ∧
        fingerprint.value =
          be32 (Crc.crc32 (msg.take (msg.length - fingerprint.bytes.length)) ^^^ 0x5354554E).toNat :=
  stunBuildBindingResponse_verifies (fun _ _ ↦ sampleMac) (by decide) (by decide)
    (.inet 0x7F000001 5000)

end Camstream
