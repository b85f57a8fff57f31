import Quilkin.Filters.TokenRouter
import Quilkin.Bytes.Endian

/-!
# The decryptor: a destination encrypted by a client is the one pushed

A client encrypts its destination for the `Decryptor` as the filter's test does: the address's
octets then the port, big-endian, XORed with the ChaCha20 keystream of the shared key and a
twelve-byte nonce. The keystream is the same on both sides, so XORing it again gives the plain
bytes back (`applyKeystream_applyKeystream`); `decode_destination` reads the address and port the
encoding wrote (`decodeDestination_encodeDestination_v4`, `_v6`, where the flow information and
scope id, which the encoding leaves out, come back as zero). So the filter pushes the endpoint of
the destination the client encrypted (`read_encrypted`).
-/

namespace Quilkin.Filters

open Net

/-- The data a client encrypts for the decryptor, as the filter's test builds it: an ipv4
address's four octets or an ipv6 address's sixteen, then the port, big-endian. -/
def encodeDestination : SocketAddr → List UInt8
  | .v4 ip port => [ip.a, ip.b, ip.c, ip.d] ++ port.toBeBytes
  | .v6 ip port _ _ => ip.octets.toList ++ port.toBeBytes

/-! ## The keystream -/

@[simp] theorem length_applyKeystream (ks : Keystream) (key nonce data : List UInt8) :
    (applyKeystream ks key nonce data).length = data.length :=
  List.length_mapIdx

/-- Applying the keystream twice gives the data back: decryption undoes encryption. -/
theorem applyKeystream_applyKeystream (ks : Keystream) (key nonce data : List UInt8) :
    applyKeystream ks key nonce (applyKeystream ks key nonce data) = data := by
  apply List.ext_getElem (by simp)
  intro i h₁ h₂
  simp only [applyKeystream, List.getElem_mapIdx]
  rw [UInt8.xor_assoc, UInt8.xor_self, UInt8.xor_zero]

/-! ## Decoding what the encoding wrote -/

namespace Decryptor

/-- The port read from two bytes is their big-endian value. -/
theorem decodePort_eq_fromBeBytes (hi lo : UInt8) : decodePort hi lo = UInt16.fromBeBytes [hi, lo] := by
  apply UInt16.toNat_inj.mp
  have hhi : hi.toNat < 256 := hi.toNat_lt
  have hlo : lo.toNat < 2 ^ 8 := lo.toNat_lt
  have hshift : hi.toNat <<< 8 % 2 ^ 16 = hi.toNat <<< 8 := by
    rw [Nat.shiftLeft_eq]
    omega
  rw [decodePort, UInt16.toNat_or, UInt16.toNat_shiftLeft, UInt8.toNat_toUInt16, UInt8.toNat_toUInt16]
  simp only [UInt16.fromBeBytes, ByteOrder.ofBE, ByteOrder.ofLE, List.reverse_cons, List.reverse_nil,
    List.nil_append, List.cons_append]
  -- the high byte shifted past the low one: the OR is a sum
  show hi.toNat <<< 8 % 2 ^ 16 ||| lo.toNat = _
  rw [hshift, ← Nat.shiftLeft_add_eq_or_of_lt hlo, Nat.shiftLeft_eq, UInt16.toNat_ofNat']
  omega

/-- The two big-endian bytes of a port decode to it. -/
theorem decodePort_toBeBytes (port : UInt16) {hi lo : UInt8} (h : port.toBeBytes = [hi, lo]) :
    decodePort hi lo = port := by
  rw [decodePort_eq_fromBeBytes, ← h, UInt16.fromBeBytes_toBeBytes]

theorem decodeDestination_encodeDestination_v4 (ip : Ipv4Addr) (port : UInt16) :
    decodeDestination (encodeDestination (.v4 ip port)) = some (.v4 ip port) := by
  obtain ⟨hi, lo, hbytes⟩ := List.length_eq_two.mp (UInt16.length_toBeBytes port)
  rw [encodeDestination, hbytes]
  show decodeDestination [ip.a, ip.b, ip.c, ip.d, hi, lo] = _
  have hlen : [ip.a, ip.b, ip.c, ip.d, hi, lo].length = destinationMin := rfl
  rw [decodeDestination, dif_pos hlen]
  exact congrArg (fun port => some (SocketAddr.v4 ip port)) (decodePort_toBeBytes port hbytes)

theorem decodeDestination_encodeDestination_v6 (ip : Ipv6Addr) (port : UInt16) (flowinfo scopeId : UInt32) :
    decodeDestination (encodeDestination (.v6 ip port flowinfo scopeId)) = some (.v6 ip port 0 0) := by
  obtain ⟨octets⟩ := ip
  obtain ⟨hi, lo, hbytes⟩ := List.length_eq_two.mp (UInt16.length_toBeBytes port)
  have hlen : (octets.toList ++ [hi, lo]).length = destinationMax := by simp [destinationMax]
  have hport : decodePort (octets.toList ++ [hi, lo])[16] (octets.toList ++ [hi, lo])[17] = port := by
    rw [List.getElem_append_right (by simp), List.getElem_append_right (by simp)]
    simpa using decodePort_toBeBytes port hbytes
  rw [encodeDestination, hbytes, decodeDestination, dif_neg (by simp [destinationMin]), dif_pos hlen]
  simp only [hport, Option.some.injEq, SocketAddr.v6.injEq, Ipv6Addr.mk.injEq, and_true]
  -- the first sixteen bytes are the octets
  ext i hi16
  simp

end Decryptor

/-! ## The filter -/

/-- Data encrypted by a client with the filter's key and a twelve-byte nonce, stored under the
filter's keys, makes the filter push the endpoint of the destination the client encrypted. -/
theorem Decryptor.read_encrypted (ks : Keystream) (d : Decryptor) (ctx : ReadContext) (dest : SocketAddr)
    {nonce : List UInt8} (hnonce : nonce.length = 12)
    (hdata : ctx.metadata d.config.dataKey =
      some (.bytes (applyKeystream ks d.config.key nonce (encodeDestination dest))))
    (hnonceKey : ctx.metadata d.config.nonceKey = some (.bytes nonce)) :
    d.read ks ctx =
      some ({ ctx with destinations := ctx.destinations ++ [EndpointAddress.ofSocketAddr dest] }, .ok ()) := by
  have hdecode : (Decryptor.decodeDestination (encodeDestination dest)).map EndpointAddress.ofSocketAddr =
      some (EndpointAddress.ofSocketAddr dest) := by
    cases dest with
    | v4 ip port => rw [Decryptor.decodeDestination_encodeDestination_v4]; rfl
    | v6 ip port flowinfo scopeId => rw [Decryptor.decodeDestination_encodeDestination_v6]; rfl
  have hlen : (encodeDestination dest).length = Decryptor.destinationMin ∨
      (encodeDestination dest).length = Decryptor.destinationMax := by
    cases dest <;> simp [encodeDestination, Decryptor.destinationMin, Decryptor.destinationMax]
  cases hmode : d.config.mode
  rw [Decryptor.read, hdata, hnonceKey]
  simp only [hnonce, ne_eq, not_true_eq_false, if_false, length_applyKeystream, hlen, if_true,
    applyKeystream_applyKeystream]
  obtain ⟨sa, hsa, hend⟩ := Option.map_eq_some_iff.mp hdecode
  rw [hsa, Option.map_some, hend]

/-- The decryptor of the filter's test: a key of thirty-two `0x42` bytes, under the default
keys. -/
def testDecryptor : Decryptor := ⟨⟨List.replicate 32 0x42, capturedBytes, nonceKey, .destination⟩⟩

/-- A keystream whose byte at each position is the position, for the examples. -/
def positionKeystream : Keystream := fun _ _ i => i.toUInt8

/-- The nonce of the filter's test. -/
def testNonce : List UInt8 := List.replicate 12 0x22

/-- A datagram's context whose metadata holds the test's nonce and `127.0.0.1:8080` encrypted. -/
def localhostContext : ReadContext :=
  { ReadContext.new ClusterMap.new ⟨.ip (.v4 ⟨0, 0, 0, 0⟩), 0⟩ [] [] with
    metadata := DynamicMetadata.insert (DynamicMetadata.insert (fun _ => none) nonceKey (.bytes testNonce))
      capturedBytes (.bytes (applyKeystream positionKeystream testDecryptor.config.key testNonce
        (encodeDestination (.v4 ⟨127, 0, 0, 1⟩ 8080)))) }

theorem read_encrypted_localhost :
    testNonce.length = 12 ∧
    localhostContext.metadata testDecryptor.config.dataKey = some (.bytes (applyKeystream
      positionKeystream testDecryptor.config.key testNonce (encodeDestination (.v4 ⟨127, 0, 0, 1⟩ 8080)))) ∧
    localhostContext.metadata testDecryptor.config.nonceKey = some (.bytes testNonce) ∧
    testDecryptor.read positionKeystream localhostContext =
      some ({ localhostContext with destinations := localhostContext.destinations ++
        [EndpointAddress.ofSocketAddr (.v4 ⟨127, 0, 0, 1⟩ 8080)] }, .ok ()) := by
  have hnonce : testNonce.length = 12 := rfl
  have hdata : localhostContext.metadata testDecryptor.config.dataKey = some (.bytes (applyKeystream
      positionKeystream testDecryptor.config.key testNonce (encodeDestination (.v4 ⟨127, 0, 0, 1⟩ 8080)))) := by
    simp [localhostContext, testDecryptor]
  have hnonceKey : localhostContext.metadata testDecryptor.config.nonceKey = some (.bytes testNonce) := by
    simp [localhostContext, testDecryptor, capturedBytes, nonceKey]
  exact ⟨hnonce, hdata, hnonceKey, Decryptor.read_encrypted _ _ _ _ hnonce hdata hnonceKey⟩

end Quilkin.Filters
