import PathControl.Proofs.Wire.Checksum
import PathControl.Proofs.Wire.Field

/-!
# Checksums that verify

A receiver sums the words that a checksum covers, the stored checksum among them, and expects all
ones, whose complement is zero. The sums of a written envelope come out like that.

* `Verifies`: a sum that is divisible by 65535 and not zero, which folds to all ones
  (`checksum_of_verifies`). A computed checksum makes up for what is missing to such a sum:
  `verifies_checksum`.
* `Envelope.checksum_ipv4Header`, `Envelope.checksum_datagram`: so do the checksums in the headers.
  That all ones stand for zero in a datagram adds 65535 and changes nothing.
* `Envelope.written_checksums_verify`: what writing leaves in a buffer, read from its bytes.
-/

namespace PathControl.Wire

/-- A sum goes on behind an even number of bytes. -/
theorem checksum_continues {front : Bytes} (h : front.length % 2 = 0) (bs : Bytes) :
    checksum (wordSum front) bs = checksum 0 (front ++ bs) := by
  rw [checksum_append h, Nat.zero_add]

/-- Whether a sum of words is what verifies: a multiple of 65535, and not zero. -/
def Verifies (sum : Nat) : Prop := 0 < sum ∧ sum % 0xFFFF = 0

/-- The checksum over data that verify is zero. -/
theorem checksum_of_verifies {start : Nat} {bs : Bytes} (h : Verifies (start + wordSum bs)) :
    checksum start bs = 0 := by
  obtain ⟨hpos, hdvd⟩ := h
  apply UInt16.toNat_inj.1
  rw [toNat_checksum, foldCarries_eq, if_neg (Nat.pos_iff_ne_zero.1 hpos)]
  show _ = 0
  omega

/-- A sum and its checksum verify together. -/
theorem verifies_checksum (start : Nat) (bs : Bytes) :
    Verifies (start + wordSum bs + (checksum start bs).toNat) := by
  rw [toNat_checksum, foldCarries_eq]
  split
  · next hzero =>
    rw [hzero]
    exact ⟨by decide, by decide⟩
  · constructor <;> omega

/-- All ones can stand for zero. -/
theorem Verifies.of_zero {sum : Nat} {stored : UInt16} (h : Verifies (sum + stored.toNat)) :
    Verifies (sum + (if stored = 0 then 0xffff else stored : UInt16).toNat) := by
  split
  · next hzero =>
    obtain ⟨hpos, hdvd⟩ := h
    rw [hzero] at hpos hdvd
    exact ⟨Nat.add_pos_left hpos _, (Nat.add_mod_right sum 0xFFFF).trans hdvd⟩
  · exact h

namespace Envelope

variable (e : Envelope)

/-- The IPv4 header of a frame, if it has no options. -/
def ipv4Part (frame : Bytes) : Bytes := (frame.drop ethernetHeaderLength).take ipv4HeaderLength

/-- The datagram of a frame whose IPv4 header has no options, with `n` bytes of payload. -/
def datagramPart (frame : Bytes) (n : Nat) : Bytes :=
  (frame.drop (ethernetHeaderLength + ipv4HeaderLength)).take (udpHeaderLength + n)

/-! ### Sums of headers -/

/-- What stands before the checksum in an IPv4 header. -/
def ipv4Front (size : UInt16) : Bytes :=
  [0x45, 0] ++ word16Bytes size ++ word16Bytes e.identification ++ word16Bytes 0 ++
    [hopLimit, udpProtocol]

/-- What stands before the checksum in a UDP header. -/
def udpFront (size : UInt16) : Bytes :=
  word16Bytes e.sourcePort ++ word16Bytes e.targetPort ++ word16Bytes size

/-- The checksum of an IPv4 header stands between what is in front of it and the addresses. -/
theorem ipv4Header_eq (size checksum : UInt16) :
    e.ipv4Header size checksum =
      e.ipv4Front size ++ (word16Bytes checksum ++ (e.sourceIp.octets ++ e.targetIp.octets)) := rfl

/-- The checksum of a UDP header stands at its end. -/
theorem udpHeader_eq (size checksum : UInt16) :
    e.udpHeader size checksum = e.udpFront size ++ word16Bytes checksum := rfl

/-- What is in front of the IPv4 checksum has ten bytes. -/
theorem length_ipv4Front (size : UInt16) : (e.ipv4Front size).length = 10 := rfl

/-- What is in front of the UDP checksum has six bytes. -/
theorem length_udpFront (size : UInt16) : (e.udpFront size).length = 6 := rfl

/-- A stored word, with something even before it, adds to the sum. -/
theorem wordSum_stored {front back : Bytes} (h : front.length % 2 = 0) (stored : UInt16) :
    wordSum (front ++ (word16Bytes stored ++ back)) =
      wordSum (front ++ (word16Bytes 0 ++ back)) + stored.toNat := by
  have hzero : (0 : UInt16).toNat = 0 := rfl
  rw [wordSum_append h, wordSum_append h, wordSum_append (by rw [length_word16Bytes]),
    wordSum_append (by rw [length_word16Bytes]), wordSum_word16Bytes, wordSum_word16Bytes]
  omega

/-- **The checksum of an IPv4 header verifies.** -/
theorem checksum_ipv4Header (size : UInt16) :
    checksum 0 (e.ipv4Header size (e.ipv4Sum size)) = 0 := by
  apply checksum_of_verifies
  rw [ipv4Header_eq, wordSum_stored (by rw [length_ipv4Front]), ← Nat.add_assoc]
  exact verifies_checksum 0 (e.ipv4Header size 0)

/-- **The checksum of a datagram verifies,** also where all ones stand for zero. -/
theorem checksum_datagram (size : UInt16) (payload : Bytes) :
    checksum 0 (e.pseudoHeader size ++ (e.udpHeader size (e.udpSum size payload) ++ payload)) =
      0 := by
  apply checksum_of_verifies
  rw [Nat.zero_add, wordSum_append (by rw [length_pseudoHeader]), udpHeader_eq, List.append_assoc,
    wordSum_stored (by rw [length_udpFront]), ← List.append_assoc (e.udpFront size),
    ← udpHeader_eq, ← Nat.add_assoc]
  exact (verifies_checksum _ _).of_zero

/-- A stored checksum is not zero. -/
theorem udpSum_ne_zero (size : UInt16) (payload : Bytes) : e.udpSum size payload ≠ 0 := by
  unfold udpSum
  dsimp only
  split
  · decide
  · next h => exact h

/-! ### Written envelopes -/

/-- The IPv4 part of a written frame is its IPv4 header. -/
theorem ipv4Part_header (payload tail : Bytes) :
    ipv4Part (e.header payload ++ tail) =
      e.ipv4Header (.ofNat (ipv4HeaderLength + udpHeaderLength + payload.length))
        (e.ipv4Sum (.ofNat (ipv4HeaderLength + udpHeaderLength + payload.length))) := rfl

/-- The datagram in a written frame is its UDP header and as many bytes as were declared. -/
theorem datagramPart_header (payload tail : Bytes) :
    datagramPart (e.header payload ++ tail) payload.length =
      e.udpHeader (.ofNat (udpHeaderLength + payload.length))
        (e.udpSum (.ofNat (udpHeaderLength + payload.length)) payload) ++
        tail.take payload.length := by
  have hfront : (e.ethernetHeader ++ e.ipv4Header
      (.ofNat (ipv4HeaderLength + udpHeaderLength + payload.length))
      (e.ipv4Sum (.ofNat (ipv4HeaderLength + udpHeaderLength + payload.length)))).length =
      ethernetHeaderLength + ipv4HeaderLength := rfl
  unfold datagramPart header
  dsimp only
  rw [List.append_assoc, List.drop_left' hfront]
  have hudp := e.length_udpHeader (.ofNat (udpHeaderLength + payload.length))
    (e.udpSum (.ofNat (udpHeaderLength + payload.length)) payload)
  generalize e.udpHeader _ _ = front at hudp ⊢
  rw [← hudp, List.take_length_add_append]

/-- The sum of a datagram with its pseudo header stays in its 32 bits. -/
theorem internetChecksum_datagram {size stored : UInt16} {payload : Bytes}
    (h : payload.length < UInt16.size) :
    internetChecksum 0 (e.pseudoHeader size ++ (e.udpHeader size stored ++ payload)) =
      .ok (checksum 0 (e.pseudoHeader size ++ (e.udpHeader size stored ++ payload))) := by
  have hsum := wordSum_le (e.pseudoHeader size ++ (e.udpHeader size stored ++ payload))
  have hudp : udpHeaderLength = 8 := rfl
  have hword : UInt16.size = 0x1_0000 := rfl
  have hdouble : UInt32.size = 0x1_0000_0000 := rfl
  have hzero : (0 : UInt32).toNat = 0 := rfl
  rw [List.length_append, List.length_append, length_pseudoHeader, length_udpHeader] at hsum
  exact internetChecksum_eq (by omega)

/-- **Written checksums verify.** Writing an envelope ends without a fault unless no address space
has the length asked for, and succeeds with room in the buffer for a payload of up to 65507 bytes.
In the frame that it leaves in the buffer,

* the checksum of the IPv4 header is zero;
* the checksum of the pseudo header and the whole datagram is zero;
* the stored checksum of the datagram is the computed one, or all ones if that is zero, and so is
  never zero itself.

None of these sums leaves its 32 bits. -/
theorem written_checksums_verify (buf : Bytes) (n : Nat) :
    (length + n < UInt64.size → ∃ outcome, (e.write buf n).run = .ok outcome) ∧
      (length + n ≤ buf.length → n ≤ 65507 →
        ∃ frame, (e.write buf n).run = .ok (.ok (length + n, frame))) ∧
      ∀ total frame, (e.write buf n).run = .ok (.ok (total, frame)) →
        let size := UInt16.ofNat (udpHeaderLength + n)
        internetChecksum 0 (ipv4Part frame) = .ok 0 ∧
          internetChecksum 0 (e.pseudoHeader size ++ datagramPart frame n) = .ok 0 ∧
          (∃ computed, internetChecksum 0 (e.pseudoHeader size ++
              (e.udpHeader size 0 ++ (buf.drop length).take n)) = .ok computed ∧
            word16 frame 40 = if computed = 0 then 0xffff else computed) ∧
          word16 frame 40 ≠ 0 := by
  have hcases := e.write_cases buf n
  refine ⟨fun hfit => ?_, fun hroom hsize => ?_, fun total frame hwrite => ?_⟩
  · obtain ⟨hover, -⟩ | ⟨-, -, hrun⟩ | ⟨-, -, -, hrun⟩ | ⟨-, -, hrun⟩ := hcases
    · exact absurd hfit (Nat.not_lt.2 hover)
    · exact ⟨_, hrun⟩
    · exact ⟨_, hrun⟩
    · exact ⟨_, hrun⟩
  · have hword : length + 65507 < Nat.pow 2 64 := by decide
    obtain ⟨hover, -⟩ | ⟨-, hshort, -⟩ | ⟨-, -, hlarge, -⟩ | ⟨-, -, hrun⟩ := hcases
    · omega
    · omega
    · omega
    · exact ⟨_, hrun⟩
  · intro size
    obtain ⟨-, hrun⟩ | ⟨-, -, hrun⟩ | ⟨-, -, -, hrun⟩ | ⟨hroom, hsize, hrun⟩ := hcases
    all_goals
      rw [hrun] at hwrite
      cases hwrite
    obtain ⟨payload, hpayload⟩ : ∃ payload, (buf.drop length).take n = payload := ⟨_, rfl⟩
    obtain rfl : payload.length = n := by
      rw [← hpayload, List.length_take, List.length_drop]
      omega
    have hshort : payload.length < UInt16.size := Nat.lt_of_le_of_lt hsize (by decide)
    have hstored : word16 (e.header payload ++ buf.drop length) 40 = e.udpSum size payload :=
      joinBytes_word16Bytes _
    rw [hpayload, hstored]
    refine ⟨?_, ?_, ⟨_, e.internetChecksum_datagram hshort, ?_⟩, e.udpSum_ne_zero _ _⟩
    · rw [ipv4Part_header, e.internetChecksum_ipv4Header, checksum_ipv4Header]
    · rw [datagramPart_header, hpayload, e.internetChecksum_datagram hshort, checksum_datagram]
    · rw [← checksum_continues (by rw [length_pseudoHeader])]
      rfl

/-- Three bytes of payload that make the computed checksum zero. -/
theorem zero_checksum_stored_as_ones :
    let e : Envelope := ⟨⟨0, 0, 0, 0, 0, 1⟩, ⟨0, 0, 0, 0, 0, 2⟩, ⟨10, 0, 0, 1⟩, ⟨10, 0, 0, 2⟩, 1234,
      5678, 7⟩
    let payload : Bytes := [0x7b, 0xd5, 0x55]
    ∃ frame, (e.write (List.replicate 42 0xaa ++ payload ++ [0xaa]) 3).run =
        .ok (.ok (45, frame)) ∧
      internetChecksum 0 (e.pseudoHeader 11 ++ (e.udpHeader 11 0 ++ payload)) = .ok 0 ∧
      word16 frame 40 = 0xffff ∧
      internetChecksum 0 (e.pseudoHeader 11 ++ datagramPart frame 3) = .ok 0 := by
  intro e payload
  obtain ⟨-, hsucceeds, hverifies⟩ :=
    e.written_checksums_verify (List.replicate 42 0xaa ++ payload ++ [0xaa]) 3
  obtain ⟨frame, hwrite⟩ := hsucceeds (by decide) (by decide)
  obtain ⟨-, hdatagram, ⟨computed, hcomputed, hstored⟩, -⟩ := hverifies _ frame hwrite
  have hzero : internetChecksum 0 (e.pseudoHeader 11 ++ (e.udpHeader 11 0 ++ payload)) = .ok 0 := by
    rw [e.internetChecksum_datagram (by decide), checksum_of_verifies ⟨by decide, by decide⟩]
  obtain rfl : computed = 0 := Except.ok.inj (hcomputed.symm.trans hzero)
  exact ⟨frame, hwrite, hzero, hstored, hdatagram⟩

end Envelope

end PathControl.Wire
