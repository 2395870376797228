import PathControl.Proofs.Wire.Field
import PathControl.Wire.Envelope

/-!
# Checksums as functions of the data

`wordSum` is the sum of the 16-bit words of some bytes as a natural number, and `checksum` what the
Internet checksum makes of it. The sum that is held in 32 bits is the same one as long as the data
are short, and the data of an envelope are.

* `sumWords_eq`, `internetChecksum_eq`: without an overflow, the checked sums are the plain ones.
* `wordSum_le`: how large a sum can get. `wordSum_append`: sums of parts add up.
* `foldCarries_eq`: what is left of a sum when its carries are folded back.
* `Envelope.write_eq`: writing an envelope ends without a fault and puts `Envelope.header` in front
  of the payload, whatever the buffer held there. `Envelope.write_cases`: all that can happen.
-/

namespace PathControl.Wire

/-! ### Sums of words -/

/-- The sum of the 16-bit words of `bs`, a last odd byte counting as the high half of a word. -/
def wordSum : Bytes → Nat
  | [] => 0
  | [last] => last.toNat * 256
  | high :: low :: rest => high.toNat * 256 + low.toNat + wordSum rest

/-- The Internet checksum of `bs`, continuing from a partial sum. -/
def checksum (start : Nat) (bs : Bytes) : UInt16 :=
  UInt16.ofNat (0xFFFF - foldCarries (start + wordSum bs))

/-- The words of some bytes sum up to no more than all ones for each. -/
theorem wordSum_le (bs : Bytes) : wordSum bs ≤ 0xFFFF * ((bs.length + 1) / 2) := by
  fun_induction wordSum bs with
  | case1 => exact Nat.zero_le _
  | case2 last =>
    have := last.toNat_lt
    simp only [List.length_singleton]
    omega
  | case3 high low rest ih =>
    have := high.toNat_lt
    have := low.toNat_lt
    simp only [List.length_cons]
    omega

/-- A sum that stays inside its word is the plain sum. -/
theorem sumWords_eq {sum : Nat} {bs : Bytes} (h : sum + wordSum bs < UInt32.size) :
    sumWords sum bs = .ok (sum + wordSum bs) := by
  fun_induction sumWords sum bs with
  | case1 sum => rfl
  | case2 sum last =>
    rw [wordSum] at h ⊢
    exact Checked.fit_eq_ok h
  | case3 sum high low rest sum' hfit ih =>
    obtain ⟨-, rfl⟩ := Checked.fit_eq_ok_iff.1 hfit
    rw [wordSum] at h ⊢
    rw [ih (by omega), Nat.add_assoc]
  | case4 sum high low rest fault hfit =>
    -- The partial sum is at most the whole one, so it has room.
    rw [wordSum] at h
    have hroom : sum + (high.toNat * 256 + low.toNat) < Nat.pow 2 32 :=
      Nat.lt_of_le_of_lt (by omega) h
    rw [Checked.fit_eq_ok hroom] at hfit
    cases hfit

/-- Words are aligned behind an even number of bytes, so that their sums add up. -/
theorem wordSum_append {bs cs : Bytes} (h : bs.length % 2 = 0) :
    wordSum (bs ++ cs) = wordSum bs + wordSum cs := by
  fun_induction wordSum bs with
  | case1 => exact (Nat.zero_add _).symm
  | case2 last => cases h
  | case3 high low rest ih =>
    have hrest : rest.length % 2 = 0 := by
      simp only [List.length_cons] at h
      omega
    show high.toNat * 256 + low.toNat + wordSum (rest ++ cs) = _
    rw [ih hrest, ← Nat.add_assoc]

/-- The two bytes of a word sum up to the word. -/
theorem wordSum_word16Bytes (w : UInt16) : wordSum (word16Bytes w) = w.toNat := by
  have hw := w.toNat_lt
  simp only [word16Bytes, wordSum, UInt8.toNat_ofNat']
  omega

/-- Folding takes 65535 away for every carry, so it keeps the residue modulo 65535. Only zero is
folded to zero; for the other multiples of 65535 that is what is left. -/
theorem foldCarries_eq (sum : Nat) :
    foldCarries sum = if sum = 0 then 0 else (sum - 1) % 0xFFFF + 1 := by
  fun_induction foldCarries sum with
  | case1 sum h => split <;> omega
  | case2 sum h ih =>
    rw [ih, if_neg (by omega), if_neg (by omega)]
    omega

/-- A checksum is what is missing from the folded sum to all ones. -/
theorem toNat_checksum (start : Nat) (bs : Bytes) :
    (checksum start bs).toNat = 0xFFFF - foldCarries (start + wordSum bs) :=
  UInt16.toNat_ofNat_of_lt' (Nat.lt_of_le_of_lt (Nat.sub_le _ _) (by decide))

/-- Behind an even number of bytes a checksum goes on from their sum. -/
theorem checksum_append {front : Bytes} (h : front.length % 2 = 0) (start : Nat) (back : Bytes) :
    checksum start (front ++ back) = checksum (start + wordSum front) back := by
  rw [checksum, checksum, wordSum_append h, Nat.add_assoc]

/-- Where the sum fits 32 bits, the checksum goes through without a fault. -/
theorem internetChecksum_eq {initial : UInt32} {bs : Bytes}
    (h : initial.toNat + wordSum bs < UInt32.size) :
    internetChecksum initial bs = .ok (checksum initial.toNat bs) := by
  rw [internetChecksum, sumWords_eq h]
  rfl

/-! ### Envelopes -/

namespace Envelope

/-- The checksum of the IPv4 header of a packet of a given size. -/
def ipv4Sum (e : Envelope) (size : UInt16) : UInt16 := checksum 0 (e.ipv4Header size 0)

/-- The checksum of a datagram. All ones stand for zero, which would mean no checksum. -/
def udpSum (e : Envelope) (size : UInt16) (payload : Bytes) : UInt16 :=
  let sum := checksum (wordSum (e.pseudoHeader size)) (e.udpHeader size 0 ++ payload)
  if sum = 0 then 0xffff else sum

/-- The headers in front of a payload, lengths and checksums filled in. -/
def header (e : Envelope) (payload : Bytes) : Bytes :=
  let packetSize := UInt16.ofNat (ipv4HeaderLength + udpHeaderLength + payload.length)
  let datagramSize := UInt16.ofNat (udpHeaderLength + payload.length)
  e.ethernetHeader ++ e.ipv4Header packetSize (e.ipv4Sum packetSize) ++
    e.udpHeader datagramSize (e.udpSum datagramSize payload)

/-- The pseudo header has twelve bytes. -/
theorem length_pseudoHeader (e : Envelope) (size : UInt16) :
    (e.pseudoHeader size).length = 12 := rfl

/-- The headers of an envelope take the same room whatever the payload is. -/
@[simp] theorem length_header (e : Envelope) (payload : Bytes) :
    (e.header payload).length = length := rfl

/-- The sum of an IPv4 header stays in its 32 bits. -/
theorem internetChecksum_ipv4Header (e : Envelope) (size stored : UInt16) :
    internetChecksum 0 (e.ipv4Header size stored) =
      .ok (checksum 0 (e.ipv4Header size stored)) := by
  have hsum := wordSum_le (e.ipv4Header size stored)
  rw [length_ipv4Header] at hsum
  have hzero : (0 : UInt32).toNat = 0 := rfl
  have hroom : 0xFFFF * ((ipv4HeaderLength + 1) / 2) < UInt32.size := by decide
  exact internetChecksum_eq (by omega)

/-- The checksum of an IPv4 header goes through, since the header is short. -/
theorem ipv4Checksum_eq (e : Envelope) (size : UInt16) :
    e.ipv4Checksum size = .ok (e.ipv4Sum size) := e.internetChecksum_ipv4Header size 0

/-- No payload that an IPv4 packet can carry makes the sum of a datagram overflow. -/
theorem udpChecksum_eq (e : Envelope) {size : UInt16} {payload : Bytes}
    (h : payload.length < UInt16.size) :
    e.udpChecksum size payload = .ok (e.udpSum size payload) := by
  have hpseudo := wordSum_le (e.pseudoHeader size)
  have hdatagram := wordSum_le (e.udpHeader size 0 ++ payload)
  rw [length_pseudoHeader] at hpseudo
  rw [List.length_append, length_udpHeader] at hdatagram
  have hudp : udpHeaderLength = 8 := rfl
  have hword : UInt16.size = 0x1_0000 := rfl
  have hdouble : UInt32.size = 0x1_0000_0000 := rfl
  have hstart : (UInt32.ofNat (wordSum (e.pseudoHeader size))).toNat =
      wordSum (e.pseudoHeader size) :=
    UInt32.toNat_ofNat_of_lt' (by omega)
  rw [udpChecksum, sumWords_eq (by omega), Checked.ok_bind, Nat.zero_add,
    internetChecksum_eq (by omega), hstart]
  rfl

/-- The datagram is what the IPv4 header leaves of a packet. -/
theorem datagramSize_eq {n : Nat} (h : ipv4HeaderLength + udpHeaderLength + n < UInt16.size) :
    Checked.sub16 (.ofNat (ipv4HeaderLength + udpHeaderLength + n)) (.ofNat ipv4HeaderLength) =
      .ok (.ofNat (udpHeaderLength + n)) := by
  have hip : ipv4HeaderLength = 20 := rfl
  have hword : UInt16.size = 0x1_0000 := rfl
  have hle : UInt16.ofNat ipv4HeaderLength ≤
      UInt16.ofNat (ipv4HeaderLength + udpHeaderLength + n) :=
    (UInt16.ofNat_le_iff_le (by omega) (by omega)).2 (by omega)
  rw [Checked.sub16, if_pos hle, ← UInt16.ofNat_sub (by omega)]
  congr 2
  omega

/-- **An envelope does not depend on what it overwrites.** In front of a payload that lies in a
buffer, `write` puts the headers of that payload; the rest of the buffer stays. -/
theorem write_eq (e : Envelope) {old payload rest : Bytes} (hold : old.length = length)
    (hsize : ipv4HeaderLength + udpHeaderLength + payload.length < UInt16.size) :
    (e.write (old ++ payload ++ rest) payload.length).run =
      .ok (.ok (length + payload.length, e.header payload ++ payload ++ rest)) := by
  have hlength : length = 42 := rfl
  have hip : ipv4HeaderLength = 20 := rfl
  have hudp : udpHeaderLength = 8 := rfl
  have hword : UInt16.size = 0x1_0000 := rfl
  have hwide : 0x1_0000_0000 ≤ Nat.pow 2 64 := by decide
  have hbuf : (old ++ payload ++ rest).length = 42 + payload.length + rest.length := by
    rw [List.length_append, List.length_append, hold, hlength]
  have hdrop : (old ++ payload ++ rest).drop length = payload ++ rest := by
    rw [List.append_assoc, ← hold, List.drop_left]
  have hslice : slice (old ++ payload ++ rest) length payload.length = .ok payload := by
    rw [slice_eq_ok (by omega), hdrop, List.take_left]
  unfold write
  rw [Checked.fit_eq_ok (by omega), Checked.lift_ok_bind, if_neg (by omega)]
  dsimp only
  rw [if_neg (by omega), datagramSize_eq hsize, hslice]
  simp only [Checked.lift_ok_bind]
  rw [e.ipv4Checksum_eq, e.udpChecksum_eq (by omega), hdrop]
  rfl

/-- All that writing an envelope can come to. The room in the buffer is examined first, then the
length of the payload; a length that no address space has is the only fault. -/
theorem write_cases (e : Envelope) (buf : Bytes) (n : Nat) :
    Nat.pow 2 64 ≤ length + n ∧ (e.write buf n).run = .error .overflow ∨
      length + n < Nat.pow 2 64 ∧ buf.length < length + n ∧
        (e.write buf n).run =
          .ok (.error (.malformedPacket (.shortBuffer (length + n) buf.length))) ∨
      length + n < Nat.pow 2 64 ∧ length + n ≤ buf.length ∧ 65507 < n ∧
        (e.write buf n).run = .ok (.error (.malformedPacket .oversizedPayload)) ∨
      length + n ≤ buf.length ∧ n ≤ 65507 ∧
        (e.write buf n).run =
          .ok (.ok (length + n, e.header ((buf.drop length).take n) ++ buf.drop length)) := by
  have hip : ipv4HeaderLength = 20 := rfl
  have hudp : udpHeaderLength = 8 := rfl
  have hword : UInt16.size = 0x1_0000 := rfl
  by_cases hover : Nat.pow 2 64 ≤ length + n
  · refine .inl ⟨hover, ?_⟩
    unfold write Checked.fit
    rw [if_neg (Nat.not_lt.2 hover)]
    rfl
  have hfit := Nat.not_le.1 hover
  by_cases hroom : buf.length < length + n
  · refine .inr (.inl ⟨hfit, hroom, ?_⟩)
    unfold write
    rw [Checked.fit_eq_ok hfit, Checked.lift_ok_bind, if_pos hroom]
    rfl
  have hroom := Nat.not_lt.1 hroom
  by_cases hsize : 65507 < n
  · refine .inr (.inr (.inl ⟨hfit, hroom, hsize, ?_⟩))
    unfold write
    rw [Checked.fit_eq_ok hfit, Checked.lift_ok_bind, if_neg (Nat.not_lt.2 hroom)]
    dsimp only
    rw [if_pos (by omega)]
    rfl
  have hsize := Nat.not_lt.1 hsize
  refine .inr (.inr (.inr ⟨hroom, hsize, ?_⟩))
  obtain ⟨old, payload, behind, rfl, hold, rfl⟩ := exists_parts hroom
  rw [List.drop_left' hold, List.take_left, ← List.append_assoc, ← List.append_assoc]
  exact e.write_eq hold (by omega)

end Envelope

end PathControl.Wire
