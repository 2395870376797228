import PathControl.Proofs.Wire.RoundTrip
import PathControl.Proofs.Wire.Verification

/-!
# Writing in place

`Envelope.write` answers with the bytes of the buffer afterwards. A buffer that is written in place
goes through partial states: headers without checksums first, then sums over what is already there,
then the checksums. `Envelope.fill` does it in that order, one field after another.

* `overwriteAll_run`: fields that are written one after another replace what lies there.
* `Envelope.fill_eq`: both ways come to the same, and an error comes before the first byte.
* `Envelope.read_back`: a written envelope is found again by its own lengths, whatever follows.
* `Envelope.fill_touches_envelope_only`: when writing fails, what it leaves alone, and how it is
  undone.
-/

namespace PathControl.Wire

/-- A computation on a buffer. What is written before an error stays written. -/
abbrev InPlace (α : Type) : Type := ExceptT ProtocolError (StateT Bytes Checked) α

/-- Puts bytes over those from a position on. -/
def overwrite (i : Nat) (bs : Bytes) : StateT Bytes Checked Unit := fun buf =>
  if i + bs.length ≤ buf.length then .ok ((), buf.take i ++ (bs ++ buf.drop (i + bs.length)))
  else .error .outOfRange

/-- Puts fields over the bytes from a position on, each behind the one before. -/
def overwriteAll (i : Nat) : List Bytes → StateT Bytes Checked Unit
  | [] => return
  | field :: fields => do
    overwrite i field
    overwriteAll (i + field.length) fields

variable {i n : Nat} {front old bs back : Bytes} {fields : List Bytes}

/-- Bytes written over as many others leave what stands in front of them and behind. -/
theorem overwrite_run (hfront : front.length = i) (hold : old.length = bs.length) :
    (overwrite i bs).run (front ++ (old ++ back)) = .ok ((), front ++ (bs ++ back)) := by
  have hroom : i + bs.length ≤ (front ++ (old ++ back)).length := by
    rw [List.length_append, List.length_append]
    omega
  refine (if_pos hroom).trans ?_
  rw [List.take_left' hfront, ← List.drop_drop, List.drop_left' hfront, List.drop_left' hold]

/-- The same for a word of 16 bits. -/
theorem overwrite_word16_run {old stored : UInt16} (hfront : front.length = i) :
    (overwrite i (word16Bytes stored)).run (front ++ (word16Bytes old ++ back)) =
      .ok ((), front ++ (word16Bytes stored ++ back)) := overwrite_run hfront rfl

/-- Fields that are written one after another replace what lies there. -/
theorem overwriteAll_run (hfront : front.length = i) (hold : old.length = fields.flatten.length) :
    (overwriteAll i fields).run (front ++ (old ++ back)) =
      .ok ((), front ++ (fields.flatten ++ back)) := by
  induction fields generalizing i front old with
  | nil =>
    rw [List.eq_nil_of_length_eq_zero hold]
    rfl
  | cons field fields ih =>
    rw [List.flatten_cons, List.length_append] at hold
    -- The first field replaces the front part of the old bytes and lies before the other ones.
    obtain ⟨first, others, rfl, hfirst, hothers⟩ : ∃ first others, old = first ++ others ∧
        first.length = field.length ∧ others.length = fields.flatten.length := by
      refine ⟨_, _, (List.take_append_drop field.length old).symm, ?_, ?_⟩
      · rw [List.length_take]
        omega
      · rw [List.length_drop]
        omega
    have hbefore : (front ++ field).length = i + field.length := by
      rw [List.length_append, hfront]
    rw [overwriteAll, StateT.run_bind, List.append_assoc, overwrite_run hfront hfirst,
      Checked.ok_bind, ← List.append_assoc front, ih hbefore hothers,
      List.flatten_cons, List.append_assoc, List.append_assoc]

/-- A part of the buffer is read as it lies there. -/
theorem slice_run_bind {α : Type} {f : Bytes → StateT Bytes Checked α} (hfront : front.length = i)
    (hbs : bs.length = n) :
    StateT.run (get >>= fun buf => (liftM (slice buf i n) : StateT Bytes Checked Bytes) >>= f)
        (front ++ (bs ++ back)) =
      (f bs).run (front ++ (bs ++ back)) := by
  have hslice : slice (front ++ (bs ++ back)) i n = .ok bs := by
    rw [slice_eq_ok, List.drop_left' hfront, List.take_left' hbs]
    rw [List.length_append, List.length_append]
    omega
  show StateT.run (liftM (slice (front ++ (bs ++ back)) i n) >>= f) _ = _
  rw [hslice]
  rfl

/-- A faultless sum among steps on a buffer. -/
theorem lift_ok_run_bind {α β : Type} {a : α} {f : α → StateT Bytes Checked β} {buf : Bytes} :
    ((liftM (.ok a : Checked α) : StateT Bytes Checked α) >>= f).run buf = (f a).run buf := rfl

namespace InPlace

/-- Reading the buffer hands it on and leaves it alone. -/
theorem get_bind {β : Type} {f : Bytes → InPlace β} {buf : Bytes} :
    ((get : InPlace Bytes) >>= f).run.run buf = (f buf).run.run buf := rfl

/-- A computation that does not fault hands its result on and leaves the buffer alone. -/
theorem lift_ok_bind {α β : Type} {a : α} {f : α → InPlace β} {buf : Bytes} :
    ((liftM (.ok a : Checked α) : InPlace α) >>= f).run.run buf = (f a).run.run buf := rfl

/-- A faultless step on the buffer that cannot fail. -/
theorem lift_run {α : Type} {x : StateT Bytes Checked α} {a : α} {buf buf' : Bytes}
    (h : x.run buf = .ok (a, buf')) :
    (ExceptT.run (liftM x : InPlace α)).run buf = .ok (.ok a, buf') := by
  show (Except.ok <$> x).run buf = _
  rw [StateT.run_map, h]
  rfl

/-- A faultless step on the buffer among steps that may also fail. -/
theorem lift_run_bind {α β : Type} {x : StateT Bytes Checked α} {f : α → InPlace β} {a : α}
    {buf buf' : Bytes} (h : x.run buf = .ok (a, buf')) :
    ((liftM x : InPlace α) >>= f).run.run buf = (f a).run.run buf' := by
  rw [ExceptT.run_bind, StateT.run_bind, lift_run h]
  rfl

end InPlace

namespace Envelope

variable (e : Envelope)

/-- Writes the Ethernet header. -/
def fillEthernet : StateT Bytes Checked Unit :=
  overwriteAll 0 [e.targetMac.octets, e.sourceMac.octets, word16Bytes ipv4EtherType]

/-- Writes the IPv4 header of a packet of `size` bytes, and then its checksum, which is computed
from the header in the buffer. -/
def fillIpv4 (size : UInt16) : StateT Bytes Checked Unit := do
  overwriteAll 14 [[0x45], [0], word16Bytes size, word16Bytes e.identification, word16Bytes 0,
    [hopLimit], [udpProtocol], [0], [0], e.sourceIp.octets, e.targetIp.octets]
  let header ← slice (← get) 14 ipv4HeaderLength
  overwrite 24 (word16Bytes (← internetChecksum 0 header))

/-- Writes the UDP header of a datagram of `size` bytes with `n` bytes of payload, and then its
checksum, which is computed from the datagram in the buffer. -/
def fillUdp (size : UInt16) (n : Nat) : StateT Bytes Checked Unit := do
  overwriteAll 34 [word16Bytes e.sourcePort, word16Bytes e.targetPort, word16Bytes size, [0], [0]]
  let datagram ← slice (← get) 34 (udpHeaderLength + n)
  let partialSum ← sumWords 0 (e.pseudoHeader size)
  let checksum ← internetChecksum (.ofNat partialSum) datagram
  overwrite 40 (word16Bytes (if checksum = 0 then 0xffff else checksum))

/-- Writes the envelope over the front of a buffer. -/
def fill (payloadLength : Nat) : InPlace Nat := do
  let total ← Checked.fit 64 (length + payloadLength)
  let buf ← get
  if buf.length < total then
    throw (.malformedPacket (.shortBuffer total buf.length))
  let packetSize := ipv4HeaderLength + udpHeaderLength + payloadLength
  if UInt16.size ≤ packetSize then
    throw (.malformedPacket .oversizedPayload)
  let packetSize := UInt16.ofNat packetSize
  let datagramSize ← Checked.sub16 packetSize (UInt16.ofNat ipv4HeaderLength)
  e.fillEthernet
  e.fillIpv4 packetSize
  e.fillUdp datagramSize payloadLength
  return total

variable {e} {size : UInt16} {payload : Bytes}

/-- Filling in the Ethernet header writes it, and nothing behind it. -/
theorem fillEthernet_run (hold : old.length = ethernetHeaderLength) :
    e.fillEthernet.run (old ++ back) = .ok ((), e.ethernetHeader ++ back) := by
  show e.fillEthernet.run ([] ++ (old ++ back)) = .ok ((), [] ++ (e.ethernetHeader ++ back))
  exact overwriteAll_run rfl hold

/-- Filling in the IPv4 header writes it with its checksum, and nothing around it. -/
theorem fillIpv4_run (hfront : front.length = 14) (hold : old.length = ipv4HeaderLength) :
    (e.fillIpv4 size).run (front ++ (old ++ back)) =
      .ok ((), front ++ (e.ipv4Header size (e.ipv4Sum size) ++ back)) := by
  have hfields : [[0x45], [0], word16Bytes size, word16Bytes e.identification, word16Bytes 0,
      [hopLimit], [udpProtocol], [0], [0], e.sourceIp.octets, e.targetIp.octets].flatten =
        e.ipv4Header size 0 := rfl
  have hbefore : (front ++ e.ipv4Front size).length = 24 := by
    rw [List.length_append, hfront, length_ipv4Front]
  unfold fillIpv4
  rw [StateT.run_bind, overwriteAll_run hfront (by rw [hold, hfields, length_ipv4Header]),
    Checked.ok_bind, hfields, slice_run_bind hfront (e.length_ipv4Header size 0),
    internetChecksum_ipv4Header, lift_ok_run_bind, ← ipv4Sum]
  -- The checksum is the word between the front of the header and the addresses.
  rw [ipv4Header_eq, List.append_assoc (e.ipv4Front size), ← List.append_assoc front,
    List.append_assoc (word16Bytes 0), overwrite_word16_run hbefore, ipv4Header_eq]
  simp only [List.append_assoc]

/-- Filling in the UDP header writes it with its checksum, and leaves the payload alone. -/
theorem fillUdp_run {payload : Bytes} (hfront : front.length = 34)
    (hold : old.length = udpHeaderLength) (hpayload : payload.length < UInt16.size) :
    (e.fillUdp size payload.length).run (front ++ (old ++ (payload ++ back))) =
      .ok ((), front ++ (e.udpHeader size (e.udpSum size payload) ++ (payload ++ back))) := by
  have hfields : [word16Bytes e.sourcePort, word16Bytes e.targetPort, word16Bytes size, [0],
      [0]].flatten = e.udpHeader size 0 := rfl
  have hbefore : (front ++ e.udpFront size).length = 40 := by
    rw [List.length_append, hfront, length_udpFront]
  have hdatagram : (e.udpHeader size 0 ++ payload).length = udpHeaderLength + payload.length := by
    rw [List.length_append, length_udpHeader]
  have hsum : e.udpChecksum size payload = .ok (e.udpSum size payload) := e.udpChecksum_eq hpayload
  obtain ⟨partialSum, hpartial, hrest⟩ := Checked.bind_eq_ok_iff.1 hsum
  obtain ⟨checksum, hchecksum, hstored⟩ := Checked.bind_eq_ok_iff.1 hrest
  unfold fillUdp
  rw [StateT.run_bind, overwriteAll_run hfront (by rw [hold, hfields, length_udpHeader]),
    Checked.ok_bind, hfields, ← List.append_assoc (e.udpHeader size 0),
    slice_run_bind hfront hdatagram, hpartial, lift_ok_run_bind, hchecksum, lift_ok_run_bind,
    Except.ok.inj hstored]
  rw [udpHeader_eq, List.append_assoc, List.append_assoc, ← List.append_assoc front,
    overwrite_word16_run hbefore, udpHeader_eq]
  simp only [List.append_assoc]

variable (e)

/-- With room for it, the headers of the payload are put in front of it. -/
theorem fill_run (hfront : front.length = length) (hsize : payload.length ≤ 65507) :
    (e.fill payload.length).run.run (front ++ (payload ++ back)) =
      .ok (.ok (length + payload.length), e.header payload ++ (payload ++ back)) := by
  have hlength : length = 42 := rfl
  have hip : ipv4HeaderLength = 20 := rfl
  have hudp : udpHeaderLength = 8 := rfl
  have hword : UInt16.size = 0x1_0000 := rfl
  have hwide : 0x1_0000_0000 ≤ Nat.pow 2 64 := by decide
  have hroom : ¬ (front ++ (payload ++ back)).length < length + payload.length := by
    rw [List.length_append, List.length_append]
    omega
  -- The parts of the buffer that the three headers overwrite.
  obtain ⟨ethernet, ipv4, udp, rfl, hethernet, hipv4⟩ := exists_parts
    (show ethernetHeaderLength + ipv4HeaderLength ≤ front.length by rw [hfront]; decide)
  have hudpPart : udp.length = udpHeaderLength := by
    have hethernetLength : ethernetHeaderLength = 14 := rfl
    rw [List.length_append, List.length_append] at hfront
    omega
  unfold fill
  rw [Checked.fit_eq_ok (by omega), InPlace.lift_ok_bind, InPlace.get_bind, if_neg hroom]
  dsimp only
  rw [if_neg (by omega), datagramSize_eq (by omega), InPlace.lift_ok_bind, List.append_assoc,
    List.append_assoc, InPlace.lift_run_bind (fillEthernet_run hethernet),
    InPlace.lift_run_bind (fillIpv4_run e.length_ethernetHeader hipv4),
    ← List.append_assoc e.ethernetHeader,
    InPlace.lift_run_bind (fillUdp_run rfl hudpPart (by omega)), header, ← List.append_assoc]
  rfl

/-- Writing in place is writing. -/
theorem fill_eq (buf : Bytes) (n : Nat) :
    (e.fill n).run.run buf = (e.write buf n).run.map fun
      | .error cause => (.error cause, buf)
      | .ok (total, frame) => (.ok total, frame) := by
  have hip : ipv4HeaderLength = 20 := rfl
  have hudp : udpHeaderLength = 8 := rfl
  have hword : UInt16.size = 0x1_0000 := rfl
  obtain ⟨hover, hwrite⟩ | ⟨hfit, hshort, hwrite⟩ | ⟨hfit, hroom, hlarge, hwrite⟩ |
    ⟨hroom, hsize, hwrite⟩ := e.write_cases buf n
  all_goals rw [hwrite]
  · unfold fill Checked.fit
    rw [if_neg (Nat.not_lt.2 hover)]
    rfl
  · unfold fill
    rw [Checked.fit_eq_ok hfit, InPlace.lift_ok_bind, InPlace.get_bind, if_pos hshort]
    rfl
  · unfold fill
    rw [Checked.fit_eq_ok hfit, InPlace.lift_ok_bind, InPlace.get_bind, if_neg (Nat.not_lt.2 hroom)]
    dsimp only
    rw [if_pos (by omega)]
    rfl
  · obtain ⟨front, payload, back, rfl, hfront, rfl⟩ := exists_parts hroom
    rw [e.fill_run hfront hsize, List.drop_left' hfront, List.take_left]
    rfl

variable {e}

/-- A datagram that declares `n` bytes has the first `n` bytes behind its header as its payload. -/
theorem payload_of_declared {sourcePort targetPort : UInt16} {tail : Bytes} (hsize : n ≤ 65507)
    (htail : n ≤ tail.length) :
    Datagram.payload ⟨sourcePort, targetPort, .ofNat (udpHeaderLength + n), tail⟩ =
      .ok (tail.take n) := by
  have hudp : udpHeaderLength = 8 := rfl
  have hdeclared : (UInt16.ofNat (udpHeaderLength + n)).toNat = 8 + n :=
    UInt16.toNat_ofNat_of_lt' (Nat.lt_of_le_of_lt (Nat.add_le_add_left hsize 8) (by decide))
  unfold Datagram.payload
  simp only [hdeclared]
  rw [if_neg (by omega), hudp, Nat.add_sub_cancel_left]

/-- A prefix of a written buffer that holds the whole frame is read like the frame. -/
theorem read_back {f behind : Bytes} (hsize : payload.length ≤ 65507)
    (hstart : f <+: e.header payload ++ behind) (hbehind : behind.take payload.length = payload)
    (hlength : length + payload.length ≤ f.length) :
    ∃ d, Datagram.locate f = .ok (some d) ∧ d.sourcePort = e.sourcePort ∧
      d.targetPort = e.targetPort ∧ d.payload = .ok payload := by
  -- The prefix goes on behind the headers, with a prefix of what lies there.
  obtain ⟨tail, rfl⟩ : e.header payload <+: f :=
    List.prefix_of_prefix_length_le (List.prefix_append _ _) hstart
      (Nat.le_trans (Nat.le_add_right _ _) hlength)
  obtain ⟨rest, rfl⟩ := (List.prefix_append_right_inj _).1 hstart
  rw [List.length_append, length_header, Nat.add_le_add_iff_left] at hlength
  rw [List.take_append_of_le_length hlength] at hbehind
  refine ⟨datagramIn (e.header payload ++ tail), ?_, ?_⟩
  · rw [locate_eq, if_pos (e.carriesUdp_header payload tail)]
  · rw [datagramIn_header, payload_of_declared hsize hlength, hbehind]
    exact ⟨rfl, rfl, rfl⟩

/-- **Writing touches the envelope only, and reading undoes it.** For a length that an address space
has, writing fails exactly if the buffer is too short or the payload longer than 65507 bytes, in
this order, and then no byte of the buffer has changed. Else the answer is the length of the frame.
The buffer keeps its length and all its bytes behind the envelope. In every prefix of the buffer
that holds the whole frame a datagram with the ports of the envelope is found, and its payload is
the `n` bytes behind the envelope. -/
theorem fill_touches_envelope_only (e : Envelope) (buf : Bytes)
    (hfit : length + n < UInt64.size) :
    ((∃ cause, (e.write buf n).run = .ok (.error cause)) ↔
        buf.length < length + n ∨ 65507 < n) ∧
      (∀ cause, (e.write buf n).run = .ok (.error cause) →
        (e.fill n).run.run buf = .ok (.error cause, buf) ∧
          cause = .malformedPacket (if buf.length < length + n then
            .shortBuffer (length + n) buf.length else .oversizedPayload)) ∧
      (length + n ≤ buf.length → n ≤ 65507 →
        ∃ frame, (e.write buf n).run = .ok (.ok (length + n, frame)) ∧
          (e.fill n).run.run buf = .ok (.ok (length + n), frame) ∧
          frame.length = buf.length ∧ frame.drop length = buf.drop length ∧
          ∀ f, f <+: frame → length + n ≤ f.length →
            ∃ d, Datagram.locate f = .ok (some d) ∧ d.sourcePort = e.sourcePort ∧
              d.targetPort = e.targetPort ∧ d.payload = .ok ((buf.drop length).take n)) := by
  have hfill := e.fill_eq buf n
  obtain ⟨hover, -⟩ | ⟨-, hshort, hwrite⟩ | ⟨-, hroom, hlarge, hwrite⟩ | ⟨hroom, hsize, hwrite⟩ :=
    e.write_cases buf n
  · exact absurd hfit (Nat.not_lt.2 hover)
  · rw [hwrite] at hfill ⊢
    refine ⟨iff_of_true ⟨_, rfl⟩ (.inl hshort), fun cause hcause => ?_,
      fun hroom => absurd hshort (Nat.not_lt.2 hroom)⟩
    cases hcause
    exact ⟨hfill, by rw [if_pos hshort]⟩
  · rw [hwrite] at hfill ⊢
    refine ⟨iff_of_true ⟨_, rfl⟩ (.inr hlarge), fun cause hcause => ?_,
      fun _ hsize => absurd hlarge (Nat.not_lt.2 hsize)⟩
    cases hcause
    exact ⟨hfill, by rw [if_neg (Nat.not_lt.2 hroom)]⟩
  · rw [hwrite] at hfill ⊢
    refine ⟨iff_of_false (fun ⟨_, hcause⟩ => (nomatch hcause)) (by omega),
      fun _ hcause => (nomatch hcause), fun _ _ => ⟨_, rfl, hfill, ?_, ?_, ?_⟩⟩
    · rw [List.length_append, length_header, List.length_drop]
      omega
    · exact List.drop_left' (length_header e _)
    · intro f hstart hlength
      have hpayload : ((buf.drop length).take n).length = n := by
        rw [List.length_take, List.length_drop]
        omega
      exact read_back (by rwa [hpayload]) hstart (by rw [hpayload]) (by rwa [hpayload])

/-- Three bytes of payload are read from a buffer with two more bytes of an older frame. -/
theorem stale_tail_left_out :
    let e : Envelope := ⟨⟨0, 0, 0, 0, 0, 1⟩, ⟨0, 0, 0, 0, 0, 2⟩, ⟨10, 0, 0, 1⟩, ⟨10, 0, 0, 2⟩, 1234,
      5678, 7⟩
    let buf : Bytes := List.replicate 42 0xaa ++ [1, 2, 3, 0xaa, 0xaa]
    length + 3 < UInt64.size ∧
      ∃ frame, (e.fill 3).run.run buf = .ok (.ok 45, frame) ∧
        frame.drop 42 = [1, 2, 3, 0xaa, 0xaa] ∧
        ∃ d, Datagram.locate frame = .ok (some d) ∧ d.targetPort = 5678 ∧
          d.payload = .ok [1, 2, 3] := by
  intro e buf
  obtain ⟨-, -, hsucceeds⟩ := e.fill_touches_envelope_only buf (show length + 3 < _ by decide)
  obtain ⟨frame, -, hfill, hlength, hbehind, hread⟩ := hsucceeds (by decide) (by decide)
  obtain ⟨d, hlocate, -, htarget, hpayload⟩ :=
    hread frame (List.prefix_refl frame) (hlength ▸ by decide)
  exact ⟨by decide, frame, hfill, hbehind, d, hlocate, htarget, hpayload⟩

end Envelope

end PathControl.Wire
