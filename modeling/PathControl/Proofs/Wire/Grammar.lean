import Mathlib.Logic.Basic
import PathControl.Proofs.Wire.Field
import PathControl.Wire.ControlFrame

/-!
# The grammar of received frames

What a frame is, told from its bytes alone, and the proof that `decode` finds exactly that.

* `classify`: the frame by its fields, with the flaw that counts where there are several. A frame
  that is not control traffic is not examined further; then come the length of the datagram, the
  plane, the message, the target of a proposal, and the destination port.
* `decode_eq`: reading a frame is faultless and classifies it.
* `Bears`, `classify_congr`: the positions that can decide, and that no other one does.
* `decode_follows_grammar`: both in one.

Positions behind the IPv4 header are counted from `udpStart`, so that options shift all of them.
-/

namespace PathControl.Wire

/-! ### The grammar -/

/-- Where the UDP header of a frame starts: behind the IPv4 header, whose length the frame gives in
words of four bytes. -/
def udpStart (f : Bytes) : Nat := 14 + 4 * ((octet f 14).toNat % 16)

/-- An IPv4 packet with UDP in an Ethernet frame, up to the end of the UDP header. -/
structure CarriesUdp (f : Bytes) : Prop where
  length : 34 ≤ f.length
  etherType : word16 f 12 = 0x0800
  version : (octet f 14).toNat / 16 = 4
  protocol : octet f 23 = 17
  headerLength : 20 ≤ 4 * ((octet f 14).toNat % 16)
  reaches : udpStart f + 8 ≤ f.length

/-- A frame that comes from the control port. -/
structure IsControlTraffic (a : Addressing) (f : Bytes) : Prop extends CarriesUdp f where
  sourcePort : word16 f (udpStart f) = a.controlPort

instance (f : Bytes) : Decidable (CarriesUdp f) :=
  decidable_of_iff
    (34 ≤ f.length ∧ word16 f 12 = 0x0800 ∧ (octet f 14).toNat / 16 = 4 ∧ octet f 23 = 17 ∧
      20 ≤ 4 * ((octet f 14).toNat % 16) ∧ udpStart f + 8 ≤ f.length)
    ⟨fun ⟨h₁, h₂, h₃, h₄, h₅, h₆⟩ => ⟨h₁, h₂, h₃, h₄, h₅, h₆⟩,
      fun ⟨h₁, h₂, h₃, h₄, h₅, h₆⟩ => ⟨h₁, h₂, h₃, h₄, h₅, h₆⟩⟩

instance (a : Addressing) (f : Bytes) : Decidable (IsControlTraffic a f) :=
  decidable_of_iff (CarriesUdp f ∧ word16 f (udpStart f) = a.controlPort)
    ⟨fun ⟨h, hport⟩ => ⟨h, hport⟩, fun ⟨h, hport⟩ => ⟨h, hport⟩⟩

/-- The message of a plane and a code. -/
def kindOf? (plane code : UInt8) : Option MessageKind :=
  if (plane, code) = (0, 0) then some .probe
  else if (plane, code) = (0, 1) then some .repath
  else if (plane, code) = (0, 2) then some .repathAck
  else if (plane, code) = (1, 0) then some .timestamp
  else none

/-- The control header at a position. -/
def headerAt (f : Bytes) (p : Nat) : Except ProtocolError Header :=
  if 1 < octet f p then .error (.invalidPlane (octet f p))
  else match kindOf? (octet f p) (octet f (p + 1)) with
    | none => .error (.invalidMessageType (octet f (p + 1)))
    | some kind =>
      let target := octet f (p + 10)
      if kind = .repath ∧ ¬ (1 ≤ target.toNat ∧ target.toNat ≤ 4) then
        .error (.invalidPath target.toUInt16)
      else .ok {
        kind
        timestamp := word64 f (p + 2)
        target := if kind = .repath then PathId.ofNumber? target.toNat else none
        sequence := word64 f (p + 11)
        ack := word64 f (p + 19) }

/-- The path of a destination port: the paths have the four ports from the base port on. -/
def pathOf? (base port : UInt16) : Option PathId :=
  if h : base.toNat ≤ port.toNat ∧ port.toNat ≤ base.toNat + 3 then
    some ⟨⟨port.toNat - base.toNat, by rw [pathCount]; omega⟩⟩
  else none

/-- What a frame is, or what is wrong with it. -/
def classify (a : Addressing) (f : Bytes) : Except ProtocolError Decoded :=
  let u := udpStart f
  let declared := (word16 f (u + 4)).toNat
  let port := word16 f (u + 2)
  if ¬ IsControlTraffic a f then .ok .notControlTraffic
  else if declared < 36 ∨ f.length < u + declared then .error .malformedHeader
  else match headerAt f (u + 8) with
    | .error cause => .error cause
    | .ok header =>
      match pathOf? a.basePort port with
      | none => .error (.invalidPath port)
      | some path => .ok (.control { header, path })

/-! ### Datagrams -/

/-- The datagram of a frame that carries one. -/
def datagramIn (f : Bytes) : Datagram where
  sourcePort := word16 f (udpStart f)
  targetPort := word16 f (udpStart f + 2)
  declared := word16 f (udpStart f + 4)
  rest := f.drop (udpStart f + 8)

/-- A datagram is located exactly in the frames that carry one. -/
theorem locate_eq (f : Bytes) :
    Datagram.locate f = .ok (if CarriesUdp f then some (datagramIn f) else none) := by
  have hethernet : ethernetHeaderLength = 14 := rfl
  have hip : ipv4HeaderLength = 20 := rfl
  have hudp : udpHeaderLength = 8 := rfl
  unfold Datagram.locate
  -- one case for each place where the search ends without a datagram, in the order of the tests
  by_cases hlength : f.length < ethernetHeaderLength + ipv4HeaderLength
  · rw [if_pos hlength, if_neg fun h => absurd h.length (by omega)]
    rfl
  rw [if_neg hlength, word16At_eq (by omega), Checked.ok_bind]
  by_cases htype : word16 f 12 ≠ ipv4EtherType
  · rw [if_pos htype, if_neg fun h => htype h.etherType]
    rfl
  rw [if_neg htype, sliceFrom_eq_ok (by omega), Checked.ok_bind,
    byteAt_eq (by rw [List.length_drop]; omega), Checked.ok_bind, octet_drop]
  by_cases hversion : (octet f (ethernetHeaderLength + 0)).toNat / 16 ≠ 4
  · rw [if_pos hversion, if_neg fun h => hversion h.version]
    rfl
  rw [if_neg hversion, byteAt_eq (by rw [List.length_drop]; omega), Checked.ok_bind, octet_drop]
  by_cases hprotocol : octet f (ethernetHeaderLength + 9) ≠ udpProtocol
  · rw [if_pos hprotocol, if_neg fun h => hprotocol h.protocol]
    rfl
  rw [if_neg hprotocol]
  have hstart : ethernetHeaderLength + (octet f (ethernetHeaderLength + 0)).toNat % 16 * 4 =
      udpStart f := by
    rw [udpStart, Nat.mul_comm]
    rfl
  by_cases hreach : (octet f (ethernetHeaderLength + 0)).toNat % 16 * 4 < ipv4HeaderLength ∨
      (f.drop ethernetHeaderLength).length <
        (octet f (ethernetHeaderLength + 0)).toNat % 16 * 4 + udpHeaderLength
  · rw [if_pos hreach, if_neg]
    · rfl
    · intro h
      have hheader := h.headerLength
      have hend := h.reaches
      rw [List.length_drop] at hreach
      rw [udpStart] at *
      omega
  · rw [if_neg hreach]
    rw [List.length_drop] at hreach
    have hend : udpStart f + 8 ≤ f.length := by omega
    rw [sliceFrom_eq_ok (by rw [List.length_drop]; omega), Checked.ok_bind, List.drop_drop, hstart]
    have hrest : (f.drop (udpStart f)).length = f.length - udpStart f := List.length_drop
    rw [word16At_eq (by omega), word16At_eq (by omega), word16At_eq (by omega),
      sliceFrom_eq_ok (by omega), if_pos]
    · simp only [Checked.ok_bind, word16_drop, List.drop_drop]
      rfl
    · refine ⟨by omega, not_not.1 htype, not_not.1 hversion, not_not.1 hprotocol, ?_, hend⟩
      rw [udpStart] at hstart
      omega

/-! ### Headers -/

/-- Only the codes 0 and 1 name a plane, and the codes of messages are read within it. -/
theorem ofCode?_cases (code : UInt8) :
    1 < code ∧ Plane.ofCode? code = none ∨ ¬ 1 < code ∧ ∃ plane, Plane.ofCode? code = some plane ∧
      ∀ kind, MessageKind.ofCode? plane kind = kindOf? code kind := by
  by_cases h0 : code = 0
  · subst h0
    refine .inr ⟨by decide, .control, rfl, fun kind => ?_⟩
    simp [kindOf?, MessageKind.ofCode?]
  by_cases h1 : code = 1
  · subst h1
    refine .inr ⟨by decide, .data, rfl, fun kind => ?_⟩
    simp [kindOf?, MessageKind.ofCode?]
  · refine .inl ⟨?_, by rw [Plane.ofCode?, if_neg h0, if_neg h1]⟩
    rw [← UInt8.toNat_inj] at h0 h1
    rw [UInt8.lt_iff_toNat_lt]
    simp only [UInt8.reduceToNat] at *
    omega

/-- The control header at the front of some bytes is read without a fault. -/
theorem decodeHeader_eq {bs : Bytes} (h : Header.length ≤ bs.length) :
    (Header.decode bs).run = .ok (headerAt bs 0) := by
  have hlen : Header.length = 28 := rfl
  unfold Header.decode headerAt
  rw [if_neg (by omega), byteAt_eq (by omega), byteAt_eq (by omega), byteAt_eq (by omega),
    word64At_eq (by omega), word64At_eq (by omega), word64At_eq (by omega)]
  simp only [Checked.lift_ok_bind, Nat.zero_add]
  rcases ofCode?_cases (octet bs 0) with ⟨hplane, hnone⟩ | ⟨hplane, plane, hsome, hkind⟩
  · rw [if_pos hplane, hnone]
    rfl
  · rw [if_neg hplane, hsome]
    simp only [hkind]
    rcases kindOf? (octet bs 0) (octet bs 1) with _ | kind
    · rfl
    · cases kind with
      | repath =>
        have hcount : pathCount = 4 := rfl
        simp only [PathId.ofByte]
        rcases htarget : PathId.ofNumber? (octet bs 10).toNat with _ | target
        · have hrange := PathId.ofNumber?_eq_none_iff.1 htarget
          rw [if_pos ⟨trivial, by omega⟩]
          rfl
        · have hnumber := PathId.ofNumber?_eq_some_iff.1 htarget
          have hpos := target.number_pos
          have hle := target.number_le
          rw [if_neg fun h => h.2 (by omega)]
          rfl
      | probe | repathAck | timestamp => rfl

/-- A part of a frame has a header where the frame has it. -/
theorem headerAt_part {f : Bytes} {k m : Nat} (h : Header.length ≤ m) :
    headerAt ((f.drop k).take m) 0 = headerAt f k := by
  have hlen : Header.length = 28 := rfl
  unfold headerAt
  rw [octet_take (by omega), octet_take (by omega), octet_take (by omega),
    word64_take (by omega), word64_take (by omega), word64_take (by omega)]
  simp only [octet_drop, word64_drop, Nat.zero_add]
  rfl

/-- Bytes that are too short for a header are refused. -/
theorem decodeHeader_of_short {bs : Bytes} (h : bs.length < Header.length) :
    (Header.decode bs).run = .ok (.error .malformedHeader) := by
  unfold Header.decode
  rw [if_pos h]
  rfl

/-! ### Frames -/

/-- The payload ends where the datagram declares it, which must be inside the frame. -/
theorem payload_datagramIn {f : Bytes} (h : CarriesUdp f) :
    (datagramIn f).payload =
      let declared := (word16 f (udpStart f + 4)).toNat
      if declared < udpHeaderLength ∨ f.length < udpStart f + declared then .error .malformedHeader
      else .ok ((f.drop (udpStart f + 8)).take (declared - udpHeaderLength)) := by
  have hudp : udpHeaderLength = 8 := rfl
  have hend := h.reaches
  have hrest : (datagramIn f).rest.length = f.length - (udpStart f + 8) := List.length_drop
  have hdeclared : (datagramIn f).declared = word16 f (udpStart f + 4) := rfl
  unfold Datagram.payload
  simp only [hdeclared, hrest]
  refine if_congr ⟨?_, ?_⟩ rfl rfl <;> rintro (h | h) <;> omega

/-- The path of a port is the one that the grammar gives it, if any. -/
theorem ofPort_eq (port base : UInt16) : PathId.ofPort port base =
    match pathOf? base port with
    | none => .error (.invalidPath port)
    | some path => .ok path := by
  have hcount : pathCount = 4 := rfl
  unfold PathId.ofPort pathOf?
  by_cases hle : base ≤ port
  · have hnat := UInt16.le_iff_toNat_le.1 hle
    rw [if_pos hle]
    by_cases h : port.toNat ≤ base.toNat + 3
    · rw [dif_pos ⟨hnat, h⟩, PathId.ofNumber?, dif_pos (by omega)]
      rfl
    · rw [dif_neg fun hc => h hc.2, PathId.ofNumber?_eq_none_iff.2 (by omega)]
  · rw [if_neg hle, dif_neg fun hc => hle (UInt16.le_iff_toNat_le.2 hc.1)]

/-- The header of a datagram is read once the datagram reaches behind it and is all there. -/
theorem readHeader_eq {f : Bytes} (h : CarriesUdp f) :
    ((liftM (datagramIn f).payload : ExceptT ProtocolError Checked Bytes) >>= Header.decode).run =
      let declared := (word16 f (udpStart f + 4)).toNat
      .ok (if declared < 36 ∨ f.length < udpStart f + declared then .error .malformedHeader
        else headerAt f (udpStart f + 8)) := by
  have hudp : udpHeaderLength = 8 := rfl
  have hheader : Header.length = 28 := rfl
  dsimp only
  rw [payload_datagramIn h]
  by_cases hcut : (word16 f (udpStart f + 4)).toNat < udpHeaderLength ∨
      f.length < udpStart f + (word16 f (udpStart f + 4)).toNat
  · rw [if_pos hcut, if_pos (by omega)]
    rfl
  rw [if_neg hcut]
  show (Header.decode _).run = _
  by_cases hshort : (word16 f (udpStart f + 4)).toNat < 36
  · rw [if_pos (.inl hshort), decodeHeader_of_short]
    rw [List.length_take]
    omega
  · rw [if_neg (by omega), decodeHeader_eq, headerAt_part (by omega)]
    rw [List.length_take, List.length_drop]
    omega

/-- A frame is read without a fault, and is what its fields make it. -/
theorem decode_eq (a : Addressing) (f : Bytes) : (decode a f).run = .ok (classify a f) := by
  unfold decode classify
  dsimp only
  rw [locate_eq, Checked.lift_ok_bind]
  by_cases hforeign : ¬ CarriesUdp f
  · rw [if_neg hforeign, if_pos fun h : IsControlTraffic a f => hforeign h.toCarriesUdp]
    rfl
  have hudp : CarriesUdp f := not_not.1 hforeign
  rw [if_pos hudp]
  by_cases hport : (datagramIn f).sourcePort ≠ a.controlPort
  · rw [if_pos fun h : IsControlTraffic a f => hport h.sourcePort]
    simp only [if_pos hport]
    rfl
  have hcontrol : IsControlTraffic a f := ⟨hudp, not_not.1 hport⟩
  rw [if_neg (not_not.2 hcontrol)]
  simp only [if_neg hport]
  rw [← bind_assoc, ExceptT.run_bind, readHeader_eq hudp]
  dsimp only
  split
  · rfl
  · rcases headerAt f (udpStart f + 8) with cause | header
    · rfl
    · dsimp only
      rw [show (datagramIn f).targetPort = word16 f (udpStart f + 2) from rfl, ofPort_eq]
      rcases pathOf? a.basePort (word16 f (udpStart f + 2)) with _ | path <;> rfl

/-- A proposal that is read proposes a path. -/
theorem target_of_headerAt {f : Bytes} {p : Nat} {header : Header}
    (h : headerAt f p = .ok header) (hkind : header.kind = .repath) : header.target ≠ none := by
  unfold headerAt at h
  split at h
  · cases h
  split at h
  · cases h
  dsimp only at h
  split at h
  · cases h
  next hrange =>
    cases h
    dsimp only at hkind ⊢
    rw [not_and, not_not] at hrange
    rw [if_pos hkind]
    intro hnone
    have hcount : pathCount = 4 := rfl
    have hinside := hrange hkind
    have houtside := PathId.ofNumber?_eq_none_iff.1 hnone
    omega

/-- A frame that is a control packet carries its header behind the UDP header. -/
theorem headerAt_of_classify {a : Addressing} {f : Bytes} {packet : ControlPacket}
    (h : classify a f = .ok (.control packet)) :
    headerAt f (udpStart f + 8) = .ok packet.header := by
  unfold classify at h
  dsimp only at h
  split at h
  · cases h
  split at h
  · cases h
  split at h
  · cases h
  next header hheader =>
    split at h
    · cases h
    · cases h
      exact hheader

/-! ### What decides -/

/-- The positions of a frame that can decide what it is: the Ethernet type, the version and length
of the IPv4 header, the protocol, the ports and the length of the datagram, and the control header
without its last byte and, except in a proposal, without its target. -/
def Bears (f : Bytes) (i : Nat) : Prop :=
  i ∈ [12, 13, 14, 23] ∨
    udpStart f ≤ i ∧ i < udpStart f + 6 ∨
    udpStart f + 8 ≤ i ∧ i < udpStart f + 35 ∧
      (i = udpStart f + 18 →
        kindOf? (octet f (udpStart f + 8)) (octet f (udpStart f + 9)) = some .repath)

instance (f : Bytes) : DecidablePred (Bears f) := fun _ => inferInstanceAs (Decidable (_ ∨ _ ∨ _))

/-- Where the datagram of a frame ends, its header included. -/
def udpEnd (f : Bytes) : Nat := udpStart f + max 8 (word16 f (udpStart f + 4)).toNat

section congr

variable {f g : Bytes} (h : ∀ i, Bears f i → octet g i = octet f i)
include h

/-- Frames that agree where it matters have their UDP header in the same place. -/
theorem udpStart_congr : udpStart g = udpStart f := by
  rw [udpStart, h 14 (.inl (by decide)), udpStart]

/-- They have the same words in it. -/
theorem word16_congr_udp {k : Nat} (hk : k ≤ 4) :
    word16 g (udpStart f + k) = word16 f (udpStart f + k) :=
  word16_congr fun j hj => h _ (.inr (.inl ⟨by omega, by omega⟩))

/-- They have the same header behind it. -/
theorem headerAt_congr : headerAt g (udpStart f + 8) = headerAt f (udpStart f + 8) := by
  have hoctet : ∀ k < 27, k ≠ 10 →
      octet g (udpStart f + 8 + k) = octet f (udpStart f + 8 + k) := by
    intro k hk hne
    exact h _ (.inr (.inr ⟨by omega, by omega, fun he => absurd he (by omega)⟩))
  have hword : ∀ k, k = 2 ∨ k = 11 ∨ k = 19 →
      word64 g (udpStart f + 8 + k) = word64 f (udpStart f + 8 + k) := by
    intro k hk
    refine word64_congr fun j hj => ?_
    rw [Nat.add_assoc]
    exact hoctet (k + j) (by omega) (by omega)
  have hplane := hoctet 0 (by omega) (by omega)
  have hcode := hoctet 1 (by omega) (by omega)
  rw [Nat.add_zero] at hplane
  unfold headerAt
  rw [hplane, hcode, hword 2 (by omega), hword 11 (by omega), hword 19 (by omega)]
  rcases hkind : kindOf? (octet f (udpStart f + 8)) (octet f (udpStart f + 8 + 1)) with _ | kind
  · rfl
  · cases kind with
    | repath =>
      rw [h (udpStart f + 8 + 10) (.inr (.inr ⟨by omega, by omega, fun _ => hkind⟩))]
    | probe | repathAck | timestamp => rfl

variable (hlength : g.length = f.length ∨ udpEnd f ≤ f.length ∧ udpEnd f ≤ g.length)
include hlength

/-- They both carry a UDP datagram, or neither does. -/
theorem carriesUdp_congr : CarriesUdp g ↔ CarriesUdp f := by
  have hstart := udpStart_congr h
  have hheader : octet g 14 = octet f 14 := h 14 (.inl (by decide))
  have hprotocol : octet g 23 = octet f 23 := h 23 (.inl (by decide))
  have htype : word16 g 12 = word16 f 12 := by
    refine word16_congr fun j hj => h _ (.inl ?_)
    obtain rfl | rfl : j = 0 ∨ j = 1 := by omega
    · decide
    · decide
  have hend : udpEnd f = udpStart f + max 8 (word16 f (udpStart f + 4)).toNat := rfl
  have hvalue : udpStart f = 14 + 4 * ((octet f 14).toNat % 16) := rfl
  constructor
  · rintro ⟨hlen, htype', hversion, hprotocol', hheader', hreach⟩
    rw [hheader] at hversion hheader'
    exact ⟨by omega, htype ▸ htype', hversion, hprotocol ▸ hprotocol', hheader', by omega⟩
  · rintro ⟨hlen, htype', hversion, hprotocol', hheader', hreach⟩
    rw [← hheader] at hversion
    exact ⟨by omega, htype.trans htype', hversion, hprotocol.trans hprotocol',
      hheader.symm ▸ hheader', by omega⟩

/-- So they are classified alike. -/
theorem classify_congr (a : Addressing) : classify a g = classify a f := by
  have hstart := udpStart_congr h
  have hcontrol : IsControlTraffic a g ↔ IsControlTraffic a f := by
    have hport := word16_congr_udp h (k := 0) (by omega)
    have hudp := carriesUdp_congr h hlength
    constructor
    · intro hg
      exact ⟨hudp.1 hg.toCarriesUdp, by rw [← hg.sourcePort, hstart]; exact hport.symm⟩
    · intro hf
      exact ⟨hudp.2 hf.toCarriesUdp, by rw [← hf.sourcePort, hstart]; exact hport⟩
  have hend : udpEnd f = udpStart f + max 8 (word16 f (udpStart f + 4)).toNat := rfl
  unfold classify
  dsimp only
  rw [hstart, word16_congr_udp h (k := 4) (by omega), word16_congr_udp h (k := 2) (by omega),
    headerAt_congr h]
  refine if_congr (not_congr hcontrol) rfl (if_congr ?_ rfl rfl)
  omega

end congr

/-- A proposal of path 3 with number 7, sent on path 1 with IPv4 options. All bytes that cannot
decide what the frame is are `noise`. -/
def proposalAmid (noise : UInt8) (behind : Bytes) : Bytes :=
  List.replicate 12 noise ++ [8, 0, 0x46] ++ List.replicate 8 noise ++ [17] ++
    List.replicate 14 noise ++ [4, 0xd2, 0x16, 0x2e, 0, 36, noise, noise] ++
    [0, 1] ++ word64Bytes 0 ++ [3] ++ word64Bytes 7 ++ word64Bytes 0 ++ [noise] ++ behind

/-- **Reading a frame follows its grammar.** Whatever the bytes are, `decode` ends without a fault
and classifies the frame. So two frames that agree at the positions that can decide are read alike,
if they are equally long or both reach to the end of the datagram: addresses, checksums, IPv4
options, the last byte of the header and all that lies behind the datagram never matter. -/
theorem decode_follows_grammar (a : Addressing) (f : Bytes) :
    (decode a f).run = .ok (classify a f) ∧
      ∀ g : Bytes, (∀ i, Bears f i → octet g i = octet f i) →
        (g.length = f.length ∨ udpEnd f ≤ f.length ∧ udpEnd f ≤ g.length) →
        (decode a g).run = (decode a f).run := by
  refine ⟨decode_eq a f, fun g h hlength => ?_⟩
  rw [decode_eq, decode_eq, classify_congr h hlength]

/-- Noise at all other positions, and two bytes more behind the datagram, leave a proposal as it
is. -/
theorem noise_ignored :
    proposalAmid 0xff [1, 2] ≠ proposalAmid 0 [] ∧
      (decode .standard (proposalAmid 0xff [1, 2])).run =
        .ok (.ok (.control ⟨.repath ⟨⟨2, by decide⟩⟩ 7, .first⟩)) := by
  have h := decode_follows_grammar .standard (proposalAmid 0 [])
  have hbears : ∀ i < 73, Bears (proposalAmid 0 []) i →
      octet (proposalAmid 0xff [1, 2]) i = octet (proposalAmid 0 []) i := by
    decide +kernel
  refine ⟨by decide, (h.2 _ (fun i hi => hbears i ?_ hi) (.inr (by decide))).trans (h.1.trans ?_)⟩
  · have hstart : udpStart (proposalAmid 0 []) = 38 := rfl
    rcases hi with hi | hi | hi
    · simp only [List.mem_cons, List.not_mem_nil, or_false] at hi
      omega
    · omega
    · omega
  · rfl

end PathControl.Wire
