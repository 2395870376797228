import PathControl.Proofs.Wire.Checksum
import PathControl.Proofs.Wire.Grammar

/-!
# Emitted frames read back

What `encode` writes into a buffer of a pool, as a function of addressing, path, identification and
header, and what `decode` reads from it.

* `controlFrame`: the bytes of an emitted frame.
* `writeFrame_eq`, `encode_eq`: with a buffer that has the room, an emission ends without a fault
  and makes exactly that frame; nothing of the old bytes of the buffer is left in it.
* `classify_controlFrame`: the fields of the frame are those of its header and its path.
* `encode_round_trip`: both in one.
-/

namespace PathControl

namespace Addressing

/-- The destination port of a path. -/
def pathPort (a : Addressing) (path : PathId) : UInt16 :=
  UInt16.ofNat (a.basePort.toNat + path.index.val)

variable {a : Addressing}

/-- Usable addressing has room for the ports of all paths, and none is port 0. -/
theorem room_of_flaw?_eq_none (h : a.flaw? = none) :
    0 < a.basePort.toNat ∧ a.basePort.toNat + 3 < UInt16.size := by
  have hcount : a.lastPathPort = a.basePort.toNat + 4 - 1 := rfl
  unfold flaw? at h
  split at h
  · cases h
  · rename_i hroom
    rw [not_or, ← UInt16.toNat_inj] at hroom
    have hzero : (0 : UInt16).toNat = 0 := rfl
    omega

/-- With usable addressing the port of a path is counted from the base port, and does not wrap
around. -/
theorem toNat_pathPort (h : a.flaw? = none) (path : PathId) :
    (a.pathPort path).toNat = a.basePort.toNat + path.index.val := by
  have hroom := room_of_flaw?_eq_none h
  have hindex : path.index.val < 4 := path.index.isLt
  exact UInt16.toNat_ofNat_of_lt' (by omega)

/-- The port of a path is computed without a fault. -/
theorem port_eq (h : a.flaw? = none) (path : PathId) :
    path.port a.basePort = .ok (a.pathPort path) := by
  have hroom := room_of_flaw?_eq_none h
  have hindex : path.index.val < 4 := path.index.isLt
  have hone : (1 : UInt16).toNat = 1 := rfl
  have hpos : 1 ≤ a.basePort := UInt16.le_iff_toNat_le.2 (by omega)
  have hbefore : (a.basePort - 1).toNat = a.basePort.toNat - 1 := UInt16.toNat_sub_of_le _ _ hpos
  have hnumber : path.toByte.toUInt16.toNat = path.index.val + 1 := by
    rw [UInt8.toNat_toUInt16, path.toNat_toByte]
    rfl
  have hsum : (a.basePort - 1).toNat + path.toByte.toUInt16.toNat < UInt16.size := by omega
  rw [PathId.port, Checked.sub16, if_pos hpos, Checked.ok_bind, Checked.add16, if_pos hsum,
    Except.ok.injEq, ← UInt16.toNat_inj, toNat_pathPort h, UInt16.toNat_add,
    Nat.mod_eq_of_lt hsum]
  omega

end Addressing

namespace Transport.Buffer

open Wire

/-- Overwriting all bytes of a buffer. -/
theorem writeAt_zero {b : Buffer} {data : Bytes} (h : data.length = b.capacity) :
    ∃ b', b.writeAt 0 data = .ok b' ∧ b'.capacity = b.capacity ∧ b'.bytes = data := by
  have hwritten := b.written_le
  refine ⟨_, dif_pos (by omega), rfl, ?_⟩
  simp [bytes, h, hwritten]

end Transport.Buffer

namespace Wire

open Transport

/-! ### Writing -/

/-- The frame that carries a header on a path. -/
def controlFrame (a : Addressing) (path : PathId) (identification : UInt16) (header : Header) :
    Bytes :=
  (envelopeTo a (a.pathPort path) identification).header header.bytes ++ header.bytes

/-- A control frame has its fixed length. -/
theorem length_controlFrame (a : Addressing) (path : PathId) (identification : UInt16)
    (header : Header) :
    (controlFrame a path identification header).length = controlFrameLength := by
  rw [controlFrame, List.length_append, Envelope.length_header, Header.length_bytes]
  rfl

/-- A control frame fills the front of any buffer that has room for it. -/
theorem writeFrame_eq (envelope : Envelope) (header : Header) {buffer : Buffer}
    (hroom : controlFrameLength ≤ buffer.capacity) :
    ∃ frame, (writeFrame envelope header buffer).run = .ok (.ok frame) ∧
      frame.capacity = buffer.capacity ∧
      frame.contents = envelope.header header.bytes ++ header.bytes := by
  have hframe : controlFrameLength = Envelope.length + Header.length := rfl
  have hlength : Envelope.length = 42 := rfl
  have hheader : Header.length = 28 := rfl
  have hbytes : header.bytes.length = Header.length := header.length_bytes
  have hcapacity := buffer.length_bytes
  obtain ⟨old, hold⟩ : ∃ old, buffer.bytes.take Envelope.length = old := ⟨_, rfl⟩
  obtain ⟨tail, htail⟩ : ∃ tail, (buffer.bytes.drop Envelope.length).drop Header.length = tail :=
    ⟨_, rfl⟩
  have hencode :
      header.encode (buffer.bytes.drop Envelope.length) = .ok (header.bytes ++ tail) := by
    rw [Header.encode, if_neg (by rw [List.length_drop]; omega), htail]
  have holdLength : old.length = Envelope.length := by
    rw [← hold, List.length_take]
    omega
  have htailLength : tail.length = buffer.capacity - controlFrameLength := by
    rw [← htail, List.length_drop, List.length_drop]
    omega
  have hwrite : (envelope.write (old ++ header.bytes ++ tail) header.bytes.length).run =
      .ok (.ok (Envelope.length + header.bytes.length,
        envelope.header header.bytes ++ header.bytes ++ tail)) :=
    envelope.write_eq holdLength (by rw [hbytes]; decide)
  rw [hbytes, ← hframe, List.append_assoc old] at hwrite
  have hall : (envelope.header header.bytes ++ header.bytes ++ tail).length = buffer.capacity := by
    rw [List.length_append, List.length_append, Envelope.length_header]
    omega
  obtain ⟨written, hwritten, hsame, hnew⟩ := buffer.writeAt_zero hall
  refine ⟨written.setLength controlFrameLength, ?_, hsame, ?_⟩
  · unfold writeFrame
    rw [sliceFrom_eq_ok (by omega), Checked.lift_ok_bind, hencode, hold]
    show ExceptT.run (envelope.write (old ++ (header.bytes ++ tail)) Header.length >>= _) = _
    rw [ExceptT.run_bind, hwrite]
    dsimp only [Checked.ok_bind]
    rw [hwritten]
    rfl
  · have hused : (written.setLength controlFrameLength).used =
        (envelope.header header.bytes ++ header.bytes).length := by
      rw [List.length_append, Envelope.length_header, hbytes, ← hframe]
      exact Nat.min_eq_left (hsame ▸ hroom)
    rw [Buffer.contents_eq, Buffer.bytes_setLength, hnew, hused, List.take_left]

variable {a : Addressing} {pool rest : Pool} {buffer : Buffer}

/-- With a buffer that has the room, an emission makes its frame. -/
theorem encode_eq (ha : a.flaw? = none) (hpool : pool.get? = some (buffer, rest))
    (hroom : controlFrameLength ≤ buffer.capacity) (identification : UInt16) (header : Header)
    (path : PathId) :
    ∃ frame, encode a pool identification header path =
        ⟨.ok (.ok frame), rest, identification + 1⟩ ∧
      frame.capacity = buffer.capacity ∧
      frame.contents = controlFrame a path identification header := by
  obtain ⟨frame, hwrite, hcapacity, hcontents⟩ :=
    writeFrame_eq (envelopeTo a (a.pathPort path) identification) header hroom
  refine ⟨frame, ?_, hcapacity, hcontents⟩
  unfold encode
  rw [hpool]
  simp only [Addressing.port_eq ha]
  rw [show writeFrame (envelopeTo a (a.pathPort path) identification) header buffer =
    .ok (.ok frame) from hwrite]

/-! ### Reading -/

/-- The messages that endpoints send. -/
inductive Header.Emitted : Header → Prop where
  | probe (now : UInt64) : Emitted (.probe now)
  | repath (target : PathId) (sequence : UInt64) : Emitted (.repath target sequence)
  | repathAck (ack : UInt64) : Emitted (.repathAck ack)
  | dataTimestamp (now : UInt64) : Emitted (.dataTimestamp now)

/-- Messages as endpoints send them have a target exactly if they are proposals. -/
theorem Header.Emitted.target_isSome_iff {header : Header} (h : header.Emitted) :
    header.target.isSome ↔ header.kind = .repath := by
  cases h <;>
    simp [Header.probe, Header.repath, Header.repathAck, Header.dataTimestamp, Header.blank]

/-- A kind is known by the codes that it is sent with. -/
theorem kindOf?_code (kind : MessageKind) : kindOf? kind.plane.code kind.code = some kind := by
  cases kind <;> rfl

/-- A path is known by the port that it is sent to. -/
theorem pathOf?_pathPort (ha : a.flaw? = none) (path : PathId) :
    pathOf? a.basePort (a.pathPort path) = some path := by
  have hport := Addressing.toNat_pathPort ha path
  have hindex : path.index.val < 4 := path.index.isLt
  rw [pathOf?, dif_pos (by omega), Option.some.injEq]
  exact congrArg PathId.mk (Fin.ext (by dsimp only; omega))

/-- What is read from the bytes of a header: a proposal must have a target, and other messages lose
theirs. -/
theorem headerAt_bytes_eq (header : Header) :
    headerAt header.bytes 0 =
      if header.kind = .repath ∧ header.target = none then .error (.invalidPath 0)
      else .ok { header with target := if header.kind = .repath then header.target else none } := by
  have hplane : octet header.bytes 0 = header.kind.plane.code := rfl
  have hcode : octet header.bytes 1 = header.kind.code := rfl
  have hbyte : octet header.bytes 10 = header.target.elim 0 PathId.toByte := rfl
  have htimestamp : word64 header.bytes 2 = header.timestamp :=
    joinBytes_word64Bytes header.timestamp
  have hsequence : word64 header.bytes 11 = header.sequence :=
    joinBytes_word64Bytes header.sequence
  have hack : word64 header.bytes 19 = header.ack := joinBytes_word64Bytes header.ack
  have hsmall : ¬ 1 < header.kind.plane.code := by cases header.kind <;> decide
  unfold headerAt
  simp only [Nat.zero_add, hplane, hcode, hbyte, htimestamp, hsequence, hack, kindOf?_code]
  rw [if_neg hsmall]
  by_cases hkind : header.kind = .repath
  · simp only [if_pos hkind]
    rcases htarget : header.target with _ | path
    · rw [if_pos ⟨hkind, by decide⟩, if_pos ⟨hkind, rfl⟩]
      rfl
    · rw [Option.elim_some, path.toNat_toByte, PathId.ofNumber?_number,
        if_neg fun hbad => hbad.2 ⟨path.number_pos, path.number_le⟩,
        if_neg fun hbad => Option.some_ne_none path hbad.2]
  · simp only [if_neg hkind]
    rw [if_neg fun hbad => hkind hbad.1, if_neg fun hbad => hkind hbad.1]

/-- A header is read back from its bytes. -/
theorem headerAt_bytes {header : Header} (h : header.target.isSome ↔ header.kind = .repath) :
    headerAt header.bytes 0 = .ok header := by
  have htarget : (if header.kind = .repath then header.target else none) = header.target := by
    split
    · rfl
    · next hkind => exact (Option.not_isSome_iff_eq_none.1 fun hsome => hkind (h.1 hsome)).symm
  rw [headerAt_bytes_eq, htarget, if_neg]
  rintro ⟨hkind, hnone⟩
  have hsome := h.2 hkind
  rw [hnone] at hsome
  cases hsome

namespace Envelope

variable (e : Envelope) (payload tail : Bytes)

/-- An emitted frame carries no IPv4 options, so its UDP header has a fixed place. -/
theorem udpStart_header : udpStart (e.header payload ++ tail) = 34 := by
  have hfirst : octet (e.header payload ++ tail) 14 = 0x45 := rfl
  rw [udpStart, hfirst]
  rfl

/-- Headers and what follows them carry a datagram. -/
theorem carriesUdp_header : CarriesUdp (e.header payload ++ tail) := by
  have hfirst : octet (e.header payload ++ tail) 14 = 0x45 := rfl
  have hstart := e.udpStart_header payload tail
  have hlength : (e.header payload ++ tail).length = 42 + tail.length := by
    rw [List.length_append, length_header]
    rfl
  exact ⟨by omega, joinBytes_word16Bytes 0x0800, by rw [hfirst]; rfl, rfl, by rw [hfirst]; decide,
    by omega⟩

/-- The datagram has the ports of the envelope and is as long as the payload makes it. -/
theorem datagramIn_header :
    datagramIn (e.header payload ++ tail) =
      ⟨e.sourcePort, e.targetPort, .ofNat (udpHeaderLength + payload.length), tail⟩ := by
  have hsource : word16 (e.header payload ++ tail) 34 = e.sourcePort :=
    joinBytes_word16Bytes e.sourcePort
  have htarget : word16 (e.header payload ++ tail) 36 = e.targetPort :=
    joinBytes_word16Bytes e.targetPort
  have hdeclared : word16 (e.header payload ++ tail) 38 =
      .ofNat (udpHeaderLength + payload.length) := joinBytes_word16Bytes _
  have hrest : (e.header payload ++ tail).drop 42 = tail :=
    List.drop_left' (e.length_header payload)
  rw [datagramIn, udpStart_header, hsource, htarget, hdeclared, hrest]

end Envelope

/-- The fields of a control frame are those of its header and its path. -/
theorem classify_controlFrame (ha : a.flaw? = none) {header : Header}
    (h : header.target.isSome ↔ header.kind = .repath) (path : PathId) (identification : UInt16) :
    classify a (controlFrame a path identification header) = .ok (.control ⟨header, path⟩) := by
  obtain ⟨f, hf⟩ : ∃ f, controlFrame a path identification header = f := ⟨_, rfl⟩
  have hstart : udpStart f = 34 := hf ▸ Envelope.udpStart_header _ _ _
  have hudp : CarriesUdp f := hf ▸ Envelope.carriesUdp_header _ _ _
  have hdatagram : datagramIn f = ⟨a.controlPort, a.pathPort path, 36, header.bytes⟩ :=
    hf ▸ Envelope.datagramIn_header _ _ _
  have hlength : f.length = 70 := hf ▸ length_controlFrame a path identification header
  have hdeclared : word16 f (udpStart f + 4) = 36 := congrArg Datagram.declared hdatagram
  have htarget : word16 f (udpStart f + 2) = a.pathPort path :=
    congrArg Datagram.targetPort hdatagram
  have hcontrol : IsControlTraffic a f := ⟨hudp, congrArg Datagram.sourcePort hdatagram⟩
  have hheader : headerAt f (udpStart f + 8) = .ok header := by
    rw [hstart, ← headerAt_part (Nat.le_refl _), ← hf]
    exact headerAt_bytes h
  rw [hf, classify]
  simp only [hlength, htarget, hdeclared, hheader, pathOf?_pathPort ha]
  rw [if_neg (not_not.2 hcontrol), hstart, if_neg (by decide)]

/-- Reading asks for the ports only, and these are common to both sides. -/
theorem classify_reversed (a : Addressing) (f : Bytes) : classify a.reversed f = classify a f :=
  if_congr (not_congr ⟨fun h => ⟨h.toCarriesUdp, h.sourcePort⟩,
    fun h => ⟨h.toCarriesUdp, h.sourcePort⟩⟩) rfl rfl

/-- **Emitted frames read back as they were meant.** With usable addressing and a buffer of at least
70 bytes at hand, whatever it holds, each of the four messages is emitted without a fault as a frame
of 70 bytes, and these are `controlFrame`: they depend on the addressing, the path, the
identification and the header alone. An endpoint with the same addressing and its peer both read
exactly that header from the frame, and the path it was sent on. -/
theorem encode_round_trip (ha : a.flaw? = none) (hpool : pool.get? = some (buffer, rest))
    (hroom : 70 ≤ buffer.capacity) (identification : UInt16) {header : Header}
    (hheader : header.Emitted) (path : PathId) :
    ∃ frame, encode a pool identification header path =
        ⟨.ok (.ok frame), rest, identification + 1⟩ ∧
      frame.contents = controlFrame a path identification header ∧
      frame.contents.length = 70 ∧
      (decode a frame.contents).run = .ok (.ok (.control ⟨header, path⟩)) ∧
      (decode a.reversed frame.contents).run = .ok (.ok (.control ⟨header, path⟩)) := by
  obtain ⟨frame, hencode, -, hcontents⟩ :=
    encode_eq ha hpool hroom identification header path
  have hclassify := classify_controlFrame ha hheader.target_isSome_iff path identification
  refine ⟨frame, hencode, hcontents, ?_, ?_, ?_⟩
  · rw [hcontents, length_controlFrame]
    rfl
  · rw [decode_eq, hcontents, hclassify]
  · rw [decode_eq, hcontents, classify_reversed, hclassify]

/-- A pool whose only buffer was full of ones. -/
def stalePool : Pool where
  free := [(Buffer.blank 72).fillWith 0xff]
  allocated := 1
  limit := 1
  bufferSize := 72

/-- A proposal of path 3 that overwrites ones is read back on path 2. -/
theorem stale_ones_vanish :
    ∃ frame, encode .standard stalePool 0xffff (.repath ⟨⟨2, by decide⟩⟩ 9) ⟨⟨1, by decide⟩⟩ =
        ⟨.ok (.ok frame), { stalePool with free := [] }, 0⟩ ∧
      (decode Addressing.standard.reversed frame.contents).run =
        .ok (.ok (.control ⟨.repath ⟨⟨2, by decide⟩⟩ 9, ⟨⟨1, by decide⟩⟩⟩)) := by
  obtain ⟨frame, hencode, -, -, -, hdecode⟩ :=
    encode_round_trip (a := .standard) (by decide) (show stalePool.get? = some _ from rfl)
      (by decide) 0xffff (.repath ⟨⟨2, by decide⟩⟩ 9) ⟨⟨1, by decide⟩⟩
  exact ⟨frame, hencode, hdecode⟩

end Wire

end PathControl
