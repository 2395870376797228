import Mathlib.Tactic.SplitIfs
import PathControl.Proofs.Wire.InPlace

/-!
# Headers written and read

Writing a control header and reading it undo each other up to what its bytes have no place for: a
target is written for every message and read for proposals only, and the last byte is padding.

* `Header.fill`: a header written in place, field after field. `Header.fill_eq`: it comes to the
  same as `Header.encode`, and an error comes before the first byte.
* `Header.decode_written`: what is read from any header that was written.
* `Header.rewritten`: the front of some bytes with the padding cleared.
  `Header.bytes_of_headerAt`: it is what the header read from there is written as.
* `Header.inverse_up_to_padding`: both directions, and buffers that are too short.
-/

namespace PathControl.Wire

/-- A plane and a code that name a message are those of the message. -/
theorem kindOf?_eq_some {plane code : UInt8} {kind : MessageKind}
    (h : kindOf? plane code = some kind) : kind.plane.code = plane ∧ kind.code = code := by
  unfold kindOf? at h
  split_ifs at h with hpair hpair hpair hpair
  all_goals
    cases h
    cases hpair
    exact ⟨rfl, rfl⟩

/-- The byte of a target that is read, and of one that is ignored. -/
theorem targetByte_of_read {kind : MessageKind} {byte : UInt8}
    (h : ¬ (kind = .repath ∧ ¬ (1 ≤ byte.toNat ∧ byte.toNat ≤ 4))) :
    let target := if kind = .repath then PathId.ofNumber? byte.toNat else none
    (target.isSome ↔ kind = .repath) ∧
      target.elim 0 PathId.toByte = if kind = .repath then byte else 0 := by
  intro target
  by_cases hkind : kind = .repath
  · have hrange : 1 ≤ byte.toNat ∧ byte.toNat ≤ 4 := not_not.1 fun hout => h ⟨hkind, hout⟩
    obtain ⟨path, hpath⟩ : ∃ path, PathId.ofNumber? byte.toNat = some path := by
      refine Option.ne_none_iff_exists'.1 fun hnone => ?_
      have hcount : pathCount = 4 := rfl
      have hout := PathId.ofNumber?_eq_none_iff.1 hnone
      omega
    have htarget : target = some path := (if_pos hkind).trans hpath
    rw [htarget, if_pos hkind]
    refine ⟨iff_of_true rfl hkind, UInt8.toNat_inj.1 ?_⟩
    rw [Option.elim_some, path.toNat_toByte]
    exact PathId.ofNumber?_eq_some_iff.1 hpath
  · have htarget : target = none := if_neg hkind
    rw [htarget, if_neg hkind]
    exact ⟨iff_of_false Bool.false_ne_true hkind, rfl⟩

namespace Header

variable {bs : Bytes} {h : Header}

/-! ### Writing -/

/-- The fields of a header, one behind the other. -/
def fields (h : Header) : List Bytes :=
  [[h.kind.plane.code], [h.kind.code], word64Bytes h.timestamp,
    [h.target.elim 0 PathId.toByte], word64Bytes h.sequence, word64Bytes h.ack, [0]]

/-- The fields of a header make up its bytes. -/
theorem flatten_fields (h : Header) : h.fields.flatten = h.bytes := by
  simp [fields, bytes]

/-- Writes a header over the front of a buffer. -/
def fill (h : Header) : InPlace Unit := do
  let buf ← get
  if buf.length < length then
    throw .malformedHeader
  overwriteAll 0 h.fields

/-- Writing in place is writing. -/
theorem fill_eq (h : Header) (buf : Bytes) :
    h.fill.run.run buf = .ok (match h.encode buf with
      | .error cause => (.error cause, buf)
      | .ok written => (.ok (), written)) := by
  unfold fill encode
  rw [InPlace.get_bind]
  by_cases hshort : buf.length < length
  · rw [if_pos hshort, if_pos hshort]
    rfl
  · rw [if_neg hshort, if_neg hshort]
    have hold : (buf.take length).length = h.fields.flatten.length := by
      rw [List.length_take, flatten_fields, length_bytes]
      omega
    have hrun : (overwriteAll 0 h.fields).run ([] ++ (buf.take length ++ buf.drop length)) =
        .ok ((), [] ++ (h.fields.flatten ++ buf.drop length)) := overwriteAll_run rfl hold
    rw [List.nil_append, List.nil_append, List.take_append_drop, flatten_fields] at hrun
    exact InPlace.lift_run hrun

/-- A header is written over the front of a buffer that has room for it. -/
theorem encode_of_room (h : Header) {buf : Bytes} (hroom : length ≤ buf.length) :
    h.encode buf = .ok (h.bytes ++ buf.drop length) :=
  if_neg (Nat.not_lt.2 hroom)

/-! ### Reading what was written -/

/-- What is read from a header that was written, whatever lies behind it. -/
theorem decode_written (h : Header) (behind : Bytes) :
    (decode (h.bytes ++ behind)).run =
      .ok (if h.kind = .repath ∧ h.target = none then .error (.invalidPath 0)
        else .ok { h with target := if h.kind = .repath then h.target else none }) := by
  have hlength : length ≤ (h.bytes ++ behind).length := by
    rw [List.length_append, length_bytes]
    exact Nat.le_add_right _ _
  rw [decodeHeader_eq hlength, ← headerAt_part (Nat.le_refl _), List.drop_zero,
    List.take_left' h.length_bytes, headerAt_bytes_eq]

/-- A header survives exactly if it has a target where one is read. -/
theorem decode_written_eq_iff (h : Header) (behind : Bytes) :
    (decode (h.bytes ++ behind)).run = .ok (.ok h) ↔ (h.target.isSome ↔ h.kind = .repath) := by
  obtain ⟨kind, timestamp, target, sequence, ack⟩ := h
  rw [decode_written]
  by_cases hkind : kind = .repath <;> rcases target with _ | path <;> simp [hkind]

/-! ### Writing what was read -/

/-- The front of some bytes as the header read from it is written: the last byte is cleared, and the
byte of the target too unless the message is a proposal. -/
def rewritten (kind : MessageKind) (bs : Bytes) : Bytes :=
  let front := (bs.take length).set 27 0
  if kind = .repath then front else front.set 10 0

/-- What decoding and encoding rewrite: the target, where it has no meaning, and the padding. -/
theorem rewritten_eq (kind : MessageKind) (hlength : length ≤ bs.length) :
    rewritten kind bs = window bs 0 10 ++ [if kind = .repath then octet bs 10 else 0] ++
      window bs 11 16 ++ [0] := by
  unfold rewritten
  rw [take_eq_window hlength]
  by_cases hkind : kind = .repath
  · rw [if_pos hkind, if_pos hkind]
    rfl
  · rw [if_neg hkind, if_neg hkind]
    rfl

/-- A header that is read has a target exactly if it is a proposal, and its bytes are those that it
was read from, up to the padding. -/
theorem bytes_of_headerAt (hlength : length ≤ bs.length) (hread : headerAt bs 0 = .ok h) :
    (h.target.isSome ↔ h.kind = .repath) ∧ h.bytes = rewritten h.kind bs := by
  unfold headerAt at hread
  simp only [Nat.zero_add] at hread
  split at hread
  · cases hread
  split at hread
  · cases hread
  next kind hkind =>
    split at hread
    · cases hread
    next hrange =>
      cases hread
      obtain ⟨hplane, hcode⟩ := kindOf?_eq_some hkind
      obtain ⟨htarget, hbyte⟩ := targetByte_of_read hrange
      refine ⟨htarget, ?_⟩
      rw [rewritten_eq kind hlength]
      unfold bytes
      dsimp only at hbyte ⊢
      rw [hplane, hcode, hbyte, word64Bytes_word64, word64Bytes_word64, word64Bytes_word64]
      rfl

/-- **Headers are written and read back up to their padding.** With 28 bytes of room, writing
replaces the first 28 bytes by those of the header and leaves the others. The same header is read
from there exactly if it has a target just in case it is a proposal: a proposal without one is read
as path 0, and any other message loses its target. Conversely, a header that is read has a target
just in case it is a proposal. Written into any buffer, it makes the bytes that it was read from,
but for the padding, and is read again. With less than 28 bytes neither works, and no byte
changes. -/
theorem inverse_up_to_padding (h : Header) (buf : Bytes) :
    (length ≤ buf.length →
      h.encode buf = .ok (h.bytes ++ buf.drop length) ∧
        h.fill.run.run buf = .ok (.ok (), h.bytes ++ buf.drop length) ∧
        h.bytes.length = length ∧
        ((decode (h.bytes ++ buf.drop length)).run = .ok (.ok h) ↔
          (h.target.isSome ↔ h.kind = .repath)) ∧
        (h.kind = .repath → h.target = none →
          (decode (h.bytes ++ buf.drop length)).run = .ok (.error (.invalidPath 0))) ∧
        (h.kind ≠ .repath →
          (decode (h.bytes ++ buf.drop length)).run = .ok (.ok { h with target := none }))) ∧
      ((decode buf).run = .ok (.ok h) →
        (h.target.isSome ↔ h.kind = .repath) ∧
          ∀ other : Bytes, length ≤ other.length → ∃ again, h.encode other = .ok again ∧
            again.take length = rewritten h.kind buf ∧ again.drop length = other.drop length ∧
            (decode again).run = (decode buf).run) ∧
      (buf.length < length →
        (decode buf).run = .ok (.error .malformedHeader) ∧
          h.encode buf = .error .malformedHeader ∧
          h.fill.run.run buf = .ok (.error .malformedHeader, buf)) := by
  have hfill := h.fill_eq buf
  refine ⟨fun hroom => ?_, fun hread => ?_, fun hshort => ?_⟩
  · have hencode := h.encode_of_room hroom
    rw [hencode] at hfill
    refine ⟨hencode, hfill, h.length_bytes, h.decode_written_eq_iff _, fun hkind hnone => ?_,
      fun hkind => ?_⟩
    · rw [decode_written, if_pos ⟨hkind, hnone⟩]
    · rw [decode_written, if_neg fun hbad => hkind hbad.1, if_neg hkind]
  · have hlength : length ≤ buf.length := by
      refine Nat.not_lt.1 fun hshort => ?_
      rw [decodeHeader_of_short hshort] at hread
      cases hread
    have hheader : headerAt buf 0 = .ok h := by
      rw [decodeHeader_eq hlength] at hread
      exact Except.ok.inj hread
    obtain ⟨htarget, hbytes⟩ := bytes_of_headerAt hlength hheader
    refine ⟨htarget, fun other hroom => ⟨_, h.encode_of_room hroom, ?_, ?_, ?_⟩⟩
    · rw [List.take_left' h.length_bytes, hbytes]
    · exact List.drop_left' h.length_bytes
    · rw [hread]
      exact (h.decode_written_eq_iff _).2 htarget
  · have hencode : h.encode buf = .error .malformedHeader := if_pos hshort
    rw [hencode] at hfill
    exact ⟨decodeHeader_of_short hshort, hencode, hfill⟩

/-- An acknowledgement with a stray target and ones for padding is read, and written over a longer
buffer without them. Its first 27 bytes are not read. A proposal that names no path is written there
too, and not read, and an acknowledgement that names one is read without it. -/
theorem stray_target_cleared :
    let stray : Bytes := [0, 2] ++ word64Bytes 5 ++ [3] ++ word64Bytes 0 ++ word64Bytes 9 ++ [0xff]
    let longer : Bytes := List.replicate 30 0xaa
    let ack : Header := { repathAck 9 with timestamp := 5 }
    (decode stray).run = .ok (.ok ack) ∧
      (∃ again, ack.encode longer = .ok again ∧
        again = [0, 2] ++ word64Bytes 5 ++ [0] ++ word64Bytes 0 ++ word64Bytes 9 ++
          [0, 0xaa, 0xaa] ∧
        (decode again).run = .ok (.ok ack)) ∧
      (decode (stray.take 27)).run = .ok (.error .malformedHeader) ∧
      (∃ written, (fill (blank .repath)).run.run longer = .ok (.ok (), written) ∧
        (decode written).run = .ok (.error (.invalidPath 0))) ∧
      ∃ written, encode { ack with target := some .first } longer = .ok written ∧
        (decode written).run = .ok (.ok ack) := by
  intro stray longer ack
  have hread : (decode stray).run = .ok (.ok ack) := rfl
  obtain ⟨-, hinverse, -⟩ := inverse_up_to_padding ack stray
  obtain ⟨-, hagain⟩ := hinverse hread
  obtain ⟨again, hencode, hfront, hbehind, hdecode⟩ := hagain longer (by decide)
  obtain ⟨hwrite, -, -⟩ := inverse_up_to_padding (blank .repath) longer
  obtain ⟨-, hfill, -, -, hnowhere, -⟩ := hwrite (by decide)
  obtain ⟨hnamed, -, -⟩ := inverse_up_to_padding { ack with target := some .first } longer
  obtain ⟨hwritten, -, -, -, -, hcleared⟩ := hnamed (by decide)
  obtain ⟨-, -, hshort⟩ := inverse_up_to_padding ack (stray.take 27)
  refine ⟨hread, ⟨again, hencode, ?_, hdecode.trans hread⟩, (hshort (by decide)).1,
    ⟨_, hfill, hnowhere rfl rfl⟩, _, hwritten, hcleared (by decide)⟩
  rw [← List.take_append_drop length again, hfront, hbehind]
  rfl

end Header

end PathControl.Wire
