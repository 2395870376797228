import PathControl.Proofs.Text.Numeral
import PathControl.Wire.HardwareAddress

/-!
# Texts of hardware addresses

Which texts are read as a hardware address, and which of them is the one that is written.

* `Spells`: the texts of an address. `parse_eq_ok_iff`: they are what is read as it.
* `Canonical`: the texts that are written. `text_canonical`, `exists_text_eq`: they are those of
  the addresses. `parse_text`: each is read back.
* `text_grammar`: all of this about one text.
-/

namespace PathControl.Wire.HardwareAddress

open PathControl.Text

/-! ### Lists -/

section Lists

variable {α β : Type} {as : List α}

/-- Reading all items of a list is reading each of them. -/
theorem mapM_eq_some_iff {f : α → Option β} {bs : List β} :
    as.mapM f = some bs ↔ List.Forall₂ (fun a b => f a = some b) as bs := by
  induction as generalizing bs with
  | nil =>
    rw [List.mapM_nil, List.forall₂_nil_left_iff]
    exact Option.some_inj.trans eq_comm
  | cons a as ih =>
    rw [List.mapM_cons, List.forall₂_cons_left_iff]
    simp only [Option.bind_eq_bind, Option.bind_eq_some_iff, ih, Option.pure_def, Option.some.injEq]
    constructor
    · rintro ⟨b, hb, bs, hbs, rfl⟩
      exact ⟨b, bs, hb, hbs, rfl⟩
    · rintro ⟨b, bs, hb, hbs, rfl⟩
      exact ⟨b, hb, bs, hbs, rfl⟩

/-- Each item has a partner exactly if the whole list has a list of partners. -/
theorem forall_exists_iff_exists_forall₂ {R : α → β → Prop} :
    (∀ a ∈ as, ∃ b, R a b) ↔ ∃ bs, List.Forall₂ R as bs := by
  induction as with
  | nil => exact iff_of_true (List.forall_mem_nil _) ⟨[], .nil⟩
  | cons a as ih =>
    rw [List.forall_mem_cons, ih]
    constructor
    · rintro ⟨⟨b, hb⟩, bs, hbs⟩
      exact ⟨b :: bs, .cons hb hbs⟩
    · rintro ⟨all, hall⟩
      obtain ⟨b, bs, hb, hbs, rfl⟩ := List.forall₂_cons_left_iff.1 hall
      exact ⟨⟨b, hb⟩, bs, hbs⟩

end Lists

variable {s : String} {m : HardwareAddress} {part : List Char} {octet : UInt8}

/-! ### What is read -/

/-- Whether a part of a text spells an octet: with one plus sign or none, then hexadecimal digits of
either case, at least one and with any number of leading zeros. -/
def SpellsOctet (part : List Char) (octet : UInt8) : Prop :=
  ∃ digits values, (part = digits ∨ part = '+' :: digits) ∧ digits ≠ [] ∧
    List.Forall₂ HexDigit digits values ∧ Nat.ofDigits 16 values.reverse = octet.toNat

/-- Whether a text spells an address: its parts between colons spell the six octets in order. -/
def Spells (s : String) (m : HardwareAddress) : Prop :=
  List.Forall₂ SpellsOctet (s.toList.splitOn ':') m.octets

/-- A part is read as the octet that its hexadecimal number is. -/
theorem octetOfPart?_eq_some_iff :
    octetOfPart? part = some octet ↔ number? 16 256 part = .ok octet.toNat := by
  unfold octetOfPart?
  rcases hpart : number? 16 256 part with e | n
  · simp
  · obtain ⟨-, -, -, -, hn⟩ := (number?_eq_ok_iff (by decide)).1 hpart
    rw [Option.some.injEq, Except.ok.injEq, ← UInt8.toNat_inj, UInt8.toNat_ofNat_of_lt' hn]

/-- The parts that are read are those that spell an octet. -/
theorem octetOfPart?_eq_some_iff_spellsOctet :
    octetOfPart? part = some octet ↔ SpellsOctet part octet := by
  rw [octetOfPart?_eq_some_iff, number?_eq_ok_iff (by decide)]
  simp only [Numeral, digitValue?_eq_some_iff_hexDigit]
  constructor
  · rintro ⟨digits, hpart, hsome, ⟨values, hvalues, hvalue⟩, -⟩
    exact ⟨digits, values, hpart, hsome, hvalues, hvalue⟩
  · rintro ⟨digits, values, hpart, hsome, hvalues, hvalue⟩
    exact ⟨digits, hpart, hsome, ⟨values, hvalues, hvalue⟩, octet.toNat_lt⟩

/-- Octets make an address exactly if they are its octets. -/
theorem ofOctets?_eq_some_iff {octets : List UInt8} :
    ofOctets? octets = some m ↔ octets = m.octets := by
  constructor
  · intro h
    unfold ofOctets? at h
    split at h
    · cases h
      rfl
    · cases h
  · rintro rfl
    exact ofOctets?_octets m

/-- Six octets are those of an address. -/
theorem exists_octets_eq {octets : List UInt8} (h : octets.length = 6) :
    ∃ m : HardwareAddress, m.octets = octets := by
  match octets, h with
  | [a, b, c, d, e, f], _ => exact ⟨⟨a, b, c, d, e, f⟩, rfl⟩

/-- The characters that are read as an address are those of texts that spell it. -/
theorem ofChars?_eq_some_iff : ofChars? s.toList = some m ↔ Spells s m := by
  rw [ofChars?, Option.bind_eq_some_iff, splitOn_eq]
  simp only [ofOctets?_eq_some_iff, exists_eq_right, mapM_eq_some_iff,
    octetOfPart?_eq_some_iff_spellsOctet]
  rfl

/-- The texts that are read as an address are those that spell it. -/
theorem parse_eq_ok_iff : parse s = .ok m ↔ Spells s m := by
  rw [← ofChars?_eq_some_iff, parse]
  rcases ofChars? s.toList with _ | m' <;> simp

/-- A text that is not read is reported. -/
theorem parse_eq_error_iff :
    parse s = .error (.malformedPacket (.badHardwareAddress s)) ↔ ¬∃ m, Spells s m := by
  simp only [← ofChars?_eq_some_iff, parse]
  rcases ofChars? s.toList with _ | m' <;> simp

/-- Six parts that each spell an octet spell an address. -/
theorem exists_spells_iff :
    (∃ m, Spells s m) ↔ (s.toList.splitOn ':').length = 6 ∧
      ∀ part ∈ s.toList.splitOn ':', ∃ octet, SpellsOctet part octet := by
  rw [forall_exists_iff_exists_forall₂]
  constructor
  · rintro ⟨m, hm⟩
    exact ⟨hm.length_eq, m.octets, hm⟩
  · rintro ⟨hlength, octets, hoctets⟩
    obtain ⟨m, rfl⟩ := exists_octets_eq (hoctets.length_eq.symm.trans hlength)
    exact ⟨m, hoctets⟩

/-! ### What is written -/

/-- Whether a part of a text is two hexadecimal digits, letters in lower case. -/
def HexPair (part : List Char) : Prop := ∃ high ∈ hexDigits, ∃ low ∈ hexDigits, part = [high, low]

/-- Whether a text is six pairs of hexadecimal digits between colons, letters in lower case. -/
def Canonical (s : String) : Prop :=
  (s.toList.splitOn ':').length = 6 ∧ ∀ part ∈ s.toList.splitOn ':', HexPair part

-- the instances are named, for a search could also go through all characters
instance (part : List Char) : Decidable (HexPair part) :=
  @List.decidableBEx _ _ (fun high =>
    @List.decidableBEx _ _ (fun low => decEq part [high, low]) hexDigits) hexDigits

instance (s : String) : Decidable (Canonical s) := inferInstanceAs (Decidable (_ ∧ _))

/-- No octet is written with a colon. -/
theorem colon_not_mem_hexByte (byte : UInt8) : ':' ∉ hexByte byte := by
  obtain ⟨high, hhigh, low, hlow, hbyte⟩ := hexByte_mem byte
  have hcolon : ':' ∉ hexDigits := by decide
  rw [hbyte]
  rintro (_ | ⟨_, _ | ⟨_, hnil⟩⟩)
  · exact hcolon hhigh
  · exact hcolon hlow
  · cases hnil

/-- The parts of a written text are the octets. -/
theorem splitOn_text (m : HardwareAddress) : m.text.toList.splitOn ':' = m.octets.map hexByte := by
  rw [text, String.toList_ofList, chars]
  apply List.splitOn_intercalate
  · intro part hpart
    obtain ⟨octet, -, rfl⟩ := List.mem_map.1 hpart
    exact colon_not_mem_hexByte octet
  · exact List.cons_ne_nil _ _

/-- Every address is written with 17 characters. -/
theorem length_text (m : HardwareAddress) : m.text.length = 17 := by
  rw [text, String.length_ofList]
  rfl

/-- What is written is canonical. -/
theorem text_canonical (m : HardwareAddress) : Canonical m.text := by
  unfold Canonical
  rw [splitOn_text]
  refine ⟨rfl, fun part hpart => ?_⟩
  obtain ⟨octet, -, rfl⟩ := List.mem_map.1 hpart
  exact hexByte_mem octet

/-- A written address is read back. -/
theorem parse_text (m : HardwareAddress) : parse m.text = .ok m := by
  rw [parse_eq_ok_iff, Spells, splitOn_text, List.forall₂_map_left_iff, List.forall₂_same]
  intro octet _
  rw [← octetOfPart?_eq_some_iff_spellsOctet, octetOfPart?_eq_some_iff]
  exact number?_hexByte octet

/-- Every canonical text is written for some address. -/
theorem exists_text_eq (h : Canonical s) : ∃ m : HardwareAddress, m.text = s := by
  obtain ⟨hlength, hpairs⟩ := h
  have hbytes : ∀ part ∈ s.toList.splitOn ':', ∃ byte, part = hexByte byte := fun part hpart => by
    obtain ⟨high, hhigh, low, hlow, rfl⟩ := hpairs part hpart
    obtain ⟨byte, hbyte⟩ := exists_hexByte hhigh hlow
    exact ⟨byte, hbyte.symm⟩
  obtain ⟨octets, hoctets⟩ := forall_exists_iff_exists_forall₂.1 hbytes
  obtain ⟨m, rfl⟩ := exists_octets_eq (hoctets.length_eq.symm.trans hlength)
  have hparts : s.toList.splitOn ':' = m.octets.map hexByte := by
    rw [← List.forall₂_eq_eq_eq, List.forall₂_map_right_iff]
    exact hoctets
  exact ⟨m, by rw [text, chars, ← hparts, List.intercalate_splitOn, String.ofList_toList]⟩

/-! ### Both -/

/-- **The texts of hardware addresses.** A text is read as an address exactly if it has six parts
between colons, each of which spells an octet, with one plus sign or none, then digits of either
case and any number of leading zeros; the address has these octets in order. Any other text is
reported.

What is written for an address is a canonical text of 17 characters, which is read back as that
address. Each canonical text is read, and written for what was read. -/
theorem text_grammar (s : String) :
    (∀ m : HardwareAddress,
      parse s = .ok m ↔ List.Forall₂ SpellsOctet (s.toList.splitOn ':') m.octets) ∧
    (parse s = .error (.malformedPacket (.badHardwareAddress s)) ↔
      ¬((s.toList.splitOn ':').length = 6 ∧
        ∀ part ∈ s.toList.splitOn ':', ∃ octet, SpellsOctet part octet)) ∧
    (∀ m : HardwareAddress, Canonical m.text ∧ m.text.length = 17 ∧ parse m.text = .ok m) ∧
    (Canonical s → ∃ m, parse s = .ok m ∧ m.text = s) := by
  refine ⟨fun m => parse_eq_ok_iff, ?_, fun m => ⟨m.text_canonical, m.length_text, m.parse_text⟩,
    fun h => ?_⟩
  · rw [← exists_spells_iff]
    exact parse_eq_error_iff
  · obtain ⟨m, rfl⟩ := exists_text_eq h
    exact ⟨m, m.parse_text, rfl⟩

/-- A text with a plus sign, capital letters, superfluous zeros and short parts is read, and written
in its canonical form. A colon more at its end, and it is not read. -/
theorem careless_text_is_read :
    let m : HardwareAddress := ⟨0x08, 0xc0, 0xeb, 0xbf, 0x0e, 0x9a⟩
    parse "+8:C0:eB:00bf:e:9a" = .ok m ∧
      (∃ m', parse "08:c0:eb:bf:0e:9a" = .ok m' ∧ m'.text = "08:c0:eb:bf:0e:9a") ∧
      m.text = "08:c0:eb:bf:0e:9a" ∧
      parse "+8:C0:eB:00bf:e:9a:" =
        .error (.malformedPacket (.badHardwareAddress "+8:C0:eB:00bf:e:9a:")) := by
  intro m
  have hspells : List.Forall₂ SpellsOctet ("+8:C0:eB:00bf:e:9a".toList.splitOn ':') m.octets := by
    refine .cons ⟨['8'], [8], .inr rfl, ?_⟩ (.cons ⟨['C', '0'], [12, 0], .inl rfl, ?_⟩
      (.cons ⟨['e', 'B'], [14, 11], .inl rfl, ?_⟩
      (.cons ⟨['0', '0', 'b', 'f'], [0, 0, 11, 15], .inl rfl, ?_⟩
      (.cons ⟨['e'], [14], .inl rfl, ?_⟩ (.cons ⟨['9', 'a'], [9, 10], .inl rfl, ?_⟩ .nil)))))
    all_goals exact ⟨by decide, by decide, by decide⟩
  refine ⟨((text_grammar _).1 m).2 hspells, (text_grammar _).2.2.2 (by decide), by decide,
    (text_grammar _).2.1.2 fun h => absurd h.1 (by decide)⟩

end PathControl.Wire.HardwareAddress
