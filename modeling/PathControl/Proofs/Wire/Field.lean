import PathControl.Wire.Bytes

/-!
# Fields of a byte string

`octet`, `word16` and `word64` are the fields at a position. They are total: behind the end of the
bytes stand zeros. `window` is the bytes that a field is made of.

* `byteAt_eq`, `word16At_eq`, `word64At_eq`: a read that stays inside the bytes is the field there.
* `word64Bytes_word64`: reading a word and writing it again changes nothing.
* `octet_drop`, `octet_take` and their kin: a field of a part is a field of the whole.
* `word16_congr`, `word64_congr`: a field depends on its own bytes only.
-/

namespace PathControl.Wire

/-- The byte at a position. -/
def octet (bs : Bytes) (i : Nat) : UInt8 := bs.getD i 0

/-- The `len` bytes from a position on. -/
def window (bs : Bytes) (i len : Nat) : Bytes := (List.range len).map fun j => octet bs (i + j)

/-- The 16-bit word at a position. -/
def word16 (bs : Bytes) (i : Nat) : UInt16 := UInt16.ofNat (joinBytes (window bs i 2))

/-- The 64-bit word at a position. -/
def word64 (bs : Bytes) (i : Nat) : UInt64 := UInt64.ofNat (joinBytes (window bs i 8))

variable {bs cs : Bytes} {i len n : Nat}

/-! ### Reads -/

/-- An octet within the bytes is the byte there. -/
theorem octet_eq_getElem (h : i < bs.length) : octet bs i = bs[i] :=
  (List.getElem_eq_getD 0).symm

/-- A slice within the bytes is the window there. -/
theorem slice_eq_window (h : i + len ≤ bs.length) : slice bs i len = .ok (window bs i len) := by
  rw [slice_eq_ok h, Except.ok.injEq]
  apply List.ext_getElem
  · simp only [window, List.length_take, List.length_drop, List.length_map, List.length_range]
    omega
  · intro j _ hj
    simp only [window, List.length_map, List.length_range] at hj
    simp only [window, List.getElem_map, List.getElem_range, List.getElem_take, List.getElem_drop]
    exact (octet_eq_getElem (by omega)).symm

/-- A byte that can be read is the octet there. -/
theorem byteAt_eq (h : i < bs.length) : byteAt bs i = .ok (octet bs i) := by
  rw [byteAt_eq_ok h, octet_eq_getElem h]

/-- A word of 16 bits that can be read is the one there. -/
theorem word16At_eq (h : i + 2 ≤ bs.length) : word16At bs i = .ok (word16 bs i) := by
  rw [word16At, slice_eq_window h]
  rfl

/-- A word of 64 bits that can be read is the one there. -/
theorem word64At_eq (h : i + 8 ≤ bs.length) : word64At bs i = .ok (word64 bs i) := by
  rw [word64At, slice_eq_window h]
  rfl

/-- The front of the bytes is a window. -/
theorem take_eq_window (h : n ≤ bs.length) : bs.take n = window bs 0 n := by
  have hbound : 0 + n ≤ bs.length := (Nat.zero_add n).symm ▸ h
  have hslice := slice_eq_window hbound
  rw [slice_eq_ok hbound] at hslice
  exact Except.ok.inj hslice

/-- A word that is read is written back as the bytes it was read from. -/
theorem word64Bytes_word64 (bs : Bytes) (i : Nat) : word64Bytes (word64 bs i) = window bs i 8 := by
  have hoctet := fun j => (octet bs (i + j)).toNat_lt
  have h0 := hoctet 0
  have h1 := hoctet 1
  have h2 := hoctet 2
  have h3 := hoctet 3
  have h4 := hoctet 4
  have h5 := hoctet 5
  have h6 := hoctet 6
  have h7 := hoctet 7
  have hwindow : window bs i 8 = [octet bs (i + 0), octet bs (i + 1), octet bs (i + 2),
    octet bs (i + 3), octet bs (i + 4), octet bs (i + 5), octet bs (i + 6), octet bs (i + 7)] := rfl
  rw [word64, hwindow]
  simp only [word64Bytes, joinBytes, List.foldl_cons, List.foldl_nil, List.map_cons, List.map_nil,
    UInt64.toNat_ofNat', List.cons.injEq, ← UInt8.toNat_inj, UInt8.toNat_ofNat',
    Nat.shiftRight_eq_div_pow, and_true]
  refine ⟨?_, ?_, ?_, ?_, ?_, ?_, ?_, ?_⟩ <;> omega

/-! ### Parts -/

/-- Dropping a front moves every octet. -/
theorem octet_drop : octet (bs.drop n) i = octet bs (n + i) := by
  simp only [octet, List.getD_eq_getElem?_getD, List.getElem?_drop]

/-- Taking a front keeps the octets in it. -/
theorem octet_take (h : i < n) : octet (bs.take n) i = octet bs i := by
  simp only [octet, List.getD_eq_getElem?_getD, List.getElem?_take_of_lt h]

/-- Dropping a front moves every window. -/
theorem window_drop : window (bs.drop n) i len = window bs (n + i) len := by
  simp only [window, octet_drop, Nat.add_assoc]

/-- Taking a front keeps the windows in it. -/
theorem window_take (h : i + len ≤ n) : window (bs.take n) i len = window bs i len := by
  refine List.map_congr_left fun j hj => octet_take ?_
  have := List.mem_range.1 hj
  omega

/-- Dropping a front moves every word of 16 bits. -/
theorem word16_drop : word16 (bs.drop n) i = word16 bs (n + i) := by
  rw [word16, window_drop, word16]

/-- Dropping a front moves every word of 64 bits. -/
theorem word64_drop : word64 (bs.drop n) i = word64 bs (n + i) := by
  rw [word64, window_drop, word64]

/-- Taking a front keeps the words of 64 bits in it. -/
theorem word64_take (h : i + 8 ≤ n) : word64 (bs.take n) i = word64 bs i := by
  rw [word64, window_take h, word64]

/-- A part of some bytes, with what stands before and behind it. -/
theorem exists_parts (h : i + n ≤ bs.length) :
    ∃ front part back, bs = front ++ (part ++ back) ∧ front.length = i ∧ part.length = n := by
  refine ⟨bs.take i, (bs.drop i).take n, (bs.drop i).drop n, ?_, ?_, ?_⟩
  · rw [List.take_append_drop, List.take_append_drop]
  · rw [List.length_take]
    omega
  · rw [List.length_take, List.length_drop]
    omega

/-! ### Agreement -/

/-- A window depends on its own octets only. -/
theorem window_congr (h : ∀ j < len, octet bs (i + j) = octet cs (i + j)) :
    window bs i len = window cs i len :=
  List.map_congr_left fun j hj => h j (List.mem_range.1 hj)

/-- A word of 16 bits depends on its two octets only. -/
theorem word16_congr (h : ∀ j < 2, octet bs (i + j) = octet cs (i + j)) :
    word16 bs i = word16 cs i := by
  rw [word16, window_congr h, word16]

/-- A word of 64 bits depends on its eight octets only. -/
theorem word64_congr (h : ∀ j < 8, octet bs (i + j) = octet cs (i + j)) :
    word64 bs i = word64 cs i := by
  rw [word64, window_congr h, word64]

end PathControl.Wire
