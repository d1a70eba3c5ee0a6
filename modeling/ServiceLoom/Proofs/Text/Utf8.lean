import Mathlib.Data.String.Basic
import ServiceLoom.Proofs.Text.Ascii

/-!
# Texts as bytes

A text is kept in UTF-8. Lowering the case of ASCII letters byte by byte is lowering it character by
character, since every byte of a longer character is above all letters; and no encoding is the start
of another one that does not go on at a character. So a comparison of bytes finds a name exactly
where a comparison of characters does, and what it finds ends between two characters.
-/

namespace ServiceLoom.Text

def bytes (s : List Char) : List UInt8 := s.flatMap String.utf8EncodeChar

def size (s : List Char) : Nat := (String.ofList s).utf8ByteSize

@[simp] theorem size_nil : size [] = 0 := rfl

@[simp] theorem size_append (s t : List Char) : size (s ++ t) = size s + size t := by
  simp only [size, String.ofList_append, String.utf8ByteSize_append]

theorem utf8ByteSize_ofList_cons (c : Char) (s : List Char) :
    (String.ofList (c :: s)).utf8ByteSize = c.utf8Size + (String.ofList s).utf8ByteSize := by
  rw [String.ofList_cons, String.utf8ByteSize_append, String.utf8ByteSize_singleton]

@[simp] theorem size_cons (c : Char) (s : List Char) : size (c :: s) = c.utf8Size + size s :=
  utf8ByteSize_ofList_cons c s

theorem size_toList (s : String) : size s.toList = s.utf8ByteSize := by
  rw [size, String.ofList_toList]

theorem length_le_iff_size_le {p q s : List Char} (hp : p <+: s) (hq : q <+: s) :
    p.length ≤ q.length ↔ size p ≤ size q := by
  constructor
  · intro h
    obtain ⟨rest, rfl⟩ := List.prefix_of_prefix_length_le hp hq h
    rw [size_append]
    exact Nat.le_add_right _ _
  · intro h
    by_contra hlength
    obtain ⟨rest, rfl⟩ := List.prefix_of_prefix_length_le hq hp (by omega)
    cases rest with
    | nil => simp at hlength
    | cons c rest =>
      have := c.utf8Size_pos
      rw [size_append, size_cons] at h
      omega

theorem length_bytes (s : List Char) : (bytes s).length = size s := by
  induction s with
  | nil => rfl
  | cons c s ih =>
    rw [bytes, List.flatMap_cons, List.length_append, String.length_utf8EncodeChar, size_cons, ← ih,
      bytes]

theorem utf8Encode_eq (s : List Char) : s.utf8Encode = (bytes s).toByteArray := rfl

theorem isPrefix_of_bytes {s t : List Char} (h : bytes s <+: bytes t) : s <+: t := by
  obtain ⟨rest, hrest⟩ := h
  apply List.isPrefix_of_utf8Encode_append_eq_utf8Encode rest.toByteArray
  rw [utf8Encode_eq, utf8Encode_eq, ← hrest, List.toByteArray_append]

def lowerByte (b : UInt8) : UInt8 := if 65 ≤ b ∧ b ≤ 90 then b + 32 else b

theorem lowerByte_ofNat {n : Nat} (hn : n < 128) :
    lowerByte (UInt8.ofNat n) = UInt8.ofNat (if 65 ≤ n ∧ n ≤ 90 then n + 32 else n) := by
  have hnat : (UInt8.ofNat n).toNat = n := UInt8.toNat_ofNat_of_lt (show n < 256 by omega)
  have hrange : 65 ≤ UInt8.ofNat n ∧ UInt8.ofNat n ≤ 90 ↔ 65 ≤ n ∧ n ≤ 90 := by
    rw [UInt8.le_iff_toNat_le, UInt8.le_iff_toNat_le, hnat]
    exact Iff.rfl
  unfold lowerByte
  by_cases h : 65 ≤ n ∧ n ≤ 90
  · rw [if_pos (hrange.mpr h), if_pos h, UInt8.ofNat_add]
    rfl
  · rw [if_neg (fun hb => h (hrange.mp hb)), if_neg h]

theorem lowerByte_of_high {b : UInt8} (h : 128 ≤ b.toNat) : lowerByte b = b := by
  unfold lowerByte
  rw [if_neg]
  rintro ⟨_, hhigh⟩
  have : b.toNat ≤ 90 := UInt8.le_iff_toNat_le.mp hhigh
  omega

theorem high_of_mem_utf8EncodeChar {c : Char} (hc : 128 ≤ c.toNat) {b : UInt8}
    (hb : b ∈ String.utf8EncodeChar c) : 128 ≤ b.toNat := by
  have hmax : c.toNat < 1114112 := by
    have := c.valid
    rw [UInt32.isValidChar, Nat.isValidChar, Char.toNat_val] at this
    omega
  have hlead : ∀ n, 128 ≤ n % 256 → b = UInt8.ofNat n → 128 ≤ b.toNat := by
    rintro n hn rfl
    rwa [UInt8.toNat_ofNat']
  unfold String.utf8EncodeChar at hb
  simp only [Char.toNat_val, if_neg (show ¬ c.toNat ≤ 127 by omega)] at hb
  -- two, three or four bytes
  split at hb
  · simp only [List.mem_cons, List.not_mem_nil, or_false] at hb
    rcases hb with h | h <;> exact hlead _ (by omega) h
  · split at hb
    · simp only [List.mem_cons, List.not_mem_nil, or_false] at hb
      rcases hb with h | h | h <;> exact hlead _ (by omega) h
    · simp only [List.mem_cons, List.not_mem_nil, or_false] at hb
      rcases hb with h | h | h | h <;> exact hlead _ (by omega) h

theorem utf8EncodeChar_ascii {c : Char} (hc : c.toNat < 128) :
    String.utf8EncodeChar c = [UInt8.ofNat c.toNat] := by
  unfold String.utf8EncodeChar
  simp only [Char.toNat_val]
  rw [if_pos (by omega)]

theorem toNat_toLower (c : Char) :
    c.toLower.toNat = if 65 ≤ c.toNat ∧ c.toNat ≤ 90 then c.toNat + 32 else c.toNat := by
  by_cases h : 65 ≤ c.toNat ∧ c.toNat ≤ 90
  · rw [if_pos h, toNat_toLower_of_upper (isAsciiUpper_iff.mpr h)]
  · have hupper : isAsciiUpper c = false := by
      rw [← Bool.not_eq_true, isAsciiUpper_iff]
      exact h
    rw [if_neg h, toLower_of_not_upper hupper]

theorem map_lowerByte_utf8EncodeChar (c : Char) :
    (String.utf8EncodeChar c).map lowerByte = String.utf8EncodeChar c.toLower := by
  by_cases hc : c.toNat < 128
  · have hlower : c.toLower.toNat < 128 := by
      rw [toNat_toLower]
      split <;> omega
    rw [utf8EncodeChar_ascii hc, utf8EncodeChar_ascii hlower, List.map_singleton,
      lowerByte_ofNat hc, toNat_toLower]
  · have hupper : isAsciiUpper c = false := by
      rw [← Bool.not_eq_true, isAsciiUpper_iff]
      omega
    rw [toLower_of_not_upper hupper]
    calc (String.utf8EncodeChar c).map lowerByte
        = (String.utf8EncodeChar c).map id := by
          apply List.map_congr_left
          intro b hb
          exact lowerByte_of_high (high_of_mem_utf8EncodeChar (by omega) hb)
      _ = String.utf8EncodeChar c := List.map_id _

theorem map_lowerByte_bytes (s : List Char) :
    (bytes s).map lowerByte = bytes (s.map Char.toLower) := by
  induction s with
  | nil => rfl
  | cons c s ih =>
    rw [bytes, List.flatMap_cons, List.map_append, map_lowerByte_utf8EncodeChar, ← bytes, ih,
      List.map_cons, bytes, bytes, List.flatMap_cons]

theorem size_map_toLower (s : List Char) : size (s.map Char.toLower) = size s := by
  rw [← length_bytes, ← map_lowerByte_bytes, List.length_map, length_bytes]

/-- Whether the first bytes of `s` are those of `name`, up to the case of ASCII letters. -/
def startsWithBytes (name s : List UInt8) : Bool :=
  decide (name.length ≤ s.length) && (s.take name.length).map lowerByte == name.map lowerByte

theorem startsWithBytes_eq (name s : List Char) :
    startsWithBytes (bytes name) (bytes s) = startsWithFold name s := by
  rw [Bool.eq_iff_iff, startsWithFold_iff, startsWithBytes, Bool.and_eq_true, decide_eq_true_eq,
    beq_iff_eq]
  constructor
  · rintro ⟨hlength, htake⟩
    have hlead : bytes (name.map Char.toLower) <+: bytes (s.map Char.toLower) := by
      rw [← map_lowerByte_bytes, ← map_lowerByte_bytes, ← htake]
      exact (List.take_prefix _ _).map lowerByte
    obtain ⟨rest, hrest⟩ := isPrefix_of_bytes hlead
    obtain ⟨spelling, tail, hs, hspelling, _⟩ := List.map_eq_append_iff.mp hrest.symm
    exact ⟨spelling, tail, hs, hspelling⟩
  · rintro ⟨spelling, rest, rfl, hspelling⟩
    have hsize : (bytes name).length = (bytes spelling).length := by
      rw [length_bytes, length_bytes, ← size_map_toLower, ← hspelling, size_map_toLower]
    have hbytes : bytes (spelling ++ rest) = bytes spelling ++ bytes rest :=
      List.flatMap_append
    rw [hbytes, hsize, List.take_left, map_lowerByte_bytes, map_lowerByte_bytes, hspelling]
    exact ⟨by simp, rfl⟩

/-- What stops a run over bytes. -/
inductive Trap where
  /-- A slice whose ends are out of order, past the text or inside a character. -/
  | slice (start stop : Nat)
  /-- A count taken below zero, at a byte offset. -/
  | underflow (offset : Nat)
  deriving DecidableEq, Repr

/-- The bytes of a text from one offset up to another. -/
def slice (s : String) (start stop : Nat) : Except Trap String :=
  if start ≤ stop ∧ String.Pos.Raw.isValid s ⟨start⟩ ∧ String.Pos.Raw.isValid s ⟨stop⟩ then
    .ok (String.Pos.Raw.extract s ⟨start⟩ ⟨stop⟩)
  else .error (.slice start stop)

theorem isValid_size {s : String} {lead rest : List Char} (h : s.toList = lead ++ rest) :
    String.Pos.Raw.IsValid s ⟨size lead⟩ := by
  apply String.Pos.Raw.isValid_iff_exists_append.mpr
  refine ⟨String.ofList lead, String.ofList rest, ?_, rfl⟩
  rw [← String.ofList_append, ← h, String.ofList_toList]

theorem slice_eq (lead mid rest : List Char) {s : String} (h : s.toList = lead ++ mid ++ rest) :
    slice s (size lead) (size lead + size mid) = .ok (String.ofList mid) := by
  have hstart := isValid_size (h.trans (List.append_assoc lead mid rest))
  have hstop := isValid_size h
  rw [size_append] at hstop
  have hextract := String.extract_of_valid lead mid rest
  rw [← String.utf8ByteSize_ofList, ← String.utf8ByteSize_ofList, ← h, String.ofList_toList]
    at hextract
  unfold slice
  rw [if_pos ⟨Nat.le_add_right _ _, String.Pos.Raw.isValid_eq_true_iff.mpr hstart,
    String.Pos.Raw.isValid_eq_true_iff.mpr hstop⟩]
  exact congrArg Except.ok hextract

end ServiceLoom.Text
