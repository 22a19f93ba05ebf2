import Mathlib.Data.List.Forall2
import NaturalDeduction.Workspace.ScriptFile

/-!
# Encoded texts

The UTF-8 encoding of a text is decoded as the text. A character is encoded by one to four bytes,
each of them in the range that the bytes before it leave open.

## Main definitions

* `Text.Utf8.InRange`: a byte lies in a range
* `Text.Utf8.Encodes`: bytes are the encoding of a character

## Main statements

* `Text.Utf8.exists_encodes`: every character is encoded by such bytes
* `Text.Utf8.decode_toUTF8`: an encoded text is decoded
* `Text.ofFile_toUTF8`: a text without carriage returns is read from its file as it is
-/

namespace NaturalDeduction.Text

namespace Utf8

variable {ranges : List (UInt8 × UInt8)} {taken : List UInt8} {lead low high : UInt8}

/-! ## Following bytes -/

/-- The byte lies between the bounds of the range. -/
def InRange (range : UInt8 × UInt8) (b : UInt8) : Prop := range.1 ≤ b ∧ b ≤ range.2

theorem takeFollowers_append (h : List.Forall₂ InRange ranges taken) (rest : List UInt8) :
    takeFollowers ranges (taken ++ rest) = (taken, none, rest) := by
  induction h with
  | nil => rfl
  | cons hb _ ih => simp [takeFollowers, hb.1, hb.2, ih]

theorem decodeFrom_cons (hlead : followers lead = some ranges)
    (htaken : List.Forall₂ InRange ranges taken) (position : Nat) (before : List Char)
    (rest : List UInt8) :
    decodeFrom position before (lead :: (taken ++ rest)) =
      decodeFrom (position + 1 + taken.length) (character lead taken :: before) rest := by
  rw [decodeFrom]
  simp only [hlead]
  split
  · rename_i hfault
    rw [takeFollowers_append htaken] at hfault
    cases hfault
  · rename_i htake
    rw [takeFollowers_append htaken] at htake
    cases htake
    rfl

theorem inRange_ofNat {n : Nat} (hlow : low.toNat ≤ n) (hhigh : n ≤ high.toNat) :
    InRange (low, high) (UInt8.ofNat n) := by
  have hlt : n < UInt8.size := Nat.lt_of_le_of_lt hhigh high.toNat_lt_size
  rw [InRange, UInt8.le_iff_toNat_le, UInt8.le_iff_toNat_le, UInt8.toNat_ofNat_of_lt' hlt]
  exact ⟨hlow, hhigh⟩

/-! ## Encoded characters -/

/-- Which bytes may follow a lead byte, in terms of numbers. -/
theorem followers_ofNat {n : Nat} (hn : n < 256) :
    followers (UInt8.ofNat n) =
      if n < 0x80 then some []
      else if n < 0xC2 then none
      else if n < 0xE0 then some [(0x80, 0xBF)]
      else if n = 0xE0 then some [(0xA0, 0xBF), (0x80, 0xBF)]
      else if n = 0xED then some [(0x80, 0x9F), (0x80, 0xBF)]
      else if n < 0xF0 then some [(0x80, 0xBF), (0x80, 0xBF)]
      else if n = 0xF0 then some [(0x90, 0xBF), (0x80, 0xBF), (0x80, 0xBF)]
      else if n < 0xF4 then some [(0x80, 0xBF), (0x80, 0xBF), (0x80, 0xBF)]
      else if n = 0xF4 then some [(0x80, 0x8F), (0x80, 0xBF), (0x80, 0xBF)]
      else none := by
  simp [followers, UInt8.lt_iff_toNat_lt, ← UInt8.toNat_inj, Nat.mod_eq_of_lt hn]

theorem leadBits_ofNat {n : Nat} (hn : n < 256) :
    leadBits (UInt8.ofNat n) =
      if n < 0x80 then n
      else if n < 0xE0 then n - 0xC0
      else if n < 0xF0 then n - 0xE0
      else n - 0xF0 := by
  simp [leadBits, UInt8.lt_iff_toNat_lt, Nat.mod_eq_of_lt hn]

theorem toNat_continuation (n : Nat) : (UInt8.ofNat (n % 64 + 128)).toNat = n % 64 + 128 :=
  UInt8.toNat_ofNat_of_lt' (by
    rw [UInt8.size]
    omega)

theorem inRange_continuation (n : Nat) : InRange (0x80, 0xBF) (UInt8.ofNat (n % 64 + 128)) :=
  inRange_ofNat (Nat.le_add_left _ _) (show n % 64 + 128 ≤ 0xBF by omega)

/-- The bytes are a lead byte and bytes in the ranges that may follow it, from which the character
is put together. -/
structure Encodes (lead : UInt8) (taken : List UInt8) (c : Char) : Prop where
  exists_ranges : ∃ ranges, followers lead = some ranges ∧ List.Forall₂ InRange ranges taken
  toNat_eq : taken.foldl (fun n b => 64 * n + (b.toNat - 0x80)) (leadBits lead) = c.toNat

section

variable {c : Char} {v : Nat} (hv : c.toNat = v)

include hv

theorem encodes_one (hle : v ≤ 0x7F) : Encodes (UInt8.ofNat v) [] c where
  exists_ranges := ⟨[], by rw [followers_ofNat (by omega), if_pos (by omega)], .nil⟩
  toNat_eq := by
    rw [leadBits_ofNat (by omega), if_pos (by omega), hv]
    rfl

theorem encodes_two (hge : 0x80 ≤ v) (hle : v ≤ 0x7FF) :
    Encodes (UInt8.ofNat (v / 64 % 32 + 192)) [UInt8.ofNat (v % 64 + 128)] c where
  exists_ranges := by
    refine ⟨[(0x80, 0xBF)], ?_, .cons (inRange_continuation v) .nil⟩
    rw [followers_ofNat (by omega), if_neg (by omega), if_neg (by omega), if_pos (by omega)]
  toNat_eq := by
    rw [leadBits_ofNat (by omega), if_neg (by omega), if_pos (by omega), hv]
    simp only [List.foldl_cons, List.foldl_nil, toNat_continuation]
    omega

theorem encodes_three (hge : 0x800 ≤ v) (hle : v ≤ 0xFFFF) :
    Encodes (UInt8.ofNat (v / 4096 % 16 + 224))
      [UInt8.ofNat (v / 64 % 64 + 128), UInt8.ofNat (v % 64 + 128)] c where
  exists_ranges := by
    have hvalid : v < 0xD800 ∨ 0xDFFF < v ∧ v < 0x110000 := hv ▸ c.valid
    have hlast : List.Forall₂ InRange [(0x80, 0xBF)] [UInt8.ofNat (v % 64 + 128)] :=
      .cons (inRange_continuation v) .nil
    rw [followers_ofNat (by omega), if_neg (by omega), if_neg (by omega), if_neg (by omega)]
    split_ifs with hoverlong hsurrogate hthree
    · have hsecond : 0xA0 ≤ v / 64 % 64 + 128 := by omega
      exact ⟨_, rfl, .cons (inRange_ofNat hsecond (show v / 64 % 64 + 128 ≤ 0xBF by omega)) hlast⟩
    · have hsecond : v / 64 % 64 + 128 ≤ 0x9F := by omega
      exact ⟨_, rfl, .cons (inRange_ofNat (Nat.le_add_left _ _) hsecond) hlast⟩
    · exact ⟨_, rfl, .cons (inRange_continuation _) hlast⟩
    all_goals omega
  toNat_eq := by
    rw [leadBits_ofNat (by omega), if_neg (by omega), if_neg (by omega), if_pos (by omega), hv]
    simp only [List.foldl_cons, List.foldl_nil, toNat_continuation]
    omega

theorem encodes_four (hge : 0x10000 ≤ v) :
    Encodes (UInt8.ofNat (v / 262144 % 8 + 240))
      [UInt8.ofNat (v / 4096 % 64 + 128), UInt8.ofNat (v / 64 % 64 + 128),
        UInt8.ofNat (v % 64 + 128)] c where
  exists_ranges := by
    have hvalid : v < 0xD800 ∨ 0xDFFF < v ∧ v < 0x110000 := hv ▸ c.valid
    have hlast : List.Forall₂ InRange [(0x80, 0xBF), (0x80, 0xBF)]
        [UInt8.ofNat (v / 64 % 64 + 128), UInt8.ofNat (v % 64 + 128)] :=
      .cons (inRange_continuation _) (.cons (inRange_continuation v) .nil)
    rw [followers_ofNat (by omega), if_neg (by omega), if_neg (by omega), if_neg (by omega),
      if_neg (by omega), if_neg (by omega), if_neg (by omega)]
    split_ifs with hoverlong hfour hgreatest
    · have hsecond : 0x90 ≤ v / 4096 % 64 + 128 := by omega
      exact ⟨_, rfl,
        .cons (inRange_ofNat hsecond (show v / 4096 % 64 + 128 ≤ 0xBF by omega)) hlast⟩
    · exact ⟨_, rfl, .cons (inRange_continuation _) hlast⟩
    · have hsecond : v / 4096 % 64 + 128 ≤ 0x8F := by omega
      exact ⟨_, rfl, .cons (inRange_ofNat (Nat.le_add_left _ _) hsecond) hlast⟩
    · omega
  toNat_eq := by
    have hvalid : v < 0xD800 ∨ 0xDFFF < v ∧ v < 0x110000 := hv ▸ c.valid
    rw [leadBits_ofNat (by omega), if_neg (by omega), if_neg (by omega), if_neg (by omega), hv]
    simp only [List.foldl_cons, List.foldl_nil, toNat_continuation]
    omega

end

theorem exists_encodes (c : Char) :
    ∃ lead taken, String.utf8EncodeChar c = lead :: taken ∧ Encodes lead taken c := by
  have hv : c.toNat = c.val.toNat := rfl
  simp only [String.utf8EncodeChar]
  split_ifs with hone htwo hthree
  · exact ⟨_, _, rfl, encodes_one hv hone⟩
  · exact ⟨_, _, rfl, encodes_two hv (by omega) htwo⟩
  · exact ⟨_, _, rfl, encodes_three hv (by omega) hthree⟩
  · exact ⟨_, _, rfl, encodes_four hv (by omega)⟩

/-! ## Encoded texts -/

theorem Encodes.decodeFrom_cons {c : Char} (h : Encodes lead taken c) (position : Nat)
    (before : List Char) (rest : List UInt8) :
    decodeFrom position before (lead :: (taken ++ rest)) =
      decodeFrom (position + 1 + taken.length) (c :: before) rest := by
  obtain ⟨ranges, hlead, htaken⟩ := h.exists_ranges
  rw [Utf8.decodeFrom_cons hlead htaken, character, h.toNat_eq, Char.ofNat_toNat]

theorem decodeFrom_encode (cs : List Char) (position : Nat) (before : List Char) :
    decodeFrom position before (cs.flatMap String.utf8EncodeChar) = .ok (before.reverse ++ cs) := by
  induction cs generalizing position before with
  | nil =>
    rw [List.flatMap_nil, decodeFrom, List.append_nil]
  | cons c cs ih =>
    obtain ⟨lead, taken, hbytes, hencodes⟩ := exists_encodes c
    rw [List.flatMap_cons, hbytes, List.cons_append, hencodes.decodeFrom_cons, ih]
    simp

/-- The encoding of a text is decoded as the text. -/
theorem decode_toUTF8 (text : String) : decode text.toUTF8.data.toList = .ok text := by
  have hbytes : text.toUTF8.data.toList = text.toList.flatMap String.utf8EncodeChar := by
    conv_lhs => rw [← String.ofList_toList (s := text), String.toUTF8_eq_toByteArray,
      String.toByteArray_ofList, List.utf8Encode]
    exact List.toList_data_toByteArray
  rw [decode, hbytes, decodeFrom_encode]
  simp [Except.map]

end Utf8

theorem unifyBreaks_eq_self {cs : List Char} (h : '\r' ∉ cs) : unifyBreaks cs = cs := by
  fun_induction unifyBreaks cs with
  | case1 => rfl
  | case2 cs ih => exact absurd List.mem_cons_self h
  | case3 c cs hnot ih =>
    rw [List.mem_cons, not_or] at h
    rw [if_neg (Ne.symm h.1), ih h.2]

/-- A text without carriage returns is read from its file as it is. -/
theorem ofFile_toUTF8 {text : String} (h : '\r' ∉ text.toList) :
    ofFile text.toUTF8.data.toList = .ok text := by
  rw [ofFile, Utf8.decode_toUTF8]
  simp [Except.map, unifyBreaks_eq_self h]

end NaturalDeduction.Text
