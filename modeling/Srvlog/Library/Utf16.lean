import Srvlog.Library.Text

/-! Texts as sequences of UTF-16 code units, in which surrogates may be unpaired, their
UTF-8 bytes, and a decoder of bytes that ignores what is malformed. -/
namespace Srvlog.Library

section units

def isHighSurrogate (u : UInt16) : Bool := decide (0xD800 ≤ u.toNat ∧ u.toNat < 0xDC00)

def isLowSurrogate (u : UInt16) : Bool := decide (0xDC00 ≤ u.toNat ∧ u.toNat < 0xE000)

def pairChar (high low : UInt16) : Char :=
  Char.ofNat (0x10000 + (high.toNat - 0xD800) * 0x400 + (low.toNat - 0xDC00))

/-- The character of a unit outside a pair. -/
def unitChar (u : UInt16) : Char := if isHighSurrogate u || isLowSurrogate u then '?' else Char.ofNat u.toNat

/-- The characters of a sequence of code units; an unpaired surrogate reads as a question mark. -/
def codePoints : List UInt16 → Text
  | [] => []
  | [u] => [unitChar u]
  | u :: v :: us =>
    if isHighSurrogate u && isLowSurrogate v then pairChar u v :: codePoints us
    else unitChar u :: codePoints (v :: us)

/-- Every unpaired surrogate is replaced by a question mark. -/
def replaceUnpaired : List UInt16 → List UInt16
  | [] => []
  | [u] => [if isHighSurrogate u || isLowSurrogate u then 63 else u]
  | u :: v :: us =>
    if isHighSurrogate u && isLowSurrogate v then u :: v :: replaceUnpaired us
    else (if isHighSurrogate u || isLowSurrogate u then 63 else u) :: replaceUnpaired (v :: us)

def charUnits (ch : Char) : List UInt16 :=
  if ch.toNat < 0x10000 then [UInt16.ofNat ch.toNat]
  else [UInt16.ofNat (0xD800 + (ch.toNat - 0x10000) / 0x400), UInt16.ofNat (0xDC00 + (ch.toNat - 0x10000) % 0x400)]

def utf16 (t : Text) : List UInt16 := t.flatMap charUnits

def utf8 (t : Text) : List UInt8 := t.flatMap String.utf8EncodeChar

/-- `String.getBytes(UTF_8)`. -/
def getBytes (s : List UInt16) : List UInt8 := utf8 (codePoints s)

theorem toNat_range (ch : Char) : ch.toNat < 0xD800 ∨ 0xDFFF < ch.toNat ∧ ch.toNat < 0x110000 := ch.valid

theorem toNat_ofNat {n : Nat} (h : n.isValidChar) : (Char.ofNat n).toNat = n := by
  rw [Char.ofNat, dif_pos h]
  rfl

theorem toNat_pairChar {u v : UInt16} (hu : isHighSurrogate u) (hv : isLowSurrogate v) :
    (pairChar u v).toNat = 0x10000 + (u.toNat - 0xD800) * 0x400 + (v.toNat - 0xDC00) := by
  have hu := of_decide_eq_true hu
  have hv := of_decide_eq_true hv
  refine toNat_ofNat (Or.inr ?_)
  omega

theorem toNat_ofNat_unit {u : UInt16} (hu : isHighSurrogate u = false) (hv : isLowSurrogate u = false) :
    (Char.ofNat u.toNat).toNat = u.toNat := by
  have hu := of_decide_eq_false hu
  have hv := of_decide_eq_false hv
  have hlt := u.toNat_lt
  apply toNat_ofNat
  unfold Nat.isValidChar
  omega

theorem charUnits_unitChar (u : UInt16) :
    charUnits (unitChar u) = [if isHighSurrogate u || isLowSurrogate u then 63 else u] := by
  rw [unitChar]
  split
  · rfl
  · next hu =>
    rw [Bool.or_eq_true, not_or, Bool.not_eq_true, Bool.not_eq_true] at hu
    rw [charUnits, toNat_ofNat_unit hu.1 hu.2, if_pos u.toNat_lt, UInt16.ofNat_toNat]

theorem charUnits_pairChar {u v : UInt16} (hu : isHighSurrogate u) (hv : isLowSurrogate v) :
    charUnits (pairChar u v) = [u, v] := by
  have hn := toNat_pairChar hu hv
  have hu := of_decide_eq_true hu
  have hv := of_decide_eq_true hv
  have hhigh : 0xD800 + ((pairChar u v).toNat - 0x10000) / 0x400 = u.toNat := by omega
  have hlow : 0xDC00 + ((pairChar u v).toNat - 0x10000) % 0x400 = v.toNat := by omega
  rw [charUnits, if_neg (by omega), hhigh, hlow, UInt16.ofNat_toNat, UInt16.ofNat_toNat]

/-- The characters of a sequence of units are those of the sequence without unpaired surrogates. -/
theorem utf16_codePoints (s : List UInt16) : utf16 (codePoints s) = replaceUnpaired s := by
  unfold utf16
  induction s using codePoints.induct with
  | case1 => rfl
  | case2 u =>
    rw [codePoints, replaceUnpaired, List.flatMap_singleton, charUnits_unitChar]
  | case3 u v us hpair ih =>
    obtain ⟨hu, hv⟩ := Bool.and_eq_true_iff.mp hpair
    rw [codePoints, replaceUnpaired, if_pos hpair, if_pos hpair, List.flatMap_cons, ih, charUnits_pairChar hu hv]
    rfl
  | case4 u v us hpair ih =>
    rw [codePoints, replaceUnpaired, if_neg hpair, if_neg hpair, List.flatMap_cons, ih, charUnits_unitChar]
    rfl

theorem codePoints_cons {u : UInt16} (hu : isHighSurrogate u = false) (us : List UInt16) :
    codePoints (u :: us) = unitChar u :: codePoints us := by
  cases us with
  | nil => rfl
  | cons v us => rw [codePoints, hu, Bool.false_and, if_neg Bool.false_ne_true]

theorem codePoints_utf16 (t : Text) : codePoints (utf16 t) = t := by
  induction t with
  | nil => rfl
  | cons ch t ih =>
    have hrange := toNat_range ch
    change codePoints (charUnits ch ++ utf16 t) = _
    rw [charUnits]
    split
    · next hlt =>
      have hn : (UInt16.ofNat ch.toNat).toNat = ch.toNat := UInt16.toNat_ofNat_of_lt' hlt
      have hhigh : isHighSurrogate (UInt16.ofNat ch.toNat) = false := decide_eq_false (by omega)
      have hlow : isLowSurrogate (UInt16.ofNat ch.toNat) = false := decide_eq_false (by omega)
      rw [List.singleton_append, codePoints_cons hhigh, ih, unitChar, hhigh, hlow, hn, Char.ofNat_toNat]
      rfl
    · next hge =>
      have hu := UInt16.toNat_ofNat_of_lt' (show 0xD800 + (ch.toNat - 0x10000) / 0x400 < 2 ^ 16 by omega)
      have hv := UInt16.toNat_ofNat_of_lt' (show 0xDC00 + (ch.toNat - 0x10000) % 0x400 < 2 ^ 16 by omega)
      generalize UInt16.ofNat (0xD800 + (ch.toNat - 0x10000) / 0x400) = u at hu ⊢
      generalize UInt16.ofNat (0xDC00 + (ch.toNat - 0x10000) % 0x400) = v at hv ⊢
      have hhigh : isHighSurrogate u = true := decide_eq_true (by omega)
      have hlow : isLowSurrogate v = true := decide_eq_true (by omega)
      have hchar : pairChar u v = ch := by
        have hn := toNat_pairChar hhigh hlow
        refine Char.toNat_inj.mp ?_
        omega
      change codePoints (u :: v :: utf16 t) = _
      rw [codePoints, hhigh, hlow, Bool.and_self, if_pos rfl, ih, hchar]

end units

section bytes

theorem length_charUnits_le (ch : Char) : (charUnits ch).length ≤ ch.utf8Size := by
  unfold charUnits
  split
  · exact Char.utf8Size_pos ch
  · next hge =>
    have hsize : ch.utf8Size = 4 := Char.utf8Size_eq_four_iff.mpr (by
      rw [UInt32.lt_iff_toNat_lt]
      exact Nat.not_lt.mp hge)
    rw [hsize]
    exact Nat.le_of_lt (Nat.lt_of_lt_of_le (Nat.lt_succ_self 2) (Nat.le_succ 3))

theorem length_utf16_le (t : Text) : (utf16 t).length ≤ (utf8 t).length := by
  induction t with
  | nil => exact Nat.le_refl 0
  | cons ch t ih =>
    have hch := length_charUnits_le ch
    unfold utf16 utf8 at ih ⊢
    rw [List.flatMap_cons, List.flatMap_cons, List.length_append, List.length_append, String.length_utf8EncodeChar]
    omega

/-- The character whose UTF-8 encoding begins the bytes. -/
def decodeFirst (bytes : List UInt8) : Option Char := bytes.toByteArray.utf8DecodeChar? 0

inductive CoderResult where
  | underflow
  | overflow
  deriving DecidableEq

/-- `CharsetDecoder.decode` for UTF-8, at the end of the input, into a buffer with room for so
many units. A byte that no character begins with is ignored. -/
def decode (room : Nat) : List UInt8 → CoderResult × List UInt16
  | [] => (.underflow, [])
  | byte :: bytes =>
    match decodeFirst (byte :: bytes) with
    | none => decode room bytes
    | some ch =>
      if room < (charUnits ch).length then (.overflow, [])
      else
        let (result, units) := decode (room - (charUnits ch).length) (bytes.drop (ch.utf8Size - 1))
        (result, charUnits ch ++ units)
  termination_by bytes => bytes.length

theorem decodeFirst_append (ch : Char) (bytes : List UInt8) :
    decodeFirst (String.utf8EncodeChar ch ++ bytes) = some ch := by
  rw [decodeFirst, List.toByteArray_append]
  exact ByteArray.utf8DecodeChar?_utf8EncodeChar_append

/-- Inside an encoding that is cut off no other one begins. -/
theorem decodeFirst_cut {ch : Char} {front bytes back : List UInt8}
    (h : String.utf8EncodeChar ch = front ++ (bytes ++ back)) (hback : back ≠ []) : decodeFirst bytes = none := by
  by_contra hne
  obtain ⟨other, hother⟩ := Option.ne_none_iff_exists'.mp hne
  cases front with
  | nil =>
    -- the whole encoding would begin with both characters
    have hsame : decodeFirst (bytes ++ back) = some other := by
      rw [decodeFirst, List.toByteArray_append]
      exact ByteArray.utf8DecodeChar?_append_eq_some hother _
    rw [List.nil_append] at h
    rw [← h, ← List.append_nil (String.utf8EncodeChar ch), decodeFirst_append] at hsame
    obtain rfl := Option.some.inj hsame
    have hlength := congrArg List.length h
    have hle := ByteArray.le_size_of_utf8DecodeChar?_eq_some hother
    have hpos := List.length_pos_iff.mpr hback
    rw [List.length_append, String.length_utf8EncodeChar] at hlength
    rw [List.size_toByteArray] at hle
    omega
  | cons first front =>
    have hfirst := ByteArray.isUTF8FirstByte_of_isSome_utf8DecodeChar? (Option.isSome_of_eq_some hother)
    have hnonempty := ByteArray.lt_size_of_isSome_utf8DecodeChar? (Option.isSome_of_eq_some hother)
    rw [List.size_toByteArray] at hnonempty
    rw [List.getElem_toByteArray] at hfirst
    have hindex : (first :: front).length < (String.utf8EncodeChar ch).length := by
      rw [h, List.length_append, List.length_append]
      omega
    have hbyte : (String.utf8EncodeChar ch)[(first :: front).length] = bytes[0] := by
      simp only [h]
      rw [List.getElem_append_right (Nat.le_refl _)]
      simp only [Nat.sub_self]
      rw [List.getElem_append_left hnonempty]
    rw [← hbyte, UInt8.isUTF8FirstByte_getElem_utf8EncodeChar] at hfirst
    exact Nat.succ_ne_zero _ hfirst

/-- What is left of a character that was cut is ignored. -/
theorem decode_cut {ch : Char} {front bytes back : List UInt8} (room : Nat)
    (h : String.utf8EncodeChar ch = front ++ (bytes ++ back)) (hback : back ≠ []) :
    decode room bytes = (.underflow, []) := by
  induction bytes generalizing front with
  | nil => rw [decode]
  | cons byte bytes ih =>
    rw [decode, decodeFirst_cut h hback]
    apply @ih (front ++ [byte])
    rw [h]
    simp

/-- Whole characters are decoded as long as there is room. -/
theorem decode_utf8_append (t : Text) (bytes : List UInt8) {room : Nat} (hroom : (utf16 t).length ≤ room) :
    decode room (utf8 t ++ bytes) =
      ((decode (room - (utf16 t).length) bytes).1, utf16 t ++ (decode (room - (utf16 t).length) bytes).2) := by
  induction t generalizing room with
  | nil => rfl
  | cons ch t ih =>
    have hunits : (utf16 (ch :: t)).length = (charUnits ch).length + (utf16 t).length := by
      rw [utf16, List.flatMap_cons, List.length_append]
      rfl
    have hlength := String.length_utf8EncodeChar ch
    have hpos := Char.utf8Size_pos ch
    obtain ⟨byte, rest, hencode⟩ : ∃ byte rest, String.utf8EncodeChar ch = byte :: rest :=
      List.exists_cons_of_length_pos (by omega)
    have hfirst : decodeFirst (byte :: (rest ++ (utf8 t ++ bytes))) = some ch := by
      rw [← List.cons_append, ← hencode]
      exact decodeFirst_append ch _
    have hdrop : (rest ++ (utf8 t ++ bytes)).drop (ch.utf8Size - 1) = utf8 t ++ bytes := by
      rw [hencode, List.length_cons] at hlength
      rw [← hlength, Nat.add_sub_cancel, List.drop_left]
    change decode room ((String.utf8EncodeChar ch ++ utf8 t) ++ bytes) = _
    rw [List.append_assoc, hencode, List.cons_append, decode, hfirst]
    simp only [hdrop]
    rw [if_neg (by omega), ih (by omega), hunits, Nat.sub_add_eq]
    simp only [utf16, List.flatMap_cons, List.append_assoc]

end bytes
end Srvlog.Library
