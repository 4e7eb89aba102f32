import Srvlog.Collector.TruncationUtil
import Srvlog.Library.Utf16

/-! Cutting texts to a number of bytes as the code does it: over UTF-16 code units, of which
some may be unpaired surrogates, through the bytes and a decoder with a buffer. -/
namespace Srvlog.Collector.TruncationUtil
open Library

def truncateString (maxBytes : Nat) : Option (List UInt16) → Option (List UInt16)
  | none => none
  | some input =>
    if input = [] then none
    else if input.length ≤ maxBytes / MAX_BYTES_PER_SYMBOL then some input
    else if (getBytes input).length ≤ maxBytes then some input
    else some (decode maxBytes ((getBytes input).take maxBytes)).2

example : truncateString 5 (some [65, 0xD83D, 0xDE00, 66]) = some [65, 0xD83D, 0xDE00] := by decide +kernel
example : truncateString 3 (some [0xD800, 66, 67, 68]) = some [63, 66, 67] := by decide +kernel

section lengths

theorem length_utf8 (t : Text) : (utf8 t).length = utf8Length t := by
  rw [utf8, List.length_flatMap, utf8Length]
  simp only [String.length_utf8EncodeChar]

theorem length_utf16 (t : Text) : (utf16 t).length = utf16Length t := by
  induction t with
  | nil => rfl
  | cons ch t ih =>
    rw [utf16, List.flatMap_cons, List.length_append, utf16Length, List.map_cons, List.sum_cons]
    change _ + (utf16 t).length = _ + utf16Length t
    rw [ih, charUnits]
    congr 1
    split <;> rfl

theorem length_codePoints_bytes_le (s : List UInt16) : (getBytes s).length ≤ MAX_BYTES_PER_SYMBOL * s.length := by
  have hreplaced : (replaceUnpaired s).length = s.length := by
    induction s using replaceUnpaired.induct with
    | case1 => rfl
    | case2 u => rfl
    | case3 u v us hpair ih => rw [replaceUnpaired, if_pos hpair, List.length_cons, List.length_cons, ih]; rfl
    | case4 u v us hpair ih => rw [replaceUnpaired, if_neg hpair, List.length_cons, ih]; rfl
  have hle := utf8Length_le_utf16Length (codePoints s)
  rw [← length_utf8, ← length_utf16, utf16_codePoints, hreplaced] at hle
  exact hle

end lengths

section longest

theorem decodeBytes_prefix (bytes : Nat) (t : Text) : decodeBytes bytes t <+: t := by
  induction t generalizing bytes with
  | nil => exact List.nil_prefix
  | cons ch t ih =>
    rw [decodeBytes]
    split
    · exact List.cons_prefix_cons.mpr ⟨rfl, ih _⟩
    · exact List.nil_prefix

/-- Every beginning that fits is a beginning of the one that is kept. -/
theorem prefix_decodeBytes {bytes : Nat} {t front : Text} (hfront : front <+: t) (hfits : utf8Length front ≤ bytes) :
    front <+: decodeBytes bytes t := by
  induction t generalizing bytes front with
  | nil =>
    rw [List.prefix_nil.mp hfront]
    exact List.nil_prefix
  | cons ch t ih =>
    cases front with
    | nil => exact List.nil_prefix
    | cons first front =>
      obtain ⟨rfl, hrest⟩ := List.cons_prefix_cons.mp hfront
      rw [utf8Length, List.map_cons, List.sum_cons] at hfits
      rw [decodeBytes, if_pos (Nat.le_trans (Nat.le_add_right _ _) hfits)]
      refine List.cons_prefix_cons.mpr ⟨rfl, ih hrest ?_⟩
      unfold utf8Length
      omega

/-- The bytes that are kept are whole characters and the beginning of another one. -/
theorem exists_cut (bytes : Nat) (t : Text) : ∃ cut ch back,
    (utf8 t).take bytes = utf8 (decodeBytes bytes t) ++ cut ∧ String.utf8EncodeChar ch = cut ++ back ∧ back ≠ [] := by
  induction t generalizing bytes with
  | nil =>
    refine ⟨[], ' ', String.utf8EncodeChar ' ', List.take_nil, rfl, ?_⟩
    exact List.ne_nil_of_length_pos (by rw [String.length_utf8EncodeChar]; exact Char.utf8Size_pos _)
  | cons ch t ih =>
    have hlength := String.length_utf8EncodeChar ch
    rw [decodeBytes]
    split
    · next hle =>
      obtain ⟨cut, other, back, htake, hcut, hback⟩ := ih (bytes - ch.utf8Size)
      refine ⟨cut, other, back, ?_, hcut, hback⟩
      change (String.utf8EncodeChar ch ++ utf8 t).take bytes = (String.utf8EncodeChar ch ++ utf8 _) ++ cut
      rw [List.take_append, List.take_of_length_le (by omega), hlength, htake, List.append_assoc]
    · next hgt =>
      refine ⟨(String.utf8EncodeChar ch).take bytes, ch, (String.utf8EncodeChar ch).drop bytes, ?_,
        (List.take_append_drop _ _).symm, ?_⟩
      · change (String.utf8EncodeChar ch ++ utf8 t).take bytes = [] ++ _
        rw [List.take_append_of_le_length (by omega), List.nil_append]
      · exact List.ne_nil_of_length_pos (by rw [List.length_drop]; omega)

/-- The buffer is large enough, and what is read is the longest beginning that fits. -/
theorem decode_take_bytes (maxBytes : Nat) (t : Text) :
    decode maxBytes ((utf8 t).take maxBytes) = (.underflow, utf16 (decodeBytes maxBytes t)) := by
  obtain ⟨cut, ch, back, htake, hcut, hback⟩ := exists_cut maxBytes t
  have hroom : (utf16 (decodeBytes maxBytes t)).length ≤ maxBytes := by
    have hle := length_utf16_le (decodeBytes maxBytes t)
    rw [length_utf8] at hle
    exact Nat.le_trans hle (utf8Length_decodeBytes_le maxBytes t)
  rw [htake, decode_utf8_append _ _ hroom, @decode_cut ch [] cut back _ hcut hback, List.append_nil]

end longest

/-- On texts without unpaired surrogates this is the cut over characters. -/
theorem truncateString_utf16 (maxBytes : Nat) (input : Option Text) :
    truncateString maxBytes (input.map utf16) = (Collector.truncateString maxBytes input).map utf16 := by
  cases input with
  | none => rfl
  | some t =>
    have hnil : utf16 t = [] ↔ t = [] := by
      constructor
      · intro h
        rw [← codePoints_utf16 t, h]
        rfl
      · rintro rfl
        rfl
    rw [Option.map_some, truncateString, Collector.truncateString, getBytes, codePoints_utf16, length_utf8, length_utf16,
      decode_take_bytes]
    simp only [hnil]
    split_ifs <;> rfl

/-- A text that fits stays as it is, whichever check finds out; of any other one the longest
beginning of whole characters that fits is kept, with question marks for unpaired surrogates.
The result fits, and the decoder has room for it. -/
theorem truncateString_keeps_longest (maxBytes : Nat) {s : List UInt16} (hs : s ≠ []) :
    utf16 (codePoints s) = replaceUnpaired s ∧
    (s.length ≤ maxBytes / MAX_BYTES_PER_SYMBOL → (utf8 (codePoints s)).length ≤ maxBytes) ∧
    ((utf8 (codePoints s)).length ≤ maxBytes → truncateString maxBytes (some s) = some s) ∧
    (maxBytes < (utf8 (codePoints s)).length → ∃ kept, truncateString maxBytes (some s) = some (utf16 kept) ∧
      kept <+: codePoints s ∧ (utf8 kept).length ≤ maxBytes ∧
      ∀ front, front <+: codePoints s → (utf8 front).length ≤ maxBytes → front <+: kept) ∧
    (∀ result, truncateString maxBytes (some s) = some result → (getBytes result).length ≤ maxBytes) ∧
    (decode maxBytes ((getBytes s).take maxBytes)).1 = .underflow := by
  have hshort : s.length ≤ maxBytes / MAX_BYTES_PER_SYMBOL → (utf8 (codePoints s)).length ≤ maxBytes := by
    intro hle
    have hbytes := length_codePoints_bytes_le s
    unfold MAX_BYTES_PER_SYMBOL at hle hbytes
    unfold getBytes at hbytes
    omega
  have hfits : (utf8 (codePoints s)).length ≤ maxBytes → truncateString maxBytes (some s) = some s := by
    intro hle
    rw [truncateString, if_neg hs, getBytes, if_pos hle, ite_self]
  have hcut : maxBytes < (utf8 (codePoints s)).length →
      truncateString maxBytes (some s) = some (utf16 (decodeBytes maxBytes (codePoints s))) := by
    intro hlt
    rw [truncateString, if_neg hs, if_neg fun hle => Nat.not_le.mpr hlt (hshort hle), getBytes,
      if_neg (Nat.not_le.mpr hlt), decode_take_bytes]
  refine ⟨utf16_codePoints s, hshort, hfits, fun hlt => ?_, fun result hresult => ?_, ?_⟩
  · refine ⟨decodeBytes maxBytes (codePoints s), hcut hlt, decodeBytes_prefix _ _, ?_, fun front hfront hle => ?_⟩
    · rw [length_utf8]
      exact utf8Length_decodeBytes_le _ _
    · rw [length_utf8] at hle
      exact prefix_decodeBytes hfront hle
  · rcases Nat.lt_or_ge maxBytes (utf8 (codePoints s)).length with hlt | hge
    · rw [hcut hlt] at hresult
      obtain rfl := Option.some.inj hresult
      rw [getBytes, codePoints_utf16, length_utf8]
      exact utf8Length_decodeBytes_le _ _
    · rw [hfits hge] at hresult
      obtain rfl := Option.some.inj hresult
      exact hge
  · rw [getBytes, decode_take_bytes]

/-- A limit inside an emoji behind an unpaired surrogate. -/
theorem emoji_cut_off : truncateString 4 (some [0xD800, 0xD83D, 0xDE00, 66]) = some [63] ∧
    ∃ kept, truncateString 4 (some [0xD800, 0xD83D, 0xDE00, 66]) = some (utf16 kept) ∧
      kept <+: codePoints [0xD800, 0xD83D, 0xDE00, 66] := by
  have hlt : 4 < (utf8 (codePoints [0xD800, 0xD83D, 0xDE00, 66])).length := by decide
  obtain ⟨-, -, -, hcut, -⟩ := truncateString_keeps_longest 4 (List.cons_ne_nil 0xD800 [0xD83D, 0xDE00, 66])
  obtain ⟨kept, hkept, hfront, -⟩ := hcut hlt
  exact ⟨by decide +kernel, kept, hkept, hfront⟩

end Srvlog.Collector.TruncationUtil
